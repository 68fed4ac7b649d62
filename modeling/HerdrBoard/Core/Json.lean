import HerdrBoard.Core.Text
import HerdrBoard.Core.Harness

/-!
# JSON values

Objects list their fields by ascending key, each key once.
-/

namespace HerdrBoard.Core

open OpenCode (jsonString)

inductive Number where
  | posInt (n : Nat)
  | negInt (n : Int)
  /-- As it is written. -/
  | float (text : String)
  deriving DecidableEq, Repr

inductive Value where
  | null
  | bool (b : Bool)
  | number (n : Number)
  | string (s : String)
  | array (items : List Value)
  | object (fields : List (String × Value))

namespace Value

/-- The value of a field of an object. -/
def get : Value → String → Option Value
  | .object fields, key => fields.lookup key
  | _, _ => none

def asStr : Value → Option String
  | .string s => some s
  | _ => none

def asU64 : Value → Option Nat
  | .number (.posInt n) => some n
  | _ => none

def asArray : Value → Option (List Value)
  | .array items => some items
  | _ => none

def isObject : Value → Bool
  | .object _ => true
  | _ => false

def isNull : Value → Bool
  | .null => true
  | _ => false

/-- Insert a field, or replace the field of the key. -/
def insertField (key : String) (value : Value) : List (String × Value) → List (String × Value)
  | [] => [(key, value)]
  | (k, v) :: fields =>
      if key < k then (key, value) :: (k, v) :: fields
      else if key = k then (key, value) :: fields
      else (k, v) :: insertField key value fields

/-- A map collected from pairs: the last value of a key wins. -/
def collectFields (pairs : List (String × Value)) : List (String × Value) :=
  pairs.foldl (fun fields kv => insertField kv.1 kv.2 fields) []

mutual

def toText : Value → String
  | .null => "null"
  | .bool b => if b then "true" else "false"
  | .number (.posInt n) => toString n
  | .number (.negInt n) => toString n
  | .number (.float text) => text
  | .string s => jsonString s
  | .array items => "[" ++ itemsText items ++ "]"
  | .object fields => "\x7b" ++ fieldsText fields ++ "\x7d"

def itemsText : List Value → String
  | [] => ""
  | [item] => item.toText
  | item :: items => item.toText ++ "," ++ itemsText items

def fieldsText : List (String × Value) → String
  | [] => ""
  | [(key, item)] => jsonString key ++ ":" ++ item.toText
  | (key, item) :: fields => jsonString key ++ ":" ++ item.toText ++ "," ++ fieldsText fields

end

end Value

mutual

/-- Every string in the value, object keys included, through `stripControlKeepLines`. -/
def sanitiseJson : Value → Value
  | .string text => .string (stripControlKeepLines text)
  | .array items => .array (sanitiseItems items)
  | .object fields => .object (Value.collectFields (sanitiseFields fields))
  | .null => .null
  | .bool b => .bool b
  | .number n => .number n

def sanitiseItems : List Value → List Value
  | [] => []
  | item :: items => sanitiseJson item :: sanitiseItems items

def sanitiseFields : List (String × Value) → List (String × Value)
  | [] => []
  | (key, item) :: fields => (stripControlKeepLines key, sanitiseJson item) :: sanitiseFields fields

end

end HerdrBoard.Core
