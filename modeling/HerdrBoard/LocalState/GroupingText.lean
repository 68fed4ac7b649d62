import HerdrBoard.LocalState.Ordered

/-!
# Grouping texts

How a person's JSON becomes a grouping: read strictly, cleaned, and taken for a config or
for a mapping. -/

open Lib HerdrBoard.Core

namespace HerdrBoard.LocalState

/-! ## Texts -/

/-- A JSON text as it is written: the fields of an object in order, a key as often as it occurs. -/
inductive JsonText where
  | null
  | bool (b : Bool)
  | number (n : Number)
  | string (s : String)
  | array (items : List JsonText)
  | object (fields : List (String × JsonText))

/-- What the JSON library does: it reads a text, places a fault of the visitor in the text, and
words a mismatch of types. -/
structure JsonReader where
  tree : String → Except String JsonText
  located : String → String → String
  mismatch : Value → String

mutual

/-- `StrictVisitor`. -/
def strictValue : JsonText → Except String Value
  | .null => .ok .null
  | .bool b => .ok (.bool b)
  | .number n => .ok (.number n)
  | .string s => .ok (.string s)
  | .array items => do
      let items ← strictItems items
      .ok (.array items)
  | .object fields => do
      let fields ← strictFields [] fields
      .ok (.object fields)

def strictItems : List JsonText → Except String (List Value)
  | [] => .ok []
  | item :: items => do
      let value ← strictValue item
      let values ← strictItems items
      .ok (value :: values)

def strictFields (out : List (String × Value)) :
    List (String × JsonText) → Except String (List (String × Value))
  | [] => .ok out
  | (key, item) :: fields => do
      if out.any fun f => f.1 == key then .error s!"duplicate key {debugStr key}"
      else
        let value ← strictValue item
        strictFields (Value.insertField key value out) fields

end

def parseJsonRefusingDuplicateKeys (reader : JsonReader) (text : String) : Except String Value := do
  let tree ← reader.tree text
  (strictValue tree).mapError (reader.located text)

/-! ## Typed values -/

section

variable {α β γ : Type}

/-- The two fields of a struct, from an object that has no others and none twice. -/
def readFields (first second : String) (readFirst : Value → Option α)
    (readSecond : Value → Option β) :
    Option α → Option β → List (String × Value) → Option (Option α × Option β)
  | a, b, [] => some (a, b)
  | a, b, (key, value) :: fields =>
      if key = first then
        if a.isSome then none
        else do
          let a ← readFirst value
          readFields first second readFirst readSecond (some a) b fields
      else if key = second then
        if b.isSome then none
        else do
          let b ← readSecond value
          readFields first second readFirst readSecond a (some b) fields
      else none

/-- A struct of two fields with `deny_unknown_fields`: from an object, or from an array in the order
of the fields. -/
def readStruct (first second : String) (readFirst : Value → Option α)
    (readSecond : Value → Option β) (missing : Option β) (make : α → β → γ) : Value → Option γ
  | .object fields => do
      let (a, b) ← readFields first second readFirst readSecond none none fields
      pure (make (← a) (← b <|> missing))
  | .array [a] => do pure (make (← readFirst a) (← missing))
  | .array [a, b] => do pure (make (← readFirst a) (← readSecond b))
  | _ => none

end

def readLevels : Value → Option (List (String × String))
  | .object fields => fields.mapM fun f => f.2.asStr.map fun kind => (f.1, kind)
  | _ => none

def readFilter : Value → Option (List (String × Value))
  | .object fields => some fields
  | _ => none

def readMapping : Value → Option GroupingMapping :=
  readStruct "levels" "filter" readLevels readFilter none GroupingMapping.mk

/-- `StrictSpace`. -/
def readSpace : Value → Option SpaceGrouping :=
  readStruct "space" "mapping" Value.asStr readMapping none SpaceGrouping.mk

def readSpaces : Value → Option (List SpaceGrouping)
  | .array items => items.mapM readSpace
  | _ => none

/-- `StrictConfig`. -/
def readConfig : Value → Option GroupingConfig :=
  readStruct "global" "spaces" readMapping readSpaces (some []) GroupingConfig.mk

/-- The requests over a JSON library. -/
def Outside.reading (out : Outside) (reader : JsonReader) : Outside :=
  { out with
    parseJson := parseJsonRefusingDuplicateKeys reader
    configOfValue v := (readConfig v).elim (.error (reader.mismatch v)) .ok
    mappingOfValue v := (readMapping v).elim (.error (reader.mismatch v)) .ok }

/-! ## What a text says -/

mutual

/-- The keys and the strings of a text. -/
def JsonText.texts : JsonText → List String
  | .string s => [s]
  | .array items => itemsTexts items
  | .object fields => fieldsTexts fields
  | _ => []

def itemsTexts : List JsonText → List String
  | [] => []
  | item :: items => item.texts ++ itemsTexts items

def fieldsTexts : List (String × JsonText) → List String
  | [] => []
  | (key, item) :: fields => key :: item.texts ++ fieldsTexts fields

end

mutual

/-- No two keys of one object are equal once they are cleaned. -/
def JsonText.StaysDistinct : JsonText → Prop
  | .array items => ItemsStayDistinct items
  | .object fields => (fields.map fun f => stripControlKeepLines f.1).Nodup ∧
      FieldsStayDistinct fields
  | _ => True

def ItemsStayDistinct : List JsonText → Prop
  | [] => True
  | item :: items => item.StaysDistinct ∧ ItemsStayDistinct items

def FieldsStayDistinct : List (String × JsonText) → Prop
  | [] => True
  | (_, item) :: fields => item.StaysDistinct ∧ FieldsStayDistinct fields

end

mutual

/-- The value is the text with its strings cleaned: every object has each cleaned key once, with
what stands under it. -/
def Keeps : JsonText → Value → Prop
  | .null, v => v = .null
  | .bool b, v => v = .bool b
  | .number n, v => v = .number n
  | .string s, v => v = .string (stripControlKeepLines s)
  | .array items, v => ∃ items', v = .array items' ∧ KeepsItems items items'
  | .object fields, v =>
      ∃ fields' kept, v = .object fields' ∧ (fields'.map Prod.fst).Nodup ∧ fields'.Perm kept ∧
      KeepsFields fields kept

def KeepsItems : List JsonText → List Value → Prop
  | [], values => values = []
  | item :: items, values => ∃ v rest, values = v :: rest ∧ Keeps item v ∧ KeepsItems items rest

def KeepsFields : List (String × JsonText) → List (String × Value) → Prop
  | [], kept => kept = []
  | (key, item) :: fields, kept =>
      ∃ v rest, kept = (stripControlKeepLines key, v) :: rest ∧ Keeps item v ∧
      KeepsFields fields rest

end

mutual

/-- The keys and the strings of a value. -/
def valueTexts : Value → List String
  | .string s => [s]
  | .array items => valueItemsTexts items
  | .object fields => valueFieldsTexts fields
  | _ => []

def valueItemsTexts : List Value → List String
  | [] => []
  | item :: items => valueTexts item ++ valueItemsTexts items

def valueFieldsTexts : List (String × Value) → List String
  | [] => []
  | (key, item) :: fields => key :: valueTexts item ++ valueFieldsTexts fields

end

/-- The keys and the strings of a stored mapping. -/
def GroupingMapping.texts (m : GroupingMapping) : List String :=
  ("levels" :: m.levels.flatMap fun l => [l.1, l.2]) ++ ("filter" :: valueFieldsTexts m.filter)

def SpaceGrouping.texts (e : SpaceGrouping) : List String :=
  "space" :: e.space :: "mapping" :: e.mapping.texts

def GroupingConfig.texts (c : GroupingConfig) : List String :=
  ("global" :: c.global.texts) ++ ("spaces" :: c.spaces.flatMap SpaceGrouping.texts)

end HerdrBoard.LocalState
