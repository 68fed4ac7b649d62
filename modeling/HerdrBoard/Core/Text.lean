import Mathlib.Data.List.Basic

/-!
# Text

Character classes that must never reach a terminal, and the string operations of the
standard library. -/

namespace HerdrBoard.Core

def isControl (c : Char) : Bool := c.toNat ≤ 0x1f || (0x7f ≤ c.toNat && c.toNat ≤ 0x9f)

/-- Unicode format characters (Cf) and the line and paragraph separators. -/
def isFormatChar (c : Char) : Bool :=
  let n := c.toNat
  n == 0xad || n == 0x061c || n == 0x180e || (0x200b ≤ n && n ≤ 0x200f) ||
    (0x2028 ≤ n && n ≤ 0x202e) ||
    (0x2060 ≤ n && n ≤ 0x206f) || n == 0xfeff || (0xfff9 ≤ n && n ≤ 0xfffb) ||
      (0xe0000 ≤ n && n ≤ 0xe007f)

def stripControlAndFormat (s : String) : String :=
  String.ofList (s.toList.filter fun c => !isControl c && !isFormatChar c)

/-- Keeps tab and newline. -/
def stripControlKeepLines (s : String) : String :=
  String.ofList (s.toList.filter fun c =>
    !((isControl c && c ≠ '\t' && c ≠ '\n') || isFormatChar c))

/-- Non-empty text without control characters. -/
def textOk (s : String) : Bool := s ≠ "" && s.toList.all fun c => !isControl c

/-! ## Splitting -/

/-- The text before and after the first `c`. -/
def splitOnceChars (c : Char) : List Char → Option (List Char × List Char)
  | [] => none
  | a :: rest => if a = c then some ([], rest)
      else (splitOnceChars c rest).map fun (l, r) => (a :: l, r)

/-- The text before and after the last `c`. -/
def rsplitOnce (c : Char) (s : String) : Option (String × String) :=
  (splitOnceChars c s.toList.reverse).map fun (l, r) =>
    (String.ofList r.reverse, String.ofList l.reverse)

def stripPrefixChars : List Char → List Char → Option (List Char)
  | [], rest => some rest
  | _ :: _, [] => none
  | p :: ps, a :: rest => if p = a then stripPrefixChars ps rest else none

def stripPrefix (p s : String) : Option String :=
  (stripPrefixChars p.toList s.toList).map String.ofList

def stripSuffix (p s : String) : Option String :=
  (stripPrefixChars p.toList.reverse s.toList.reverse).map fun rest => String.ofList rest.reverse

/-! ## Numbers and timestamps -/

def digitsValue (chars : List Char) : Option Nat :=
  if chars.isEmpty || !chars.all Char.isDigit then none
  else some (chars.foldl (fun n c => 10 * n + (c.toNat - '0'.toNat)) 0)

/-- `str::parse::<i64>`. -/
def parseI64 (chars : List Char) : Option Int :=
  let value := match chars with
    | '-' :: digits => (digitsValue digits).map fun n => -(n : Int)
    | '+' :: digits => (digitsValue digits).map fun n => (n : Int)
    | digits => (digitsValue digits).map fun n => (n : Int)
  value.filter fun n => -9223372036854775808 ≤ n ∧ n ≤ 9223372036854775807

/-- Days since 1970-01-01. -/
def daysFromCivil (y m d : Int) : Int :=
  let y := if m ≤ 2 then y - 1 else y
  let era := (if y ≥ 0 then y else y - 399).tdiv 400
  let yoe := y - era * 400
  let doy := (153 * (if m > 2 then m - 3 else m + 9) + 2).tdiv 5 + d - 1
  let doe := yoe * 365 + yoe.tdiv 4 - yoe.tdiv 100 + doy
  era * 146097 + doe - 719468

/-- The seconds since the epoch of a `YYYY-MM-DD HH:MM[:SS]` text. -/
def parseTimestamp (s : String) : Option Int := do
  let (date, time) ← splitOnceChars ' ' s.toList
  let d := date.splitOn '-'
  let year ← d[0]?.bind parseI64
  let month ← d[1]?.bind parseI64
  let day ← d[2]?.bind parseI64
  let t := time.splitOn ':'
  let hh ← t[0]?.bind parseI64
  let mm ← t[1]?.bind parseI64
  let ss ← parseI64 (t[2]?.getD ['0'])
  pure (daysFromCivil year month day * 86400 + hh * 3600 + mm * 60 + ss)

/-! ## Lower case -/

/-- Only characters of ASCII have another lower case. -/
theorem toLower_induction {p : Char → Prop} (hsmall : ∀ n < 128, p (Char.ofNat n))
    (hsame : ∀ c, c.toLower = c → p c) (c : Char) : p c := by
  by_cases h : c.toNat < 128
  · have hchar := hsmall c.toNat h
    rwa [Char.ofNat_toNat] at hchar
  · refine hsame c ?_
    unfold Char.toLower
    rw [dif_neg]
    rintro ⟨-, hle⟩
    exact h (Nat.lt_of_le_of_lt (UInt32.le_iff_toNat_le.mp hle) (by decide))

theorem toLower_toLower (c : Char) : c.toLower.toLower = c.toLower :=
  toLower_induction (p := fun c => c.toLower.toLower = c.toLower) (by decide +kernel)
    (fun c h => by rw [h, h]) c

/-! ## Quoting -/

def hexDigits (n width : Nat) : String :=
  let digits := (Nat.toDigits 16 n).map Char.toLower
  String.ofList (List.replicate (width - digits.length) '0' ++ digits)

/-- A character of a debug-formatted string; characters past ASCII are kept as they are. -/
def debugEscape (c : Char) : String :=
  if c = '"' then "\\\""
  else if c = '\\' then "\\\\"
  else if c = '\n' then "\\n"
  else if c = '\r' then "\\r"
  else if c = '\t' then "\\t"
  else if c.toNat = 0 then "\\0"
  else if isControl c then "\\u\x7b" ++ hexDigits c.toNat 1 ++ "\x7d"
  else c.toString

def debugStr (s : String) : String := "\"" ++ String.join (s.toList.map debugEscape) ++ "\""

end HerdrBoard.Core
