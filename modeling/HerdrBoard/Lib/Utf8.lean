import Mathlib.Data.List.Basic
import Mathlib.Tactic.Common

/-!
# UTF-8 text in pieces

Text as bytes, its decoding, and its lines.
-/

namespace Lib

def utf8 (chars : List Char) : List UInt8 := chars.flatMap String.utf8EncodeChar

/-- `str::from_utf8`. -/
def decodeUtf8 (bytes : List UInt8) : Option String := String.fromUTF8? bytes.toByteArray

@[simp] theorem utf8_nil : utf8 [] = [] := rfl

@[simp] theorem utf8_append (a b : List Char) : utf8 (a ++ b) = utf8 a ++ utf8 b :=
  List.flatMap_append

theorem decodeUtf8_utf8 (chars : List Char) :
    decodeUtf8 (utf8 chars) = some (String.ofList chars) := by
  have hvalid : (utf8 chars).toByteArray.IsValidUTF8 := ByteArray.isValidUTF8_utf8Encode
  rw [decodeUtf8, String.fromUTF8?, dif_pos hvalid]
  rfl

theorem eq_utf8_of_decodeUtf8 {bytes : List UInt8} {s : String} (h : decodeUtf8 bytes = some s) :
    bytes = utf8 s.toList := by
  unfold decodeUtf8 String.fromUTF8? at h
  split at h
  · next hvalid =>
      have hbytes : s.toByteArray = bytes.toByteArray := by
        cases h
        rfl
      have hchars : (utf8 s.toList).toByteArray = bytes.toByteArray :=
        String.utf8Encode_toList.trans hbytes
      have hdata := congrArg ByteArray.data hchars
      simpa using hdata.symm
  · cases h

theorem utf8_injective : Function.Injective utf8 := by
  intro a b h
  have hdecoded : some (String.ofList a) = some (String.ofList b) := by
    rw [← decodeUtf8_utf8, h, decodeUtf8_utf8]
  exact String.ofList_injective (Option.some.inj hdecoded)

/-! ## Lines -/

def NEWLINE : UInt8 := 10

theorem utf8EncodeChar_newline : String.utf8EncodeChar '\n' = [NEWLINE] := rfl

/-- The newline byte stands for the newline only. -/
theorem newline_mem_utf8EncodeChar {c : Char} (h : NEWLINE ∈ String.utf8EncodeChar c) :
    c = '\n' := by
  unfold String.utf8EncodeChar NEWLINE at h
  have hbyte (n : Nat) (hn : 10 = UInt8.ofNat n) : n % 256 = 10 := by
    have := congrArg UInt8.toNat hn
    simpa [eq_comm] using this
  have hc : c.val.toNat = 10 → c = '\n' := fun h => Char.ext (UInt32.toNat_inj.mp h)
  dsimp only at h
  split at h
  · have := hbyte _ (List.mem_singleton.mp h)
    exact hc (by omega)
  · split at h
    · simp only [List.mem_cons, List.not_mem_nil, or_false] at h
      rcases h with h | h <;> have := hbyte _ h <;> omega
    · split at h
      · simp only [List.mem_cons, List.not_mem_nil, or_false] at h
        rcases h with h | h | h <;> have := hbyte _ h <;> omega
      · simp only [List.mem_cons, List.not_mem_nil, or_false] at h
        rcases h with h | h | h | h <;> have := hbyte _ h <;> omega

theorem newline_mem_utf8 {chars : List Char} : NEWLINE ∈ utf8 chars ↔ '\n' ∈ chars := by
  rw [utf8, List.mem_flatMap]
  constructor
  · rintro ⟨c, hc, hmem⟩
    exact newline_mem_utf8EncodeChar hmem ▸ hc
  · intro h
    exact ⟨'\n', h, by simp [utf8EncodeChar_newline]⟩

/-- The first line, its newline included, and what follows it. -/
def takeLine : List UInt8 → Option (List UInt8 × List UInt8)
  | [] => none
  | b :: bytes => if b = NEWLINE then some ([b], bytes)
      else (takeLine bytes).map fun (line, rest) => (b :: line, rest)

theorem takeLine_none {bytes : List UInt8} (h : NEWLINE ∉ bytes) : takeLine bytes = none := by
  induction bytes with
  | nil => rfl
  | cons b bytes ih =>
      obtain ⟨hb, hbytes⟩ := not_or.mp (List.mem_cons.not.mp h)
      rw [takeLine, if_neg (Ne.symm hb), ih hbytes]
      rfl

theorem takeLine_append {line : List UInt8} (h : NEWLINE ∉ line) (rest : List UInt8) :
    takeLine (line ++ NEWLINE :: rest) = some (line ++ [NEWLINE], rest) := by
  induction line with
  | nil => rfl
  | cons b line ih =>
      obtain ⟨hb, hline⟩ := not_or.mp (List.mem_cons.not.mp h)
      rw [List.cons_append, takeLine, if_neg (Ne.symm hb), ih hline]
      rfl

theorem takeLine_utf8_none {chars : List Char} (h : '\n' ∉ chars) : takeLine (utf8 chars) = none :=
  takeLine_none fun hmem => h (newline_mem_utf8.mp hmem)

theorem takeLine_utf8 {line : List Char} (h : '\n' ∉ line) (rest : List Char) :
    takeLine (utf8 (line ++ '\n' :: rest)) = some (utf8 (line ++ ['\n']), utf8 rest) := by
  have htake := takeLine_append (fun hmem => h (newline_mem_utf8.mp hmem)) (utf8 rest)
  simpa [utf8, utf8EncodeChar_newline] using htake

/-- Two texts with the same first newline split alike at it. -/
theorem split_at_first {α : Type} {x : α} {a b c d : List α} (ha : x ∉ a) (hc : x ∉ c)
    (h : a ++ x :: b = c ++ x :: d) : a = c ∧ b = d := by
  induction a generalizing c with
  | nil =>
      cases c with
      | nil => exact ⟨rfl, (List.cons.inj h).2⟩
      | cons y c => exact absurd ((List.cons.inj h).1 ▸ List.mem_cons_self) hc
  | cons y a ih =>
      cases c with
      | nil => exact absurd ((List.cons.inj h).1 ▸ List.mem_cons_self) ha
      | cons z c =>
          obtain ⟨rfl, hrest⟩ := List.cons.inj h
          obtain ⟨rfl, rfl⟩ :=
            ih (List.not_mem_of_not_mem_cons ha) (List.not_mem_of_not_mem_cons hc) hrest
          exact ⟨rfl, rfl⟩

end Lib
