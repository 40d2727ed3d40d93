import Mathlib.Data.List.Basic
import Mathlib.Tactic.Common

namespace Text

/-!
# UTF-8, read without failing

`decodeUtf8` reads any bytes: where they are no UTF-8, each longest beginning of a character, and
each byte that starts none, is read as `U+FFFD`.  What a text is written as is read as this text
(`decodeUtf8_utf8`).
-/

/-- The bytes of a text. -/
def utf8 (text : List Char) : List UInt8 := text.flatMap String.utf8EncodeChar

def replacementCharacter : Char := '\uFFFD'

/-- A character that has begun: its number so far, how many bytes are missing, and between which
    bounds the next one is. -/
structure PendingChar where
  point : Nat
  needed : Nat
  lower : Nat
  upper : Nat

/-- A byte between two characters: what is read, and what begins. -/
def firstByte (b : Nat) : List Char × Option PendingChar :=
  if b ≤ 0x7F then ([Char.ofNat b], none)
  else if 0xC2 ≤ b ∧ b ≤ 0xDF then ([], some ⟨b - 0xC0, 1, 0x80, 0xBF⟩)
  else if 0xE0 ≤ b ∧ b ≤ 0xEF then
    ([], some ⟨b - 0xE0, 2, if b = 0xE0 then 0xA0 else 0x80, if b = 0xED then 0x9F else 0xBF⟩)
  else if 0xF0 ≤ b ∧ b ≤ 0xF4 then
    ([], some ⟨b - 0xF0, 3, if b = 0xF0 then 0x90 else 0x80, if b = 0xF4 then 0x8F else 0xBF⟩)
  else ([replacementCharacter], none)

/-- A byte within a character; one that does not go on with it is read again after it. -/
def nextByte (p : PendingChar) (b : Nat) : List Char × Option PendingChar :=
  if p.lower ≤ b ∧ b ≤ p.upper then
    let point := p.point * 64 + (b - 0x80)
    if p.needed = 1 then ([Char.ofNat point], none)
    else ([], some ⟨point, p.needed - 1, 0x80, 0xBF⟩)
  else (replacementCharacter :: (firstByte b).1, (firstByte b).2)

def decodeFrom : Option PendingChar → List UInt8 → List Char
  | none, [] => []
  | some _, [] => [replacementCharacter]
  | none, b :: rest => (firstByte b.toNat).1 ++ decodeFrom (firstByte b.toNat).2 rest
  | some p, b :: rest => (nextByte p b.toNat).1 ++ decodeFrom (nextByte p b.toNat).2 rest

def decodeUtf8 (bytes : List UInt8) : List Char := decodeFrom none bytes

/-! ### What is written is read back -/

/-- The last byte of a character. -/
theorem decodeFrom_last {b point lower upper : Nat} (hb : b < 256) (hlower : lower ≤ b)
    (hupper : b ≤ upper) (rest : List UInt8) :
    decodeFrom (some ⟨point, 1, lower, upper⟩) (UInt8.ofNat b :: rest) =
      Char.ofNat (point * 64 + (b - 0x80)) :: decodeFrom none rest := by
  have hbyte : (UInt8.ofNat b).toNat = b := UInt8.toNat_ofNat_of_lt hb
  have hnext : nextByte ⟨point, 1, lower, upper⟩ b =
      ([Char.ofNat (point * 64 + (b - 0x80))], none) := by
    unfold nextByte
    exact if_pos ⟨hlower, hupper⟩
  rw [decodeFrom, hbyte, hnext]
  rfl

/-- A byte within a character, before the last. -/
theorem decodeFrom_within {b point needed lower upper : Nat} (hb : b < 256) (hlower : lower ≤ b)
    (hupper : b ≤ upper) (rest : List UInt8) :
    decodeFrom (some ⟨point, needed + 2, lower, upper⟩) (UInt8.ofNat b :: rest) =
      decodeFrom (some ⟨point * 64 + (b - 0x80), needed + 1, 0x80, 0xBF⟩) rest := by
  have hbyte : (UInt8.ofNat b).toNat = b := UInt8.toNat_ofNat_of_lt hb
  have hnext : nextByte ⟨point, needed + 2, lower, upper⟩ b =
      ([], some ⟨point * 64 + (b - 0x80), needed + 1, 0x80, 0xBF⟩) := by
    unfold nextByte
    have hmore : needed + 2 ≠ 1 := by omega
    rw [if_pos ⟨hlower, hupper⟩]
    exact if_neg hmore
  rw [decodeFrom, hbyte, hnext]
  rfl

/-- The first byte of a character of several bytes. -/
theorem decodeFrom_first {b : Nat} {p : PendingChar} (hb : b < 256) (h : firstByte b = ([], some p))
    (rest : List UInt8) : decodeFrom none (UInt8.ofNat b :: rest) = decodeFrom (some p) rest := by
  have hbyte : (UInt8.ofNat b).toNat = b := UInt8.toNat_ofNat_of_lt hb
  rw [decodeFrom, hbyte, h]
  rfl

theorem firstByte_two {b : Nat} (h : 0xC2 ≤ b ∧ b ≤ 0xDF) :
    firstByte b = ([], some ⟨b - 0xC0, 1, 0x80, 0xBF⟩) := by
  unfold firstByte
  rw [if_neg (by omega), if_pos h]

theorem firstByte_three {b : Nat} (h : 0xE0 ≤ b ∧ b ≤ 0xEF) : firstByte b =
    ([], some ⟨b - 0xE0, 2, if b = 0xE0 then 0xA0 else 0x80, if b = 0xED then 0x9F else 0xBF⟩) := by
  unfold firstByte
  rw [if_neg (by omega), if_neg (by omega), if_pos h]

theorem firstByte_four {b : Nat} (h : 0xF0 ≤ b ∧ b ≤ 0xF4) : firstByte b =
    ([], some ⟨b - 0xF0, 3, if b = 0xF0 then 0x90 else 0x80, if b = 0xF4 then 0x8F else 0xBF⟩) := by
  unfold firstByte
  rw [if_neg (by omega), if_neg (by omega), if_neg (by omega), if_pos h]

/-- The bytes of a character are read as this character. -/
theorem decodeFrom_char (c : Char) (rest : List UInt8) :
    decodeFrom none (String.utf8EncodeChar c ++ rest) = c :: decodeFrom none rest := by
  have hvalid : c.val.toNat < 0xD800 ∨ 0xDFFF < c.val.toNat ∧ c.val.toNat < 0x110000 := c.valid
  have hchar : Char.ofNat c.val.toNat = c := Char.ofNat_toNat c
  generalize hv : c.val.toNat = v at hvalid hchar
  unfold String.utf8EncodeChar
  simp only [hv]
  split
  · next h1 =>
    have hlt : v < 256 := by omega
    have hbyte : (UInt8.ofNat v).toNat = v := UInt8.toNat_ofNat_of_lt hlt
    have hfirst : firstByte v = ([c], none) := by
      unfold firstByte
      rw [if_pos h1, hchar]
    show decodeFrom none (UInt8.ofNat v :: rest) = _
    rw [decodeFrom, hbyte, hfirst]
    rfl
  · split
    · have hfirst := firstByte_two (b := v / 64 % 0x20 + 0xC0) (by omega)
      simp only [List.cons_append, List.nil_append]
      rw [decodeFrom_first (by omega) hfirst, decodeFrom_last (by omega) (by omega) (by omega)]
      have hpoint : (v / 64 % 0x20 + 0xC0 - 0xC0) * 64 + (v % 0x40 + 0x80 - 0x80) = v := by omega
      rw [hpoint, hchar]
    · split
      · have hfirst := firstByte_three (b := v / 4096 % 0x10 + 0xE0) (by omega)
        simp only [List.cons_append, List.nil_append]
        -- The second byte of a surrogate or of a longer writing than necessary is out of bounds.
        rw [decodeFrom_first (by omega) hfirst,
          decodeFrom_within (by omega) (by split <;> omega) (by split <;> omega),
          decodeFrom_last (by omega) (by omega) (by omega)]
        have hpoint : ((v / 4096 % 0x10 + 0xE0 - 0xE0) * 64 + (v / 64 % 0x40 + 0x80 - 0x80)) * 64 +
            (v % 0x40 + 0x80 - 0x80) = v := by omega
        rw [hpoint, hchar]
      · have hfirst := firstByte_four (b := v / 262144 % 0x08 + 0xF0) (by omega)
        simp only [List.cons_append, List.nil_append]
        rw [decodeFrom_first (by omega) hfirst,
          decodeFrom_within (by omega) (by split <;> omega) (by split <;> omega),
          decodeFrom_within (by omega) (by omega) (by omega),
          decodeFrom_last (by omega) (by omega) (by omega)]
        have hpoint : (((v / 262144 % 0x08 + 0xF0 - 0xF0) * 64 + (v / 4096 % 0x40 + 0x80 - 0x80)) * 64 +
            (v / 64 % 0x40 + 0x80 - 0x80)) * 64 + (v % 0x40 + 0x80 - 0x80) = v := by omega
        rw [hpoint, hchar]

/-- **Round trip.** -/
theorem decodeUtf8_utf8 (text : List Char) : decodeUtf8 (utf8 text) = text := by
  unfold decodeUtf8 utf8
  induction text with
  | nil => rfl
  | cons c text ih => rw [List.flatMap_cons, decodeFrom_char, ih]

theorem utf8_ne_nil {text : List Char} (h : text ≠ []) : utf8 text ≠ [] := by
  intro hnil
  have htext := decodeUtf8_utf8 text
  rw [hnil] at htext
  exact h htext.symm

end Text
