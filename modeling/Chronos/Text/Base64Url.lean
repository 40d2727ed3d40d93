import Chronos.Text.Encoding

namespace Text

/-!
# Base64 for URLs

`toBase64Url` writes bytes in the URL-safe alphabet and without padding; `fromBase64` reads them
back (`fromBase64_toBase64Url`).  It reads much else: a text is the one that is written for its
bytes exactly if it is `Canonical` (`toBase64Url_fromBase64_eq_iff`).
-/

def urlAlphabet : List Char :=
  "ABCDEFGHIJKLMNOPQRSTUVWXYZabcdefghijklmnopqrstuvwxyz0123456789-_".toList

/-- The character of a number below 64. -/
def urlDigit (n : Nat) : Char := urlAlphabet.getD n '-'

/-- Three bytes are four digits; a last group of one or two bytes is two or three. -/
def toDigits : List UInt8 → List Nat
  | [] => []
  | [a] => [a.toNat / 4, a.toNat % 4 * 16]
  | [a, b] => [a.toNat / 4, a.toNat % 4 * 16 + b.toNat / 16, b.toNat % 16 * 4]
  | a :: b :: c :: rest =>
      a.toNat / 4 :: (a.toNat % 4 * 16 + b.toNat / 16) :: (b.toNat % 16 * 4 + c.toNat / 64) ::
        c.toNat % 64 :: toDigits rest

def toBase64Url (bytes : List UInt8) : List Char := (toDigits bytes).map urlDigit

/-! ### Digits -/

theorem digitValue_urlDigit {n : Nat} (h : n < 64) : digitValue (urlDigit n) = some n := by
  have hall : ∀ i : Fin 64, digitValue (urlDigit i) = some i.1 := by decide +kernel
  exact hall ⟨n, h⟩

/-- The characters of the alphabet are digits. -/
theorem digitValue_of_mem {c : Char} (h : c ∈ urlAlphabet) :
    ∃ n < 64, digitValue c = some n ∧ urlDigit n = c := by
  have hall : (urlAlphabet.all fun c => match digitValue c with
      | some n => decide (n < 64) && decide (urlDigit n = c)
      | none => false) = true := by decide +kernel
  have hc := List.all_eq_true.mp hall c h
  split at hc
  · next n hn =>
    rw [Bool.and_eq_true, decide_eq_true_eq, decide_eq_true_eq] at hc
    exact ⟨n, hc.1, hn, hc.2⟩
  · cases hc

theorem urlDigit_mem (n : Nat) : urlDigit n ∈ urlAlphabet := by
  unfold urlDigit
  by_cases h : n < urlAlphabet.length
  · rw [List.getD_eq_getElem _ _ h]
    exact List.getElem_mem h
  · rw [List.getD_eq_default _ _ (Nat.not_lt.mp h)]
    decide +kernel

/-- Digits are below 64. -/
theorem toDigits_lt (bytes : List UInt8) : ∀ n ∈ toDigits bytes, n < 64 := by
  induction bytes using toDigits.induct with
  | case1 => simp [toDigits]
  | case2 a =>
    have ha := byte_lt a
    simp only [toDigits, List.forall_mem_cons]
    exact ⟨by omega, by omega, by simp⟩
  | case3 a b =>
    have ha := byte_lt a
    have hb := byte_lt b
    simp only [toDigits, List.forall_mem_cons]
    exact ⟨by omega, by omega, by omega, by simp⟩
  | case4 a b c rest ih =>
    have ha := byte_lt a
    have hb := byte_lt b
    have hc := byte_lt c
    simp only [toDigits, List.forall_mem_cons]
    exact ⟨by omega, by omega, by omega, by omega, ih⟩

theorem length_toDigits (bytes : List UInt8) : (toDigits bytes).length = (bytes.length * 4 + 2) / 3 := by
  induction bytes using toDigits.induct with
  | case1 => rfl
  | case2 a => simp [toDigits]
  | case3 a b => simp [toDigits]
  | case4 a b c rest ih =>
    simp only [toDigits, List.length_cons, ih]
    omega

theorem fromDigits_toDigits (bytes : List UInt8) : fromDigits (toDigits bytes) = bytes := by
  induction bytes using toDigits.induct with
  | case1 => rfl
  | case2 a =>
    have ha := byte_lt a
    simp only [toDigits, fromDigits]
    rw [byte_eq (a := a) (by omega)]
  | case3 a b =>
    have ha := byte_lt a
    have hb := byte_lt b
    simp only [toDigits, fromDigits]
    rw [byte_eq (a := a) (by omega), byte_eq (a := b) (by omega)]
  | case4 a b c rest ih =>
    have ha := byte_lt a
    have hb := byte_lt b
    have hc := byte_lt c
    simp only [toDigits, fromDigits, ih]
    rw [byte_eq (a := a) (by omega), byte_eq (a := b) (by omega), byte_eq (a := c) (by omega)]

/-- Characters of digits are read as these digits. -/
theorem filterMap_urlDigit {digits : List Nat} (h : ∀ n ∈ digits, n < 64) :
    (digits.map urlDigit).filterMap digitValue = digits := by
  induction digits with
  | nil => rfl
  | cons n digits ih =>
    rw [List.forall_mem_cons] at h
    rw [List.map_cons, List.filterMap_cons, digitValue_urlDigit h.1, ih h.2]

/-- **Round trip.** -/
theorem fromBase64_toBase64Url (bytes : List UInt8) : fromBase64 (toBase64Url bytes) = bytes := by
  unfold fromBase64 toBase64Url
  rw [filterMap_urlDigit (toDigits_lt bytes), fromDigits_toDigits]

theorem mem_toBase64Url {bytes : List UInt8} {c : Char} (h : c ∈ toBase64Url bytes) :
    c ∈ urlAlphabet := by
  obtain ⟨n, -, rfl⟩ := List.mem_map.mp h
  exact urlDigit_mem n

/-! ### What is written, of what is read -/

/-- The bits of the last digit that belong to no byte are zero, and no digit is left over. -/
def SpareBitsZero : List Nat → Prop
  | _ :: _ :: _ :: _ :: rest => SpareBitsZero rest
  | [_, _, r] => r % 4 = 0
  | [_, q] => q % 16 = 0
  | [_] => False
  | [] => True

theorem spareBitsZero_toDigits (bytes : List UInt8) : SpareBitsZero (toDigits bytes) := by
  induction bytes using toDigits.induct with
  | case1 => trivial
  | case2 a =>
    show a.toNat % 4 * 16 % 16 = 0
    omega
  | case3 a b =>
    show b.toNat % 16 * 4 % 4 = 0
    omega
  | case4 a b c rest ih => exact ih

theorem toDigits_fromDigits {digits : List Nat} (h : ∀ n ∈ digits, n < 64)
    (hspare : SpareBitsZero digits) : toDigits (fromDigits digits) = digits := by
  induction digits using SpareBitsZero.induct with
  | case1 p q r s rest ih =>
    simp only [List.forall_mem_cons] at h
    obtain ⟨hp, hq, hr, hs, hrest⟩ := h
    simp only [fromDigits, toDigits, UInt8.toNat_ofNat', ih hrest hspare]
    refine congrArg₂ _ (by omega) (congrArg₂ _ (by omega) (congrArg₂ _ (by omega) ?_))
    exact congrArg₂ _ (by omega) rfl
  | case2 p q r =>
    simp only [List.forall_mem_cons] at h
    obtain ⟨hp, hq, hr, -⟩ := h
    have hzero : r % 4 = 0 := hspare
    simp only [fromDigits, toDigits, UInt8.toNat_ofNat']
    refine congrArg₂ _ (by omega) (congrArg₂ _ (by omega) (congrArg₂ _ (by omega) rfl))
  | case3 p q =>
    simp only [List.forall_mem_cons] at h
    obtain ⟨hp, hq, -⟩ := h
    have hzero : q % 16 = 0 := hspare
    simp only [fromDigits, toDigits, UInt8.toNat_ofNat']
    exact congrArg₂ _ (by omega) (congrArg₂ _ (by omega) rfl)
  | case4 p => exact absurd hspare id
  | case5 => rfl

/-- Only characters of the alphabet, no digit left over, and no spare bit set. -/
structure Canonical (text : List Char) : Prop where
  alphabet : ∀ c ∈ text, c ∈ urlAlphabet
  spare : SpareBitsZero (text.filterMap digitValue)

/-- The digits of a text in the alphabet, and the text of these digits. -/
theorem map_urlDigit {text : List Char} (h : ∀ c ∈ text, c ∈ urlAlphabet) :
    (text.filterMap digitValue).map urlDigit = text ∧ ∀ n ∈ text.filterMap digitValue, n < 64 := by
  induction text with
  | nil => simp
  | cons c text ih =>
    rw [List.forall_mem_cons] at h
    obtain ⟨n, hn, hvalue, hdigit⟩ := digitValue_of_mem h.1
    obtain ⟨htext, hlt⟩ := ih h.2
    rw [List.filterMap_cons, hvalue]
    refine ⟨?_, List.forall_mem_cons.mpr ⟨hn, hlt⟩⟩
    show urlDigit n :: (text.filterMap digitValue).map urlDigit = c :: text
    rw [htext, hdigit]

theorem canonical_toBase64Url (bytes : List UInt8) : Canonical (toBase64Url bytes) := by
  refine ⟨fun c hc => mem_toBase64Url hc, ?_⟩
  show SpareBitsZero (((toDigits bytes).map urlDigit).filterMap digitValue)
  rw [filterMap_urlDigit (toDigits_lt bytes)]
  exact spareBitsZero_toDigits bytes

/-- **The canonical texts** are those that are written for their bytes. -/
theorem toBase64Url_fromBase64_eq_iff (text : List Char) :
    toBase64Url (fromBase64 text) = text ↔ Canonical text := by
  constructor
  · intro h
    rw [← h]
    exact canonical_toBase64Url _
  · rintro ⟨halphabet, hspare⟩
    obtain ⟨htext, hlt⟩ := map_urlDigit halphabet
    unfold fromBase64 toBase64Url
    rw [toDigits_fromDigits hlt hspare, htext]

theorem toBase64Url_ne_nil {bytes : List UInt8} (h : bytes ≠ []) : toBase64Url bytes ≠ [] := by
  intro hnil
  have hbytes := fromBase64_toBase64Url bytes
  rw [hnil] at hbytes
  exact h hbytes.symm

end Text
