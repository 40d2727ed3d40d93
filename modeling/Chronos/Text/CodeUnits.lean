import Mathlib.Algebra.Group.Nat.Defs
import Mathlib.Data.List.Basic
import Mathlib.Tactic.Common

namespace Text

/-!
# Texts as code units

A text of UTF-16 is a list of `codeUnits`, and texts are compared by them (`lexLt`).  Numerals of
a fixed width are compared like their numbers (`lexLt_padded`), also in front of other texts
(`lexLt_field`, `lexLt_same`), and they are read back (`numeral_padded`).
-/

/-- A character beyond the first plane has two code units. -/
def charUnits16 (c : Char) : List Nat :=
  if c.toNat < 0x10000 then [c.toNat]
  else [0xD800 + (c.toNat - 0x10000) / 0x400, 0xDC00 + (c.toNat - 0x10000) % 0x400]

def codeUnits (text : List Char) : List Nat := text.flatMap charUnits16

/-- The first difference decides; a beginning stands before the whole. -/
def lexLt : List Nat → List Nat → Bool
  | _, [] => false
  | [], _ :: _ => true
  | a :: as, b :: bs => decide (a < b) || (decide (a = b) && lexLt as bs)

section LexLt

variable {a b x y : List Nat}

theorem lexLt_irrefl (a : List Nat) : lexLt a a = false := by
  induction a with
  | nil => rfl
  | cons n a ih => simp [lexLt, ih]

theorem lexLt_asymm (h : lexLt a b = true) : lexLt b a = false := by
  induction a generalizing b with
  | nil => cases b <;> rfl
  | cons n a ih =>
    cases b with
    | nil => cases h
    | cons m b =>
      simp only [lexLt, Bool.or_eq_true, Bool.and_eq_true, decide_eq_true_eq] at h
      simp only [lexLt, Bool.or_eq_false_iff, Bool.and_eq_false_iff, decide_eq_false_iff_not]
      rcases h with hlt | ⟨heq, hrest⟩
      · exact ⟨by omega, .inl (by omega)⟩
      · exact ⟨by omega, .inr (ih hrest)⟩

/-- A common beginning does not matter. -/
theorem lexLt_append_left (a x y : List Nat) : lexLt (a ++ x) (a ++ y) = lexLt x y := by
  induction a with
  | nil => rfl
  | cons n a ih => simp [lexLt, ih]

/-- What follows a difference does not matter. -/
theorem lexLt_append (hlength : a.length = b.length) (h : lexLt a b = true) :
    lexLt (a ++ x) (b ++ y) = true := by
  induction a generalizing b with
  | nil =>
    obtain rfl : b = [] := List.length_eq_zero_iff.mp hlength.symm
    cases h
  | cons n a ih =>
    cases b with
    | nil => cases hlength
    | cons m b =>
      simp only [lexLt, List.cons_append, Bool.or_eq_true, Bool.and_eq_true, decide_eq_true_eq] at h ⊢
      rcases h with hlt | ⟨heq, hrest⟩
      · exact .inl hlt
      · exact .inr ⟨heq, ih (Nat.succ.inj hlength) hrest⟩

end LexLt

/-! ### Numerals -/

def decimalDigit (n : Nat) : Char := Char.ofNat (48 + n)

/-- The last `width` digits of a number. -/
def padded : (width n : Nat) → List Char
  | 0, _ => []
  | width + 1, n => padded width (n / 10) ++ [decimalDigit (n % 10)]

theorem codeUnits_append (text text' : List Char) :
    codeUnits (text ++ text') = codeUnits text ++ codeUnits text' := List.flatMap_append

theorem charUnits16_decimalDigit {n : Nat} (h : n < 10) : charUnits16 (decimalDigit n) = [48 + n] := by
  have hall : ∀ i : Fin 10, charUnits16 (decimalDigit i) = [48 + i.1] := by decide
  exact hall ⟨n, h⟩

theorem codeUnits_padded (width n : Nat) :
    codeUnits (padded (width + 1) n) = codeUnits (padded width (n / 10)) ++ [48 + n % 10] := by
  have hdigit : charUnits16 (decimalDigit (n % 10)) = [48 + n % 10] :=
    charUnits16_decimalDigit (Nat.mod_lt n (by decide))
  rw [padded, codeUnits_append]
  simp [codeUnits, hdigit]

theorem length_codeUnits_padded (width n : Nat) : (codeUnits (padded width n)).length = width := by
  induction width generalizing n with
  | zero => rfl
  | succ width ih =>
    rw [codeUnits_padded, List.length_append, ih]
    rfl

/-- **Numerals of one width** are compared like their numbers. -/
theorem lexLt_padded {width n m : Nat} (h : n < m) (hm : m < 10 ^ width) :
    lexLt (codeUnits (padded width n)) (codeUnits (padded width m)) = true := by
  induction width generalizing n m with
  | zero => omega
  | succ width ih =>
    rw [codeUnits_padded, codeUnits_padded]
    rcases Nat.lt_or_eq_of_le (Nat.div_le_div_right (c := 10) (Nat.le_of_lt h)) with hlt | heq
    · have hlength := length_codeUnits_padded width
      rw [Nat.pow_succ] at hm
      exact lexLt_append (by rw [hlength, hlength]) (ih hlt (by omega))
    · rw [heq, lexLt_append_left]
      have hlast : 48 + n % 10 < 48 + m % 10 := by omega
      simp [lexLt, hlast]

/-- A text that starts with the smaller of two numerals comes first. -/
theorem lexLt_field {width n m : Nat} (h : n < m) (hm : m < 10 ^ width) (text text' : List Char) :
    lexLt (codeUnits (padded width n ++ text)) (codeUnits (padded width m ++ text')) = true := by
  have hlength := length_codeUnits_padded width
  rw [codeUnits_append, codeUnits_append]
  exact lexLt_append (by rw [hlength, hlength]) (lexLt_padded h hm)

/-- Of two texts with a common beginning the rest decides. -/
theorem lexLt_same (beginning text text' : List Char) :
    lexLt (codeUnits (beginning ++ text)) (codeUnits (beginning ++ text')) =
      lexLt (codeUnits text) (codeUnits text') := by
  rw [codeUnits_append, codeUnits_append, lexLt_append_left]

theorem lexLt_next (c : Char) (text text' : List Char) :
    lexLt (codeUnits (c :: text)) (codeUnits (c :: text')) = lexLt (codeUnits text) (codeUnits text') :=
  lexLt_same [c] text text'

/-! ### Reading numerals -/

def digitNumber (c : Char) : Option Nat := if c.isDigit then some (c.toNat - 48) else none

/-- The number a text of digits stands for. -/
def numeral (text : List Char) : Option Nat :=
  text.foldlM (fun n c => (digitNumber c).map fun d => n * 10 + d) 0

@[simp] theorem length_padded (width n : Nat) : (padded width n).length = width := by
  induction width generalizing n with
  | zero => rfl
  | succ width ih => rw [padded, List.length_append, ih, List.length_singleton]

theorem digitNumber_decimalDigit {n : Nat} (h : n < 10) :
    digitNumber (decimalDigit n) = some n ∧ (decimalDigit n).isDigit = true := by
  have hall : ∀ i : Fin 10, digitNumber (decimalDigit i) = some i.1 ∧
      (decimalDigit i).isDigit = true := by decide
  exact hall ⟨n, h⟩

/-- A numeral has digits only. -/
theorem isDigit_of_mem_padded {width n : Nat} {c : Char} (h : c ∈ padded width n) :
    c.isDigit = true := by
  induction width generalizing n with
  | zero => cases h
  | succ width ih =>
    rw [padded, List.mem_append, List.mem_singleton] at h
    rcases h with hmem | rfl
    · exact ih hmem
    · exact (digitNumber_decimalDigit (Nat.mod_lt n (by decide))).2

/-- **Round trip.** -/
theorem numeral_padded {width n : Nat} (h : n < 10 ^ width) : numeral (padded width n) = some n := by
  unfold numeral
  induction width generalizing n with
  | zero =>
    obtain rfl : n = 0 := by omega
    rfl
  | succ width ih =>
    have hlast := (digitNumber_decimalDigit (Nat.mod_lt n (show 0 < 10 by decide))).1
    rw [Nat.pow_succ] at h
    have hread := ih (n := n / 10) (by omega)
    rw [padded, List.foldlM_append, hread]
    show (digitNumber (decimalDigit (n % 10))).map _ >>= _ = _
    rw [hlast]
    show some (n / 10 * 10 + n % 10) = some n
    rw [Nat.div_add_mod']

/-- What is read as a number has digits only. -/
theorem isDigit_of_numeral {text : List Char} {n : Nat} (h : numeral text = some n) :
    ∀ c ∈ text, c.isDigit = true := by
  unfold numeral at h
  generalize hstart : (0 : Nat) = start at h
  clear hstart
  induction text generalizing start with
  | nil =>
    intro c hc
    cases hc
  | cons c text ih =>
    rw [List.foldlM_cons] at h
    by_cases hdigit : c.isDigit = true
    · have hvalue : digitNumber c = some (c.toNat - 48) := if_pos hdigit
      rw [hvalue] at h
      exact List.forall_mem_cons.mpr ⟨hdigit, ih _ h⟩
    · have hvalue : digitNumber c = none := if_neg hdigit
      rw [hvalue] at h
      cases h

/-- What stands before the first `c`. -/
theorem takeWhile_ne {c : Char} {text : List Char} (h : c ∉ text) (rest : List Char) :
    (text ++ c :: rest).takeWhile (fun d => decide (d ≠ c)) = text := by
  have hall : ∀ d ∈ text, decide (d ≠ c) = true := by
    intro d hd
    rw [decide_eq_true_eq]
    rintro rfl
    exact h hd
  rw [List.takeWhile_append_of_pos hall, List.takeWhile_cons_of_neg (by simp), List.append_nil]

end Text
