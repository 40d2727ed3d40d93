import Mathlib.Data.List.Infix

namespace Text

/-!
# Finding a word in a text

* `afterFirst` — what follows the first occurrence of a word.
* `clear` — a check that a text does not even begin the word: wherever the first letter of the word is,
  another letter than the second one follows.  Clear texts can be put together (`clear_append`), and
  the word is found behind them (`afterFirst_clear`).
-/

variable {α : Type} [DecidableEq α]

def afterFirst (word : List α) : List α → Option (List α)
  | [] => if word = [] then some [] else none
  | x :: text => if word <+: x :: text then some ((x :: text).drop word.length)
      else afterFirst word text

/-- Each `a` of the text is followed by something else than `b`. -/
def clear (a b : α) : List α → Bool
  | [] => true
  | [x] => decide (x ≠ a)
  | x :: y :: text => decide (x = a → y ≠ b) && clear a b (y :: text)

section Clear

variable {a b : α} {s t word : List α}

theorem afterFirst_cons {x : α} : afterFirst word (x :: t) =
    if word <+: x :: t then some ((x :: t).drop word.length) else afterFirst word t := rfl

theorem clear_of_notMem (h : a ∉ s) : clear a b s = true := by
  induction s with
  | nil => rfl
  | cons x s ih =>
    obtain ⟨hx, hs⟩ := not_or.mp fun hor => h (List.mem_cons.mpr hor)
    cases s with
    | nil => exact decide_eq_true (Ne.symm hx)
    | cons y s => exact Bool.and_eq_true_iff.mpr ⟨decide_eq_true fun heq => absurd heq.symm hx, ih hs⟩

theorem clear_append (hs : clear a b s = true) (ht : clear a b t = true) :
    clear a b (s ++ t) = true := by
  induction s with
  | nil => exact ht
  | cons x s ih =>
    cases s with
    | nil =>
      have hx : x ≠ a := of_decide_eq_true hs
      cases t with
      | nil => exact hs
      | cons y t => exact Bool.and_eq_true_iff.mpr ⟨decide_eq_true fun heq => absurd heq hx, ht⟩
    | cons y s =>
      obtain ⟨hfirst, hrest⟩ := Bool.and_eq_true_iff.mp hs
      exact Bool.and_eq_true_iff.mpr ⟨hfirst, ih hrest⟩

/-- **A word is found** behind a clear text. -/
theorem afterFirst_clear (hs : clear a b s = true) :
    afterFirst (a :: b :: word) (s ++ (a :: b :: word ++ t)) = some t := by
  induction s with
  | nil =>
    have hfound : a :: b :: word <+: a :: (b :: word ++ t) := List.prefix_append (a :: b :: word) t
    rw [List.nil_append, List.cons_append, afterFirst_cons, if_pos hfound]
    exact congrArg some List.drop_left
  | cons x s ih =>
    -- The word does not begin in the text, where no `b` follows an `a`.
    have hnot : ¬ a :: b :: word <+: x :: (s ++ (a :: b :: word ++ t)) := by
      intro hprefix
      obtain ⟨hx, hrest⟩ := List.cons_prefix_cons.mp hprefix
      cases s with
      | nil => exact of_decide_eq_true hs hx.symm
      | cons y s =>
        obtain ⟨hy, -⟩ := List.cons_prefix_cons.mp hrest
        exact of_decide_eq_true (Bool.and_eq_true_iff.mp hs).1 hx.symm hy.symm
    have hrest : clear a b s = true := by
      cases s with
      | nil => rfl
      | cons y s => exact (Bool.and_eq_true_iff.mp hs).2
    rw [List.cons_append, afterFirst_cons, if_neg hnot]
    exact ih hrest

end Clear

end Text
