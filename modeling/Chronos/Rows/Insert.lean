import Mathlib.Data.List.Pairwise

namespace Rows

/-!
# Inserting rows under constraints

A table is the list of its rows, the newest first.  A constraint is a relation that no newer row of
a table may have to an older one.

* `fill` — rows inserted one after the other, those that break the constraint being passed over: the
  table grows by some of them (`suffix_fill`, `mem_fill`), keeps the constraint (`Free.fill`), and
  leaves out no row without a reason (`fill_covers`); a second time it does nothing (`fill_fill`).
* `insertAll` — rows inserted by one statement that passes over those that break one constraint, and
  is aborted by a row that breaks another one.  For rows that are not in each other's way it
  succeeds exactly if each row that would abort it is passed over (`insertAll_isSome_iff`).
-/

variable {α : Type}

/-- Some row of the table stands in the way of `x`. -/
def Meets (c : α → α → Prop) (rows : List α) (x : α) : Prop := ∃ r ∈ rows, c r x

instance {c : α → α → Prop} [DecidableRel c] (rows : List α) (x : α) : Decidable (Meets c rows x) :=
  inferInstanceAs (Decidable (∃ r ∈ rows, c r x))

/-- The table keeps the constraint. -/
def Free (c : α → α → Prop) (rows : List α) : Prop :=
  rows.Pairwise fun newer older => ¬ c older newer

instance {c : α → α → Prop} [DecidableRel c] (rows : List α) : Decidable (Free c rows) :=
  inferInstanceAs (Decidable (rows.Pairwise fun newer older => ¬ c older newer))

section Meets

variable {c : α → α → Prop} {rows rows' : List α} {x y : α}

theorem meets_cons : Meets c (y :: rows) x ↔ c y x ∨ Meets c rows x := by
  unfold Meets
  simp only [List.mem_cons, exists_eq_or_imp]

theorem Meets.mono (h : Meets c rows x) (hrows : rows ⊆ rows') : Meets c rows' x := by
  obtain ⟨r, hr, hc⟩ := h
  exact ⟨r, hrows hr, hc⟩

theorem free_cons : Free c (x :: rows) ↔ ¬ Meets c rows x ∧ Free c rows := by
  unfold Free Meets
  rw [List.pairwise_cons]
  simp only [not_exists, not_and]

theorem Free.of_suffix (h : Free c rows') (hrows : rows <:+ rows') : Free c rows :=
  h.sublist hrows.sublist

end Meets

/-! ### Passing over what breaks the constraint -/

section Fill

variable (c : α → α → Prop) [DecidableRel c]

/-- One row, unless another is in its way. -/
def insertUnless (rows : List α) (x : α) : List α := if Meets c rows x then rows else x :: rows

/-- Rows, one after the other. -/
def fill (rows new : List α) : List α := new.foldl (insertUnless c) rows

variable {c} {rows new : List α} {x : α}

@[simp] theorem fill_nil : fill c rows [] = rows := rfl

@[simp] theorem fill_cons : fill c rows (x :: new) = fill c (insertUnless c rows x) new := rfl

theorem fill_append (new' : List α) : fill c rows (new ++ new') = fill c (fill c rows new) new' :=
  List.foldl_append

theorem insertUnless_of_meets (h : Meets c rows x) : insertUnless c rows x = rows := if_pos h

theorem insertUnless_of_not_meets (h : ¬ Meets c rows x) : insertUnless c rows x = x :: rows :=
  if_neg h

theorem suffix_insertUnless : rows <:+ insertUnless c rows x := by
  by_cases h : Meets c rows x
  · rewrite [insertUnless_of_meets h]
    exact List.suffix_refl rows
  · rw [insertUnless_of_not_meets h]
    exact List.suffix_cons x rows

/-- **Old rows stay.** -/
theorem suffix_fill : rows <:+ fill c rows new := by
  induction new generalizing rows with
  | nil => exact List.suffix_refl rows
  | cons x new ih => exact suffix_insertUnless.trans ih

/-- What is added is among the rows that were to be inserted. -/
theorem mem_fill {r : α} (h : r ∈ fill c rows new) : r ∈ rows ∨ r ∈ new := by
  induction new generalizing rows with
  | nil => exact Or.inl h
  | cons x new ih =>
    rcases ih h with h | h
    · by_cases hx : Meets c rows x
      · rw [insertUnless_of_meets hx] at h
        exact Or.inl h
      · rw [insertUnless_of_not_meets hx, List.mem_cons] at h
        rcases h with rfl | h
        · exact Or.inr List.mem_cons_self
        · exact Or.inl h
    · exact Or.inr (List.mem_cons_of_mem x h)

/-- The constraint is kept. -/
theorem Free.fill (h : Free c rows) : Free c (fill c rows new) := by
  induction new generalizing rows with
  | nil => exact h
  | cons x new ih =>
    refine ih ?_
    by_cases hx : Meets c rows x
    · rw [insertUnless_of_meets hx]
      exact h
    · rw [insertUnless_of_not_meets hx]
      exact free_cons.mpr ⟨hx, h⟩

/-- **The table is as full as can be**: a row that is missing has another in its way. -/
theorem fill_covers (h : x ∈ new) : x ∈ fill c rows new ∨ Meets c (fill c rows new) x := by
  induction new generalizing rows with
  | nil => exact absurd h List.not_mem_nil
  | cons y new ih =>
    rcases List.mem_cons.mp h with rfl | h
    · -- What stands in its way stays, and so does the row itself.
      by_cases hx : Meets c rows x
      · exact Or.inr (hx.mono (suffix_insertUnless.trans suffix_fill).subset)
      · have hnow : x ∈ insertUnless c rows x := by
          rw [insertUnless_of_not_meets hx]
          exact List.mem_cons_self
        have hlater : insertUnless c rows x <:+ fill c (insertUnless c rows x) new := suffix_fill
        exact Or.inl (hlater.subset hnow)
    · exact ih h

/-- Nothing is added exactly if every row has another in its way. -/
theorem fill_eq_self_iff : fill c rows new = rows ↔ ∀ x ∈ new, Meets c rows x := by
  induction new generalizing rows with
  | nil => simp
  | cons x new ih =>
    rw [fill_cons, List.forall_mem_cons]
    by_cases hx : Meets c rows x
    · rw [insertUnless_of_meets hx, ih]
      simp [hx]
    · refine iff_of_false (fun heq => ?_) fun h => hx h.1
      -- The row has been added for good, so the table has grown.
      rw [insertUnless_of_not_meets hx] at heq
      have hsuffix : x :: rows <:+ fill c (x :: rows) new := suffix_fill
      have hlength := hsuffix.length_le
      rw [heq, List.length_cons] at hlength
      omega

/-- **The second time** nothing happens. -/
theorem fill_fill (hself : ∀ x ∈ new, c x x) : fill c (fill c rows new) new = fill c rows new := by
  refine (fill_eq_self_iff (c := c)).mpr fun x hx => ?_
  have hcovers : x ∈ fill c rows new ∨ Meets c (fill c rows new) x := fill_covers hx
  rcases hcovers with hmem | hmeets
  · exact ⟨x, hmem, hself x hx⟩
  · exact hmeets

theorem length_fill_le : (fill c rows new).length ≤ rows.length + new.length := by
  induction new generalizing rows with
  | nil => exact Nat.le_refl _
  | cons x new ih =>
    have hone : (insertUnless c rows x).length ≤ rows.length + 1 := by
      by_cases hx : Meets c rows x
      · rw [insertUnless_of_meets hx]
        omega
      · rewrite [insertUnless_of_not_meets hx, List.length_cons]
        exact Nat.le_refl _
    have hrest : (fill c (insertUnless c rows x) new).length ≤
        (insertUnless c rows x).length + new.length := ih
    rw [fill_cons, List.length_cons]
    omega

/-- All rows are added exactly if no two of the old and the new ones are in each other's way. -/
theorem length_fill_eq_iff (h : Free c rows) :
    (fill c rows new).length = rows.length + new.length ↔ Free c (new.reverse ++ rows) := by
  induction new generalizing rows with
  | nil => simpa using h
  | cons x new ih =>
    rw [fill_cons, List.reverse_cons, List.append_assoc, List.singleton_append, List.length_cons]
    by_cases hx : Meets c rows x
    · -- A row is passed over, and the others do not make up for it.
      rw [insertUnless_of_meets hx]
      refine iff_of_false (fun hlength => ?_) fun hfree => ?_
      · have hle : (fill c rows new).length ≤ rows.length + new.length := length_fill_le
        omega
      · exact (free_cons.mp (hfree.of_suffix (List.suffix_append _ _))).1 hx
    · rw [insertUnless_of_not_meets hx, ← ih (free_cons.mpr ⟨hx, h⟩), List.length_cons]
      omega

end Fill

/-! ### One statement -/

section InsertAll

variable (skip abort : α → α → Prop) [DecidableRel skip] [DecidableRel abort]

/-- Rows inserted by one statement: what breaks `skip` is passed over, and what breaks `abort`
    undoes the whole. -/
def insertAll : List α → List α → Option (List α)
  | rows, [] => some rows
  | rows, x :: new =>
    if Meets skip rows x then insertAll rows new
    else if Meets abort rows x then none
    else insertAll (x :: rows) new

variable {skip abort} {rows rows' new : List α}

/-- What a successful statement leaves. -/
theorem insertAll_eq_some (h : insertAll skip abort rows new = some rows') :
    rows' = fill skip rows new := by
  induction new generalizing rows with
  | nil => exact (Option.some.inj h).symm
  | cons x new ih =>
    unfold insertAll at h
    rw [fill_cons]
    split at h
    · next hskip =>
      rw [insertUnless_of_meets hskip]
      exact ih h
    · next hskip =>
      rw [insertUnless_of_not_meets hskip]
      split at h
      · cases h
      · exact ih h

/-- A successful statement keeps the constraint that would have aborted it. -/
theorem Free.insertAll (hfree : Free abort rows) (h : insertAll skip abort rows new = some rows') :
    Free abort rows' := by
  induction new generalizing rows with
  | nil =>
    obtain rfl := Option.some.inj h
    exact hfree
  | cons x new ih =>
    unfold Rows.insertAll at h
    split at h
    · exact ih hfree h
    · split at h
      · cases h
      · next habort => exact ih (free_cons.mpr ⟨habort, hfree⟩) h

/-- **When the statement succeeds**, for rows that are not in each other's way. -/
theorem insertAll_isSome_iff (hnew : new.Pairwise fun x y => ¬ skip x y ∧ ¬ abort x y) :
    (insertAll skip abort rows new).isSome = true ↔
      ∀ x ∈ new, Meets abort rows x → Meets skip rows x := by
  induction new generalizing rows with
  | nil => simp [insertAll]
  | cons x new ih =>
    obtain ⟨hx, hnew⟩ := List.pairwise_cons.mp hnew
    rw [List.forall_mem_cons]
    unfold insertAll
    split
    · next hskip =>
      rw [ih hnew]
      exact ⟨fun h => ⟨fun _ => hskip, h⟩, fun h => h.2⟩
    · next hskip =>
      split
      · next habort =>
        exact iff_of_false (by simp) fun h => hskip (h.1 habort)
      · next habort =>
        -- The row just inserted is in nobody's way.
        have hother : ∀ y ∈ new, (Meets abort (x :: rows) y ↔ Meets abort rows y) ∧
            (Meets skip (x :: rows) y ↔ Meets skip rows y) := by
          intro y hy
          rw [meets_cons, meets_cons]
          exact ⟨or_iff_right (hx y hy).2, or_iff_right (hx y hy).1⟩
        rw [ih hnew]
        constructor
        · intro h
          refine ⟨fun hmeets => absurd hmeets habort, fun y hy hmeets => ?_⟩
          exact (hother y hy).2.mp (h y hy ((hother y hy).1.mpr hmeets))
        · intro h y hy hmeets
          exact (hother y hy).2.mpr (h.2 y hy ((hother y hy).1.mp hmeets))

/-- A row that nothing is in the way of is inserted. -/
theorem mem_fill_of_free (hnew : new.Pairwise fun x y => ¬ skip x y) {x : α} (hx : x ∈ new)
    (h : ¬ Meets skip rows x) : x ∈ fill skip rows new := by
  induction new generalizing rows with
  | nil => exact absurd hx List.not_mem_nil
  | cons y new ih =>
    obtain ⟨hy, hnew⟩ := List.pairwise_cons.mp hnew
    rcases List.mem_cons.mp hx with rfl | hx
    · have hnow : x ∈ insertUnless skip rows x := by
        rw [insertUnless_of_not_meets h]
        exact List.mem_cons_self
      have hlater : insertUnless skip rows x <:+ fill skip (insertUnless skip rows x) new := suffix_fill
      exact hlater.subset hnow
    · refine ih hnew hx ?_
      by_cases hmeets : Meets skip rows y
      · rw [insertUnless_of_meets hmeets]
        exact h
      · rw [insertUnless_of_not_meets hmeets, meets_cons]
        exact fun hor => hor.elim (hy x hx) h

end InsertAll

end Rows
