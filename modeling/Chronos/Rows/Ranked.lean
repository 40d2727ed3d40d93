import Mathlib.Data.List.Sort

namespace Rows

/-!
# Numbering rows

A table is the list of its rows, in any order.  `rowNumber` counts the rows with the same key in the
order asked for, from one.  The row it gives the number one is the first of its key
(`rowNumber_eq_one_iff`): each key has such a row (`exists_first`), and only one as long as no two
rows of the table have the same rank (`First.unique`).
-/

variable {α κ : Type} (key : α → κ) (orderBy : α → α → Prop)

/-! ### The first row of a key -/

/-- `x` comes first among the rows with its key. -/
structure First (rows : List α) (x : α) : Prop where
  mem : x ∈ rows
  least : ∀ r ∈ rows, key r = key x → orderBy x r

/-- No two rows of the table have the same rank. -/
def Ranks (rows : List α) : Prop := ∀ r ∈ rows, ∀ r' ∈ rows, orderBy r r' → orderBy r' r → r = r'

/-- Of two rows with the same key that both come first, there is one. -/
theorem First.unique {key : α → κ} {orderBy : α → α → Prop} {rows : List α} {x y : α}
    (hx : First key orderBy rows x) (hy : First key orderBy rows y) (hranks : Ranks orderBy rows)
    (hkey : key x = key y) : x = y :=
  hranks x hx.mem y hy.mem (hx.least y hy.mem hkey.symm) (hy.least x hx.mem hkey)

/-! ### Sorting the rows of a key -/

section Partition

variable [DecidableEq κ] [DecidableRel orderBy]

/-- The rows with the key of `x`, in order. -/
def partitionOf (rows : List α) (x : α) : List α :=
  (rows.filter fun r => decide (key r = key x)).insertionSort orderBy

variable {key orderBy} {rows l : List α} {x y : α}

theorem mem_partitionOf : y ∈ partitionOf key orderBy rows x ↔ y ∈ rows ∧ key y = key x := by
  unfold partitionOf
  rw [List.mem_insertionSort, List.mem_filter, decide_eq_true_eq]

variable (key orderBy) in
/-- The rows with the key of a row are not none. -/
theorem exists_partitionOf_eq_cons (hx : x ∈ rows) :
    ∃ y l, partitionOf key orderBy rows x = y :: l :=
  List.exists_cons_of_ne_nil (List.ne_nil_of_mem (mem_partitionOf.mpr ⟨hx, rfl⟩))

variable [Std.Total orderBy] [IsTrans α orderBy]

/-- The head of the sorted rows comes first. -/
theorem first_head (h : partitionOf key orderBy rows x = y :: l) :
    First key orderBy rows y ∧ key y = key x := by
  have hy : y ∈ rows ∧ key y = key x := mem_partitionOf.mp (h ▸ List.mem_cons_self)
  have hsorted : (y :: l).Pairwise orderBy := h ▸ List.pairwise_insertionSort orderBy _
  refine ⟨⟨hy.1, fun r hr hkey => ?_⟩, hy.2⟩
  have hmem : r ∈ y :: l := h ▸ mem_partitionOf.mpr ⟨hr, hkey.trans hy.2⟩
  rcases List.mem_cons.mp hmem with rfl | htail
  · exact Std.Refl.refl r
  · exact List.rel_of_pairwise_cons hsorted htail

variable (key orderBy) in
/-- Each key has a first row. -/
theorem exists_first (hx : x ∈ rows) : ∃ y, First key orderBy rows y ∧ key y = key x := by
  obtain ⟨y, l, h⟩ := exists_partitionOf_eq_cons key orderBy hx
  exact ⟨y, first_head h⟩

end Partition

/-! ### The number of a row -/

section Number

variable [DecidableEq α] [DecidableEq κ] [DecidableRel orderBy]

/-- `ROW_NUMBER() OVER (PARTITION BY key ORDER BY orderBy)`. -/
def rowNumber (rows : List α) (x : α) : Nat := (partitionOf key orderBy rows x).idxOf x + 1

variable {key orderBy} [Std.Total orderBy] [IsTrans α orderBy] {rows : List α} {x : α}

/-- **Row number one** is the number of the first row. -/
theorem rowNumber_eq_one_iff (hranks : Ranks orderBy rows) (hx : x ∈ rows) :
    rowNumber key orderBy rows x = 1 ↔ First key orderBy rows x := by
  obtain ⟨y, l, h⟩ := exists_partitionOf_eq_cons key orderBy hx
  obtain ⟨hfirst, hkey⟩ := first_head h
  unfold rowNumber
  rw [h]
  constructor
  · intro hone
    -- Only the head has the index zero.
    have hhead : y = x := by
      by_contra hne
      rw [List.idxOf_cons_ne _ hne] at hone
      omega
    exact hhead ▸ hfirst
  · intro hx'
    rw [hfirst.unique hx' hranks hkey, List.idxOf_cons_self]

end Number

end Rows
