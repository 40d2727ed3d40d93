import Chronos.Materializer
import Chronos.Rows.Ranked

namespace Chronos.Time

open Rows

/-!
# Removing duplicate availability rules

The migration that makes the windows of `availability_rules` unique keeps the oldest rule of each
window, whether it is active or not.  `MaterializerService` and the availability endpoints read the
active rules only, so a window whose oldest rule was switched off is lost, although a later rule
for it was active.

* `mem_deleteDuplicates` — the rules that are left.
* `deduplicate_eq` — the unique index can always be created.
* `deduplicates_iff` — when no window is lost: if the oldest rule of each window with an active rule
  is active.
* `deduplicates_iff_activeRules` — the same, said of what the materializer reads.
-/

/-! ### The migrations -/

abbrev RuleId := Nat

/-- A row of `availability_rules`, with the columns the migration reads. -/
structure RuleRow extends AvailabilityRule where
  id : RuleId
  createdAt : Instant
  deriving DecidableEq

/-- `(provider_id, day_of_week, start_time, end_time)`. -/
structure RuleWindow where
  providerId : ProviderId
  dayOfWeek : Int
  startTime : TimeOfDay
  endTime : TimeOfDay
  deriving DecidableEq

def AvailabilityRule.window (r : AvailabilityRule) : RuleWindow :=
  ⟨r.providerId, r.dayOfWeek, r.startTime, r.endTime⟩

def RuleRow.window (r : RuleRow) : RuleWindow := r.toAvailabilityRule.window

/-- The table: `id` is its primary key. -/
structure RuleTable where
  rows : List RuleRow
  id_nodup : (rows.map RuleRow.id).Nodup

/-- `ORDER BY created_at ASC, id ASC`. -/
def createdFirst (r r' : RuleRow) : Prop :=
  r.createdAt < r'.createdAt ∨ r.createdAt = r'.createdAt ∧ r.id ≤ r'.id

instance : DecidableRel createdFirst := fun r r' =>
  inferInstanceAs (Decidable (r.createdAt < r'.createdAt ∨ _ ∧ r.id ≤ r'.id))

/-- The subquery `ranked`. -/
def ranked (rows : List RuleRow) : List (RuleId × Nat) :=
  rows.map fun r => (r.id, rowNumber RuleRow.window createdFirst rows r)

/-- `SELECT id FROM ... ranked WHERE row_number > 1`. -/
def duplicateIds (rows : List RuleRow) : List RuleId :=
  ((ranked rows).filter fun x => decide (x.2 > 1)).map Prod.fst

/-- `DELETE FROM availability_rules WHERE id IN ...`. -/
def deleteDuplicates (rows : List RuleRow) : List RuleRow :=
  rows.filter fun r => !(duplicateIds rows).contains r.id

/-- `CREATE UNIQUE INDEX` fails on a table with two rows for a window. -/
def createUniqueIndex (rows : List RuleRow) : Option (List RuleRow) :=
  if (rows.map RuleRow.window).Nodup then some rows else none

def deduplicate (rows : List RuleRow) : Option (List RuleRow) :=
  createUniqueIndex (deleteDuplicates rows)

/-! ### Active windows -/

/-- Some active rule is for the window. -/
def HasActive (rows : List RuleRow) (w : RuleWindow) : Prop :=
  ∃ r ∈ rows, r.window = w ∧ r.active = true

instance (rows : List RuleRow) (w : RuleWindow) : Decidable (HasActive rows w) :=
  inferInstanceAs (Decidable (∃ r ∈ rows, _ ∧ _))

/-- The migration goes through, and each window has an active rule as before. -/
def Deduplicates (rows : List RuleRow) : Prop :=
  ∃ rows', deduplicate rows = some rows' ∧ ∀ w, HasActive rows' w ↔ HasActive rows w

/-- The oldest rule for the window is active. -/
def OldestActive (rows : List RuleRow) (w : RuleWindow) : Prop :=
  ∀ r ∈ rows, r.window = w → (∀ r' ∈ rows, r'.window = w → createdFirst r r') → r.active = true

/-! ### The order of the rules -/

instance : Std.Total createdFirst where
  total r r' := by
    unfold createdFirst
    rcases Int.lt_trichotomy r.createdAt r'.createdAt with h | h | h
    · exact Or.inl (Or.inl h)
    · rcases Nat.le_total r.id r'.id with hid | hid
      · exact Or.inl (Or.inr ⟨h, hid⟩)
      · exact Or.inr (Or.inr ⟨h.symm, hid⟩)
    · exact Or.inr (Or.inl h)

instance : IsTrans RuleRow createdFirst where
  trans r r' r'' h h' := by
    rcases h with h | ⟨h, hid⟩
    · rcases h' with h' | ⟨h', -⟩
      · exact Or.inl (Int.lt_trans h h')
      · exact Or.inl (h' ▸ h)
    · rcases h' with h' | ⟨h', hid'⟩
      · exact Or.inl (h ▸ h')
      · exact Or.inr ⟨h.trans h', hid.trans hid'⟩

/-- Two rules of the same rank have the same id. -/
theorem id_eq_of_createdFirst {r r' : RuleRow} (h : createdFirst r r') (h' : createdFirst r' r) :
    r.id = r'.id := by
  rcases h with h | ⟨h, hid⟩
  · rcases h' with h' | ⟨h', -⟩
    · exact absurd h' (Int.not_lt.mpr h.le)
    · exact absurd h' h.ne'
  · rcases h' with h' | ⟨-, hid'⟩
    · exact absurd h h'.ne'
    · exact Nat.le_antisymm hid hid'

section Table

variable {table : RuleTable} {r r' : RuleRow} {w : RuleWindow}

/-- An id is the id of one rule. -/
theorem RuleTable.eq_of_id_eq (hr : r ∈ table.rows) (hr' : r' ∈ table.rows) (h : r.id = r'.id) :
    r = r' :=
  List.inj_on_of_nodup_map table.id_nodup hr hr' h

theorem RuleTable.ranks (table : RuleTable) : Ranks createdFirst table.rows := by
  intro r hr r' hr' h h'
  exact table.eq_of_id_eq hr hr' (id_eq_of_createdFirst h h')

/-! ### The rules that are left -/

/-- The subquery selects the rules that are not the oldest of their window. -/
theorem mem_duplicateIds (hr : r ∈ table.rows) :
    r.id ∈ duplicateIds table.rows ↔ ¬ First RuleRow.window createdFirst table.rows r := by
  unfold duplicateIds ranked
  rw [← rowNumber_eq_one_iff table.ranks hr]
  simp only [List.mem_map, List.mem_filter, decide_eq_true_eq]
  constructor
  · rintro ⟨_, ⟨⟨r', hr', rfl⟩, hlater⟩, hid⟩
    -- The id is the id of one rule only.
    rw [table.eq_of_id_eq hr' hr hid] at hlater
    exact Nat.ne_of_gt hlater
  · intro hlater
    refine ⟨_, ⟨⟨r, hr, rfl⟩, ?_⟩, rfl⟩
    show 1 < rowNumber RuleRow.window createdFirst table.rows r
    unfold rowNumber at hlater ⊢
    omega

/-- **The rules that are left** are the oldest ones. -/
theorem mem_deleteDuplicates :
    r ∈ deleteDuplicates table.rows ↔ First RuleRow.window createdFirst table.rows r := by
  unfold deleteDuplicates
  rw [List.mem_filter]
  constructor
  · rintro ⟨hr, hkept⟩
    by_contra hlater
    rw [List.contains_iff_mem.mpr ((mem_duplicateIds hr).mpr hlater)] at hkept
    exact absurd hkept (by decide)
  · intro hfirst
    refine ⟨hfirst.mem, ?_⟩
    rw [Bool.not_eq_true', Bool.eq_false_iff]
    intro hdeleted
    exact (mem_duplicateIds hfirst.mem).mp (List.contains_iff_mem.mp hdeleted) hfirst

/-- No two of them are for the same window. -/
theorem window_nodup : ((deleteDuplicates table.rows).map RuleRow.window).Nodup := by
  apply List.Nodup.map_on
  · intro r hr r' hr' hwindow
    exact (mem_deleteDuplicates.mp hr).unique (mem_deleteDuplicates.mp hr') table.ranks hwindow
  · exact (List.Nodup.of_map _ table.id_nodup).filter _

/-- **The unique index can be created.** -/
theorem deduplicate_eq : deduplicate table.rows = some (deleteDuplicates table.rows) :=
  if_pos window_nodup

/-- Each window keeps a rule. -/
theorem exists_mem_deleteDuplicates (hr : r ∈ table.rows) :
    ∃ r' ∈ deleteDuplicates table.rows, r'.window = r.window := by
  obtain ⟨r', hfirst, hwindow⟩ := exists_first RuleRow.window createdFirst hr
  exact ⟨r', mem_deleteDuplicates.mpr hfirst, hwindow⟩

/-! ### The active windows that are left -/

/-- An active rule that is left was there before. -/
theorem HasActive.of_deleteDuplicates (h : HasActive (deleteDuplicates table.rows) w) :
    HasActive table.rows w := by
  obtain ⟨r, hr, hwindow, hactive⟩ := h
  exact ⟨r, (mem_deleteDuplicates.mp hr).mem, hwindow, hactive⟩

/-- A window with a rule has an active one after the migration if its oldest rule is active. -/
theorem hasActive_deleteDuplicates_iff (hr : r ∈ table.rows) (hw : r.window = w) :
    HasActive (deleteDuplicates table.rows) w ↔ OldestActive table.rows w := by
  subst hw
  constructor
  · rintro ⟨r', hr', hwindow, hactive⟩ oldest holdest holdestWindow hleast
    -- The active rule that is left is the oldest one.
    have hfirst : First RuleRow.window createdFirst table.rows oldest :=
      ⟨holdest, fun x hx hxw => hleast x hx (hxw.trans holdestWindow)⟩
    have heq : oldest = r' :=
      hfirst.unique (mem_deleteDuplicates.mp hr') table.ranks (holdestWindow.trans hwindow.symm)
    rw [heq]
    exact hactive
  · intro holdest
    obtain ⟨r', hr', hwindow⟩ := exists_mem_deleteDuplicates hr
    have hfirst := mem_deleteDuplicates.mp hr'
    refine ⟨r', hr', hwindow, holdest r' hfirst.mem hwindow fun x hx hxw => ?_⟩
    exact hfirst.least x hx (hxw.trans hwindow.symm)

/-- A window is kept if its oldest rule is active, or none is. -/
theorem window_kept_iff (w : RuleWindow) :
    (HasActive (deleteDuplicates table.rows) w ↔ HasActive table.rows w) ↔
      (HasActive table.rows w → OldestActive table.rows w) := by
  constructor
  · intro hkept hbefore
    obtain ⟨r, hr, hwindow, -⟩ := id hbefore
    exact (hasActive_deleteDuplicates_iff hr hwindow).mp (hkept.mpr hbefore)
  · intro holdest
    refine ⟨HasActive.of_deleteDuplicates, fun hbefore => ?_⟩
    obtain ⟨r, hr, hwindow, -⟩ := id hbefore
    exact (hasActive_deleteDuplicates_iff hr hwindow).mpr (holdest hbefore)

end Table

/-! ### What the materializer reads -/

/-- A rule is its window and whether it is active. -/
theorem AvailabilityRule.eq_of_window {r r' : AvailabilityRule} (hwindow : r.window = r'.window)
    (hactive : r.active = r'.active) : r = r' := by
  obtain ⟨hprovider, hday, hstart, hend⟩ := RuleWindow.mk.inj hwindow
  show AvailabilityRule.mk r.providerId r.dayOfWeek r.startTime r.endTime r.active = r'
  rw [hprovider, hday, hstart, hend, hactive]

/-- The active rules of a provider are for the windows that have one. -/
theorem mem_activeRules {rows : List RuleRow} {p : ProviderRow} {r : AvailabilityRule} :
    r ∈ activeRules (rows.map RuleRow.toAvailabilityRule) p ↔
      r.providerId = p.id ∧ r.active = true ∧ HasActive rows r.window := by
  unfold activeRules
  rw [List.mem_filter, Bool.and_eq_true, decide_eq_true_eq]
  constructor
  · intro ⟨hmem, hp, hactive⟩
    obtain ⟨row, hrow, hrule⟩ := List.mem_map.mp hmem
    exact ⟨hp, hactive, row, hrow, congrArg _ hrule, hrule ▸ hactive⟩
  · intro ⟨hp, hactive, row, hrow, hwindow, hrowActive⟩
    exact ⟨List.mem_map.mpr ⟨row, hrow, AvailabilityRule.eq_of_window hwindow
      (hrowActive.trans hactive.symm)⟩, hp, hactive⟩

/-! ### Whether a window is lost -/

/-- **When deduplication keeps every active window.**  The index can be created in any case; no
    window is lost exactly if the oldest rule of each window with an active rule is active. -/
theorem deduplicates_iff (table : RuleTable) :
    Deduplicates table.rows ↔ ∀ w, HasActive table.rows w → OldestActive table.rows w := by
  unfold Deduplicates
  rw [deduplicate_eq]
  constructor
  · rintro ⟨_, ⟨⟩, hkept⟩ w
    exact (window_kept_iff w).mp (hkept w)
  · intro holdest
    exact ⟨_, rfl, fun w => (window_kept_iff w).mpr (holdest w)⟩

/-- **No window is lost** exactly if the materializer reads the same rules of every provider. -/
theorem deduplicates_iff_activeRules (table : RuleTable) :
    Deduplicates table.rows ↔ ∀ p r,
      r ∈ activeRules ((deleteDuplicates table.rows).map RuleRow.toAvailabilityRule) p ↔
        r ∈ activeRules (table.rows.map RuleRow.toAvailabilityRule) p := by
  unfold Deduplicates
  rw [deduplicate_eq]
  constructor
  · rintro ⟨_, ⟨⟩, hkept⟩ p r
    rw [mem_activeRules, mem_activeRules, hkept]
  · intro hsame
    refine ⟨_, rfl, fun w => ?_⟩
    have h := hsame ⟨w.providerId, utc⟩ ⟨w.providerId, w.dayOfWeek, w.startTime, w.endTime, true⟩
    rw [mem_activeRules, mem_activeRules] at h
    simpa [AvailabilityRule.window] using h

/-- Provider `7` was given Monday morning twice, and the older rule was switched off. -/
def switchedOffMonday : RuleTable where
  rows := [⟨{ mondayMorning with active := false }, 1, 0⟩, ⟨mondayMorning, 2, 1⟩]
  id_nodup := by decide

/-- **The migration takes Monday morning away**: it keeps the rule that was switched off. -/
theorem monday_lost : ¬ Deduplicates switchedOffMonday.rows := by
  rintro ⟨rows', hrows', hkept⟩
  have hleft : deduplicate switchedOffMonday.rows =
      some [⟨{ mondayMorning with active := false }, 1, 0⟩] := by decide
  rw [hleft] at hrows'
  cases hrows'
  have hafter := (hkept ⟨7, 1, ⟨9, 0⟩, ⟨12, 0⟩⟩).mpr (by decide)
  revert hafter
  decide

end Chronos.Time
