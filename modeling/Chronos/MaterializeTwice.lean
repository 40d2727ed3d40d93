import Chronos.BatchInsert

namespace Chronos.Time

open Calendar Rows

/-!
# The statistics of the materializer

Here the `INSERT` of a batch inserts the rows whose `(provider_id, slot_start_utc)` is not present,
one after the other.  It never fails, so `materialize` counts every batch as created, whatever was
there before.

* `slotsCreated_materializeAll`, `materializeCall_created_iff` — what a call reports, and when that is
  what it adds.
* `materializeCall_again` — a second call changes nothing.
* `statistics_true_iff` — the statistics are true, and the second call reports nothing, exactly if
  there is nothing to insert.
-/

/-- The rows of `slots` under the unique index. -/
structure KeyedTable where
  rows : List BatchRow
  unique : Free BatchRow.SameStart rows

/-- The rows of a batch whose key is not present. -/
def KeyedTable.insert (table : KeyedTable) (batch : List BatchRow) : KeyedTable :=
  ⟨fill BatchRow.SameStart table.rows batch, table.unique.fill⟩

/-- `clock.now()` and `Date.now()`. -/
structure Readings where
  now : ClockReading
  dateNow : ClockReading
  le : now.1 ≤ dateNow.1

section Call

variable (providers : List ProviderRow) (rules : List AvailabilityRule) (clock : Readings)

/-- What `materialize` reports and builds; no statement fails. -/
def materializeAll : MaterializeStats × List (List BatchRow) :=
  materialize (some providers) (fun p => some (activeRules rules p)) (fun _ => .inserted)
    clock.now.1 clock.dateNow.1

/-- One call: what it reports, and the table after it. -/
def materializeCall (table : KeyedTable) : MaterializeStats × KeyedTable :=
  ((materializeAll providers rules clock).1,
    (materializeAll providers rules clock).2.foldl KeyedTable.insert table)

/-- The total batch size. -/
def totalBatchSize : Nat := (materializeAll providers rules clock).2.flatten.length

/-- **Materialization is idempotent and its statistics are true.** -/
structure StatisticsTrue (table : KeyedTable) : Prop where
  created : (materializeCall providers rules clock table).2.rows.length =
    table.rows.length + (materializeCall providers rules clock table).1.slotsCreated
  total : (materializeCall providers rules clock table).1.counted =
    totalBatchSize providers rules clock
  unchanged : (materializeCall providers rules clock (materializeCall providers rules clock table).2).2.rows =
    (materializeCall providers rules clock table).2.rows
  nothing : (materializeCall providers rules clock
    (materializeCall providers rules clock table).2).1.slotsCreated = 0

/-- No provider has a rule, the earliest of its day, that asks for a slot on the dates of the
    horizon. -/
def NothingToInsert : Prop :=
  ∀ p ∈ providers, ∀ w, Earliest (activeRules rules p) w →
    slotsOf p.timezone (Rules.steps defaultSlotMinutes w.rules (horizonFrom clock.now).1
      (horizonTo clock.dateNow).1) = []

variable {providers rules clock} {table : KeyedTable}

@[simp] theorem fst_materializeCall : (materializeCall providers rules clock table).1 =
    (materializeAll providers rules clock).1 := rfl

/-- Batches inserted one after the other are like one. -/
theorem rows_insert_foldl (batches : List (List BatchRow)) :
    (batches.foldl KeyedTable.insert table).rows =
      fill BatchRow.SameStart table.rows batches.flatten := by
  induction batches generalizing table with
  | nil => rfl
  | cons batch batches ih =>
    rw [List.foldl_cons, ih, List.flatten_cons, fill_append]
    rfl

/-- The batches, one for each provider; each of their rows is counted once. -/
theorem materializeAll_forall₂ :
    List.Forall₂ (fun p batch => providerBatch p (activeRules rules p) (horizonFrom clock.now).1
      (horizonTo clock.dateNow).1 = .ok batch) providers (materializeAll providers rules clock).2 ∧
    (materializeAll providers rules clock).1.counted = totalBatchSize providers rules clock := by
  have hrules : ∀ p, (fun p => some (activeRules rules p)) p = some (activeRules rules p) :=
    fun _ => rfl
  obtain ⟨built, hbuilt, hbatches, hcounted⟩ : ∃ built,
      List.Forall₂ (fun p batch => providerBatch p (activeRules rules p) (horizonFrom clock.now).1
        (horizonTo clock.dateNow).1 = .ok batch) providers built ∧
      (materializeAll providers rules clock).2 = [] ++ built ∧
      (materializeAll providers rules clock).1.counted = 0 + built.flatten.length :=
    materializeLoop_forall₂ (horizonTo clock.dateNow).2 (horizon_le clock.le) hrules providers _ []
  rw [List.nil_append] at hbatches
  unfold totalBatchSize
  rw [hbatches, hcounted, Nat.zero_add]
  exact ⟨hbuilt, rfl⟩

/-- **Every row is counted as created.** -/
theorem slotsCreated_materializeAll :
    (materializeAll providers rules clock).1.slotsCreated = totalBatchSize providers rules clock := by
  have hrules : ∀ p, (fun p => some (activeRules rules p)) p = some (activeRules rules p) :=
    fun _ => rfl
  obtain ⟨hskipped, herrors⟩ : (materializeAll providers rules clock).1.slotsSkipped = 0 ∧
      (materializeAll providers rules clock).1.errors = 0 :=
    materializeLoop_inserted (fun _ => rfl) (horizonTo clock.dateNow).2 (horizon_le clock.le) hrules
      providers _ []
  have hcounted : (materializeAll providers rules clock).1.counted =
      totalBatchSize providers rules clock := materializeAll_forall₂.2
  unfold MaterializeStats.counted at hcounted
  omega

/-- **Calling again** leaves the table as it is. -/
theorem materializeCall_again (table : KeyedTable) :
    (materializeCall providers rules clock (materializeCall providers rules clock table).2).2.rows =
      (materializeCall providers rules clock table).2.rows := by
  unfold materializeCall
  dsimp only
  rw [rows_insert_foldl, rows_insert_foldl]
  exact fill_fill fun r _ => ⟨rfl, rfl⟩

/-- **What a call adds** is what it reports exactly if no two rows, old or new, have the same key. -/
theorem materializeCall_created_iff :
    (materializeCall providers rules clock table).2.rows.length =
        table.rows.length + (materializeCall providers rules clock table).1.slotsCreated ↔
      Free BatchRow.SameStart ((materializeAll providers rules clock).2.flatten.reverse ++ table.rows) := by
  have hcreated : (materializeCall providers rules clock table).1.slotsCreated =
      (materializeAll providers rules clock).2.flatten.length := slotsCreated_materializeAll
  rw [hcreated, ← length_fill_eq_iff table.unique]
  show (List.foldl KeyedTable.insert table _).rows.length = _ ↔ _
  rw [rows_insert_foldl]

/-- The batch of a provider is empty exactly if none of the rules that are used has a slot. -/
theorem providerBatch_eq_nil_iff {p : ProviderRow} {own : List AvailabilityRule}
    {batch : List BatchRow} (hbatch : providerBatch p own (horizonFrom clock.now).1
      (horizonTo clock.dateNow).1 = .ok batch) :
    batch = [] ↔ ∀ w, Earliest own w →
      slotsOf p.timezone (Rules.steps defaultSlotMinutes w.rules (horizonFrom clock.now).1
        (horizonTo clock.dateNow).1) = [] := by
  obtain ⟨batch', hbatch', hmem⟩ := mem_providerBatch p own (horizonTo clock.dateNow).2
    (horizon_le clock.le)
  rw [hbatch] at hbatch'
  obtain rfl := Except.ok.inj hbatch'
  constructor
  · intro hnone w hw
    refine List.eq_nil_iff_forall_not_mem.mpr fun slot hslot => ?_
    have hrow := (hmem slot).mpr ⟨w, hw, hslot⟩
    rw [hnone] at hrow
    cases hrow
  · intro hnone
    refine List.eq_nil_iff_forall_not_mem.mpr fun r hr => ?_
    obtain ⟨slot, rfl⟩ := exists_slot_of_mem_batch hbatch hr
    obtain ⟨w, hw, hslot⟩ := (hmem slot).mp hr
    rw [hnone w hw] at hslot
    cases hslot

/-- There are batches to insert exactly if a rule asks for a slot. -/
theorem totalBatchSize_eq_zero_iff :
    totalBatchSize providers rules clock = 0 ↔ NothingToInsert providers rules clock := by
  have hbatches : List.Forall₂ (fun p batch => providerBatch p (activeRules rules p)
      (horizonFrom clock.now).1 (horizonTo clock.dateNow).1 = .ok batch) providers
      (materializeAll providers rules clock).2 := materializeAll_forall₂.1
  unfold totalBatchSize NothingToInsert
  rw [List.length_eq_zero_iff, List.flatten_eq_nil_iff]
  -- Provider by provider.
  generalize (materializeAll providers rules clock).2 = batches at hbatches
  induction hbatches with
  | nil => exact iff_of_true (fun _ h => nomatch h) fun _ h => nomatch h
  | cons hbatch _ ih =>
    rw [List.forall_mem_cons, List.forall_mem_cons]
    exact and_congr (providerBatch_eq_nil_iff hbatch) ih

end Call

/-- **When the statistics are true**, and a second call reports nothing: exactly if there is nothing
    to insert.  In any case the counters add up and a second call leaves the table as it is; a first
    call adds what it reports exactly if no two rows, old or new, have the same key. -/
theorem statistics_true_iff (providers : List ProviderRow) (rules : List AvailabilityRule)
    (clock : Readings) (table : KeyedTable) :
    (StatisticsTrue providers rules clock table ↔ NothingToInsert providers rules clock) ∧
      (materializeCall providers rules clock table).1.counted = totalBatchSize providers rules clock ∧
      (materializeCall providers rules clock (materializeCall providers rules clock table).2).2.rows =
        (materializeCall providers rules clock table).2.rows ∧
      ((materializeCall providers rules clock table).2.rows.length =
          table.rows.length + (materializeCall providers rules clock table).1.slotsCreated ↔
        Free BatchRow.SameStart
          ((materializeAll providers rules clock).2.flatten.reverse ++ table.rows)) := by
  have htotal : (materializeCall providers rules clock table).1.counted =
      totalBatchSize providers rules clock := materializeAll_forall₂.2
  refine ⟨?_, htotal, materializeCall_again table, materializeCall_created_iff⟩
  rw [← totalBatchSize_eq_zero_iff]
  constructor
  · intro h
    rw [← slotsCreated_materializeAll]
    exact h.nothing
  · intro hzero
    refine ⟨materializeCall_created_iff.mpr ?_, htotal, materializeCall_again table, ?_⟩
    · rw [List.length_eq_zero_iff.mp hzero]
      exact table.unique
    · rw [← hzero]
      exact slotsCreated_materializeAll

/-- Clocks that show the first of January 2026, 00:00 in UTC. -/
def newYearReadings : Readings := ⟨newYearNow, newYearNow, le_refl _⟩

/-- There are Monday mornings to come, and the second call reports them again. -/
theorem second_call_reports_created :
    ¬ StatisticsTrue [utcProvider] [mondayMorning] newYearReadings ⟨[], .nil⟩ := by
  intro h
  have hcreated := h.nothing
  rw [fst_materializeCall, slotsCreated_materializeAll, totalBatchSize_eq_zero_iff] at hcreated
  have hrules : activeRules [mondayMorning] utcProvider = [mondayMorning] := rfl
  have hearliest : Earliest (activeRules [mondayMorning] utcProvider) mondayMorning := by
    rw [hrules]
    exact earliest_singleton mondayMorning
  have hnone := hcreated utcProvider List.mem_cons_self mondayMorning
    hearliest
  let q : Step := ⟨firstMonday2026.1, 540, 600⟩
  have hdates : (horizonFrom newYearNow).1 ≤ firstMonday2026.1 ∧
      firstMonday2026.1 ≤ (horizonTo newYearNow).1 := by decide +kernel
  have hq : q ∈ dateSteps defaultSlotMinutes mondayMorning.rules firstMonday2026.1 := by decide
  have hkept : q.Kept utcProvider.timezone := by
    unfold Step.Kept Step.slot utcProvider utc
    dsimp only
    rw [Zone.compatible_fixed, Zone.compatible_fixed]
    decide
  have hslot : q.slot utcProvider.timezone ∈ slotsOf utcProvider.timezone
      (Rules.steps defaultSlotMinutes mondayMorning.rules (horizonFrom newYearReadings.now).1
        (horizonTo newYearReadings.dateNow).1) :=
    mem_slotsOf.mpr ⟨q, mem_steps_of_mem_dateSteps hdates hq, hkept, rfl⟩
  rw [hnone] at hslot
  cases hslot

end Chronos.Time
