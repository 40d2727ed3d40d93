import Chronos.Materializer
import Chronos.Rows.Insert

namespace Chronos.Time

open Calendar Rows

/-!
# The `INSERT` of a batch

`MaterializerService.materialize` inserts the batch of a provider with one statement, `ON CONFLICT
(provider_id, slot_start_utc) DO NOTHING`: it passes over the rows that start with a slot of the
provider, and a row that overlaps a slot in another way violates `slots_no_overlap` and aborts the
statement.  What is thrown is only counted.

* `stored_materializeBatch_iff` — one statement.
* `batch_spared_iff` — the loop over the providers: when those slots of a batch are stored that
  overlap nothing.
* `rows_providerBatch` — the batches `materialize` builds are of the provider and in order, as the
  statement supposes of a `Batch`.
-/

/-! ### The table -/

/-- `provider_id WITH =, tstzrange(slot_start_utc, slot_end_utc, '[)') WITH &&`. -/
def BatchRow.Overlaps (r s : BatchRow) : Prop :=
  r.providerId = s.providerId ∧ r.slotStartUtc < s.slotEndUtc ∧ s.slotStartUtc < r.slotEndUtc

/-- `UNIQUE (provider_id, slot_start_utc)`. -/
def BatchRow.SameStart (r s : BatchRow) : Prop :=
  r.providerId = s.providerId ∧ r.slotStartUtc = s.slotStartUtc

/-- `CHECK (slot_end_utc > slot_start_utc)`. -/
def BatchRow.Ordered (r : BatchRow) : Prop := r.slotStartUtc < r.slotEndUtc

instance : DecidableRel BatchRow.Overlaps := fun _ _ => inferInstanceAs (Decidable (_ ∧ _ ∧ _))

instance : DecidableRel BatchRow.SameStart := fun _ _ => inferInstanceAs (Decidable (_ ∧ _))

instance : DecidablePred BatchRow.Ordered := fun _ => inferInstanceAs (Decidable (_ < _))

/-- The table `slots`, its newest row first, with its constraints. -/
structure SlotsTable where
  rows : List BatchRow
  endAfterStart : ∀ r ∈ rows, r.Ordered
  noOverlap : Free BatchRow.Overlaps rows

/-- `INSERT INTO slots … ON CONFLICT (provider_id, slot_start_utc) DO NOTHING`, if no other
    constraint is violated. -/
def SlotsTable.insertBatch (table : SlotsTable) (batch : List BatchRow) : Option SlotsTable :=
  if hcheck : ∀ r ∈ batch, r.Ordered then
    match hrows : insertAll BatchRow.SameStart BatchRow.Overlaps table.rows batch with
    | none => none
    | some rows => some
      { rows := rows
        endAfterStart := fun r hr => by
          rw [insertAll_eq_some hrows] at hr
          exact (mem_fill hr).elim (table.endAfterStart r) (hcheck r)
        noOverlap := table.noOverlap.insertAll hrows }
  else none

/-- `try { … INSERT … } catch (e) { … }`: Prisma gives a raw statement that fails a code of its
    own. -/
def SlotsTable.materializeBatch (table : SlotsTable) (batch : List BatchRow) :
    SlotsTable × InsertOutcome :=
  match table.insertBatch batch with
  | some table' => (table', .inserted)
  | none => (table, .failed)

/-- The loop over the providers, each with its batch. -/
def SlotsTable.materialize (table : SlotsTable) (batches : List (List BatchRow)) : SlotsTable :=
  batches.foldl (fun table batch => (table.materializeBatch batch).1) table

/-- The batch of a provider, its slots pairwise non-overlapping. -/
structure Batch where
  providerId : ProviderId
  rows : List BatchRow
  own : ∀ r ∈ rows, r.providerId = providerId
  endAfterStart : ∀ r ∈ rows, r.Ordered
  disjoint : rows.Pairwise fun r s => ¬ r.Overlaps s

/-- Every slot of the batch that overlaps none of the provider's is stored, and the slots that were
    there are as they were. -/
structure Batch.Spared (b : Batch) (before after : SlotsTable) : Prop where
  stored : ∀ r ∈ b.rows, (∀ s ∈ before.rows, ¬ s.Overlaps r) → r ∈ after.rows
  unchanged : ∀ s ∈ before.rows, s ∈ after.rows

/-- Every slot of the batch that overlaps another one starts with one; or all of them overlap one. -/
def Batch.Fits (b : Batch) (table : SlotsTable) : Prop :=
  (∀ r ∈ b.rows, (∃ s ∈ table.rows, s.Overlaps r) → ∃ s ∈ table.rows, s.SameStart r) ∨
    ∀ r ∈ b.rows, ∃ s ∈ table.rows, s.Overlaps r

/-! ### One statement -/

section Statement

variable {table table' : SlotsTable} {b : Batch} {batch : List BatchRow} {r s : BatchRow}

theorem BatchRow.SameStart.overlaps (h : r.SameStart s) (hr : r.Ordered) (hs : s.Ordered) :
    r.Overlaps s := by
  obtain ⟨hprovider, hstart⟩ := h
  unfold BatchRow.Ordered at hr hs
  refine ⟨hprovider, ?_, ?_⟩
  · rw [hstart]
    exact hs
  · rw [← hstart]
    exact hr

/-- What a statement leaves that succeeds. -/
theorem rows_insertBatch (h : table.insertBatch batch = some table') :
    table'.rows = fill BatchRow.SameStart table.rows batch := by
  unfold SlotsTable.insertBatch at h
  split at h
  · split at h
    · cases h
    · next hrows =>
      obtain rfl := Option.some.inj h
      exact insertAll_eq_some hrows
  · cases h

theorem insertBatch_isSome : (table.insertBatch batch).isSome = true ↔
    (∀ r ∈ batch, r.Ordered) ∧
      (insertAll BatchRow.SameStart BatchRow.Overlaps table.rows batch).isSome = true := by
  unfold SlotsTable.insertBatch
  split
  · next hcheck =>
    split
    · next hrows => simp [hrows]
    · next hrows => simpa [hrows] using hcheck
  · next hcheck => simp [hcheck]

/-- No two rows of a batch are in each other's way. -/
theorem Batch.apart (b : Batch) :
    b.rows.Pairwise fun r s => ¬ r.SameStart s ∧ ¬ r.Overlaps s := by
  refine b.disjoint.imp_of_mem fun hr hs hno => ⟨fun hsame => ?_, hno⟩
  exact hno (hsame.overlaps (b.endAfterStart _ hr) (b.endAfterStart _ hs))

/-- **When the statement succeeds.** -/
theorem insertBatch_isSome_iff : (table.insertBatch b.rows).isSome = true ↔
    ∀ r ∈ b.rows, (∃ s ∈ table.rows, s.Overlaps r) → ∃ s ∈ table.rows, s.SameStart r := by
  rw [insertBatch_isSome, insertAll_isSome_iff b.apart]
  exact and_iff_right b.endAfterStart

/-- A table only grows, and by rows of the batch. -/
theorem mem_materializeBatch : (∀ s ∈ table.rows, s ∈ (table.materializeBatch batch).1.rows) ∧
    ∀ s ∈ (table.materializeBatch batch).1.rows, s ∈ table.rows ∨ s ∈ batch := by
  unfold SlotsTable.materializeBatch
  split
  · next hinsert =>
    rw [rows_insertBatch hinsert]
    exact ⟨fun s hs => suffix_fill.subset hs, fun s hs => mem_fill hs⟩
  · exact ⟨fun s hs => hs, fun s hs => Or.inl hs⟩

/-- **One statement**: a slot that overlaps nothing is stored exactly if no slot of the batch aborts
    the statement. -/
theorem stored_materializeBatch_iff :
    (∀ r ∈ b.rows, (∀ s ∈ table.rows, ¬ s.Overlaps r) → r ∈ (table.materializeBatch b.rows).1.rows) ↔
      b.Fits table := by
  unfold SlotsTable.materializeBatch Batch.Fits
  cases hinsert : table.insertBatch b.rows with
  | some table' =>
    -- The statement succeeds: only a slot with the same start keeps a slot out.
    have hfits := insertBatch_isSome_iff.mp (Option.isSome_iff_exists.mpr ⟨table', hinsert⟩)
    refine iff_of_true (fun r hr hfree => ?_) (Or.inl hfits)
    show r ∈ table'.rows
    rw [rows_insertBatch hinsert]
    refine mem_fill_of_free (b.apart.imp And.left) hr ?_
    rintro ⟨s, hs, hsame⟩
    exact hfree s hs (hsame.overlaps (table.endAfterStart s hs) (b.endAfterStart r hr))
  | none =>
    -- The statement is aborted, and nothing is stored.
    have haborts : ¬ ∀ r ∈ b.rows, (∃ s ∈ table.rows, s.Overlaps r) →
        ∃ s ∈ table.rows, s.SameStart r := by
      intro hfits
      have hsome := insertBatch_isSome_iff.mpr hfits
      rw [hinsert] at hsome
      cases hsome
    show (∀ r ∈ b.rows, _ → r ∈ table.rows) ↔ _
    constructor
    · intro hstored
      refine Or.inr fun r hr => ?_
      by_contra hnone
      have hfree : ∀ s ∈ table.rows, ¬ s.Overlaps r := fun s hs hoverlaps => hnone ⟨s, hs, hoverlaps⟩
      -- A slot overlaps itself.
      have hordered := b.endAfterStart r hr
      exact hfree r (hstored r hr hfree) ⟨rfl, hordered, hordered⟩
    · rintro (hfits | hall) r hr hfree
      · exact absurd hfits haborts
      · obtain ⟨s, hs, hoverlaps⟩ := hall r hr
        exact absurd hoverlaps (hfree s hs)

end Statement

/-! ### The loop -/

/-- The tables have the same slots of the provider. -/
def SameSlots (p : ProviderId) (table table' : SlotsTable) : Prop :=
  ∀ s, s.providerId = p → (s ∈ table.rows ↔ s ∈ table'.rows)

theorem SameSlots.symm {p : ProviderId} {table table' : SlotsTable}
    (h : SameSlots p table table') : SameSlots p table' table := fun s hs => (h s hs).symm

section Loop

variable {table table' after after' : SlotsTable} {b : Batch} {batches : List Batch} {p : ProviderId}

/-- The batch of another provider. -/
theorem sameSlots_materializeBatch (h : b.providerId ≠ p) :
    SameSlots p table (table.materializeBatch b.rows).1 := by
  refine fun s hs => ⟨mem_materializeBatch.1 s, fun hmem => ?_⟩
  rcases mem_materializeBatch.2 s hmem with hold | hnew
  · exact hold
  · exact absurd ((b.own s hnew).symm.trans hs) h

theorem sameSlots_materialize (h : ∀ b ∈ batches, b.providerId ≠ p) :
    SameSlots p table (table.materialize (batches.map Batch.rows)) := by
  induction batches generalizing table with
  | nil => exact fun s _ => Iff.rfl
  | cons b batches ih =>
    obtain ⟨hb, hrest⟩ := List.forall_mem_cons.mp h
    exact fun s hs => (sameSlots_materializeBatch hb s hs).trans (ih hrest s hs)

theorem mem_materialize {batches : List (List BatchRow)} :
    ∀ s ∈ table.rows, s ∈ (table.materialize batches).rows := by
  induction batches generalizing table with
  | nil => exact fun s hs => hs
  | cons batch batches ih => exact fun s hs => ih s (mem_materializeBatch.1 s hs)

/-- Only slots of the same provider overlap or have the same start. -/
theorem SameSlots.exists_iff (h : SameSlots b.providerId table table') {r : BatchRow}
    (hr : r ∈ b.rows) {c : BatchRow → BatchRow → Prop} (hc : ∀ s, c s r → s.providerId = r.providerId) :
    (∃ s ∈ table.rows, c s r) ↔ ∃ s ∈ table'.rows, c s r := by
  have hown : ∀ s, c s r → (s ∈ table.rows ↔ s ∈ table'.rows) :=
    fun s hs => h s ((hc s hs).trans (b.own r hr))
  constructor
  · rintro ⟨s, hs, hcs⟩
    exact ⟨s, (hown s hcs).mp hs, hcs⟩
  · rintro ⟨s, hs, hcs⟩
    exact ⟨s, (hown s hcs).mpr hs, hcs⟩

theorem SameSlots.fits_iff (h : SameSlots b.providerId table table') :
    b.Fits table ↔ b.Fits table' := by
  unfold Batch.Fits
  have hoverlap : ∀ r ∈ b.rows, (∃ s ∈ table.rows, s.Overlaps r) ↔ ∃ s ∈ table'.rows, s.Overlaps r :=
    fun r hr => h.exists_iff hr fun _ hc => hc.1
  have hstart : ∀ r ∈ b.rows, (∃ s ∈ table.rows, s.SameStart r) ↔ ∃ s ∈ table'.rows, s.SameStart r :=
    fun r hr => h.exists_iff hr fun _ hc => hc.1
  exact or_congr (forall₂_congr fun r hr => imp_congr (hoverlap r hr) (hstart r hr))
    (forall₂_congr hoverlap)

/-- Whether the batch's slots are stored is about the slots of its provider, before and after. -/
theorem SameSlots.stored_iff (hbefore : SameSlots b.providerId table table')
    (hafter : SameSlots b.providerId after after') :
    (∀ r ∈ b.rows, (∀ s ∈ table.rows, ¬ s.Overlaps r) → r ∈ after.rows) ↔
      ∀ r ∈ b.rows, (∀ s ∈ table'.rows, ¬ s.Overlaps r) → r ∈ after'.rows := by
  refine forall₂_congr fun r hr => imp_congr ?_ (hafter r (b.own r hr))
  have hoverlap : (∃ s ∈ table.rows, s.Overlaps r) ↔ ∃ s ∈ table'.rows, s.Overlaps r :=
    hbefore.exists_iff hr fun _ hc => hc.1
  simpa using not_congr hoverlap

theorem materialize_append (batches batches' : List (List BatchRow)) :
    table.materialize (batches ++ batches') = (table.materialize batches).materialize batches' :=
  List.foldl_append

end Loop

/-- **When one conflicting slot does not lose a batch**: the slots of a provider's batch that overlap
    none of its slots are stored exactly if every slot of the batch that overlaps one starts with
    one, or all of them overlap one. -/
theorem batch_spared_iff (table : SlotsTable) (batches : List Batch)
    (hdistinct : (batches.map Batch.providerId).Nodup) :
    ∀ b ∈ batches, b.Spared table (table.materialize (batches.map Batch.rows)) ↔ b.Fits table := by
  intro b hb
  obtain ⟨earlier, later, rfl⟩ := List.append_of_mem hb
  rw [List.map_append, List.map_cons, List.nodup_middle, List.nodup_cons, List.mem_append,
    not_or, List.mem_map, List.mem_map] at hdistinct
  obtain ⟨⟨hearlier, hlater⟩, -⟩ := hdistinct
  -- The other batches leave the provider's slots alone.
  have hbefore : SameSlots b.providerId table (table.materialize (earlier.map Batch.rows)) :=
    sameSlots_materialize fun b' hb' heq => hearlier ⟨b', hb', heq⟩
  have hafter : SameSlots b.providerId
      ((table.materialize (earlier.map Batch.rows)).materializeBatch b.rows).1
      (table.materialize ((earlier ++ b :: later).map Batch.rows)) := by
    rw [List.map_append, materialize_append]
    exact sameSlots_materialize fun b' hb' heq => hlater ⟨b', hb', heq⟩
  rw [hbefore.fits_iff, ← stored_materializeBatch_iff, hbefore.symm.stored_iff hafter]
  exact ⟨fun h => h.stored, fun h => ⟨h, mem_materialize⟩⟩

/-- What the batch of a provider consists of. -/
theorem rows_providerBatch {p : ProviderRow} {rules : List AvailabilityRule} {fromDate toDate : Date}
    {batch : List BatchRow} (hyear : toDate.year ≤ 9999) (hle : fromDate ≤ toDate)
    (h : providerBatch p rules fromDate toDate = .ok batch) :
    ∀ r ∈ batch, r.providerId = p.id ∧ r.Ordered := by
  obtain ⟨batch', hbatch', hmem⟩ := mem_providerBatch p rules hyear hle
  rw [h] at hbatch'
  obtain rfl := Except.ok.inj hbatch'
  intro r hr
  obtain ⟨slot, rfl⟩ := exists_slot_of_mem_batch h hr
  obtain ⟨w, -, hslot⟩ := (hmem slot).mp hr
  obtain ⟨step, -, hkept, rfl⟩ := mem_slotsOf.mp hslot
  exact ⟨rfl, hkept⟩

/-- A batch that `materialize` builds, if its slots do not overlap. -/
def Batch.ofProvider (p : ProviderRow) (rules : List AvailabilityRule) (fromDate toDate : IsoDate)
    (hle : fromDate.1 ≤ toDate.1) (rows : List BatchRow)
    (h : providerBatch p rules fromDate.1 toDate.1 = .ok rows)
    (hdisjoint : rows.Pairwise fun r s => ¬ r.Overlaps s) : Batch where
  providerId := p.id
  rows := rows
  own r hr := (rows_providerBatch toDate.2 hle h r hr).1
  endAfterStart r hr := (rows_providerBatch toDate.2 hle h r hr).2
  disjoint := hdisjoint

/-- A row of provider `7` in minutes after the epoch. -/
def sampleRow (first last : Nat) : BatchRow := ⟨7, minutesMs first, minutesMs last, .open, utc⟩

/-- The slot from nine to ten, and those a rule that has been moved by half an hour asks for. -/
def nineToTen : SlotsTable := ⟨[sampleRow 540 600], by decide, by decide⟩

def halfPastNine : Batch :=
  ⟨7, [sampleRow 570 630, sampleRow 630 690], by decide, by decide, by decide⟩

def nineToEleven : Batch :=
  ⟨7, [sampleRow 540 600, sampleRow 600 660], by decide, by decide, by decide⟩

/-- The slot at half past ten is lost with the one at half past nine. -/
theorem moved_rule_loses_batch :
    ¬ halfPastNine.Spared nineToTen (nineToTen.materialize [halfPastNine.rows]) := by
  intro h
  have hfree : ∀ s ∈ nineToTen.rows, ¬ s.Overlaps (sampleRow 630 690) := by decide
  have hstored := h.stored (sampleRow 630 690) (List.mem_cons_of_mem _ List.mem_cons_self) hfree
  have hrows : (nineToTen.materialize [halfPastNine.rows]).rows = [sampleRow 540 600] := rfl
  rw [hrows, List.mem_singleton] at hstored
  have hstart := congrArg BatchRow.slotStartUtc hstored
  exact absurd hstart (by decide)

theorem same_rule_keeps_batch :
    nineToEleven.Spared nineToTen (nineToTen.materialize [nineToEleven.rows]) := by
  refine (batch_spared_iff nineToTen [nineToEleven] (by decide) nineToEleven
    List.mem_cons_self).mpr (Or.inl ?_)
  decide

end Chronos.Time
