import Chronos.SlotDays
import Chronos.Tasks
import Chronos.Rows.Insert
import Chronos.ReadCommitted.Solitary
import Mathlib.Data.Fintype.EquivFin

namespace Chronos

open ReadCommitted ReadCommitted.Prog Rows

/-!
# `materializeProvider` fills the gaps

Each slot of nine to five is inserted by a statement of its own, which `ON CONFLICT DO NOTHING`
passes over if a slot of the provider overlaps it.

* `exec_insertSlot` — the statement is `Rows.insertUnless`.
* `performsAt_materializeProvider` — the loop is `Rows.fill`, whatever ids the server draws.
* `materializeProvider_fills` — what a call leaves, and that a second one changes nothing.
-/

/-! ### The code -/

/-- `slotMinutes: 30`. -/
def providerSlotMinutes : Nat := 30

/-- `{ startTime: '09:00', endTime: '17:00' }`. -/
def nineToFive : Option Time.Rules := some ⟨none, some ⟨9, 0⟩, some ⟨17, 0⟩⟩

/-- What `generateSlots` throws; the texts of a `RangeError` are not the code's. -/
def thrown : Time.TimeError → JsError
  | .error message => jsError message
  | .rangeError => jsError "RangeError"

/-- `materializeProvider(db, providerId, fromDate, toDate, providerTz)`. -/
def materializeProviderDates (providerId : ProviderId) (fromDate toDate : Calendar.Date)
    (providerTz : Calendar.Zone) : Program Unit :=
  match Time.generateSlots providerTz providerSlotMinutes nineToFive fromDate toDate with
  | .error e => throw (thrown e)
  | .ok slots => materializeProvider providerId (slots.map fun s => (s.startUtc, s.endUtc))

/-! ### The table -/

/-- An entry of the table `slots`. -/
abbrev SlotEntry : Type := Sigma fun _ : SlotId => Slot

/-- Two slots of a provider start at once, or overlap. -/
def Taken (e e' : SlotEntry) : Prop :=
  e.2.providerId = e'.2.providerId ∧ (e.2.slotStartUtc = e'.2.slotStartUtc ∨
    e.2.slotStartUtc < e'.2.slotEndUtc ∧ e'.2.slotStartUtc < e.2.slotEndUtc)

instance : DecidableRel Taken := fun _ _ => inferInstanceAs (Decidable (_ ∧ _))

/-- Every slot ends after it starts, and no two of a provider overlap. -/
structure Database.SlotsValid (d : Database) : Prop where
  ordered : ∀ id row, d.slots.lookup id = some row → row.slotStartUtc < row.slotEndUtc
  apart : ∀ id id' row row', d.slots.lookup id = some row → d.slots.lookup id' = some row' →
    id ≠ id' → row.providerId = row'.providerId →
      ¬ (row.slotStartUtc < row'.slotEndUtc ∧ row'.slotStartUtc < row.slotEndUtc)

/-- **The slots have been filled in**, as far as there was room for them. -/
structure Filled (p : ProviderId) (slots : List Time.Slot) (d d' : Database) : Prop where
  kept : ∀ id row, d.slots.lookup id = some row → d'.slots.lookup id = some row
  valid : d'.SlotsValid
  full : ∀ s ∈ slots, ∃ id row, d'.slots.lookup id = some row ∧ row.providerId = p ∧
    (row.slotStartUtc = s.startUtc ∧ row.slotEndUtc = s.endUtc ∨
      row.slotStartUtc < s.endUtc ∧ s.startUtc < row.slotEndUtc)
  added : ∀ id row, d'.slots.lookup id = some row → d.slots.lookup id = some row ∨
    d.slots.lookup id = none ∧ ∃ s ∈ slots, row = ⟨p, s.startUtc, s.endUtc, .«open»⟩
  frame : d' = { d with slots := d'.slots }

/-- Nothing fails from outside, and the server draws an id that no slot has. -/
def DrawsSlotId (d : Database) (env : Env Nat JsError Ask.Answer) : Prop :=
  env.fault = none ∧ d.slots.lookup env.fresh = none

theorem exists_drawsSlotId (d : Database) : ∃ env, DrawsSlotId d env := by
  obtain ⟨fresh, hfresh⟩ := Infinite.exists_notMem_finset d.slots.keys.toFinset
  refine ⟨calmEnv fresh 0, rfl, AList.lookup_eq_none.mpr fun hmem => hfresh ?_⟩
  rw [List.mem_toFinset]
  exact hmem

section Table

variable {d : Database}

theorem mem_slots_entries {id : SlotId} {row : Slot} :
    (⟨id, row⟩ : SlotEntry) ∈ d.slots.entries ↔ d.slots.lookup id = some row :=
  AList.mem_lookup_iff.symm

/-- Of two slots that are in each other's way, those that start at once overlap as well. -/
theorem Taken.overlap {e e' : SlotEntry} (h : Taken e e')
    (he : e.2.slotStartUtc < e.2.slotEndUtc) (he' : e'.2.slotStartUtc < e'.2.slotEndUtc) :
    e.2.slotStartUtc < e'.2.slotEndUtc ∧ e'.2.slotStartUtc < e.2.slotEndUtc := by
  rcases h.2 with hstart | hoverlap
  · exact ⟨hstart ▸ he', hstart ▸ he⟩
  · exact hoverlap

/-- A table is valid exactly if its entries are ordered and not in each other's way. -/
theorem slotsValid_iff : d.SlotsValid ↔
    (∀ e ∈ d.slots.entries, e.2.slotStartUtc < e.2.slotEndUtc) ∧ Free Taken d.slots.entries := by
  constructor
  · intro h
    have hordered : ∀ e ∈ d.slots.entries, e.2.slotStartUtc < e.2.slotEndUtc :=
      fun e he => h.ordered e.1 e.2 (mem_slots_entries.mp he)
    refine ⟨hordered, d.slots.nodupKeys.nodup.pairwise_of_forall_ne ?_⟩
    rintro ⟨id, row⟩ he ⟨id', row'⟩ he' hne htaken
    have hrow := mem_slots_entries.mp he
    have hrow' := mem_slots_entries.mp he'
    have hids : id' ≠ id := by
      rintro rfl
      rw [hrow] at hrow'
      exact hne (by rw [Option.some.inj hrow'])
    exact h.apart id' id row' row hrow' hrow hids htaken.1
      (htaken.overlap (hordered _ he') (hordered _ he))
  · rintro ⟨hordered, hfree⟩
    refine ⟨fun id row hrow => hordered _ (mem_slots_entries.mpr hrow), ?_⟩
    intro id id' row row' hrow hrow' hne hprovider hoverlap
    have hsymm : Std.Symm fun e e' : SlotEntry => ¬ Taken e' e := by
      refine ⟨fun e e' hno htaken => hno ⟨htaken.1.symm, ?_⟩⟩
      exact htaken.2.imp Eq.symm And.symm
    have hne' : (⟨id, row⟩ : SlotEntry) ≠ ⟨id', row'⟩ := fun heq => hne (congrArg Sigma.fst heq)
    exact hfree.forall (mem_slots_entries.mpr hrow) (mem_slots_entries.mpr hrow') hne'
      ⟨hprovider.symm, Or.inr hoverlap.symm⟩

theorem slotConflict_iff {p : ProviderId} {start finish : Instant} (id : SlotId) :
    d.slotConflict p start finish = true ↔
      Meets Taken d.slots.entries ⟨id, ⟨p, start, finish, .«open»⟩⟩ := by
  simp [Database.slotConflict, Meets, Taken]

/-- **The `INSERT`** of a slot that is in order, with an id that is new. -/
theorem exec_insertSlot {cat : Catalog} {p : ProviderId} {start finish : Instant} {fresh : Nat}
    (hprovider : (cat.providers p).isSome = true) (hordered : start < finish)
    (hfresh : d.slots.lookup fresh = none) :
    (exec cat (.insertSlot p start finish) fresh d).result =
      .ok ((), if Meets Taken d.slots.entries ⟨fresh, ⟨p, start, finish, .«open»⟩⟩ then []
        else [.slot fresh ⟨p, start, finish, .«open»⟩]) := by
  have hcheck : ¬ finish ≤ start := Int.not_le.mpr hordered
  simp only [exec, if_neg hcheck, hfresh, Option.isSome_none, Bool.false_or,
    slotConflict_iff fresh]
  split
  · rfl
  · rw [Option.isNone_eq_false_iff.mpr hprovider, if_neg Bool.false_ne_true]

theorem entries_insert {id : SlotId} {row : Slot} (h : d.slots.lookup id = none) :
    (d.slots.insert id row).entries = ⟨id, row⟩ :: d.slots.entries :=
  AList.entries_insert_of_notMem (AList.lookup_eq_none.mp h)

end Table

/-! ### The loop -/

section Loop

variable {cat : Catalog} {p : ProviderId} {d d' : Database} {r : Except JsError Unit}
variable {slots : List (Instant × Instant)}

/-- The row of a slot. -/
def slotRow (p : ProviderId) (s : Instant × Instant) : Slot := ⟨p, s.1, s.2, .«open»⟩

/-- **One statement** of the loop. -/
theorem performsAt_cons (hprovider : (cat.providers p).isSome = true) {s : Instant × Instant}
    (hordered : s.1 < s.2) :
    PerformsAt (chronos cat) DrawsSlotId .idle d (materializeProvider p (s :: slots)) d' r ↔
      ∃ id, d.slots.lookup id = none ∧ PerformsAt (chronos cat) DrawsSlotId .idle
        (if Meets Taken d.slots.entries ⟨id, slotRow p s⟩ then d
          else { d with slots := d.slots.insert id (slotRow p s) })
        (materializeProvider p slots) d' r := by
  have hexec : ∀ o, d.slots.lookup o = none →
      ((chronos cat).exec (.insertSlot p s.1 s.2) o d).result =
        .ok ((), if Meets Taken d.slots.entries ⟨o, slotRow p s⟩ then [] else [.slot o (slotRow p s)]) :=
    fun o ho => exec_insertSlot hprovider hordered ho
  have happly : ∀ o, (chronos cat).apply
      (if Meets Taken d.slots.entries ⟨o, slotRow p s⟩ then [] else [.slot o (slotRow p s)]) d =
        if Meets Taken d.slots.entries ⟨o, slotRow p s⟩ then d
          else { d with slots := d.slots.insert o (slotRow p s) } := by
    intro o
    split
    · rfl
    · rfl
  show PerformsAt (chronos cat) DrawsSlotId .idle d
    (.stmt (.insertSlot p s.1 s.2) (fun _ => materializeProvider p slots) throw) d' r ↔ _
  rw [performsAt_stmt_idle]
  constructor
  · -- Neither a fault nor an error is possible.
    rintro ⟨env, ⟨hcalm, hfresh⟩, ⟨e, hf, -⟩ | ⟨e, -, hx, -⟩ | ⟨rows, ws, -, hx, hrest⟩⟩
    · rw [hcalm] at hf
      cases hf
    · rw [hexec _ hfresh] at hx
      cases hx
    · rw [hexec _ hfresh, Except.ok.injEq, Prod.mk.injEq] at hx
      obtain ⟨-, rfl⟩ := hx
      rw [happly] at hrest
      exact ⟨env.fresh, hfresh, hrest⟩
  · rintro ⟨id, hfresh, hrest⟩
    refine ⟨calmEnv id 0, ⟨rfl, hfresh⟩, Or.inr (Or.inr ⟨(), _, rfl, hexec id hfresh, ?_⟩)⟩
    rw [happly]
    exact hrest

/-- **The loop** inserts the rows of the slots, under whatever ids. -/
theorem performsAt_materializeProvider (hprovider : (cat.providers p).isSome = true)
    (hordered : ∀ s ∈ slots, s.1 < s.2)
    (h : PerformsAt (chronos cat) DrawsSlotId .idle d (materializeProvider p slots) d' r) :
    r = .ok () ∧ d' = { d with slots := d'.slots } ∧ ∃ new : List SlotEntry,
      new.map Sigma.snd = slots.map (slotRow p) ∧ d'.slots.entries = fill Taken d.slots.entries new := by
  induction slots generalizing d with
  | nil =>
    obtain ⟨rfl, rfl⟩ := performsAt_ret.mp h
    exact ⟨rfl, rfl, [], rfl, rfl⟩
  | cons s slots ih =>
    obtain ⟨hs, hordered⟩ := List.forall_mem_cons.mp hordered
    obtain ⟨id, hfresh, hrest⟩ := (performsAt_cons hprovider hs).mp h
    -- The entry for the slot has the id the server draws, also if it is passed over.
    by_cases hmeets : Meets Taken d.slots.entries ⟨id, slotRow p s⟩
    · rw [if_pos hmeets] at hrest
      obtain ⟨hr, hframe, new, hnew, hentries⟩ := ih hordered hrest
      refine ⟨hr, hframe, ⟨id, slotRow p s⟩ :: new, ?_, ?_⟩
      · rw [List.map_cons, List.map_cons, hnew]
      · rw [fill_cons, insertUnless_of_meets hmeets, hentries]
    · rw [if_neg hmeets] at hrest
      obtain ⟨hr, hframe, new, hnew, hentries⟩ := ih hordered hrest
      refine ⟨hr, hframe, ⟨id, slotRow p s⟩ :: new, ?_, ?_⟩
      · rw [List.map_cons, List.map_cons, hnew]
      · rw [fill_cons, insertUnless_of_not_meets hmeets, hentries]
        dsimp only
        rw [entries_insert hfresh]

/-- The loop comes to its end. -/
theorem exists_performsAt (hprovider : (cat.providers p).isSome = true)
    (hordered : ∀ s ∈ slots, s.1 < s.2) (d : Database) :
    ∃ d' r, PerformsAt (chronos cat) DrawsSlotId .idle d (materializeProvider p slots) d' r := by
  induction slots generalizing d with
  | nil => exact ⟨d, .ok (), performsAt_ret.mpr ⟨rfl, rfl⟩⟩
  | cons s slots ih =>
    obtain ⟨hs, hordered⟩ := List.forall_mem_cons.mp hordered
    obtain ⟨env, -, hfresh⟩ := exists_drawsSlotId d
    obtain ⟨d', r, hrest⟩ := ih hordered
      (if Meets Taken d.slots.entries ⟨env.fresh, slotRow p s⟩ then d
        else { d with slots := d.slots.insert env.fresh (slotRow p s) })
    exact ⟨d', r, (performsAt_cons hprovider hs).mpr ⟨env.fresh, hfresh, hrest⟩⟩

/-- An inserted entry holds the row of a slot. -/
theorem exists_of_mem_new {new : List SlotEntry} (hnew : new.map Sigma.snd = slots.map (slotRow p))
    {e : SlotEntry} (he : e ∈ new) : ∃ s ∈ slots, e = ⟨e.1, slotRow p s⟩ := by
  have hmem : e.2 ∈ slots.map (slotRow p) := hnew ▸ List.mem_map_of_mem he
  obtain ⟨s, hs, heq⟩ := List.mem_map.mp hmem
  exact ⟨s, hs, by rw [heq]⟩

/-- Every slot is the row of an entry that was to be inserted. -/
theorem exists_mem_new {new : List SlotEntry} (hnew : new.map Sigma.snd = slots.map (slotRow p))
    {s : Instant × Instant} (hs : s ∈ slots) : ∃ id, (⟨id, slotRow p s⟩ : SlotEntry) ∈ new := by
  have hmem : slotRow p s ∈ new.map Sigma.snd := hnew ▸ List.mem_map_of_mem hs
  obtain ⟨e, he, heq⟩ := List.mem_map.mp hmem
  exact ⟨e.1, by rw [← heq]; exact he⟩

/-- **Again**: where each slot has another in its way, the loop changes nothing. -/
theorem performsAt_again (hprovider : (cat.providers p).isSome = true)
    (hordered : ∀ s ∈ slots, s.1 < s.2)
    (hmeets : ∀ s ∈ slots, ∀ id, Meets Taken d.slots.entries ⟨id, slotRow p s⟩)
    (h : PerformsAt (chronos cat) DrawsSlotId .idle d (materializeProvider p slots) d' r) :
    r = .ok () ∧ d' = d := by
  obtain ⟨hr, hframe, new, hnew, hentries⟩ := performsAt_materializeProvider hprovider hordered h
  have hsame : d'.slots.entries = d.slots.entries := by
    rw [hentries, fill_eq_self_iff]
    intro e he
    obtain ⟨s, hs, heq⟩ := exists_of_mem_new hnew he
    rw [heq]
    exact hmeets s hs e.1
  rw [hframe, AList.ext hsame]
  exact ⟨hr, rfl⟩

end Loop

/-! ### What the loop leaves -/

section Entries

variable {p : ProviderId} {slots : List Time.Slot} {d d' : Database} {new : List SlotEntry}

/-- The entries to be inserted are open slots of the provider. -/
theorem exists_slot_of_mem_new
    (hnew : new.map Sigma.snd = (slots.map fun s => (s.startUtc, s.endUtc)).map (slotRow p)) :
    ∀ e ∈ new, ∃ s ∈ slots, e = ⟨e.1, ⟨p, s.startUtc, s.endUtc, .«open»⟩⟩ := by
  intro e he
  obtain ⟨pair, hpair, heq⟩ := exists_of_mem_new hnew he
  obtain ⟨s, hs, rfl⟩ := List.mem_map.mp hpair
  exact ⟨s, hs, heq⟩

/-- Old rows stay. -/
theorem lookup_of_fill (hentries : d'.slots.entries = fill Taken d.slots.entries new) {id : SlotId}
    {row : Slot} (hrow : d.slots.lookup id = some row) : d'.slots.lookup id = some row := by
  rw [← mem_slots_entries, hentries]
  exact suffix_fill.subset (mem_slots_entries.mpr hrow)

/-- The table stays valid. -/
theorem slotsValid_of_fill (hd : d.SlotsValid)
    (hentries : d'.slots.entries = fill Taken d.slots.entries new)
    (hordered : ∀ e ∈ new, e.2.slotStartUtc < e.2.slotEndUtc) : d'.SlotsValid := by
  obtain ⟨hrows, hfree⟩ := slotsValid_iff.mp hd
  rw [slotsValid_iff, hentries]
  refine ⟨fun e he => ?_, hfree.fill⟩
  rcases mem_fill he with hold | hadded
  · exact hrows e hold
  · exact hordered e hadded

/-- Each entry that was to be inserted is there, or a slot that overlaps it. -/
theorem full_of_fill (hvalid : d'.SlotsValid)
    (hentries : d'.slots.entries = fill Taken d.slots.entries new) {e : SlotEntry} (he : e ∈ new)
    (hordered : e.2.slotStartUtc < e.2.slotEndUtc) :
    ∃ id row, d'.slots.lookup id = some row ∧ row.providerId = e.2.providerId ∧
      (row.slotStartUtc = e.2.slotStartUtc ∧ row.slotEndUtc = e.2.slotEndUtc ∨
        row.slotStartUtc < e.2.slotEndUtc ∧ e.2.slotStartUtc < row.slotEndUtc) := by
  have hcovers : e ∈ d'.slots.entries ∨ Meets Taken d'.slots.entries e := by
    rw [hentries]
    exact fill_covers he
  rcases hcovers with hmem | ⟨e', he', htaken⟩
  · exact ⟨e.1, e.2, mem_slots_entries.mp hmem, rfl, Or.inl ⟨rfl, rfl⟩⟩
  · have hrow := mem_slots_entries.mp he'
    have hoverlap := htaken.overlap (hvalid.ordered e'.1 e'.2 hrow) hordered
    exact ⟨e'.1, e'.2, hrow, htaken.1, Or.inr hoverlap⟩

/-- A row that was not there before is one of those to be inserted. -/
theorem mem_new_of_fill (hentries : d'.slots.entries = fill Taken d.slots.entries new) {id : SlotId}
    {row : Slot} (hrow : d'.slots.lookup id = some row) :
    d.slots.lookup id = some row ∨ d.slots.lookup id = none ∧ (⟨id, row⟩ : SlotEntry) ∈ new := by
  have hmem : (⟨id, row⟩ : SlotEntry) ∈ fill Taken d.slots.entries new :=
    hentries ▸ mem_slots_entries.mpr hrow
  rcases mem_fill hmem with hold | hadded
  · exact Or.inl (mem_slots_entries.mp hold)
  · cases hbefore : d.slots.lookup id with
    | none => exact Or.inr ⟨rfl, hadded⟩
    | some row' =>
      have hsame := lookup_of_fill hentries hbefore
      rw [hrow] at hsame
      exact Or.inl hsame.symm

/-- **What the loop leaves.** -/
theorem filled_of_entries (hd : d.SlotsValid) (hordered : ∀ s ∈ slots, s.startUtc < s.endUtc)
    (hframe : d' = { d with slots := d'.slots })
    (hnew : new.map Sigma.snd = (slots.map fun s => (s.startUtc, s.endUtc)).map (slotRow p))
    (hentries : d'.slots.entries = fill Taken d.slots.entries new) : Filled p slots d d' := by
  have hslot := exists_slot_of_mem_new hnew
  have hvalid : d'.SlotsValid := by
    refine slotsValid_of_fill hd hentries fun e he => ?_
    obtain ⟨s, hs, heq⟩ := hslot e he
    rw [heq]
    exact hordered s hs
  refine ⟨fun id row => lookup_of_fill hentries, hvalid, fun s hs => ?_, fun id row hrow => ?_, hframe⟩
  · obtain ⟨id, hid⟩ := exists_mem_new hnew (List.mem_map_of_mem hs)
    exact full_of_fill hvalid hentries hid (hordered s hs)
  · refine (mem_new_of_fill hentries hrow).imp_right fun ⟨hbefore, hadded⟩ => ⟨hbefore, ?_⟩
    obtain ⟨s, hs, heq⟩ := hslot _ hadded
    exact ⟨s, hs, by simpa using heq⟩

/-- After that, each slot has another in its way, or its own row. -/
theorem Filled.meets (h : Filled p slots d d') {s : Time.Slot} (hs : s ∈ slots) (id : SlotId) :
    Meets Taken d'.slots.entries ⟨id, slotRow p (s.startUtc, s.endUtc)⟩ := by
  obtain ⟨id', row, hrow, hprovider, hsame | hoverlap⟩ := h.full s hs
  · exact ⟨⟨id', row⟩, mem_slots_entries.mpr hrow, hprovider, Or.inl hsame.1⟩
  · exact ⟨⟨id', row⟩, mem_slots_entries.mpr hrow, hprovider, Or.inr hoverlap⟩

end Entries

/-- **`materializeProvider` is a greedy, idempotent fill.**  On a valid table, for a provider that
    exists and dates in order, a call comes to its end without an error and leaves the table filled;
    a second call like it leaves the database exactly as it is. -/
theorem materializeProvider_fills (cat : Catalog) (p : ProviderId)
    (hprovider : (cat.providers p).isSome = true) (tz : Calendar.Zone) (fromDate toDate : Time.IsoDate)
    (hle : fromDate.1 ≤ toDate.1) (d : Database) (hd : d.SlotsValid) :
    ∃ slots, Time.generateSlots tz providerSlotMinutes nineToFive fromDate.1 toDate.1 = .ok slots ∧
      (∃ d' r, PerformsAt (chronos cat) DrawsSlotId .idle d
        (materializeProviderDates p fromDate.1 toDate.1 tz) d' r) ∧
      ∀ d' r, PerformsAt (chronos cat) DrawsSlotId .idle d
          (materializeProviderDates p fromDate.1 toDate.1 tz) d' r →
        r = .ok () ∧ Filled p slots d d' ∧
        (∃ d'' r, PerformsAt (chronos cat) DrawsSlotId .idle d'
          (materializeProviderDates p fromDate.1 toDate.1 tz) d'' r) ∧
        ∀ d'' r, PerformsAt (chronos cat) DrawsSlotId .idle d'
            (materializeProviderDates p fromDate.1 toDate.1 tz) d'' r →
          r = .ok () ∧ d'' = d' := by
  obtain ⟨slots, hslots, hmem⟩ := Time.mem_generateSlots tz (by decide : 5 ≤ providerSlotMinutes)
    (by decide) nineToFive toDate.2 hle
  have hordered : ∀ s ∈ slots, s.startUtc < s.endUtc := by
    intro s hs
    obtain ⟨step, -, hkept, rfl⟩ := Time.mem_slotsOf.mp ((hmem s).mp hs)
    exact hkept
  have hpairs : ∀ pair ∈ slots.map fun s => (s.startUtc, s.endUtc), pair.1 < pair.2 := by
    intro pair hpair
    obtain ⟨s, hs, rfl⟩ := List.mem_map.mp hpair
    exact hordered s hs
  have hprogram : materializeProviderDates p fromDate.1 toDate.1 tz =
      materializeProvider p (slots.map fun s => (s.startUtc, s.endUtc)) := by
    unfold materializeProviderDates
    rw [hslots]
  rw [hprogram]
  refine ⟨slots, hslots, exists_performsAt hprovider hpairs d, fun d' r h => ?_⟩
  obtain ⟨hr, hframe, new, hnew, hentries⟩ := performsAt_materializeProvider hprovider hpairs h
  have hfilled : Filled p slots d d' := filled_of_entries hd hordered hframe hnew hentries
  refine ⟨hr, hfilled, exists_performsAt hprovider hpairs d', fun d'' r' h' => ?_⟩
  refine performsAt_again hprovider hpairs (fun pair hpair id => ?_) h'
  obtain ⟨s, hs, rfl⟩ := List.mem_map.mp hpair
  exact hfilled.meets hs id

/-- Slots of provider `7` are made for the first two days of 2026, into the table with slot `1`. -/
theorem fills_new_year :
    ∃ slots, Time.generateSlots Time.utc providerSlotMinutes nineToFive Time.newYear2026.1
        Time.secondOfJanuary.1 = .ok slots ∧
      (∃ d' r, PerformsAt (chronos sampleCatalog) DrawsSlotId .idle sampleDb
        (materializeProviderDates 7 Time.newYear2026.1 Time.secondOfJanuary.1 Time.utc) d' r) ∧
      ∀ d' r, PerformsAt (chronos sampleCatalog) DrawsSlotId .idle sampleDb
          (materializeProviderDates 7 Time.newYear2026.1 Time.secondOfJanuary.1 Time.utc) d' r →
        r = .ok () ∧ Filled 7 slots sampleDb d' := by
  have hvalid : sampleDb.SlotsValid := by
    rw [slotsValid_iff]
    exact ⟨by decide, by decide⟩
  obtain ⟨slots, hslots, hends, hall⟩ := materializeProvider_fills sampleCatalog 7 rfl Time.utc
    Time.newYear2026 Time.secondOfJanuary (by decide) sampleDb hvalid
  exact ⟨slots, hslots, hends, fun d' r h => ⟨(hall d' r h).1, (hall d' r h).2.1⟩⟩

end Chronos
