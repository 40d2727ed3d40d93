import Chronos.SlotGaps
import Mathlib.Data.List.Induction

namespace Chronos.Time

open Calendar

/-!
# The materializer

`MaterializerService.materialize`: for each provider the active rules are grouped by their day of
the week (`groupRule`), the hours of each day become slots of an hour over the dates from today to
sixty days ahead, and these are inserted as one batch.

A provider's batch is what `providerBatch` returns, whatever the other providers have
(`materialize_batches`), and `mem_providerBatch` says what it contains: a day of the week has the
hours of one of its rules, the first of those that start earliest (`Earliest`).
-/

/-! ### The code -/

/-- A row of `availability_rules`; its times are texts `HH:MM`. -/
structure AvailabilityRule where
  providerId : ProviderId
  dayOfWeek : Int
  startTime : TimeOfDay
  endTime : TimeOfDay
  active : Bool
  deriving DecidableEq

/-- A provider as the materializer reads it. -/
structure ProviderRow where
  id : ProviderId
  timezone : Zone

/-- `where: { providerId: p.id, active: true }`. -/
def activeRules (table : List AvailabilityRule) (p : ProviderRow) : List AvailabilityRule :=
  table.filter fun r => decide (r.providerId = p.id) && r.active

/-- `{ start: string; end: string }`. -/
structure Hours where
  start : TimeOfDay
  «end» : TimeOfDay
  deriving DecidableEq

/-- A `Map<number, { start: string; end: string }>`; its keys in the order in which they came. -/
structure HoursMap where
  keys : List Int
  get : Int → Option Hours
  mem_keys : ∀ dow, dow ∈ keys ↔ (get dow).isSome

def HoursMap.empty : HoursMap := ⟨[], fun _ => none, fun _ => by simp⟩

def HoursMap.set (m : HoursMap) (dow : Int) (hours : Hours) : HoursMap where
  keys := if dow ∈ m.keys then m.keys else m.keys ++ [dow]
  get k := if k = dow then some hours else m.get k
  mem_keys k := by
    have hk := m.mem_keys k
    by_cases hdow : k = dow
    · subst hdow
      by_cases h : k ∈ m.keys <;> simp [h]
    · by_cases h : dow ∈ m.keys <;> simp [h, hdow, hk]

/-- The loop body that groups the rules by day of the week. -/
def groupRule (byDow : HoursMap) (r : AvailabilityRule) : HoursMap :=
  match byDow.get r.dayOfWeek with
  | none => byDow.set r.dayOfWeek ⟨r.startTime, r.endTime⟩
  | some existing =>
    if existing.start.minutes > r.startTime.minutes then
      byDow.set r.dayOfWeek ⟨r.startTime, r.endTime⟩
    else byDow

/-- One Rules object per day-of-week. -/
def byDow (rules : List AvailabilityRule) : HoursMap := rules.foldl groupRule HoursMap.empty

def defaultSlotMinutes : Nat := 60

/-- `horizonDays * 86_400_000`. -/
def horizonMs : Int := 60 * dayMs

/-- `localDateInZone(t, 'UTC').slice(0, 10)`. -/
def utcDate (t : Instant) : Date := Date.ofReading t

/-- The rules `generateSlots` is called with for a day of the week. -/
def dayRules (dow : Int) (hours : Hours) : Option Rules :=
  some ⟨some [dow], some hours.start, some hours.end⟩

/-- For each entry of the map, generate across the full window, then merge. -/
def mergeDays (tz : Zone) (byDow : HoursMap) (fromDate toDate : Date) :
    List Int → Except TimeError (List Slot)
  | [] => pure []
  | dow :: daysList =>
    match byDow.get dow with
    | none => .error (.error "Cannot destructure property 'start' of 'byDow.get(...)' as it is undefined.")
    | some hours => do
      let generated ← generateSlots tz defaultSlotMinutes (dayRules dow hours) fromDate toDate
      let slots ← mergeDays tz byDow fromDate toDate daysList
      pure (generated ++ slots)

/-- A row to be inserted. -/
structure BatchRow where
  providerId : ProviderId
  slotStartUtc : Instant
  slotEndUtc : Instant
  status : SlotStatus
  displayTz : Zone

def batchRow (p : ProviderRow) (s : Slot) : BatchRow :=
  ⟨p.id, s.startUtc, s.endUtc, .open, p.timezone⟩

/-- The batch of a provider with these active rules. -/
def providerBatch (p : ProviderRow) (rules : List AvailabilityRule) (fromDate toDate : Date) :
    Except TimeError (List BatchRow) := do
  let slots ← mergeDays p.timezone (byDow rules) fromDate toDate (byDow rules).keys
  pure (slots.map (batchRow p))

structure MaterializeStats where
  providersProcessed : Nat
  rulesProcessed : Nat
  slotsCreated : Nat
  slotsSkipped : Nat
  errors : Nat
  deriving DecidableEq

/-- How the `INSERT` of a batch ends: `e.code === 'P2002'` is a violated unique index. -/
inductive InsertOutcome
  | inserted
  | uniqueViolation
  | failed
  deriving DecidableEq

def MaterializeStats.count (stats : MaterializeStats) (n : Nat) : InsertOutcome → MaterializeStats
  | .inserted => { stats with slotsCreated := stats.slotsCreated + n }
  | .uniqueViolation => { stats with slotsSkipped := stats.slotsSkipped + n }
  | .failed => { stats with errors := stats.errors + n }

/-- The loop over the providers, and the batches it has built.  `findRules` is the query for the
    active rules of a provider, if it succeeds; what is thrown ends the loop. -/
def materializeLoop (findRules : ProviderRow → Option (List AvailabilityRule))
    (insert : List BatchRow → InsertOutcome) (fromDate toDate : Date) :
    List ProviderRow → MaterializeStats → List (List BatchRow) →
      MaterializeStats × List (List BatchRow)
  | [], stats, batches => (stats, batches)
  | p :: providers, stats, batches =>
    match findRules p with
    | none => ({ stats with errors := stats.errors + 1 }, batches)
    | some rules =>
      let stats := { stats with rulesProcessed := stats.rulesProcessed + rules.length }
      match providerBatch p rules fromDate toDate with
      | .error _ => ({ stats with errors := stats.errors + 1 }, batches)
      | .ok batch =>
        materializeLoop findRules insert fromDate toDate providers
          (stats.count batch.length (insert batch)) (batches ++ [batch])

/-- `now` is `clock.now()`, and `dateNow` is `Date.now()` right after it. -/
def materialize (findProviders : Option (List ProviderRow))
    (findRules : ProviderRow → Option (List AvailabilityRule))
    (insert : List BatchRow → InsertOutcome) (now dateNow : Instant) :
    MaterializeStats × List (List BatchRow) :=
  match findProviders with
  | none => (⟨0, 0, 0, 0, 1⟩, [])
  | some providers =>
    materializeLoop findRules insert (utcDate now) (utcDate (dateNow + horizonMs)) providers
      ⟨providers.length, 0, 0, 0, 0⟩ []

/-! ### The hours of a day of the week -/

/-- `w` is the first of the rules of its day of the week that start earliest. -/
def Earliest (rules : List AvailabilityRule) (w : AvailabilityRule) : Prop :=
  ∃ before after, rules = before ++ w :: after ∧
    (∀ r ∈ before, r.dayOfWeek = w.dayOfWeek → w.startTime.minutes < r.startTime.minutes) ∧
    ∀ r ∈ after, r.dayOfWeek = w.dayOfWeek → w.startTime.minutes ≤ r.startTime.minutes

section Earliest

variable {rules : List AvailabilityRule} {r w : AvailabilityRule}

theorem Earliest.mem (h : Earliest rules w) : w ∈ rules := by
  obtain ⟨before, after, rfl, -, -⟩ := h
  simp

theorem Earliest.le (h : Earliest rules w) (hr : r ∈ rules) (hday : r.dayOfWeek = w.dayOfWeek) :
    w.startTime.minutes ≤ r.startTime.minutes := by
  obtain ⟨before, after, rfl, hbefore, hafter⟩ := h
  rcases List.mem_append.mp hr with hr | hr
  · exact (hbefore r hr hday).le
  · rcases List.mem_cons.mp hr with rfl | hr
    · exact le_refl _
    · exact hafter r hr hday

/-- A later rule that starts no earlier changes nothing. -/
theorem Earliest.append (h : Earliest rules w)
    (hle : r.dayOfWeek = w.dayOfWeek → w.startTime.minutes ≤ r.startTime.minutes) :
    Earliest (rules ++ [r]) w := by
  obtain ⟨before, after, rfl, hbefore, hafter⟩ := h
  refine ⟨before, after ++ [r], by simp, hbefore, fun r' hr' hday => ?_⟩
  rcases List.mem_append.mp hr' with hr' | hr'
  · exact hafter r' hr' hday
  · obtain rfl := List.mem_singleton.mp hr'
    exact hle hday

theorem earliest_last
    (h : ∀ r' ∈ rules, r'.dayOfWeek = r.dayOfWeek → r.startTime.minutes < r'.startTime.minutes) :
    Earliest (rules ++ [r]) r :=
  ⟨rules, [], rfl, h, fun _ hr => absurd hr List.not_mem_nil⟩

/-- Each day of the week has one rule of that kind at most. -/
theorem Earliest.unique {w' : AvailabilityRule} (h : Earliest rules w) (h' : Earliest rules w')
    (hday : w'.dayOfWeek = w.dayOfWeek) : w' = w := by
  have hle := h.le h'.mem hday
  have hle' := h'.le h.mem hday.symm
  obtain ⟨before, after, hrules, hbefore, hafter⟩ := h
  obtain ⟨before', after', hrules', hbefore', hafter'⟩ := h'
  rw [hrules] at hrules'
  -- Neither stands before the other, as it would start earlier.
  rcases List.append_eq_append_iff.mp hrules' with ⟨between, rfl, htail⟩ | ⟨between, rfl, htail⟩
  · cases between with
    | nil => exact ((List.cons.inj htail).1).symm
    | cons x between =>
      obtain ⟨rfl, -⟩ := List.cons.inj htail
      have hlt := hbefore' w (by simp) hday.symm
      omega
  · cases between with
    | nil => exact (List.cons.inj htail).1
    | cons x between =>
      obtain ⟨rfl, -⟩ := List.cons.inj htail
      have hlt := hbefore w' (by simp) hday
      omega

end Earliest

/-- What the map holds for a day of the week: the hours of its earliest rule, if it has one. -/
def Holds (rules : List AvailabilityRule) (m : HoursMap) : Prop :=
  ∀ dow, match m.get dow with
    | none => ∀ r ∈ rules, r.dayOfWeek ≠ dow
    | some hours => ∃ w, Earliest rules w ∧ w.dayOfWeek = dow ∧
        hours = ⟨w.startTime, w.endTime⟩

/-- One rule more. -/
theorem Holds.groupRule {rules : List AvailabilityRule} {m : HoursMap} (h : Holds rules m)
    (r : AvailabilityRule) : Holds (rules ++ [r]) (groupRule m r) := by
  -- Other days keep what they have.
  have hother : ∀ dow, dow ≠ r.dayOfWeek → (match m.get dow with
      | none => ∀ r' ∈ rules ++ [r], r'.dayOfWeek ≠ dow
      | some hours => ∃ w, Earliest (rules ++ [r]) w ∧ w.dayOfWeek = dow ∧
          hours = ⟨w.startTime, w.endTime⟩) := by
    intro dow hdow
    have hm := h dow
    cases hget : m.get dow with
    | none =>
      rw [hget] at hm
      intro r' hr'
      rcases List.mem_append.mp hr' with hr' | hr'
      · exact hm r' hr'
      · obtain rfl := List.mem_singleton.mp hr'
        exact hdow.symm
    | some hours =>
      rw [hget] at hm
      obtain ⟨w, hw, hday, hhours⟩ := hm
      exact ⟨w, hw.append fun heq => absurd (hday ▸ heq).symm hdow, hday, hhours⟩
  -- A rule before all others of its day sets the hours.
  have hset : (∀ r' ∈ rules, r'.dayOfWeek = r.dayOfWeek →
      r.startTime.minutes < r'.startTime.minutes) →
      Holds (rules ++ [r]) (m.set r.dayOfWeek ⟨r.startTime, r.endTime⟩) := by
    intro hfirst dow
    by_cases hdow : dow = r.dayOfWeek
    · subst hdow
      simp only [HoursMap.set, if_true]
      exact ⟨r, earliest_last hfirst, rfl, rfl⟩
    · simp only [HoursMap.set, if_neg hdow]
      exact hother dow hdow
  have hm := h r.dayOfWeek
  unfold Time.groupRule
  cases hget : m.get r.dayOfWeek with
  | none =>
    rw [hget] at hm
    exact hset fun r' hr' hday => absurd hday (hm r' hr')
  | some existing =>
    rw [hget] at hm
    obtain ⟨w, hw, hday, rfl⟩ := hm
    dsimp only
    split
    · next hlater =>
      refine hset fun r' hr' hday' => ?_
      have hle := hw.le hr' (hday'.trans hday.symm)
      omega
    · next hearlier =>
      intro dow
      by_cases hdow : dow = r.dayOfWeek
      · rw [hdow, hget]
        exact ⟨w, hw.append fun _ => by omega, hday, rfl⟩
      · exact hother dow hdow

theorem holds_byDow (rules : List AvailabilityRule) : Holds rules (byDow rules) := by
  induction rules using List.reverseRecOn with
  | nil =>
    intro dow
    exact fun r hr => absurd hr List.not_mem_nil
  | append_singleton rules r ih =>
    unfold byDow
    rw [List.foldl_append]
    exact ih.groupRule r

/-- **The map holds the hours of the earliest rules.** -/
theorem byDow_get_eq_some {rules : List AvailabilityRule} {dow : Int} {hours : Hours} :
    (byDow rules).get dow = some hours ↔
      ∃ w, Earliest rules w ∧ w.dayOfWeek = dow ∧ hours = ⟨w.startTime, w.endTime⟩ := by
  have hholds := holds_byDow rules dow
  constructor
  · intro hget
    rw [hget] at hholds
    exact hholds
  · rintro ⟨w, hw, rfl, rfl⟩
    cases hget : (byDow rules).get w.dayOfWeek with
    | none =>
      rw [hget] at hholds
      exact absurd rfl (hholds w hw.mem)
    | some hours =>
      rw [hget] at hholds
      obtain ⟨w', hw', hday, rfl⟩ := hholds
      rw [hw.unique hw' hday]

/-! ### The batch -/

/-- The rules `generateSlots` is called with for a rule of its own. -/
def AvailabilityRule.rules (r : AvailabilityRule) : Option Rules :=
  dayRules r.dayOfWeek ⟨r.startTime, r.endTime⟩

section Batch

variable {tz : Zone} {fromDate toDate : Date}

theorem mergeDays_eq (hyear : toDate.year ≤ 9999) (hle : fromDate ≤ toDate) (m : HoursMap)
    (days : List Int) (hdays : ∀ dow ∈ days, dow ∈ m.keys) :
    ∃ slots, mergeDays tz m fromDate toDate days = .ok slots ∧
      ∀ slot, slot ∈ slots ↔ ∃ dow ∈ days, ∃ hours, m.get dow = some hours ∧
        slot ∈ slotsOf tz (Rules.steps defaultSlotMinutes (dayRules dow hours) fromDate toDate) := by
  induction days with
  | nil => exact ⟨[], rfl, fun slot => by simp⟩
  | cons dow days ih =>
    obtain ⟨rest, hrest, hmem⟩ := ih fun dow' h => hdays dow' (List.mem_cons_of_mem dow h)
    obtain ⟨hours, hget⟩ := Option.isSome_iff_exists.mp ((m.mem_keys dow).mp (hdays dow List.mem_cons_self))
    obtain ⟨generated, hgenerate, hgenerated⟩ := mem_generateSlots tz
      (by decide : 5 ≤ defaultSlotMinutes) (by decide) (dayRules dow hours) hyear hle
    refine ⟨generated ++ rest, ?_, fun slot => ?_⟩
    · unfold mergeDays
      rw [hget]
      dsimp only
      rw [hgenerate, hrest]
      rfl
    · rw [List.mem_append, hgenerated slot, hmem slot]
      constructor
      · rintro (h | ⟨dow', hdow', h⟩)
        · exact ⟨dow, List.mem_cons_self, hours, hget, h⟩
        · exact ⟨dow', List.mem_cons_of_mem dow hdow', h⟩
      · rintro ⟨dow', hdow', hours', hget', h⟩
        rcases List.mem_cons.mp hdow' with rfl | hdow'
        · rw [hget] at hget'
          obtain rfl := Option.some.inj hget'
          exact .inl h
        · exact .inr ⟨dow', hdow', hours', hget', h⟩

/-- **A provider's batch** has the slots of the earliest rule of each day of the week. -/
theorem mem_providerBatch (p : ProviderRow) (rules : List AvailabilityRule)
    (hyear : toDate.year ≤ 9999) (hle : fromDate ≤ toDate) :
    ∃ batch, providerBatch p rules fromDate toDate = .ok batch ∧
      ∀ slot, batchRow p slot ∈ batch ↔ ∃ w, Earliest rules w ∧
        slot ∈ slotsOf p.timezone (Rules.steps defaultSlotMinutes w.rules fromDate toDate) := by
  obtain ⟨slots, hslots, hmem⟩ : ∃ slots,
      mergeDays p.timezone (byDow rules) fromDate toDate (byDow rules).keys = .ok slots ∧
      ∀ slot, slot ∈ slots ↔ ∃ dow ∈ (byDow rules).keys, ∃ hours, (byDow rules).get dow = some hours ∧
        slot ∈ slotsOf p.timezone
          (Rules.steps defaultSlotMinutes (dayRules dow hours) fromDate toDate) :=
    mergeDays_eq hyear hle (byDow rules) (byDow rules).keys fun _ h => h
  have hrow : Function.Injective (batchRow p) := by
    intro a b hab
    have hstart : a.startUtc = b.startUtc := congrArg BatchRow.slotStartUtc hab
    have hend : a.endUtc = b.endUtc := congrArg BatchRow.slotEndUtc hab
    cases a
    cases b
    cases hstart
    cases hend
    rfl
  refine ⟨slots.map (batchRow p), ?_, fun slot => ?_⟩
  · unfold providerBatch
    rw [hslots]
    rfl
  · rw [List.mem_map_of_injective hrow, hmem slot]
    constructor
    · rintro ⟨dow, -, hours, hget, hslot⟩
      obtain ⟨w, hw, rfl, rfl⟩ := byDow_get_eq_some.mp hget
      exact ⟨w, hw, hslot⟩
    · rintro ⟨w, hw, hslot⟩
      have hget := byDow_get_eq_some.mpr ⟨w, hw, rfl, rfl⟩
      exact ⟨w.dayOfWeek, ((byDow rules).mem_keys _).mpr (by rw [hget]; rfl), _, hget, hslot⟩

/-- A row of a batch is that of a slot. -/
theorem exists_slot_of_mem_batch {p : ProviderRow} {rules : List AvailabilityRule}
    {batch : List BatchRow} {r : BatchRow} (h : providerBatch p rules fromDate toDate = .ok batch)
    (hr : r ∈ batch) : ∃ slot, batchRow p slot = r := by
  unfold providerBatch at h
  cases hmerge : mergeDays p.timezone (byDow rules) fromDate toDate (byDow rules).keys with
  | error e =>
    rw [hmerge] at h
    cases h
  | ok slots =>
    rw [hmerge] at h
    obtain rfl := Except.ok.inj h
    obtain ⟨slot, -, heq⟩ := List.mem_map.mp hr
    exact ⟨slot, heq⟩

end Batch

/-- What the statistics have counted. -/
def MaterializeStats.counted (stats : MaterializeStats) : Nat :=
  stats.slotsCreated + stats.slotsSkipped + stats.errors

theorem counted_count (stats : MaterializeStats) (n : Nat) (outcome : InsertOutcome) :
    (stats.count n outcome).counted = stats.counted + n := by
  unfold MaterializeStats.counted
  cases outcome with
  | inserted => simp only [MaterializeStats.count]; omega
  | uniqueViolation => simp only [MaterializeStats.count]; omega
  | failed => simp only [MaterializeStats.count]; omega

section Loop

variable {findRules : ProviderRow → Option (List AvailabilityRule)}
variable {insert : List BatchRow → InsertOutcome} {fromDate toDate : Date}
variable {rulesOf : ProviderRow → List AvailabilityRule}

/-- **The loop** builds the batch of each provider, and counts its rows once. -/
theorem materializeLoop_forall₂ (hyear : toDate.year ≤ 9999) (hle : fromDate ≤ toDate)
    (hrules : ∀ p, findRules p = some (rulesOf p)) (providers : List ProviderRow)
    (stats : MaterializeStats) (batches : List (List BatchRow)) :
    ∃ built, List.Forall₂ (fun p batch => providerBatch p (rulesOf p) fromDate toDate = .ok batch)
        providers built ∧
      (materializeLoop findRules insert fromDate toDate providers stats batches).2 =
        batches ++ built ∧
      (materializeLoop findRules insert fromDate toDate providers stats batches).1.counted =
        stats.counted + built.flatten.length := by
  induction providers generalizing stats batches with
  | nil => exact ⟨[], .nil, by simp [materializeLoop], by simp [materializeLoop]⟩
  | cons p providers ih =>
    obtain ⟨batch, hbatch, -⟩ := mem_providerBatch p (rulesOf p) hyear hle
    obtain ⟨built, hbuilt, hbatches, hcounted⟩ := ih
      ({ stats with rulesProcessed := stats.rulesProcessed + (rulesOf p).length }.count
        batch.length (insert batch)) (batches ++ [batch])
    refine ⟨batch :: built, .cons hbatch hbuilt, ?_, ?_⟩
    · unfold materializeLoop
      simp only [hrules, hbatch]
      rw [hbatches, List.append_assoc, List.singleton_append]
    · unfold materializeLoop
      simp only [hrules, hbatch]
      rw [hcounted, counted_count, List.flatten_cons, List.length_append, Nat.add_assoc]
      rfl

/-- Where no statement fails, neither of the other counters moves. -/
theorem materializeLoop_inserted (hinsert : ∀ batch, insert batch = .inserted)
    (hyear : toDate.year ≤ 9999) (hle : fromDate ≤ toDate)
    (hrules : ∀ p, findRules p = some (rulesOf p)) (providers : List ProviderRow)
    (stats : MaterializeStats) (batches : List (List BatchRow)) :
    let result := (materializeLoop findRules insert fromDate toDate providers stats batches).1
    result.slotsSkipped = stats.slotsSkipped ∧ result.errors = stats.errors := by
  induction providers generalizing stats batches with
  | nil => exact ⟨rfl, rfl⟩
  | cons p providers ih =>
    obtain ⟨batch, hbatch, -⟩ := mem_providerBatch p (rulesOf p) hyear hle
    unfold materializeLoop
    simp only [hrules, hbatch, hinsert]
    exact ih _ _

theorem materializeLoop_batches (hyear : toDate.year ≤ 9999) (hle : fromDate ≤ toDate)
    (hrules : ∀ p, findRules p = some (rulesOf p)) (providers : List ProviderRow)
    (stats : MaterializeStats) (batches : List (List BatchRow)) :
    ∀ p ∈ providers, ∃ batch ∈ (materializeLoop findRules insert fromDate toDate providers stats batches).2,
      providerBatch p (rulesOf p) fromDate toDate = .ok batch := by
  obtain ⟨built, hbuilt, hbatches⟩ : ∃ built,
      List.Forall₂ (fun p batch => providerBatch p (rulesOf p) fromDate toDate = .ok batch)
        providers built ∧
      (materializeLoop findRules insert fromDate toDate providers stats batches).2 =
        batches ++ built := by
    obtain ⟨built, hbuilt, hbatches, -⟩ := materializeLoop_forall₂ hyear hle hrules providers stats batches
    exact ⟨built, hbuilt, hbatches⟩
  intro p hp
  rw [hbatches]
  clear hbatches
  induction hbuilt with
  | nil => exact absurd hp List.not_mem_nil
  | @cons p' batch providers built hbatch _ ih =>
    rcases List.mem_cons.mp hp with rfl | hp
    · exact ⟨batch, by simp, hbatch⟩
    · obtain ⟨batch', hmem, hbatch'⟩ := ih hp
      rw [List.mem_append] at hmem
      exact ⟨batch', by simpa using hmem.imp_right Or.inr, hbatch'⟩

end Loop

/-! ### Every rule -/

/-- The batch of a provider has all the slots of each of its rules. -/
def CoversRules (p : ProviderRow) (rules : List AvailabilityRule) (fromDate toDate : Date) : Prop :=
  ∃ batch, providerBatch p rules fromDate toDate = .ok batch ∧
    ∀ r ∈ rules, ∀ slots,
      generateSlots p.timezone defaultSlotMinutes r.rules fromDate toDate = .ok slots →
        ∀ slot ∈ slots, batchRow p slot ∈ batch

/-- The clock shows the same at the ends of two steps, after moving what does not occur. -/
def Step.SameOnClock (tz : Zone) (p q : Step) : Prop :=
  p.begins + shift tz p.begins = q.begins + shift tz q.begins ∧
    p.ends + shift tz p.ends = q.ends + shift tz q.ends

theorem slot_eq_iff {tz : Zone} {p q : Step} : p.slot tz = q.slot tz ↔ p.SameOnClock tz q := by
  unfold Step.slot Step.SameOnClock
  rw [Slot.mk.injEq, compatible_eq_iff, compatible_eq_iff]

/-- **A batch has the slots of every rule** exactly if the rules that are not the earliest of
    their day ask for nothing that the earliest ones do not ask for. -/
theorem materialize_covers_iff (p : ProviderRow) (rules : List AvailabilityRule)
    (fromDate toDate : IsoDate) (hle : fromDate.1 ≤ toDate.1) :
    CoversRules p rules fromDate.1 toDate.1 ↔
      ∀ r ∈ rules, ∀ step ∈ Rules.steps defaultSlotMinutes r.rules fromDate.1 toDate.1,
        ¬ step.LeavesGap p.timezone →
          ∃ w, Earliest rules w ∧
            ∃ q ∈ Rules.steps defaultSlotMinutes w.rules fromDate.1 toDate.1,
              ¬ q.LeavesGap p.timezone ∧ step.SameOnClock p.timezone q := by
  obtain ⟨batch, hbatch, hmem⟩ := mem_providerBatch p rules toDate.2 hle
  have hpos : 0 < defaultSlotMinutes := by decide
  have hkept : ∀ (r : AvailabilityRule), ∀ q ∈ Rules.steps defaultSlotMinutes r.rules fromDate.1 toDate.1,
      (q.Kept p.timezone ↔ ¬ q.LeavesGap p.timezone) :=
    fun r q hq => Step.kept_iff (step_first_lt hpos hq)
  constructor
  · rintro ⟨batch', hbatch', hall⟩ r hr step hstep hstays
    rw [hbatch] at hbatch'
    obtain rfl := Except.ok.inj hbatch'
    obtain ⟨slots, hslots, hgenerated⟩ := mem_generateSlots p.timezone
      (by decide : 5 ≤ defaultSlotMinutes) (by decide) r.rules toDate.2 hle
    have hslot : step.slot p.timezone ∈ slots :=
      (hgenerated _).mpr (mem_slotsOf.mpr ⟨step, hstep, (hkept r step hstep).mpr hstays, rfl⟩)
    obtain ⟨w, hw, hrow⟩ := (hmem _).mp (hall r hr slots hslots _ hslot)
    obtain ⟨q, hq, hqkept, heq⟩ := mem_slotsOf.mp hrow
    exact ⟨w, hw, q, hq, (hkept w q hq).mp hqkept, slot_eq_iff.mp heq.symm⟩
  · intro h
    refine ⟨batch, hbatch, fun r hr slots hslots slot hslot => ?_⟩
    obtain ⟨slots', hslots', hgenerated⟩ := mem_generateSlots p.timezone
      (by decide : 5 ≤ defaultSlotMinutes) (by decide) r.rules toDate.2 hle
    rw [hslots] at hslots'
    obtain rfl := Except.ok.inj hslots'
    obtain ⟨step, hstep, hstepkept, rfl⟩ := mem_slotsOf.mp ((hgenerated slot).mp hslot)
    obtain ⟨w, hw, q, hq, hstays, hsame⟩ := h r hr step hstep ((hkept r step hstep).mp hstepkept)
    rw [slot_eq_iff.mpr hsame, hmem]
    exact ⟨w, hw, mem_slotsOf.mpr ⟨q, hq, (hkept w q hq).mpr hstays, rfl⟩⟩

def utcProvider : ProviderRow := ⟨7, utc⟩

def mondayMorning : AvailabilityRule := ⟨7, 1, ⟨9, 0⟩, ⟨12, 0⟩, true⟩

def mondayAfternoon : AvailabilityRule := ⟨7, 1, ⟨13, 0⟩, ⟨17, 0⟩, true⟩

def firstMonday2026 : IsoDate := ⟨⟨2026, 1, 5, epoch.month_pos, epoch.month_le, by omega, by decide⟩, by decide⟩

theorem earliest_singleton (r : AvailabilityRule) : Earliest [r] r :=
  ⟨[], [], rfl, fun _ h => absurd h List.not_mem_nil, fun _ h => absurd h List.not_mem_nil⟩

theorem morning_covered : CoversRules utcProvider [mondayMorning] newYear2026.1 firstMonday2026.1 :=
  (materialize_covers_iff utcProvider [mondayMorning] newYear2026 firstMonday2026 (by decide)).mpr
    fun r hr step hstep hstays =>
      ⟨r, List.mem_singleton.mp hr ▸ earliest_singleton _, step, hstep, hstays, rfl, rfl⟩

/-- The afternoon is dropped. -/
theorem afternoon_not_covered :
    ¬ CoversRules utcProvider [mondayMorning, mondayAfternoon] firstMonday2026.1 firstMonday2026.1 := by
  rintro ⟨batch, hbatch, hall⟩
  have hle : firstMonday2026.1 ≤ firstMonday2026.1 := Date.le_def.mpr (le_refl _)
  have hutc : ∀ p : Step, p.slot utc = ⟨p.begins, p.ends⟩ := by
    intro p
    unfold Step.slot utc
    rw [Zone.compatible_fixed, Zone.compatible_fixed, Int.sub_zero, Int.sub_zero]
  obtain ⟨batch', hbatch', hmem⟩ := mem_providerBatch utcProvider [mondayMorning, mondayAfternoon]
    firstMonday2026.2 hle
  rw [hbatch] at hbatch'
  obtain rfl := Except.ok.inj hbatch'
  obtain ⟨slots, hslots, hgenerated⟩ := mem_generateSlots utc (by decide : 5 ≤ defaultSlotMinutes)
    (by decide) mondayAfternoon.rules firstMonday2026.2 hle
  let p : Step := ⟨firstMonday2026.1, 780, 840⟩
  have hkept : p.Kept utc := by
    unfold Step.Kept
    rw [hutc]
    decide
  have hslot : p.slot utc ∈ slots :=
    (hgenerated _).mpr (mem_slotsOf.mpr ⟨p, by decide, hkept, rfl⟩)
  obtain ⟨w, hw, hrow⟩ := (hmem _).mp (hall mondayAfternoon (by decide) slots hslots _ hslot)
  -- The map keeps the rule that begins first.
  have hmorning : Earliest [mondayMorning, mondayAfternoon] mondayMorning :=
    ⟨[], [mondayAfternoon], rfl, fun _ h => absurd h List.not_mem_nil, by decide⟩
  have hw' : w = mondayMorning := by
    have hday : w.dayOfWeek = mondayMorning.dayOfWeek := by
      rcases List.mem_cons.mp hw.mem with rfl | h
      · rfl
      · rw [List.mem_singleton.mp h]
        rfl
    exact hmorning.unique hw hday
  rw [hw'] at hrow
  obtain ⟨q, hq, -, heq⟩ := mem_slotsOf.mp hrow
  -- The slot at 13:00 would be one of the morning.
  have hbegins : q.begins = p.begins := by
    have hstart : (q.slot utc).startUtc = (p.slot utc).startUtc := congrArg Slot.startUtc heq
    rw [hutc, hutc] at hstart
    exact hstart
  revert hbegins
  have hnone : ∀ q ∈ Rules.steps defaultSlotMinutes mondayMorning.rules firstMonday2026.1
      firstMonday2026.1, q.begins ≠ p.begins := by decide
  exact hnone q hq

/-! ### The horizon -/

/-- A reading of the system clock: from 1970 until the horizon comes to the year 10000. -/
def ClockReading : Type := { t : Int // 0 ≤ t ∧ t + (horizonMs + dayMs) < year10000 }

theorem year_le_of_start {d : Date} (h : d.start < year10000) : d.year ≤ 9999 := by
  let newYear : Date := ⟨10000, 1, 1, by decide, by decide, by decide, by decide⟩
  have hstart : newYear.start = year10000 := by decide +kernel
  have hnumber : newYear.number = daysBeforeYear newYear.year := by decide +kernel
  have hbefore : d.year < newYear.year := year_lt_of_start (h.trans_eq hstart.symm) hnumber
  exact Nat.le_of_lt_succ hbefore

theorem utcDate_year {t : Instant} (ht : 0 ≤ t) (hlate : t < year10000) : (utcDate t).year ≤ 9999 :=
  year_le_of_start ((start_ofReading ht).1.trans_lt hlate)

/-- The dates `materialize` calls `generateSlots` with, when the clock shows `now`. -/
def horizonFrom (now : ClockReading) : IsoDate :=
  ⟨utcDate now.1, utcDate_year now.2.1 (by
    have h := now.2.2
    have hmore : 0 < horizonMs + dayMs := by decide
    exact (Int.lt_add_of_pos_right _ hmore).trans h)⟩

def horizonTo (now : ClockReading) : IsoDate :=
  ⟨utcDate (now.1 + horizonMs), utcDate_year (Int.add_nonneg now.2.1 (by decide)) (by
    have h := now.2.2
    have hmore : 0 < dayMs := by decide
    rw [← Int.add_assoc] at h
    exact (Int.lt_add_of_pos_right _ hmore).trans h)⟩

theorem horizon_le {now later : ClockReading} (h : now.1 ≤ later.1) :
    (horizonFrom now).1 ≤ (horizonTo later).1 := by
  have hms : 0 ≤ horizonMs := by decide
  exact ofReading_mono now.2.1 (h.trans (Int.le_add_of_nonneg_right hms))

/-- **Each provider gets its batch**, whatever the others have. -/
theorem materialize_batches {findRules : ProviderRow → Option (List AvailabilityRule)}
    {rulesOf : ProviderRow → List AvailabilityRule} (hrules : ∀ p, findRules p = some (rulesOf p))
    (insert : List BatchRow → InsertOutcome) (providers : List ProviderRow) {now dateNow : ClockReading}
    (h : now.1 ≤ dateNow.1) :
    ∀ p ∈ providers, ∃ batch ∈ (materialize (some providers) findRules insert now.1 dateNow.1).2,
      providerBatch p (rulesOf p) (horizonFrom now).1 (horizonTo dateNow).1 = .ok batch :=
  materializeLoop_batches (horizonTo dateNow).2 (horizon_le h) hrules providers _ _

/-- The batch built at `now` has the slots of the rule that start in the next sixty days, over
    whatever dates they are generated. -/
def CoversHorizon (p : ProviderRow) (r : AvailabilityRule) (now : ClockReading) : Prop :=
  ∃ batch, providerBatch p [r] (horizonFrom now).1 (horizonTo now).1 = .ok batch ∧
    ∀ fromDate toDate : IsoDate, fromDate.1 ≤ toDate.1 → ∀ slots,
      generateSlots p.timezone defaultSlotMinutes r.rules fromDate.1 toDate.1 = .ok slots →
        ∀ slot ∈ slots, now.1 ≤ slot.startUtc → slot.startUtc < now.1 + horizonMs →
          batchRow p slot ∈ batch

/-- The day before. -/
def previous (d : Date) : Date := Date.ofNumber (d.number - 1)

theorem number_previous {d : Date} (h : 0 < d.number) : (previous d).number + 1 = d.number := by
  unfold previous
  rw [number_ofNumber]
  omega

theorem start_previous {d : Date} (h : 0 < d.number) : (previous d).start + dayMs = d.start := by
  have hday : dayMs = 86400000 := rfl
  have hnumber := number_previous h
  unfold Date.start
  rw [hday]
  omega

theorem start_next (d : Date) : d.next.start = d.start + dayMs := by
  have hday : dayMs = 86400000 := rfl
  have hnumber := number_next d
  unfold Date.start
  rw [hday]
  omega

/-- A step begins less than a day away from its date. -/
theorem compatible_begins_near (tz : Zone) {p : Step} (h : p.first < 1440) :
    p.date.start - dayMs < tz.compatible p.begins ∧
      tz.compatible p.begins < p.date.start + 2 * dayMs := by
  have hday : dayMs = 86400000 := rfl
  have hoffset := tz.usedOffset_bounded p.begins
  have hbegins : p.begins = p.date.start + p.first * 60000 := rfl
  unfold Zone.compatible
  omega

section Horizon

variable {tz : Zone} {r : AvailabilityRule} {d d' : Date} {p q : Step}

theorem mem_dateSteps_rule (hp : p ∈ dateSteps defaultSlotMinutes r.rules d) :
    p.date = d ∧ p.first < 1440 ∧ (dayOfWeek d : Int) = r.dayOfWeek := by
  unfold dateSteps at hp
  split at hp
  · next hday =>
    obtain ⟨j, hj, rfl⟩ := mem_stepsFrom.mp hp
    have hfits := step_le hj
    have hend := (endTimeOf r.rules).minutes_lt
    rw [Nat.succ_mul] at hfits
    refine ⟨rfl, by dsimp only; omega, ?_⟩
    have hcontains : ([r.dayOfWeek].contains (dayOfWeek d : Int)) = true := hday
    exact List.mem_singleton.mp (List.contains_iff_mem.mp hcontains)
  · cases hp

theorem year_of_number (h : 36525 ≤ d.number) : 100 ≤ d.year := by
  by_contra hyear
  have hmono : daysBeforeYear (d.year + 1) ≤ daysBeforeYear 100 := daysBeforeYear_mono (by omega)
  have h100 : daysBeforeYear 100 = 36525 := rfl
  have hlt := d.number_lt_year.2
  omega

/-- Dates of one rule are a week apart, so their slots do not meet. -/
theorem date_eq_of_same_start (hp : p ∈ dateSteps defaultSlotMinutes r.rules d)
    (hq : q ∈ dateSteps defaultSlotMinutes r.rules d') (hd : 36525 ≤ d.number)
    (hd' : 36525 ≤ d'.number) (h : tz.compatible p.begins = tz.compatible q.begins) : d = d' := by
  obtain ⟨rfl, hpfirst, hpday⟩ := mem_dateSteps_rule hp
  obtain ⟨rfl, hqfirst, hqday⟩ := mem_dateSteps_rule hq
  have hnear := compatible_begins_near tz hpfirst
  have hnear' := compatible_begins_near tz hqfirst
  rw [dayOfWeek_eq (year_of_number hd)] at hpday
  rw [dayOfWeek_eq (year_of_number hd')] at hqday
  have hday : dayMs = 86400000 := rfl
  unfold Date.start at hnear hnear'
  rw [hday] at hnear hnear'
  unfold Date.weekday at hpday hqday
  exact number_injective (by omega)

theorem earliest_singleton_iff {w : AvailabilityRule} : Earliest [r] w ↔ w = r := by
  constructor
  · exact fun h => List.mem_singleton.mp h.mem
  · rintro rfl
    exact earliest_singleton w

theorem mem_steps_of_mem_dateSteps {slotMinutes : Nat} {rules : Option Rules} {fromDate toDate : Date}
    (hd : fromDate ≤ d ∧ d ≤ toDate) (hp : p ∈ dateSteps slotMinutes rules d) :
    p ∈ Rules.steps slotMinutes rules fromDate toDate :=
  List.mem_flatMap.mpr ⟨d, mem_datesBetween.mpr hd, hp⟩

end Horizon

section Outside

variable {p : ProviderRow} {r : AvailabilityRule} {fromDate toDate d : Date} {q : Step}

/-- A step that is kept is in the batch, if its date is one of the batch. -/
theorem row_mem_batch {batch : List BatchRow}
    (hmem : ∀ slot, batchRow p slot ∈ batch ↔ ∃ w, Earliest [r] w ∧
      slot ∈ slotsOf p.timezone (Rules.steps defaultSlotMinutes w.rules fromDate toDate))
    (hq : q ∈ dateSteps defaultSlotMinutes r.rules d) (hkept : q.Kept p.timezone)
    (hfrom : 36525 ≤ fromDate.number) (hd : 36525 ≤ d.number) :
    batchRow p (q.slot p.timezone) ∈ batch ↔ fromDate ≤ d ∧ d ≤ toDate := by
  rw [hmem]
  constructor
  · rintro ⟨w, hw, hslot⟩
    obtain rfl := earliest_singleton_iff.mp hw
    obtain ⟨q', hq', -, heq⟩ := mem_slotsOf.mp hslot
    obtain ⟨d', hd', hq'⟩ := List.mem_flatMap.mp hq'
    have hin := mem_datesBetween.mp hd'
    have hstart : p.timezone.compatible q'.begins = p.timezone.compatible q.begins := by
      show (q'.slot p.timezone).startUtc = (q.slot p.timezone).startUtc
      rw [heq]
    have hnumber : 36525 ≤ d'.number := hfrom.trans (Date.le_def.mp hin.1)
    rw [← date_eq_of_same_start hq' hq hnumber hd hstart]
    exact hin
  · intro hin
    exact ⟨r, earliest_singleton r,
      mem_slotsOf.mpr ⟨q, mem_steps_of_mem_dateSteps hin hq, hkept, rfl⟩⟩

theorem kept_dateStep_iff (hq : q ∈ dateSteps defaultSlotMinutes r.rules d) :
    q.Kept p.timezone ↔ ¬ q.LeavesGap p.timezone :=
  Step.kept_iff (step_first_lt (by decide : 0 < defaultSlotMinutes)
    (mem_steps_of_mem_dateSteps ⟨Date.le_def.mpr (le_refl _), Date.le_def.mpr (le_refl _)⟩ hq))

/-- The slot of a step is generated over the date of the step alone. -/
theorem slot_generated (hyear : d.year ≤ 9999) (hq : q ∈ dateSteps defaultSlotMinutes r.rules d)
    (hkept : q.Kept p.timezone) :
    ∃ slots, generateSlots p.timezone defaultSlotMinutes r.rules d d = .ok slots ∧
      q.slot p.timezone ∈ slots := by
  have hle : d ≤ d := Date.le_def.mpr (le_refl _)
  obtain ⟨slots, hslots, hgenerated⟩ := mem_generateSlots p.timezone
    (by decide : 5 ≤ defaultSlotMinutes) (by decide) r.rules hyear hle
  exact ⟨slots, hslots,
    (hgenerated _).mpr (mem_slotsOf.mpr ⟨q, mem_steps_of_mem_dateSteps ⟨hle, hle⟩ hq, hkept, rfl⟩)⟩

end Outside

/-- The two dates of the horizon on the time line. -/
theorem horizon_spec (now : ClockReading) :
    ((horizonFrom now).1.start ≤ now.1 ∧ now.1 < (horizonFrom now).1.start + dayMs) ∧
      (horizonTo now).1.start ≤ now.1 + horizonMs ∧
        now.1 + horizonMs < (horizonTo now).1.start + dayMs :=
  ⟨start_ofReading now.2.1, start_ofReading (Int.add_nonneg now.2.1 (by decide))⟩

theorem horizon_numbers (now : ClockReading) :
    719528 ≤ (horizonFrom now).1.number ∧ (horizonFrom now).1.number ≤ (horizonTo now).1.number := by
  have hday : dayMs = 86400000 := rfl
  have hepoch : epoch.number = 719528 := by decide
  have hnumber : ((horizonFrom now).1.number : Int) = now.1 / dayMs + epoch.number :=
    number_ofReading now.2.1
  have hpos : (0 : Int) ≤ now.1 / dayMs := Int.ediv_nonneg now.2.1 (by decide)
  have hle := Date.le_def.mp (horizon_le (le_refl now.1))
  exact ⟨by omega, hle⟩

section Sixty

variable {p : ProviderRow} {r : AvailabilityRule} {now : ClockReading} {d : Date} {q : Step}

/-- A slot of another date is not in the batch, so it does not start in the sixty days. -/
theorem CoversHorizon.outside (h : CoversHorizon p r now)
    (hq : q ∈ dateSteps defaultSlotMinutes r.rules d) (hstays : ¬ q.LeavesGap p.timezone)
    (hyear : d.year ≤ 9999) (hnumber : 36525 ≤ d.number)
    (hout : ¬ ((horizonFrom now).1 ≤ d ∧ d ≤ (horizonTo now).1)) :
    p.timezone.compatible q.begins < now.1 ∨
      now.1 + horizonMs ≤ p.timezone.compatible q.begins := by
  obtain ⟨batch, hbatch, hmem⟩ := mem_providerBatch p [r] (horizonTo now).2 (horizon_le (le_refl now.1))
  obtain ⟨batch', hbatch', hall⟩ := h
  rw [hbatch] at hbatch'
  obtain rfl := Except.ok.inj hbatch'
  have hnumbers := horizon_numbers now
  have hkept : q.Kept p.timezone := (kept_dateStep_iff hq).mpr hstays
  obtain ⟨slots, hslots, hslot⟩ := slot_generated hyear hq hkept
  by_contra hin
  rw [not_or] at hin
  have hrow : batchRow p (q.slot p.timezone) ∈ batch :=
    hall ⟨d, hyear⟩ ⟨d, hyear⟩ (Date.le_def.mpr (le_refl _)) slots hslots _ hslot
      (not_lt.mp hin.1) (not_le.mp hin.2)
  exact hout ((row_mem_batch hmem hq hkept (by omega) hnumber).mp hrow)

/-- A step that begins in the sixty days is of a date of the batch, or of the one before or after. -/
theorem date_near_horizon (hq : q ∈ dateSteps defaultSlotMinutes r.rules d)
    (hlow : now.1 ≤ p.timezone.compatible q.begins)
    (hhigh : p.timezone.compatible q.begins < now.1 + horizonMs) :
    d = previous (horizonFrom now).1 ∨ ((horizonFrom now).1 ≤ d ∧ d ≤ (horizonTo now).1) ∨
      d = (horizonTo now).1.next := by
  have hspec := horizon_spec now
  have hday : dayMs = 86400000 := rfl
  have hms : horizonMs = 5184000000 := rfl
  have hnumbers := horizon_numbers now
  have hstarts : ∀ d : Date, d.start = ((d.number : Int) - epoch.number) * 86400000 := fun _ => rfl
  obtain ⟨hdate, hminute, -⟩ := mem_dateSteps_rule hq
  have hnear := compatible_begins_near p.timezone hminute
  rw [hdate, hstarts] at hnear
  rw [hstarts, hstarts] at hspec
  rw [Date.le_def, Date.le_def]
  rcases Nat.lt_or_ge d.number (horizonFrom now).1.number with hearly | hlate
  · have hprevious := number_previous (d := (horizonFrom now).1) (by omega)
    exact Or.inl (number_injective (by omega))
  · rcases Nat.lt_or_ge (horizonTo now).1.number d.number with hafter | hin
    · exact Or.inr (Or.inr (Date.eq_next_of_number (by omega)))
    · exact Or.inr (Or.inl ⟨hlate, hin⟩)

end Sixty

/-- **The horizon is the provider's** exactly if the rule asks for no slot from `now` on before
    the first date in UTC, and for none before the end of the sixty days after the last date. -/
theorem materialize_horizon_iff (p : ProviderRow) (r : AvailabilityRule) (now : ClockReading) :
    CoversHorizon p r now ↔
      (∀ step ∈ dateSteps defaultSlotMinutes r.rules (previous (horizonFrom now).1),
        ¬ step.LeavesGap p.timezone → p.timezone.compatible step.begins < now.1) ∧
      (∀ step ∈ dateSteps defaultSlotMinutes r.rules (horizonTo now).1.next,
        ¬ step.LeavesGap p.timezone →
          now.1 + horizonMs ≤ p.timezone.compatible step.begins) := by
  have hspec := horizon_spec now
  have hday : dayMs = 86400000 := rfl
  have hms : horizonMs = 5184000000 := rfl
  have hnumbers := horizon_numbers now
  constructor
  · refine fun hcovers => ⟨fun step hstep hstays => ?_, fun step hstep hstays => ?_⟩
    · obtain ⟨hdate, hminute, -⟩ := mem_dateSteps_rule hstep
      have hnear := compatible_begins_near p.timezone hminute
      rw [hdate] at hnear
      have hprevious := number_previous (d := (horizonFrom now).1) (by omega)
      have hstart := start_previous (d := (horizonFrom now).1) (by omega)
      have hyear : (previous (horizonFrom now).1).year ≤ 9999 :=
        year_le_of_le (by rw [Date.le_def]; omega) (horizonFrom now).2
      have hout : ¬ ((horizonFrom now).1 ≤ previous (horizonFrom now).1 ∧
          previous (horizonFrom now).1 ≤ (horizonTo now).1) := by
        rw [Date.le_def]
        omega
      -- A step of the day before cannot begin after the sixty days.
      rcases hcovers.outside hstep hstays hyear (by omega) hout with hearly | hlate
      · exact hearly
      · omega
    · obtain ⟨hdate, hminute, -⟩ := mem_dateSteps_rule hstep
      have hnear := compatible_begins_near p.timezone hminute
      rw [hdate] at hnear
      have hnext := number_next (horizonTo now).1
      have hstart := start_next (horizonTo now).1
      have hyear : (horizonTo now).1.next.year ≤ 9999 :=
        year_le_of_start (by have hlate := now.2.2; omega)
      have hout : ¬ ((horizonFrom now).1 ≤ (horizonTo now).1.next ∧
          (horizonTo now).1.next ≤ (horizonTo now).1) := by
        rw [Date.le_def, Date.le_def]
        omega
      rcases hcovers.outside hstep hstays hyear (by omega) hout with hearly | hlate
      · omega
      · exact hlate
  · rintro ⟨hbefore, hafter⟩
    obtain ⟨batch, hbatch, hmem⟩ :=
      mem_providerBatch p [r] (horizonTo now).2 (horizon_le (le_refl now.1))
    refine ⟨batch, hbatch, fun fromDate toDate hle slots hslots slot hslot hlow hhigh => ?_⟩
    obtain ⟨slots', hslots', hgenerated⟩ := mem_generateSlots p.timezone
      (by decide : 5 ≤ defaultSlotMinutes) (by decide) r.rules toDate.2 hle
    rw [hslots] at hslots'
    obtain rfl := Except.ok.inj hslots'
    obtain ⟨q, hq, hkept, rfl⟩ := mem_slotsOf.mp ((hgenerated slot).mp hslot)
    obtain ⟨d, -, hq⟩ := List.mem_flatMap.mp hq
    have hstays : ¬ q.LeavesGap p.timezone := (kept_dateStep_iff hq).mp hkept
    have hlow' : now.1 ≤ p.timezone.compatible q.begins := hlow
    have hhigh' : p.timezone.compatible q.begins < now.1 + horizonMs := hhigh
    rcases date_near_horizon hq hlow' hhigh' with rfl | hin | rfl
    · have hlt := hbefore q hq hstays
      omega
    · have hfirst := Date.le_def.mp hin.1
      exact (row_mem_batch hmem hq hkept (by omega) (by omega)).mpr hin
    · have hle := hafter q hq hstays
      omega

/-- The first of January 2026, 00:00 in UTC. -/
def newYearNow : ClockReading := ⟨1767225600000, by decide⟩

theorem utc_horizon_covered : CoversHorizon utcProvider mondayMorning newYearNow := by
  have hbefore : dateSteps defaultSlotMinutes mondayMorning.rules
      (previous (horizonFrom newYearNow).1) = [] := by decide +kernel
  have hafter : dateSteps defaultSlotMinutes mondayMorning.rules (horizonTo newYearNow).1.next = [] := by
    decide +kernel
  refine (materialize_horizon_iff utcProvider mondayMorning newYearNow).mpr ⟨?_, ?_⟩
  · rw [hbefore]
    exact fun _ h => absurd h List.not_mem_nil
  · rw [hafter]
    exact fun _ h => absurd h List.not_mem_nil

/-- Los Angeles in winter. -/
def losAngeles : ProviderRow := ⟨7, Zone.fixed (-28800000) (by decide)⟩

def mondayEvening : AvailabilityRule := ⟨7, 1, ⟨19, 0⟩, ⟨22, 0⟩, true⟩

/-- The sixth of January 2026, 02:00 in UTC; in Los Angeles it is Monday, 18:00. -/
def mondaySixPm : ClockReading := ⟨1767664800000, by decide⟩

/-- The evening is missing. -/
theorem monday_evening_missing : ¬ CoversHorizon losAngeles mondayEvening mondaySixPm := by
  rintro ⟨batch, hbatch, hall⟩
  let q : Step := ⟨firstMonday2026.1, 1140, 1200⟩
  have hslot : q.slot losAngeles.timezone = ⟨1767668400000, 1767672000000⟩ := by
    unfold Step.slot losAngeles
    rw [Zone.compatible_fixed, Zone.compatible_fixed]
    decide
  have hq : q ∈ dateSteps defaultSlotMinutes mondayEvening.rules firstMonday2026.1 := by decide
  have hkept : q.Kept losAngeles.timezone := by
    unfold Step.Kept
    rw [hslot]
    decide
  obtain ⟨slots, hslots, hmem⟩ := slot_generated firstMonday2026.2 hq hkept
  have hrow := hall firstMonday2026 firstMonday2026 (Date.le_def.mpr (le_refl _)) slots hslots _ hmem
    (by rw [hslot]; decide) (by rw [hslot]; decide)
  obtain ⟨batch', hbatch', hrows⟩ := mem_providerBatch losAngeles [mondayEvening]
    (horizonTo mondaySixPm).2 (horizon_le (le_refl mondaySixPm.1))
  rw [hbatch] at hbatch'
  obtain rfl := Except.ok.inj hbatch'
  have hnumber := (horizon_numbers mondaySixPm).1
  have hin := (row_mem_batch hrows hq hkept (by omega) (by decide)).mp hrow
  have hout : ¬ (horizonFrom mondaySixPm).1 ≤ firstMonday2026.1 := by decide +kernel
  exact hout hin.1

end Chronos.Time
