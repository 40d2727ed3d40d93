import Chronos.Slots

namespace Chronos.Time

open Calendar

/-!
# The dates and the minutes of the generated slots

`generateSlots` walks from date to date until it meets `toDate`, and on each date from minute to
minute of the window.

* `generateSlots_returns_iff`: it meets `toDate` exactly if that is not before `fromDate`.
* `slots_cover_window`: whatever the clock does on a date that the rules include, the slots leave
  out no instant between the first and the last minute of the steps.
* `slots_last_slotMinutes`: a slot takes `slotMinutes` minutes of the clock; how long it lasts
  depends on how far the clock is moved meanwhile.
-/

/-! ### The loop over the dates ends -/

section Returns

variable {tz : Zone} {slotMinutes : Nat} {rules : Option Rules} {fromDate toDate : Date}

/-- A loop that is past its last date never meets it. -/
theorem dayLoop_past (iterations : Nat) {d : Date} (slots : List Slot)
    (hpast : toDate.number < d.number) :
    ∀ result, dayLoop tz slotMinutes rules toDate iterations d slots ≠ .ok result := by
  induction iterations generalizing d slots with
  | zero =>
    intro result h
    cases h
  | succ iterations ih =>
    intro result h
    unfold dayLoop at h
    have hne : d ≠ toDate := by
      intro heq
      rw [heq] at hpast
      omega
    cases hday : daySlots tz slotMinutes rules d with
    | error e =>
      rw [hday] at h
      cases h
    | ok more =>
      rw [hday] at h
      change (if d = toDate then _ else _) = Except.ok result at h
      rw [if_neg hne] at h
      exact ih (d := d.next) _ (by rw [number_next]; omega) result h

theorem generateSlots_past (hpast : toDate.number < fromDate.number) (result : List Slot) :
    generateSlots tz slotMinutes rules fromDate toDate ≠ .ok result := by
  intro h
  unfold generateSlots at h
  split at h
  · cases h
  · cases hloop : dayLoop tz slotMinutes rules toDate (lastDate.number + 1 - fromDate.number)
        fromDate [] with
    | error e =>
      rw [hloop] at h
      cases h
    | ok slots => exact dayLoop_past _ _ hpast slots hloop

/-- `generateSlots` returns, after at most one iteration of the loop over the dates for each
    date; and with nothing, if there is no date. -/
def ReturnsInTime (tz : Zone) (slotMinutes : Nat) (rules : Option Rules) (fromDate toDate : Date) :
    Prop :=
  ∃ slots result,
    dayLoop tz slotMinutes rules toDate (toDate.number + 1 - fromDate.number) fromDate [] =
      .ok slots ∧
    generateSlots tz slotMinutes rules fromDate toDate = .ok result ∧
    (¬ fromDate ≤ toDate → result = [])

end Returns

/-- **`generateSlots` returns** exactly if the dates are in order: past `toDate` nothing stops the
    loop. -/
theorem generateSlots_returns_iff (tz : Zone) (slotMinutes : Nat)
    (hlength : 5 ≤ slotMinutes ∧ slotMinutes ≤ 240) (rules : Option Rules)
    (fromDate toDate : IsoDate) :
    ReturnsInTime tz slotMinutes rules fromDate.1 toDate.1 ↔ fromDate.1 ≤ toDate.1 := by
  constructor
  · rintro ⟨slots, result, -, hresult, -⟩
    by_contra hpast
    rw [Date.le_def] at hpast
    exact generateSlots_past (by omega) result hresult
  · intro hle
    have hloop : dayLoop tz slotMinutes rules toDate.1 (toDate.1.number + 1 - fromDate.1.number)
        fromDate.1 [] = .ok ([] ++ slotsOf tz (Rules.steps slotMinutes rules fromDate.1 toDate.1)) :=
      dayLoop_eq (by omega) rules toDate.2 _ [] hle (by rw [Date.le_def] at hle; omega)
    exact ⟨_, _, hloop, generateSlots_eq tz hlength.1 hlength.2 rules toDate.2 hle,
      fun hno => absurd hle hno⟩

def newYear2026 : IsoDate := ⟨⟨2026, 1, 1, epoch.month_pos, epoch.month_le, epoch.day_pos, by decide⟩, by decide⟩

def secondOfJanuary : IsoDate := ⟨⟨2026, 1, 2, epoch.month_pos, epoch.month_le, by omega, by decide⟩, by decide⟩

def utc : Zone := Zone.fixed 0 (by decide)

theorem utc_returns : ReturnsInTime utc 30 none newYear2026.1 secondOfJanuary.1 :=
  (generateSlots_returns_iff utc 30 (by omega) none newYear2026 secondOfJanuary).mpr (by decide)

theorem no_return_from_the_day_after :
    ¬ ReturnsInTime utc 30 none secondOfJanuary.1 newYear2026.1 := by
  rintro ⟨slots, result, -, hresult, -⟩
  exact generateSlots_past (by decide) result hresult

/-! ### The steps cover the window -/

/-- A walk from at most `t` to past `t` steps over `t`. -/
theorem exists_step_over (r : Nat → Int) {t : Int} (n : Nat) (h0 : r 0 ≤ t) (hn : t < r n) :
    ∃ j < n, r j ≤ t ∧ t < r (j + 1) := by
  induction n with
  | zero => omega
  | succ n ih =>
    by_cases hlt : t < r n
    · obtain ⟨j, hj, hstep⟩ := ih hlt
      exact ⟨j, by omega, hstep⟩
    · exact ⟨n, by omega, by omega, hn⟩

/-- The last minute of the steps is a minute of the date. -/
theorem lastMinute_lt (slotMinutes : Nat) (rules : Option Rules) :
    (startTimeOf rules).minutes + stepCount slotMinutes rules * slotMinutes < 1440 := by
  have hstart := (startTimeOf rules).minutes_lt
  have hend := (endTimeOf rules).minutes_lt
  cases hcount : stepCount slotMinutes rules with
  | zero => omega
  | succ j =>
    have hstep : (startTimeOf rules).minutes + (j + 1) * slotMinutes ≤ (endTimeOf rules).minutes :=
      step_le (by omega)
    omega

/-- **No instant of a window is left out**: between the instants of the first and of the last
    minute of the steps of an included date, each is in a slot.  The instants of the minutes in
    between need not be in their order. -/
theorem slots_cover_window (tz : Zone) (slotMinutes : Nat)
    (hlength : 5 ≤ slotMinutes ∧ slotMinutes ≤ 240) (rules : Option Rules)
    (fromDate toDate : IsoDate) (d : Date) (hd : fromDate.1 ≤ d ∧ d ≤ toDate.1)
    (hday : includesDay rules d = true) (first last : WallClockResult)
    (hfirst : resolveWallClock tz (atMinute d (startTimeOf rules).minutes) .compatible = .ok first)
    (hlast : resolveWallClock tz (atMinute d ((startTimeOf rules).minutes +
      stepCount slotMinutes rules * slotMinutes)) .compatible = .ok last)
    (t : Instant) (ht : first.instant ≤ t ∧ t < last.instant) :
    ∃ slots, generateSlots tz slotMinutes rules fromDate.1 toDate.1 = .ok slots ∧
      ∃ slot ∈ slots, slot.startUtc ≤ t ∧ t < slot.endUtc := by
  have hle : fromDate.1 ≤ toDate.1 := by
    simp only [Date.le_def] at hd ⊢
    omega
  refine ⟨_, generateSlots_eq tz hlength.1 hlength.2 rules toDate.2 hle, ?_⟩
  have hyear : d.year ≤ 9999 := year_le_of_le hd.2 toDate.2
  have hstart := (startTimeOf rules).minutes_lt
  let r : Nat → Int := fun j =>
    tz.compatible (reading d ((startTimeOf rules).minutes + j * slotMinutes))
  have hr0 : first.instant = r 0 := by
    rw [resolveWallClock_atMinute hyear hstart] at hfirst
    obtain rfl := Except.ok.inj hfirst
    show tz.compatible _ = tz.compatible _
    rw [Nat.zero_mul, Nat.add_zero]
  have hrn : last.instant = r (stepCount slotMinutes rules) := by
    rw [resolveWallClock_atMinute hyear (lastMinute_lt slotMinutes rules)] at hlast
    obtain rfl := Except.ok.inj hlast
    rfl
  -- The step over `t` has its ends in order, so it is kept.
  obtain ⟨j, hj, hlow, hhigh⟩ :=
    exists_step_over r (t := t) (stepCount slotMinutes rules) (by rw [← hr0]; exact ht.1)
      (by rw [← hrn]; exact ht.2)
  let p : Step := ⟨d, (startTimeOf rules).minutes + j * slotMinutes,
    (startTimeOf rules).minutes + (j + 1) * slotMinutes⟩
  have hp : p ∈ Rules.steps slotMinutes rules fromDate.1 toDate.1 :=
    mem_steps.mpr ⟨d, hd, hday, j, hj, rfl⟩
  have hkept : p.Kept tz := lt_of_le_of_lt hlow hhigh
  exact ⟨p.slot tz, List.mem_mergeSort.mpr (mem_slotsOf.mpr ⟨p, hp, hkept, rfl⟩), hlow, hhigh⟩

/-! ### How long a slot lasts -/

/-- **A slot takes `slotMinutes` minutes of the clock**: it lasts so long exactly if the same
    offset counts for both its ends, and longer or shorter by what the clock is moved. -/
theorem slots_last_slotMinutes (tz : Zone) (slotMinutes : Nat)
    (hlength : 5 ≤ slotMinutes ∧ slotMinutes ≤ 240) (rules : Option Rules)
    (fromDate toDate : IsoDate) (hle : fromDate.1 ≤ toDate.1) :
    ∃ slots, generateSlots tz slotMinutes rules fromDate.1 toDate.1 = .ok slots ∧
      ∀ slot ∈ slots, ∃ d m, (fromDate.1 ≤ d ∧ d ≤ toDate.1) ∧ includesDay rules d = true ∧
        resolveWallClock tz (atMinute d m) .compatible = .ok ⟨slot.startUtc, true, false⟩ ∧
        resolveWallClock tz (atMinute d (m + slotMinutes)) .compatible =
          .ok ⟨slot.endUtc, true, false⟩ ∧
        slot.endUtc - slot.startUtc = slotMinutes * 60000 -
          (tz.usedOffset (atMinute d (m + slotMinutes)).reading -
            tz.usedOffset (atMinute d m).reading) := by
  refine ⟨_, generateSlots_eq tz hlength.1 hlength.2 rules toDate.2 hle, fun slot hslot => ?_⟩
  obtain ⟨p, hp, -, rfl⟩ := mem_slotsOf.mp (List.mem_mergeSort.mp hslot)
  obtain ⟨d, hd, hday, j, hj, rfl⟩ := mem_steps.mp hp
  have hyear : d.year ≤ 9999 := year_le_of_le hd.2 toDate.2
  have hfits := step_le hj
  have hend := (endTimeOf rules).minutes_lt
  rw [show (startTimeOf rules).minutes + (j + 1) * slotMinutes =
    (startTimeOf rules).minutes + j * slotMinutes + slotMinutes by rw [Nat.succ_mul]; omega] at hfits ⊢
  generalize (startTimeOf rules).minutes + j * slotMinutes = m at hfits ⊢
  have hlater : m + slotMinutes < 1440 := by omega
  have hm : m < 1440 := by omega
  refine ⟨d, m, hd, hday, resolveWallClock_atMinute hyear hm,
    resolveWallClock_atMinute hyear hlater, ?_⟩
  rw [reading_atMinute hm, reading_atMinute hlater]
  show tz.compatible (reading d (m + slotMinutes)) - tz.compatible (reading d m) = _
  have hapart : reading d (m + slotMinutes) = reading d m + slotMinutes * 60000 := by
    unfold reading
    omega
  unfold Zone.compatible
  rw [hapart]
  omega

theorem utc_slots_last_slotMinutes :
    ∃ slots, generateSlots utc 30 none newYear2026.1 secondOfJanuary.1 = .ok slots ∧
      ∀ slot ∈ slots, ∃ d m, (newYear2026.1 ≤ d ∧ d ≤ secondOfJanuary.1) ∧
        includesDay none d = true ∧
        resolveWallClock utc (atMinute d m) .compatible = .ok ⟨slot.startUtc, true, false⟩ ∧
        resolveWallClock utc (atMinute d (m + 30)) .compatible = .ok ⟨slot.endUtc, true, false⟩ ∧
        slot.endUtc - slot.startUtc = (30 : Nat) * 60000 -
          (utc.usedOffset (atMinute d (m + 30)).reading - utc.usedOffset (atMinute d m).reading) :=
  slots_last_slotMinutes utc 30 (by omega) none newYear2026 secondOfJanuary (by decide)

/-- New York around the eighth of March 2026, when the clocks went from 02:00 to 03:00. -/
def newYork : Zone := Zone.moved 1772953200000 (-18000000) (-14400000) (by decide) (by decide)

def springForward : IsoDate := ⟨⟨2026, 3, 8, by omega, by omega, by omega, by decide⟩, by decide⟩

theorem newYork_compatible (l : Int) :
    newYork.compatible l = if l < 1772938800000 then l + 18000000 else l + 14400000 := by
  have hmoved : newYork.compatible l = if l < 1772953200000 + -14400000 then l - -18000000
      else l - -14400000 := Zone.compatible_moved (by decide) l
  rw [hmoved]
  split <;> split <;> omega

theorem newYork_inGap (l : Int) :
    newYork.InGap l ↔ 1772935200000 ≤ l ∧ l < 1772938800000 :=
  Zone.inGap_moved

/-- From 01:00 to 04:00 it is two hours, when the clocks skip one in between. -/
theorem slot_of_two_hours :
    ∃ slots, generateSlots newYork 180 (some ⟨none, some ⟨1, 0⟩, some ⟨4, 0⟩⟩) springForward.1
        springForward.1 = .ok slots ∧
      ∃ slot ∈ slots, slot.endUtc - slot.startUtc ≠ 180 * 60000 := by
  let p : Step := ⟨springForward.1, 60, 240⟩
  have hslot : p.slot newYork = ⟨1772949600000, 1772956800000⟩ := by
    unfold Step.slot
    rw [newYork_compatible, newYork_compatible]
    decide
  have hkept : p.Kept newYork := by
    unfold Step.Kept
    rw [hslot]
    decide
  refine ⟨_, generateSlots_eq newYork (by omega) (by omega) _ springForward.2
    (Date.le_def.mpr (le_refl _)), p.slot newYork,
    List.mem_mergeSort.mpr (mem_slotsOf.mpr ⟨p, by decide, hkept, rfl⟩), ?_⟩
  rw [hslot]
  decide

end Chronos.Time
