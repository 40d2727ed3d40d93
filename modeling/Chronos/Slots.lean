import Chronos.TimeCore

namespace Chronos.Time

open Calendar

/-!
# What `generateSlots` computes

The rules ask for intervals on the clock of the provider: the `Step`s of every date they
include.  `generateSlots` takes both ends of a step for the instants `compatible` gives, keeps
the step if these are ordered (`Step.Kept`), and sorts what it kept (`generateSlots_eq`).

What the clock does around a gap decides everything else.  `Step.kept_iff` says which steps are
kept, `Step.clock_begins` and `Step.clock_ends` what the clock shows as their slots begin and end.
-/

/-- The date of a text `YYYY-MM-DD`. -/
def IsoDate : Type := { d : Date // d.year ≤ 9999 }

/-- What the clock shows at minute `m` of date `d`. -/
def reading (d : Date) (m : Nat) : Int := d.start + m * 60000

/-- An interval of minutes of a date, on the clock of the provider. -/
structure Step where
  date : Date
  first : Nat
  last : Nat
  deriving DecidableEq

namespace Step

variable (p : Step) (tz : Zone)

def begins : Int := reading p.date p.first

def ends : Int := reading p.date p.last

/-- The slot of a step, its ends resolved. -/
def slot : Slot := ⟨tz.compatible p.begins, tz.compatible p.ends⟩

/-- The code keeps a step if its ends are resolved in their order. -/
def Kept : Prop := (p.slot tz).startUtc < (p.slot tz).endUtc

instance : Decidable (p.Kept tz) := inferInstanceAs (Decidable (_ < _))

end Step

/-- `n` steps of `slotMinutes` minutes from minute `m` on. -/
def stepsFrom (d : Date) (slotMinutes : Nat) : Nat → Nat → List Step
  | 0, _ => []
  | n + 1, m => ⟨d, m, m + slotMinutes⟩ :: stepsFrom d slotMinutes n (m + slotMinutes)

/-- How many steps the window of the rules holds. -/
def stepCount (slotMinutes : Nat) (rules : Option Rules) : Nat :=
  ((endTimeOf rules).minutes - (startTimeOf rules).minutes) / slotMinutes

/-- The steps the rules ask for on date `d`. -/
def dateSteps (slotMinutes : Nat) (rules : Option Rules) (d : Date) : List Step :=
  if includesDay rules d then
    stepsFrom d slotMinutes (stepCount slotMinutes rules) (startTimeOf rules).minutes
  else []

/-- `n` dates from `d` on. -/
def datesFrom : Nat → Date → List Date
  | 0, _ => []
  | n + 1, d => d :: datesFrom n d.next

/-- The dates from `fromDate` to `toDate`. -/
def datesBetween (fromDate toDate : Date) : List Date :=
  datesFrom (toDate.number + 1 - fromDate.number) fromDate

/-- The steps the rules ask for on these dates. -/
def Rules.steps (slotMinutes : Nat) (rules : Option Rules) (fromDate toDate : Date) : List Step :=
  (datesBetween fromDate toDate).flatMap (dateSteps slotMinutes rules)

/-- The slots of the steps that are kept, in the order of the loops. -/
def slotsOf (tz : Zone) (steps : List Step) : List Slot :=
  (steps.filter fun p => p.Kept tz).map fun p => p.slot tz

@[simp] theorem slotsOf_nil (tz : Zone) : slotsOf tz [] = [] := rfl

theorem slotsOf_append (tz : Zone) (ps qs : List Step) :
    slotsOf tz (ps ++ qs) = slotsOf tz ps ++ slotsOf tz qs := by
  simp [slotsOf]

theorem slotsOf_cons (tz : Zone) (p : Step) (ps : List Step) :
    slotsOf tz (p :: ps) = if p.Kept tz then p.slot tz :: slotsOf tz ps else slotsOf tz ps := by
  unfold slotsOf
  rw [List.filter_cons]
  by_cases h : p.Kept tz <;> simp [h]

theorem mem_slotsOf {tz : Zone} {steps : List Step} {slot : Slot} :
    slot ∈ slotsOf tz steps ↔ ∃ p ∈ steps, p.Kept tz ∧ p.slot tz = slot := by
  simp [slotsOf, and_assoc]

/-! ### Membership -/

theorem mem_stepsFrom {d : Date} {slotMinutes n m : Nat} {p : Step} :
    p ∈ stepsFrom d slotMinutes n m ↔
      ∃ j < n, p = ⟨d, m + j * slotMinutes, m + (j + 1) * slotMinutes⟩ := by
  induction n generalizing m with
  | zero => simp [stepsFrom]
  | succ n ih =>
    have hshift : ∀ j, m + slotMinutes + j * slotMinutes = m + (j + 1) * slotMinutes := by
      intro j
      rw [Nat.add_mul]
      omega
    simp only [stepsFrom, List.mem_cons, ih, hshift]
    constructor
    · rintro (rfl | ⟨j, hj, rfl⟩)
      · exact ⟨0, by omega, by simp⟩
      · exact ⟨j + 1, by omega, rfl⟩
    · rintro ⟨j, hj, rfl⟩
      cases j with
      | zero => exact .inl (by simp)
      | succ j => exact .inr ⟨j, by omega, rfl⟩

theorem mem_datesFrom {n : Nat} {d d' : Date} :
    d' ∈ datesFrom n d ↔ d.number ≤ d'.number ∧ d'.number < d.number + n := by
  induction n generalizing d with
  | zero => simp [datesFrom]
  | succ n ih =>
    simp only [datesFrom, List.mem_cons, ih, number_next]
    constructor
    · rintro (rfl | h) <;> omega
    · intro h
      rcases Nat.eq_or_lt_of_le h.1 with heq | hlt
      · exact .inl (number_injective heq.symm)
      · exact .inr (by omega)

@[simp] theorem mem_datesBetween {fromDate toDate d : Date} :
    d ∈ datesBetween fromDate toDate ↔ fromDate ≤ d ∧ d ≤ toDate := by
  unfold datesBetween
  rw [mem_datesFrom, Date.le_def, Date.le_def]
  omega

/-- **A step** is the `j`-th of a date that the rules include. -/
theorem mem_steps {slotMinutes : Nat} {rules : Option Rules} {fromDate toDate : Date} {p : Step} :
    p ∈ Rules.steps slotMinutes rules fromDate toDate ↔
      ∃ d, (fromDate ≤ d ∧ d ≤ toDate) ∧ includesDay rules d = true ∧
        ∃ j < stepCount slotMinutes rules,
          p = ⟨d, (startTimeOf rules).minutes + j * slotMinutes,
            (startTimeOf rules).minutes + (j + 1) * slotMinutes⟩ := by
  simp only [Rules.steps, List.mem_flatMap, mem_datesBetween, dateSteps]
  refine exists_congr fun d => and_congr_right fun _ => ?_
  by_cases hday : includesDay rules d = true
  · simp only [hday, if_true, true_and, mem_stepsFrom]
  · simp [hday]

theorem TimeOfDay.minutes_lt (time : TimeOfDay) : time.minutes < 1440 := by
  have hhour := time.hour.isLt
  have hminute := time.minute.isLt
  unfold TimeOfDay.minutes
  omega

/-- A step ends by the end of the window. -/
theorem step_le {slotMinutes : Nat} {rules : Option Rules} {j : Nat}
    (hj : j < stepCount slotMinutes rules) :
    (startTimeOf rules).minutes + (j + 1) * slotMinutes ≤ (endTimeOf rules).minutes := by
  have hmul : (j + 1) * slotMinutes ≤ stepCount slotMinutes rules * slotMinutes :=
    Nat.mul_le_mul_right slotMinutes hj
  have hdiv : stepCount slotMinutes rules * slotMinutes ≤
      (endTimeOf rules).minutes - (startTimeOf rules).minutes := Nat.div_mul_le_self _ _
  have hpos : 0 < stepCount slotMinutes rules := by omega
  have hlt : (startTimeOf rules).minutes < (endTimeOf rules).minutes := by
    by_contra hge
    have hnone : stepCount slotMinutes rules = 0 := by
      unfold stepCount
      rw [Nat.sub_eq_zero_of_le (by omega), Nat.zero_div]
    omega
  omega

theorem year_le_of_le {d d' : Date} {year : Nat} (hle : d ≤ d') (h : d'.year ≤ year) :
    d.year ≤ year := by
  by_contra hlate
  have hmono : daysBeforeYear (d'.year + 1) ≤ daysBeforeYear d.year :=
    daysBeforeYear_mono (by omega)
  have hto := d'.number_lt_year.2
  have hfrom := d.number_lt_year.1
  rw [Date.le_def] at hle
  omega

/-! ### The loops -/

section Loops

variable {tz : Zone} {d : Date}

theorem reading_atMinute {m : Nat} (hm : m < 1440) : (atMinute d m).reading = reading d m := by
  have hhour : min (m / 60) 23 = m / 60 := by omega
  have hminute : min (m % 60) 59 = m % 60 := by omega
  show d.start + ((min (m / 60 : Nat) 23 * 60 + min (m % 60 : Nat) 59) * 60 + min (0 : Nat) 59) * 1000 = _
  unfold reading
  omega

/-- Temporal knows every instant of the years up to 9999. -/
theorem inRange_compatible (hyear : d.year ≤ 9999) {m : Nat} (hm : m < 1440) :
    inRange (tz.compatible (reading d m)) = true := by
  have hnumber := d.number_lt_year.2
  have hmono : daysBeforeYear (d.year + 1) ≤ daysBeforeYear 10000 := daysBeforeYear_mono (by omega)
  have hlast : daysBeforeYear 10000 = 3652425 := rfl
  have hoffset := tz.usedOffset_bounded (reading d m)
  have hday : dayMs = 86400000 := rfl
  have hepoch : epoch.number = 719528 := by decide
  have hrange : -8640000000000000 ≤ tz.compatible (reading d m) ∧
      tz.compatible (reading d m) ≤ 8640000000000000 := by
    unfold Zone.compatible
    generalize tz.usedOffset (reading d m) = offset at hoffset ⊢
    unfold reading Date.start
    rw [hday] at hoffset ⊢
    rw [hepoch]
    omega
  exact decide_eq_true hrange

/-- **The minutes of a date are resolved** by the policy `compatible`. -/
theorem resolveWallClock_atMinute (hyear : d.year ≤ 9999) {m : Nat} (hm : m < 1440) :
    resolveWallClock tz (atMinute d m) .compatible =
      .ok ⟨tz.compatible (reading d m), true, false⟩ := by
  have hresolve : tz.resolve .compatible (atMinute d m).reading =
      some (tz.compatible (reading d m)) := by
    rw [reading_atMinute hm]
    exact tz.resolve_compatible _
  unfold resolveWallClock
  rw [hresolve]
  dsimp only
  rw [if_pos (inRange_compatible hyear hm)]

/-- The loop over the minutes keeps the slots of the steps that fit. -/
theorem slotLoop_eq (hyear : d.year ≤ 9999) {slotMinutes : Nat} (hpos : 0 < slotMinutes)
    {endLocalMin : Nat} (hend : endLocalMin < 1440) (iterations m : Nat)
    (henough : endLocalMin ≤ m + iterations) :
    slotLoop tz d slotMinutes endLocalMin iterations m =
      .ok (slotsOf tz (stepsFrom d slotMinutes ((endLocalMin - m) / slotMinutes) m)) := by
  induction iterations generalizing m with
  | zero =>
    have hnone : endLocalMin - m = 0 := by omega
    rw [hnone, Nat.zero_div]
    rfl
  | succ iterations ih =>
    unfold slotLoop
    by_cases hlt : m < endLocalMin
    · rw [if_pos hlt]
      dsimp only
      by_cases hfit : m + slotMinutes > endLocalMin
      · have hnone : (endLocalMin - m) / slotMinutes = 0 := Nat.div_eq_of_lt (by omega)
        rw [if_pos hfit, hnone]
        rfl
      · have hcount : (endLocalMin - m) / slotMinutes =
            (endLocalMin - (m + slotMinutes)) / slotMinutes + 1 := by
          have hsub : endLocalMin - m = endLocalMin - (m + slotMinutes) + slotMinutes := by omega
          rw [hsub, Nat.add_div_right _ hpos]
        rw [if_neg hfit, resolveWallClock_atMinute hyear (show m < 1440 by omega),
          resolveWallClock_atMinute hyear (show m + slotMinutes < 1440 by omega),
          ih (m + slotMinutes) (by omega), hcount]
        rw [stepsFrom, slotsOf_cons]
        simp only [bind, Except.bind]
        split
        · next hkept => rw [if_pos (show Step.Kept ⟨d, m, m + slotMinutes⟩ tz from hkept)]; rfl
        · next hkept => rw [if_neg (show ¬ Step.Kept ⟨d, m, m + slotMinutes⟩ tz from hkept)]; rfl
    · have hnone : endLocalMin - m = 0 := by omega
      rw [if_neg hlt, hnone, Nat.zero_div]
      rfl

theorem daySlots_eq (hyear : d.year ≤ 9999) {slotMinutes : Nat} (hpos : 0 < slotMinutes)
    (rules : Option Rules) :
    daySlots tz slotMinutes rules d = .ok (slotsOf tz (dateSteps slotMinutes rules d)) := by
  have hstart := (startTimeOf rules).minutes_lt
  have hend := (endTimeOf rules).minutes_lt
  unfold daySlots dateSteps
  split
  · dsimp only
    rw [resolveWallClock_atMinute hyear hstart, resolveWallClock_atMinute hyear hend]
    exact slotLoop_eq hyear hpos hend _ _ (by omega)
  · rfl

/-- **The loop over the dates** returns once it has come to the last date. -/
theorem dayLoop_eq {slotMinutes : Nat} (hpos : 0 < slotMinutes) (rules : Option Rules)
    {toDate : Date} (hyear : toDate.year ≤ 9999) (iterations : Nat) (slots : List Slot)
    (hle : d ≤ toDate) (henough : toDate.number < d.number + iterations) :
    dayLoop tz slotMinutes rules toDate iterations d slots =
      .ok (slots ++ slotsOf tz (Rules.steps slotMinutes rules d toDate)) := by
  induction iterations generalizing d slots with
  | zero => rw [Date.le_def] at hle; omega
  | succ iterations ih =>
    have hd : d.year ≤ 9999 := year_le_of_le hle hyear
    rw [Date.le_def] at hle
    unfold dayLoop
    rw [daySlots_eq hd hpos]
    show (if d = toDate then _ else _) = _
    by_cases hlast : d = toDate
    · have hdates : datesBetween d toDate = [d] := by
        unfold datesBetween
        rw [← hlast, Nat.add_sub_cancel_left]
        rfl
      rw [if_pos hlast, Rules.steps, hdates]
      simp [pure, Except.pure]
    · have hlt : d.number < toDate.number := by
        rcases Nat.eq_or_lt_of_le hle with heq | hlt
        · exact absurd (number_injective heq) hlast
        · exact hlt
      have hdates : datesBetween d toDate = d :: datesBetween d.next toDate := by
        unfold datesBetween
        rw [number_next, show toDate.number + 1 - d.number =
          toDate.number + 1 - (d.number + 1) + 1 by omega]
        rfl
      rw [if_neg hlast, ih _ (by rw [Date.le_def, number_next]; omega) (by rw [number_next]; omega)]
      unfold Rules.steps
      rw [hdates, List.flatMap_cons, slotsOf_append, List.append_assoc]

end Loops

/-- **What `generateSlots` computes**, for dates in their order. -/
theorem generateSlots_eq (tz : Zone) {slotMinutes : Nat} (h5 : 5 ≤ slotMinutes)
    (h240 : slotMinutes ≤ 240) (rules : Option Rules) {fromDate toDate : Date}
    (hyear : toDate.year ≤ 9999) (hle : fromDate ≤ toDate) :
    generateSlots tz slotMinutes rules fromDate toDate =
      .ok ((slotsOf tz (Rules.steps slotMinutes rules fromDate toDate)).mergeSort Slot.before) := by
  have hto := toDate.number_lt_year.2
  have hmono : daysBeforeYear (toDate.year + 1) ≤ daysBeforeYear 10000 := daysBeforeYear_mono (by omega)
  have hyears : daysBeforeYear 10000 = 3652425 := rfl
  have hlast : lastDate.number = 100719528 := by decide +kernel
  unfold generateSlots
  rw [if_neg (by omega), dayLoop_eq (by omega) rules hyear _ _ hle (by rw [Date.le_def] at hle; omega)]
  rfl

/-- The slots `generateSlots` returns, their order aside. -/
theorem mem_generateSlots (tz : Zone) {slotMinutes : Nat} (h5 : 5 ≤ slotMinutes)
    (h240 : slotMinutes ≤ 240) (rules : Option Rules) {fromDate toDate : Date}
    (hyear : toDate.year ≤ 9999) (hle : fromDate ≤ toDate) :
    ∃ slots, generateSlots tz slotMinutes rules fromDate toDate = .ok slots ∧
      ∀ slot, slot ∈ slots ↔ slot ∈ slotsOf tz (Rules.steps slotMinutes rules fromDate toDate) :=
  ⟨_, generateSlots_eq tz h5 h240 rules hyear hle, fun _ => List.mem_mergeSort⟩

/-! ### The ends of a step on the clock -/

/-- How far the clock moves the reading `l` forward: by the length of its gap. -/
def shift (tz : Zone) (l : Int) : Int := if tz.InGap l then tz.gap l else 0

theorem clock_compatible (tz : Zone) (l : Int) : tz.clock (tz.compatible l) = l + shift tz l := by
  unfold shift
  split
  · next h => exact (tz.compatible_of_inGap h).2.2
  · next h => rw [(tz.compatible_of_occurs h).1, Int.add_zero]

/-- A reading in a gap stands for the instant of the reading it is moved to. -/
theorem compatible_add_shift (tz : Zone) (l : Int) :
    tz.compatible (l + shift tz l) = tz.compatible l := by
  unfold shift
  split
  · next h =>
    obtain ⟨-, hpos, hclock⟩ := tz.compatible_of_inGap h
    have hpast := Zone.compatible_past_gap h (fun hgap => hgap _ hclock) (by omega)
    rw [if_pos (by omega)] at hpast
    omega
  · rw [Int.add_zero]

/-- **Two readings stand for one instant** if the clock shows the same after moving them. -/
theorem compatible_eq_iff (tz : Zone) {l l' : Int} :
    tz.compatible l = tz.compatible l' ↔ l + shift tz l = l' + shift tz l' := by
  constructor
  · intro h
    rw [← clock_compatible, ← clock_compatible, h]
  · intro h
    rw [← compatible_add_shift tz l, ← compatible_add_shift tz l', h]

namespace Step

variable {tz : Zone} {p : Step}

/-- The step lies on both sides of the end of a gap, and is no longer than the gap. -/
def LeavesGap (p : Step) (tz : Zone) : Prop :=
  tz.InGap p.begins ∧ ¬ tz.InGap p.ends ∧ p.ends - p.begins ≤ tz.gap p.begins

instance (p : Step) (tz : Zone) : Decidable (p.LeavesGap tz) := inferInstanceAs (Decidable (_ ∧ _))

/-- **The steps that are kept** are those that do not end a gap they begin in. -/
theorem kept_iff (h : p.first < p.last) : p.Kept tz ↔ ¬ p.LeavesGap tz :=
  Zone.compatible_lt_iff (by unfold begins ends reading; omega)

end Step

end Chronos.Time
