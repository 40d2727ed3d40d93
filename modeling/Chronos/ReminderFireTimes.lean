import Chronos.WindowChecks
import Chronos.Text.CodeUnits

namespace Chronos

open Calendar Text Time

/-!
# The fire times of reminders, as texts

`reminderFireTimes` of `time-core.ts` computes instants to the nanosecond, compares them with `now`
to the millisecond, and sorts their texts.

* `instantText` — what Temporal prints.
* `instantText_lt` — of two instants with the same part below the minute, the earlier one has the
  smaller text.
* `reminderFireTimes_eq` — the result, in the order of time.
-/

/-! ### What Temporal prints -/

/-- The fraction of a second, without trailing zeros. -/
def fractionText (nanosecond : Nat) : List Char :=
  if nanosecond = 0 then []
  else '.' :: ((padded 9 nanosecond).reverse.dropWhile fun c => decide (c = '0')).reverse

/-- `YYYY-MM-DDTHH:MM`, of a minute since the epoch. -/
def minuteText (minute : Nat) : List Char :=
  let date := Date.ofNumber (minute / 1440 + epoch.number)
  padded 4 date.year ++ '-' :: (padded 2 date.month ++ '-' :: (padded 2 date.day ++
    'T' :: (padded 2 (minute % 1440 / 60) ++ ':' :: padded 2 (minute % 60))))

/-- The rest of the text, of the nanoseconds since the minute began. -/
def secondText (nanoseconds : Nat) : List Char :=
  ':' :: (padded 2 (nanoseconds / 1000000000) ++
    (fractionText (nanoseconds % 1000000000) ++ ['Z']))

/-- `t.toString()`, of an instant of the years 1970 to 9999. -/
def instantText (t : Int) : String :=
  let nanoseconds := t.toNat
  String.ofList (minuteText (nanoseconds / 60000000000) ++ secondText (nanoseconds % 60000000000))

example : instantText 1767268800123000000 = "2026-01-01T12:00:00.123Z" := by decide +kernel

/-! ### `reminderFireTimes` -/

/-- `t.add(T.Duration.from({ minutes }))`: what is no duration is out of range as well. -/
def addMinutes (t minutes : Int) : Except TimeError Int := instant (t + minutes * 60000000000)

/-- The loop over the offsets. -/
def fireLoop (startInst nowInst : Int) : List Int → Except TimeError (List String)
  | [] => .ok []
  | off :: offsets => do
    let fire ← addMinutes startInst (-off)
    let results ← fireLoop startInst nowInst offsets
    if epochMilliseconds fire > epochMilliseconds nowInst then pure (instantText fire :: results)
    else pure results

/-- `texts.sort()`. -/
def sortTexts (texts : List String) : List String :=
  texts.mergeSort fun a b => !lexLt (codeUnits b.toList) (codeUnits a.toList)

def reminderFireTimes (slotStart : WrittenInstant) (offsets : List Int) (now : WrittenInstant) :
    Except TimeError (List String) := do
  let startInst ← instantFrom slotStart
  let nowInst ← instantFrom now
  let results ← fireLoop startInst nowInst offsets
  pure (sortTexts results)

/-! ### The order of texts -/

/-- The years 1970 to 9999. -/
def InYears (t : Int) : Prop := 0 ≤ t ∧ t < year10000 * 1000000

instance (t : Int) : Decidable (InYears t) := inferInstanceAs (Decidable (_ ∧ _))

theorem year_lt {minute : Nat} (h : minute < 2932896 * 1440 + 1440) :
    (Date.ofNumber (minute / 1440 + epoch.number)).year < 10 ^ 4 := by
  have hepoch : epoch.number = 719528 := by decide
  have hyear := (Date.ofNumber (minute / 1440 + epoch.number)).number_lt_year
  rw [number_ofNumber, hepoch] at hyear
  by_contra hge
  have hle : daysBeforeYear 10000 ≤ daysBeforeYear (Date.ofNumber (minute / 1440 + 719528)).year :=
    daysBeforeYear_mono (by rw [hepoch] at hge; omega)
  have hcount : daysBeforeYear 10000 = 3652425 := by decide
  omega

/-- **The earlier minute has the smaller text.** -/
theorem minuteText_lt {minute minute' : Nat} (h : minute < minute')
    (h' : minute' < 2932896 * 1440 + 1440) (text text' : List Char) :
    lexLt (codeUnits (minuteText minute ++ text)) (codeUnits (minuteText minute' ++ text')) = true := by
  have hyear := year_lt h'
  have hmonth := (Date.ofNumber (minute' / 1440 + epoch.number)).month_le
  have hday : (Date.ofNumber (minute' / 1440 + epoch.number)).day ≤ 31 :=
    (Date.ofNumber _).day_le.trans (daysInMonth_le _ _)
  unfold minuteText
  simp only [List.append_assoc, List.cons_append]
  rcases Nat.lt_or_eq_of_le (Nat.div_le_div_right (c := 1440) h.le) with hdate | hdate
  · -- The dates differ: in the year, the month or the day.
    have hnumber : (Date.ofNumber (minute / 1440 + epoch.number)).number <
        (Date.ofNumber (minute' / 1440 + epoch.number)).number := by
      rw [number_ofNumber, number_ofNumber]
      omega
    rcases Date.lt_cases hnumber with hlt | ⟨heq, hlt | ⟨heq', hlt⟩⟩
    · exact lexLt_field hlt hyear _ _
    · rw [heq, lexLt_same, lexLt_next]
      exact lexLt_field hlt (by omega) _ _
    · rw [heq, lexLt_same, lexLt_next, heq', lexLt_same, lexLt_next]
      exact lexLt_field hlt (by omega) _ _
  · -- The dates are the same, so the time differs.
    rw [hdate, lexLt_same, lexLt_next, lexLt_same, lexLt_next, lexLt_same, lexLt_next]
    rcases Nat.lt_or_eq_of_le (show minute % 1440 / 60 ≤ minute' % 1440 / 60 by omega) with hlt | heq
    · exact lexLt_field hlt (by omega) _ _
    · rw [heq, lexLt_same, lexLt_next]
      exact lexLt_field (by omega) (by omega) _ _

/-- **The earlier instant has the smaller text**, if both are as far into their minute. -/
theorem instantText_lt {t t' : Int} (h : t < t') (ht : 0 ≤ t) (ht' : InYears t')
    (hsame : t % 60000000000 = t' % 60000000000) :
    lexLt (codeUnits (instantText t).toList) (codeUnits (instantText t').toList) = true := by
  have hbound := ht'.2
  have hyear : year10000 = 253402300800000 := rfl
  unfold instantText
  rw [String.toList_ofList, String.toList_ofList]
  exact minuteText_lt (by omega) (by omega) _ _

/-! ### The result -/

/-- `start - off` minutes. -/
def fireTime (start : WrittenInstant) (off : Int) : Int :=
  start.epochNanoseconds - off * 60000000000

/-- The fire times that are later than `now`, in whole milliseconds. -/
def futureFires (start : WrittenInstant) (offsets : List Int) (now : WrittenInstant) : List Int :=
  (offsets.map (fireTime start)).filter fun t =>
    decide (epochMilliseconds t > epochMilliseconds now.epochNanoseconds)

section Result

variable {start now : WrittenInstant} {offsets : List Int}

theorem InYears.representable {t : Int} (h : InYears t) : Representable t := by
  have hyear : year10000 = 253402300800000 := rfl
  unfold InYears at h
  unfold Representable
  omega

theorem addMinutes_eq (start : WrittenInstant) (off : Int) :
    addMinutes start.epochNanoseconds (-off) = instant (fireTime start off) := by
  have hsum : start.epochNanoseconds + -off * 60000000000 = fireTime start off := by
    unfold fireTime
    omega
  unfold addMinutes
  rw [hsum]

/-- The loop keeps the fire times that are ahead, in the order of the offsets. -/
theorem fireLoop_eq (h : ∀ off ∈ offsets, Representable (fireTime start off)) :
    fireLoop start.epochNanoseconds now.epochNanoseconds offsets =
      .ok ((futureFires start offsets now).map instantText) := by
  induction offsets with
  | nil => rfl
  | cons off offsets ih =>
    rw [List.forall_mem_cons] at h
    rw [fireLoop, addMinutes_eq, instant_ok h.1, ih h.2]
    show (if epochMilliseconds (fireTime start off) > epochMilliseconds now.epochNanoseconds then
      Except.ok _ else Except.ok _) = _
    unfold futureFires
    rw [List.map_cons, List.filter_cons]
    by_cases hahead : epochMilliseconds (fireTime start off) > epochMilliseconds now.epochNanoseconds
    · simp [hahead]
    · simp [hahead]

/-- All fire times are as far into their minute as the start. -/
theorem fireTime_emod (start : WrittenInstant) (off : Int) :
    fireTime start off % 60000000000 = start.epochNanoseconds % 60000000000 := by
  unfold fireTime
  omega

/-- Texts of fire times are ordered like the times. -/
theorem sortTexts_map {times : List Int} (hyears : ∀ t ∈ times, InYears t)
    (hsame : ∀ t ∈ times, t % 60000000000 = start.epochNanoseconds % 60000000000) :
    sortTexts (times.map instantText) =
      (times.mergeSort fun t t' => decide (t ≤ t')).map instantText := by
  unfold sortTexts
  refine (List.map_mergeSort fun t ht t' ht' => ?_).symm
  rcases Int.lt_trichotomy t t' with hlt | rfl | hlt
  · have hless := instantText_lt hlt (hyears t ht).1 (hyears t' ht') ((hsame t ht).trans (hsame t' ht').symm)
    rw [lexLt_asymm hless, decide_eq_true hlt.le]
    rfl
  · rw [lexLt_irrefl, decide_eq_true (Int.le_refl t)]
    rfl
  · have hless := instantText_lt hlt (hyears t' ht').1 (hyears t ht) ((hsame t' ht').trans (hsame t ht).symm)
    rw [hless, decide_eq_false (Int.not_le.mpr hlt)]
    rfl

/-- **The future reminders**, each as often as its offset occurs, in the order of time. -/
theorem reminderFireTimes_eq (hstart : InYears start.epochNanoseconds)
    (hnow : InYears now.epochNanoseconds)
    (hfires : ∀ off ∈ offsets, Representable (fireTime start off))
    (hresults : ∀ t ∈ futureFires start offsets now, InYears t) :
    ∃ times : List Int, times.Perm (futureFires start offsets now) ∧ times.Pairwise (· ≤ ·) ∧
      reminderFireTimes start offsets now = .ok (times.map instantText) := by
  have hsame : ∀ t ∈ futureFires start offsets now,
      t % 60000000000 = start.epochNanoseconds % 60000000000 := by
    intro t ht
    obtain ⟨off, -, rfl⟩ := List.mem_map.mp (List.mem_filter.mp ht).1
    exact fireTime_emod start off
  refine ⟨(futureFires start offsets now).mergeSort fun t t' => decide (t ≤ t'),
    List.mergeSort_perm _ _, List.pairwise_mergeSort' (· ≤ ·) _, ?_⟩
  unfold reminderFireTimes instantFrom
  rw [instant_ok hstart.representable, instant_ok hnow.representable]
  show (fireLoop start.epochNanoseconds now.epochNanoseconds offsets >>= _) = _
  rw [fireLoop_eq hfires]
  show Except.ok (sortTexts _) = _
  -- The texts are sorted, and so are the times that they are printed from.
  rw [sortTexts_map hresults hsame]

/-- A fire time out of range ends the loop. -/
theorem fireLoop_error {off : Int} (hoff : off ∈ offsets) (hfire : ¬ Representable (fireTime start off)) :
    fireLoop start.epochNanoseconds now.epochNanoseconds offsets = .error .rangeError := by
  induction offsets with
  | nil => cases hoff
  | cons off' offsets ih =>
    rw [fireLoop]
    by_cases hfirst : Representable (fireTime start off')
    · have hlater : off ∈ offsets := by
        rcases List.mem_cons.mp hoff with rfl | hmem
        · exact absurd hfirst hfire
        · exact hmem
      rw [addMinutes_eq, instant_ok hfirst, ih hlater]
      rfl
    · have hthrows : instant (fireTime start off') = .error .rangeError := if_neg hfirst
      rw [addMinutes_eq, hthrows]
      rfl

/-- Then the call throws. -/
theorem reminderFireTimes_error (hstart : InYears start.epochNanoseconds)
    (hnow : InYears now.epochNanoseconds) {off : Int} (hoff : off ∈ offsets)
    (hfire : ¬ Representable (fireTime start off)) :
    reminderFireTimes start offsets now = .error .rangeError := by
  unfold reminderFireTimes instantFrom
  rw [instant_ok hstart.representable, instant_ok hnow.representable]
  show (fireLoop start.epochNanoseconds now.epochNanoseconds offsets >>= _) = _
  rw [fireLoop_error hoff hfire]
  rfl

end Result

/-- The reminder of a day before fires in the millisecond of `now`, so it is left out. -/
theorem reminderFireTimes_sample : ∃ times : List Int,
    times.Perm (futureFires dayAfterInNewYork [60, -10, 1440, 60] newYearInKolkata) ∧ times.Pairwise (· ≤ ·) ∧
      reminderFireTimes dayAfterInNewYork [60, -10, 1440, 60] newYearInKolkata = .ok (times.map instantText) :=
  reminderFireTimes_eq ⟨by decide, by decide⟩ ⟨by decide, by decide⟩ (by decide) (by decide +kernel)

end Chronos
