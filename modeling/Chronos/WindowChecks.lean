import Chronos.Lifecycle
import Chronos.Reschedule
import Chronos.TimeCore

namespace Chronos

/-!
# The four checks of the cancellation window

The policy is coded four times: `isCancellable` compares instants of Temporal, to the nanosecond;
`evaluateCancellation` and `rescheduleBooking` compare `now` with a deadline, and
`LifecycleService.cancel` the time that remains with the window, all of them as numbers of
milliseconds.

* `getTime_eq` — `Date` and Temporal take a text for the same millisecond, whatever its offset.
* `windowExpired_eq_number`, `windowViolated_eq_number` — in range, the numbers are not rounded where
  it matters.
* `window_checks_agree` — the four verdicts.
-/

/-! ### Numbers -/

/-- `n / unit`, rounded to the nearest integer; halves to the even one. -/
def roundHalfEven (n unit : Nat) : Nat :=
  if 2 * (n % unit) < unit then n / unit
  else if unit < 2 * (n % unit) then n / unit + 1
  else if n / unit % 2 = 0 then n / unit
  else n / unit + 1

/-- The number for an integer: the nearest with a significand of 53 bits. -/
def toNumber (x : Int) : Int :=
  if x.natAbs ≤ 2 ^ 53 then x
  else
    let unit := 2 ^ (x.natAbs.log2 - 52)
    x.sign * (roundHalfEven x.natAbs unit * unit : Nat)

/-- `a - b`. -/
def numberSub (a b : Int) : Int := toNumber (a - b)

/-- `a * b`. -/
def numberMul (a b : Int) : Int := toNumber (a * b)

/-- `windowHours * 60 * 60 * 1000`. -/
def windowMs (windowHours : Int) : Int :=
  numberMul (numberMul (numberMul windowHours 60) 60) 1000

section Number

variable {x : Int}

theorem toNumber_of_le (h : x.natAbs ≤ 2 ^ 53) : toNumber x = x := if_pos h

/-- Rounding does not cross a multiple of the unit. -/
theorem le_roundHalfEven {n unit : Nat} : n / unit ≤ roundHalfEven n unit := by
  unfold roundHalfEven
  split
  · exact Nat.le_refl _
  · split
    · omega
    · split
      · exact Nat.le_refl _
      · omega

/-- A large integer stays large. -/
theorem le_toNumber (h : 2 ^ 53 < x) : 2 ^ 53 ≤ toNumber x := by
  have hlarge : 2 ^ 53 < x.natAbs := by omega
  have hsign : x.sign = 1 := Int.sign_eq_one_of_pos (by omega)
  have hlog : 53 ≤ x.natAbs.log2 := (Nat.le_log2 (by omega)).mpr hlarge.le
  have hpow : 2 ^ x.natAbs.log2 ≤ x.natAbs := Nat.log2_self_le (by omega)
  unfold toNumber
  rw [if_neg (by omega), hsign, Int.one_mul]
  -- The significand has its leading bit.
  have hunit : 2 ^ x.natAbs.log2 = 2 ^ 52 * 2 ^ (x.natAbs.log2 - 52) := by
    rw [← Nat.pow_add]
    congr 1
    omega
  have hquotient : 2 ^ 52 ≤ x.natAbs / 2 ^ (x.natAbs.log2 - 52) := by
    rw [Nat.le_div_iff_mul_le (by positivity), ← hunit]
    exact hpow
  have hrounded : 2 ^ x.natAbs.log2 ≤
      roundHalfEven x.natAbs (2 ^ (x.natAbs.log2 - 52)) * 2 ^ (x.natAbs.log2 - 52) := by
    rw [hunit]
    exact Nat.mul_le_mul_right _ (hquotient.trans le_roundHalfEven)
  have hbig : 2 ^ 53 ≤ 2 ^ x.natAbs.log2 := Nat.pow_le_pow_right (by omega) hlog
  exact_mod_cast hbig.trans hrounded

/-- Rounding is the same on both sides of zero. -/
theorem toNumber_neg : toNumber (-x) = -toNumber x := by
  unfold toNumber
  rw [Int.natAbs_neg, Int.sign_neg]
  split
  · rfl
  · exact Int.neg_mul _ _

/-- A large negative integer stays negative. -/
theorem toNumber_le (h : x < -2 ^ 53) : toNumber x ≤ -2 ^ 53 := by
  have hneg : 2 ^ 53 ≤ toNumber (-x) := le_toNumber (by omega)
  rw [toNumber_neg] at hneg
  omega

/-- The window is exact. -/
theorem windowMs_eq {h : Nat} (hle : (h : Int) * 3600000 ≤ 8640000000000000) :
    windowMs h = h * 3600000 := by
  unfold windowMs numberMul
  rw [toNumber_of_le (x := (h : Int) * 60) (by omega),
    toNumber_of_le (x := (h : Int) * 60 * 60) (by omega), toNumber_of_le (by omega)]
  omega

end Number

/-! ### Instants -/

/-- The text of an instant: what the clock shows, and how far it is ahead of UTC. -/
structure WrittenInstant where
  clockSeconds : Int
  nanosecond : Fin 1000000000
  offsetMinutes : Int
  offset_lt : offsetMinutes.natAbs < 1440

namespace WrittenInstant

def utcSeconds (text : WrittenInstant) : Int := text.clockSeconds - text.offsetMinutes * 60

/-- What Temporal keeps of it. -/
def epochNanoseconds (text : WrittenInstant) : Int :=
  text.utcSeconds * 1000000000 + text.nanosecond.val

/-- What `Date` keeps of it: of the fraction, the first three digits. -/
def getTime (text : WrittenInstant) : Int :=
  text.utcSeconds * 1000 + (text.nanosecond.val / 1000000 : Nat)

end WrittenInstant

/-- `epochMilliseconds` of the instant `t` of Temporal. -/
def epochMilliseconds (t : Int) : Int := t / 1000000

/-- The nanoseconds that are an instant of Temporal; to the millisecond, `Date` has the same. -/
def Representable (t : Int) : Prop :=
  -8640000000000000000000 ≤ t ∧ t ≤ 8640000000000000000000

instance (t : Int) : Decidable (Representable t) :=
  inferInstanceAs (Decidable (_ ∧ _))

/-- An instant of Temporal, or the `RangeError`. -/
def instant (t : Int) : Except Time.TimeError Int :=
  if Representable t then .ok t else .error .rangeError

theorem instant_ok {t : Int} (h : Representable t) : instant t = .ok t := if_pos h

/-- `T.Instant.from(text)`. -/
def instantFrom (text : WrittenInstant) : Except Time.TimeError Int :=
  instant text.epochNanoseconds

/-- `t.add(T.Duration.from({ milliseconds }))`: what is no duration is out of range as well. -/
def addMilliseconds (t milliseconds : Int) : Except Time.TimeError Int :=
  instant (t + milliseconds * 1000000)

def isCancellable (now slotStart : WrittenInstant) (windowHours : Int) :
    Except Time.TimeError Bool := do
  let nowInst ← instantFrom now
  let startInst ← instantFrom slotStart
  let deadline ← addMilliseconds startInst (-windowMs windowHours)
  pure (decide (epochMilliseconds nowInst ≤ epochMilliseconds deadline))

/-- `nowMs > startMs - windowMs`, as `evaluateCancellation` and `rescheduleBooking` compute it. -/
def pastDeadline (windowHours : Int) (startMs nowMs : Int) : Bool :=
  decide (nowMs > numberSub startMs (windowMs windowHours))

/-- `slotStart - now < windowMs`, as `LifecycleService.cancel` computes it. -/
def remainsTooLittle (windowHours : Int) (slotStart now : Int) : Bool :=
  decide (numberSub slotStart now < windowMs windowHours)

/-! ### The verdict -/

/-- The window is in the range of both libraries, and so are the instants and the deadline. -/
structure InRange (now start : WrittenInstant) (h : Nat) : Prop where
  nowInst : Representable now.epochNanoseconds
  startInst : Representable start.epochNanoseconds
  window : Representable (h * 3600000000000)
  deadline : Representable (start.epochNanoseconds - h * 3600000000000)

/-- From `now` to `start` it is `h` hours at least, in whole milliseconds. -/
def HoursRemain (now start : WrittenInstant) (h : Nat) : Prop :=
  (h : Int) * 3600000 ≤
    epochMilliseconds start.epochNanoseconds - epochMilliseconds now.epochNanoseconds

instance (now start : WrittenInstant) (h : Nat) : Decidable (HoursRemain now start h) :=
  inferInstanceAs (Decidable (_ ≤ _))

/-- **`Date` and Temporal agree** on the millisecond. -/
theorem getTime_eq (text : WrittenInstant) :
    text.getTime = epochMilliseconds text.epochNanoseconds := by
  unfold WrittenInstant.getTime epochMilliseconds WrittenInstant.epochNanoseconds
  omega

/-- A later `now` and a longer window leave less. -/
theorem HoursRemain.anti {now now' start : WrittenInstant} {h h' : Nat}
    (hnow : now.epochNanoseconds ≤ now'.epochNanoseconds) (hh : h ≤ h')
    (hremain : HoursRemain now' start h') : HoursRemain now start h := by
  unfold HoursRemain epochMilliseconds at hremain ⊢
  omega

section Verdict

variable {now start : WrittenInstant} {h : Nat}

/-- In range, the window is a whole number of milliseconds. -/
theorem InRange.windowMs_eq (hrange : InRange now start h) : windowMs h = h * 3600000 := by
  have hwindow := hrange.window.2
  apply Chronos.windowMs_eq
  omega

/-- What the verdict is, on the numbers of `Date`. -/
theorem hoursRemain_iff :
    HoursRemain now start h ↔ (h : Int) * 3600000 ≤ start.getTime - now.getTime := by
  rw [getTime_eq, getTime_eq]
  exact Iff.rfl

/-- **Temporal.**  No call throws, and the nanoseconds do not matter. -/
theorem isCancellable_eq (hrange : InRange now start h) :
    isCancellable now start h = .ok (decide (HoursRemain now start h)) := by
  have hdeadline : start.epochNanoseconds + -windowMs h * 1000000 =
      start.epochNanoseconds - h * 3600000000000 := by
    rw [hrange.windowMs_eq]
    omega
  unfold isCancellable instantFrom
  rw [instant_ok hrange.nowInst, instant_ok hrange.startInst]
  show addMilliseconds start.epochNanoseconds (-windowMs h) >>= _ = _
  unfold addMilliseconds
  rw [hdeadline, instant_ok hrange.deadline]
  show Except.ok (decide _) = Except.ok (decide _)
  rw [Except.ok.injEq, decide_eq_decide]
  unfold HoursRemain epochMilliseconds
  omega

/-- **The deadline** is computed without rounding. -/
theorem pastDeadline_eq (hrange : InRange now start h) :
    pastDeadline h start.getTime now.getTime = !decide (HoursRemain now start h) := by
  have hstart := hrange.startInst
  have hdeadline := hrange.deadline
  have hms := getTime_eq start
  unfold Representable at hstart hdeadline
  unfold epochMilliseconds at hms
  -- The deadline in whole milliseconds is within `2 ^ 53`.
  unfold pastDeadline numberSub
  rw [hrange.windowMs_eq, toNumber_of_le (by omega), ← decide_not, decide_eq_decide,
    hoursRemain_iff]
  omega

/-- **The remaining time** may be rounded, but then it is longer than any window, or the slot is
    long past. -/
theorem remainsTooLittle_eq (hrange : InRange now start h) :
    remainsTooLittle h start.getTime now.getTime = !decide (HoursRemain now start h) := by
  have hwindow := hrange.window.2
  unfold remainsTooLittle numberSub
  rw [hrange.windowMs_eq, ← decide_not, decide_eq_decide, hoursRemain_iff]
  generalize start.getTime - now.getTime = remainingMs
  rcases Int.lt_or_le (2 ^ 53) remainingMs with hlong | hlong
  · -- Rounded or not, it exceeds every window in range.
    have hrounded := le_toNumber hlong
    omega
  · rcases Int.lt_or_le remainingMs (-2 ^ 53) with hpast | hpast
    · -- Rounded or not, it is negative.
      have hrounded := toNumber_le hpast
      omega
    · rw [toNumber_of_le (by omega)]
      omega

/-- The deadline of the model is the one of the numbers. -/
theorem windowExpired_eq_number (hrange : InRange now start h) :
    (JsNumber.rat h).windowExpired start.getTime now.getTime =
      pastDeadline h start.getTime now.getTime := by
  rw [pastDeadline_eq hrange, ← decide_not]
  show decide _ = decide _
  rw [decide_eq_decide, hoursRemain_iff, gt_iff_lt]
  constructor
  · intro hlate hremain
    have hremain' : (h : ℚ) * 3600000 ≤ start.getTime - now.getTime := by exact_mod_cast hremain
    linarith
  · intro hlate
    have hlate' : (start.getTime : ℚ) - now.getTime < h * 3600000 := by
      exact_mod_cast Int.not_le.mp hlate
    linarith

/-- So is the remaining time. -/
theorem windowViolated_eq_number (hrange : InRange now start h) :
    windowViolated (.rat h) start.getTime now.getTime =
      remainsTooLittle h start.getTime now.getTime := by
  rw [windowViolated_eq_windowExpired, windowExpired_eq_number hrange, pastDeadline_eq hrange,
    remainsTooLittle_eq hrange]

/-- `evaluateCancellation` on a booking that it may cancel: only the window is left. -/
theorem evaluateCancellation_booked (req : CancelRequest) {v : Int} (hv : req.ifMatch = some v) :
    (evaluateCancellation req .booked v).allowed =
      !req.cancellationWindowHours.windowExpired req.slotStartUtc req.nowUtc := by
  rw [Bool.eq_iff_iff, evaluateCancellation_allowed, Bool.not_eq_true']
  constructor
  · intro h
    exact h.2.2
  · intro h
    exact ⟨rfl, hv, h⟩

end Verdict

/-- **The four window checks agree.**  For all texts of instants and windows in range,
    `isCancellable`, `evaluateCancellation` on a `booked` booking of the version asked for, and the
    tests of `rescheduleBooking` and of `LifecycleService.cancel` say whether the window's hours
    remain in whole milliseconds: with exact numbers, and with those of JavaScript.  Later, or
    with a longer window, the verdict only gets stricter. -/
theorem window_checks_agree (now start : WrittenInstant) (h : Nat) (hrange : InRange now start h)
    (v : Int) (req : RescheduleRequest) (slot : Slot) :
    isCancellable now start h = .ok (decide (HoursRemain now start h)) ∧
    (evaluateCancellation ⟨some v, now.getTime, .rat h, start.getTime⟩ .booked v).allowed =
      decide (HoursRemain now start h) ∧
    (!{ req with cancellationWindowHours := .number (.rat h) }.windowExpired
        (some { slot with slotStartUtc := start.getTime }) now.getTime) =
      decide (HoursRemain now start h) ∧
    (!windowViolated (.rat h) start.getTime now.getTime) = decide (HoursRemain now start h) ∧
    (!pastDeadline h start.getTime now.getTime) = decide (HoursRemain now start h) ∧
    (!remainsTooLittle h start.getTime now.getTime) = decide (HoursRemain now start h) ∧
    ∀ now' : WrittenInstant, ∀ h', now.epochNanoseconds ≤ now'.epochNanoseconds → h ≤ h' →
      HoursRemain now' start h' → HoursRemain now start h := by
  have hpast : (!pastDeadline h start.getTime now.getTime) = decide (HoursRemain now start h) := by
    rw [pastDeadline_eq hrange, Bool.not_not]
  have hlittle : (!remainsTooLittle h start.getTime now.getTime) =
      decide (HoursRemain now start h) := by
    rw [remainsTooLittle_eq hrange, Bool.not_not]
  have hexpired : (!(JsNumber.rat h).windowExpired start.getTime now.getTime) =
      decide (HoursRemain now start h) := by
    rw [windowExpired_eq_number hrange, hpast]
  refine ⟨isCancellable_eq hrange, ?_, ?_, ?_, hpast, hlittle, fun now' h' hnow hh => ?_⟩
  · rw [evaluateCancellation_booked _ rfl]
    exact hexpired
  · exact hexpired
  · rw [windowViolated_eq_number hrange, hlittle]
  · exact HoursRemain.anti hnow hh

/-- New Year 2026 in UTC, and almost a microsecond, as Kolkata writes it. -/
def newYearInKolkata : WrittenInstant := ⟨1767225600 + 19800, 999, 330, by decide⟩

/-- A day after New Year 2026 in UTC, as New York writes it. -/
def dayAfterInNewYork : WrittenInstant := ⟨1767312000 - 18000, 0, -300, by decide⟩

/-- A day remains to the millisecond, though not to the nanosecond. -/
theorem day_remains :
    isCancellable newYearInKolkata dayAfterInNewYork 24 = .ok true ∧
    (evaluateCancellation ⟨some 1, newYearInKolkata.getTime, .rat 24, dayAfterInNewYork.getTime⟩
      .booked 1).allowed = true ∧
    windowViolated (.rat 24) dayAfterInNewYork.getTime newYearInKolkata.getTime = false := by
  have hrange : InRange newYearInKolkata dayAfterInNewYork 24 :=
    ⟨by decide, by decide, by decide, by decide⟩
  have hremain : decide (HoursRemain newYearInKolkata dayAfterInNewYork 24) = true := by decide
  obtain ⟨htemporal, hevaluated, -, hviolated, -⟩ :=
    window_checks_agree newYearInKolkata dayAfterInNewYork 24 hrange 1
      ⟨5, .printed, 2, none, .number (.rat 1), .number (.rat 1), .undefined⟩
      ⟨7, 0, 3600000, .«open»⟩
  rw [hremain] at htemporal hevaluated hviolated
  exact ⟨htemporal, hevaluated, by simpa using hviolated⟩

/-- Beyond the range, a remaining time one millisecond short of the window is rounded up to it. -/
example : pastDeadline 2501999793 8640000000000000 (-367199254799999) = true ∧
    remainsTooLittle 2501999793 8640000000000000 (-367199254799999) = false := by decide

end Chronos
