import Mathlib.Tactic.Common
import Mathlib.Tactic.IntervalCases

namespace Calendar

/-!
# Dates of the Gregorian calendar

A `Date` is a year, a month and a day that exists in it.  Every date has a `number`, the days
since the first of January of year 0; `Date.next` is the date with the next number, and
`Date.ofNumber` finds the date of a number.

`number_injective`, `number_next` and `number_ofNumber` are what the rest of a development
needs: dates are ordered, counted and enumerated by their numbers.
-/

/-- The leap years of the Gregorian calendar. -/
def isLeap (year : Nat) : Bool :=
  year % 4 = 0 && (year % 100 ≠ 0 || year % 400 = 0)

def daysInMonth (year month : Nat) : Nat :=
  match month with
  | 2 => if isLeap year then 29 else 28
  | 4 => 30
  | 6 => 30
  | 9 => 30
  | 11 => 30
  | _ => 31

/-- A date that exists. -/
@[ext]
structure Date where
  year : Nat
  month : Nat
  day : Nat
  month_pos : 1 ≤ month
  month_le : month ≤ 12
  day_pos : 1 ≤ day
  day_le : day ≤ daysInMonth year month
  deriving DecidableEq

/-- The days of the years before `year`: every fourth year has one more, but for the centuries
    that are no multiple of 400. -/
def daysBeforeYear (year : Nat) : Nat :=
  365 * year + (year + 3) / 4 + (year + 399) / 400 - (year + 99) / 100

/-- The days of a year before its month `month`; the thirteenth month is the next year. -/
def daysBeforeMonth (year month : Nat) : Nat :=
  let leap := if isLeap year then 1 else 0
  match month with
  | 1 => 0
  | 2 => 31
  | 3 => 59 + leap
  | 4 => 90 + leap
  | 5 => 120 + leap
  | 6 => 151 + leap
  | 7 => 181 + leap
  | 8 => 212 + leap
  | 9 => 243 + leap
  | 10 => 273 + leap
  | 11 => 304 + leap
  | 12 => 334 + leap
  | _ => 365 + leap

theorem daysBeforeMonth_succ (year month : Nat) (hpos : 1 ≤ month) (hle : month ≤ 12) :
    daysBeforeMonth year (month + 1) = daysBeforeMonth year month + daysInMonth year month := by
  rcases Nat.lt_or_ge month 2 with h | h
  · obtain rfl : month = 1 := by omega
    simp [daysBeforeMonth, daysInMonth]
  · interval_cases month <;> simp [daysBeforeMonth, daysInMonth] <;> split <;> omega

theorem daysBeforeYear_succ (year : Nat) :
    daysBeforeYear (year + 1) = daysBeforeYear year + daysBeforeMonth year 13 := by
  have hfour : (year + 1 + 3) / 4 = (year + 3) / 4 + if year % 4 = 0 then 1 else 0 := by
    split <;> omega
  have hcentury : (year + 1 + 99) / 100 = (year + 99) / 100 + if year % 100 = 0 then 1 else 0 := by
    split <;> omega
  have hcycle : (year + 1 + 399) / 400 = (year + 399) / 400 + if year % 400 = 0 then 1 else 0 := by
    split <;> omega
  have hle : (year + 99) / 100 ≤ year := by omega
  have hof4 : year % 100 = 0 → year % 4 = 0 := by omega
  have hof100 : year % 400 = 0 → year % 100 = 0 := by omega
  simp only [daysBeforeYear, daysBeforeMonth, hfour, hcentury, hcycle, isLeap]
  by_cases h4 : year % 4 = 0 <;> by_cases h100 : year % 100 = 0 <;>
    by_cases h400 : year % 400 = 0 <;> simp [h4, h100, h400] at hof4 hof100 ⊢ <;> omega

/-! ### Numbers -/

/-- The days since the first of January of year 0. -/
def Date.number (d : Date) : Nat :=
  daysBeforeYear d.year + daysBeforeMonth d.year d.month + (d.day - 1)

theorem daysBeforeMonth_mono (year : Nat) {m m' : Nat} (hm : 1 ≤ m) (h : m ≤ m') (hm' : m' ≤ 13) :
    daysBeforeMonth year m ≤ daysBeforeMonth year m' := by
  induction m', h using Nat.le_induction with
  | base => exact le_refl _
  | succ n hmn ih =>
    have hstep := daysBeforeMonth_succ year n (by omega) (by omega)
    have hprev := ih (by omega)
    omega

theorem daysBeforeYear_mono {y y' : Nat} (h : y ≤ y') : daysBeforeYear y ≤ daysBeforeYear y' := by
  induction y', h using Nat.le_induction with
  | base => exact le_refl _
  | succ n _ ih =>
    have hstep := daysBeforeYear_succ n
    omega

/-- The number of a date lies in its year, and in its month. -/
theorem Date.number_lt (d : Date) :
    daysBeforeYear d.year + daysBeforeMonth d.year d.month ≤ d.number ∧
      d.number < daysBeforeYear d.year + daysBeforeMonth d.year (d.month + 1) := by
  have hmonth := daysBeforeMonth_succ d.year d.month d.month_pos d.month_le
  have hpos := d.day_pos
  have hle := d.day_le
  unfold Date.number
  omega

theorem Date.number_lt_year (d : Date) :
    daysBeforeYear d.year ≤ d.number ∧ d.number < daysBeforeYear (d.year + 1) := by
  have hlt := d.number_lt
  have hmonth := d.month_le
  have hlast : daysBeforeMonth d.year (d.month + 1) ≤ daysBeforeMonth d.year 13 :=
    daysBeforeMonth_mono d.year (by omega) (by omega) (le_refl 13)
  have hyear := daysBeforeYear_succ d.year
  omega

/-- Numbers go by years, -/
theorem Date.year_le {d d' : Date} (h : d.number ≤ d'.number) : d.year ≤ d'.year := by
  have hd := d.number_lt_year
  have hd' := d'.number_lt_year
  by_contra hlt
  have hle : daysBeforeYear (d'.year + 1) ≤ daysBeforeYear d.year := daysBeforeYear_mono (by omega)
  omega

/-- in a year by months, -/
theorem Date.month_le_of_year {d d' : Date} (hyear : d.year = d'.year) (h : d.number ≤ d'.number) :
    d.month ≤ d'.month := by
  have hd := d.number_lt
  have hd' := d'.number_lt
  rw [← hyear] at hd'
  by_contra hlt
  have hmonth := d.month_le
  have hle : daysBeforeMonth d.year (d'.month + 1) ≤ daysBeforeMonth d.year d.month :=
    daysBeforeMonth_mono d.year (by omega) (by omega) (by omega)
  omega

/-- and in a month by days. -/
theorem Date.day_le_of_month {d d' : Date} (hyear : d.year = d'.year) (hmonth : d.month = d'.month)
    (h : d.number ≤ d'.number) : d.day ≤ d'.day := by
  have hpos := d.day_pos
  have hpos' := d'.day_pos
  unfold Date.number at h
  rw [← hyear, ← hmonth] at h
  omega

/-- **A date is known by its number.** -/
theorem number_injective : Function.Injective Date.number := by
  intro d d' h
  have hyear : d.year = d'.year := Nat.le_antisymm (Date.year_le h.le) (Date.year_le h.ge)
  have hmonth : d.month = d'.month := Nat.le_antisymm (Date.month_le_of_year hyear h.le)
    (Date.month_le_of_year hyear.symm h.ge)
  have hday : d.day = d'.day := Nat.le_antisymm (Date.day_le_of_month hyear hmonth h.le)
    (Date.day_le_of_month hyear.symm hmonth.symm h.ge)
  exact Date.ext hyear hmonth hday

/-- The earlier of two dates has the smaller year, month or day, in this order. -/
theorem Date.lt_cases {d d' : Date} (h : d.number < d'.number) :
    d.year < d'.year ∨ d.year = d'.year ∧ (d.month < d'.month ∨ d.month = d'.month ∧ d.day < d'.day) := by
  rcases Nat.lt_or_eq_of_le (Date.year_le h.le) with hlt | hyear
  · exact .inl hlt
  refine .inr ⟨hyear, ?_⟩
  rcases Nat.lt_or_eq_of_le (Date.month_le_of_year hyear h.le) with hlt | hmonth
  · exact .inl hlt
  refine .inr ⟨hmonth, Nat.lt_of_le_of_ne (Date.day_le_of_month hyear hmonth h.le) ?_⟩
  intro hday
  have heq : d = d' := Date.ext hyear hmonth hday
  exact absurd (congrArg Date.number heq) h.ne

instance : LE Date := ⟨fun d d' => d.number ≤ d'.number⟩

instance (d d' : Date) : Decidable (d ≤ d') := inferInstanceAs (Decidable (d.number ≤ d'.number))

theorem Date.le_def {d d' : Date} : d ≤ d' ↔ d.number ≤ d'.number := Iff.rfl

/-! ### The day after -/

theorem one_le_daysInMonth (year month : Nat) : 1 ≤ daysInMonth year month := by
  unfold daysInMonth
  split
  · split <;> omega
  all_goals omega

theorem daysInMonth_le (year month : Nat) : daysInMonth year month ≤ 31 := by
  unfold daysInMonth
  split
  · split
    · decide
    · decide
  · decide
  · decide
  · decide
  · decide
  · decide

/-- The day after. -/
def Date.next (d : Date) : Date :=
  if hday : d.day < daysInMonth d.year d.month then
    { d with day := d.day + 1, day_pos := by omega, day_le := hday }
  else if hmonth : d.month < 12 then
    ⟨d.year, d.month + 1, 1, by omega, by omega, le_refl 1, one_le_daysInMonth _ _⟩
  else
    ⟨d.year + 1, 1, 1, le_refl 1, by omega, le_refl 1, one_le_daysInMonth _ _⟩

@[simp] theorem number_next (d : Date) : d.next.number = d.number + 1 := by
  have hmonth := daysBeforeMonth_succ d.year d.month d.month_pos d.month_le
  have hpos := d.day_pos
  have hle := d.day_le
  unfold Date.next
  split
  · show daysBeforeYear d.year + daysBeforeMonth d.year d.month + (d.day + 1 - 1) = d.number + 1
    unfold Date.number
    omega
  · next hday =>
    split
    · show daysBeforeYear d.year + daysBeforeMonth d.year (d.month + 1) + (1 - 1) = d.number + 1
      unfold Date.number
      omega
    · next hlast =>
      have hyear := daysBeforeYear_succ d.year
      have hdec : d.month = 12 := le_antisymm d.month_le (by omega)
      rw [hdec] at hmonth hday hle
      have hlength : daysBeforeMonth d.year 13 = daysBeforeMonth d.year 12 + daysInMonth d.year 12 :=
        hmonth
      show daysBeforeYear (d.year + 1) + daysBeforeMonth (d.year + 1) 1 + (1 - 1) = d.number + 1
      have hfirst : daysBeforeMonth (d.year + 1) 1 = 0 := rfl
      unfold Date.number
      rw [hdec]
      omega

theorem Date.eq_next_of_number {d d' : Date} (h : d'.number = d.number + 1) : d' = d.next :=
  number_injective (by rw [h, number_next])

/-! ### The date of a number -/

/-- The year of a number: a year has 365.2425 days on average, so the quotient is off by one at
    most. -/
def yearOf (n : Nat) : Nat :=
  let guess := n * 400 / 146097
  if daysBeforeYear (guess + 1) ≤ n then guess + 1
  else if daysBeforeYear guess ≤ n then guess
  else guess - 1

theorem yearOf_spec (n : Nat) :
    daysBeforeYear (yearOf n) ≤ n ∧ n < daysBeforeYear (yearOf n + 1) := by
  unfold yearOf
  generalize hguess : n * 400 / 146097 = guess
  have hlow : 146097 * guess ≤ n * 400 := by omega
  have hhigh : n * 400 < 146097 * (guess + 1) := by omega
  dsimp only
  split
  · next h =>
    refine ⟨h, ?_⟩
    unfold daysBeforeYear
    omega
  · next hbefore =>
    split
    · next h => exact ⟨h, by omega⟩
    · next h =>
      have hpos : 0 < guess := by
        rcases Nat.eq_zero_or_pos guess with rfl | hpos
        · exact absurd (Nat.zero_le n) h
        · exact hpos
      have hback : guess - 1 + 1 = guess := by omega
      rw [hback]
      refine ⟨?_, by omega⟩
      unfold daysBeforeYear
      omega

/-- The last of the first `m` months that begins by day `n` of the year. -/
def monthUpTo (year n : Nat) : Nat → Nat
  | 0 => 0
  | m + 1 => if daysBeforeMonth year (m + 1) ≤ n then m + 1 else monthUpTo year n m

theorem monthUpTo_spec (year n m : Nat) (hm : m ≤ 12) (h : n < daysBeforeMonth year (m + 1)) :
    1 ≤ monthUpTo year n m ∧ monthUpTo year n m ≤ m ∧
      daysBeforeMonth year (monthUpTo year n m) ≤ n ∧
      n < daysBeforeMonth year (monthUpTo year n m + 1) := by
  induction m with
  | zero =>
    -- No day is before the first month.
    have hfirst : daysBeforeMonth year (0 + 1) = 0 := rfl
    omega
  | succ m ih =>
    unfold monthUpTo
    split
    · next hle => exact ⟨by omega, le_refl _, hle, h⟩
    · next hlt =>
      obtain ⟨hpos, hle, hlow, hhigh⟩ := ih (by omega) (by omega)
      exact ⟨hpos, by omega, hlow, hhigh⟩

/-- The month in which day `n` of the year lies. -/
def monthOf (year n : Nat) : Nat := monthUpTo year n 12

theorem monthOf_spec {year n : Nat} (h : n < daysBeforeMonth year 13) :
    1 ≤ monthOf year n ∧ monthOf year n ≤ 12 ∧ daysBeforeMonth year (monthOf year n) ≤ n ∧
      n < daysBeforeMonth year (monthOf year n + 1) :=
  monthUpTo_spec year n 12 (le_refl 12) h

theorem dayOfYear_lt (n : Nat) : n - daysBeforeYear (yearOf n) < daysBeforeMonth (yearOf n) 13 := by
  have hyear := yearOf_spec n
  have hsucc := daysBeforeYear_succ (yearOf n)
  omega

theorem dayOfMonth_le {year n : Nat} (h : n < daysBeforeMonth year 13) :
    n - daysBeforeMonth year (monthOf year n) + 1 ≤ daysInMonth year (monthOf year n) := by
  obtain ⟨hpos, hle, hlow, hhigh⟩ := monthOf_spec h
  have hmonth := daysBeforeMonth_succ year (monthOf year n) hpos hle
  omega

/-- The date with a number. -/
def Date.ofNumber (n : Nat) : Date :=
  let year := yearOf n
  let dayOfYear := n - daysBeforeYear year
  { year := year
    month := monthOf year dayOfYear
    day := dayOfYear - daysBeforeMonth year (monthOf year dayOfYear) + 1
    month_pos := (monthOf_spec (dayOfYear_lt n)).1
    month_le := (monthOf_spec (dayOfYear_lt n)).2.1
    day_pos := by omega
    day_le := dayOfMonth_le (dayOfYear_lt n) }

@[simp] theorem number_ofNumber (n : Nat) : (Date.ofNumber n).number = n := by
  have hyear := yearOf_spec n
  obtain ⟨-, -, hlow, -⟩ := monthOf_spec (dayOfYear_lt n)
  show daysBeforeYear (yearOf n) + daysBeforeMonth (yearOf n) (monthOf (yearOf n) _) + (_ + 1 - 1) = n
  omega

@[simp] theorem ofNumber_number (d : Date) : Date.ofNumber d.number = d :=
  number_injective (number_ofNumber _)

/-- The date of a year, a month and a day, if it exists. -/
def dateOf (year month day : Nat) : Option Date :=
  if h : (1 ≤ month ∧ month ≤ 12) ∧ 1 ≤ day ∧ day ≤ daysInMonth year month then
    some ⟨year, month, day, h.1.1, h.1.2, h.2.1, h.2.2⟩
  else none

theorem dateOf_date (d : Date) : dateOf d.year d.month d.day = some d :=
  dif_pos ⟨⟨d.month_pos, d.month_le⟩, d.day_pos, d.day_le⟩

/-! ### Days of the week -/

/-- The day of the week in ISO 8601, Monday is 1: the first of January of year 0 is a Saturday. -/
def Date.weekday (d : Date) : Nat := (d.number + 5) % 7 + 1

/-- The first of January 1970, a Thursday. -/
def epoch : Date := ⟨1970, 1, 1, le_refl 1, by omega, le_refl 1, by decide⟩

example : epoch.number = 719528 ∧ epoch.weekday = 4 := by decide

end Calendar
