import Chronos.Schema
import Chronos.Calendar.Zone

namespace Chronos.Time

open Calendar

/-!
# The time core

`resolveWallClock` and `generateSlots` of `packages/time`.  A time zone id is the zone it
stands for, a text `YYYY-MM-DD` the date it stands for, and the ISO text of an instant that
instant.

`generateSlots_eq` says what the two loops of `generateSlots` compute: the intervals the rules
ask for on the wall clock (`Rules.steps`), each end resolved by the policy `compatible`,
without those whose end is not after their start, in the order of the texts of their starts.
-/

/-- An exception: `new Error(message)`, or the `RangeError` of a call of Temporal. -/
inductive TimeError
  | error (message : String)
  | rangeError
  deriving DecidableEq, Repr

/-! ### `resolveWallClock` -/

inductive DisambiguationPolicy
  | compatible
  | earliest
  | latest
  | reject
  deriving DecidableEq

structure WallClockResult where
  instant : Instant
  disambiguated : Bool
  ambiguous : Bool
  deriving DecidableEq

/-- `YYYY-MM-DDThh:mm:ss`. -/
structure PlainDateTime where
  date : Date
  hour : Nat
  minute : Nat
  second : Nat
  deriving DecidableEq

/-- What the clock shows then; fields that no clock shows are constrained. -/
def PlainDateTime.reading (p : PlainDateTime) : Int :=
  p.date.start + ((min p.hour 23 * 60 + min p.minute 59) * 60 + min p.second 59) * 1000

/-- The instants Temporal knows. -/
def inRange (t : Instant) : Bool := decide (-8640000000000000 ≤ t ∧ t ≤ 8640000000000000)

/-- The policy is a field of the property bag, and Temporal takes `disambiguation` from its second
    argument: there is none, so every reading is resolved by `compatible`. -/
def resolveWallClock (tz : Zone) (plainDateTime : PlainDateTime) (_policy : DisambiguationPolicy) :
    Except TimeError WallClockResult :=
  match tz.resolve .compatible plainDateTime.reading with
  | none => .error .rangeError
  | some t => if inRange t then .ok ⟨t, true, false⟩ else .error .rangeError

/-! ### `generateSlots` -/

structure Slot where
  startUtc : Instant
  endUtc : Instant
  deriving DecidableEq

/-- There are hours in a day, and minutes in an hour: `Fin` has their numerals. -/
instance hoursNonzero : NeZero 24 := ⟨by decide⟩

instance minutesNonzero : NeZero 60 := ⟨by decide⟩

/-- `HH:MM`. -/
structure TimeOfDay where
  hour : Fin 24
  minute : Fin 60
  deriving DecidableEq

/-- `parseInt(text.split(':')[0], 10) * 60 + parseInt(text.split(':')[1] || '0', 10)`. -/
def TimeOfDay.minutes (time : TimeOfDay) : Nat := time.hour * 60 + time.minute

structure Rules where
  daysOfWeek : Option (List Int)
  startTime : Option TimeOfDay
  endTime : Option TimeOfDay

/-- `rules?.startTime ?? '09:00'`. -/
def startTimeOf (rules : Option Rules) : TimeOfDay := (rules.bind Rules.startTime).getD ⟨9, 0⟩

/-- `rules?.endTime ?? '17:00'`. -/
def endTimeOf (rules : Option Rules) : TimeOfDay := (rules.bind Rules.endTime).getD ⟨17, 0⟩

/-- `new Date(Date.UTC(yyyy, mm - 1, dd)).getUTCDay() || 7`: `Date.UTC` takes the years 0 to 99
    for 1900 to 1999. -/
def dayOfWeek (d : Date) : Nat :=
  let year := if d.year ≤ 99 then 1900 + d.year else d.year
  let number := daysBeforeYear year + daysBeforeMonth year d.month + (d.day - 1)
  let utcDay := (number + 6) % 7
  if utcDay = 0 then 7 else utcDay

/-- `!rules?.daysOfWeek || rules.daysOfWeek.includes(dow)`. -/
def includesDay (rules : Option Rules) (d : Date) : Bool :=
  match rules.bind Rules.daysOfWeek with
  | none => true
  | some daysOfWeek => daysOfWeek.contains (dayOfWeek d : Int)

/-- The minute `min` of date `d`. -/
def atMinute (d : Date) (min : Nat) : PlainDateTime := ⟨d, min / 60, min % 60, 0⟩

section Loops

variable (tz : Zone)

/-- The loop over the local minutes of date `d`.  It advances in every iteration, so the minutes
    of the window bound their number. -/
def slotLoop (d : Date) (slotMinutes endLocalMin : Nat) : Nat → Nat → Except TimeError (List Slot)
  | 0, _ => pure []
  | iterations + 1, currentLocalMin =>
    if currentLocalMin < endLocalMin then
      let nextLocalMin := currentLocalMin + slotMinutes
      if nextLocalMin > endLocalMin then pure []
      else do
        let currentSlotRes ← resolveWallClock tz (atMinute d currentLocalMin) .compatible
        let nextSlotRes ← resolveWallClock tz (atMinute d nextLocalMin) .compatible
        let slots ← slotLoop d slotMinutes endLocalMin iterations nextLocalMin
        -- Only include if both current and next exist and are ordered correctly
        if currentSlotRes.instant < nextSlotRes.instant then
          pure (⟨currentSlotRes.instant, nextSlotRes.instant⟩ :: slots)
        else pure slots
    else pure []

/-- What the loop over the dates adds for date `d`; the ends of the whole window are resolved,
    and not used. -/
def daySlots (slotMinutes : Nat) (rules : Option Rules) (d : Date) : Except TimeError (List Slot) :=
  if includesDay rules d then do
    let startLocalMin := (startTimeOf rules).minutes
    let endLocalMin := (endTimeOf rules).minutes
    let _ ← resolveWallClock tz (atMinute d startLocalMin) .compatible
    let _ ← resolveWallClock tz (atMinute d endLocalMin) .compatible
    slotLoop tz d slotMinutes endLocalMin endLocalMin startLocalMin
  else pure []

/-- `for (;;)`, from date `d` on; after so many iterations there is no next date. -/
def dayLoop (slotMinutes : Nat) (rules : Option Rules) (toDate : Date) :
    Nat → Date → List Slot → Except TimeError (List Slot)
  | 0, _, _ => .error .rangeError
  | iterations + 1, d, slots => do
    let more ← daySlots tz slotMinutes rules d
    if d = toDate then pure (slots ++ more)
    else dayLoop slotMinutes rules toDate iterations d.next (slots ++ more)

end Loops

/-- The last date Temporal knows. -/
def lastDate : Date := ⟨275760, 9, 13, by decide, by decide, by decide, by decide⟩

/-- The first of January 10000, in UTC. -/
def year10000 : Int := 253402300800000

/-- `a.startUtc.localeCompare(b.startUtc) <= 0`: from the year 10000 on the text begins with a
    plus sign, which comes before the digits. -/
def Slot.before (a b : Slot) : Bool :=
  if year10000 ≤ a.startUtc ∧ b.startUtc < year10000 then true
  else if a.startUtc < year10000 ∧ year10000 ≤ b.startUtc then false
  else decide (a.startUtc ≤ b.startUtc)

def generateSlots (tz : Zone) (slotMinutes : Nat) (rules : Option Rules) (fromDate toDate : Date) :
    Except TimeError (List Slot) :=
  if slotMinutes < 5 ∨ 240 < slotMinutes then .error (.error "slotMinutes out of range")
  else do
    let slots ← dayLoop tz slotMinutes rules toDate (lastDate.number + 1 - fromDate.number) fromDate []
    pure (slots.mergeSort Slot.before)

end Chronos.Time
