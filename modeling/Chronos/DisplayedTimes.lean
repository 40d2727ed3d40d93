import Chronos.Requests
import Chronos.SlotDays
import Chronos.Text.CodeUnits

namespace Chronos

open Calendar Text

/-!
# The times of the appointments page

`GET /api/appointments` of the Next.js server shows when each booking starts: the date by the clock
of UTC, the time by the clock of the server's process.

* `formatDisplayTime`, `formatDisplayDate`, `getAppointments` — the handler, run in a zone whose
  clock shows `clock t` at the instant `t`.
* `readDisplay` — the minute that a date and a time stand for.
* `readDisplay_formatted` — the minute of the day is that of the process, and the day is that of UTC.
* `showsMinute_utc_offset` — by UTC only a process in UTC is right.
* `displayLaw_iff` — which clocks show the bookings of a reply alike, and right in one zone.
-/

/-! ### What JavaScript prints -/

/-- What the process has from its platform. -/
structure DisplaySettings where
  /-- `new Date(value).getTime()`, unless it is `NaN`. -/
  newDate : JsonValue → Option Int
  /-- `text.toLowerCase()`. -/
  toLowerCase : String → String
  /-- What stands before `AM` and `PM`: some versions print a space that does not break. -/
  separator : List Char
  /-- A `Date` lies within a hundred million days of the epoch. -/
  newDate_range : ∀ value t, newDate value = some t → -8640000000000000 ≤ t ∧ t ≤ 8640000000000000

/-- The hour of a clock with twelve hours. -/
def hourText (hour : Nat) : List Char :=
  let hour := if hour % 12 = 0 then 12 else hour % 12
  if hour < 10 then padded 1 hour else padded 2 hour

/-- `toLocaleTimeString("en-US", { hour: "numeric", minute: "2-digit", hour12: true })`, of what the
    clock shows. -/
def localeTime (separator : List Char) (reading : Int) : List Char :=
  let minute := (reading % dayMs / 60000).toNat
  hourText (minute / 60) ++ ':' :: (padded 2 (minute % 60) ++
    (separator ++ if minute / 60 < 12 then ['A', 'M'] else ['P', 'M']))

/-- The years of 700 cycles of the calendar, and their days: so much later there are no years before
    the year 0. -/
def laterYears : Int := 280000

def laterDays : Int := 102267900

/-- The date of an instant, in the calendar `laterYears` later. -/
def laterDate (t : Int) : Date := Date.ofNumber (t / dayMs + epoch.number + laterDays).toNat

/-- The year of `toISOString`. -/
def isoYear (year : Int) : List Char :=
  if 0 ≤ year ∧ year ≤ 9999 then padded 4 year.toNat
  else (if year < 0 then '-' else '+') :: padded 6 year.natAbs

/-- `toISOString().split("T")[0]`. -/
def isoDate (t : Int) : List Char :=
  isoYear ((laterDate t).year - laterYears) ++ '-' :: (padded 2 (laterDate t).month ++
    '-' :: padded 2 (laterDate t).day)

example : isoDate 1767310200000 = "2026-01-01".toList := by decide +kernel

example : isoDate (-62167219200001) = "-000001-12-31".toList := by decide +kernel

/-! ### The handler -/

/-- Neither `undefined` nor `null` nor `false` nor `0` nor `""`. -/
def JsonValue.truthy : JsonValue → Bool
  | .null => false
  | .bool b => b
  | .number .nan => false
  | .number (.rat q) => decide (q ≠ 0)
  | .string s => decide (s ≠ "")
  | _ => true

def JsonValue.isNull : JsonValue → Bool
  | .null => true
  | _ => false

/-- `a || b || … || null`. -/
def firstTruthy : List (Option JsonValue) → JsonValue
  | [] => .null
  | none :: values => firstTruthy values
  | some value :: values => if value.truthy then value else firstTruthy values

/-- `b.object?.name`. -/
def JsonValue.path (object name : String) (b : JsonValue) : Option JsonValue :=
  (b.property object).bind (JsonValue.property name)

section Handler

variable (settings : DisplaySettings) (clock : Int → Int)

/-- `(a || b || … || "").toLowerCase()`: only a text has this method. -/
def lowerText (values : List (Option JsonValue)) : Option String :=
  match firstTruthy values with
  | .null => some (settings.toLowerCase "")
  | .string text => some (settings.toLowerCase text)
  | _ => none

def mapBookingStatus (backendStatus : Option JsonValue) : Option String :=
  (lowerText settings [backendStatus]).map fun s =>
    if s = "booked" then "confirmed"
    else if s = "completed" then "completed"
    else if s = "cancelled" then "cancelled"
    else if s = "no_show" then "completed"
    else s

/-- `slotStartUtc + (slotStartUtc.endsWith("Z") ? "" : "Z")`: only a text has this method. -/
def withZ : JsonValue → Option JsonValue
  | .string slotStartUtc =>
    some (.string (if ['Z'].isSuffixOf slotStartUtc.toList then slotStartUtc else slotStartUtc ++ "Z"))
  | _ => none

/-- The clock of the process. -/
def formatDisplayTime (slotStartUtc : JsonValue) : Option String :=
  (withZ slotStartUtc).map fun text =>
    match settings.newDate text with
    | none => "Invalid Date"
    | some d => String.ofList (localeTime settings.separator (clock d))

/-- The clock of UTC: `toISOString` throws for `Invalid Date`. -/
def formatDisplayDate (slotStartUtc : JsonValue) : Option String := do
  let text ← withZ slotStartUtc
  let d ← settings.newDate text
  some (String.ofList (isoDate d))

/-- A row of the page. -/
structure ShownAppointment where
  id : JsonValue
  clientName : JsonValue
  clientEmail : JsonValue
  clientAvatar : JsonValue
  eventTypeName : JsonValue
  date : Option String
  time : Option String
  duration : JsonValue
  status : String
  location : JsonValue
  notes : JsonValue
  slotStartUtc : JsonValue
  slotEndUtc : JsonValue
  version : JsonValue

/-- `b.slot_start_utc || b.slotStartUtc || b.slot_start || b.start || null`. -/
def startOf (b : JsonValue) : JsonValue :=
  firstTruthy [b.property "slot_start_utc", b.property "slotStartUtc", b.property "slot_start",
    b.property "start"]

/-- The minutes from `start` to `b.slot_end_utc`, to the nearest one: `NaN` without two dates. -/
def computedDuration (b : JsonValue) : Option JsonValue :=
  if (startOf b).truthy then
    (b.property "slot_end_utc").bind fun stop =>
      if stop.truthy then
        match settings.newDate stop, settings.newDate (startOf b) with
        | some stop, some start => some (.number (.rat ((stop - start + 30000) / 60000 : Int)))
        | _, _ => some (.number .nan)
      else none
  else none

/-- One booking in the mapping of `GET`; `none` where it throws. -/
def appointmentOf (b : JsonValue) : Option ShownAppointment := do
  guard !b.isNull
  let start := startOf b
  let date ← if start.truthy then (formatDisplayDate settings start).map some else some none
  let time ← if start.truthy then (formatDisplayTime settings clock start).map some else some none
  let status ← mapBookingStatus settings (b.property "status")
  some
    { id := firstTruthy [b.property "id", b.property "booking_id", b.property "bookingId"]
      clientName := firstTruthy [b.property "clientName", b.path "client" "name", b.property "client"]
      clientEmail := firstTruthy [b.property "clientEmail", b.path "client" "email", b.property "email"]
      clientAvatar := firstTruthy [b.path "client" "avatarUrl", b.property "clientAvatar"]
      eventTypeName :=
        firstTruthy [b.property "eventTypeName", b.path "eventType" "title", b.property "eventType"]
      date := date
      time := time
      duration := firstTruthy [b.property "durationMinutes", computedDuration settings b]
      status := status
      location := firstTruthy [b.path "eventType" "location", b.property "location"]
      notes := firstTruthy [b.property "notes", b.property "clientNotes"]
      slotStartUtc := start
      slotEndUtc := firstTruthy [b.property "slot_end_utc", b.property "slotEndUtc"]
      version := firstTruthy [b.property "version"] }

/-- `items.filter(keep)`; `none` where `keep` throws. -/
def filterThrowing {α : Type} (keep : α → Option Bool) : List α → Option (List α)
  | [] => some []
  | item :: items => do
    let kept ← keep item
    let rest ← filterThrowing keep items
    some (if kept then item :: rest else rest)

/-- `searchParams.get("search")` and `searchParams.get("status")`. -/
structure PageQuery where
  search : Option String
  status : Option String

/-- The filter of `if (search)`. -/
def matchesSearch (search : String) (b : JsonValue) : Option Bool := do
  guard !b.isNull
  let q := settings.toLowerCase search
  let name ← lowerText settings [b.property "clientName", b.path "client" "name"]
  let email ← lowerText settings [b.property "clientEmail", b.path "client" "email", b.property "email"]
  let eventName ← lowerText settings
    [b.property "eventTypeName", b.path "eventType" "title", b.property "eventType"]
  some (includes name q || includes email q || includes eventName q)

/-- The filter of `if (statusFilter !== "all")`. -/
def matchesStatus (statusFilter : String) (b : JsonValue) : Option Bool := do
  guard !b.isNull
  let mapped ← mapBookingStatus settings (b.property "status")
  some (decide (mapped = settings.toLowerCase statusFilter))

/-- The bookings that are left after both filters. -/
def filterBookings (query : PageQuery) (bookings : List JsonValue) : Option (List JsonValue) :=
  let search := (truthy query.search).getD ""
  let statusFilter := (truthy query.status).getD "all"
  let found := if search ≠ "" then filterThrowing (matchesSearch settings search) bookings
    else some bookings
  found.bind fun bookings =>
    if statusFilter ≠ "all" then filterThrowing (matchesStatus settings statusFilter) bookings
    else some bookings

/-- What `fetch` got, with the body unless it is no JSON. -/
structure BackendResponse where
  status : Nat
  body : Option JsonValue

/-- `if (!Array.isArray(bookings)) bookings = []`. -/
def bookingsOf : JsonValue → List JsonValue
  | .array items => items
  | _ => []

/-- `{ success: false, error }`, and the status. -/
structure LoadFailure where
  status : Nat
  error : String

inductive AppointmentsReply
  | failure (e : LoadFailure)
  | success (appointments : List ShownAppointment)

def unableToLoad : LoadFailure := ⟨502, "Unable to load appointments"⟩

/-- The bookings that `GET` goes on to map. -/
def loadBookings (query : PageQuery) (backendRes : Option BackendResponse) :
    Except LoadFailure (List JsonValue) :=
  match backendRes with
  | none => .error unableToLoad
  | some backendRes =>
    if backendRes.status = 401 then .error ⟨401, "Authentication required"⟩
    else if ¬ (200 ≤ backendRes.status ∧ backendRes.status < 300) then .error unableToLoad
    else match backendRes.body.bind fun body => filterBookings settings query (bookingsOf body) with
      | none => .error unableToLoad
      | some bookings => .ok bookings

/-- `GET`, of what `fetch` got, if it did not fail. -/
def getAppointments (query : PageQuery) (backendRes : Option BackendResponse) :
    AppointmentsReply :=
  match loadBookings settings query backendRes with
  | .error e => .failure e
  | .ok bookings =>
    match bookings.mapM (appointmentOf settings clock) with
    | none => .failure unableToLoad
    | some appointments => .success appointments

end Handler

/-! ### What it should show -/

/-- The year in front of a text. -/
def readYear : List Char → Option (Int × List Char)
  | '+' :: text => (numeral (text.take 6)).map fun year => (year, text.drop 6)
  | '-' :: text => (numeral (text.take 6)).map fun year => (-year, text.drop 6)
  | text => (numeral (text.take 4)).map fun year => (year, text.drop 4)

/-- The day that a date stands for, counted from the epoch. -/
def readDate (text : List Char) : Option Int := do
  let (year, rest) ← readYear text
  match rest with
  | ['-', m₁, m₂, '-', d₁, d₂] => do
    let month ← numeral [m₁, m₂]
    let day ← numeral [d₁, d₂]
    let date ← dateOf (year + laterYears).toNat month day
    some (date.number - epoch.number - laterDays)
  | _ => none

/-- The minute of the day that a time stands for. -/
def readTime (separator text : List Char) : Option Int := do
  let hour ← numeral (text.takeWhile fun c => decide (c ≠ ':'))
  let rest := text.drop ((text.takeWhile fun c => decide (c ≠ ':')).length + 1)
  let minute ← numeral (rest.take 2)
  if rest.drop 2 = separator ++ ['A', 'M'] then some (hour % 12 * 60 + minute : Nat)
  else if rest.drop 2 = separator ++ ['P', 'M'] then some ((hour % 12 + 12) * 60 + minute : Nat)
  else none

/-- The minute that a date and a time stand for, counted from the epoch. -/
def readDisplay (separator : List Char) (date time : Option String) : Option Int := do
  let day ← readDate (← date).toList
  let minute ← readTime separator (← time).toList
  some (day * 1440 + minute)

def AppointmentsReply.appointments : AppointmentsReply → List ShownAppointment
  | .failure _ => []
  | .success appointments => appointments

section Law

variable (settings : DisplaySettings)

/-- Date and time stand for the start, to the minute, by the clock `fixed`. -/
def ShowsStart (fixed : Int → Int) (a : ShownAppointment) : Prop :=
  ∃ t, settings.newDate a.slotStartUtc = some t ∧
    readDisplay settings.separator a.date a.time = some (fixed t / 60000)

/-- **Displayed times do not depend on the server**, whose clock may be `clock` or `clock'`, and they
    are right by the clock `fixed`. -/
structure DisplayLaw (fixed clock clock' : Int → Int) (query : PageQuery)
    (backendRes : Option BackendResponse) : Prop where
  same : (getAppointments settings clock query backendRes).appointments.map (fun a => (a.date, a.time)) =
    (getAppointments settings clock' query backendRes).appointments.map fun a => (a.date, a.time)
  shows : ∀ a ∈ (getAppointments settings clock query backendRes).appointments,
    ShowsStart settings fixed a
  shows' : ∀ a ∈ (getAppointments settings clock' query backendRes).appointments,
    ShowsStart settings fixed a

/-- The bookings of the reply of the backend. -/
def answeredBookings (backendRes : Option BackendResponse) : List JsonValue :=
  ((backendRes.bind BackendResponse.body).map bookingsOf).getD []

/-- The start of a booking is a text of UTC. -/
def StartsInUtc (b : JsonValue) : Prop :=
  ∃ text t, startOf b = .string text ∧ ['Z'].isSuffixOf text.toList = true ∧
    settings.newDate (.string text) = some t

/-- The bookings that the reply lists: none if a status is no text. -/
def listedBookings (query : PageQuery) (backendRes : Option BackendResponse) : List JsonValue :=
  match loadBookings settings query backendRes with
  | .error _ => []
  | .ok bookings =>
    if bookings.all fun b => (mapBookingStatus settings (b.property "status")).isSome then bookings
    else []

end Law

/-! ### What it shows -/

section Dates

theorem number_laterDate {t : Int} (h : -8640000000000000 ≤ t) :
    ((laterDate t).number : Int) = t / dayMs + epoch.number + laterDays := by
  have hday : dayMs = 86400000 := rfl
  have hlater : laterDays = 102267900 := rfl
  unfold laterDate
  rw [number_ofNumber, Int.toNat_of_nonneg]
  rw [hday, hlater]
  omega

theorem laterDate_year {t : Int} (h : -8640000000000000 ≤ t) (h' : t ≤ 8640000000000000) :
    ((laterDate t).year - laterYears).natAbs < 10 ^ 6 := by
  have hnumber := number_laterDate h
  have hyear := (laterDate t).number_lt_year.1
  have hday : dayMs = 86400000 := rfl
  have hlater : laterDays = 102267900 := rfl
  have hyears : laterYears = 280000 := rfl
  have hepoch : epoch.number = 719528 := by decide
  -- A year has at least 365 days, which is enough for six digits.
  have hdays : 365 * (laterDate t).year ≤ daysBeforeYear (laterDate t).year := by
    unfold daysBeforeYear
    omega
  rw [hday, hlater, hepoch] at hnumber
  rw [hyears]
  omega

theorem readYear_padded {n : Nat} (h : n < 10 ^ 4) (rest : List Char) :
    readYear (padded 4 n ++ rest) = some ((n : Int), rest) := by
  have htake : (padded 4 n ++ rest).take 4 = padded 4 n := List.take_left' (length_padded 4 n)
  have hdrop : (padded 4 n ++ rest).drop 4 = rest := List.drop_left' (length_padded 4 n)
  -- The numeral does not start with a sign.
  have hdigits : ∀ c ∈ (padded 4 n ++ rest).head?, c.isDigit = true := by
    intro c hc
    rw [List.head?_append_of_ne_nil _ (by simp [padded])] at hc
    exact isDigit_of_mem_padded (List.mem_of_head? hc)
  unfold readYear
  split
  · next text heq =>
    rw [heq] at hdigits
    cases hdigits '+' rfl
  · next text heq =>
    rw [heq] at hdigits
    cases hdigits '-' rfl
  · rw [htake, hdrop, numeral_padded h]
    rfl

theorem readYear_isoYear {year : Int} (h : year.natAbs < 10 ^ 6) (rest : List Char) :
    readYear (isoYear year ++ rest) = some (year, rest) := by
  have hlength := length_padded 6 year.natAbs
  unfold isoYear
  by_cases hfour : 0 ≤ year ∧ year ≤ 9999
  · have hlt : year.toNat < 10 ^ 4 := by omega
    rw [if_pos hfour, readYear_padded hlt]
    have hyear : (year.toNat : Int) = year := Int.toNat_of_nonneg hfour.1
    rw [hyear]
  · rw [if_neg hfour, List.cons_append]
    by_cases hneg : year < 0
    · rw [if_pos hneg, readYear, List.take_left' hlength, List.drop_left' hlength, numeral_padded h]
      have hyear : -(year.natAbs : Int) = year := by omega
      show some (-(year.natAbs : Int), rest) = _
      rw [hyear]
    · rw [if_neg hneg, readYear, List.take_left' hlength, List.drop_left' hlength, numeral_padded h]
      have hyear : (year.natAbs : Int) = year := by omega
      show some ((year.natAbs : Int), rest) = _
      rw [hyear]

/-- **The date is the day of UTC.** -/
theorem readDate_isoDate {t : Int} (h : -8640000000000000 ≤ t) (h' : t ≤ 8640000000000000) :
    readDate (isoDate t) = some (t / dayMs) := by
  have hmonth := (laterDate t).month_le
  have hday := (laterDate t).day_le.trans (daysInMonth_le _ _)
  have hform : readDate (isoDate t) = (do
      let month ← numeral (padded 2 (laterDate t).month)
      let day ← numeral (padded 2 (laterDate t).day)
      let date ← dateOf ((laterDate t).year - laterYears + laterYears).toNat month day
      some (date.number - epoch.number - laterDays)) := by
    unfold readDate isoDate
    rw [readYear_isoYear (laterDate_year h h')]
    rfl
  have hyear : (((laterDate t).year : Int) - laterYears + laterYears).toNat = (laterDate t).year := by omega
  rw [hform, numeral_padded (by omega), numeral_padded (by omega), hyear]
  show (dateOf (laterDate t).year (laterDate t).month (laterDate t).day >>= _) = _
  rw [dateOf_date]
  show some (((laterDate t).number : Int) - epoch.number - laterDays) = _
  rw [number_laterDate h]
  congr 1
  omega

end Dates

section Times

/-- An hour is one numeral from 1 to 12. -/
theorem numeral_hourText (hour : Nat) :
    numeral (hourText hour) = some (if hour % 12 = 0 then 12 else hour % 12) ∧ ':' ∉ hourText hour := by
  have hnoColon : ∀ width n, ':' ∉ padded width n := fun width n hmem => by
    cases isDigit_of_mem_padded hmem
  unfold hourText
  dsimp only
  generalize hh : (if hour % 12 = 0 then 12 else hour % 12) = h
  have hle : h ≤ 12 := by
    split at hh
    · omega
    · omega
  split
  · exact ⟨numeral_padded (by omega), hnoColon _ _⟩
  · exact ⟨numeral_padded (by omega), hnoColon _ _⟩

/-- **The time is the minute of the day that the clock shows.** -/
theorem readTime_localeTime (separator : List Char) (reading : Int) :
    readTime separator (localeTime separator reading) = some (reading % dayMs / 60000) := by
  have hday : dayMs = 86400000 := rfl
  unfold localeTime
  dsimp only
  generalize hminute : (reading % dayMs / 60000).toNat = minute
  have hreading : reading % dayMs / 60000 = minute ∧ minute < 1440 := by
    rw [hday] at hminute ⊢
    omega
  obtain ⟨hhour, hcolon⟩ := numeral_hourText (minute / 60)
  have hlength := length_padded 2 (minute % 60)
  unfold readTime
  dsimp only
  rw [takeWhile_ne hcolon, hhour, ← List.drop_drop, List.drop_left, List.drop_one, List.tail_cons,
    List.take_left' hlength, List.drop_left' hlength, numeral_padded (by omega), hreading.1]
  simp only [Option.bind_eq_bind, Option.bind_some, List.append_cancel_left_eq]
  -- The hour 12 stands for the hour 0 of its half of the day.
  have htwelve : (if minute / 60 % 12 = 0 then 12 else minute / 60 % 12) % 12 = minute / 60 % 12 := by
    split
    · omega
    · omega
  rw [htwelve]
  by_cases hmorning : minute / 60 < 12
  · rw [if_pos hmorning, if_pos rfl]
    congr 1
    omega
  · rw [if_neg hmorning, if_neg (by decide), if_pos rfl]
    congr 1
    omega

/-- A date and a time are read as the day of UTC and the minute of the process. -/
theorem readDisplay_formatted {t : Int} (h : -8640000000000000 ≤ t) (h' : t ≤ 8640000000000000)
    (separator : List Char) (reading : Int) :
    readDisplay separator (some (String.ofList (isoDate t)))
      (some (String.ofList (localeTime separator reading))) =
        some (t / dayMs * 1440 + reading % dayMs / 60000) := by
  unfold readDisplay
  simp only [Option.bind_eq_bind, Option.bind_some, String.toList_ofList, readDate_isoDate h h',
    readTime_localeTime]

end Times

section Replies

variable {settings : DisplaySettings} {clock clock' fixed : Int → Int} {b : JsonValue} {text : String}
variable {t : Int} {query : PageQuery} {backendRes : Option BackendResponse}

theorem filterThrowing_sublist {α : Type} {keep : α → Option Bool} {items kept : List α}
    (h : filterThrowing keep items = some kept) : kept.Sublist items := by
  induction items generalizing kept with
  | nil =>
    cases h
    exact List.Sublist.slnil
  | cons item items ih =>
    simp only [filterThrowing, Option.bind_eq_bind, Option.bind_eq_some_iff] at h
    obtain ⟨keeps, -, rest, hrest, heq⟩ := h
    cases heq
    split
    · exact (ih hrest).cons_cons item
    · exact (ih hrest).cons item

/-- The filters only leave bookings out. -/
theorem filterBookings_sublist {bookings kept : List JsonValue}
    (h : filterBookings settings query bookings = some kept) : kept.Sublist bookings := by
  obtain ⟨found, hfound, hkept⟩ := Option.bind_eq_some_iff.mp h
  have hsearch : found.Sublist bookings := by
    split at hfound
    · exact filterThrowing_sublist hfound
    · cases hfound
      exact List.Sublist.refl _
  have hstatus : kept.Sublist found := by
    split at hkept
    · exact filterThrowing_sublist hkept
    · cases hkept
      exact List.Sublist.refl _
  exact hstatus.trans hsearch

theorem mem_loadBookings {bookings : List JsonValue}
    (h : loadBookings settings query backendRes = .ok bookings) (hb : b ∈ bookings) :
    b ∈ answeredBookings backendRes := by
  unfold loadBookings at h
  cases backendRes with
  | none => cases h
  | some res =>
    dsimp only at h
    split at h
    · cases h
    split at h
    · cases h
    split at h
    · cases h
    · next kept hkept =>
      cases h
      obtain ⟨body, hbody, hfilter⟩ := Option.bind_eq_some_iff.mp hkept
      show b ∈ ((Option.some res).bind BackendResponse.body |>.map bookingsOf).getD []
      rw [Option.bind_some, hbody]
      exact (filterBookings_sublist hfilter).subset hb

theorem mem_listedBookings (hb : b ∈ listedBookings settings query backendRes) :
    b ∈ answeredBookings backendRes ∧ (mapBookingStatus settings (b.property "status")).isSome = true := by
  unfold listedBookings at hb
  split at hb
  · cases hb
  · next bookings hload =>
    split at hb
    · next hall => exact ⟨mem_loadBookings hload hb, List.all_eq_true.mp hall b hb⟩
    · cases hb

/-- **A booking that starts by a text of UTC** is shown by two clocks, unless its status is no
    text. -/
theorem appointmentOf_some (clock : Int → Int) (hstart : startOf b = .string text)
    (hends : ['Z'].isSuffixOf text.toList = true) (hdate : settings.newDate (.string text) = some t)
    {status : String} (hstatus : mapBookingStatus settings (b.property "status") = some status) :
    ∃ a, appointmentOf settings clock b = some a ∧ a.date = some (String.ofList (isoDate t)) ∧
      a.time = some (String.ofList (localeTime settings.separator (clock t))) ∧
      a.slotStartUtc = .string text := by
  have hnull : b.isNull = false := by
    cases b with
    | null => cases hstart
    | bool b => rfl
    | number x => rfl
    | string s => rfl
    | array items => rfl
    | object fields => rfl
  have htruthy : (JsonValue.string text).truthy = true := by
    refine decide_eq_true ?_
    rintro rfl
    cases hends
  have hwith : withZ (.string text) = some (.string text) := by
    show some (JsonValue.string (if ['Z'].isSuffixOf text.toList then text else text ++ "Z")) = _
    rw [if_pos hends]
  have hdateText : formatDisplayDate settings (.string text) = some (String.ofList (isoDate t)) := by
    unfold formatDisplayDate
    simp [hwith, hdate]
  have htimeText : formatDisplayTime settings clock (.string text) =
      some (String.ofList (localeTime settings.separator (clock t))) := by
    unfold formatDisplayTime
    simp [hwith, hdate]
  unfold appointmentOf
  simp [hnull, hstart, htruthy, hdateText, htimeText, hstatus]

/-- Without a text for a status there is nothing to show. -/
theorem appointmentOf_none (hstatus : mapBookingStatus settings (b.property "status") = none) :
    appointmentOf settings clock b = none := by
  unfold appointmentOf
  simp [hstatus]

theorem mapM_eq {α β : Type} (f : α → Option β) (items : List α) :
    items.mapM f = if items.all fun item => (f item).isSome then some (items.filterMap f) else none := by
  induction items with
  | nil => rfl
  | cons item items ih =>
    rw [List.mapM_cons, ih]
    cases hitem : f item with
    | none => simp [hitem]
    | some result =>
      by_cases hall : (items.all fun item => (f item).isSome) = true
      · simp [hitem, hall]
      · simp [hitem, hall]

/-- **The reply shows the listed bookings.** -/
theorem appointments_eq (hstarts : ∀ b ∈ answeredBookings backendRes, StartsInUtc settings b) :
    (getAppointments settings clock query backendRes).appointments =
      (listedBookings settings query backendRes).filterMap (appointmentOf settings clock) := by
  unfold getAppointments listedBookings
  cases hload : loadBookings settings query backendRes with
  | error e => rfl
  | ok bookings =>
    -- Whether the mapping throws depends on the statuses only, not on the clock.
    have hsome : ∀ b ∈ bookings, (appointmentOf settings clock b).isSome =
        (mapBookingStatus settings (b.property "status")).isSome := by
      intro b hb
      obtain ⟨text, t, hstart, hends, hdate⟩ := hstarts b (mem_loadBookings hload hb)
      cases hstatus : mapBookingStatus settings (b.property "status") with
      | none => simp [appointmentOf_none hstatus]
      | some status =>
        obtain ⟨a, ha, -⟩ := appointmentOf_some clock hstart hends hdate hstatus
        rw [ha]
        rfl
    have hall : (bookings.all fun b => (appointmentOf settings clock b).isSome) =
        bookings.all fun b => (mapBookingStatus settings (b.property "status")).isSome := by
      rw [Bool.eq_iff_iff, List.all_eq_true, List.all_eq_true]
      refine forall₂_congr fun b hb => ?_
      rw [hsome b hb]
    dsimp only
    rw [mapM_eq, hall]
    by_cases hlisted : (bookings.all fun b => (mapBookingStatus settings (b.property "status")).isSome) = true
    · rw [if_pos hlisted, if_pos hlisted]
      rfl
    · rw [if_neg hlisted, if_neg hlisted]
      rfl

/-- What is shown of each listed booking. -/
theorem shown_of_listed (clock : Int → Int)
    (hstarts : ∀ b ∈ answeredBookings backendRes, StartsInUtc settings b)
    (hb : b ∈ listedBookings settings query backendRes) : ∃ text t a, startOf b = .string text ∧
      settings.newDate (.string text) = some t ∧ appointmentOf settings clock b = some a ∧
        a.date = some (String.ofList (isoDate t)) ∧
          a.time = some (String.ofList (localeTime settings.separator (clock t))) ∧
            a.slotStartUtc = .string text := by
  obtain ⟨hmem, hstatus⟩ := mem_listedBookings hb
  obtain ⟨text, t, hstart, hends, hdate⟩ := hstarts b hmem
  obtain ⟨status, hstatus⟩ := Option.isSome_iff_exists.mp hstatus
  obtain ⟨a, ha, hdateText, htimeText, hslot⟩ :=
    appointmentOf_some clock hstart hends hdate hstatus
  exact ⟨text, t, a, hstart, hdate, ha, hdateText, htimeText, hslot⟩

/-- The clock `fixed` is on the day of UTC, and `clock` shows its hour and its minute. -/
def ShowsMinute (fixed clock : Int → Int) (t : Int) : Prop :=
  fixed t / dayMs = t / dayMs ∧ clock t % dayMs / 60000 = fixed t % dayMs / 60000

theorem showsMinute_iff : ShowsMinute fixed clock t ↔
    t / dayMs * 1440 + clock t % dayMs / 60000 = fixed t / 60000 := by
  have hday : dayMs = 86400000 := rfl
  unfold ShowsMinute
  rw [hday]
  omega

/-- UTC is always on its day, -/
theorem showsMinute_utc_iff : ShowsMinute Time.utc.clock clock t ↔
    clock t % dayMs / 60000 = t % dayMs / 60000 := by
  have hclock : Time.utc.clock t = t := Int.add_zero t
  unfold ShowsMinute
  rw [hclock]
  exact and_iff_right rfl

/-- and a zone whose offset is some minutes shows its minute only where they are none. -/
theorem showsMinute_utc_offset (z : Zone) {minutes : Int} (h : z.offset t = minutes * 60000) :
    ShowsMinute Time.utc.clock z.clock t ↔ minutes = 0 := by
  have hday : dayMs = 86400000 := rfl
  have hbounded := z.offset_bounded t
  have hclock : z.clock t = t + minutes * 60000 := congrArg (t + ·) h
  rw [h, hday] at hbounded
  rw [showsMinute_utc_iff, hclock, hday]
  omega

/-- **One reply** is right by the clock `fixed`. -/
theorem shows_iff (hstarts : ∀ b ∈ answeredBookings backendRes, StartsInUtc settings b) :
    (∀ a ∈ (getAppointments settings clock query backendRes).appointments, ShowsStart settings fixed a) ↔
      ∀ b ∈ listedBookings settings query backendRes, ∀ t, settings.newDate (startOf b) = some t →
        ShowsMinute fixed clock t := by
  rw [appointments_eq hstarts]
  constructor
  · intro h b hb t ht
    obtain ⟨text, t', a, hstart, hdate, ha, hdateText, htimeText, hslot⟩ :=
      shown_of_listed clock hstarts hb
    obtain rfl : t' = t := by
      rw [hstart, hdate] at ht
      exact Option.some.inj ht
    obtain ⟨u, hu, hread⟩ := h a (List.mem_filterMap.mpr ⟨b, hb, ha⟩)
    obtain rfl : t' = u := by
      rw [hslot, hdate] at hu
      exact Option.some.inj hu
    obtain ⟨hlow, hhigh⟩ := settings.newDate_range _ _ hdate
    rw [hdateText, htimeText, readDisplay_formatted hlow hhigh] at hread
    exact showsMinute_iff.mpr (Option.some.inj hread)
  · intro h a ha
    obtain ⟨b, hb, hab⟩ := List.mem_filterMap.mp ha
    obtain ⟨text, t, a', hstart, hdate, ha', hdateText, htimeText, hslot⟩ :=
      shown_of_listed clock hstarts hb
    obtain rfl : a' = a := by
      rw [ha'] at hab
      exact Option.some.inj hab
    obtain ⟨hlow, hhigh⟩ := settings.newDate_range _ _ hdate
    have hminute := showsMinute_iff.mp (h b hb t (by rw [hstart, hdate]))
    refine ⟨t, by rw [hslot, hdate], ?_⟩
    rw [hdateText, htimeText, readDisplay_formatted hlow hhigh, hminute]

/-- Two clocks with the same minute print the same. -/
theorem localeTime_congr {separator : List Char} {reading reading' : Int}
    (h : reading % dayMs / 60000 = reading' % dayMs / 60000) :
    localeTime separator reading = localeTime separator reading' := by
  unfold localeTime
  rw [h]

/-- **Where the law holds**: at the start of every listed booking both processes show the minute of
    the clock `fixed`, and that clock is on the day of UTC. -/
theorem displayLaw_iff (hstarts : ∀ b ∈ answeredBookings backendRes, StartsInUtc settings b) :
    DisplayLaw settings fixed clock clock' query backendRes ↔
      ∀ b ∈ listedBookings settings query backendRes, ∀ t, settings.newDate (startOf b) = some t →
        ShowsMinute fixed clock t ∧ ShowsMinute fixed clock' t := by
  constructor
  · intro h b hb t ht
    exact ⟨(shows_iff hstarts).mp h.shows b hb t ht, (shows_iff hstarts).mp h.shows' b hb t ht⟩
  · intro h
    refine ⟨?_, (shows_iff hstarts).mpr fun b hb t ht => (h b hb t ht).1,
      (shows_iff hstarts).mpr fun b hb t ht => (h b hb t ht).2⟩
    rw [appointments_eq hstarts, appointments_eq hstarts, List.map_filterMap, List.map_filterMap]
    refine List.filterMap_congr fun b hb => ?_
    obtain ⟨text, t, a, hstart, hdate, ha, hdateText, htimeText, -⟩ :=
      shown_of_listed clock hstarts hb
    obtain ⟨text', t', a', hstart', hdate', ha', hdateText', htimeText', -⟩ :=
      shown_of_listed clock' hstarts hb
    -- Both runs print the same date, and times of one minute.
    obtain rfl : text = text' := JsonValue.string.inj (hstart.symm.trans hstart')
    obtain rfl : t = t' := Option.some.inj (hdate.symm.trans hdate')
    obtain ⟨hminute, hminute'⟩ := h b hb t (by rw [hstart, hdate])
    have htime : localeTime settings.separator (clock t) = localeTime settings.separator (clock' t) :=
      localeTime_congr (hminute.2.trans hminute'.2.symm)
    rw [ha, ha', Option.map_some, Option.map_some, hdateText, htimeText, hdateText', htimeText', htime]

end Replies

/-! #### A booking before midnight -/

/-- `Date.parse` of one text. -/
def sampleDisplay : DisplaySettings where
  newDate
    | .string text => if text = "2026-01-01T23:30:00Z" then some 1767310200000 else none
    | _ => none
  toLowerCase text := text.toLower
  separator := [' ']
  newDate_range value t h := by
    split at h
    · split at h
      · cases h
        decide
      · cases h
    · cases h

def sampleBackend : BackendResponse where
  status := 200
  body := some (.array [.object [("id", .number (.rat 1)), ("status", .string "booked"),
    ("slot_start_utc", .string "2026-01-01T23:30:00Z")]])

/-- Two hours east. -/
def samplePlusTwo : Zone := Zone.fixed 7200000 (by decide)

/-- A server in UTC shows the evening of the first of January, and one two hours east of it shows the
    night before. -/
theorem display_differs : ¬ ∃ fixed, DisplayLaw sampleDisplay fixed Time.utc.clock samplePlusTwo.clock
    ⟨none, none⟩ (some sampleBackend) := by
  rintro ⟨fixed, h⟩
  have hsame := h.same
  have hutc : (getAppointments sampleDisplay Time.utc.clock ⟨none, none⟩ (some sampleBackend)).appointments.map
      (fun a => (a.date, a.time)) = [(some "2026-01-01", some "11:30 PM")] := by decide +kernel
  have hplus : (getAppointments sampleDisplay samplePlusTwo.clock ⟨none, none⟩
      (some sampleBackend)).appointments.map (fun a => (a.date, a.time)) =
        [(some "2026-01-01", some "1:30 AM")] := by decide +kernel
  rw [hutc, hplus] at hsame
  revert hsame
  decide

theorem startsInUtc_sample : ∀ b ∈ answeredBookings (some sampleBackend), StartsInUtc sampleDisplay b := by
  intro b hb
  obtain rfl := List.mem_singleton.mp hb
  exact ⟨"2026-01-01T23:30:00Z", 1767310200000, rfl, by decide +kernel, rfl⟩

theorem displayLaw_sample :
    DisplayLaw sampleDisplay Time.utc.clock Time.utc.clock samplePlusTwo.clock ⟨none, none⟩ (some sampleBackend) ↔
      ∀ b ∈ listedBookings sampleDisplay ⟨none, none⟩ (some sampleBackend),
        ∀ t, sampleDisplay.newDate (startOf b) = some t →
          ShowsMinute Time.utc.clock Time.utc.clock t ∧ ShowsMinute Time.utc.clock samplePlusTwo.clock t :=
  displayLaw_iff startsInUtc_sample

end Chronos
