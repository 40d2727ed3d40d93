import Mathlib.Data.List.AList
import Mathlib.Data.Rat.Defs

namespace Chronos

/-!
# The tables of the booking core

Rows of `slots`, `bookings`, `reminder_jobs` and `idempotency_keys` as the statements of the
booking modules read and write them, and the rows of `providers`, `clients` and
`event_types` they look up.  A table is keyed by its primary key (`AList`), `reminder_jobs`
by its `UNIQUE (booking_id, offset_minutes)`.  Beside the tables stand two things other
services keep: the jobs that wait in the reminder queue, and the reminders whose e-mail the
provider has accepted.

Ids are abstract; where the source uses the text of an id that a request names, the request
carries its `Spelling`.  Instants are whole milliseconds, the resolution of the `Date` objects
the driver returns.
-/

abbrev SlotId := Nat
abbrev BookingId := Nat
abbrev ClientId := Nat
abbrev ProviderId := Nat
abbrev EventTypeId := Nat

/-- How a request spells an id: as the database prints it, or otherwise.  PostgreSQL reads a `uuid`
    in capitals too. -/
inductive Spelling
  | printed
  | other (text : String)
  deriving DecidableEq

/-- A row of `reminder_jobs` is named by its booking and its offset in minutes. -/
abbrev ReminderId := BookingId × Nat

/-- Milliseconds since the epoch. -/
abbrev Instant := Int

/-- `hours * 60 * 60 * 1000`. -/
def hoursMs (hours : Int) : Int := hours * 60 * 60 * 1000

/-- `minutes * 60 * 1000`. -/
def minutesMs (minutes : Int) : Int := minutes * 60 * 1000

/-! ### Column types -/

/-- `slots.status`, `CHECK (status IN ('open','booked','blocked'))`. -/
inductive SlotStatus
  | «open»
  | booked
  | blocked
  deriving DecidableEq, Repr

/-- `bookings.status`, `CHECK (status IN ('booked','completed','cancelled','no_show'))`. -/
inductive BookingStatus
  | booked
  | completed
  | cancelled
  | noShow
  deriving DecidableEq, Repr

/-- The status a text stands for, if the `CHECK` of `bookings.status` admits it. -/
def BookingStatus.ofText? (text : String) : Option BookingStatus :=
  if text = "booked" then some .booked
  else if text = "completed" then some .completed
  else if text = "cancelled" then some .cancelled
  else if text = "no_show" then some .noShow
  else none

/-- `reminder_jobs.status`, `CHECK (status IN ('scheduled','sending','sent','cancelled',
    'skipped','failed'))`. -/
inductive ReminderJobStatus
  | scheduled
  | sending
  | sent
  | cancelled
  | skipped
  | failed
  deriving DecidableEq, Repr

/-- The status a text stands for, if the `CHECK` of `reminder_jobs.status` admits it. -/
def ReminderJobStatus.ofText? (text : String) : Option ReminderJobStatus :=
  if text = "scheduled" then some .scheduled
  else if text = "sending" then some .sending
  else if text = "sent" then some .sent
  else if text = "cancelled" then some .cancelled
  else if text = "skipped" then some .skipped
  else if text = "failed" then some .failed
  else none

/-- A value in the text `JSON.stringify` prints. -/
inductive Json
  | id (n : Nat)
  | str (s : String)
  | num (q : ℚ)
  | null
  deriving DecidableEq

/-- The text of an id in a request. -/
def Spelling.json (id : Nat) : Spelling → Json
  | .printed => .id id
  | .other text => .str text

/-- The text `JSON.stringify` prints for an object, kept as its list of fields: two texts
    are equal exactly when these lists are. -/
abbrev JsonText := List (String × Json)

/-! ### Rows -/

structure Slot where
  providerId : ProviderId
  slotStartUtc : Instant
  slotEndUtc : Instant
  status : SlotStatus
  deriving DecidableEq

/-- A row of `bookings`; `cancelled_at`, which is written and nowhere read, is left out. -/
structure Booking where
  slotId : SlotId
  clientId : ClientId
  clientTimezone : String
  providerId : Option ProviderId
  eventTypeId : Option EventTypeId
  status : BookingStatus
  version : Int
  notes : Option String := none
  clientNotes : Option String := none
  deriving DecidableEq

/-- A live booking is one the partial index `bookings_one_live_per_slot` covers. -/
def Booking.live (b : Booking) : Bool := decide (b.status ≠ .cancelled)

structure ReminderJob where
  fireAtUtc : Instant
  status : ReminderJobStatus
  lockedUntil : Option Instant
  deriving DecidableEq

/-- `response_body` is the object `{ bookingId }`. -/
structure IdempotencyKey where
  requestHash : JsonText
  responseStatus : Nat
  responseBody : BookingId
  deriving DecidableEq

/-- A client as the reminder worker reads it. -/
structure Client where
  email : Option String
  remindersOptOut : Bool
  deriving DecidableEq

/-- A job in the reminder queue: when it was added, and for how long it waits from then on. -/
structure QueueJob where
  timestamp : Instant
  delay : Int
  deriving DecidableEq

structure Provider where
  cancellationWindowHours : Nat
  minimumBookingNotice : Option Int

structure EventType where
  providerId : Option ProviderId

/-- The tables the booking modules only read. -/
structure Catalog where
  providers : ProviderId → Option Provider
  clients : ClientId → Bool
  eventTypes : EventTypeId → Option EventType

/-- The tables the booking modules write, the jobs of the reminder queue (`jobId` is
    `reminder:${bookingId}:${offset}`, with the id as the database prints it), and the reminders
    whose e-mail was accepted. -/
structure Database where
  slots : AList fun _ : SlotId => Slot
  bookings : AList fun _ : BookingId => Booking
  reminderJobs : AList fun _ : ReminderId => ReminderJob
  idempotencyKeys : AList fun _ : ClientId × String => IdempotencyKey
  jobs : AList fun _ : ReminderId => QueueJob := ∅
  emails : List ReminderId := []

/-! ### `UPDATE … WHERE` on a table -/

section UpdateWhere

variable {κ ρ : Type} [DecidableEq κ]

/-- Replace every row that satisfies `p` by `f` of it. -/
def updateWhere (p : κ → ρ → Bool) (f : ρ → ρ) (t : AList fun _ : κ => ρ) :
    AList fun _ : κ => ρ where
  entries := t.entries.map fun e => ⟨e.1, if p e.1 e.2 then f e.2 else e.2⟩
  nodupKeys := by
    have h := t.nodupKeys
    simp only [List.NodupKeys, List.keys, List.map_map] at h ⊢
    exact h

theorem lookup_updateWhere (p : κ → ρ → Bool) (f : ρ → ρ) (t : AList fun _ : κ => ρ) (k : κ) :
    (updateWhere p f t).lookup k = (t.lookup k).map fun r => if p k r then f r else r := by
  obtain ⟨l, hl⟩ := t
  simp only [updateWhere, AList.lookup]
  clear hl
  induction l with
  | nil => simp
  | cons e l ih =>
    obtain ⟨a, r⟩ := e
    by_cases h : a = k
    · subst h; simp
    · rw [List.map_cons, List.dlookup_cons_ne _ _ (Ne.symm h), List.dlookup_cons_ne _ _ (Ne.symm h)]
      exact ih

end UpdateWhere

/-! ### Live bookings -/

/-- Booking `i` is on slot `s` and live. -/
def Database.LiveOn (d : Database) (s : SlotId) (i : BookingId) : Prop :=
  ∃ b, d.bookings.lookup i = some b ∧ b.live = true ∧ b.slotId = s

/-- Is there a live booking on `s` besides `except`? -/
def Database.otherLive (d : Database) (s : SlotId) (except : Option BookingId) : Bool :=
  d.bookings.entries.any fun e => e.2.live && decide (e.2.slotId = s) && decide (some e.1 ≠ except)

theorem otherLive_iff (d : Database) (s : SlotId) (except : Option BookingId) :
    d.otherLive s except = true ↔ ∃ i, some i ≠ except ∧ d.LiveOn s i := by
  simp only [Database.otherLive, List.any_eq_true, Bool.and_eq_true, decide_eq_true_eq]
  constructor
  · rintro ⟨⟨i, b⟩, hmem, ⟨hlive, hs⟩, hne⟩
    exact ⟨i, hne, b, AList.mem_lookup_iff.mpr hmem, hlive, hs⟩
  · rintro ⟨i, hne, b, hb, hlive, hs⟩
    exact ⟨⟨i, b⟩, AList.mem_lookup_iff.mp hb, ⟨hlive, hs⟩, hne⟩

/-- `bookings_one_live_per_slot`: no slot has two live bookings. -/
def Database.OneLive (d : Database) : Prop :=
  ∀ s i j, d.LiveOn s i → d.LiveOn s j → i = j

end Chronos
