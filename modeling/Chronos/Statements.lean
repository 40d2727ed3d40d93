import Chronos.Schema
import Chronos.ReadCommitted.Engine

namespace Chronos

open ReadCommitted

/-!
# The SQL statements of the booking core

One constructor of `Stmt` per statement the booking modules send, with the parameters it is
sent with; `exec` is what PostgreSQL does with it on one database: the rows it answers, the
rows it writes (`Write`), the constraint it violates, and the locks it has to wait for
(`Lock`).

* An `UPDATE` or a `SELECT … FOR UPDATE` locks the rows its `WHERE` finds; where it finds
  none it locks nothing and does not wait.
* An entry of a unique index or primary key is locked by whoever adds or removes it.
* All reminder rows of a booking share one lock.  This is coarser than PostgreSQL's row
  locks, but only a statement that finds no row there waits here and not there.

What the source asks of other services is an `Ask`, with the type of what it is answered;
`noted` is what such an answer leaves behind.  `chronos` is the resulting engine, `value`
what each lock protects.
-/

/-- An exception as the `catch` blocks of the source see it. -/
structure JsError where
  code : Option String
  message : String
  deriving DecidableEq, Repr

/-- `23505`, a duplicate key. -/
def uniqueViolation (constraint : String) : JsError :=
  ⟨some "23505", "duplicate key value violates unique constraint \"" ++ constraint ++ "\""⟩

/-- `23503`, a row that does not exist. -/
def foreignKeyViolation (table constraint : String) : JsError :=
  ⟨some "23503", "insert or update on table \"" ++ table ++
    "\" violates foreign key constraint \"" ++ constraint ++ "\""⟩

/-- `23514`, a value a `CHECK` does not admit. -/
def checkViolation (table constraint : String) : JsError :=
  ⟨some "23514", "new row for relation \"" ++ table ++
    "\" violates check constraint \"" ++ constraint ++ "\""⟩

/-- `25P02`, a statement inside an aborted transaction. -/
def transactionAborted : JsError :=
  ⟨some "25P02", "current transaction is aborted, commands ignored until end of transaction block"⟩

/-- `42601`, a statement PostgreSQL cannot parse. -/
def syntaxError (token : String) : JsError :=
  ⟨some "42601", "syntax error at or near \"" ++ token ++ "\""⟩

/-- Prisma's `P2025`, an `update` that finds no record. -/
def recordNotFound : JsError :=
  ⟨some "P2025", "An operation failed because it depends on one or more records that were " ++
    "required but not found. Record to update not found."⟩

/-! ### Locks and writes -/

/-- What a transaction can lock. -/
inductive Lock
  | slot (id : SlotId)
  | booking (id : BookingId)
  /-- The entry of a slot in `bookings_one_live_per_slot`. -/
  | live (slotId : SlotId)
  | reminders (bookingId : BookingId)
  | key (clientId : ClientId) (key : String)
  deriving DecidableEq

/-- What a statement writes: the new version of a row, or one change of all reminder rows
    of a booking; and what the reminder queue and the e-mail provider keep. -/
inductive Write
  | slot (id : SlotId) (row : Slot)
  | booking (id : BookingId) (row : Booking)
  | reminder (bookingId : BookingId) (offset : Nat) (row : ReminderJob)
  | cancelReminders (bookingId : BookingId)
  | cancelPendingReminders (bookingId : BookingId)
  | key (clientId : ClientId) (key : String) (row : IdempotencyKey)
  /-- `now` is the time the delay is computed from. -/
  | addJob (bookingId : BookingId) (offset : Nat) (now : Instant) (job : QueueJob)
  | removeJob (bookingId : BookingId) (offset : Nat)
  | email (reminder : ReminderId)
  deriving DecidableEq

/-- The write is to the reminder rows of booking `b`, or to their jobs. -/
def Write.OnReminders (b : BookingId) : Write → Prop
  | .reminder b' _ _ => b' = b
  | .cancelReminders b' => b' = b
  | .cancelPendingReminders b' => b' = b
  | .addJob b' .. => b' = b
  | .removeJob b' _ => b' = b
  | _ => False

/-- `status IN ('scheduled', 'sending')`. -/
def ReminderJob.pending (r : ReminderJob) : Bool :=
  decide (r.status = .scheduled ∨ r.status = .sending)

/-- The write is to the reminder rows of booking `b`, or to their jobs, and makes none pending. -/
structure Write.Settles (b : BookingId) (w : Write) : Prop where
  onReminders : w.OnReminders b
  settled : ∀ b' offset row, w = .reminder b' offset row → row.pending = false

def ReminderJob.cancel (r : ReminderJob) : ReminderJob := { r with status := .cancelled }

/-- A job whose `jobId` is already there is not added again. -/
def addIfAbsent (id : ReminderId) (job : QueueJob) (jobs : AList fun _ : ReminderId => QueueJob) :
    AList fun _ : ReminderId => QueueJob :=
  match jobs.lookup id with
  | none => jobs.insert id job
  | some _ => jobs

def Write.apply : Write → Database → Database
  | .slot id row, d => { d with slots := d.slots.insert id row }
  | .booking id row, d => { d with bookings := d.bookings.insert id row }
  | .reminder b offset row, d =>
      { d with reminderJobs := d.reminderJobs.insert (b, offset) row }
  | .cancelReminders b, d =>
      let jobs := updateWhere (fun k _ => decide (k.1 = b)) ReminderJob.cancel d.reminderJobs
      { d with reminderJobs := jobs }
  | .cancelPendingReminders b, d =>
      let jobs := updateWhere (fun k r => decide (k.1 = b) && r.pending) ReminderJob.cancel
        d.reminderJobs
      { d with reminderJobs := jobs }
  | .key c k row, d => { d with idempotencyKeys := d.idempotencyKeys.insert (c, k) row }
  | .addJob b offset _ job, d => { d with jobs := addIfAbsent (b, offset) job d.jobs }
  | .removeJob b offset, d => { d with jobs := d.jobs.erase (b, offset) }
  | .email r, d => { d with emails := d.emails ++ [r] }

/-! ### Statements -/

inductive Stmt
  /-- `SELECT … FROM slots WHERE id = $1` -/
  | selectSlot (id : SlotId)
  /-- `UPDATE slots SET status = 'booked' WHERE id = $1 AND status = 'open'
      AND slot_start_utc >= $2 AND slot_start_utc >= $3 RETURNING …` -/
  | bookSlot (id : SlotId) (now minStart : Instant)
  /-- `UPDATE slots SET status = 'booked' WHERE id = $1 AND status = 'open'
      AND slot_start_utc > $2 RETURNING …` -/
  | takeSlot (id : SlotId) (now : Instant)
  /-- `UPDATE slots SET status = 'open' WHERE id = $1` -/
  | openSlot (id : SlotId)
  /-- Prisma's `slot.update({ where: { id }, data: { status } })` -/
  | updateSlot (id : SlotId) (status : SlotStatus)
  /-- `SELECT COALESCE(minimum_booking_notice, 4) AS notice FROM providers WHERE id = $1` -/
  | selectNotice (id : ProviderId)
  /-- `SELECT cancellation_window_hours FROM providers
      WHERE id = (SELECT provider_id FROM slots WHERE id = $1)` -/
  | selectCancellationWindow (slotId : SlotId)
  /-- `SELECT provider_id FROM event_types WHERE id = $1` -/
  | selectEventType (id : EventTypeId)
  /-- `SELECT … FROM bookings WHERE id = $1` -/
  | selectBooking (id : BookingId)
  /-- `SELECT … FROM bookings WHERE id = $1 FOR UPDATE` -/
  | selectBookingForUpdate (id : BookingId)
  /-- `INSERT INTO bookings (…) VALUES (…) RETURNING id` -/
  | insertBooking (row : Booking)
  /-- `UPDATE bookings SET status = 'cancelled', cancelled_at = now() WHERE id = $1` -/
  | cancelBookingRow (id : BookingId)
  /-- `UPDATE bookings SET status = $1, version = version + 1 WHERE id = $2` -/
  | setBookingStatus (id : BookingId) (status : String)
  /-- Prisma's `booking.update({ where: { id }, data: { status, version } })` -/
  | updateBooking (id : BookingId) (status : BookingStatus) (version : Int)
  /-- `INSERT INTO reminder_jobs (…) VALUES ($1, $2, $3, 'scheduled')` -/
  | insertReminder (bookingId : BookingId) (offset : Nat) (fireAt : Instant)
  /-- `UPDATE reminder_jobs SET status = 'cancelled' WHERE booking_id = $1` -/
  | cancelReminders (bookingId : BookingId)
  /-- `SELECT offset_minutes FROM reminder_jobs WHERE booking_id = $1 AND status = 'scheduled'` -/
  | selectScheduledOffsets (bookingId : BookingId)
  /-- `SELECT id FROM reminder_jobs
      WHERE booking_id = $1 AND offset_minutes = $2 AND status = 'scheduled' LIMIT 1` -/
  | selectScheduledReminder (bookingId : BookingId) (offset : Nat)
  /-- `UPDATE reminder_jobs SET status = 'skipped'
      WHERE booking_id = $1 AND offset_minutes = $2 AND status = 'scheduled'` -/
  | skipReminder (bookingId : BookingId) (offset : Nat)
  /-- `SELECT id, offset_minutes FROM reminder_jobs
      WHERE booking_id = $1 AND status IN ('scheduled', 'sending')`; `none` is `NULL` -/
  | selectPendingReminders (bookingId : Option BookingId)
  /-- `UPDATE reminder_jobs SET status = 'cancelled'
      WHERE booking_id = $1 AND status IN ('scheduled', 'sending')`; `none` is `NULL` -/
  | cancelPendingReminders (bookingId : Option BookingId)
  /-- `SELECT * FROM idempotency_keys WHERE client_id = $1 AND key = $2` -/
  | selectKey (clientId : ClientId) (key : String)
  /-- `INSERT INTO idempotency_keys (…) VALUES (…)` -/
  | insertKey (clientId : ClientId) (key : String) (row : IdempotencyKey)
  /-- `SELECT … FROM reminder_jobs r JOIN bookings b … JOIN slots s …
      WHERE r.status = 'scheduled' AND b.status = 'booked' ORDER BY …` -/
  | selectScheduledReminders
  /-- `UPDATE reminder_jobs SET status = 'cancelled'
      WHERE id = $1 AND status IN ('scheduled', 'sending')` -/
  | cancelPendingReminder (id : ReminderId)
  /-- `UPDATE reminder_jobs SET status = 'sending', …, locked_until = $1
      WHERE id = $2 AND status = 'scheduled' RETURNING *` -/
  | claimReminder (id : ReminderId) (lockedUntil : Instant)
  /-- `UPDATE reminder_jobs SET status = 'sending', …, locked_until = $1 WHERE id IN (SELECT …
      ORDER BY fire_at_utc ASC LIMIT 1 FOR UPDATE SKIP LOCKED) RETURNING *`; `now` is `now()` -/
  | claimDue (now lockedUntil : Instant)
  /-- `SELECT * FROM reminder_jobs WHERE id = $1` -/
  | selectReminder (id : ReminderId)
  /-- `UPDATE reminder_jobs SET status = …, … WHERE id = $1` -/
  | setReminderStatus (id : ReminderId) (status : String)
  /-- `SELECT * FROM providers WHERE id = $1`; `none` is `NULL` -/
  | selectProvider (id : Option ProviderId)
  /-- `INSERT INTO slots (…) VALUES ($1,$2,$3,$4,'open') ON CONFLICT DO NOTHING` -/
  | insertSlot (providerId : ProviderId) (slotStartUtc slotEndUtc : Instant)
  /-- `INSERT INTO slots (…) SELECT * FROM UNNEST([{…}]::jsonb) AS t(…) ON CONFLICT … DO NOTHING` -/
  | insertSlotBatch (providerId : ProviderId) (slots : List (Instant × Instant))

/-- The rows a statement answers with. -/
@[reducible] def Stmt.Rows : Stmt → Type
  | .selectSlot _ => Option Slot
  | .bookSlot .. => Option Slot
  | .takeSlot .. => Option Slot
  | .selectNotice _ => Option Int
  | .selectCancellationWindow _ => Option Nat
  | .selectEventType _ => Option EventType
  | .selectBooking _ => Option Booking
  | .selectBookingForUpdate _ => Option Booking
  | .insertBooking _ => BookingId
  | .updateBooking .. => Booking
  | .selectScheduledOffsets _ => List Nat
  | .selectScheduledReminder .. => Bool
  | .selectPendingReminders _ => List Nat
  | .selectKey .. => Option IdempotencyKey
  | .selectScheduledReminders => List (BookingId × Instant × Nat)
  | .claimReminder .. => Option ReminderJob
  | .claimDue .. => Option (ReminderId × ReminderJob)
  | .selectReminder _ => Option ReminderJob
  | .selectProvider _ => Option Provider
  | _ => Unit

section Exec

variable {R : Type}

/-- A statement that only reads. -/
def read (r : R) : Outcome R Write Lock JsError := ⟨[], .ok (r, [])⟩

/-- `UPDATE slots SET status = … WHERE id = $1 AND p RETURNING …`. -/
def updateSlotWhere (id : SlotId) (p : Slot → Bool) (status : SlotStatus) (d : Database) :
    Outcome (Option Slot) Write Lock JsError :=
  match (d.slots.lookup id).filter p with
  | none => read none
  | some row =>
      let row' := { row with status := status }
      ⟨[.slot id], .ok (some row', [.slot id row'])⟩

/-- `UPDATE slots SET status = 'open' WHERE id = $1`. -/
def openSlotWrites (d : Database) (id : SlotId) : List Write :=
  match d.slots.lookup id with
  | none => []
  | some row => [.slot id { row with status := .«open» }]

/-- The index entries a new version of a booking adds or removes. -/
def Booking.entries (old new : Booking) : List Lock :=
  if old.live || new.live then [.live old.slotId] else []

/-- A new version of booking `id`.  A booking that becomes live enters
    `bookings_one_live_per_slot`. -/
def writeBooking (id : BookingId) (old new : Booking) (r : R) (d : Database) :
    Outcome R Write Lock JsError where
  locks := .booking id :: old.entries new
  result :=
    if !old.live && new.live && d.otherLive new.slotId (some id) then
      .error (uniqueViolation "bookings_one_live_per_slot")
    else .ok (r, [.booking id new])

/-- Offsets of the reminder rows of a booking that satisfy `p`. -/
def Database.reminderOffsets (d : Database) (b : BookingId) (p : ReminderJob → Bool) : List Nat :=
  (d.reminderJobs.entries.filter fun e => decide (e.1.1 = b) && p e.2).map fun e => e.1.2

def ReminderJob.scheduled (r : ReminderJob) : Bool := decide (r.status = .scheduled)

/-- `status = 'sending', locked_until = $1`. -/
def ReminderJob.claim (r : ReminderJob) (lockedUntil : Instant) : ReminderJob :=
  { r with status := .sending, lockedUntil := some lockedUntil }

/-- `UPDATE reminder_jobs SET … WHERE id = $1 AND p`, answered with what became of the row. -/
def updateReminderWhere (id : ReminderId) (p : ReminderJob → Bool) (f : ReminderJob → ReminderJob)
    (answer : Option ReminderJob → R) (d : Database) : Outcome R Write Lock JsError :=
  match (d.reminderJobs.lookup id).filter p with
  | none => read (answer none)
  | some row =>
      ⟨[.reminders id.1], .ok (answer (some (f row)), [.reminder id.1 id.2 (f row)])⟩

/-- The scheduled reminders of booked bookings, each with the start of the booking's slot. -/
def Database.scheduledReminders (d : Database) : List (BookingId × Instant × Nat) :=
  (d.reminderJobs.entries.filterMap fun e =>
    ((d.bookings.lookup e.1.1).filter fun b => e.2.scheduled && decide (b.status = .booked)).bind
      fun b => (d.slots.lookup b.slotId).map fun slot => (e.1.1, slot.slotStartUtc, e.1.2)).mergeSort
    fun r r' => decide (r.2.1 < r'.2.1 ∨ r.2.1 = r'.2.1 ∧ r'.2.2 ≤ r.2.2)

/-- `status IN ('scheduled', 'sending') AND (status = 'scheduled' OR locked_until < now())`. -/
def ReminderJob.due (now : Instant) (r : ReminderJob) : Bool :=
  r.pending && (r.scheduled || r.lockedUntil.any fun t => decide (t < now))

/-- The due reminders, the earliest first. -/
def Database.dueReminders (d : Database) (now : Instant) :
    List (Sigma fun _ : ReminderId => ReminderJob) :=
  (d.reminderJobs.entries.filter fun e => e.2.due now).mergeSort
    fun e e' => decide (e.2.fireAtUtc ≤ e'.2.fireAtUtc)

/-- The slot `[start, end)` of the provider overlaps one that exists, or starts with it. -/
def Database.slotConflict (d : Database) (p : ProviderId) (start finish : Instant) : Bool :=
  d.slots.entries.any fun e => decide (e.2.providerId = p) &&
    (decide (e.2.slotStartUtc = start) ||
      decide (e.2.slotStartUtc < finish ∧ start < e.2.slotEndUtc))

/-- What PostgreSQL does with a statement; `fresh` is the id `gen_random_uuid()` draws, and how
    many rows `SKIP LOCKED` passes over. -/
def exec (cat : Catalog) : (s : Stmt) → (fresh : Nat) → Database →
    Outcome s.Rows Write Lock JsError
  | .selectSlot id, _, d => read (d.slots.lookup id)
  | .bookSlot id now minStart, _, d =>
      updateSlotWhere id (fun row => decide (row.status = .«open» ∧ now ≤ row.slotStartUtc ∧
        minStart ≤ row.slotStartUtc)) .booked d
  | .takeSlot id now, _, d =>
      updateSlotWhere id (fun row => decide (row.status = .«open» ∧ now < row.slotStartUtc))
        .booked d
  | .openSlot id, _, d => ⟨[.slot id], .ok ((), openSlotWrites d id)⟩
  | .updateSlot id status, _, d =>
      ⟨[.slot id], match d.slots.lookup id with
        | none => .error recordNotFound
        | some row => .ok ((), [.slot id { row with status := status }])⟩
  | .selectNotice id, _, _ =>
      read ((cat.providers id).map fun p => p.minimumBookingNotice.getD 4)
  | .selectCancellationWindow s, _, d =>
      read ((d.slots.lookup s).bind fun row =>
        (cat.providers row.providerId).map Provider.cancellationWindowHours)
  | .selectEventType id, _, _ => read (cat.eventTypes id)
  | .selectBooking id, _, d => read (d.bookings.lookup id)
  | .selectBookingForUpdate id, _, d =>
      match d.bookings.lookup id with
      | none => read none
      | some row => ⟨[.booking id], .ok (some row, [])⟩
  | .insertBooking row, fresh, d =>
      ⟨[.booking fresh, .live row.slotId],
        if (d.bookings.lookup fresh).isSome then .error (uniqueViolation "bookings_pkey")
        else if row.live && d.otherLive row.slotId none then
          .error (uniqueViolation "bookings_one_live_per_slot")
        else if (d.slots.lookup row.slotId).isNone then
          .error (foreignKeyViolation "bookings" "bookings_slot_id_fkey")
        else if !cat.clients row.clientId then
          .error (foreignKeyViolation "bookings" "bookings_client_id_fkey")
        else .ok (fresh, [.booking fresh row])⟩
  | .cancelBookingRow id, _, d =>
      match d.bookings.lookup id with
      | none => ⟨[.booking id], .ok ((), [])⟩
      | some row => writeBooking id row { row with status := .cancelled } () d
  | .setBookingStatus id text, _, d =>
      match d.bookings.lookup id with
      | none => ⟨[.booking id], .ok ((), [])⟩
      | some row =>
          match BookingStatus.ofText? text with
          | none => ⟨[.booking id], .error (checkViolation "bookings" "bookings_status_check")⟩
          | some status =>
              writeBooking id row { row with status := status, version := row.version + 1 } () d
  | .updateBooking id status version, _, d =>
      match d.bookings.lookup id with
      | none => ⟨[.booking id], .error recordNotFound⟩
      | some row =>
          let row' := { row with status := status, version := version }
          writeBooking id row row' row' d
  | .insertReminder b offset fireAt, _, d =>
      ⟨[.reminders b],
        if (d.reminderJobs.lookup (b, offset)).isSome then
          .error (uniqueViolation "reminder_jobs_booking_id_offset_minutes_key")
        else if (d.bookings.lookup b).isNone then
          .error (foreignKeyViolation "reminder_jobs" "reminder_jobs_booking_id_fkey")
        else .ok ((), [.reminder b offset ⟨fireAt, .scheduled, none⟩])⟩
  | .cancelReminders b, _, _ => ⟨[.reminders b], .ok ((), [.cancelReminders b])⟩
  | .selectScheduledOffsets b, _, d => read (d.reminderOffsets b ReminderJob.scheduled)
  | .selectScheduledReminder b offset, _, d =>
      read (((d.reminderJobs.lookup (b, offset)).filter ReminderJob.scheduled).isSome)
  | .skipReminder b offset, _, d =>
      match (d.reminderJobs.lookup (b, offset)).filter ReminderJob.scheduled with
      | none => read ()
      | some row => ⟨[.reminders b], .ok ((), [.reminder b offset { row with status := .skipped }])⟩
  | .selectPendingReminders none, _, _ => read []
  | .selectPendingReminders (some b), _, d => read (d.reminderOffsets b ReminderJob.pending)
  | .cancelPendingReminders none, _, _ => read ()
  | .cancelPendingReminders (some b), _, _ =>
      ⟨[.reminders b], .ok ((), [.cancelPendingReminders b])⟩
  | .selectKey c k, _, d => read (d.idempotencyKeys.lookup (c, k))
  | .insertKey c k row, _, d =>
      ⟨[.key c k],
        if (d.idempotencyKeys.lookup (c, k)).isSome then
          .error (uniqueViolation "idempotency_keys_pkey")
        else if !cat.clients c then
          .error (foreignKeyViolation "idempotency_keys" "idempotency_keys_client_id_fkey")
        else .ok ((), [.key c k row])⟩
  | .selectScheduledReminders, _, d => read d.scheduledReminders
  | .cancelPendingReminder id, _, d =>
      updateReminderWhere id ReminderJob.pending ReminderJob.cancel (fun _ => ()) d
  | .claimReminder id lockedUntil, _, d =>
      updateReminderWhere id ReminderJob.scheduled (fun row => row.claim lockedUntil) (fun r => r) d
  | .claimDue now lockedUntil, skipped, d =>
      match (d.dueReminders now)[skipped]? with
      | none => read none
      | some e =>
          let row' := e.2.claim lockedUntil
          ⟨[.reminders e.1.1], .ok (some (e.1, row'), [.reminder e.1.1 e.1.2 row'])⟩
  | .selectReminder id, _, d => read (d.reminderJobs.lookup id)
  | .setReminderStatus id text, _, d =>
      match d.reminderJobs.lookup id with
      | none => read ()
      | some row =>
          ⟨[.reminders id.1], match ReminderJobStatus.ofText? text with
            | none => .error (checkViolation "reminder_jobs" "reminder_jobs_status_check")
            | some status => .ok ((), [.reminder id.1 id.2 { row with status := status }])⟩
  | .selectProvider none, _, _ => read none
  | .selectProvider (some id), _, _ => read (cat.providers id)
  | .insertSlot p start finish, fresh, d =>
      ⟨[.slot fresh],
        if finish ≤ start then .error (checkViolation "slots" "slots_end_after_start")
        else if (d.slots.lookup fresh).isSome || d.slotConflict p start finish then .ok ((), [])
        else if (cat.providers p).isNone then
          .error (foreignKeyViolation "slots" "slots_provider_id_fkey")
        else .ok ((), [.slot fresh ⟨p, start, finish, .«open»⟩])⟩
  -- No expression starts with a bracket.
  | .insertSlotBatch _ _, _, _ => ⟨[], .error (syntaxError "[")⟩

end Exec

/-! ### Questions -/

/-- The clients `rescheduleBooking` checks out of the pool. -/
inductive PoolClient
  | clientPre
  | client
  deriving DecidableEq

/-- What the source's functions do besides sending statements: reading the clock, checking
    clients out of the pool and back in, removing a job from the reminder queue, and recording an
    activity and a notification.  The id of a job that is removed is made of the text the request
    names its booking by. -/
inductive Effect
  | connect (which : PoolClient)
  | release (which : PoolClient)
  | queueRemove (bookingId : Option BookingId) (spelling : Spelling) (offset : Nat)
  | recordReschedule (bookingId : BookingId)
  | notifyProvider (providerId : ProviderId) (clientId : ClientId) (bookingId : Option BookingId)
  deriving DecidableEq

/-- An error the Resend client answers or raises. -/
structure ResendError where
  statusCode : Option Int
  code : Option String
  message : Option String
  deriving DecidableEq

/-- How `emails.send` of the Resend client ends. -/
inductive ResendReply
  | sent (id : Option String)
  | refused (error : ResendError)
  | raised (error : ResendError)
  deriving DecidableEq

inductive Ask
  | now
  | effect (e : Effect)
  /-- `this.queue.add(…)`, answered with the time the job is dated by; `now` is the time its delay is
      computed from. -/
  | queueAdd (bookingId : BookingId) (offset : Nat) (now : Instant) (delayMs : Int)
  /-- `SELECT * FROM clients WHERE id = $1`; other modules write this table at any time. -/
  | selectClient (id : ClientId)
  /-- `this.client.emails.send(…)` with `Idempotency-Key` `reminder/${bookingId}/${offset}`. -/
  | sendEmail (receiver : String) (idempotencyKey : ReminderId)
  deriving DecidableEq

@[reducible] def Ask.Answer : Ask → Type
  | .now => Instant
  | .effect _ => Except JsError Unit
  | .queueAdd .. => Except JsError Instant
  | .selectClient _ => Except JsError (Option Client)
  | .sendEmail .. => ResendReply

/-- What an answer leaves with the reminder queue or the e-mail provider. -/
def noted : (a : Ask) → a.Answer → List Write
  | .queueAdd b offset now delayMs, .ok timestamp => [.addJob b offset now ⟨timestamp, delayMs⟩]
  | .effect (.queueRemove (some b) .printed offset), .ok () => [.removeJob b offset]
  | .sendEmail _ r, .sent _ => [.email r]
  | _, _ => []

/-- The database of the booking core as a `ReadCommitted` engine. -/
def chronos (cat : Catalog) : Engine Stmt.Rows Ask.Answer Database Nat Write Lock JsError where
  exec := exec cat
  write := Write.apply
  aborted := transactionAborted
  note := noted

/-! ### What the locks protect -/

@[reducible] def Lock.Value : Lock → Type
  | .slot _ => Option Slot
  | .booking _ => Option Booking
  | .live _ => BookingId → Prop
  | .reminders _ => Nat → Option ReminderJob
  | .key .. => Option IdempotencyKey

def value : (k : Lock) → Database → k.Value
  | .slot id, d => d.slots.lookup id
  | .booking id, d => d.bookings.lookup id
  | .live s, d => d.LiveOn s
  | .reminders b, d => fun offset => d.reminderJobs.lookup (b, offset)
  | .key c k, d => d.idempotencyKeys.lookup (c, k)

/-! ### The type of the source's functions -/

abbrev Program (α : Type) := Prog Stmt.Rows Ask.Answer JsError α

/-- `db.query(…)`. -/
abbrev dbQuery (s : Stmt) : Program s.Rows := Prog.query s

/-- `clock.now()`. -/
def clockNow : Program Instant := .ask .now .ret

/-- Return a result, or throw what failed. -/
def ofExcept {α : Type} : Except JsError α → Program α
  | .ok a => .ret a
  | .error e => .throw e

/-- Do something outside the database; its failure is thrown. -/
def perform (e : Effect) : Program Unit := .ask (.effect e) ofExcept

/-- Add a job to the reminder queue; a failure is thrown. -/
def queueAdd (bookingId : BookingId) (offset : Nat) (now : Instant) (delayMs : Int) :
    Program Unit :=
  .ask (.queueAdd bookingId offset now delayMs) fun answer => ofExcept (answer.map fun _ => ())

end Chronos
