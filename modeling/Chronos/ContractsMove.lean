import Chronos.AllOrNothing
import Chronos.AtomicMove
import Chronos.CalmBooking
import Chronos.ReadCommitted.Outcome

namespace Chronos

open ReadCommitted ReadCommitted.Prog

/-!
# The two implementations of `rescheduleBooking`

`packages/contracts` has a `rescheduleBooking` of its own (`Contracts.rescheduleBooking`).  It
reads the booking without a lock, does not ask for its status, decides about the window, and then
moves the booking as it has read it, in one transaction; the new row gets the time zone `UTC`.

The package sends every statement to the pool.  A call that is run alone gets one connection for
all of them, so its transaction is the model's.

Both are run alone, in the same surroundings, on the same tables: nothing fails from outside, the
server draws the same id, and the clock shows the same time.  `implementations_agree_exactly` says
when they do the same.
-/

/-! ### `rescheduleBooking` of `packages/contracts` -/

namespace Contracts

/-- The row the package inserts; its time zone is the constant `'UTC'`. -/
def movedRow (b : Booking) (slotId : SlotId) : Booking where
  slotId := slotId
  clientId := b.clientId
  clientTimezone := "UTC"
  providerId := none
  eventTypeId := none
  status := .booked
  version := b.version + 1
  notes := none
  clientNotes := none

/-- Atomic transaction: cancel old, book new. -/
def moveTransaction (fromColumn : Instant → Except JsError Instant) (req : RescheduleRequest)
    (effectiveNow : Instant) (b : Booking) : Program Reply :=
  tryCatch
    (do
      send .beginTx
      match ← dbQuery (.takeSlot req.newSlotId effectiveNow) with
      | none =>
        send .rollback
        pure (.refused 409 "slot_unavailable")
      | some newSlot =>
        dbQuery (.cancelBookingRow req.bookingId)
        dbQuery (.openSlot b.slotId)
        let newBookingId ← dbQuery (.insertBooking (movedRow b req.newSlotId))
        dbQuery (.cancelReminders req.bookingId)
        insertMovedReminders fromColumn newBookingId newSlot.slotStartUtc effectiveNow
          reminderOffsets
        insertIdempotencyKey b.clientId req.idempotencyKey req.json newBookingId
        send .commit
        pure (.created newBookingId false))
    fun e => do
      rollbackQuietly
      pure e.refusal

/-- `rescheduleBooking` at time `effectiveNow`. -/
def rescheduleBookingAt (fromColumn : Instant → Except JsError Instant) (req : RescheduleRequest)
    (effectiveNow : Instant) : Program Reply := do
  match ← dbQuery (.selectBooking req.bookingId) with
  | none => pure (.refused 404 "not_found")
  | some b =>
    if !req.version.isInt b.version || !req.ifMatch.isInt b.version then
      pure (.refused 412 "version_mismatch")
    else
      let slotRes ← dbQuery (.selectSlot b.slotId)
      if req.windowExpired slotRes effectiveNow then
        pure (.refused 409 "window_expired")
      else
        moveTransaction fromColumn req effectiveNow b

/-- `rescheduleBooking(pool, req, nowUtc)`. -/
def rescheduleBooking (fromColumn : Instant → Except JsError Instant) (req : RescheduleRequest)
    (nowUtc : Option Instant) : Program Reply := do
  let effectiveNow ← match nowUtc with
    | some now => pure now
    | none => clockNow
  rescheduleBookingAt fromColumn req effectiveNow

end Contracts

/-! ### The rows of a move -/

/-- Insert `row`, its reminders and its key, and commit. -/
def insertMove (req : RescheduleRequest) (now : Instant) (b row : Booking) (slotStartUtc : Instant)
    (after : BookingId → Program Unit) : Program Reply := do
  let newBookingId ← dbQuery (.insertBooking row)
  dbQuery (.cancelReminders req.bookingId)
  insertMovedReminders .ok newBookingId slotStartUtc now reminderOffsets
  insertIdempotencyKey b.clientId req.idempotencyKey req.json newBookingId
  send .commit
  after newBookingId
  pure (.created newBookingId false)

/-- What both transactions do once they know the booking `b`: take the new slot, cancel `b`, and
    insert `row`. -/
def moveRows (req : RescheduleRequest) (now : Instant) (b row : Booking)
    (after : BookingId → Program Unit) : Program Reply := do
  match ← dbQuery (.takeSlot req.newSlotId now) with
  | none =>
    send .rollback
    pure (.refused 409 "slot_unavailable")
  | some newSlot =>
    dbQuery (.cancelBookingRow req.bookingId)
    dbQuery (.openSlot b.slotId)
    insertMove req now b row newSlot.slotStartUtc after

/-- `catch (e) { await client.query('ROLLBACK').catch(() => {}); … }` -/
def refuse (e : JsError) : Program Reply := do
  rollbackQuietly
  pure e.refusal

theorem moveTransaction_eq (req : RescheduleRequest) (now : Instant) (queue : Bool) :
    moveTransaction .ok req now queue = tryCatch ((send .beginTx).bind fun _ =>
      (dbQuery (.selectBookingForUpdate req.bookingId)).bind fun b => match req.check b with
        | .error refusal => (send .rollback).bind fun _ => pure refusal
        | .ok b => moveRows req now b (b.movedTo req.newSlotId) fun id => afterMove req id queue)
      refuse := rfl

/-! ### The outcome of a move -/

/-- A move to slot `slot` that no constraint stops, when the new booking gets id `fresh`. -/
structure Fits (cat : Catalog) (d : Database) (req : RescheduleRequest) (now : Instant)
    (fresh : BookingId) (b : Booking) (slot : Slot) : Prop where
  newSlot : d.slots.lookup req.newSlotId = some slot
  isOpen : slot.status = .«open»
  future : now < slot.slotStartUtc
  absent : d.bookings.lookup fresh = none
  free : ∀ i, i ≠ req.bookingId → ¬ d.LiveOn req.newSlotId i
  client : cat.clients b.clientId = true
  unscheduled : ∀ offset ∈ futureOffsets slot.slotStartUtc now reminderOffsets,
    d.reminderJobs.lookup (fresh, offset) = none
  unused : ∀ key, truthy req.idempotencyKey = some key →
    d.idempotencyKeys.lookup (b.clientId, key) = none

/-- What a move writes first. -/
def vacateWrites (req : RescheduleRequest) (d : Database) (b : Booking) (slot : Slot) : List Write :=
  [.slot req.newSlotId { slot with status := .booked },
      .booking req.bookingId { b with status := .cancelled }] ++
    openSlotWrites ((Write.slot req.newSlotId { slot with status := .booked }).apply d) b.slotId

/-- What a move writes that inserts `row`. -/
def moveWrites (req : RescheduleRequest) (now : Instant) (fresh : BookingId) (d : Database)
    (b row : Booking) (slot : Slot) : List Write :=
  vacateWrites req d b slot ++ [.booking fresh row] ++ [.cancelReminders req.bookingId] ++
    reminderWrites fresh slot.slotStartUtc
      (futureOffsets slot.slotStartUtc now reminderOffsets) ++
    keyWrites b.clientId req.idempotencyKey req.json fresh

/-- What the two implementations insert: a live booking of the client on the new slot. -/
structure NewRow (req : RescheduleRequest) (b row : Booking) : Prop where
  slotId : row.slotId = req.newSlotId
  clientId : row.clientId = b.clientId
  status : row.status = .booked

section Outcome

variable {cat : Catalog} {d : Database} {req : RescheduleRequest} {now t : Instant}
variable {fresh : BookingId} {b row : Booking} {slot : Slot} {ws : List Write}
variable {after : BookingId → Program Unit}

theorem outcome_perform {e : Effect} (he : noted (.effect e) (.ok ()) = [])
    (st : Place Database Write) :
    (perform e).outcome (chronos cat) (calmEnv fresh t) st = (.ok (), st) := by
  have hsame : (chronos cat).noteAt (.effect e) (.ok ()) st = st := by
    have hnote : (chronos cat).note (.effect e) (.ok ()) = [] := he
    cases st with
    | free d => simp [Engine.noteAt, hnote]
    | inside d ws => simp [Engine.noteAt, hnote]
    | failed d => simp [Engine.noteAt, hnote]
  show (Except.ok (), (chronos cat).noteAt (.effect e) (.ok ()) st) = (Except.ok (), st)
  rw [hsame]

/-- Whatever has happened in the transaction, `refuse` rolls it back. -/
theorem outcome_refuse (e : JsError) (st : Place Database Write) :
    (refuse e).outcome (chronos cat) (calmEnv fresh t) st = (.ok e.refusal, .free st.db) := by
  cases st <;> rfl

/-- A statement of the transaction that no constraint stops. -/
theorem outcome_sure {α : Type} {s : Stmt} {ok : s.Rows → Program α} {err : JsError → Program α}
    {r : s.Rows} {ws' : List Write}
    (h : (exec cat s fresh ((chronos cat).apply ws d)).result = .ok (r, ws')) :
    (Prog.stmt s ok err).outcome (chronos cat) (calmEnv fresh t) (.inside d ws) =
      (ok r).outcome (chronos cat) (calmEnv fresh t) (.inside d (ws ++ ws')) :=
  outcome_inside rfl h

/-- A statement of the transaction that a constraint stops. -/
theorem outcome_stopped {α : Type} {s : Stmt} {ok : s.Rows → Program α}
    {err : JsError → Program α} {e : JsError}
    (h : (exec cat s fresh ((chronos cat).apply ws d)).result = .error e) :
    (Prog.stmt s ok err).outcome (chronos cat) (calmEnv fresh t) (.inside d ws) =
      (err e).outcome (chronos cat) (calmEnv fresh t) (.failed d) :=
  outcome_inside_error rfl h

theorem insertReminder_taken {offset : Nat} {fireAt : Instant} {o : Nat} {job : ReminderJob}
    (h : d.reminderJobs.lookup (fresh, offset) = some job) :
    (exec cat (.insertReminder fresh offset fireAt) o d).result =
      .error (uniqueViolation "reminder_jobs_booking_id_offset_minutes_key") := by
  simp [exec, h]

theorem insertKey_taken {c : ClientId} {key : String} {new old : IdempotencyKey} {o : Nat}
    (h : d.idempotencyKeys.lookup (c, key) = some old) :
    (exec cat (.insertKey c key new) o d).result =
      .error (uniqueViolation "idempotency_keys_pkey") := by
  simp [exec, h]

/-- The reminders of the new booking: all of them, or the first that is there already. -/
theorem outcome_insertMovedReminders (start now : Instant) (offsets : List Nat)
    (hbooking : (((chronos cat).apply ws d).bookings.lookup fresh).isSome) (hnodup : offsets.Nodup) :
    (insertMovedReminders .ok fresh start now offsets).outcome (chronos cat) (calmEnv fresh t)
        (.inside d ws) =
      if ∀ offset ∈ futureOffsets start now offsets,
          ((chronos cat).apply ws d).reminderJobs.lookup (fresh, offset) = none then
        (.ok (), .inside d (ws ++ reminderWrites fresh start (futureOffsets start now offsets)))
      else (.error (uniqueViolation "reminder_jobs_booking_id_offset_minutes_key"), .failed d) := by
  induction offsets generalizing ws with
  | nil => simp [insertMovedReminders, futureOffsets, reminderWrites]
  | cons offset offsets ih =>
    obtain ⟨hoffset, hnodup'⟩ := List.nodup_cons.mp hnodup
    simp only [insertMovedReminders, bind_eq]
    by_cases hfire : start - minutesMs offset > now
    · rw [if_pos hfire]
      have hoffsets : futureOffsets start now (offset :: offsets) =
          offset :: futureOffsets start now offsets := by
        simp [futureOffsets, hfire]
      rw [hoffsets]
      cases hrow : ((chronos cat).apply ws d).reminderJobs.lookup (fresh, offset) with
      | some job =>
        rw [if_neg fun hall => by rw [hall offset List.mem_cons_self] at hrow; cases hrow]
        exact outcome_stopped (insertReminder_taken hrow)
      | none =>
        refine (outcome_sure (insertReminder_sure hrow hbooking)).trans ?_
        simp only [andThen]
        have hbooking' : (((chronos cat).apply (ws ++ [.reminder fresh offset
            ⟨start - minutesMs offset, .scheduled, none⟩]) d).bookings.lookup fresh).isSome := by
          rw [Engine.apply_append]
          exact hbooking
        rw [ih hbooking' hnodup']
        -- The row just inserted is at another offset.
        have hothers : ∀ o ∈ futureOffsets start now offsets,
            ((chronos cat).apply (ws ++ [.reminder fresh offset
              ⟨start - minutesMs offset, .scheduled, none⟩]) d).reminderJobs.lookup (fresh, o) =
              ((chronos cat).apply ws d).reminderJobs.lookup (fresh, o) := by
          intro o ho
          rw [Engine.apply_append]
          refine (lookup_reminder_write _ _ _ _).trans (if_neg fun heq => ?_)
          exact hoffset ((Prod.mk.inj heq).2 ▸ (List.mem_filter.mp ho).1)
        have hiff : (∀ o ∈ futureOffsets start now offsets,
            ((chronos cat).apply (ws ++ [.reminder fresh offset
              ⟨start - minutesMs offset, .scheduled, none⟩]) d).reminderJobs.lookup (fresh, o) =
                none) ↔
            ∀ o ∈ offset :: futureOffsets start now offsets,
              ((chronos cat).apply ws d).reminderJobs.lookup (fresh, o) = none := by
          rw [List.forall_mem_cons]
          constructor
          · exact fun h => ⟨hrow, fun o ho => (hothers o ho).symm.trans (h o ho)⟩
          · exact fun h o ho => (hothers o ho).trans (h.2 o ho)
        by_cases hall : ∀ o ∈ offset :: futureOffsets start now offsets,
            ((chronos cat).apply ws d).reminderJobs.lookup (fresh, o) = none
        · rw [if_pos hall, if_pos (hiff.mpr hall)]
          simp [reminderWrites]
        · rw [if_neg hall, if_neg fun h => hall (hiff.mp h)]
    · rw [if_neg hfire]
      have hoffsets : futureOffsets start now (offset :: offsets) =
          futureOffsets start now offsets := by
        simp [futureOffsets, hfire]
      rw [hoffsets]
      exact ih hbooking hnodup'

/-- The key of the new booking, if it is unused. -/
theorem outcome_insertIdempotencyKey {c : ClientId} {key : Option String} {hash : JsonText}
    (hclient : cat.clients c = true) :
    (insertIdempotencyKey c key hash fresh).outcome (chronos cat) (calmEnv fresh t) (.inside d ws) =
      if ∀ k, truthy key = some k →
          ((chronos cat).apply ws d).idempotencyKeys.lookup (c, k) = none then
        (.ok (), .inside d (ws ++ keyWrites c key hash fresh))
      else (.error (uniqueViolation "idempotency_keys_pkey"), .failed d) := by
  unfold insertIdempotencyKey keyWrites
  cases hkey : truthy key with
  | none => simp
  | some k =>
    cases hrow : ((chronos cat).apply ws d).idempotencyKeys.lookup (c, k) with
    | some old =>
      rw [if_neg fun hall => by rw [hall k rfl] at hrow; cases hrow]
      exact outcome_stopped (insertKey_taken hrow)
    | none =>
      rw [if_pos (by rintro _ ⟨⟩; exact hrow)]
      exact outcome_sure (insertKey_sure hrow hclient)

theorem apply_vacateWrites :
    (chronos cat).apply (vacateWrites req d b slot) d = req.vacated cat b slot d := by
  unfold vacateWrites RescheduleRequest.vacated
  rw [Engine.apply_append]
  rfl

/-- Up to the new booking. -/
theorem outcome_moveRows (hb : d.bookings.lookup req.bookingId = some b)
    (hslot : d.slots.lookup req.newSlotId = some slot) (hopen : slot.status = .«open»)
    (hfuture : now < slot.slotStartUtc) :
    (moveRows req now b row after).outcome (chronos cat) (calmEnv fresh t) (.inside d []) =
      (insertMove req now b row slot.slotStartUtc after).outcome (chronos cat) (calmEnv fresh t)
        (.inside d (vacateWrites req d b slot)) := by
  have htake : (exec cat (.takeSlot req.newSlotId now) fresh ((chronos cat).apply [] d)).result =
      .ok (some { slot with status := .booked },
        [.slot req.newSlotId { slot with status := .booked }]) := by
    have hfound : (d.slots.lookup req.newSlotId).filter (fun row =>
        decide (row.status = .«open» ∧ now < row.slotStartUtc)) = some slot := by
      simp [hslot, hopen, hfuture]
    simp only [exec, updateSlotWhere, Engine.apply_nil, hfound]
  refine (outcome_sure htake).trans ?_
  have hcancel : (exec cat (.cancelBookingRow req.bookingId) fresh ((chronos cat).apply
      ([] ++ [.slot req.newSlotId { slot with status := .booked }]) d)).result =
        .ok ((), [.booking req.bookingId { b with status := .cancelled }]) := by
    have hrow : ((Write.slot req.newSlotId { slot with status := .booked }).apply d).bookings.lookup
        req.bookingId = some b := hb
    show (exec cat _ _ ((Write.slot req.newSlotId { slot with status := .booked }).apply d)).result = _
    simp [exec, hrow, writeBooking, Booking.live]
  refine (outcome_sure hcancel).trans ?_
  refine (outcome_sure (s := .openSlot b.slotId) rfl).trans ?_
  rfl

/-- Why a new booking is refused; it does not depend on the columns that are free. -/
theorem insertBooking_cases (cat : Catalog) (d : Database) (req : RescheduleRequest) (b : Booking)
    (fresh : BookingId) (hslot : (d.slots.lookup req.newSlotId).isSome) :
    (d.bookings.lookup fresh = none ∧ d.otherLive req.newSlotId none = false ∧
        cat.clients b.clientId = true ∧ ∀ row, NewRow req b row →
          (exec cat (.insertBooking row) fresh d).result = .ok (fresh, [.booking fresh row])) ∨
    (¬ (d.bookings.lookup fresh = none ∧ d.otherLive req.newSlotId none = false ∧
        cat.clients b.clientId = true) ∧ ∃ e, ∀ row, NewRow req b row →
          (exec cat (.insertBooking row) fresh d).result = .error e) := by
  have hlive : ∀ {row : Booking}, NewRow req b row → row.live = true := by
    intro row hrow
    simp [Booking.live, hrow.status]
  have hslot' : ∀ {row : Booking}, NewRow req b row → d.slots.lookup row.slotId ≠ none := by
    intro row hrow
    rw [hrow.slotId]
    exact Option.isSome_iff_ne_none.mp hslot
  by_cases hfresh : d.bookings.lookup fresh = none
  · cases hother : d.otherLive req.newSlotId none with
    | true =>
      refine Or.inr ⟨by simp, uniqueViolation "bookings_one_live_per_slot", fun row hrow => ?_⟩
      simp [exec, hfresh, hlive hrow, hrow.slotId, hother]
    | false =>
      cases hclient : cat.clients b.clientId with
      | true =>
        refine Or.inl ⟨hfresh, rfl, rfl, fun row hrow => ?_⟩
        simp [exec, hfresh, hrow.slotId, hother, hslot' hrow, hrow.clientId, hclient]
      | false =>
        refine Or.inr ⟨by simp, foreignKeyViolation "bookings" "bookings_client_id_fkey",
          fun row hrow => ?_⟩
        simp [exec, hfresh, hrow.slotId, hother, hslot' hrow, hrow.clientId, hclient]
  · have hsome : (d.bookings.lookup fresh).isSome = true := Option.isSome_iff_ne_none.mpr hfresh
    refine Or.inr ⟨fun h => hfresh h.1, uniqueViolation "bookings_pkey", fun row hrow => ?_⟩
    simp [exec, hsome]

/-- What follows the `COMMIT` leaves the database as it is. -/
def Silent (cat : Catalog) (fresh : BookingId) (t : Instant) (after : BookingId → Program Unit) :
    Prop :=
  ∀ id d, (after id).outcome (chronos cat) (calmEnv fresh t) (.free d) = (.ok (), .free d)

/-- The tables the constraints of a move are about, once the old booking is cancelled. -/
theorem vacated_free (cat : Catalog) (slot : Slot) (fresh : BookingId)
    (hb : d.bookings.lookup req.bookingId = some b) :
    ((req.vacated cat b slot d).bookings.lookup fresh = none ↔ d.bookings.lookup fresh = none) ∧
    ((req.vacated cat b slot d).otherLive req.newSlotId none = false ↔
      ∀ i, i ≠ req.bookingId → ¬ d.LiveOn req.newSlotId i) := by
  constructor
  · rw [lookup_booking_vacated]
    by_cases hfresh : fresh = req.bookingId
    · rw [if_pos hfresh, hfresh, hb]
      simp
    · rw [if_neg hfresh]
  · refine ⟨insertMoved_free, fun hfree => ?_⟩
    by_contra hother
    rw [Bool.not_eq_false] at hother
    obtain ⟨i, -, row, hrow, hlive, hs⟩ := (otherLive_iff _ _ _).mp hother
    rw [lookup_booking_vacated] at hrow
    by_cases hi : i = req.bookingId
    · -- The old booking is cancelled.
      rw [if_pos hi] at hrow
      rw [← Option.some.inj hrow] at hlive
      simp [Booking.live] at hlive
    · rw [if_neg hi] at hrow
      exact hfree i hi ⟨row, hrow, hlive, hs⟩

/-- The transaction when the old reminders are cancelled. -/
def insertedWrites (req : RescheduleRequest) (fresh : BookingId) (d : Database) (b row : Booking)
    (slot : Slot) : List Write :=
  vacateWrites req d b slot ++ [.booking fresh row] ++ [.cancelReminders req.bookingId]

theorem apply_insertedWrites : (chronos cat).apply (insertedWrites req fresh d b row slot) d =
    (Write.cancelReminders req.bookingId).apply ((Write.booking fresh row).apply
      (req.vacated cat b slot d)) := by
  unfold insertedWrites
  rw [Engine.apply_append, Engine.apply_append, apply_vacateWrites]
  rfl

theorem reminderJobs_insertedWrites (offset : Nat) :
    ((chronos cat).apply (insertedWrites req fresh d b row slot) d).reminderJobs.lookup
        (fresh, offset) = none ↔ d.reminderJobs.lookup (fresh, offset) = none := by
  rw [apply_insertedWrites, lookup_cancelReminders_write]
  show ((req.vacated cat b slot d).reminderJobs.lookup _).map _ = none ↔ _
  rw [reminderJobs_vacated, Option.map_eq_none_iff]

theorem idempotencyKeys_insertedWrites {reminders : List Write}
    (hreminders : ∀ w ∈ reminders, w.OnReminders fresh) :
    ((chronos cat).apply (insertedWrites req fresh d b row slot ++ reminders) d).idempotencyKeys =
      d.idempotencyKeys := by
  rw [Engine.apply_append, (sameBut_apply hreminders).idempotencyKeys, apply_insertedWrites]
  show (req.vacated cat b slot d).idempotencyKeys = _
  rw [idempotencyKeys_vacated]

/-- The reminders and the key of the new booking. -/
theorem outcome_inserted (req : RescheduleRequest) (row : Booking) (slot : Slot)
    (start now t : Instant) (fresh : BookingId) (hclient : cat.clients b.clientId = true) :
    ((insertMovedReminders .ok fresh start now reminderOffsets).bind fun _ =>
        insertIdempotencyKey b.clientId req.idempotencyKey req.json fresh).outcome (chronos cat)
          (calmEnv fresh t) (.inside d (insertedWrites req fresh d b row slot)) =
      if ∀ offset ∈ futureOffsets start now reminderOffsets,
          d.reminderJobs.lookup (fresh, offset) = none then
        if ∀ key, truthy req.idempotencyKey = some key →
            d.idempotencyKeys.lookup (b.clientId, key) = none then
          (.ok (), .inside d (insertedWrites req fresh d b row slot ++
            reminderWrites fresh start (futureOffsets start now reminderOffsets) ++
            keyWrites b.clientId req.idempotencyKey req.json fresh))
        else (.error (uniqueViolation "idempotency_keys_pkey"), .failed d)
      else (.error (uniqueViolation "reminder_jobs_booking_id_offset_minutes_key"), .failed d) := by
  have hbooking : (((chronos cat).apply (insertedWrites req fresh d b row slot) d).bookings.lookup
      fresh).isSome := by
    rw [apply_insertedWrites]
    show (((req.vacated cat b slot d).bookings.insert fresh row).lookup fresh).isSome = true
    rw [AList.lookup_insert]
    rfl
  have hreminders := outcome_insertMovedReminders (t := t) start now reminderOffsets hbooking
    (by decide)
  simp only [reminderJobs_insertedWrites] at hreminders
  by_cases hscheduled : ∀ offset ∈ futureOffsets start now reminderOffsets,
      d.reminderJobs.lookup (fresh, offset) = none
  · rw [if_pos hscheduled] at hreminders ⊢
    rw [outcome_bind hreminders, outcome_insertIdempotencyKey hclient,
      idempotencyKeys_insertedWrites onReminders_reminderWrites]
  · rw [if_neg hscheduled] at hreminders ⊢
    exact outcome_bind_error hreminders

/-- The booking is inserted, and the old reminders are cancelled. -/
theorem outcome_insertMove_ok {after : BookingId → Program Unit} (now t start : Instant)
    (hinsert : (exec cat (.insertBooking row) fresh (req.vacated cat b slot d)).result =
      .ok (fresh, [.booking fresh row])) :
    (insertMove req now b row start after).outcome (chronos cat) (calmEnv fresh t)
        (.inside d (vacateWrites req d b slot)) =
      (((insertMovedReminders .ok fresh start now reminderOffsets).bind fun _ =>
        insertIdempotencyKey b.clientId req.idempotencyKey req.json fresh).bind fun _ =>
          (send .commit).bind fun _ => (after fresh).bind fun _ =>
            ret (.created fresh false)).outcome (chronos cat) (calmEnv fresh t)
        (.inside d (insertedWrites req fresh d b row slot)) := by
  have hx : (exec cat (.insertBooking row) fresh ((chronos cat).apply (vacateWrites req d b slot)
      d)).result = .ok (fresh, [.booking fresh row]) := by
    rw [apply_vacateWrites]
    exact hinsert
  refine (outcome_sure hx).trans ?_
  refine (outcome_sure (s := .cancelReminders req.bookingId) rfl).trans ?_
  rw [bind_assoc]
  rfl

/-- A constraint of `bookings` stops the `INSERT`. -/
theorem outcome_insertMove_error {after : BookingId → Program Unit} (now t start : Instant)
    {e : JsError} (hinsert : (exec cat (.insertBooking row) fresh (req.vacated cat b slot d)).result =
      .error e) :
    (insertMove req now b row start after).outcome (chronos cat) (calmEnv fresh t)
      (.inside d (vacateWrites req d b slot)) = (.error e, .failed d) := by
  have hx : (exec cat (.insertBooking row) fresh ((chronos cat).apply (vacateWrites req d b slot)
      d)).result = .error e := by
    rw [apply_vacateWrites]
    exact hinsert
  exact outcome_stopped hx

/-- The slot asked for is there after the old booking has been cancelled. -/
theorem isSome_vacated (cat : Catalog) (b : Booking) (slot : Slot) (d : Database) :
    ((req.vacated cat b slot d).slots.lookup req.newSlotId).isSome := by
  rw [lookup_slot_vacated]
  split
  · next heq =>
    rw [if_pos heq.symm]
    rfl
  · rw [if_pos rfl]
    rfl

/-- **The rest of a move**: it is committed, or a constraint stops it, whatever the columns of the
    new row that no constraint is about. -/
theorem insertMove_cases (cat : Catalog) (t : Instant) (fresh : BookingId)
    (hb : d.bookings.lookup req.bookingId = some b)
    (hslot : d.slots.lookup req.newSlotId = some slot) (hopen : slot.status = .«open»)
    (hfuture : now < slot.slotStartUtc) :
    (Fits cat d req now fresh b slot ∧ ∀ row after, NewRow req b row → Silent cat fresh t after →
      (insertMove req now b row slot.slotStartUtc after).outcome (chronos cat) (calmEnv fresh t)
        (.inside d (vacateWrites req d b slot)) =
          (.ok (.created fresh false),
            .free ((chronos cat).apply (moveWrites req now fresh d b row slot) d))) ∨
    (¬ Fits cat d req now fresh b slot ∧ ∃ e, ∀ row after, NewRow req b row →
      (insertMove req now b row slot.slotStartUtc after).outcome (chronos cat) (calmEnv fresh t)
        (.inside d (vacateWrites req d b slot)) = (.error e, .failed d)) := by
  obtain ⟨habsent, hfree⟩ := vacated_free cat slot fresh hb
  rcases insertBooking_cases cat (req.vacated cat b slot d) req b fresh (isSome_vacated cat b slot d)
    with ⟨hfresh, hother, hclient, hinsert⟩ | ⟨hnot, e, hinsert⟩
  · by_cases hscheduled : ∀ offset ∈ futureOffsets slot.slotStartUtc now reminderOffsets,
        d.reminderJobs.lookup (fresh, offset) = none
    · by_cases hunused : ∀ key, truthy req.idempotencyKey = some key →
          d.idempotencyKeys.lookup (b.clientId, key) = none
      · refine Or.inl ⟨⟨hslot, hopen, hfuture, habsent.mp hfresh, hfree.mp hother, hclient,
          hscheduled, hunused⟩, fun row after hrow hsilent => ?_⟩
        rw [outcome_insertMove_ok now t _ (hinsert row hrow)]
        have hcommitted :=
          outcome_inserted (d := d) req row slot slot.slotStartUtc now t fresh hclient
        rw [if_pos hscheduled, if_pos hunused] at hcommitted
        rw [outcome_bind hcommitted]
        show ((after fresh).bind fun _ => ret (Reply.created fresh false)).outcome (chronos cat)
          (calmEnv fresh t) (.free ((chronos cat).apply (moveWrites req now fresh d b row slot) d)) = _
        rw [outcome_bind (hsilent fresh _)]
        rfl
      · -- The key is used already.
        refine Or.inr ⟨fun h => hunused h.unused, uniqueViolation "idempotency_keys_pkey",
          fun row after hrow => ?_⟩
        rw [outcome_insertMove_ok now t _ (hinsert row hrow)]
        refine outcome_bind_error ?_
        rw [outcome_inserted _ _ _ _ _ _ _ hclient, if_pos hscheduled, if_neg hunused]
    · -- A reminder of the new booking exists already.
      refine Or.inr ⟨fun h => hscheduled h.unscheduled,
        uniqueViolation "reminder_jobs_booking_id_offset_minutes_key", fun row after hrow => ?_⟩
      rw [outcome_insertMove_ok now t _ (hinsert row hrow)]
      refine outcome_bind_error ?_
      rw [outcome_inserted _ _ _ _ _ _ _ hclient, if_neg hscheduled]
  · refine Or.inr ⟨fun h => hnot ⟨habsent.mpr h.absent, hfree.mpr h.free, h.client⟩, e,
      fun row after hrow => ?_⟩
    exact outcome_insertMove_error now t _ (hinsert row hrow)

/-- A refusal that tells nothing about the booking itself. -/
def Reply.OfMove (reply : Reply) : Prop :=
  reply = .refused 409 "slot_unavailable" ∨ reply.status = 400

theorem ofMove_refusal (e : JsError) : e.refusal.OfMove := by
  unfold JsError.refusal
  split
  · exact Or.inl rfl
  · exact Or.inr rfl

/-- **The move**, from the new slot to the `catch` block. -/
theorem moveRows_cases (cat : Catalog) (now t : Instant) (fresh : BookingId)
    (hb : d.bookings.lookup req.bookingId = some b) :
    (∃ slot, Fits cat d req now fresh b slot ∧ ∀ row after, NewRow req b row →
      Silent cat fresh t after →
      (tryCatch (moveRows req now b row after) refuse).outcome (chronos cat) (calmEnv fresh t)
        (.inside d []) = (.ok (.created fresh false),
          .free ((chronos cat).apply (moveWrites req now fresh d b row slot) d))) ∨
    ((∀ slot, ¬ Fits cat d req now fresh b slot) ∧ ∃ reply : Reply, reply.OfMove ∧
      ∀ row after, NewRow req b row →
        (tryCatch (moveRows req now b row after) refuse).outcome (chronos cat) (calmEnv fresh t)
          (.inside d []) = (.ok reply, .free d)) := by
  cases hfound : (d.slots.lookup req.newSlotId).filter (fun row =>
      decide (row.status = .«open» ∧ now < row.slotStartUtc)) with
  | none =>
    -- There is no open slot ahead to take.
    refine Or.inr ⟨fun slot h => ?_, .refused 409 "slot_unavailable", Or.inl rfl,
      fun row after _ => outcome_tryCatch ?_⟩
    · have hkept : (d.slots.lookup req.newSlotId).filter (fun row =>
          decide (row.status = .«open» ∧ now < row.slotStartUtc)) = some slot := by
        simp [h.newSlot, h.isOpen, h.future]
      rw [hkept] at hfound
      cases hfound
    · have htake : (exec cat (.takeSlot req.newSlotId now) fresh ((chronos cat).apply [] d)).result =
          .ok (none, []) := by
        simp only [exec, updateSlotWhere, Engine.apply_nil, hfound]
        rfl
      exact outcome_sure htake
  | some slot =>
    obtain ⟨hslot, hkept⟩ := Option.filter_eq_some_iff.mp hfound
    obtain ⟨hopen, hfuture⟩ := of_decide_eq_true hkept
    rcases insertMove_cases cat t fresh hb hslot hopen hfuture with ⟨hfits, hmove⟩ | ⟨hnot, e, hmove⟩
    · refine Or.inl ⟨slot, hfits, fun row after hrow hsilent => outcome_tryCatch ?_⟩
      rw [outcome_moveRows hb hslot hopen hfuture]
      exact hmove row after hrow hsilent
    · refine Or.inr ⟨fun slot' h => ?_, e.refusal, ofMove_refusal e, fun row after hrow => ?_⟩
      · have hsame : slot = slot' := Option.some.inj (hslot.symm.trans h.newSlot)
        exact hnot (hsame ▸ h)
      · rw [outcome_tryCatch_error ((outcome_moveRows hb hslot hopen hfuture).trans
          (hmove row after hrow))]
        exact outcome_refuse e _

/-! ### The outcomes of both calls -/

/-- The function of `apps/api`, up to the window check. -/
theorem outcome_loadBooking (cat : Catalog) (d : Database) (req : RescheduleRequest)
    (fresh : BookingId) (t : Instant) :
    (loadBooking req).outcome (chronos cat) (calmEnv fresh t) (.free d) =
      (.ok (req.check (d.bookings.lookup req.bookingId)), .free d) := by
  refine (outcome_control rfl rfl).trans ?_
  refine (outcome_sure (exec_selectBookingForUpdate req.bookingId fresh)).trans ?_
  simp only [andThen, Engine.apply_nil]
  cases req.check (d.bookings.lookup req.bookingId) with
  | error refusal => rfl
  | ok b => rfl

/-- `rescheduleBooking` of `apps/api`, which has no queue. -/
theorem outcome_rescheduleBooking (cat : Catalog) (d : Database) (req : RescheduleRequest)
    (nowUtc : Option Instant) (fresh : BookingId) (t : Instant) :
    (rescheduleBooking .ok req nowUtc false).outcome (chronos cat) (calmEnv fresh t) (.free d) =
      match req.check (d.bookings.lookup req.bookingId) with
      | .error refusal => (.ok refusal, .free d)
      | .ok b =>
        if req.windowExpired (d.slots.lookup b.slotId) (nowUtc.getD t) then
          (.ok (.refused 409 "window_expired"), .free d)
        else
          (tryCatch (moveRows req (nowUtc.getD t) b (b.movedTo req.newSlotId) fun id =>
            afterMove req id false) refuse).outcome (chronos cat) (calmEnv fresh t)
              (.inside d []) := by
  have hat : (rescheduleBooking .ok req nowUtc false).outcome (chronos cat) (calmEnv fresh t)
      (.free d) = (rescheduleBookingAt .ok req (nowUtc.getD t) false).outcome (chronos cat)
        (calmEnv fresh t) (.free d) := by
    cases nowUtc <;> rfl
  have hrelease : ∀ st, (perform (.release .clientPre)).outcome (chronos cat) (calmEnv fresh t) st =
      (.ok (), st) := outcome_perform rfl
  refine hat.trans ((outcome_bind (outcome_perform rfl _)).trans ?_)
  rw [outcome_tryFinally hrelease, bind_eq, outcome_bind (outcome_loadBooking cat d req fresh t)]
  cases hcheck : req.check (d.bookings.lookup req.bookingId) with
  | error refusal => rfl
  | ok b =>
    refine (outcome_read (s := Stmt.selectSlot b.slotId) rfl rfl).trans ?_
    simp only [andThen]
    split
    · rfl
    · have hclient : ∀ st, (perform (.release .client)).outcome (chronos cat) (calmEnv fresh t) st =
          (.ok (), st) := outcome_perform rfl
      refine (outcome_bind (outcome_perform rfl _)).trans ?_
      rw [outcome_tryFinally hclient, moveTransaction_eq]
      -- The booking is loaded again, and passes the same check.
      refine (outcome_control rfl rfl).trans ?_
      refine (outcome_sure (exec_selectBookingForUpdate req.bookingId fresh)).trans ?_
      simp only [andThen, Engine.apply_nil, hcheck]
      rfl

/-- `rescheduleBooking` of `packages/contracts`. -/
theorem outcome_contracts_rescheduleBooking (cat : Catalog) (d : Database) (req : RescheduleRequest)
    (nowUtc : Option Instant) (fresh : BookingId) (t : Instant) :
    (Contracts.rescheduleBooking .ok req nowUtc).outcome (chronos cat) (calmEnv fresh t) (.free d) =
      match d.bookings.lookup req.bookingId with
      | none => (.ok (.refused 404 "not_found"), .free d)
      | some b =>
        if !req.version.isInt b.version || !req.ifMatch.isInt b.version then
          (.ok (.refused 412 "version_mismatch"), .free d)
        else if req.windowExpired (d.slots.lookup b.slotId) (nowUtc.getD t) then
          (.ok (.refused 409 "window_expired"), .free d)
        else
          (tryCatch (moveRows req (nowUtc.getD t) b (Contracts.movedRow b req.newSlotId) fun _ =>
            pure ()) refuse).outcome (chronos cat) (calmEnv fresh t) (.inside d []) := by
  have hat : (Contracts.rescheduleBooking .ok req nowUtc).outcome (chronos cat) (calmEnv fresh t)
      (.free d) = (Contracts.rescheduleBookingAt .ok req (nowUtc.getD t)).outcome (chronos cat)
        (calmEnv fresh t) (.free d) := by
    cases nowUtc <;> rfl
  refine hat.trans ((outcome_read (s := Stmt.selectBooking req.bookingId) rfl rfl).trans ?_)
  simp only [andThen]
  cases d.bookings.lookup req.bookingId with
  | none => rfl
  | some b =>
    simp only
    split
    · rfl
    · refine (outcome_read (s := Stmt.selectSlot b.slotId) rfl rfl).trans ?_
      simp only [andThen]
      split
      · rfl
      · exact outcome_control rfl rfl

/-! ### Where they agree -/

theorem silent_afterMove (cat : Catalog) (req : RescheduleRequest) (fresh : BookingId) (t : Instant) :
    Silent cat fresh t fun id => afterMove req id false := fun _ _ => rfl

theorem silent_pure (cat : Catalog) (fresh : BookingId) (t : Instant) :
    Silent cat fresh t fun _ => pure () := fun _ _ => rfl

theorem newRow_movedTo (req : RescheduleRequest) (b : Booking) :
    NewRow req b (b.movedTo req.newSlotId) := ⟨rfl, rfl, rfl⟩

theorem newRow_movedRow (req : RescheduleRequest) (b : Booking) :
    NewRow req b (Contracts.movedRow b req.newSlotId) := ⟨rfl, rfl, rfl⟩

/-- The rows they insert differ in the time zone only. -/
theorem movedTo_eq_movedRow {s : SlotId} :
    b.movedTo s = Contracts.movedRow b s ↔ b.clientTimezone = "" ∨ b.clientTimezone = "UTC" := by
  have hzone : b.movedTo s = Contracts.movedRow b s ↔
      (if b.clientTimezone = "" then "UTC" else b.clientTimezone) = "UTC" := by
    simp [Booking.movedTo, Contracts.movedRow]
  rw [hzone]
  by_cases hempty : b.clientTimezone = ""
  · simp [hempty]
  · simp [hempty]

/-- The booking a move inserts. -/
theorem lookup_booking_moveWrites :
    ((chronos cat).apply (moveWrites req now fresh d b row slot) d).bookings.lookup fresh =
      some row := by
  have hinserted : moveWrites req now fresh d b row slot = insertedWrites req fresh d b row slot ++
      reminderWrites fresh slot.slotStartUtc (futureOffsets slot.slotStartUtc now reminderOffsets) ++
      keyWrites b.clientId req.idempotencyKey req.json fresh := rfl
  rw [hinserted, Engine.apply_append, Engine.apply_append, bookings_keyWrites.1,
    (sameBut_apply onReminders_reminderWrites).bookings, apply_insertedWrites]
  show ((req.vacated cat b slot d).bookings.insert fresh row).lookup fresh = some row
  rw [AList.lookup_insert]

/-- The same status and the same error. -/
def SameAnswer (r₁ r₂ : Except JsError Reply) : Prop :=
  r₁.map (fun reply => (reply.status, reply.error)) =
    r₂.map fun reply => (reply.status, reply.error)

/-- **The two implementations agree** on a request, the tables `d` and the surroundings: each run
    alone, they answer the same and leave the same tables. -/
def ImplementationsAgree (cat : Catalog) (d : Database) (req : RescheduleRequest)
    (nowUtc : Option Instant) (fresh : BookingId) (t : Instant) : Prop :=
  ∀ d₁ d₂ r₁ r₂,
    Alone (chronos cat) (· = calmEnv fresh t) d (rescheduleBooking .ok req nowUtc false) d₁ r₁ →
    Alone (chronos cat) (· = calmEnv fresh t) d (Contracts.rescheduleBooking .ok req nowUtc) d₂ r₂ →
    SameAnswer r₁ r₂ ∧ SameTables d₁ d₂

theorem implementationsAgree_iff {nowUtc : Option Instant} {r₁ r₂ : Except JsError Reply}
    {st₁ st₂ : Place Database Write}
    (h₁ : (rescheduleBooking .ok req nowUtc false).outcome (chronos cat) (calmEnv fresh t) (.free d) =
      (r₁, st₁))
    (h₂ : (Contracts.rescheduleBooking .ok req nowUtc).outcome (chronos cat) (calmEnv fresh t)
      (.free d) = (r₂, st₂)) :
    ImplementationsAgree cat d req nowUtc fresh t ↔ SameAnswer r₁ r₂ ∧ SameTables st₁.db st₂.db := by
  have halone₁ : ∀ d' r', Alone (chronos cat) (· = calmEnv fresh t) d
      (rescheduleBooking .ok req nowUtc false) d' r' ↔ r₁ = r' ∧ st₁.db = d' := by
    intro d' r'
    rw [alone_iff_outcome, h₁]
  have halone₂ : ∀ d' r', Alone (chronos cat) (· = calmEnv fresh t) d
      (Contracts.rescheduleBooking .ok req nowUtc) d' r' ↔ r₂ = r' ∧ st₂.db = d' := by
    intro d' r'
    rw [alone_iff_outcome, h₂]
  constructor
  · intro h
    exact h _ _ _ _ ((halone₁ _ _).mpr ⟨rfl, rfl⟩) ((halone₂ _ _).mpr ⟨rfl, rfl⟩)
  · intro h d₁ d₂ r₁' r₂' hrun₁ hrun₂
    obtain ⟨rfl, rfl⟩ := (halone₁ _ _).mp hrun₁
    obtain ⟨rfl, rfl⟩ := (halone₂ _ _).mp hrun₂
    exact h

/-- A booking that is not booked is refused by one of them only. -/
theorem not_sameAnswer_invalid {r : Except JsError Reply}
    (h : ∃ reply : Reply, r = .ok reply ∧
      (reply.status = 201 ∨ reply.OfMove ∨ reply = .refused 409 "window_expired")) :
    ¬ SameAnswer (.ok (.refused 409 "invalid_transition")) r := by
  obtain ⟨reply, rfl, hreply⟩ := h
  intro hsame
  obtain ⟨hstatus, herror⟩ := Prod.mk.inj (Except.ok.inj hsame)
  rcases hreply with hcreated | (rfl | hbad) | rfl
  · rw [hcreated] at hstatus
    exact absurd hstatus (by decide)
  · exact absurd herror (by decide)
  · rw [hbad] at hstatus
    exact absurd hstatus (by decide)
  · exact absurd herror (by decide)

/-- A booking that is booked, and that the client knows. -/
theorem agree_booked {nowUtc : Option Instant} (hb : d.bookings.lookup req.bookingId = some b)
    (hmatch : (!req.version.isInt b.version || !req.ifMatch.isInt b.version) = false)
    (hbooked : b.status = .booked) :
    ImplementationsAgree cat d req nowUtc fresh t ↔
      req.windowExpired (d.slots.lookup b.slotId) (nowUtc.getD t) = true ∨
        b.clientTimezone = "" ∨ b.clientTimezone = "UTC" ∨
        ∀ slot, ¬ Fits cat d req (nowUtc.getD t) fresh b slot := by
  have hcheck : req.check (d.bookings.lookup req.bookingId) = .ok b := by
    simp [RescheduleRequest.check, hb, hmatch, hbooked]
  have hapi := outcome_rescheduleBooking cat d req nowUtc fresh t
  have hpackage := outcome_contracts_rescheduleBooking cat d req nowUtc fresh t
  rw [hcheck] at hapi
  simp only [hb, hmatch, Bool.false_eq_true, if_false] at hpackage
  by_cases hexpired : req.windowExpired (d.slots.lookup b.slotId) (nowUtc.getD t) = true
  · -- Both refuse a change that comes too late.
    simp only [hexpired, if_true] at hapi hpackage
    rw [implementationsAgree_iff hapi hpackage]
    exact ⟨fun _ => Or.inl hexpired, fun _ => ⟨rfl, SameTables.refl d⟩⟩
  · simp only [hexpired] at hapi hpackage
    rcases moveRows_cases cat (nowUtc.getD t) t fresh hb with ⟨slot, hfits, hmove⟩ |
      ⟨hnot, reply, -, hmove⟩
    · -- Both move the booking, and insert rows of their own.
      rw [hmove _ _ (newRow_movedTo req b) (silent_afterMove cat req fresh t)] at hapi
      rw [hmove _ _ (newRow_movedRow req b) (silent_pure cat fresh t)] at hpackage
      rw [implementationsAgree_iff hapi hpackage]
      constructor
      · rintro ⟨-, htables⟩
        have hrows := congrArg (AList.lookup fresh) htables.bookings
        simp only [Place.db, lookup_booking_moveWrites, Option.some.injEq] at hrows
        rcases movedTo_eq_movedRow.mp hrows.symm with hempty | hutc
        · exact Or.inr (Or.inl hempty)
        · exact Or.inr (Or.inr (Or.inl hutc))
      · intro h
        have hrows : b.movedTo req.newSlotId = Contracts.movedRow b req.newSlotId := by
          rcases h with h | hempty | hutc | hnone
          · exact absurd h hexpired
          · exact movedTo_eq_movedRow.mpr (Or.inl hempty)
          · exact movedTo_eq_movedRow.mpr (Or.inr hutc)
          · exact absurd hfits (hnone slot)
        rw [hrows]
        exact ⟨rfl, SameTables.refl _⟩
    · -- Neither moves the booking.
      rw [hmove _ _ (newRow_movedTo req b)] at hapi
      rw [hmove _ _ (newRow_movedRow req b)] at hpackage
      rw [implementationsAgree_iff hapi hpackage]
      exact ⟨fun _ => Or.inr (Or.inr (Or.inr hnot)), fun _ => ⟨rfl, SameTables.refl d⟩⟩

/-- A booking that is cancelled, completed or missed: the package does not ask. -/
theorem disagree_not_booked {nowUtc : Option Instant}
    (hb : d.bookings.lookup req.bookingId = some b)
    (hmatch : (!req.version.isInt b.version || !req.ifMatch.isInt b.version) = false)
    (hstatus : b.status ≠ .booked) : ¬ ImplementationsAgree cat d req nowUtc fresh t := by
  have hcheck : req.check (d.bookings.lookup req.bookingId) =
      .error (.refused 409 "invalid_transition") := by
    simp [RescheduleRequest.check, hb, hmatch, hstatus]
  have hapi := outcome_rescheduleBooking cat d req nowUtc fresh t
  have hpackage := outcome_contracts_rescheduleBooking cat d req nowUtc fresh t
  rw [hcheck] at hapi
  simp only [hb, hmatch, Bool.false_eq_true, if_false] at hpackage
  split at hpackage
  · rw [implementationsAgree_iff hapi hpackage]
    rintro ⟨hsame, -⟩
    exact not_sameAnswer_invalid ⟨_, rfl, Or.inr (Or.inr rfl)⟩ hsame
  · rcases moveRows_cases cat (nowUtc.getD t) t fresh hb with ⟨slot, -, hmove⟩ |
      ⟨-, reply, hreply, hmove⟩
    · rw [hmove _ _ (newRow_movedRow req b) (silent_pure cat fresh t)] at hpackage
      rw [implementationsAgree_iff hapi hpackage]
      rintro ⟨hsame, -⟩
      exact not_sameAnswer_invalid ⟨_, rfl, Or.inl rfl⟩ hsame
    · rw [hmove _ _ (newRow_movedRow req b)] at hpackage
      rw [implementationsAgree_iff hapi hpackage]
      rintro ⟨hsame, -⟩
      exact not_sameAnswer_invalid ⟨reply, rfl, Or.inr (Or.inl hreply)⟩ hsame

end Outcome

/-- **The two implementations of `rescheduleBooking` agree** exactly on the bookings the package
    could not mistake: a booking that is not found, or whose version does not match, or one that is
    booked, and that is not moved or whose client is in `UTC`. -/
theorem implementations_agree_exactly (cat : Catalog) (d : Database) (req : RescheduleRequest)
    (nowUtc : Option Instant) (fresh : BookingId) (t : Instant) :
    ImplementationsAgree cat d req nowUtc fresh t ↔
      ∀ b, d.bookings.lookup req.bookingId = some b → req.version.isInt b.version = true →
        req.ifMatch.isInt b.version = true → b.status = .booked ∧
          (req.windowExpired (d.slots.lookup b.slotId) (nowUtc.getD t) = true ∨
            b.clientTimezone = "" ∨ b.clientTimezone = "UTC" ∨
            ∀ slot, ¬ Fits cat d req (nowUtc.getD t) fresh b slot) := by
  have hapi := outcome_rescheduleBooking cat d req nowUtc fresh t
  have hpackage := outcome_contracts_rescheduleBooking cat d req nowUtc fresh t
  cases hb : d.bookings.lookup req.bookingId with
  | none =>
    -- Neither finds the booking.
    rw [hb] at hapi hpackage
    rw [implementationsAgree_iff hapi hpackage]
    simp [SameAnswer, SameTables.refl]
  | some b =>
    cases hmatch : !req.version.isInt b.version || !req.ifMatch.isInt b.version with
    | true =>
      simp only [hb, RescheduleRequest.check, hmatch, if_true] at hapi hpackage
      rw [implementationsAgree_iff hapi hpackage]
      refine ⟨fun _ b' hb' hversion hifMatch => ?_, fun _ => ⟨rfl, SameTables.refl d⟩⟩
      obtain rfl := Option.some.inj hb'
      simp [hversion, hifMatch] at hmatch
    | false =>
      have hmatched : req.version.isInt b.version = true ∧ req.ifMatch.isInt b.version = true := by
        simpa using hmatch
      by_cases hbooked : b.status = .booked
      · rw [agree_booked hb hmatch hbooked]
        constructor
        · rintro h b' hb' - -
          obtain rfl := Option.some.inj hb'
          exact ⟨hbooked, h⟩
        · exact fun h => (h b rfl hmatched.1 hmatched.2).2
      · refine ⟨fun h => absurd h (disagree_not_booked hb hmatch hbooked), fun h => ?_⟩
        exact absurd (h b rfl hmatched.1 hmatched.2).1 hbooked

/-- `sampleTwoSlots` after booking `1` was cancelled and its slot was booked by booking `2`. -/
def sampleRebooked : Database :=
  { sampleTwoSlots with
    bookings := ((∅ : AList fun _ => Booking).insert 1 (sampleBooking .cancelled 1)).insert 2
      (sampleBooking .booked 1) }

/-- The cancelled booking is moved, and the slot of booking `2` is open. -/
theorem cancelled_booking_moved : ∃ d',
    Alone (chronos sampleCatalog) (· = calmEnv 3 0) sampleRebooked
      (rescheduleBooking .ok sampleMove (some 0) false) sampleRebooked
        (.ok (.refused 409 "invalid_transition")) ∧
    Alone (chronos sampleCatalog) (· = calmEnv 3 0) sampleRebooked
      (Contracts.rescheduleBooking .ok sampleMove (some 0)) d' (.ok (.created 3 false)) ∧
    d'.LiveOn 1 2 ∧ (d'.slots.lookup 1).map Slot.status = some .«open» ∧
    ¬ ImplementationsAgree sampleCatalog sampleRebooked sampleMove (some 0) 3 0 := by
  have hrun : ∃ d', (Contracts.rescheduleBooking .ok sampleMove (some 0)).outcome
      (chronos sampleCatalog) (calmEnv 3 0) (.free sampleRebooked) =
        (.ok (.created 3 false), .free d') ∧ d'.LiveOn 1 2 ∧
          (d'.slots.lookup 1).map Slot.status = some .«open» :=
    ⟨_, by with_unfolding_all rfl, ⟨sampleBooking .booked 1, rfl, rfl, rfl⟩, rfl⟩
  obtain ⟨d', hpackage, hlive, hopen⟩ := hrun
  have hapi : (rescheduleBooking .ok sampleMove (some 0) false).outcome (chronos sampleCatalog)
      (calmEnv 3 0) (.free sampleRebooked) =
        (.ok (.refused 409 "invalid_transition"), .free sampleRebooked) := by
    with_unfolding_all rfl
  refine ⟨d', alone_iff_outcome.mpr (by rw [hapi]; exact ⟨rfl, rfl⟩),
    alone_iff_outcome.mpr (by rw [hpackage]; exact ⟨rfl, rfl⟩), hlive, hopen, ?_⟩
  rw [implementationsAgree_iff hapi hpackage]
  rintro ⟨hsame, -⟩
  exact not_sameAnswer_invalid ⟨_, rfl, Or.inl rfl⟩ hsame

end Chronos
