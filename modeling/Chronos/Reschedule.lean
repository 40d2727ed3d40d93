import Chronos.CreateBooking

namespace Chronos

open ReadCommitted ReadCommitted.Prog

/-!
# `rescheduleBooking`

The function `rescheduleBooking(pool, req, nowUtc, reminderQueue)` of
`reschedule.service.ts`: it reads the booking in a first transaction (`loadBooking`), checks
the cancellation window outside any, and moves the booking in a second one (`moveBooking`).

`fromColumn` is what `Temporal.Instant.from` makes of the start time the driver returns for
the new slot; it is `Except.ok` where timestamps are abstracted to instants.

`keeps_rescheduleBooking` says everything it can do: read, commit one guarded move
(`GuardedMove`), and after that write reminder rows of the two bookings.
-/

structure RescheduleRequest where
  bookingId : BookingId
  spelling : Spelling
  newSlotId : SlotId
  idempotencyKey : Option String
  version : JsValue
  ifMatch : JsValue
  cancellationWindowHours : JsValue
  deriving DecidableEq

/-- `JSON.stringify(req)`. -/
def RescheduleRequest.json (req : RescheduleRequest) : JsonText :=
  [("bookingId", req.spelling.json req.bookingId), ("newSlotId", .id req.newSlotId)] ++
    (req.idempotencyKey.map fun k => ("idempotencyKey", Json.str k)).toList ++
    req.version.property "version" ++ req.ifMatch.property "ifMatch" ++
    req.cancellationWindowHours.property "cancellationWindowHours"

/-- The checks of a loaded booking, in the order both transactions make them. -/
def RescheduleRequest.check (req : RescheduleRequest) (b : Option Booking) : Except Reply Booking :=
  match b with
  | none => .error (.refused 404 "not_found")
  | some b =>
    if !req.version.isInt b.version || !req.ifMatch.isInt b.version then
      .error (.refused 412 "version_mismatch")
    else if b.status ≠ .booked then
      .error (.refused 409 "invalid_transition")
    else .ok b

/-- The check of the cancellation window against the source slot; `windowHours` is
    `req.cancellationWindowHours ?? 24`. -/
def RescheduleRequest.windowExpired (req : RescheduleRequest) (slotRes : Option Slot)
    (effectiveNow : Instant) : Bool :=
  let startMs := (slotRes.map Slot.slotStartUtc).getD effectiveNow
  req.cancellationWindowHours.orTwentyFour.windowExpired startMs effectiveNow

/-- The row `rescheduleBooking` inserts; `client_timezone || 'UTC'`. -/
def Booking.movedTo (b : Booking) (slotId : SlotId) : Booking where
  slotId := slotId
  clientId := b.clientId
  clientTimezone := if b.clientTimezone = "" then "UTC" else b.clientTimezone
  providerId := none
  eventTypeId := none
  status := .booked
  version := b.version + 1
  notes := none
  clientNotes := none

/-- Insert the reminder jobs of the new booking that fire after `nowMs`. -/
def insertMovedReminders (fromColumn : Instant → Except JsError Instant) (bookingId : BookingId)
    (slotStartUtc nowMs : Instant) : List Nat → Program Unit
  | [] => pure ()
  | offset :: offsets =>
    match fromColumn slotStartUtc with
    | .error e => throw e
    | .ok start => do
      let fireMs := start - minutesMs offset
      if fireMs > nowMs then
        dbQuery (.insertReminder bookingId offset fireMs)
      insertMovedReminders fromColumn bookingId slotStartUtc nowMs offsets

/-- What follows the `COMMIT`: the queue and the records of the event, none of which may
    fail the request. -/
def afterMove (req : RescheduleRequest) (newBookingId : BookingId) (reminderQueue : Bool) :
    Program Unit := do
  if reminderQueue then
    tryCatch (cancelForBooking (some req.bookingId) req.spelling) fun _ => pure ()
  let _ ← call (.effect (.recordReschedule newBookingId))
  if reminderQueue then
    tryCatch (enqueueReminders req.newSlotId newBookingId clockNow) fun _ => pure ()

/-- The second transaction: lock source booking, cancel old, book new. -/
def moveTransaction (fromColumn : Instant → Except JsError Instant) (req : RescheduleRequest)
    (effectiveNow : Instant) (reminderQueue : Bool) : Program Reply :=
  tryCatch
    (do
      send .beginTx
      match req.check (← dbQuery (.selectBookingForUpdate req.bookingId)) with
      | .error refusal =>
        send .rollback
        pure refusal
      | .ok bLock =>
        match ← dbQuery (.takeSlot req.newSlotId effectiveNow) with
        | none =>
          send .rollback
          pure (.refused 409 "slot_unavailable")
        | some newSlot =>
          dbQuery (.cancelBookingRow req.bookingId)
          dbQuery (.openSlot bLock.slotId)
          let newBookingId ← dbQuery (.insertBooking (bLock.movedTo req.newSlotId))
          dbQuery (.cancelReminders req.bookingId)
          insertMovedReminders fromColumn newBookingId newSlot.slotStartUtc effectiveNow
            reminderOffsets
          insertIdempotencyKey bLock.clientId req.idempotencyKey req.json newBookingId
          send .commit
          afterMove req newBookingId reminderQueue
          pure (.created newBookingId false))
    fun e => do
      rollbackQuietly
      pure e.refusal

/-- The window check and the second transaction, once the booking `b` is loaded. -/
def moveBooking (fromColumn : Instant → Except JsError Instant) (req : RescheduleRequest)
    (effectiveNow : Instant) (reminderQueue : Bool) (b : Booking) : Program Reply := do
  let slotRes ← dbQuery (.selectSlot b.slotId)
  if req.windowExpired slotRes effectiveNow then
    pure (.refused 409 "window_expired")
  else
    perform (.connect .client)
    tryFinally (moveTransaction fromColumn req effectiveNow reminderQueue)
      (perform (.release .client))

/-- The first transaction: load the booking, with the source-status guard. -/
def loadBooking (req : RescheduleRequest) : Program (Except Reply Booking) := do
  send .beginTx
  match req.check (← dbQuery (.selectBookingForUpdate req.bookingId)) with
  | .error refusal =>
    send .rollback
    perform (.release .clientPre)
    pure (.error refusal)
  | .ok b =>
    send .commit
    perform (.release .clientPre)
    pure (.ok b)

/-- `rescheduleBooking` at time `effectiveNow`. -/
def rescheduleBookingAt (fromColumn : Instant → Except JsError Instant) (req : RescheduleRequest)
    (effectiveNow : Instant) (reminderQueue : Bool) : Program Reply := do
  perform (.connect .clientPre)
  tryFinally
    (do
      match ← loadBooking req with
      | .error refusal => pure refusal
      | .ok b => moveBooking fromColumn req effectiveNow reminderQueue b)
    (perform (.release .clientPre))

/-- `rescheduleBooking(pool, req, nowUtc, reminderQueue)`. -/
def rescheduleBooking (fromColumn : Instant → Except JsError Instant) (req : RescheduleRequest)
    (nowUtc : Option Instant) (reminderQueue : Bool) : Program Reply := do
  let effectiveNow ← match nowUtc with
    | some now => pure now
    | none => clockNow
  rescheduleBookingAt fromColumn req effectiveNow reminderQueue

/-! ### The transactions keep the discipline -/

section Ok

variable {cat : Catalog} {adm : Stmt → Database → Prop}
variable {fromColumn : Instant → Except JsError Instant} {req : RescheduleRequest}

theorem check_ok {b : Option Booking} {row : Booking} (h : req.check b = .ok row) :
    b = some row ∧ req.version.isInt row.version = true ∧ req.ifMatch.isInt row.version = true ∧
      row.status = .booked := by
  unfold RescheduleRequest.check at h
  cases b with
  | none => cases h
  | some b =>
    dsimp only at h
    split at h
    · cases h
    · next hv =>
      split at h
      · cases h
      · next hs =>
        obtain rfl := by simpa using h
        simp only [Bool.or_eq_true, Bool.not_eq_true', not_or, Bool.not_eq_false] at hv
        exact ⟨rfl, hv.1, hv.2, by simpa using hs⟩

theorem check_error {b : Option Booking} {r : Reply} (h : req.check b = .error r) :
    NotCreated (.ok r) := by
  unfold RescheduleRequest.check at h
  split at h
  · rw [← Except.error.inj h]
    exact notCreated_refused _ _
  · split at h
    · rw [← Except.error.inj h]
      exact notCreated_refused _ _
    · split at h
      · rw [← Except.error.inj h]
        exact notCreated_refused _ _
      · cases h

theorem ok_insertMovedReminders (hadm : LocalTo cat adm) {b : BookingId} {start nowMs : Instant}
    (offsets : List Nat) {held : List Lock} (hb : .booking b ∈ held) :
    (insertMovedReminders fromColumn b start nowMs offsets).OkTo (chronos cat) value adm
      (Mode.Within held) (.inside held) := by
  induction offsets generalizing held with
  | nil => exact okTo_ret.mpr ⟨[], by simp⟩
  | cons offset offsets ih =>
    unfold insertMovedReminders
    split
    · exact okTo_throw.mpr trivial
    · simp only [bind_eq]
      split
      · refine OkTo.pinned (fun o d => pinned_insertReminder hadm hb) (fun o d r => ?_)
          fun _ => okTo_throw.mpr trivial
        exact (ih (List.mem_append_left _ hb)).mono fun m r => Mode.Within.append
      · exact ih hb

theorem ok_afterMove (b : BookingId) (queue : Bool) :
    (afterMove req b queue).OkTo (chronos cat) value adm Mode.Outside .free := by
  have hpure : (ret () : Program Unit).OkTo (chronos cat) value adm Mode.Outside .free :=
    okTo_ret.mpr rfl
  have hnow : clockNow.OkTo (chronos cat) value adm Mode.Outside .free := fun _ => okTo_ret.mpr rfl
  have hcancel : ((cancelForBooking (some req.bookingId) req.spelling).tryCatch fun _ => ret ()).OkTo
      (chronos cat) value adm Mode.Outside .free :=
    (ok_cancelForBooking _ _).outside_tryCatch fun _ => hpure
  have henqueue : ((enqueueReminders req.newSlotId b clockNow).tryCatch fun _ => ret ()).OkTo
      (chronos cat) value adm Mode.Outside .free :=
    (ok_enqueueReminders hnow).outside_tryCatch fun _ => hpure
  cases queue with
  | false => exact fun _ => hpure
  | true => exact hcancel.outside_bind (fun _ _ => henqueue) fun _ => rfl

theorem ok_moveTransaction (hadm : LocalTo cat adm) (now : Instant) (queue : Bool) :
    (moveTransaction fromColumn req now queue).Ok (chronos cat) value adm .free := by
  have hgiveUp : ∀ r : Reply, (Prog.control .rollback (ret r) Prog.throw : Program Reply).OkTo
      (chronos cat) value adm Mode.Caught .doomed :=
    fun r => ⟨okTo_ret.mpr trivial, fun _ => okTo_throw.mpr trivial⟩
  refine OkTo.caught (fun e => .ok e.refusal) ⟨?_, fun _ => okTo_throw.mpr trivial⟩
  simp only [andThen]
  refine ⟨fun o d r ws hx => ?_, fun _ => okTo_throw.mpr trivial⟩
  change (exec cat (.selectBookingForUpdate req.bookingId) o d).result = _ at hx
  obtain ⟨rfl, rfl⟩ := selectBookingForUpdate_ok hx
  cases hcheck : req.check (d.bookings.lookup req.bookingId) with
  | error refusal =>
    simp only [andThen, hcheck]
    exact Or.inr ⟨trivial, hgiveUp refusal⟩
  | ok bLock =>
    obtain ⟨hrow, -⟩ := check_ok hcheck
    simp only [andThen, hcheck]
    refine Or.inl ⟨pinned_selectBookingForUpdate hadm hrow, ?_⟩
    refine ⟨fun o d r ws hx => ?_, fun _ => okTo_throw.mpr trivial⟩
    -- Without a row the transaction is closed at once; with one the slot is locked from here on.
    rcases updateSlotWhere_ok hx with ⟨rfl, -⟩ | ⟨row, -, -, rfl, -, hlocks⟩
    · exact Or.inr ⟨trivial, hgiveUp _⟩
    · have hslot : .slot req.newSlotId ∈ ((chronos cat).exec (.takeSlot req.newSlotId now) o d).locks := by
        change _ ∈ (updateSlotWhere _ _ _ _).locks
        rw [hlocks]
        exact List.mem_singleton_self _
      refine Or.inl ⟨pinned_takeSlot hadm hslot, ?_⟩
      refine OkTo.pinned (fun _ _ => pinned_cancelBookingRow hadm) (fun _ _ _ => ?_)
        fun _ => okTo_throw.mpr trivial
      refine OkTo.pinned (fun _ _ => pinned_openSlot hadm) (fun _ _ _ => ?_)
        fun _ => okTo_throw.mpr trivial
      have hheld : ∀ l₁ l₂ l₃ : List Lock, .slot req.newSlotId ∈ l₁ ++
          ((chronos cat).exec (.takeSlot req.newSlotId now) o d).locks ++ l₂ ++ l₃ := by
        intro l₁ l₂ l₃
        simp [hslot]
      refine ⟨fun o d r ws hx => Or.inl ⟨pinned_insertBooking hadm (hheld _ _ _), ?_⟩,
        fun _ => okTo_throw.mpr trivial⟩
      obtain ⟨rfl, -⟩ := insertBooking_ok hx
      refine OkTo.pinned (fun _ _ => pinned_cancelReminders hadm) (fun _ _ _ => ?_)
        fun _ => okTo_throw.mpr trivial
      refine (ok_insertMovedReminders hadm _ (by simp [chronos, exec])).bind ?_ fun _ _ _ => trivial
      rintro m - ⟨more, rfl⟩
      refine (ok_insertIdempotencyKey hadm).bind ?_ fun _ _ _ => trivial
      rintro m - ⟨more', rfl⟩
      refine ⟨?_, fun _ => okTo_throw.mpr trivial⟩
      exact (ok_afterMove _ queue).outside_bind (fun _ => okTo_ret.mpr trivial) fun _ => trivial

theorem ok_moveBooking (hadm : LocalTo cat adm) (now : Instant) (queue : Bool) (b : Booking) :
    (moveBooking fromColumn req now queue b).Ok (chronos cat) value adm .free := by
  refine ⟨fun slotRes => ?_, fun _ => okTo_throw.mpr trivial⟩
  simp only [andThen]
  split
  · exact okTo_ret.mpr trivial
  · refine OkTo.outside_bind (ok_perform (fun _ => rfl) fun _ => rfl) (fun _ => ?_) fun _ => trivial
    exact ok_finallyRelease (ok_moveTransaction hadm now queue)

/-- The first transaction has no `catch` block: an error leaves it open and aborted. -/
theorem ok_loadBooking (hadm : LocalTo cat adm) :
    (loadBooking req).OkTo (chronos cat) value adm
      (fun m r => m = .free ∨ m = .doomed ∧ ∃ e, r = .error e) .free := by
  have hrelease : ∀ x : Except Reply Booking, ((perform (.release .clientPre)).bind fun _ =>
      ret x).OkTo (chronos cat) value adm
        (fun m r => m = .free ∨ m = .doomed ∧ ∃ e, r = .error e) .free := fun x =>
    OkTo.outside_bind (ok_perform (fun _ => rfl) fun _ => rfl) (fun _ => okTo_ret.mpr (Or.inl rfl))
      fun _ => Or.inl rfl
  have hthrow : ∀ e, (Prog.throw e : Program (Except Reply Booking)).OkTo (chronos cat) value adm
      (fun m r => m = .free ∨ m = .doomed ∧ ∃ e, r = .error e) .doomed :=
    fun e => okTo_throw.mpr (Or.inr ⟨rfl, e, rfl⟩)
  refine ⟨?_, fun _ => okTo_throw.mpr (Or.inl rfl)⟩
  simp only [andThen]
  refine ⟨fun o d r ws hx => ?_, hthrow⟩
  change (exec cat (.selectBookingForUpdate req.bookingId) o d).result = _ at hx
  obtain ⟨rfl, rfl⟩ := selectBookingForUpdate_ok hx
  cases hcheck : req.check (d.bookings.lookup req.bookingId) with
  | error refusal =>
    simp only [andThen, hcheck]
    exact Or.inr ⟨trivial, hrelease _, hthrow⟩
  | ok bLock =>
    obtain ⟨hrow, -⟩ := check_ok hcheck
    simp only [andThen, hcheck]
    exact Or.inl ⟨pinned_selectBookingForUpdate hadm hrow, hrelease _,
      fun _ => okTo_throw.mpr (Or.inl rfl)⟩

theorem ok_rescheduleBookingAt (hadm : LocalTo cat adm) (now : Instant) (queue : Bool) :
    (rescheduleBookingAt fromColumn req now queue).Ok (chronos cat) value adm .free := by
  refine OkTo.outside_bind (ok_perform (fun _ => rfl) fun _ => rfl) (fun _ => ?_) fun _ => trivial
  refine ok_finallyRelease ?_
  refine (ok_loadBooking hadm).bind ?_ ?_
  · rintro m loaded (rfl | ⟨-, e, he⟩)
    · cases loaded with
      | error refusal => exact okTo_ret.mpr trivial
      | ok b => exact ok_moveBooking hadm now queue b
    · cases he
  · rintro m e (rfl | ⟨rfl, -⟩)
    · trivial
    · trivial

/-- **`rescheduleBooking` keeps the discipline.** -/
theorem ok_rescheduleBooking (hadm : LocalTo cat adm) (nowUtc : Option Instant) (queue : Bool) :
    (rescheduleBooking fromColumn req nowUtc queue).Ok (chronos cat) value adm .free := by
  cases nowUtc with
  | some now => exact ok_rescheduleBookingAt hadm now queue
  | none => exact fun now => ok_rescheduleBookingAt hadm now queue

end Ok

/-! ### What it can do to the database -/

/-- The offsets whose reminders fire after `nowMs`. -/
def futureOffsets (start nowMs : Instant) (offsets : List Nat) : List Nat :=
  offsets.filter fun offset => decide (start - minutesMs offset > nowMs)

/-- `ws` inserts the reminder rows of a booking that fire after `nowMs`, each at its offset
    before the start `fromColumn` reads. -/
def MovedReminders (fromColumn : Instant → Except JsError Instant) (bookingId : BookingId)
    (slotStartUtc nowMs : Instant) (ws : List Write) : Prop :=
  ∃ start, fromColumn slotStartUtc = .ok start ∧
    ws = reminderWrites bookingId start (futureOffsets start nowMs reminderOffsets)

theorem MovedReminders.onReminders {fromColumn : Instant → Except JsError Instant}
    {b : BookingId} {start nowMs : Instant} {ws : List Write}
    (h : MovedReminders fromColumn b start nowMs ws) : ∀ w ∈ ws, w.OnReminders b := by
  obtain ⟨start', -, rfl⟩ := h
  exact onReminders_reminderWrites

/-- What `rescheduleBooking` has to find in order to move a booking: the old booking `old`,
    and the new slot's row `slot`. -/
structure MoveGuard (cat : Catalog) (fromColumn : Instant → Except JsError Instant)
    (req : RescheduleRequest) (now : Instant) (d : Database) (old : Booking) (slot : Slot) :
    Prop where
  booking : d.bookings.lookup req.bookingId = some old
  version : req.version.isInt old.version = true
  ifMatch : req.ifMatch.isInt old.version = true
  booked : old.status = .booked
  newSlot : d.slots.lookup req.newSlotId = some slot
  isOpen : slot.status = .«open»
  future : now < slot.slotStartUtc
  readable : ∃ start, fromColumn slot.slotStartUtc = .ok start
  free : ∀ i, i ≠ req.bookingId → ¬ d.LiveOn req.newSlotId i
  client : cat.clients old.clientId = true
  unused : ∀ key, truthy req.idempotencyKey = some key →
    d.idempotencyKeys.lookup (old.clientId, key) = none

/-- A committed `rescheduleBooking`: it has found what it has to find, and has written the
    move to the new booking `newId`. -/
structure GuardedMove (cat : Catalog) (fromColumn : Instant → Except JsError Instant)
    (req : RescheduleRequest) (now : Instant) (d : Database) (old : Booking) (slot : Slot)
    (reminders : List Write) (newId : BookingId) (ws : List Write) : Prop
    extends MoveGuard cat fromColumn req now d old slot where
  fresh : d.bookings.lookup newId = none
  scheduled : MovedReminders fromColumn newId slot.slotStartUtc now reminders
  writes : ws = [.slot req.newSlotId { slot with status := .booked },
      .booking req.bookingId { old with status := .cancelled }] ++
    openSlotWrites ((Write.slot req.newSlotId { slot with status := .booked }).apply d) old.slotId ++
    [.booking newId (old.movedTo req.newSlotId), .cancelReminders req.bookingId] ++
    reminders ++ keyWrites old.clientId req.idempotencyKey req.json newId

/-! #### What a committed move leaves behind -/

section GuardedMove

variable {cat : Catalog} {fromColumn : Instant → Except JsError Instant} {req : RescheduleRequest}
variable {now : Instant} {d : Database} {old : Booking} {slot : Slot} {reminders ws : List Write}
variable {newId : BookingId}

/-- `d` with the new slot booked, the old booking cancelled and the old slot opened. -/
def RescheduleRequest.vacated (req : RescheduleRequest) (cat : Catalog) (old : Booking)
    (slot : Slot) (d : Database) : Database :=
  (chronos cat).apply (openSlotWrites ((Write.slot req.newSlotId
      { slot with status := .booked }).apply d) old.slotId)
    ((Write.booking req.bookingId { old with status := .cancelled }).apply
      ((Write.slot req.newSlotId { slot with status := .booked }).apply d))

theorem lookup_booking_vacated (i : BookingId) :
    (req.vacated cat old slot d).bookings.lookup i =
      if i = req.bookingId then some { old with status := .cancelled } else d.bookings.lookup i := by
  rw [RescheduleRequest.vacated, bookings_openSlotWrites, lookup_booking_write]
  rfl

theorem lookup_slot_vacated (s : SlotId) :
    (req.vacated cat old slot d).slots.lookup s =
      if s = old.slotId then
        (if old.slotId = req.newSlotId then some { slot with status := .«open» }
          else (d.slots.lookup old.slotId).map fun slot => { slot with status := .«open» })
      else if s = req.newSlotId then some { slot with status := .booked }
      else d.slots.lookup s := by
  rw [RescheduleRequest.vacated, lookup_slot_openSlotWrites (slots_write _ (by simp)),
    lookup_slot_write, lookup_slot_write]
  split
  · split <;> rfl
  · rfl

theorem idempotencyKeys_vacated :
    (req.vacated cat old slot d).idempotencyKeys = d.idempotencyKeys := by
  rw [RescheduleRequest.vacated, idempotencyKeys_openSlotWrites]
  rfl

/-- The writes of a move, with the new booking, the reminders and the key at the end. -/
theorem GuardedMove.apply (h : GuardedMove cat fromColumn req now d old slot reminders newId ws) :
    (chronos cat).apply ws d =
      (chronos cat).apply (keyWrites old.clientId req.idempotencyKey req.json newId)
        ((chronos cat).apply reminders ((Write.cancelReminders req.bookingId).apply
          ((Write.booking newId (old.movedTo req.newSlotId)).apply
            (req.vacated cat old slot d)))) := by
  rw [h.writes]
  simp only [Engine.apply_append]
  rfl

theorem GuardedMove.bookings (h : GuardedMove cat fromColumn req now d old slot reminders newId ws)
    (i : BookingId) : ((chronos cat).apply ws d).bookings.lookup i =
      if i = newId then some (old.movedTo req.newSlotId)
      else if i = req.bookingId then some { old with status := .cancelled }
      else d.bookings.lookup i := by
  rw [h.apply, bookings_keyWrites.1, (sameBut_apply h.scheduled.onReminders).bookings,
    bookings_write _ (by simp), lookup_booking_write, lookup_booking_vacated]

theorem GuardedMove.slots (h : GuardedMove cat fromColumn req now d old slot reminders newId ws)
    (s : SlotId) : ((chronos cat).apply ws d).slots.lookup s =
      (req.vacated cat old slot d).slots.lookup s := by
  rw [h.apply, bookings_keyWrites.2.1, (sameBut_apply h.scheduled.onReminders).slots]
  rfl

theorem GuardedMove.keys (h : GuardedMove cat fromColumn req now d old slot reminders newId ws)
    (k : ClientId × String) : ((chronos cat).apply ws d).idempotencyKeys.lookup k =
      if k.1 = old.clientId ∧ truthy req.idempotencyKey = some k.2 then
        some ⟨req.json, 201, newId⟩
      else d.idempotencyKeys.lookup k := by
  rw [h.apply, lookup_key_keyWrites, (sameBut_apply h.scheduled.onReminders).idempotencyKeys]
  change (if _ then _ else (req.vacated cat old slot d).idempotencyKeys.lookup k) = _
  rw [idempotencyKeys_vacated]

theorem reminderJobs_vacated : (req.vacated cat old slot d).reminderJobs = d.reminderJobs := by
  unfold RescheduleRequest.vacated openSlotWrites
  split <;> rfl

theorem GuardedMove.reminderJobs
    (h : GuardedMove cat fromColumn req now d old slot reminders newId ws) :
    ∃ start, fromColumn slot.slotStartUtc = .ok start ∧
      ∀ k, ((chronos cat).apply ws d).reminderJobs.lookup k =
        if k.1 = newId ∧ k.2 ∈ futureOffsets start now reminderOffsets then
          some ⟨start - minutesMs k.2, .scheduled, none⟩
        else if k.1 = req.bookingId then (d.reminderJobs.lookup k).map ReminderJob.cancel
        else d.reminderJobs.lookup k := by
  obtain ⟨start, hstart, hrem⟩ := h.scheduled
  refine ⟨start, hstart, fun k => ?_⟩
  rw [h.apply, bookings_keyWrites.2.2, hrem, lookup_reminderWrites]
  have hold : ((Write.cancelReminders req.bookingId).apply ((Write.booking newId
      (old.movedTo req.newSlotId)).apply (req.vacated cat old slot d))).reminderJobs.lookup k =
      if k.1 = req.bookingId then (d.reminderJobs.lookup k).map ReminderJob.cancel
      else d.reminderJobs.lookup k := by
    rw [lookup_cancelReminders_write]
    change ((req.vacated cat old slot d).reminderJobs.lookup k).map _ = _
    rw [reminderJobs_vacated]
    by_cases hk : k.1 = req.bookingId
    · simp only [hk, if_true]
    · simp [hk]
  rw [hold]

/-- The new booking is not the old one. -/
theorem GuardedMove.newId_ne (h : GuardedMove cat fromColumn req now d old slot reminders newId ws) :
    req.bookingId ≠ newId := by
  rintro rfl
  have hfresh := h.fresh
  rw [h.booking] at hfresh
  cases hfresh

theorem GuardedMove.liveOn (h : GuardedMove cat fromColumn req now d old slot reminders newId ws)
    (s : SlotId) (i : BookingId) : ((chronos cat).apply ws d).LiveOn s i ↔
      (i = newId ∧ req.newSlotId = s) ∨ (i ≠ newId ∧ i ≠ req.bookingId ∧ d.LiveOn s i) := by
  simp only [Database.LiveOn, h.bookings]
  by_cases hi : i = newId
  · subst hi
    simp [Booking.movedTo, Booking.live]
  · by_cases hi' : i = req.bookingId
    · subst hi'
      simp [hi, Booking.live]
    · simp [hi, hi']

end GuardedMove

section Keeps

variable {cat : Catalog} {γ : Type}
variable {c : Contract Ask.Answer Stmt Database Write Nat JsError γ} {g₀ : γ}
variable {fromColumn : Instant → Except JsError Instant} {req : RescheduleRequest}
variable {d : Database} {ws : List Write}

theorem keeps_insertMovedReminders (hgiveUp : c.move g₀ d [] g₀)
    (hsend : ∀ ws s, c.send g₀ d ws s) {b : BookingId} {start nowMs : Instant}
    (offsets : List Nat) :
    (insertMovedReminders fromColumn b start nowMs offsets).Keeps (chronos cat) c
      (Writing d ws g₀ fun _ ws' => offsets ≠ [] → ∃ start', fromColumn start = .ok start' ∧
        ws' = reminderWrites b start' (futureOffsets start' nowMs offsets)) (.inside d ws) g₀ := by
  -- What the rest of the offsets writes, after the row of the first one.
  have hrest : ∀ {start' : Instant} {offsets : List Nat} {ws' : List Write},
      fromColumn start = .ok start' → (offsets ≠ [] → ∃ s, fromColumn start = .ok s ∧
        ws' = reminderWrites b s (futureOffsets s nowMs offsets)) → (offsets = [] → ws' = []) →
      ws' = reminderWrites b start' (futureOffsets start' nowMs offsets) := by
    intro start' offsets ws' hstart hws hnil
    by_cases ho : offsets = []
    · rw [hnil ho, ho]
      rfl
    · obtain ⟨s, hs, rfl⟩ := hws ho
      obtain rfl : s = start' := Except.ok.inj (hs.symm.trans hstart)
      rfl
  suffices h : (insertMovedReminders fromColumn b start nowMs offsets).Keeps (chronos cat) c
      (Writing d ws g₀ fun _ ws' => (offsets ≠ [] → ∃ start', fromColumn start = .ok start' ∧
        ws' = reminderWrites b start' (futureOffsets start' nowMs offsets)) ∧
        (offsets = [] → ws' = [])) (.inside d ws) g₀ by
    refine h.mono fun st g r hr => ?_
    cases r with
    | error e => exact hr
    | ok u =>
      obtain ⟨hg, ws', hst, hws', -⟩ := hr
      exact ⟨hg, ws', hst, hws'⟩
  induction offsets generalizing ws with
  | nil => exact keeps_ret.mpr ⟨rfl, [], by simp, fun h => absurd rfl h, fun _ => rfl⟩
  | cons offset offsets ih =>
    unfold insertMovedReminders
    split
    · exact keeps_throw.mpr ⟨rfl, Or.inr ⟨ws, rfl⟩⟩
    · next start' hstart =>
      simp only [bind_eq]
      split
      · next hfire =>
        refine keeps_inside (hsend _ _) hgiveUp (fun o r ws' hx => ?_)
          fun e => keeps_throw.mpr ⟨rfl, Or.inl rfl⟩
        obtain ⟨rfl, -⟩ := insertReminder_ok hx
        refine ih.mono fun st g r h => ?_
        cases r with
        | error e => exact h
        | ok u =>
          obtain ⟨hg, ws', hst, hws', hnil⟩ := h
          refine ⟨hg, _, by rw [hst, List.append_assoc], fun _ => ⟨start', hstart, ?_⟩,
            fun h => nomatch h⟩
          rw [hrest hstart hws' hnil]
          simp [futureOffsets, reminderWrites, hfire]
      · next hfire =>
        refine ih.mono fun st g r h => ?_
        cases r with
        | error e => exact h
        | ok u =>
          obtain ⟨hg, ws', hst, hws', hnil⟩ := h
          refine ⟨hg, ws', hst, fun _ => ⟨start', hstart, ?_⟩, fun h => nomatch h⟩
          rw [hrest hstart hws' hnil]
          simp [futureOffsets, hfire]

/-- How `rescheduleBooking` ends: it has committed nothing and created nothing, or it has
    committed the move and says so, unless releasing a client throws. -/
def RescheduleEnds (g₀ : γ) (Won : BookingId → γ → Prop) : γ → Except JsError Reply → Prop :=
  fun g r => (g = g₀ ∧ NotCreated r) ∨
    ∃ id, Won id g ∧ (r = .ok (.created id false) ∨ ∃ e, r = .error e)

variable {Won Ended : BookingId → γ → Prop} {now : Instant} {queue : Bool}

/-- After the commit: nothing is thrown. -/
theorem keeps_afterMove {b : BookingId} {φ : γ → Prop} {g : γ}
    (hpost : ∀ g d ws, φ g → c.know g d →
      ((∀ w ∈ ws, w.Settles req.bookingId) ∨ ∀ w ∈ ws, w.Settles b) → c.Next g d ws φ)
    (hg : φ g) :
    (afterMove req b queue).Keeps (chronos cat) c (Safely φ) .free g := by
  cases queue with
  | false => exact fun d env _ hk => (hpost g d [] hg hk (Or.inl (by simp))).mono fun g' hg' =>
      keeps_ret.mpr ⟨rfl, hg', (), rfl⟩
  | true =>
    refine (keeps_safely (keeps_cancelForBooking
      (fun g d ws hg hk hw => hpost g d ws hg hk (Or.inl hw))
      (some req.bookingId) req.spelling (fun b' h => (Option.some.inj h).symm) hg)).bind ?_ ?_
    · rintro st g u ⟨rfl, hg, -⟩ d env - hk
      refine (hpost g d [] hg hk (Or.inl (by simp))).mono fun g' hg' => ?_
      refine keeps_safely (keeps_enqueueReminders
        (fun g d ws hg hk hw => hpost g d ws hg hk (Or.inr hw)) (fun g hg d env he hk => ?_) hg')
      exact (hpost g d [] hg hk (Or.inl (by simp))).mono fun g' hg' =>
        keeps_ret.mpr ⟨rfl, hg', fun _ => ⟨_, rfl⟩⟩
    · rintro st g e ⟨-, -, a, ha⟩
      cases ha

section View

variable {old : Booking} {slot : Slot}

theorem insertMoved_fresh {b : BookingId}
    (h : (req.vacated cat old slot d).bookings.lookup b = none) :
    b ≠ req.bookingId ∧ d.bookings.lookup b = none := by
  rw [lookup_booking_vacated] at h
  split at h
  · cases h
  · next hne => exact ⟨hne, h⟩

theorem insertMoved_free
    (h : (req.vacated cat old slot d).otherLive req.newSlotId none = false) (i : BookingId)
    (hi : i ≠ req.bookingId) : ¬ d.LiveOn req.newSlotId i := by
  intro hlive
  have hview : (req.vacated cat old slot d).LiveOn req.newSlotId i := by
    obtain ⟨b, hb, hlive, hs⟩ := hlive
    exact ⟨b, by rw [lookup_booking_vacated, if_neg hi]; exact hb, hlive, hs⟩
  rw [(otherLive_iff _ _ _).mpr ⟨i, by simp, hview⟩] at h
  cases h

theorem insertMoved_unused {k : ClientId × String}
    (h : (req.vacated cat old slot d).idempotencyKeys.lookup k = none) :
    d.idempotencyKeys.lookup k = none := by
  rw [idempotencyKeys_vacated] at h
  exact h

end View

/-- What the second transaction leaves to its `catch` block: nothing is committed. -/
def MoveCaught (c : Contract Ask.Answer Stmt Database Write Nat JsError γ) (g₀ : γ)
    (Won : BookingId → γ → Prop) : Stage Database Write → γ → Except JsError Reply → Prop
  | st, g, .ok r => st = .free ∧ RescheduleEnds g₀ Won g (.ok r)
  | st, g, .error _ => g = g₀ ∧ Catchable c g₀ st

/-- What follows the commit of a move leads from `Won` to `Ended`, where a client may stay. -/
structure MovedOn (cat : Catalog) (c : Contract Ask.Answer Stmt Database Write Nat JsError γ)
    (req : RescheduleRequest) (queue : Bool) (Won Ended : BookingId → γ → Prop) : Prop where
  after : ∀ id g, Won id g →
    (afterMove req id queue).Keeps (chronos cat) c (Safely (Ended id)) .free g
  rest : ∀ id, StaysAt c (Ended id)

theorem movedOn_of_reminders (hpost : ∀ id g d ws, Won id g → c.know g d →
      ((∀ w ∈ ws, w.Settles req.bookingId) ∨ ∀ w ∈ ws, w.Settles id) →
      c.Next g d ws (Won id)) : MovedOn cat c req queue Won Won where
  after id _ hg := keeps_afterMove (hpost id) hg
  rest id g d hg hk := hpost id g d [] hg hk (Or.inl (by simp))

theorem keeps_moveTransaction (hstay : ∀ d, c.know g₀ d → c.move g₀ d [] g₀)
    (hsend : ∀ g d ws s, c.send g d ws s)
    (hcommit : ∀ d old slot reminders id ws, c.know g₀ d →
      GuardedMove cat fromColumn req now d old slot reminders id ws → c.Next g₀ d ws (Won id))
    (hafter : MovedOn cat c req queue Won Ended) :
    (moveTransaction fromColumn req now queue).Keeps (chronos cat) c
      (c.post (RescheduleEnds g₀ Ended)) .free g₀ := by
  have hfail : ∀ e, (Prog.throw e : Program Reply).Keeps (chronos cat) c (MoveCaught c g₀ Ended)
      .doomed g₀ := fun e => keeps_throw.mpr ⟨rfl, Or.inr (Or.inl rfl)⟩
  refine Keeps.tryCatch (MoveCaught c g₀ Ended) ?_ ?_ ?_
  · refine ⟨fun d hk => ?_, fun d env e _ hk _ => ⟨g₀, hstay d hk, keeps_throw.mpr ⟨rfl, Or.inl rfl⟩⟩⟩
    have hgiveUp := hstay d hk
    have hrefuse : ∀ {ws r}, NotCreated (.ok r) → (Prog.control .rollback (ret r) Prog.throw :
        Program Reply).Keeps (chronos cat) c (MoveCaught c g₀ Ended) (.inside d ws) g₀ :=
      fun hr => keeps_rollback hstay hgiveUp (keeps_ret.mpr ⟨rfl, Or.inl ⟨rfl, hr⟩⟩) hfail
    refine keeps_inside (hsend _ _ _ _) hgiveUp (fun o b ws₁ hx => ?_) hfail
    obtain ⟨rfl, rfl⟩ := selectBookingForUpdate_ok hx
    cases hcheck : req.check (((chronos cat).apply [] d).bookings.lookup req.bookingId) with
    | error refusal =>
      simp only [andThen, hcheck]
      exact hrefuse (check_error hcheck)
    | ok old =>
      simp only [andThen, hcheck]
      obtain ⟨hold, hversion, hifMatch, hbooked⟩ := check_ok hcheck
      refine keeps_inside (hsend _ _ _ _) hgiveUp (fun o r ws₂ hx => ?_) hfail
      rcases updateSlotWhere_ok hx with ⟨rfl, -, -⟩ | ⟨slot, hslot, hp, rfl, rfl, -⟩
      · exact hrefuse (notCreated_refused _ _)
      · obtain ⟨hopen, hfuture⟩ := of_decide_eq_true hp
        simp only [andThen]
        -- The statements that follow see the old booking, and the new slot booked.
        refine keeps_inside (hsend _ _ _ _) hgiveUp (fun o r ws₃ hx => ?_) hfail
        rcases cancelBookingRow_ok hx with ⟨-, hnone⟩ | ⟨old', hold', rfl⟩
        · exact absurd (hnone.symm.trans hold) (by simp)
        obtain rfl : old = old' := Option.some.inj (hold.symm.trans hold')
        refine keeps_inside (hsend _ _ _ _) hgiveUp (fun o r ws₄ hx => ?_) hfail
        have hws₄ := openSlot_ok hx
        change ws₄ = openSlotWrites ((Write.slot req.newSlotId
          { slot with status := .booked }).apply d) old.slotId at hws₄
        subst hws₄
        refine keeps_inside (hsend _ _ _ _) hgiveUp (fun fresh b ws₅ hx => ?_) hfail
        obtain ⟨rfl, rfl, hfresh, hlive, -, hclient⟩ := insertBooking_ok hx
        refine keeps_inside (hsend _ _ _ _) hgiveUp (fun o r ws₆ hx => ?_) hfail
        simp only [exec, Except.ok.injEq, Prod.mk.injEq] at hx
        obtain ⟨-, rfl⟩ := hx
        refine (keeps_insertMovedReminders hgiveUp (hsend _ _) reminderOffsets).bind ?_ ?_
        · rintro st g u ⟨rfl, reminders, rfl, hwritten⟩
          have hrem : MovedReminders fromColumn b slot.slotStartUtc now reminders :=
            hwritten (by simp [reminderOffsets])
          have hreadable : ∃ start, fromColumn slot.slotStartUtc = .ok start :=
            hrem.imp fun _ h => h.1
          refine (keeps_insertIdempotencyKey hgiveUp (hsend _ _)).bind ?_ ?_
          · rintro st g u ⟨rfl, ws', rfl, rfl, hunused⟩
            refine ⟨?_, fun env e _ _ => ⟨_, hgiveUp, keeps_throw.mpr ⟨rfl, Or.inl rfl⟩⟩⟩
            have hunused' : ∀ key, truthy req.idempotencyKey = some key →
                d.idempotencyKeys.lookup (old.clientId, key) = none := by
              intro key hkey
              have h := hunused key hkey
              rw [Engine.apply_append, (sameBut_apply hrem.onReminders).idempotencyKeys,
                Engine.apply_append, Engine.apply_append] at h
              change (req.vacated cat old slot d).idempotencyKeys.lookup _ = none at h
              exact insertMoved_unused h
            have hguard : MoveGuard cat fromColumn req now d old slot := ⟨hold, hversion, hifMatch,
              hbooked, hslot, hopen, hfuture, hreadable,
              insertMoved_free (hlive rfl), hclient, hunused'⟩
            refine (hcommit d old slot reminders b _ hk ⟨hguard, (insertMoved_fresh hfresh).2, hrem,
              by simp [keyWrites]⟩).mono fun g' hwon => ?_
            refine (hafter.after b g' hwon).bind ?_ ?_
            · rintro st g u ⟨rfl, hend, -⟩
              exact keeps_ret.mpr ⟨rfl, Or.inr ⟨b, hend, Or.inl rfl⟩⟩
            · rintro st g e ⟨-, -, a, ha⟩
              cases ha
          · rintro st g e ⟨rfl, hst⟩
            exact ⟨rfl, catchable_of_writing hk hst⟩
        · rintro st g e ⟨rfl, hst⟩
          exact ⟨rfl, catchable_of_writing hk hst⟩
  · rintro st g r ⟨rfl, h⟩
    exact h
  · rintro st g e ⟨rfl, hst⟩
    have hnot : NotCreated (.ok e.refusal) := by
      unfold JsError.refusal
      split <;> exact notCreated_refused _ _
    exact keeps_catch (r := .ok _) hst (staysAt_eq hstay) rfl fun g' hg' => Or.inl ⟨hg', hnot⟩

/-! #### The whole call -/

theorem releasable_rescheduleEnds (hstay : ∀ d, c.know g₀ d → c.move g₀ d [] g₀)
    (hrest : ∀ id, StaysAt c (Ended id)) : Releasable c (RescheduleEnds g₀ Ended) where
  stays := by
    rintro g d r (⟨rfl, hr⟩ | ⟨id, hend, hr⟩) hk
    · exact ⟨g, hstay d hk, Or.inl ⟨rfl, hr⟩⟩
    · exact (hrest id g d hend hk).mono fun g' h' => Or.inr ⟨id, h', hr⟩
  throws := by
    rintro g r e (⟨rfl, -⟩ | ⟨id, hwon, -⟩)
    · exact Or.inl ⟨rfl, fun id h => by cases h⟩
    · exact Or.inr ⟨id, hwon, Or.inr ⟨e, rfl⟩⟩

/-- The booking as the first transaction has read it, and its slot as it was read after
    that, have passed the window check. -/
def RescheduleRequest.WindowSeen (req : RescheduleRequest) (now : Instant)
    (know : Database → Prop) : Prop :=
  ∃ d₁ d₂ b, know d₁ ∧ know d₂ ∧ d₁.bookings.lookup req.bookingId = some b ∧
    req.windowExpired (d₂.slots.lookup b.slotId) now = false

theorem keeps_moveBooking (hstay : ∀ d, c.know g₀ d → c.move g₀ d [] g₀)
    (hsend : ∀ g d ws s, c.send g d ws s) {d₁ : Database} {b : Booking} (hd₁ : c.know g₀ d₁)
    (hb : d₁.bookings.lookup req.bookingId = some b)
    (hcommit : ∀ d old slot reminders id ws, req.WindowSeen now (c.know g₀) → c.know g₀ d →
      GuardedMove cat fromColumn req now d old slot reminders id ws → c.Next g₀ d ws (Won id))
    (hafter : MovedOn cat c req queue Won Ended) :
    (moveBooking fromColumn req now queue b).Keeps (chronos cat) c
      (c.post (RescheduleEnds g₀ Ended)) .free g₀ := by
  have hthrow : ∀ e, (Prog.throw e : Program Reply).Keeps (chronos cat) c
      (c.post (RescheduleEnds g₀ Ended)) .free g₀ :=
    fun e => keeps_throw.mpr (Or.inl ⟨rfl, fun id h => by cases h⟩)
  refine keeps_read (fun _ _ => rfl) hstay (fun d₂ _ _ hd₂ => ?_) fun _ _ e _ _ => hthrow e
  simp only [andThen]
  split
  · exact keeps_ret.mpr (Or.inl ⟨rfl, notCreated_refused _ _⟩)
  · next hwindow =>
    have hseen : req.WindowSeen now (c.know g₀) := ⟨d₁, d₂, b, hd₁, hd₂, hb, by simpa using hwindow⟩
    refine fun d env _ hk => ⟨g₀, hstay d hk, ?_⟩
    cases env.answer (.effect (.connect .client)) with
    | error e => exact hthrow e
    | ok u =>
      exact keeps_finallyRelease (releasable_rescheduleEnds hstay hafter.rest)
        (keeps_moveTransaction hstay hsend
          (fun d old slot reminders id ws => hcommit d old slot reminders id ws hseen) hafter)

/-- How the first transaction ends: with a refusal, with the booking as it has read it, or
    with an exception that may leave it open. -/
def LoadEnds (c : Contract Ask.Answer Stmt Database Write Nat JsError γ) (g₀ : γ)
    (req : RescheduleRequest) :
    Stage Database Write → γ → Except JsError (Except Reply Booking) → Prop
  | st, g, .ok (.error refusal) => st = .free ∧ g = g₀ ∧ NotCreated (.ok refusal)
  | st, g, .ok (.ok b) => st = .free ∧ g = g₀ ∧
      ∃ d, c.know g₀ d ∧ d.bookings.lookup req.bookingId = some b
  | st, g, .error _ => (st = .free ∨ st = .doomed) ∧ g = g₀

theorem keeps_loadBooking (hstay : ∀ d, c.know g₀ d → c.move g₀ d [] g₀)
    (hsend : ∀ g d ws s, c.send g d ws s) :
    (loadBooking req).Keeps (chronos cat) c (LoadEnds c g₀ req) .free g₀ := by
  have hdoomed : ∀ e, (Prog.throw e : Program (Except Reply Booking)).Keeps (chronos cat) c
      (LoadEnds c g₀ req) .doomed g₀ := fun e => keeps_throw.mpr ⟨Or.inr rfl, rfl⟩
  have hfree : ∀ e, (Prog.throw e : Program (Except Reply Booking)).Keeps (chronos cat) c
      (LoadEnds c g₀ req) .free g₀ := fun e => keeps_throw.mpr ⟨Or.inl rfl, rfl⟩
  have hrelease : ∀ x : Except Reply Booking, LoadEnds c g₀ req .free g₀ (.ok x) →
      ((perform (.release .clientPre)).bind fun _ => ret x).Keeps (chronos cat) c
        (LoadEnds c g₀ req) .free g₀ := by
    intro x hx d env _ hk
    refine ⟨g₀, hstay d hk, ?_⟩
    cases env.answer (.effect (.release .clientPre)) with
    | error e => exact hfree e
    | ok u => exact keeps_ret.mpr hx
  refine ⟨fun d hk => ?_, fun d env e _ hk _ => ⟨g₀, hstay d hk, hfree e⟩⟩
  have hgiveUp := hstay d hk
  refine keeps_inside (hsend _ _ _ _) hgiveUp (fun o b ws₁ hx => ?_) hdoomed
  obtain ⟨rfl, rfl⟩ := selectBookingForUpdate_ok hx
  cases hcheck : req.check (((chronos cat).apply [] d).bookings.lookup req.bookingId) with
  | error refusal =>
    simp only [andThen, hcheck]
    exact keeps_rollback hstay hgiveUp (hrelease _ ⟨rfl, rfl, check_error hcheck⟩) hdoomed
  | ok b =>
    simp only [andThen, hcheck]
    exact ⟨⟨g₀, hgiveUp, hrelease _ ⟨rfl, rfl, d, hk, (check_ok hcheck).1⟩⟩,
      fun env e _ _ => ⟨g₀, hgiveUp, hfree e⟩⟩

theorem keeps_rescheduleBookingAt (hstay : ∀ d, c.know g₀ d → c.move g₀ d [] g₀)
    (hsend : ∀ g d ws s, c.send g d ws s)
    (hcommit : ∀ d old slot reminders id ws, req.WindowSeen now (c.know g₀) → c.know g₀ d →
      GuardedMove cat fromColumn req now d old slot reminders id ws → c.Next g₀ d ws (Won id))
    (hafter : MovedOn cat c req queue Won Ended) :
    (rescheduleBookingAt fromColumn req now queue).Keeps (chronos cat) c
      (c.post (RescheduleEnds g₀ Ended)) .free g₀ := by
  have hnothing : ∀ {r}, NotCreated r → RescheduleEnds g₀ Ended g₀ r := fun h => Or.inl ⟨rfl, h⟩
  have hthrow : ∀ e, NotCreated (.error e) := fun e id h => by cases h
  refine fun d env _ hk => ⟨g₀, hstay d hk, ?_⟩
  cases env.answer (.effect (.connect .clientPre)) with
  | error e => exact keeps_throw.mpr (hnothing (hthrow e))
  | ok u =>
    refine keeps_finallyRelease (releasable_rescheduleEnds hstay hafter.rest)
      ((keeps_loadBooking hstay hsend).bind ?_ ?_)
    · rintro st g (refusal | b) h
      · obtain ⟨rfl, rfl, hnot⟩ := h
        exact keeps_ret.mpr (hnothing hnot)
      · obtain ⟨rfl, rfl, d₁, hd₁, hb⟩ := h
        exact keeps_moveBooking hstay hsend hd₁ hb hcommit hafter
    · rintro st g e ⟨rfl | rfl, rfl⟩
      · exact hnothing (hthrow e)
      · exact hnothing (hthrow e)

/-- **Everything `rescheduleBooking` can do.**  It reads; it may commit one guarded move; after
    that it tells the queue. -/
theorem keeps_rescheduleBooking_movedOn {nowUtc : Option Instant}
    (hstay : ∀ d, c.know g₀ d → c.move g₀ d [] g₀) (hsend : ∀ g d ws s, c.send g d ws s)
    (hcommit : ∀ now d old slot reminders id ws, EffectiveNow c g₀ nowUtc now →
      req.WindowSeen now (c.know g₀) → c.know g₀ d →
      GuardedMove cat fromColumn req now d old slot reminders id ws → c.Next g₀ d ws (Won id))
    (hafter : MovedOn cat c req queue Won Ended) :
    (rescheduleBooking fromColumn req nowUtc queue).Keeps (chronos cat) c
      (c.post (RescheduleEnds g₀ Ended)) .free g₀ := by
  cases nowUtc with
  | some now =>
    exact keeps_rescheduleBookingAt hstay hsend
      (fun d old slot reminders id ws => hcommit now d old slot reminders id ws ⟨by simp, by simp⟩)
      hafter
  | none =>
    refine fun d env he hk => ⟨g₀, hstay d hk, ?_⟩
    exact keeps_rescheduleBookingAt hstay hsend
      (fun d' old slot reminders id ws => hcommit _ d' old slot reminders id ws
        ⟨by simp, fun _ => ⟨d, env, he, rfl⟩⟩) hafter

/-- What `rescheduleBooking` does after its commit is to write reminder rows of the two
    bookings. -/
theorem keeps_rescheduleBooking {nowUtc : Option Instant}
    (hstay : ∀ d, c.know g₀ d → c.move g₀ d [] g₀) (hsend : ∀ g d ws s, c.send g d ws s)
    (hcommit : ∀ now d old slot reminders id ws, EffectiveNow c g₀ nowUtc now →
      req.WindowSeen now (c.know g₀) → c.know g₀ d →
      GuardedMove cat fromColumn req now d old slot reminders id ws → c.Next g₀ d ws (Won id))
    (hpost : ∀ id g d ws, Won id g → c.know g d →
      ((∀ w ∈ ws, w.OnReminders req.bookingId) ∨ ∀ w ∈ ws, w.OnReminders id) →
      c.Next g d ws (Won id)) :
    (rescheduleBooking fromColumn req nowUtc queue).Keeps (chronos cat) c
      (c.post (RescheduleEnds g₀ Won)) .free g₀ :=
  keeps_rescheduleBooking_movedOn hstay hsend hcommit (movedOn_of_reminders
    fun id g d ws hg hk hws => hpost id g d ws hg hk (hws.imp
      (fun h w hw => (h w hw).onReminders) fun h w hw => (h w hw).onReminders))

end Keeps

end Chronos
