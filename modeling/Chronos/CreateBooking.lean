import Chronos.Reminders

namespace Chronos

open ReadCommitted ReadCommitted.Prog

/-!
# `createBooking`

The function `createBooking(db, req, nowUtc, reminderQueue)` of `bookings.service.ts`, cut
where its source has comments: the provider's notice, the event type, the idempotency key,
the transaction, the reminder queue.

* `ok_createBooking` — its transaction keeps the discipline of `ReadCommitted`.
* `keeps_createBooking` — everything it can do: read, commit one new booking (`NewBooking`),
  and after that write reminder rows of that booking.
-/

structure BookingRequest where
  providerId : Option ProviderId
  eventTypeId : Option EventTypeId
  slotId : SlotId
  clientId : ClientId
  idempotencyKey : Option String
  clientTimezone : String
  deriving DecidableEq

/-- `JSON.stringify(req)`: absent properties are left out. -/
def BookingRequest.json (req : BookingRequest) : JsonText :=
  (req.providerId.map fun p => ("providerId", Json.id p)).toList ++
    [("slotId", .id req.slotId), ("clientId", .id req.clientId)] ++
    (req.eventTypeId.map fun e => ("eventTypeId", Json.id e)).toList ++
    (req.idempotencyKey.map fun k => ("idempotencyKey", Json.str k)).toList ++
    [("clientTimezone", .str req.clientTimezone)]

/-- `Number(notice) || 4`. -/
def orFour (notice : Int) : Int := if notice = 0 then 4 else notice

/-- Read the configured minimum booking notice, in hours. -/
def configuredNoticeHours (req : BookingRequest) : Program Int :=
  tryCatch
    (do
      let slotRes ← dbQuery (.selectSlot req.slotId)
      match (slotRes.map Slot.providerId).or req.providerId with
      | none => pure 4
      | some providerId =>
        let noticeRes ← dbQuery (.selectNotice providerId)
        pure ((noticeRes.map orFour).getD 4))
    fun _ => pure 4

/-- Validate event type ownership; the answer is the refusal, if there is one. -/
def validateEventType (req : BookingRequest) : Program (Option Reply) :=
  match req.eventTypeId with
  | none => pure none
  | some eventTypeId =>
    tryCatch
      (do
        match ← dbQuery (.selectEventType eventTypeId) with
        | none => pure (some (.refused 400 "invalid_event_type_not_found"))
        | some et =>
          let slotRes ← dbQuery (.selectSlot req.slotId)
          if et.providerId.isSome ∧ et.providerId ≠ slotRes.map Slot.providerId then
            pure (some (.refused 400 "event_type_wrong_provider"))
          else
            pure none)
      fun _ => pure (some (.refused 400 "event_type_validation_failed"))

/-- The idempotency check; the answer is the earlier answer, or the refusal. -/
def checkIdempotencyKey (req : BookingRequest) : Program (Option Reply) :=
  match truthy req.idempotencyKey with
  | none => pure none
  | some key => do
    match ← dbQuery (.selectKey req.clientId key) with
    | none => pure none
    | some row =>
      if row.requestHash ≠ req.json then
        pure (some (.refused 422 "idempotency_key_reuse"))
      else
        pure (some (.created row.responseBody true))

/-- The row `createBooking` inserts. -/
def BookingRequest.booking (req : BookingRequest) : Booking where
  slotId := req.slotId
  clientId := req.clientId
  clientTimezone := req.clientTimezone
  providerId := req.providerId
  eventTypeId := req.eventTypeId
  status := .booked
  version := 1

/-- Insert reminder jobs, skipping past offsets by the clock of each iteration. -/
def insertReminders (bookingId : BookingId) (slotStartUtc : Instant) : List Nat → Program Unit
  | [] => pure ()
  | offset :: offsets => do
    let fireMs := slotStartUtc - minutesMs offset
    let nowMs ← clockNow
    if fireMs > nowMs then
      dbQuery (.insertReminder bookingId offset fireMs)
    insertReminders bookingId slotStartUtc offsets

def insertIdempotencyKey (clientId : ClientId) (key : Option String) (hash : JsonText)
    (bookingId : BookingId) : Program Unit :=
  match truthy key with
  | none => pure ()
  | some key => dbQuery (.insertKey clientId key ⟨hash, 201, bookingId⟩)

/-- Enqueue the scheduled reminders of a committed booking. -/
def enqueueReminders (slotId : SlotId) (bookingId : BookingId) (now : Program Instant) :
    Program Unit := do
  match ← dbQuery (.selectSlot slotId) with
  | none => pure ()
  | some slot =>
    let offsets ← dbQuery (.selectScheduledOffsets bookingId)
    if offsets ≠ [] then
      let now ← now
      enqueueForBooking bookingId slot.slotStartUtc now offsets

/-- Map Postgres exclusion/unique conflicts. -/
def JsError.isConflict (e : JsError) : Bool :=
  decide (e.code = some "23505" ∨ e.code = some "23P01")

/-- `e.message || 'bad_request'`. -/
def JsError.messageOr (e : JsError) (text : String) : String :=
  if e.message = "" then text else e.message

def JsError.refusal (e : JsError) : Reply :=
  if e.isConflict then .refused 409 "slot_unavailable"
  else .refused 400 (e.messageOr "bad_request")

def reminderOffsets : List Nat := [1440, 60]

/-- Atomic compare-and-set on slot + booking insert in one transaction, and the queue. -/
def bookSlotInTransaction (req : BookingRequest) (effectiveNow minSlotTime : Instant)
    (reminderQueue : Bool) : Program Reply :=
  tryCatch
    (do
      send .beginTx
      match ← dbQuery (.bookSlot req.slotId effectiveNow minSlotTime) with
      | none =>
        send .rollback
        pure (.refused 409 "slot_unavailable")
      | some slot =>
        let bookingId ← dbQuery (.insertBooking req.booking)
        insertReminders bookingId slot.slotStartUtc reminderOffsets
        insertIdempotencyKey req.clientId req.idempotencyKey req.json bookingId
        send .commit
        if reminderQueue then
          enqueueReminders req.slotId bookingId (pure effectiveNow)
        pure (.created bookingId false))
    fun e => do
      rollbackQuietly
      pure e.refusal

/-- `createBooking` at time `effectiveNow`. -/
def createBookingAt (req : BookingRequest) (effectiveNow : Instant) (reminderQueue : Bool) :
    Program Reply := do
  let noticeHours ← configuredNoticeHours req
  match ← validateEventType req with
  | some refusal => pure refusal
  | none =>
    match ← checkIdempotencyKey req with
    | some answer => pure answer
    | none =>
      bookSlotInTransaction req effectiveNow (effectiveNow + hoursMs noticeHours) reminderQueue

/-- `createBooking(db, req, nowUtc, reminderQueue)`. -/
def createBooking (req : BookingRequest) (nowUtc : Option Instant) (reminderQueue : Bool) :
    Program Reply := do
  let effectiveNow ← match nowUtc with
    | some now => pure now
    | none => clockNow
  createBookingAt req effectiveNow reminderQueue

/-! ### The checks before the transaction -/

/-- The queries the checks consist of. -/
def Stmt.Checks : Stmt → Prop
  | .selectSlot _ => True
  | .selectNotice _ => True
  | .selectEventType _ => True
  | .selectKey _ _ => True
  | _ => False

section Checks

variable (req : BookingRequest)

theorem talks_configuredNoticeHours :
    (configuredNoticeHours req).Talks Stmt.Checks fun _ => False := by
  refine Talks.tryCatch ⟨trivial, fun slotRes => ?_, fun _ => trivial⟩ fun _ => trivial
  simp only [andThen]
  split
  · exact trivial
  · exact ⟨trivial, fun _ => trivial, fun _ => trivial⟩

theorem talks_validateEventType : (validateEventType req).Talks Stmt.Checks fun _ => False := by
  unfold validateEventType
  split
  · exact trivial
  · refine Talks.tryCatch ⟨trivial, fun et => ?_, fun _ => trivial⟩ fun _ => trivial
    cases et with
    | none => exact trivial
    | some et =>
      refine ⟨trivial, fun slotRes => ?_, fun _ => trivial⟩
      simp only [andThen]
      split <;> exact trivial

theorem talks_checkIdempotencyKey :
    (checkIdempotencyKey req).Talks Stmt.Checks fun _ => False := by
  unfold checkIdempotencyKey
  split
  · exact trivial
  · refine ⟨trivial, fun row => ?_, fun _ => trivial⟩
    cases row with
    | none => exact trivial
    | some row =>
      simp only [andThen]
      split <;> exact trivial

end Checks

/-! ### The transaction keeps the discipline -/

section Ok

variable {cat : Catalog} {adm : Stmt → Database → Prop}

/-- The reminder rows of a booking whose row is locked. -/
theorem ok_insertReminders (hadm : LocalTo cat adm) {b : BookingId} {start : Instant}
    (offsets : List Nat) {held : List Lock} (hb : .booking b ∈ held) :
    (insertReminders b start offsets).OkTo (chronos cat) value adm (Mode.Within held)
      (.inside held) := by
  induction offsets generalizing held with
  | nil => exact okTo_ret.mpr ⟨[], by simp⟩
  | cons offset offsets ih =>
    refine ⟨fun _ => rfl, fun nowMs => ?_⟩
    simp only [andThen]
    split
    · refine OkTo.pinned (fun o d => pinned_insertReminder hadm hb) (fun o d r => ?_)
        fun _ => okTo_throw.mpr trivial
      exact (ih (List.mem_append_left _ hb)).mono fun m r => Mode.Within.append
    · exact ih hb

theorem ok_insertIdempotencyKey (hadm : LocalTo cat adm) {c : ClientId} {key : Option String}
    {hash : JsonText} {b : BookingId} {held : List Lock} :
    (insertIdempotencyKey c key hash b).OkTo (chronos cat) value adm (Mode.Within held)
      (.inside held) := by
  unfold insertIdempotencyKey
  split
  · exact okTo_ret.mpr ⟨[], by simp⟩
  · exact OkTo.pinned (fun o d => pinned_insertKey hadm) (fun o d r => okTo_ret.mpr ⟨_, rfl⟩)
      fun _ => okTo_throw.mpr trivial

theorem ok_enqueueReminders {s : SlotId} {b : BookingId} {now : Program Instant}
    (hnow : now.OkTo (chronos cat) value adm Mode.Outside .free) :
    (enqueueReminders s b now).OkTo (chronos cat) value adm Mode.Outside .free := by
  refine ⟨fun slot => ?_, fun _ => okTo_throw.mpr rfl⟩
  simp only [andThen]
  split
  · exact okTo_ret.mpr rfl
  · refine ⟨fun offsets => ?_, fun _ => okTo_throw.mpr rfl⟩
    simp only [andThen]
    split
    · exact OkTo.outside_bind hnow (fun now => ok_enqueueForBooking _ now offsets) fun _ => rfl
    · exact okTo_ret.mpr rfl

theorem ok_bookSlotInTransaction (hadm : LocalTo cat adm) (req : BookingRequest)
    (effectiveNow minSlotTime : Instant) (reminderQueue : Bool) :
    (bookSlotInTransaction req effectiveNow minSlotTime reminderQueue).Ok (chronos cat) value adm
      .free := by
  refine OkTo.caught (fun e => .ok e.refusal) ⟨?_, fun _ => okTo_throw.mpr trivial⟩
  simp only [andThen]
  refine ⟨fun o d r ws hx => ?_, fun _ => okTo_throw.mpr trivial⟩
  rcases updateSlotWhere_ok hx with ⟨rfl, -⟩ | ⟨row, -, -, rfl, -, hlocks⟩
  · exact Or.inr ⟨trivial, okTo_ret.mpr trivial, fun _ => okTo_throw.mpr trivial⟩
  · have hslot : .slot req.slotId ∈ ((chronos cat).exec
        (.bookSlot req.slotId effectiveNow minSlotTime) o d).locks := by
      change _ ∈ (updateSlotWhere _ _ _ _).locks
      rw [hlocks]
      exact List.mem_singleton_self _
    refine Or.inl ⟨pinned_bookSlot hadm hslot, ?_⟩
    refine ⟨fun o d r ws hx => Or.inl ⟨pinned_insertBooking hadm hslot, ?_⟩,
      fun _ => okTo_throw.mpr trivial⟩
    obtain ⟨rfl, -⟩ := insertBooking_ok hx
    refine (ok_insertReminders hadm _ (by simp [chronos, exec])).bind ?_ fun _ _ _ => trivial
    rintro m - ⟨more, rfl⟩
    refine (ok_insertIdempotencyKey hadm).bind ?_ fun _ _ _ => trivial
    rintro m - ⟨more', rfl⟩
    refine ⟨?_, fun _ => okTo_throw.mpr trivial⟩
    simp only [andThen]
    split
    · exact OkTo.outside_bind (ok_enqueueReminders (okTo_ret.mpr rfl))
        (fun _ => okTo_ret.mpr trivial) fun _ => trivial
    · exact okTo_ret.mpr trivial

theorem ok_createBookingAt (hadm : LocalTo cat adm) (req : BookingRequest)
    (effectiveNow : Instant) (reminderQueue : Bool) :
    (createBookingAt req effectiveNow reminderQueue).Ok (chronos cat) value adm .free := by
  refine (talks_configuredNoticeHours req).okTo_outside.outside_bind (fun hours => ?_) fun _ => trivial
  refine (talks_validateEventType req).okTo_outside.outside_bind (fun refusal => ?_) fun _ => trivial
  cases refusal with
  | some refusal => exact okTo_ret.mpr trivial
  | none =>
    refine (talks_checkIdempotencyKey req).okTo_outside.outside_bind (fun answer => ?_) fun _ => trivial
    cases answer with
    | some answer => exact okTo_ret.mpr trivial
    | none => exact ok_bookSlotInTransaction hadm req _ _ _

/-- **`createBooking` keeps the discipline.** -/
theorem ok_createBooking (hadm : LocalTo cat adm) (req : BookingRequest)
    (nowUtc : Option Instant) (reminderQueue : Bool) :
    (createBooking req nowUtc reminderQueue).Ok (chronos cat) value adm .free := by
  cases nowUtc with
  | some now => exact ok_createBookingAt hadm req now reminderQueue
  | none => exact fun now => ok_createBookingAt hadm req now reminderQueue

end Ok

/-! ### What it can do to the database -/

/-- The row `insertIdempotencyKey` inserts, if there is a key. -/
def keyWrites (clientId : ClientId) (key : Option String) (hash : JsonText)
    (bookingId : BookingId) : List Write :=
  match truthy key with
  | none => []
  | some key => [.key clientId key ⟨hash, 201, bookingId⟩]

/-- Insert the reminder rows of a booking at some offsets. -/
def reminderWrites (bookingId : BookingId) (slotStartUtc : Instant) (offsets : List Nat) :
    List Write :=
  offsets.map fun offset => .reminder bookingId offset ⟨slotStartUtc - minutesMs offset, .scheduled, none⟩

theorem onReminders_reminderWrites {b : BookingId} {start : Instant} {offsets : List Nat} :
    ∀ w ∈ reminderWrites b start offsets, w.OnReminders b := by
  intro w hw
  obtain ⟨offset, -, rfl⟩ := List.mem_map.mp hw
  rfl

/-- The rows that are inserted, and the others. -/
theorem lookup_reminderWrites {cat : Catalog} {b : BookingId} {start : Instant}
    {offsets : List Nat} {d : Database} (k : BookingId × Nat) :
    ((chronos cat).apply (reminderWrites b start offsets) d).reminderJobs.lookup k =
      if k.1 = b ∧ k.2 ∈ offsets then some ⟨start - minutesMs k.2, .scheduled, none⟩
      else d.reminderJobs.lookup k := by
  induction offsets generalizing d with
  | nil => simp [reminderWrites]
  | cons offset offsets ih =>
    obtain ⟨k₁, k₂⟩ := k
    rw [reminderWrites, List.map_cons, Engine.apply_cons]
    change ((chronos cat).apply (reminderWrites b start offsets)
      ((Write.reminder b offset ⟨start - minutesMs offset, .scheduled, none⟩).apply d)).reminderJobs.lookup
        (k₁, k₂) = _
    rw [ih, lookup_reminder_write]
    by_cases hb : k₁ = b
    · by_cases ho : k₂ = offset
      · subst hb ho
        simp
      · by_cases hmem : k₂ ∈ offsets <;> simp [hb, ho, hmem]
    · simp [hb]

/-- `ws` inserts reminder rows of a booking, each at its offset before the slot's start. -/
def NewReminders (bookingId : BookingId) (slotStartUtc : Instant) (ws : List Write) : Prop :=
  ∀ w ∈ ws, ∃ offset ∈ reminderOffsets,
    w = .reminder bookingId offset ⟨slotStartUtc - minutesMs offset, .scheduled, none⟩

/-- What a committed `createBooking` has found (`slot` to `unused`) and written. -/
structure NewBooking (cat : Catalog) (req : BookingRequest) (now minStart : Instant)
    (d : Database) (row : Slot) (reminders : List Write) (bookingId : BookingId)
    (ws : List Write) : Prop where
  slot : d.slots.lookup req.slotId = some row
  isOpen : row.status = .«open»
  notPast : now ≤ row.slotStartUtc
  notice : minStart ≤ row.slotStartUtc
  fresh : d.bookings.lookup bookingId = none
  free : ∀ i, ¬ d.LiveOn req.slotId i
  client : cat.clients req.clientId = true
  unused : ∀ key, truthy req.idempotencyKey = some key →
    d.idempotencyKeys.lookup (req.clientId, key) = none
  scheduled : NewReminders bookingId row.slotStartUtc reminders
  writes : ws = .slot req.slotId { row with status := .booked } ::
    .booking bookingId req.booking ::
      (reminders ++ keyWrites req.clientId req.idempotencyKey req.json bookingId)

theorem NewReminders.onReminders {b : BookingId} {start : Instant} {ws : List Write}
    (h : NewReminders b start ws) : ∀ w ∈ ws, w.OnReminders b := by
  intro w hw
  obtain ⟨offset, -, rfl⟩ := h w hw
  rfl

/-- The rows are those of some of the offsets. -/
theorem NewReminders.eq {b : BookingId} {start : Instant} {ws : List Write}
    (h : NewReminders b start ws) :
    ∃ offsets, (∀ o ∈ offsets, o ∈ reminderOffsets) ∧ ws = reminderWrites b start offsets := by
  induction ws with
  | nil => exact ⟨[], by simp, rfl⟩
  | cons w ws ih =>
    obtain ⟨offsets, hsub, rfl⟩ := ih fun w' hw' => h w' (List.mem_cons_of_mem _ hw')
    obtain ⟨offset, hoffset, rfl⟩ := h w List.mem_cons_self
    refine ⟨offset :: offsets, fun o ho => ?_, rfl⟩
    rcases List.mem_cons.mp ho with rfl | ho
    · exact hoffset
    · exact hsub o ho

/-! #### What a committed booking leaves behind -/

section NewBooking

variable {cat : Catalog} {req : BookingRequest} {now minStart : Instant} {d : Database} {row : Slot}
variable {reminders ws : List Write} {bookingId : BookingId}

theorem bookings_keyWrites {c : ClientId} {key : Option String} {hash : JsonText} {b : BookingId} :
    ((chronos cat).apply (keyWrites c key hash b) d).bookings = d.bookings ∧
      ((chronos cat).apply (keyWrites c key hash b) d).slots = d.slots ∧
      ((chronos cat).apply (keyWrites c key hash b) d).reminderJobs = d.reminderJobs := by
  unfold keyWrites
  split <;> exact ⟨rfl, rfl, rfl⟩

theorem lookup_key_keyWrites {c : ClientId} {key : Option String} {hash : JsonText}
    {b : BookingId} (k : ClientId × String) :
    ((chronos cat).apply (keyWrites c key hash b) d).idempotencyKeys.lookup k =
      if k.1 = c ∧ truthy key = some k.2 then some ⟨hash, 201, b⟩
      else d.idempotencyKeys.lookup k := by
  unfold keyWrites
  obtain ⟨k₁, k₂⟩ := k
  cases hkey : truthy key with
  | none => simp
  | some text =>
    change ((Write.key c text ⟨hash, 201, b⟩).apply d).idempotencyKeys.lookup (k₁, k₂) = _
    rw [lookup_key_write]
    simp only [Prod.mk.injEq, Option.some.injEq, eq_comm (a := text)]

/-- The writes of a new booking, with the reminders and the key at the end. -/
theorem NewBooking.apply (h : NewBooking cat req now minStart d row reminders bookingId ws) :
    (chronos cat).apply ws d =
      (chronos cat).apply (keyWrites req.clientId req.idempotencyKey req.json bookingId)
        ((chronos cat).apply reminders ((Write.booking bookingId req.booking).apply
          ((Write.slot req.slotId { row with status := .booked }).apply d))) := by
  rw [h.writes, Engine.apply_cons, Engine.apply_cons, Engine.apply_append]
  rfl

theorem NewBooking.bookings (h : NewBooking cat req now minStart d row reminders bookingId ws)
    (i : BookingId) : ((chronos cat).apply ws d).bookings.lookup i =
      if i = bookingId then some req.booking else d.bookings.lookup i := by
  rw [h.apply, bookings_keyWrites.1, (sameBut_apply h.scheduled.onReminders).bookings,
    lookup_booking_write]
  rfl

theorem NewBooking.slots (h : NewBooking cat req now minStart d row reminders bookingId ws)
    (s : SlotId) : ((chronos cat).apply ws d).slots.lookup s =
      if s = req.slotId then some { row with status := .booked } else d.slots.lookup s := by
  rw [h.apply, bookings_keyWrites.2.1, (sameBut_apply h.scheduled.onReminders).slots]
  exact lookup_slot_write _ _ _

theorem NewBooking.keys (h : NewBooking cat req now minStart d row reminders bookingId ws)
    (k : ClientId × String) : ((chronos cat).apply ws d).idempotencyKeys.lookup k =
      if k.1 = req.clientId ∧ truthy req.idempotencyKey = some k.2 then
        some ⟨req.json, 201, bookingId⟩
      else d.idempotencyKeys.lookup k := by
  rw [h.apply, lookup_key_keyWrites, (sameBut_apply h.scheduled.onReminders).idempotencyKeys]
  rfl

theorem NewBooking.reminderJobs
    (h : NewBooking cat req now minStart d row reminders bookingId ws) :
    ∃ offsets, (∀ o ∈ offsets, o ∈ reminderOffsets) ∧
      reminders = reminderWrites bookingId row.slotStartUtc offsets ∧
      ∀ k, ((chronos cat).apply ws d).reminderJobs.lookup k =
        if k.1 = bookingId ∧ k.2 ∈ offsets then
          some ⟨row.slotStartUtc - minutesMs k.2, .scheduled, none⟩
        else d.reminderJobs.lookup k := by
  obtain ⟨offsets, hsub, hrem⟩ := h.scheduled.eq
  refine ⟨offsets, hsub, hrem, fun k => ?_⟩
  rw [h.apply, bookings_keyWrites.2.2, hrem, lookup_reminderWrites]
  rfl

theorem NewBooking.liveOn (h : NewBooking cat req now minStart d row reminders bookingId ws)
    (s : SlotId) (i : BookingId) : ((chronos cat).apply ws d).LiveOn s i ↔
      (i = bookingId ∧ req.slotId = s) ∨ (i ≠ bookingId ∧ d.LiveOn s i) := by
  simp only [Database.LiveOn, h.bookings]
  by_cases hi : i = bookingId
  · subst hi
    simp [BookingRequest.booking, Booking.live]
  · simp [hi]

end NewBooking

section Keeps

variable {cat : Catalog} {γ : Type}
variable {c : Contract Ask.Answer Stmt Database Write Nat JsError γ} {g₀ : γ}
variable {req : BookingRequest}

/-- The notice `createBooking` reads, in hours. -/
def BookingRequest.noticeHours (cat : Catalog) (d : Database) (req : BookingRequest) : Int :=
  match ((d.slots.lookup req.slotId).map Slot.providerId).or req.providerId with
  | none => 4
  | some providerId =>
    (((cat.providers providerId).map fun p => p.minimumBookingNotice.getD 4).map orFour).getD 4

/-- `hours` is the notice of a state that `know` admits, unless a statement has failed. -/
def BookingRequest.NoticeSeen (cat : Catalog) (req : BookingRequest)
    (env : Database → Env Nat JsError Ask.Answer → Prop) (know : Database → Prop)
    (hours : Int) : Prop :=
  (∃ d, know d ∧ hours = req.noticeHours cat d) ∨
    ∃ d x, env d x ∧ x.fault.isSome = true

theorem keeps_configuredNoticeHours (hstay : ∀ d, c.know g₀ d → c.move g₀ d [] g₀) :
    (configuredNoticeHours req).Keeps (chronos cat) c
      (Reading g₀ fun r => ∃ h, r = .ok h ∧ req.NoticeSeen cat (c.env g₀) (c.know g₀) h)
      .free g₀ := by
  -- Where a statement has failed any number of hours is admitted.
  let Seen : Except JsError Int → Prop := fun r => match r with
    | .ok hours => req.NoticeSeen cat (c.env g₀) (c.know g₀) hours
    | .error _ => ∀ hours, req.NoticeSeen cat (c.env g₀) (c.know g₀) hours
  have hfault : ∀ d env e, c.env g₀ d env → env.fault = some e →
      (throw e : Program Int).Keeps (chronos cat) c (Reading g₀ Seen) .free g₀ := by
    intro d env e he hf
    exact keeps_throw.mpr ⟨rfl, rfl, fun hours => Or.inr ⟨d, env, he, by rw [hf]; rfl⟩⟩
  have hread : ∀ d hours, c.know g₀ d → hours = req.noticeHours cat d →
      (ret hours : Program Int).Keeps (chronos cat) c (Reading g₀ Seen) .free g₀ :=
    fun d hours hk hhours => keeps_ret.mpr ⟨rfl, rfl, Or.inl ⟨d, hk, hhours⟩⟩
  refine Keeps.tryCatch (Reading g₀ Seen) ?_ (fun st g a h => ⟨h.1, h.2.1, a, rfl, h.2.2⟩) ?_
  · refine keeps_read (fun _ _ => rfl) hstay (fun d env he hk => ?_)
      fun d env e he hf => hfault d env e he hf
    simp only [andThen]
    split
    · next hnone => exact hread d 4 hk (by simp [BookingRequest.noticeHours, hnone])
    · next providerId hsome =>
      refine keeps_read (fun _ _ => rfl) hstay (fun _ _ _ _ => ?_)
        fun d env e he hf => hfault d env e he hf
      exact hread d _ hk (by simp [BookingRequest.noticeHours, hsome])
  · rintro st g e ⟨rfl, rfl, hseen⟩
    exact keeps_ret.mpr ⟨rfl, rfl, 4, rfl, hseen 4⟩

/-- The answer is no new booking. -/
def NotCreated (r : Except JsError Reply) : Prop := ∀ id, r ≠ .ok (.created id false)

theorem notCreated_refused (status : Nat) (error : String) :
    NotCreated (.ok (.refused status error)) := by
  intro id h
  simp [Reply.refused, Reply.created] at h

/-- An early answer, where there is one, is no new booking; `T` holds where there is none. -/
def EarlyAnswer (T : Prop) : Except JsError (Option Reply) → Prop
  | .ok (some r) => NotCreated (.ok r)
  | .ok none => T
  | .error _ => True

/-- Event type `e` exists, and is nobody's or the provider's of slot `s`. -/
def EventTypeFits (cat : Catalog) (e : EventTypeId) (s : SlotId) (d : Database) : Prop :=
  ∃ et, cat.eventTypes e = some et ∧
    (et.providerId.isSome → et.providerId = (d.slots.lookup s).map Slot.providerId)

/-- The event type, if the request names one, fits a state that `know` admits. -/
def BookingRequest.EventTypeSeen (cat : Catalog) (req : BookingRequest)
    (know : Database → Prop) : Prop :=
  ∀ e, req.eventTypeId = some e → ∃ d, know d ∧ EventTypeFits cat e req.slotId d

/-- What the reads before the transaction have shown. -/
structure BookingRequest.Checked (cat : Catalog) (req : BookingRequest)
    (env : Database → Env Nat JsError Ask.Answer → Prop) (know : Database → Prop)
    (hours : Int) : Prop where
  notice : req.NoticeSeen cat env know hours
  eventType : req.EventTypeSeen cat know

theorem keeps_validateEventType (hstay : ∀ d, c.know g₀ d → c.move g₀ d [] g₀) :
    (validateEventType req).Keeps (chronos cat) c
      (Reading g₀ (EarlyAnswer (req.EventTypeSeen cat (c.know g₀)))) .free g₀ := by
  unfold validateEventType
  split
  · next h => exact keeps_ret.mpr ⟨rfl, rfl, fun e he => by rw [h] at he; cases he⟩
  · next eventTypeId h =>
    refine Keeps.tryCatch (Reading g₀ (EarlyAnswer (req.EventTypeSeen cat (c.know g₀)))) ?_
      (fun _ _ _ h => h) ?_
    · refine keeps_read (fun _ _ => rfl) hstay (fun d env he hk => ?_)
        fun _ _ _ _ _ => keeps_throw.mpr ⟨rfl, rfl, trivial⟩
      simp only [andThen]
      split
      · exact keeps_ret.mpr ⟨rfl, rfl, notCreated_refused _ _⟩
      · next et het =>
        refine keeps_read (fun _ _ => rfl) hstay (fun d env he hk => ?_)
          fun _ _ _ _ _ => keeps_throw.mpr ⟨rfl, rfl, trivial⟩
        simp only [andThen]
        split
        · exact keeps_ret.mpr ⟨rfl, rfl, notCreated_refused _ _⟩
        · next hvalid =>
          refine keeps_ret.mpr ⟨rfl, rfl, fun e he => ⟨d, hk, et, ?_, fun hsome => ?_⟩⟩
          · rw [h, Option.some.injEq] at he
            exact he ▸ het
          · by_contra hne
            exact hvalid ⟨hsome, hne⟩
    · rintro st g e ⟨rfl, rfl, -⟩
      exact keeps_ret.mpr ⟨rfl, rfl, notCreated_refused _ _⟩

theorem keeps_checkIdempotencyKey (hstay : ∀ d, c.know g₀ d → c.move g₀ d [] g₀) :
    (checkIdempotencyKey req).Keeps (chronos cat) c (Reading g₀ (EarlyAnswer True)) .free g₀ := by
  unfold checkIdempotencyKey
  split
  · exact keeps_ret.mpr ⟨rfl, rfl, trivial⟩
  · refine keeps_read (fun _ _ => rfl) hstay (fun d env he hk => ?_)
      fun _ _ _ _ _ => keeps_throw.mpr ⟨rfl, rfl, trivial⟩
    simp only [andThen]
    split
    · exact keeps_ret.mpr ⟨rfl, rfl, trivial⟩
    · split
      · exact keeps_ret.mpr ⟨rfl, rfl, notCreated_refused _ _⟩
      · refine keeps_ret.mpr ⟨rfl, rfl, ?_⟩
        intro id h
        simp [Reply.created] at h

/-! #### Inside the transaction -/

variable {d : Database} {ws : List Write}

theorem keeps_insertReminders (hgiveUp : c.move g₀ d [] g₀) (hsend : ∀ ws s, c.send g₀ d ws s)
    {b : BookingId} {start : Instant} (offsets : List Nat)
    (hsub : ∀ offset ∈ offsets, offset ∈ reminderOffsets) :
    (insertReminders b start offsets).Keeps (chronos cat) c
      (Writing d ws g₀ fun _ ws' => NewReminders b start ws') (.inside d ws) g₀ := by
  induction offsets generalizing ws with
  | nil => exact keeps_ret.mpr ⟨rfl, [], by simp, fun w hw => by simp at hw⟩
  | cons offset offsets ih =>
    have hsub' : ∀ o ∈ offsets, o ∈ reminderOffsets := fun o ho => hsub o (List.mem_cons_of_mem _ ho)
    refine ⟨fun _ => rfl, fun nowMs => ?_⟩
    simp only [andThen]
    split
    · refine keeps_inside (hsend _ _) hgiveUp (fun o r ws' hx => ?_)
        fun e => keeps_throw.mpr ⟨rfl, Or.inl rfl⟩
      obtain ⟨rfl, -⟩ := insertReminder_ok hx
      refine (ih hsub').mono fun st g r h => ?_
      cases r with
      | error e => exact h
      | ok u =>
        obtain ⟨hg, ws', hst, hws'⟩ := h
        refine ⟨hg, _, by rw [hst, List.append_assoc], fun w hw => ?_⟩
        rcases List.mem_append.mp hw with h | h
        · exact ⟨offset, hsub offset List.mem_cons_self, List.mem_singleton.mp h⟩
        · exact hws' w h
    · exact ih hsub'

theorem keeps_insertIdempotencyKey (hgiveUp : c.move g₀ d [] g₀)
    (hsend : ∀ ws s, c.send g₀ d ws s) {clientId : ClientId} {key : Option String}
    {hash : JsonText} {b : BookingId} :
    (insertIdempotencyKey clientId key hash b).Keeps (chronos cat) c
      (Writing d ws g₀ fun _ ws' => ws' = keyWrites clientId key hash b ∧
        ∀ k, truthy key = some k →
          ((chronos cat).apply ws d).idempotencyKeys.lookup (clientId, k) = none)
      (.inside d ws) g₀ := by
  unfold insertIdempotencyKey keyWrites
  cases hkey : truthy key with
  | none => exact keeps_ret.mpr ⟨rfl, [], by simp, rfl, fun k hk => by cases hk⟩
  | some key' =>
    refine keeps_inside (hsend _ _) hgiveUp (fun o r ws' hx => ?_)
      fun e => keeps_throw.mpr ⟨rfl, Or.inl rfl⟩
    obtain ⟨rfl, hnone, -⟩ := insertKey_ok hx
    refine keeps_ret.mpr ⟨rfl, _, rfl, rfl, fun k hk => ?_⟩
    rw [← Option.some.inj hk]
    exact hnone

/-! #### The whole call -/

/-- How `createBooking` ends: it has committed nothing and created nothing, or it has
    committed a booking; then it says so unless something goes wrong after the commit. -/
def CreateEnds (c : Contract Ask.Answer Stmt Database Write Nat JsError γ) (g₀ : γ)
    (Won : BookingId → γ → Prop) : γ → Except JsError Reply → Prop :=
  fun g r => (g = g₀ ∧ NotCreated r) ∨
    ∃ id, Won id g ∧ (r = .ok (.created id false) ∨ NotCreated r ∧ ¬ CalmAt c (Won id))

variable {Won Ended : BookingId → γ → Prop} {now minStart : Instant} {queue : Bool}

/-- After the commit. -/
theorem keeps_enqueueReminders {s : SlotId} {b : BookingId} {φ : γ → Prop} {g : γ}
    {now : Program Instant}
    (hpost : ∀ g d ws, φ g → c.know g d → (∀ w ∈ ws, w.Settles b) → c.Next g d ws φ)
    (hnow : ∀ g, φ g → now.Keeps (chronos cat) c (Quietly c φ) .free g) (hg : φ g) :
    (enqueueReminders s b now).Keeps (chronos cat) c (Quietly c φ) .free g := by
  refine keeps_reminders (s := .selectSlot s) (b := b) (φ := φ) (fun o d e h => by cases h)
    (fun o d r ws h => by rw [(read_ok h).2]; simp) hpost hg (fun slot g hg => ?_)
    fun d env e g g' hg he hf hg' => keeps_throw.mpr (quietly_error hg he hg' (Or.inl hf))
  simp only [andThen]
  split
  · exact keeps_ret.mpr ⟨rfl, hg, fun _ => ⟨(), rfl⟩⟩
  · refine keeps_reminders (s := .selectScheduledOffsets b) (b := b) (φ := φ)
      (fun o d e h => by cases h) (fun o d r ws h => by rw [(read_ok h).2]; simp) hpost hg
      (fun offsets g hg => ?_)
      fun d env e g g' hg he hf hg' => keeps_throw.mpr (quietly_error hg he hg' (Or.inl hf))
    simp only [andThen]
    split
    · refine (hnow g hg).bind ?_ fun st g e h => ⟨h.1, h.2.1, fun hcalm => ?_⟩
      · rintro st g now ⟨rfl, hg, -⟩
        exact keeps_enqueueForBooking hpost _ now offsets hg
      · obtain ⟨a, ha⟩ := h.2.2 hcalm
        cases ha
    · exact keeps_ret.mpr ⟨rfl, hg, fun _ => ⟨(), rfl⟩⟩

/-- What the queue is told of a booking that was committed leads from `Won` to `Ended`, where a
    client may stay. -/
structure Enqueued (cat : Catalog) (c : Contract Ask.Answer Stmt Database Write Nat JsError γ)
    (s : SlotId) (now : Instant) (queue : Bool) (Won Ended : BookingId → γ → Prop) : Prop where
  enqueue : ∀ id g, Won id g → queue = true →
    (enqueueReminders s id (ret now)).Keeps (chronos cat) c (Quietly c (Ended id)) .free g
  skip : ∀ id g, Won id g → queue = false → Ended id g
  rest : ∀ id, StaysAt c (Ended id)

theorem enqueued_of_reminders {s : SlotId}
    (hpost : ∀ id g d ws, Won id g → c.know g d → (∀ w ∈ ws, w.Settles id) →
      c.Next g d ws (Won id)) : Enqueued cat c s now queue Won Won where
  enqueue id g hg _ := keeps_enqueueReminders (hpost id)
    (fun g hg => keeps_ret.mpr ⟨rfl, hg, fun _ => ⟨_, rfl⟩⟩) hg
  skip id g hg _ := hg
  rest id g d hg hk := hpost id g d [] hg hk (by simp)

theorem keeps_bookSlotInTransaction (hstay : ∀ d, c.know g₀ d → c.move g₀ d [] g₀)
    (hsend : ∀ g d ws s, c.send g d ws s)
    (hcommit : ∀ d row reminders id ws, c.know g₀ d →
      NewBooking cat req now minStart d row reminders id ws → c.Next g₀ d ws (Won id))
    (hafter : Enqueued cat c req.slotId now queue Won Ended) :
    (bookSlotInTransaction req now minStart queue).Keeps (chronos cat) c
      (c.post (CreateEnds c g₀ Ended)) .free g₀ := by
  -- What the `catch` block may find: nothing committed, or a committed booking and a mishap.
  refine Keeps.tryCatch (fun st g r => match r with
    | .ok r => st = .free ∧ CreateEnds c g₀ Ended g (.ok r)
    | .error _ => (g = g₀ ∧ Catchable c g₀ st) ∨
        (st = .free ∧ ∃ id, Ended id g ∧ ¬ CalmAt c (Ended id))) ?_ ?_ ?_
  · refine ⟨fun d hk => ?_, fun d env e _ hk _ => ⟨g₀, hstay d hk, Or.inl ⟨rfl, Or.inl rfl⟩⟩⟩
    have hgiveUp := hstay d hk
    refine keeps_inside (hsend _ _ _ _) hgiveUp (fun o slot ws₁ hx => ?_)
      fun e => keeps_throw.mpr (Or.inl ⟨rfl, Or.inr (Or.inl rfl)⟩)
    simp only [andThen]
    rcases updateSlotWhere_ok hx with ⟨rfl, -, -⟩ | ⟨row, hrow, hp, rfl, rfl, -⟩
    · exact keeps_rollback hstay hgiveUp
        (keeps_ret.mpr ⟨rfl, Or.inl ⟨rfl, notCreated_refused _ _⟩⟩)
        fun e => keeps_throw.mpr (Or.inl ⟨rfl, Or.inr (Or.inl rfl)⟩)
    · obtain ⟨hopen, hnow, hmin⟩ := of_decide_eq_true hp
      refine keeps_inside (hsend _ _ _ _) hgiveUp (fun fresh b ws₂ hx₂ => ?_)
        fun e => keeps_throw.mpr (Or.inl ⟨rfl, Or.inr (Or.inl rfl)⟩)
      obtain ⟨rfl, rfl, hfresh, hlive, -, hclient⟩ := insertBooking_ok hx₂
      have hfree : ∀ i, ¬ d.LiveOn req.slotId i := by
        intro i hi
        have hother : d.otherLive req.slotId none = false := hlive rfl
        rw [(otherLive_iff d _ _).mpr ⟨i, by simp, hi⟩] at hother
        cases hother
      refine (keeps_insertReminders hgiveUp (hsend _ _) reminderOffsets fun _ h => h).bind ?_ ?_
      · rintro st g u ⟨rfl, reminders, rfl, hrem⟩
        refine (keeps_insertIdempotencyKey hgiveUp (hsend _ _)).bind ?_ ?_
        · rintro st g u ⟨rfl, ws', rfl, rfl, hunused⟩
          refine ⟨?_, fun env e _ _ => ⟨_, hgiveUp, keeps_throw.mpr (Or.inl ⟨rfl, Or.inl rfl⟩)⟩⟩
          -- What the transaction has seen of the key is what it found in the beginning.
          have hunused' : ∀ key, truthy req.idempotencyKey = some key →
              d.idempotencyKeys.lookup (req.clientId, key) = none := by
            intro key hkey
            have h := hunused key hkey
            rw [Engine.apply_append, (sameBut_apply hrem.onReminders).idempotencyKeys] at h
            exact h
          refine (hcommit d row reminders b _ hk ⟨hrow, hopen, hnow, hmin, hfresh, hfree, hclient,
            hunused', hrem, by simp⟩).mono fun g' hwon => ?_
          simp only [andThen]
          split
          · next hqueue =>
            refine (hafter.enqueue b g' hwon hqueue).bind ?_ ?_
            · rintro st g u ⟨rfl, hend, -⟩
              exact keeps_ret.mpr ⟨rfl, Or.inr ⟨b, hend, Or.inl rfl⟩⟩
            · rintro st g e ⟨rfl, hend, hcalm⟩
              exact Or.inr ⟨rfl, b, hend, fun h => by obtain ⟨a, ha⟩ := hcalm h; cases ha⟩
          · next hqueue =>
            have hend := hafter.skip b g' hwon (Bool.eq_false_iff.mpr hqueue)
            exact keeps_ret.mpr ⟨rfl, Or.inr ⟨b, hend, Or.inl rfl⟩⟩
        · rintro st g e ⟨rfl, hst⟩
          exact Or.inl ⟨rfl, catchable_of_writing hk hst⟩
      · rintro st g e ⟨rfl, hst⟩
        exact Or.inl ⟨rfl, catchable_of_writing hk hst⟩
  · rintro st g r ⟨rfl, h⟩
    exact h
  · intro st g e h
    have hnot : NotCreated (.ok e.refusal) := by
      unfold JsError.refusal
      split <;> exact notCreated_refused _ _
    rcases h with ⟨rfl, hst⟩ | ⟨rfl, id, hwon, hmishap⟩
    · exact keeps_catch (r := .ok _) hst (staysAt_eq hstay) rfl fun g' hg' => Or.inl ⟨hg', hnot⟩
    · exact keeps_catch (r := .ok _) (Or.inl rfl) (hafter.rest id) hwon
        fun g' hg' => Or.inr ⟨id, hg', Or.inr ⟨hnot, hmishap⟩⟩

theorem keeps_createBookingAt (hstay : ∀ d, c.know g₀ d → c.move g₀ d [] g₀)
    (hsend : ∀ g d ws s, c.send g d ws s)
    (hcommit : ∀ d hours row reminders id ws, req.Checked cat (c.env g₀) (c.know g₀) hours →
      c.know g₀ d →
      NewBooking cat req now (now + hoursMs hours) d row reminders id ws →
      c.Next g₀ d ws (Won id))
    (hafter : Enqueued cat c req.slotId now queue Won Ended) :
    (createBookingAt req now queue).Keeps (chronos cat) c (c.post (CreateEnds c g₀ Ended))
      .free g₀ := by
  have hnothing : ∀ {r}, NotCreated r → c.post (CreateEnds c g₀ Ended) .free g₀ r :=
    fun h => Or.inl ⟨rfl, h⟩
  have hthrow : ∀ e, NotCreated (.error e) := fun e id h => by cases h
  refine (keeps_configuredNoticeHours hstay).bind ?_ ?_
  · rintro st g hours ⟨rfl, rfl, _, hhours, hnotice⟩
    obtain rfl := Except.ok.inj hhours
    refine (keeps_validateEventType hstay).bind ?_ ?_
    · rintro st g refusal ⟨rfl, rfl, hearly⟩
      cases refusal with
      | some refusal => exact keeps_ret.mpr (hnothing hearly)
      | none =>
        refine (keeps_checkIdempotencyKey hstay).bind ?_ ?_
        · rintro st g answer ⟨rfl, rfl, hanswer⟩
          cases answer with
          | some answer => exact keeps_ret.mpr (hnothing hanswer)
          | none =>
            exact keeps_bookSlotInTransaction hstay hsend
              (fun d row reminders id ws => hcommit d hours row reminders id ws ⟨hnotice, hearly⟩)
              hafter
        · rintro st g e ⟨rfl, rfl, -⟩
          exact hnothing (hthrow e)
    · rintro st g e ⟨rfl, rfl, -⟩
      exact hnothing (hthrow e)
  · rintro st g e ⟨rfl, rfl, -⟩
    exact hnothing (hthrow e)

/-- **Everything `createBooking` can do.**  It reads; it may commit one new booking; after that
    it tells the queue. -/
theorem keeps_createBooking_enqueued {nowUtc : Option Instant}
    (hstay : ∀ d, c.know g₀ d → c.move g₀ d [] g₀) (hsend : ∀ g d ws s, c.send g d ws s)
    (hcommit : ∀ now hours d row reminders id ws, EffectiveNow c g₀ nowUtc now →
      req.Checked cat (c.env g₀) (c.know g₀) hours → c.know g₀ d →
      NewBooking cat req now (now + hoursMs hours) d row reminders id ws →
      c.Next g₀ d ws (Won id))
    (hafter : ∀ now, Enqueued cat c req.slotId now queue Won Ended) :
    (createBooking req nowUtc queue).Keeps (chronos cat) c (c.post (CreateEnds c g₀ Ended))
      .free g₀ := by
  cases nowUtc with
  | some now =>
    exact keeps_createBookingAt hstay hsend
      (fun d hours row reminders id ws => hcommit now hours d row reminders id ws
        ⟨by simp, by simp⟩) (hafter now)
  | none =>
    refine fun d env he hk => ⟨g₀, hstay d hk, ?_⟩
    exact keeps_createBookingAt hstay hsend
      (fun d' hours row reminders id ws => hcommit _ hours d' row reminders id ws
        ⟨by simp, fun _ => ⟨d, env, he, rfl⟩⟩) (hafter _)

/-- What `createBooking` does after its commit is to write reminder rows of the new booking. -/
theorem keeps_createBooking {nowUtc : Option Instant}
    (hstay : ∀ d, c.know g₀ d → c.move g₀ d [] g₀) (hsend : ∀ g d ws s, c.send g d ws s)
    (hcommit : ∀ now hours d row reminders id ws, EffectiveNow c g₀ nowUtc now →
      req.Checked cat (c.env g₀) (c.know g₀) hours → c.know g₀ d →
      NewBooking cat req now (now + hoursMs hours) d row reminders id ws →
      c.Next g₀ d ws (Won id))
    (hpost : ∀ id g d ws, Won id g → c.know g d → (∀ w ∈ ws, w.OnReminders id) →
      c.Next g d ws (Won id)) :
    (createBooking req nowUtc queue).Keeps (chronos cat) c (c.post (CreateEnds c g₀ Won))
      .free g₀ :=
  keeps_createBooking_enqueued hstay hsend hcommit fun _ => enqueued_of_reminders
    fun id g d ws hg hk hws => hpost id g d ws hg hk fun w hw => (hws w hw).onReminders

end Keeps

end Chronos
