import Chronos.Agreement
import Chronos.ReadCommitted.Sends

namespace Chronos

open ReadCommitted ReadCommitted.Prog

/-!
# Whose bookings they are

A row of `bookings` names a provider besides its slot.  `POST /bookings` and
`POST /bookings/:id/reschedule` are the two ways to insert one.  The request the first one
builds has no `providerId`, and the `INSERT` of the second one has no such column, so the
provider of a booking is `NULL` while that of a slot never is: `attributed_iff_no_booking`.
-/

/-! ### `POST /bookings` -/

structure CreateBookingDto where
  slotId : SlotId
  eventTypeId : Option EventTypeId
  idempotencyKey : Option String
  clientTimezone : Option String

/-- What `extractClientFromCookie` finds: nothing, a text that is no UUID, or a client. -/
inductive SessionCookie
  | absent
  | malformed
  | client (id : ClientId)

/-- `text || fallback`. -/
def textOr (text : Option String) (fallback : String) : String :=
  match truthy text with
  | none => fallback
  | some text => text

/-- The request the controller builds.  It has no provider. -/
def CreateBookingDto.request (body : CreateBookingDto) (idempotencyKey : Option String)
    (sessionClientId : ClientId) : BookingRequest where
  providerId := none
  eventTypeId := body.eventTypeId
  slotId := body.slotId
  clientId := sessionClientId
  idempotencyKey := (truthy idempotencyKey).or body.idempotencyKey
  clientTimezone := textOr body.clientTimezone "UTC"

/-- Create notification for provider when booking created; its failure is ignored. -/
def notifyNewBooking (req : BookingRequest) (result : Reply) : Program Unit :=
  tryCatch
    (do
      match ← dbQuery (.selectSlot req.slotId) with
      | none => pure ()
      | some slot => perform (.notifyProvider slot.providerId req.clientId result.bookingId))
    fun _ => pure ()

/-- The answer of the endpoint; other results become exceptions. -/
def Reply.answerPost (result : Reply) : Except JsError Reply :=
  if result.status = 201 then .ok result
  else if result.status = 409 then .error (jsError (textOr result.error "Slot unavailable"))
  else if result.status = 422 then .error (jsError (textOr result.error "Idempotency conflict"))
  else if result.status = 400 then
    let msg := textOr result.error "Bad request"
    if includes msg "event_type" || includes msg "invalid_" then .error (jsError msg)
    else .ok (.refused 400 msg)
  else .error (jsError (textOr result.error "Booking failed"))

/-- `POST /bookings`. -/
def createBookingEndpoint (body : CreateBookingDto) (idempotencyKey : Option String)
    (cookie : SessionCookie) (queue : Bool) : Program Reply :=
  match cookie with
  | .absent => throw (jsError "chronos_session required")
  | .malformed => throw (jsError "invalid session")
  | .client sessionClientId => do
    let req := body.request idempotencyKey sessionClientId
    let nowUtc ← clockNow
    let result ← createBooking req (some nowUtc) queue
    notifyNewBooking req result
    ofExcept result.answerPost

/-- A request that inserts a booking. -/
inductive Post
  | createBooking (body : CreateBookingDto) (idempotencyKey : Option String)
      (cookie : SessionCookie) (queue : Bool)
  | reschedule (id : BookingId) (body : RescheduleBody) (session : Option ClientId) (queue : Bool)

def Post.program (fromColumn : Instant → Except JsError Instant) : Post → Program Reply
  | .createBooking body idempotencyKey cookie queue =>
      createBookingEndpoint body idempotencyKey cookie queue
  | .reschedule id body session queue => rescheduleEndpoint fromColumn id body session queue

/-! ### The bookings they insert have no provider -/

/-- A booking the statement inserts has no provider. -/
def Stmt.Unattributed : Stmt → Prop
  | .insertBooking row => row.providerId = none
  | _ => True

/-- A booking that is written has no provider. -/
def Write.Unattributed : Write → Prop
  | .booking _ row => row.providerId = none
  | _ => True

/-- No booking has a provider. -/
def Database.Unattributed (d : Database) : Prop :=
  ∀ i b, d.bookings.lookup i = some b → b.providerId = none

section Sends

theorem sends_perform {e : Effect} : (perform e).Sends Stmt.Unattributed := by
  intro x
  cases x with
  | ok u => exact trivial
  | error e => exact trivial

theorem sends_queueAdd {b : BookingId} {offset : Nat} {now : Instant} {delayMs : Int} :
    (queueAdd b offset now delayMs).Sends Stmt.Unattributed := by
  intro x
  cases x with
  | ok timestamp => exact trivial
  | error e => exact trivial

theorem sends_rollbackQuietly : rollbackQuietly.Sends Stmt.Unattributed :=
  ⟨trivial, fun _ => trivial⟩

theorem sends_enqueueForBooking {b : BookingId} {start now : Instant} (offsets : List Nat) :
    (enqueueForBooking b start now offsets).Sends Stmt.Unattributed := by
  induction offsets with
  | nil => exact trivial
  | cons offset offsets ih =>
    simp only [enqueueForBooking]
    split
    · exact ⟨trivial, fun _ => ih, fun _ => trivial⟩
    · refine ⟨trivial, fun found => ?_, fun _ => trivial⟩
      cases found with
      | false => exact ih
      | true => exact sends_queueAdd.bind fun _ => ih

theorem sends_removeJobs {b : Option BookingId} {spelling : Spelling} (offsets : List Nat) :
    (removeJobs b spelling offsets).Sends Stmt.Unattributed := by
  induction offsets with
  | nil => exact trivial
  | cons offset offsets ih => exact fun _ => ih

theorem sends_cancelForBooking {b : Option BookingId} {spelling : Spelling} :
    (cancelForBooking b spelling).Sends Stmt.Unattributed := by
  refine ⟨trivial, fun offsets => ?_, fun _ => trivial⟩
  exact (sends_removeJobs offsets).bind fun _ => sends_query trivial

theorem sends_enqueueReminders {s : SlotId} {b : BookingId} {now : Program Instant}
    (hnow : now.Sends Stmt.Unattributed) :
    (enqueueReminders s b now).Sends Stmt.Unattributed := by
  refine ⟨trivial, fun slot => ?_, fun _ => trivial⟩
  cases slot with
  | none => exact trivial
  | some slot =>
    refine ⟨trivial, fun offsets => ?_, fun _ => trivial⟩
    simp only [andThen]
    split
    · exact hnow.bind fun _ => sends_enqueueForBooking offsets
    · exact trivial

theorem sends_insertIdempotencyKey {c : ClientId} {key : Option String} {hash : JsonText}
    {b : BookingId} : (insertIdempotencyKey c key hash b).Sends Stmt.Unattributed := by
  unfold insertIdempotencyKey
  split
  · exact trivial
  · exact sends_query trivial

theorem sends_insertReminders {b : BookingId} {start : Instant} (offsets : List Nat) :
    (insertReminders b start offsets).Sends Stmt.Unattributed := by
  induction offsets with
  | nil => exact trivial
  | cons offset offsets ih =>
    intro nowMs
    simp only [andThen]
    split
    · exact ⟨trivial, fun _ => ih, fun _ => trivial⟩
    · exact ih

theorem sends_bookSlotInTransaction {req : BookingRequest} (hreq : req.providerId = none)
    {now minStart : Instant} {queue : Bool} :
    (bookSlotInTransaction req now minStart queue).Sends Stmt.Unattributed := by
  have hnow : (ret now : Program Instant).Sends Stmt.Unattributed := trivial
  refine Sends.tryCatch ⟨⟨trivial, fun slot => ?_, fun _ => trivial⟩, fun _ => trivial⟩
    fun e => sends_rollbackQuietly.bind fun _ => trivial
  cases slot with
  | none => exact ⟨trivial, fun _ => trivial⟩
  | some slot =>
    refine ⟨hreq, fun b => ?_, fun _ => trivial⟩
    refine (sends_insertReminders reminderOffsets).bind fun _ => ?_
    refine sends_insertIdempotencyKey.bind fun _ => ⟨?_, fun _ => trivial⟩
    simp only [andThen]
    split
    · exact (sends_enqueueReminders hnow).bind fun _ => trivial
    · exact trivial

theorem unattributed_of_checks (s : Stmt) (hs : s.Checks) : s.Unattributed := by
  cases s with
  | insertBooking row => exact hs.elim
  | _ => exact trivial

theorem sends_createBookingAt {req : BookingRequest} (hreq : req.providerId = none)
    {now : Instant} {queue : Bool} :
    (createBookingAt req now queue).Sends Stmt.Unattributed := by
  refine ((talks_configuredNoticeHours req).sends unattributed_of_checks).bind fun hours => ?_
  refine ((talks_validateEventType req).sends unattributed_of_checks).bind fun refusal => ?_
  cases refusal with
  | some refusal => exact trivial
  | none =>
    refine ((talks_checkIdempotencyKey req).sends unattributed_of_checks).bind fun answer => ?_
    cases answer with
    | some answer => exact trivial
    | none => exact sends_bookSlotInTransaction hreq

theorem sends_createBookingEndpoint {body : CreateBookingDto} {key : Option String}
    {cookie : SessionCookie} {queue : Bool} :
    (createBookingEndpoint body key cookie queue).Sends Stmt.Unattributed := by
  cases cookie with
  | absent => exact trivial
  | malformed => exact trivial
  | client client =>
    intro now
    have hcreate : (createBooking (body.request key client) (some now) queue).Sends
        Stmt.Unattributed := sends_createBookingAt rfl
    refine hcreate.bind fun result => ?_
    have hnotify : (notifyNewBooking (body.request key client) result).Sends Stmt.Unattributed := by
      refine Sends.tryCatch ⟨trivial, fun slot => ?_, fun _ => trivial⟩ fun _ => trivial
      cases slot with
      | none => exact trivial
      | some slot => exact sends_perform
    refine hnotify.bind fun _ => ?_
    cases result.answerPost with
    | ok reply => exact trivial
    | error e => exact trivial

variable {fromColumn : Instant → Except JsError Instant}

theorem sends_insertMovedReminders {b : BookingId} {start now : Instant} (offsets : List Nat) :
    (insertMovedReminders fromColumn b start now offsets).Sends Stmt.Unattributed := by
  induction offsets with
  | nil => exact trivial
  | cons offset offsets ih =>
    simp only [insertMovedReminders]
    split
    · exact trivial
    · simp only [bind_eq]
      split
      · exact ⟨trivial, fun _ => ih, fun _ => trivial⟩
      · exact ih

theorem sends_afterMove {req : RescheduleRequest} {b : BookingId} {queue : Bool} :
    (afterMove req b queue).Sends Stmt.Unattributed := by
  have hclock : clockNow.Sends Stmt.Unattributed := fun _ => trivial
  cases queue with
  | false => exact fun _ => trivial
  | true =>
    have hcancel :
        (tryCatch (cancelForBooking (some req.bookingId) req.spelling) fun _ => pure ()).Sends
        Stmt.Unattributed := sends_cancelForBooking.tryCatch fun _ => trivial
    have henqueue : (tryCatch (enqueueReminders req.newSlotId b clockNow) fun _ => pure ()).Sends
        Stmt.Unattributed := (sends_enqueueReminders hclock).tryCatch fun _ => trivial
    exact hcancel.bind fun _ _ => henqueue

theorem sends_moveTransaction {req : RescheduleRequest} {now : Instant} {queue : Bool} :
    (moveTransaction fromColumn req now queue).Sends Stmt.Unattributed := by
  refine Sends.tryCatch ⟨⟨trivial, fun row => ?_, fun _ => trivial⟩, fun _ => trivial⟩
    fun e => sends_rollbackQuietly.bind fun _ => trivial
  simp only [andThen]
  cases req.check row with
  | error refusal => exact ⟨trivial, fun _ => trivial⟩
  | ok b =>
    refine ⟨trivial, fun slot => ?_, fun _ => trivial⟩
    cases slot with
    | none => exact ⟨trivial, fun _ => trivial⟩
    | some slot =>
      refine ⟨trivial, fun _ => ⟨trivial, fun _ => ⟨rfl, fun newId => ⟨trivial, fun _ => ?_,
        fun _ => trivial⟩, fun _ => trivial⟩, fun _ => trivial⟩, fun _ => trivial⟩
      refine (sends_insertMovedReminders reminderOffsets).bind fun _ => ?_
      refine sends_insertIdempotencyKey.bind fun _ => ⟨?_, fun _ => trivial⟩
      exact sends_afterMove.bind fun _ => trivial

theorem sends_rescheduleEndpoint {id : BookingId} {body : RescheduleBody}
    {session : Option ClientId} {queue : Bool} :
    (rescheduleEndpoint fromColumn id body session queue).Sends Stmt.Unattributed := by
  cases session with
  | none => exact trivial
  | some client =>
    refine ⟨trivial, fun row => ?_, fun _ => trivial⟩
    cases row with
    | none => exact trivial
    | some b =>
      simp only [andThen]
      split
      · exact trivial
      · intro now
        refine sends_perform.bind fun _ => Sends.tryFinally ?_ sends_perform
        have hload : (loadBooking (body.request id)).Sends Stmt.Unattributed := by
          refine ⟨⟨trivial, fun row => ?_, fun _ => trivial⟩, fun _ => trivial⟩
          simp only [andThen]
          cases (body.request id).check row with
          | error refusal =>
            exact ⟨sends_perform.bind fun _ => trivial, fun _ => trivial⟩
          | ok b => exact ⟨sends_perform.bind fun _ => trivial, fun _ => trivial⟩
        refine hload.bind fun loaded => ?_
        cases loaded with
        | error refusal => exact trivial
        | ok b =>
          refine ⟨trivial, fun slot => ?_, fun _ => trivial⟩
          simp only [andThen]
          split
          · exact trivial
          · exact sends_perform.bind fun _ => Sends.tryFinally sends_moveTransaction sends_perform

theorem sends_post (post : Post) : (post.program fromColumn).Sends Stmt.Unattributed := by
  cases post with
  | createBooking body key cookie queue => exact sends_createBookingEndpoint
  | reschedule id body session queue => exact sends_rescheduleEndpoint

end Sends

/-! ### Every run -/

/-- Every booking names the provider of its slot, and its event type is that provider's. -/
def Database.Attributed (cat : Catalog) (d : Database) : Prop :=
  ∀ i b, d.bookings.lookup i = some b → ∃ slot, d.slots.lookup b.slotId = some slot ∧
    b.providerId = some slot.providerId ∧ ∀ e, b.eventTypeId = some e →
      ∃ eventType, cat.eventTypes e = some eventType ∧
        eventType.providerId = some slot.providerId

section Runs

variable {cat : Catalog} {d : Database} {s : Stmt} {o : Nat} {w : Write}

/-- A new version of a booking has the provider of the old one. -/
theorem Written.unattributed (h : Written s o d w) (hd : d.Unattributed)
    (hs : s.Unattributed) : w.Unattributed := by
  cases h with
  | @booking id row _ _ hrow => exact hd id row hrow
  | insertBooking hinsert => rw [hinsert] at hs; exact hs
  | _ => exact trivial

theorem Write.Unattributed.write (hw : w.Unattributed) (hd : d.Unattributed) :
    (w.apply d).Unattributed := by
  intro i b hb
  by_cases h : ∃ id row, w = .booking id row
  · obtain ⟨id, row, rfl⟩ := h
    rw [lookup_booking_write] at hb
    split at hb
    · obtain rfl := Option.some.inj hb
      exact hw
    · exact hd i b hb
  · rw [bookings_write w fun id row heq => h ⟨id, row, heq⟩] at hb
    exact hd i b hb

theorem writes_unattributed (cat : Catalog) :
    Writes (chronos cat) Stmt.Unattributed Database.Unattributed Write.Unattributed where
  exec s o d r ws hs hd hx w hw := by
    have hexec : (exec cat s o d).result = .ok (r, ws) := hx
    rcases exec_written hexec with rfl | ⟨w', rfl, hwritten⟩
    · cases hw
    · obtain rfl := List.mem_singleton.mp hw
      exact hwritten.unattributed hd hs
  note a x w hw := by
    change w ∈ noted a x at hw
    unfold noted at hw
    split at hw
    · rw [List.mem_singleton.mp hw]; exact trivial
    · rw [List.mem_singleton.mp hw]; exact trivial
    · rw [List.mem_singleton.mp hw]; exact trivial
    · cases hw
  write d w hd hw := hw.write hd

variable {ι C : Type} [DecidableEq ι] [DecidableEq C]
variable {fromColumn : Instant → Except JsError Instant} {posts : ι → Post}

/-- **No booking is attributed.**  Any number of clients post bookings and moves, each statement
    over whatever connection the pool serves, and anything may fail.  The tables are as they
    should be exactly until the first booking is inserted. -/
theorem attributed_iff_no_booking {d₀ : Database}
    {w : World Stmt.Rows Ask.Answer JsError Reply Database Write Lock C ι}
    (hbookings : ∀ i, d₀.bookings.lookup i = none)
    (h : Reaches (chronos cat) (fun _ _ => True)
      (World.init d₀ fun i => (posts i).program fromColumn) w) :
    w.db.Attributed cat ↔ ∀ i, w.db.bookings.lookup i = none := by
  have hstart : d₀.Unattributed := by
    intro i b hb
    rw [hbookings] at hb
    cases hb
  have hdb : w.db.Unattributed :=
    (World.Within.reaches (writes_unattributed cat)
      (within_init hstart fun i => sends_post (posts i)) h).db
  constructor
  · intro hattributed i
    cases hb : w.db.bookings.lookup i with
    | none => rfl
    | some b =>
      obtain ⟨slot, -, hprovider, -⟩ := hattributed i b hb
      rw [hdb i b hb] at hprovider
      cases hprovider
  · intro hnone i b hb
    rw [hnone] at hb
    cases hb

end Runs

/-- `POST /bookings` for slot `1`, with nothing else in the body, by client `5`. -/
def samplePost : Post := .createBooking ⟨1, none, none, none⟩ none (.client 5) false

theorem sample_posted : ∃ w : World Stmt.Rows Ask.Answer JsError Reply Database Write Lock Unit Unit,
    Reaches (chronos sampleCatalog) (fun _ _ => True)
      (World.init sampleDb fun _ => samplePost.program .ok) w ∧
    w.prog () = .ret (.created 1 false) ∧ w.db.bookings.lookup 1 = some sampleRequest.booking ∧
      w.db.slots.lookup 1 = some (sampleSlot .booked) := by
  have hrun : ∃ w : World Stmt.Rows Ask.Answer JsError Reply Database Write Lock Unit Unit,
      World.run (chronos sampleCatalog) (fun _ _ => true)
        (World.init sampleDb fun _ => samplePost.program .ok)
        (List.replicate 13 ⟨(), (), calmEnv 1 0⟩) = some w ∧
      w.prog () = .ret (.created 1 false) ∧ w.db.bookings.lookup 1 = some sampleRequest.booking ∧
        w.db.slots.lookup 1 = some (sampleSlot .booked) :=
    ⟨_, rfl, rfl, rfl, rfl⟩
  obtain ⟨w, hw, hret, hbooking, hslot⟩ := hrun
  exact ⟨w, reaches_of_run (fun _ _ _ _ => trivial) hw, hret, hbooking, hslot⟩

theorem attributed_iff_no_booking_posted :
    ∃ w : World Stmt.Rows Ask.Answer JsError Reply Database Write Lock Unit Unit,
      w.db.Attributed sampleCatalog ↔ ∀ i, w.db.bookings.lookup i = none := by
  obtain ⟨w, hw, -⟩ := sample_posted
  exact ⟨w, attributed_iff_no_booking sampleDb_no_bookings hw⟩

/-- **A booking without a provider.**  `POST /bookings` answers 201; the slot it has booked
    belongs to provider `7`, the booking to nobody. -/
theorem posted_without_provider :
    ∃ w : World Stmt.Rows Ask.Answer JsError Reply Database Write Lock Unit Unit,
      Reaches (chronos sampleCatalog) (fun _ _ => True)
        (World.init sampleDb fun _ => samplePost.program .ok) w ∧
      (∀ i, sampleDb.bookings.lookup i = none) ∧ w.prog () = .ret (.created 1 false) ∧
      ¬ w.db.Attributed sampleCatalog := by
  obtain ⟨w, hw, hret, hbooking, hslot⟩ := sample_posted
  refine ⟨w, hw, sampleDb_no_bookings, hret, fun hattributed => ?_⟩
  obtain ⟨slot, -, hprovider, -⟩ := hattributed 1 _ hbooking
  cases hprovider

end Chronos
