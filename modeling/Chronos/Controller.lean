import Chronos.Lifecycle
import Chronos.Reschedule

namespace Chronos

open ReadCommitted ReadCommitted.Prog

/-!
# `BookingsController`

The endpoints of `bookings.controller.ts` that change an existing booking.  `POST :id/confirm`,
`POST :id/decline` and `PATCH :id/status` are one transaction with different checks
(`updateAsOwner`); `POST :id/cancel` reads the booking outside any transaction and sends its
own through the pool; `POST :id/reschedule` checks who owns the booking and calls
`rescheduleBooking`.

`sessionClientId` is what the session cookie holds, if there is one; `queue` says whether
the controller has a reminder queue.
-/

/-- `new UnauthorizedException('unauthorized')`. -/
def unauthorized : JsError := jsError "unauthorized"

/-- `try { if (this.reminderQueue) await this.reminderQueue.cancelForBooking(id); } catch {}`. -/
def cancelReminderJobs (bookingId : Option BookingId) (spelling : Spelling) (queue : Bool) :
    Program Unit :=
  tryCatch (if queue then cancelForBooking bookingId spelling else pure ()) fun _ => pure ()

/-- One change of a booking by its owner, on a client of its own; `check` refuses a booking
    that is the owner's. -/
def updateAsOwner (id : BookingId) (sessionClientId : Option ClientId)
    (check : Booking → Option Reply) (status : String) (afterCommit : Program Unit) :
    Program Reply :=
  match sessionClientId with
  | none => throw unauthorized
  | some sessionClientId => do
    perform (.connect .client)
    tryFinally
      (tryCatch
        (do
          send .beginTx
          match ← dbQuery (.selectBookingForUpdate id) with
          | none =>
            send .rollback
            pure (.refused 404 "not_found")
          | some b =>
            if b.clientId ≠ sessionClientId then do
              send .rollback
              pure (.refused 403 "unauthorized")
            else
              match check b with
              | some refusal =>
                send .rollback
                pure refusal
              | none =>
                dbQuery (.setBookingStatus id status)
                send .commit
                afterCommit
                pure (.updated id status (b.version + 1)))
        fun e => do
          rollbackQuietly
          throw e)
      (perform (.release .client))

/-- `b.status !== 'booked'`. -/
def checkBooked (b : Booking) : Option Reply :=
  if b.status ≠ .booked then some (.refused 409 "invalid_transition") else none

/-- `POST :id/confirm`. -/
def confirmBooking (id : BookingId) (sessionClientId : Option ClientId) : Program Reply :=
  updateAsOwner id sessionClientId checkBooked "completed" (pure ())

/-- `POST :id/decline`. -/
def declineBooking (id : BookingId) (sessionClientId : Option ClientId) (queue : Bool)
    (spelling : Spelling) : Program Reply :=
  updateAsOwner id sessionClientId checkBooked "cancelled"
    (cancelReminderJobs (some id) spelling queue)

/-- The `allowed` statuses of `PATCH :id/status`. -/
def allowedStatuses : List String := ["confirmed", "declined", "completed", "cancelled", "booked"]

/-- `PATCH :id/status` refuses a text, whatever the booking is. -/
def checkStatus (status : String) : Booking → Option Reply :=
  fun _ => if !allowedStatuses.contains status then some (.refused 422 "invalid_status") else none

/-- `PATCH :id/status`; what is not a text is none of `allowed` either. -/
def updateStatus (id : BookingId) (status : String) (sessionClientId : Option ClientId)
    (queue : Bool) (spelling : Spelling) : Program Reply :=
  updateAsOwner id sessionClientId (checkStatus status) status
    (if status = "cancelled" then cancelReminderJobs (some id) spelling queue else pure ())

/-- `parseInt(ifMatch || '1', 10)`. -/
def parseIfMatch (ifMatch : Option String) : Option Int := parseInt ((truthy ifMatch).getD "1")

/-- What `cancelBooking` asks `evaluateCancellation` about a booking it has read. -/
def cancelRequest (b : Booking) (ifMatch : Option String) (slotRes : Option Slot)
    (providerRes : Option Nat) (nowUtc : Instant) : CancelResult :=
  let req : CancelRequest :=
    { ifMatch := parseIfMatch ifMatch
      nowUtc := nowUtc
      cancellationWindowHours := .rat (providerRes.getD 24)
      slotStartUtc := (slotRes.map Slot.slotStartUtc).getD nowUtc }
  evaluateCancellation req b.status b.version

/-- The answer to a cancellation that is not allowed. -/
def CancelResult.refusal (cancelRes : CancelResult) : Reply :=
  if cancelRes.error = some "version_mismatch" then .refused 412 "version_mismatch"
  else if cancelRes.error = some "window_expired" then .refused 409 "window_expired"
  else .refused 409 (cancelRes.error.getD "cancel_failed")

/-- `POST :id/cancel`.  The row it has read has no `id`, so the reminder queue is asked about
    `undefined`. -/
def cancelBooking (id : BookingId) (ifMatch : Option String) (sessionClientId : Option ClientId)
    (queue : Bool) : Program Reply :=
  match sessionClientId with
  | none => throw unauthorized
  | some sessionClientId => do
    match ← dbQuery (.selectBooking id) with
    | none => pure (.refused 404 "not_found")
    | some b =>
      if b.clientId ≠ sessionClientId then pure (.refused 403 "unauthorized")
      else if parseIfMatch ifMatch ≠ some b.version then pure (.refused 412 "version_mismatch")
      else do
        let slotRes ← dbQuery (.selectSlot b.slotId)
        let providerRes ← dbQuery (.selectCancellationWindow b.slotId)
        let nowUtc ← clockNow
        let cancelRes := cancelRequest b ifMatch slotRes providerRes nowUtc
        if !cancelRes.allowed then pure cancelRes.refusal
        else do
          send .beginTx
          dbQuery (.cancelBookingRow id)
          dbQuery (.openSlot b.slotId)
          send .commit
          cancelReminderJobs none (.other "undefined") queue
          pure .noContent

/-- The body of `POST :id/reschedule`, with the spelling of the id in its path. -/
structure RescheduleBody where
  spelling : Spelling
  newSlotId : SlotId
  idempotencyKey : Option String
  version : JsValue
  ifMatch : JsValue
  cancellationWindowHours : JsValue

/-- `body.cancellationWindowHours ?? 24`. -/
def RescheduleBody.windowHours (body : RescheduleBody) : JsValue :=
  match body.cancellationWindowHours with
  | .undefined => .number (.rat 24)
  | .null => .number (.rat 24)
  | value => value

def RescheduleBody.request (body : RescheduleBody) (id : BookingId) : RescheduleRequest where
  bookingId := id
  spelling := body.spelling
  newSlotId := body.newSlotId
  idempotencyKey := body.idempotencyKey
  version := body.version
  ifMatch := body.ifMatch
  cancellationWindowHours := body.windowHours

/-- `POST :id/reschedule`. -/
def rescheduleEndpoint (fromColumn : Instant → Except JsError Instant) (id : BookingId)
    (body : RescheduleBody) (sessionClientId : Option ClientId) (queue : Bool) : Program Reply :=
  match sessionClientId with
  | none => throw unauthorized
  | some sessionClientId => do
    match ← dbQuery (.selectBooking id) with
    | none => pure (.refused 404 "not_found")
    | some b =>
      if b.clientId ≠ sessionClientId then pure (.refused 403 "unauthorized")
      else do
        let nowUtc ← clockNow
        rescheduleBooking fromColumn (body.request id) (some nowUtc) queue

/-! ### The transactions keep the discipline -/

section Ok

variable {cat : Catalog} {adm : Stmt → Database → Prop}

theorem ok_cancelReminderJobs (b : Option BookingId) (spelling : Spelling) (queue : Bool) :
    (cancelReminderJobs b spelling queue).OkTo (chronos cat) value adm Mode.Outside .free := by
  refine OkTo.outside_tryCatch ?_ fun _ => okTo_ret.mpr rfl
  cases queue with
  | false => exact okTo_ret.mpr rfl
  | true => exact ok_cancelForBooking b spelling

theorem ok_updateAsOwner (hadm : LocalTo cat adm) {id : BookingId} {session : Option ClientId}
    {check : Booking → Option Reply} {status : String} {afterCommit : Program Unit}
    (hafter : afterCommit.OkTo (chronos cat) value adm Mode.Outside .free) :
    (updateAsOwner id session check status afterCommit).Ok (chronos cat) value adm .free := by
  unfold updateAsOwner
  split
  · exact okTo_throw.mpr trivial
  · refine OkTo.outside_bind (ok_perform (fun _ => rfl) fun _ => rfl) (fun _ => ?_) fun _ => trivial
    refine ok_finallyRelease (OkTo.caught .error ⟨?_, fun _ => okTo_throw.mpr trivial⟩)
    have hgiveUp : ∀ r : Reply, (Prog.control .rollback (ret r) Prog.throw : Program Reply).OkTo
        (chronos cat) value adm Mode.Caught .doomed :=
      fun r => ⟨okTo_ret.mpr trivial, fun _ => okTo_throw.mpr trivial⟩
    refine ⟨fun o d r ws hx => ?_, fun _ => okTo_throw.mpr trivial⟩
    change (exec cat (.selectBookingForUpdate id) o d).result = _ at hx
    obtain ⟨rfl, rfl⟩ := selectBookingForUpdate_ok hx
    cases hrow : d.bookings.lookup id with
    | none => exact Or.inr ⟨trivial, hgiveUp _⟩
    | some b =>
      simp only [andThen]
      split
      · exact Or.inr ⟨trivial, hgiveUp _⟩
      · split
        · exact Or.inr ⟨trivial, hgiveUp _⟩
        · refine Or.inl ⟨pinned_selectBookingForUpdate hadm hrow, ?_⟩
          refine OkTo.pinned (fun _ _ => pinned_setBookingStatus hadm) (fun _ _ _ => ?_)
            fun _ => okTo_throw.mpr trivial
          refine ⟨?_, fun _ => okTo_throw.mpr trivial⟩
          exact hafter.outside_bind (fun _ => okTo_ret.mpr trivial) fun _ => trivial

theorem ok_confirmBooking (hadm : LocalTo cat adm) (id : BookingId) (session : Option ClientId) :
    (confirmBooking id session).Ok (chronos cat) value adm .free :=
  ok_updateAsOwner hadm (okTo_ret.mpr rfl)

theorem ok_declineBooking (hadm : LocalTo cat adm) (id : BookingId) (session : Option ClientId)
    (queue : Bool) (spelling : Spelling) :
    (declineBooking id session queue spelling).Ok (chronos cat) value adm .free :=
  ok_updateAsOwner hadm (ok_cancelReminderJobs _ spelling queue)

/-- `POST :id/cancel` keeps the discipline: what it read before its `BEGIN` is a matter of
    `evaluateCancellation`, not of its transaction. -/
theorem ok_cancelBooking (hadm : LocalTo cat adm) (id : BookingId) (ifMatch : Option String)
    (session : Option ClientId) (queue : Bool) :
    (cancelBooking id ifMatch session queue).Ok (chronos cat) value adm .free := by
  unfold cancelBooking
  split
  · exact okTo_throw.mpr trivial
  · refine ⟨fun b => ?_, fun _ => okTo_throw.mpr trivial⟩
    simp only [andThen]
    split
    · exact okTo_ret.mpr trivial
    · split
      · exact okTo_ret.mpr trivial
      · split
        · exact okTo_ret.mpr trivial
        · refine ⟨fun slotRes => ⟨fun providerRes => fun nowUtc => ?_,
            fun _ => okTo_throw.mpr trivial⟩, fun _ => okTo_throw.mpr trivial⟩
          simp only [andThen]
          split
          · exact okTo_ret.mpr trivial
          · refine ⟨?_, fun _ => okTo_throw.mpr trivial⟩
            refine OkTo.pinned (fun _ _ => pinned_cancelBookingRow hadm) (fun _ _ _ => ?_)
              fun _ => okTo_throw.mpr trivial
            refine OkTo.pinned (fun _ _ => pinned_openSlot hadm) (fun _ _ _ => ?_)
              fun _ => okTo_throw.mpr trivial
            refine ⟨?_, fun _ => okTo_throw.mpr trivial⟩
            exact (ok_cancelReminderJobs none _ queue).outside_bind (fun _ => okTo_ret.mpr trivial)
              fun _ => trivial

end Ok

/-! ### What the endpoints can do to the database -/

/-- What a committed `updateAsOwner` has found and written. -/
structure OwnerUpdate (id : BookingId) (sessionClientId : Option ClientId)
    (check : Booking → Option Reply) (text : String) (d : Database) (row : Booking)
    (status : BookingStatus) (ws : List Write) : Prop where
  booking : d.bookings.lookup id = some row
  owner : sessionClientId = some row.clientId
  checked : check row = none
  stored : BookingStatus.ofText? text = some status
  index : row.live = false → status ≠ .cancelled → d.otherLive row.slotId (some id) = false
  writes : ws = statusWrites d id row status (row.version + 1) false

/-- How `updateAsOwner` ends: nothing committed and no `200`, or the change committed. -/
def UpdateEnds {γ : Type} (g₀ : γ) (Won : γ → Prop) : γ → Except JsError Reply → Prop :=
  fun g r => (g = g₀ ∧ ∀ reply, r = .ok reply → reply.status ≠ 200) ∨ Won g

/-- The writes of `cancelBooking` on a booking it has read on slot `slotId`. -/
def cancelWrites (d : Database) (id : BookingId) (slotId : SlotId) : List Write :=
  (match d.bookings.lookup id with
    | none => []
    | some row => [.booking id { row with status := .cancelled }]) ++ openSlotWrites d slotId

section CancelWrites

variable {cat : Catalog} {d : Database} {id : BookingId} {slotId : SlotId}

/-- What the two statements of the transaction write. -/
theorem cancelWrites_of_ok (fresh : Nat) {o : Nat} {u u' : Unit} {ws₁ ws₂ : List Write}
    (hrow : (exec cat (.cancelBookingRow id) fresh d).result = .ok (u, ws₁))
    (hslot : (exec cat (.openSlot slotId) o ((chronos cat).apply ([] ++ ws₁) d)).result = .ok (u', ws₂)) :
    [] ++ ws₁ ++ ws₂ = cancelWrites d id slotId := by
  have hws₂ := openSlot_ok hslot
  unfold cancelWrites
  rcases cancelBookingRow_ok hrow with ⟨rfl, hnone⟩ | ⟨row, hfound, rfl⟩
  · rw [hnone, hws₂]
    rfl
  · rw [hfound, hws₂]
    rfl

theorem lookup_booking_cancelWrites (i : BookingId) :
    ((chronos cat).apply (cancelWrites d id slotId) d).bookings.lookup i =
      if i = id then (d.bookings.lookup id).map fun b => { b with status := .cancelled }
      else d.bookings.lookup i := by
  unfold cancelWrites
  cases h : d.bookings.lookup id with
  | none =>
    rw [List.nil_append, bookings_openSlotWrites]
    split
    · next hi => rw [hi, h]; rfl
    · rfl
  | some b =>
    rw [List.singleton_append, Engine.apply_cons, bookings_openSlotWrites]
    exact lookup_booking_write _ _ _

theorem lookup_slot_cancelWrites (s : SlotId) :
    ((chronos cat).apply (cancelWrites d id slotId) d).slots.lookup s =
      if s = slotId then (d.slots.lookup slotId).map fun row => { row with status := .«open» }
      else d.slots.lookup s := by
  unfold cancelWrites
  cases d.bookings.lookup id with
  | none => exact lookup_slot_openSlotWrites rfl s slotId
  | some b =>
    rw [List.singleton_append, Engine.apply_cons]
    exact lookup_slot_openSlotWrites rfl s slotId

theorem idempotencyKeys_cancelWrites :
    ((chronos cat).apply (cancelWrites d id slotId) d).idempotencyKeys = d.idempotencyKeys := by
  unfold cancelWrites
  cases d.bookings.lookup id with
  | none => exact idempotencyKeys_openSlotWrites _ _ _
  | some b =>
    rw [List.singleton_append, Engine.apply_cons, idempotencyKeys_openSlotWrites]
    rfl

theorem liveOn_cancelWrites (s : SlotId) (i : BookingId) :
    ((chronos cat).apply (cancelWrites d id slotId) d).LiveOn s i ↔ i ≠ id ∧ d.LiveOn s i := by
  simp only [Database.LiveOn, lookup_booking_cancelWrites]
  by_cases hi : i = id
  · subst hi
    simp [Booking.live]
  · simp [hi]

end CancelWrites

/-- How `cancelBooking` ends: nothing committed and no `204`, or the cancellation committed. -/
def CancelEnds {γ : Type} (g₀ : γ) (Armed : Booking → γ → Prop) (Won : γ → Prop) :
    γ → Except JsError Reply → Prop :=
  fun g r => ((g = g₀ ∨ ∃ b, Armed b g) ∧ ∀ reply, r = .ok reply → reply.status ≠ 204) ∨ Won g

/-- `cancelBooking` has read booking `b`, which is its client's and has the version it was
    asked about. -/
structure CancelRead (id : BookingId) (ifMatch : Option String)
    (sessionClientId : Option ClientId) (d : Database) (b : Booking) : Prop where
  booking : d.bookings.lookup id = some b
  owner : sessionClientId = some b.clientId
  version : parseIfMatch ifMatch = some b.version

section Keeps

variable {cat : Catalog} {γ : Type}
variable {c : Contract Ask.Answer Stmt Database Write Nat JsError γ} {g₀ : γ}
variable {id : BookingId} {session : Option ClientId} {queue : Bool} {spelling : Spelling}

theorem keeps_cancelReminderJobs {φ : γ → Prop} {g : γ} (bookingId : Option BookingId)
    (hb : ∀ b, bookingId = some b → b = id)
    (hpost : ∀ g d ws, φ g → c.know g d → (∀ w ∈ ws, w.Settles id) → c.Next g d ws φ)
    (hg : φ g) :
    (cancelReminderJobs bookingId spelling queue).Keeps (chronos cat) c (Safely φ) .free g := by
  refine keeps_safely ?_
  cases queue with
  | false => exact keeps_ret.mpr ⟨rfl, hg, fun _ => ⟨(), rfl⟩⟩
  | true => exact keeps_cancelForBooking hpost bookingId spelling hb hg

variable {Won Ended : γ → Prop}

theorem releasable_updateEnds (hstay : ∀ d, c.know g₀ d → c.move g₀ d [] g₀)
    (hrest : StaysAt c Ended) : Releasable c (UpdateEnds g₀ Ended) where
  stays := by
    rintro g d r (⟨rfl, hr⟩ | hend) hk
    · exact ⟨g, hstay d hk, Or.inl ⟨rfl, hr⟩⟩
    · exact (hrest g d hend hk).mono fun _ => Or.inr
  throws := by
    rintro g r e (⟨rfl, -⟩ | hwon)
    · exact Or.inl ⟨rfl, fun reply h => by cases h⟩
    · exact Or.inr hwon

/-- **Everything a change by the owner can do.**  It commits one change of the booking's status
    and goes on with `afterCommit`, or it commits nothing. -/
theorem keeps_updateAsOwner {check : Booking → Option Reply} {text : String}
    {afterCommit : Program Unit} (hcheck : ∀ b r, check b = some r → r.status ≠ 200)
    (hstay : ∀ d, c.know g₀ d → c.move g₀ d [] g₀) (hsend : ∀ g d ws s, c.send g d ws s)
    (hcommit : ∀ d row status ws, c.know g₀ d →
      OwnerUpdate id session check text d row status ws → c.Next g₀ d ws Won)
    (hrest : StaysAt c Ended)
    (hafter : ∀ g, Won g → afterCommit.Keeps (chronos cat) c (Safely Ended) .free g) :
    (updateAsOwner id session check text afterCommit).Keeps (chronos cat) c
      (c.post (UpdateEnds g₀ Ended)) .free g₀ := by
  have hnothing : ∀ r : Except JsError Reply, (∀ reply, r = .ok reply → reply.status ≠ 200) →
      UpdateEnds g₀ Ended g₀ r := fun r hr => Or.inl ⟨rfl, hr⟩
  have hthrow : ∀ e : JsError, UpdateEnds g₀ Ended g₀ (.error e) :=
    fun e => hnothing _ fun reply h => by cases h
  unfold updateAsOwner
  cases session with
  | none => exact keeps_throw.mpr (hthrow _)
  | some client =>
    refine fun d env _ hk => ⟨g₀, hstay d hk, ?_⟩
    cases env.answer (.effect (.connect .client)) with
    | error e => exact keeps_throw.mpr (hthrow e)
    | ok u =>
    refine keeps_finallyRelease (releasable_updateEnds hstay hrest) ?_
    -- What the `catch` block may find.
    refine Keeps.tryCatch (fun st g r => match r with
      | .ok r => st = .free ∧ UpdateEnds g₀ Ended g (.ok r)
      | .error _ => g = g₀ ∧ Catchable c g₀ st) ?_ ?_ ?_
    · refine ⟨fun d hk => ?_, fun d env e _ hk _ => ⟨g₀, hstay d hk, rfl, Or.inl rfl⟩⟩
      have hgiveUp := hstay d hk
      have hrefuse : ∀ {r : Reply}, r.status ≠ 200 → (Prog.control .rollback (ret r) Prog.throw :
          Program Reply).Keeps (chronos cat) c (fun st g r => match r with
            | .ok r => st = .free ∧ UpdateEnds g₀ Ended g (.ok r)
            | .error _ => g = g₀ ∧ Catchable c g₀ st) (.inside d []) g₀ := by
        intro r hr
        refine keeps_rollback hstay hgiveUp (keeps_ret.mpr ⟨rfl, hnothing _ ?_⟩)
          fun e => keeps_throw.mpr ⟨rfl, Or.inr (Or.inl rfl)⟩
        rintro reply h
        exact Except.ok.inj h ▸ hr
      refine keeps_inside (hsend _ _ _ _) hgiveUp (fun o b ws₁ hx => ?_)
        fun e => keeps_throw.mpr ⟨rfl, Or.inr (Or.inl rfl)⟩
      obtain ⟨rfl, rfl⟩ := selectBookingForUpdate_ok hx
      simp only [andThen]
      split
      · exact hrefuse (by decide)
      · next row hrow =>
        split
        · exact hrefuse (by decide)
        · next howner =>
          split
          · next refusal hrefusal => exact hrefuse (hcheck _ _ hrefusal)
          · next hchecked =>
            refine keeps_inside (hsend _ _ _ _) hgiveUp (fun o u ws₂ hx => ?_)
              fun e => keeps_throw.mpr ⟨rfl, Or.inr (Or.inl rfl)⟩
            rcases setBookingStatus_ok hx with ⟨-, hnone⟩ | ⟨row', status, hrow', hstored, rfl, hindex⟩
            · exact absurd (hnone.symm.trans hrow) (by simp)
            obtain rfl : row = row' := Option.some.inj (hrow.symm.trans hrow')
            have hupdate : OwnerUpdate id (some client) check text d row status
                (statusWrites d id row status (row.version + 1) false) :=
              ⟨hrow, by rw [not_not.mp howner], hchecked, hstored, hindex, rfl⟩
            refine ⟨(hcommit d row status _ hk hupdate).mono fun g' hwon => ?_,
              fun env e _ _ => ⟨_, hgiveUp, rfl, Or.inl rfl⟩⟩
            refine (hafter g' hwon).bind ?_ ?_
            · rintro st g u ⟨rfl, hend, -⟩
              exact keeps_ret.mpr ⟨rfl, Or.inr hend⟩
            · rintro st g e ⟨-, -, a, ha⟩
              cases ha
    · rintro st g r ⟨rfl, h⟩
      exact h
    · rintro st g e ⟨rfl, hst⟩
      exact keeps_catch (r := .error e) hst (staysAt_eq hstay) rfl fun g' hg' => hg' ▸ hthrow e

theorem checkBooked_none {b : Booking} (h : checkBooked b = none) : b.status = .booked := by
  unfold checkBooked at h
  split at h
  · cases h
  · next hb => exact not_not.mp hb

theorem checkBooked_some (b : Booking) (r : Reply) (h : checkBooked b = some r) :
    r.status ≠ 200 := by
  unfold checkBooked at h
  split at h
  · rw [← Option.some.inj h]
    decide
  · cases h

theorem checkStatus_some {text : String} (b : Booking) (r : Reply)
    (h : checkStatus text b = some r) : r.status ≠ 200 := by
  unfold checkStatus at h
  split at h
  · rw [← Option.some.inj h]
    decide
  · cases h

theorem keeps_confirmBooking (hstay : ∀ d, c.know g₀ d → c.move g₀ d [] g₀)
    (hsend : ∀ g d ws s, c.send g d ws s)
    (hcommit : ∀ d row status ws, c.know g₀ d →
      OwnerUpdate id session checkBooked "completed" d row status ws → c.Next g₀ d ws Won)
    (hpost : ∀ g d, Won g → c.know g d → c.Next g d [] Won) :
    (confirmBooking id session).Keeps (chronos cat) c (c.post (UpdateEnds g₀ Won)) .free g₀ :=
  keeps_updateAsOwner checkBooked_some hstay hsend hcommit hpost
    fun _ hg => keeps_ret.mpr ⟨rfl, hg, (), rfl⟩

theorem keeps_declineBooking (hstay : ∀ d, c.know g₀ d → c.move g₀ d [] g₀)
    (hsend : ∀ g d ws s, c.send g d ws s)
    (hcommit : ∀ d row status ws, c.know g₀ d →
      OwnerUpdate id session checkBooked "cancelled" d row status ws → c.Next g₀ d ws Won)
    (hpost : ∀ g d ws, Won g → c.know g d → (∀ w ∈ ws, w.OnReminders id) → c.Next g d ws Won) :
    (declineBooking id session queue spelling).Keeps (chronos cat) c (c.post (UpdateEnds g₀ Won))
      .free g₀ :=
  keeps_updateAsOwner checkBooked_some hstay hsend hcommit
    (fun g d hg hk => hpost g d [] hg hk (by simp))
    fun _ hg => keeps_cancelReminderJobs (some id) (fun b h => (Option.some.inj h).symm)
      (fun g d ws hg hk hws => hpost g d ws hg hk fun w hw => (hws w hw).onReminders) hg

theorem keeps_updateStatus {status : String} (hstay : ∀ d, c.know g₀ d → c.move g₀ d [] g₀)
    (hsend : ∀ g d ws s, c.send g d ws s)
    (hcommit : ∀ d row status' ws, c.know g₀ d →
      OwnerUpdate id session (checkStatus status) status d row status' ws → c.Next g₀ d ws Won)
    (hpost : ∀ g d ws, Won g → c.know g d → (∀ w ∈ ws, w.OnReminders id) → c.Next g d ws Won) :
    (updateStatus id status session queue spelling).Keeps (chronos cat) c
      (c.post (UpdateEnds g₀ Won)) .free g₀ := by
  refine keeps_updateAsOwner checkStatus_some hstay hsend hcommit
    (fun g d hg hk => hpost g d [] hg hk (by simp)) fun g hg => ?_
  split
  · exact keeps_cancelReminderJobs (some id) (fun b h => (Option.some.inj h).symm)
      (fun g d ws hg hk hws => hpost g d ws hg hk fun w hw => (hws w hw).onReminders) hg
  · exact keeps_ret.mpr ⟨rfl, hg, (), rfl⟩

/-- A refused cancellation is not a `204`. -/
theorem cancelRefusal_status (cancelRes : CancelResult) : cancelRes.refusal.status ≠ 204 := by
  unfold CancelResult.refusal
  split
  · decide
  · split
    · decide
    · simp [Reply.refused]

/-- A state that is known at some ghost with `φ`. -/
def SeenAt (c : Contract Ask.Answer Stmt Database Write Nat JsError γ) (φ : γ → Prop)
    (d : Database) : Prop := ∃ g, φ g ∧ c.know g d

/-- `evaluateCancellation` has allowed to cancel booking `b`, on a slot, a window and a time
    each read after the booking. -/
def CancelAllowed (cat : Catalog) (c : Contract Ask.Answer Stmt Database Write Nat JsError γ)
    (ifMatch : Option String) (b : Booking) (φ : γ → Prop) : Prop :=
  ∃ d₂ d₃ g d env, SeenAt c φ d₂ ∧ SeenAt c φ d₃ ∧ φ g ∧ c.env g d env ∧
    (cancelRequest b ifMatch (d₂.slots.lookup b.slotId)
      ((d₃.slots.lookup b.slotId).bind fun row =>
        (cat.providers row.providerId).map Provider.cancellationWindowHours)
      (env.answer .now)).allowed = true

/-- **Everything `cancelBooking` can do.**  It reads the booking (`harm`), and it may later
    commit a cancellation, of whatever the booking is by then. -/
theorem keeps_cancelBooking_after {ifMatch : Option String} {Armed : Booking → γ → Prop}
    (hstay : ∀ d, c.know g₀ d → c.move g₀ d [] g₀)
    (harm : ∀ d b, c.know g₀ d → CancelRead id ifMatch session d b → c.Next g₀ d [] (Armed b))
    (harmed : ∀ b g d, Armed b g → c.know g d → c.move g d [] g)
    (hsend : ∀ g d ws s, (∀ s', s ≠ .openSlot s') → c.send g d ws s)
    (hopen : ∀ b g d ws, Armed b g → c.know g d → c.adm (.cancelBookingRow id) d →
      c.send g d ws (.openSlot b.slotId))
    (hcommit : ∀ b g d, Armed b g → c.know g d → c.adm (.cancelBookingRow id) d →
      CancelAllowed cat c ifMatch b (Armed b) → c.Next g d (cancelWrites d id b.slotId) Won)
    (hafter : ∀ g, Won g →
      (cancelReminderJobs none (.other "undefined") queue).Keeps (chronos cat) c (Safely Ended) .free
        g) :
    (cancelBooking id ifMatch session queue).Keeps (chronos cat) c
      (c.post (CancelEnds g₀ Armed Ended)) .free g₀ := by
  have hnothing : ∀ r : Reply, r.status ≠ 204 → CancelEnds g₀ Armed Ended g₀ (.ok r) :=
    fun r hr => Or.inl ⟨Or.inl rfl, fun reply h => Except.ok.inj h ▸ hr⟩
  have hthrow : ∀ e : JsError, CancelEnds g₀ Armed Ended g₀ (.error e) :=
    fun e => Or.inl ⟨Or.inl rfl, fun reply h => by cases h⟩
  have hthrow' : ∀ b g (e : JsError), Armed b g → CancelEnds g₀ Armed Ended g (.error e) :=
    fun b g e hg => Or.inl ⟨Or.inr ⟨b, hg⟩, fun reply h => by cases h⟩
  unfold cancelBooking
  cases session with
  | none => exact keeps_throw.mpr (hthrow _)
  | some client =>
    -- The read that decides what the transaction will do.
    intro d env he hk
    refine ⟨fun e hf => ⟨g₀, hstay d hk, keeps_throw.mpr (hthrow e)⟩,
      fun hf => ⟨fun r ws hx => ?_, fun e hx => by cases hx⟩⟩
    obtain ⟨rfl, rfl⟩ := read_ok hx
    simp only [andThen]
    split
    · exact ⟨g₀, hstay d hk, keeps_ret.mpr (hnothing _ (by decide))⟩
    · next b hb =>
      split
      · exact ⟨g₀, hstay d hk, keeps_ret.mpr (hnothing _ (by decide))⟩
      · next howner =>
        split
        · exact ⟨g₀, hstay d hk, keeps_ret.mpr (hnothing _ (by decide))⟩
        · next hversion =>
          refine (harm d b hk ⟨hb, by rw [not_not.mp howner], not_not.mp hversion⟩).mono fun g hg => ?_
          refine keeps_read (fun _ _ => rfl) (fun d => harmed b g d hg) (fun d₂ _ _ hd₂ => ?_)
            fun _ _ e _ _ => keeps_throw.mpr (hthrow' b g e hg)
          refine keeps_read (fun _ _ => rfl) (fun d => harmed b g d hg) (fun d₃ _ _ hd₃ => ?_)
            fun _ _ e _ _ => keeps_throw.mpr (hthrow' b g e hg)
          intro d env he hk
          refine ⟨g, harmed b g d hg hk, ?_⟩
          simp only [andThen]
          split
          · refine keeps_ret.mpr (Or.inl ⟨Or.inr ⟨b, hg⟩, fun reply h => ?_⟩)
            exact Except.ok.inj h ▸ cancelRefusal_status _
          · next hallowed =>
            have hseen : CancelAllowed cat c ifMatch b (Armed b) :=
              ⟨d₂, d₃, g, d, env, ⟨g, hg, hd₂⟩, ⟨g, hg, hd₃⟩, hg, he, by simpa using hallowed⟩
            have hfail : ∀ e, (Prog.throw e : Program Reply).Keeps (chronos cat) c
                (c.post (CancelEnds g₀ Armed Ended)) .doomed g :=
              fun e => keeps_throw.mpr (hthrow' b g e hg)
            refine ⟨fun d hk => ?_, fun d env e _ hk _ =>
              ⟨g, harmed b g d hg hk, keeps_throw.mpr (hthrow' b g e hg)⟩⟩
            have hgiveUp := harmed b g d hg hk
            refine ⟨hsend _ _ _ _ (by simp), fun hadm fresh u ws₁ hx => ?_,
              fun env e _ _ => ⟨g, hgiveUp, hfail e⟩⟩
            refine keeps_inside (hopen b g d _ hg hk hadm) hgiveUp (fun o u ws₂ hx₂ => ?_) hfail
            have hws : ([] ++ ws₁) ++ ws₂ = cancelWrites d id b.slotId :=
              cancelWrites_of_ok fresh hx hx₂
            rw [hws]
            refine ⟨(hcommit b g d hg hk hadm hseen).mono fun g' hwon => ?_,
              fun env e _ _ => ⟨g, hgiveUp, keeps_throw.mpr (hthrow' b g e hg)⟩⟩
            refine (hafter g' hwon).bind ?_ ?_
            · rintro st g u ⟨rfl, hend, -⟩
              exact keeps_ret.mpr (Or.inr hend)
            · rintro st g e ⟨-, -, a, ha⟩
              cases ha

/-- What `cancelBooking` does after its commit is at most to write reminder rows. -/
theorem keeps_cancelBooking {ifMatch : Option String} {Armed : Booking → γ → Prop}
    (hstay : ∀ d, c.know g₀ d → c.move g₀ d [] g₀)
    (harm : ∀ d b, c.know g₀ d → CancelRead id ifMatch session d b → c.Next g₀ d [] (Armed b))
    (harmed : ∀ b g d, Armed b g → c.know g d → c.move g d [] g)
    (hsend : ∀ g d ws s, (∀ s', s ≠ .openSlot s') → c.send g d ws s)
    (hopen : ∀ b g d ws, Armed b g → c.know g d → c.adm (.cancelBookingRow id) d →
      c.send g d ws (.openSlot b.slotId))
    (hcommit : ∀ b g d, Armed b g → c.know g d → c.adm (.cancelBookingRow id) d →
      CancelAllowed cat c ifMatch b (Armed b) → c.Next g d (cancelWrites d id b.slotId) Won)
    (hpost : ∀ g d ws, Won g → c.know g d → (∀ w ∈ ws, w.OnReminders id) → c.Next g d ws Won) :
    (cancelBooking id ifMatch session queue).Keeps (chronos cat) c
      (c.post (CancelEnds g₀ Armed Won)) .free g₀ :=
  keeps_cancelBooking_after hstay harm harmed hsend hopen hcommit
    fun _ hwon => keeps_cancelReminderJobs none (fun b h => by cases h)
      (fun g d ws hg hk hws => hpost g d ws hg hk fun w hw => (hws w hw).onReminders) hwon

/-- `POST :id/reschedule`: a request of the booking's owner, and `rescheduleBooking` at the
    time the endpoint has read. -/
theorem keeps_rescheduleEndpoint {fromColumn : Instant → Except JsError Instant}
    {body : RescheduleBody} {Won : BookingId → γ → Prop}
    (hstay : ∀ d, c.know g₀ d → c.move g₀ d [] g₀) (hsend : ∀ g d ws s, c.send g d ws s)
    (hcommit : ∀ now d₁ b d env d₂ old slot reminders newId ws, c.know g₀ d₁ →
      d₁.bookings.lookup id = some b → session = some b.clientId →
      c.env g₀ d env → env.answer .now = now → (body.request id).WindowSeen now (c.know g₀) →
      c.know g₀ d₂ →
      GuardedMove cat fromColumn (body.request id) now d₂ old slot reminders newId ws →
      c.Next g₀ d₂ ws (Won newId))
    (hpost : ∀ newId g d ws, Won newId g → c.know g d →
      ((∀ w ∈ ws, w.OnReminders id) ∨ ∀ w ∈ ws, w.OnReminders newId) →
      c.Next g d ws (Won newId)) :
    (rescheduleEndpoint fromColumn id body session queue).Keeps (chronos cat) c
      (c.post (RescheduleEnds g₀ Won)) .free g₀ := by
  have hthrow : ∀ e, RescheduleEnds g₀ Won g₀ (.error e) :=
    fun e => Or.inl ⟨rfl, fun id h => by cases h⟩
  unfold rescheduleEndpoint
  cases session with
  | none => exact keeps_throw.mpr (hthrow _)
  | some client =>
    refine keeps_read (fun _ _ => rfl) hstay (fun d₁ _ _ hd₁ => ?_)
      fun _ _ e _ _ => keeps_throw.mpr (hthrow e)
    simp only [andThen]
    split
    · exact keeps_ret.mpr (Or.inl ⟨rfl, notCreated_refused _ _⟩)
    · next b hb =>
      split
      · exact keeps_ret.mpr (Or.inl ⟨rfl, notCreated_refused _ _⟩)
      · next howner =>
        refine fun d env he hk => ⟨g₀, hstay d hk, ?_⟩
        have howned : some client = some b.clientId := by rw [not_not.mp howner]
        exact keeps_rescheduleBooking hstay hsend
          (fun now d₂ old slot reminders newId ws hnow => hcommit now d₁ b d env d₂ old slot reminders
            newId ws hd₁ hb howned he (hnow.1 _ rfl).symm) hpost

end Keeps

end Chronos
