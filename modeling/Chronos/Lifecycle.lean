import Chronos.Rules
import Mathlib.Tactic.Linarith

namespace Chronos

open ReadCommitted ReadCommitted.Prog

/-!
# The booking lifecycle

The pure checks of `bookings/lifecycle.service.ts`, and `LifecycleService` of
`lifecycle/lifecycle.service.ts`, which changes a booking through Prisma.

The rule which status may follow which is written twice in the source, with different
answers about `no_show`; both are kept (`validTransitions`, `allowedTransitions`).

`keeps_transition` and `keeps_cancel` say everything the two methods of the service can do:
commit one `StatusChange`, or nothing.
-/

/-! ### The pure checks -/

/-- `VALID_TRANSITIONS`. -/
def validTransitions : BookingStatus → List BookingStatus
  | .booked => [.completed, .cancelled]
  | .completed => []
  | .cancelled => []
  | .noShow => []

def isValidTransition (source target : BookingStatus) : Bool :=
  (validTransitions source).contains target

/-- What `evaluateCancellation` reads of a `CancelRequest`; `ifMatch` is `none` for `NaN`. -/
structure CancelRequest where
  ifMatch : Option Int
  nowUtc : Instant
  cancellationWindowHours : JsNumber
  slotStartUtc : Instant

structure CancelResult where
  allowed : Bool
  error : Option String
  slotReopened : Bool
  deriving DecidableEq

def evaluateCancellation (req : CancelRequest) (currentStatus : BookingStatus)
    (currentVersion : Int) : CancelResult :=
  if !isValidTransition currentStatus .cancelled then ⟨false, some "invalid_transition", false⟩
  else if req.ifMatch ≠ some currentVersion then ⟨false, some "version_mismatch", false⟩
  else if req.cancellationWindowHours.windowExpired req.slotStartUtc req.nowUtc then
    ⟨false, some "window_expired", false⟩
  else ⟨true, none, true⟩

/-- Only a `booked` booking has transitions. -/
theorem isValidTransition_booked {a b : BookingStatus} (h : isValidTransition a b = true) :
    a = .booked := by
  cases a <;> simp [isValidTransition, validTransitions] at h ⊢

/-- **What an allowed cancellation has passed**: each of the three checks. -/
theorem evaluateCancellation_allowed {req : CancelRequest} {status : BookingStatus} {v : Int} :
    (evaluateCancellation req status v).allowed = true ↔
      status = .booked ∧ req.ifMatch = some v ∧
        req.cancellationWindowHours.windowExpired req.slotStartUtc req.nowUtc = false := by
  unfold evaluateCancellation
  constructor
  · intro h
    split at h
    · cases h
    · next hvalid =>
      split at h
      · cases h
      · next hmatch =>
        split at h
        · cases h
        · next hwindow =>
          have hbooked : status = .booked := isValidTransition_booked (b := .cancelled) (by simpa using hvalid)
          exact ⟨hbooked, not_not.mp hmatch, by simpa using hwindow⟩
  · rintro ⟨rfl, hmatch, hwindow⟩
    simp [isValidTransition, validTransitions, hmatch, hwindow]

/-! ### `LifecycleService` -/

/-- The text of a status. -/
def BookingStatus.text : BookingStatus → String
  | .booked => "booked"
  | .completed => "completed"
  | .cancelled => "cancelled"
  | .noShow => "no_show"

/-- The table in `transition`. -/
def allowedTransitions : BookingStatus → List BookingStatus
  | .booked => [.completed, .cancelled, .noShow]
  | .completed => []
  | .cancelled => []
  | .noShow => []

/-- `new Error(message)`. -/
def jsError (message : String) : JsError := ⟨none, message⟩

/-- `prisma.$transaction(async (tx) => …)`: an exception rolls back and is thrown again. -/
def prismaTransaction {α : Type} (body : Program α) : Program α := do
  send .beginTx
  let a ← tryCatch body fun e => do
    rollbackQuietly
    throw e
  send .commit
  pure a

/-- `expectedVersion !== undefined && booking.version !== expectedVersion`. -/
def versionConflict (expectedVersion : JsValue) (version : Int) : Bool :=
  decide (expectedVersion ≠ .undefined) && !expectedVersion.isInt version

/-- `LifecycleService.transition`. -/
def transition (id : BookingId) (toStatus : BookingStatus) (expectedVersion : JsValue) :
    Program Booking :=
  prismaTransaction do
    match ← dbQuery (.selectBooking id) with
    | none => throw (jsError "Booking not found")
    | some booking =>
      if versionConflict expectedVersion booking.version then
        throw (jsError "Version conflict")
      else if !(allowedTransitions booking.status).contains toStatus then
        throw (jsError ("Invalid transition: " ++ booking.status.text ++ " -> " ++ toStatus.text))
      else do
        let updated ← dbQuery (.updateBooking id toStatus (booking.version + 1))
        if toStatus = .cancelled then
          dbQuery (.updateSlot booking.slotId .«open»)
        pure updated

/-- `remainingMs < windowMs`: false for `NaN`. -/
def windowViolated (providerWindowHours : JsNumber) (slotStart now : Instant) : Bool :=
  let remainingMs := slotStart - now
  match providerWindowHours with
  | .nan => false
  | .infinity negative => !negative
  | .rat q => decide ((remainingMs : ℚ) < q * 60 * 60 * 1000)

/-- The two services draw the line at the same instant. -/
theorem windowViolated_eq_windowExpired (hours : JsNumber) (start now : Instant) :
    windowViolated hours start now = hours.windowExpired start now := by
  cases hours with
  | nan => rfl
  | infinity negative => rfl
  | rat q =>
    have h : ((start - now : Int) : ℚ) < q * 60 * 60 * 1000 ↔
        (now : ℚ) > start - q * 60 * 60 * 1000 := by
      push_cast
      constructor <;> intro h <;> linarith
    simp only [windowViolated, JsNumber.windowExpired, h]

/-- `LifecycleService.cancel`; a booking without its slot is a `TypeError`. -/
def cancel (id : BookingId) (providerWindowHours : JsNumber) : Program Booking :=
  prismaTransaction do
    match ← dbQuery (.selectBooking id) with
    | none => throw (jsError "Booking not found")
    | some booking =>
      let slot ← dbQuery (.selectSlot booking.slotId)
      if booking.status ≠ .booked then
        throw (jsError "Booking not available for cancellation")
      else do
        let now ← clockNow
        match slot with
        | none => throw (jsError "Cannot read properties of null (reading 'slotStartUtc')")
        | some slot =>
          if windowViolated providerWindowHours slot.slotStartUtc now then
            throw (jsError "Cancellation window violation")
          else do
            let updated ← dbQuery (.updateBooking id .cancelled (booking.version + 1))
            dbQuery (.updateSlot booking.slotId .«open»)
            pure updated

/-! ### One booking changes its status -/

/-- A new status and version for the booking `row`, and its slot opened if `reopen`. -/
def statusWrites (d : Database) (id : BookingId) (row : Booking) (status : BookingStatus)
    (version : Int) (reopen : Bool) : List Write :=
  .booking id { row with status := status, version := version } ::
    if reopen then openSlotWrites d row.slotId else []

section Effect

variable {cat : Catalog} {d : Database} {id : BookingId} {row : Booking} {status : BookingStatus}
variable {version : Int} {reopen : Bool}

theorem lookup_booking_statusWrites (i : BookingId) :
    ((chronos cat).apply (statusWrites d id row status version reopen) d).bookings.lookup i =
      if i = id then some { row with status := status, version := version }
      else d.bookings.lookup i := by
  unfold statusWrites
  cases reopen with
  | false => exact lookup_booking_write _ _ _
  | true =>
    simp only [Engine.apply_cons, apply_chronos, if_true]
    rw [bookings_openSlotWrites, lookup_booking_write]

theorem liveOn_statusWrites (s : SlotId) (i : BookingId) :
    ((chronos cat).apply (statusWrites d id row status version reopen) d).LiveOn s i ↔
      (i = id ∧ status ≠ .cancelled ∧ row.slotId = s) ∨ (i ≠ id ∧ d.LiveOn s i) := by
  simp only [Database.LiveOn, lookup_booking_statusWrites]
  by_cases h : i = id
  · subst h; simp [Booking.live]
  · simp [h]

theorem lookup_slot_statusWrites (s : SlotId) :
    ((chronos cat).apply (statusWrites d id row status version reopen) d).slots.lookup s =
      if reopen = true ∧ s = row.slotId then
        (d.slots.lookup row.slotId).map fun slot => { slot with status := .«open» }
      else d.slots.lookup s := by
  unfold statusWrites
  cases reopen with
  | false => simp [Write.apply]
  | true =>
    simp only [Engine.apply_cons, apply_chronos, if_true, true_and]
    exact lookup_slot_openSlotWrites (slots_write _ (by simp)) s row.slotId

theorem idempotencyKeys_statusWrites :
    ((chronos cat).apply (statusWrites d id row status version reopen) d).idempotencyKeys =
      d.idempotencyKeys := by
  unfold statusWrites
  cases reopen with
  | false => rfl
  | true =>
    simp only [Engine.apply_cons, apply_chronos, if_true]
    rw [idempotencyKeys_openSlotWrites]
    rfl

end Effect

/-! ### Everything the service can do -/

section Keeps

variable {cat : Catalog} {γ : Type}
variable {c : Contract Ask.Answer Stmt Database Write Nat JsError γ} {g₀ : γ}

/-- After the `catch` block: the body's result inside the transaction, or an exception outside. -/
def AfterCatch {α : Type} (c : Contract Ask.Answer Stmt Database Write Nat JsError γ) (d : Database)
    (g₀ : γ) (T : α → List Write → Prop) : Stage Database Write → γ → Except JsError α → Prop
  | st, g, .ok a => g = g₀ ∧ ∃ ws, st = .inside d ws ∧ T a ws
  | st, g, .error e => c.post (fun g _ => g = g₀) st g (.error e : Except JsError α)

/-- An interactive transaction: it commits what its body has written, or nothing. -/
theorem keeps_prismaTransaction {α : Type} {body : Program α} {R : γ → Except JsError α → Prop}
    (T : Database → α → List Write → Prop) (hstay : ∀ d, c.know g₀ d → c.move g₀ d [] g₀)
    (hbody : ∀ d, c.know g₀ d →
      body.Keeps (chronos cat) c (Writing d [] g₀ (T d)) (.inside d []) g₀)
    (hthrow : ∀ e, R g₀ (.error e))
    (hcommit : ∀ d a ws, c.know g₀ d → T d a ws → c.Next g₀ d ws fun g => R g (.ok a)) :
    (prismaTransaction body).Keeps (chronos cat) c (c.post R) .free g₀ := by
  have hfree : ∀ e, (Prog.throw e : Program α).Keeps (chronos cat) c (c.post R) .free g₀ :=
    fun e => keeps_throw.mpr (hthrow e)
  refine ⟨fun d hk => ?_, fun d env e _ hk _ => ⟨g₀, hstay d hk, hfree e⟩⟩
  refine Keeps.bind (Q := AfterCatch c d g₀ (T d)) ?_ ?_ ?_
  · refine Keeps.tryCatch _ (hbody d hk) ?_ ?_
    · rintro st g a ⟨rfl, ws, rfl, ha⟩
      exact ⟨rfl, ws, rfl, ha⟩
    · rintro st g e ⟨rfl, hst⟩
      refine (keeps_catch (r := .error e) (R := fun g' r => g' = g ∧ ∃ e, r = .error e)
        (catchable_of_writing hk hst) (staysAt_eq hstay) rfl fun g hg => ⟨hg, e, rfl⟩).mono ?_
      intro st g r h
      cases r with
      | ok a =>
        cases st with
        | free => obtain ⟨-, e, he⟩ := h; cases he
        | inside d ws => obtain ⟨g', -, -, e, he⟩ := h; cases he
        | doomed => obtain ⟨-, e, he⟩ := h; cases he
      | error e => exact Contract.post_mono (fun g h => h.1) h
  · rintro st g a ⟨rfl, ws, rfl, ha⟩
    exact ⟨(hcommit d a ws hk ha).mono fun g' h => keeps_ret.mpr h,
      fun env e _ _ => ⟨g, hstay d hk, hfree e⟩⟩
  · intro st g e h
    exact Contract.post_mono (fun g hg => hg ▸ hthrow e) h

/-- What a committed `transition` has found and written. -/
structure Transition (id : BookingId) (toStatus : BookingStatus) (expectedVersion : JsValue)
    (d : Database) (row : Booking) (ws : List Write) : Prop where
  booking : d.bookings.lookup id = some row
  version : versionConflict expectedVersion row.version = false
  allowed : (allowedTransitions row.status).contains toStatus = true
  writes : ws = statusWrites d id row toStatus (row.version + 1) (decide (toStatus = .cancelled))

/-- `UPDATE` of the slot row inside a transaction that has written only a booking row. -/
theorem updateSlot_statusWrites {d : Database} {id : BookingId} {row new : Booking} {o : Nat}
    {r : Unit} {ws : List Write}
    (h : (exec cat (.updateSlot row.slotId .«open») o ((Write.booking id new).apply d)).result =
      .ok (r, ws)) : ws = openSlotWrites d row.slotId := by
  obtain ⟨slot, hslot, rfl⟩ := updateSlot_ok h
  have hslot' : d.slots.lookup row.slotId = some slot := hslot
  simp [openSlotWrites, hslot']

/-- An exception inside the transaction. -/
theorem keeps_throw_inside {d : Database} {made : Booking → List Write → Prop} (e : JsError)
    (ws : List Write) : (Prog.throw e : Program Booking).Keeps (chronos cat) c (Writing d [] g₀ made)
      (.inside d ws) g₀ := keeps_throw.mpr ⟨rfl, Or.inr ⟨ws, rfl⟩⟩

/-- An exception of a statement, which has aborted the transaction. -/
theorem keeps_throw_doomed {d : Database} {made : Booking → List Write → Prop} (e : JsError) :
    (Prog.throw e : Program Booking).Keeps (chronos cat) c (Writing d [] g₀ made) .doomed g₀ :=
  keeps_throw.mpr ⟨rfl, Or.inl rfl⟩

theorem keeps_transition {id : BookingId} {toStatus : BookingStatus} {expectedVersion : JsValue}
    {R : γ → Except JsError Booking → Prop} (hstay : ∀ d, c.know g₀ d → c.move g₀ d [] g₀)
    (hsend : ∀ g d ws s, c.send g d ws s) (hthrow : ∀ e, R g₀ (.error e))
    (hcommit : ∀ d row ws b, c.know g₀ d → Transition id toStatus expectedVersion d row ws →
      c.Next g₀ d ws fun g => R g (.ok b)) :
    (transition id toStatus expectedVersion).Keeps (chronos cat) c (c.post R) .free g₀ := by
  refine keeps_prismaTransaction
    (fun d _ ws => ∃ row, Transition id toStatus expectedVersion d row ws) hstay
    (fun d hk => ?_) hthrow fun d a ws hk ⟨row, h⟩ => hcommit d row ws a hk h
  have hgiveUp := hstay d hk
  refine keeps_inside (hsend _ _ _ _) hgiveUp (fun o b ws₁ hx => ?_) keeps_throw_doomed
  obtain ⟨rfl, rfl⟩ := read_ok hx
  simp only [andThen]
  split
  · exact keeps_throw_inside _ _
  · next row hrow =>
    split
    · exact keeps_throw_inside _ _
    · next hversion =>
      split
      · exact keeps_throw_inside _ _
      · next hallowed =>
        refine keeps_inside (hsend _ _ _ _) hgiveUp (fun o updated ws₂ hx => ?_) keeps_throw_doomed
        obtain ⟨row', hrow', rfl⟩ := updateBooking_ok hx
        obtain rfl : row = row' := Option.some.inj (hrow.symm.trans hrow')
        -- All checks are passed, so what is written makes a transition.
        have hmade : ∀ ws, ws = (if toStatus = .cancelled then openSlotWrites d row.slotId else []) →
            Transition id toStatus expectedVersion d row
              (.booking id { row with status := toStatus, version := row.version + 1 } :: ws) :=
          fun ws hws => ⟨hrow, by simpa using hversion, by simpa using hallowed,
            by simp [statusWrites, hws]⟩
        by_cases hcancel : toStatus = .cancelled
        · simp only [hcancel, if_true, andThen]
          refine keeps_inside (hsend _ _ _ _) hgiveUp (fun o u ws₃ hx => ?_) fun e => hcancel ▸ keeps_throw_doomed e
          have hws := updateSlot_statusWrites hx
          refine keeps_ret.mpr ⟨rfl, _, rfl, row, ?_⟩
          exact hcancel ▸ hmade ws₃ (by rw [if_pos hcancel]; exact hws)
        · simp only [hcancel, if_false, andThen]
          exact keeps_ret.mpr ⟨rfl, _, rfl, row, hmade [] (by rw [if_neg hcancel])⟩

/-- What a committed `cancel` has found, at some reading of the clock, and written. -/
structure ServiceCancel (id : BookingId) (providerWindowHours : JsNumber) (d : Database)
    (row : Booking) (ws : List Write) : Prop where
  booking : d.bookings.lookup id = some row
  booked : row.status = .booked
  window : ∃ slot now, d.slots.lookup row.slotId = some slot ∧
    windowViolated providerWindowHours slot.slotStartUtc now = false
  writes : ws = statusWrites d id row .cancelled (row.version + 1) true

theorem keeps_cancel {id : BookingId} {providerWindowHours : JsNumber}
    {R : γ → Except JsError Booking → Prop} (hstay : ∀ d, c.know g₀ d → c.move g₀ d [] g₀)
    (hsend : ∀ g d ws s, c.send g d ws s) (hthrow : ∀ e, R g₀ (.error e))
    (hcommit : ∀ d row ws b, c.know g₀ d → ServiceCancel id providerWindowHours d row ws →
      c.Next g₀ d ws fun g => R g (.ok b)) :
    (cancel id providerWindowHours).Keeps (chronos cat) c (c.post R) .free g₀ := by
  refine keeps_prismaTransaction (fun d _ ws => ∃ row, ServiceCancel id providerWindowHours d row ws)
    hstay (fun d hk => ?_) hthrow fun d a ws hk ⟨row, h⟩ => hcommit d row ws a hk h
  have hgiveUp := hstay d hk
  refine keeps_inside (hsend _ _ _ _) hgiveUp (fun o b ws₁ hx => ?_) keeps_throw_doomed
  obtain ⟨rfl, rfl⟩ := read_ok hx
  simp only [andThen]
  split
  · exact keeps_throw_inside _ _
  · next row hrow =>
    refine keeps_inside (hsend _ _ _ _) hgiveUp (fun o slot ws₂ hx => ?_) keeps_throw_doomed
    obtain ⟨rfl, rfl⟩ := read_ok hx
    simp only [andThen]
    split
    · exact keeps_throw_inside _ _
    · next hbooked =>
      refine ⟨fun _ => rfl, fun now => ?_⟩
      simp only [andThen]
      split
      · exact keeps_throw_inside _ _
      · next slot hslot =>
        split
        · exact keeps_throw_inside _ _
        · next hwindow =>
          refine keeps_inside (hsend _ _ _ _) hgiveUp (fun o updated ws₃ hx => ?_) keeps_throw_doomed
          obtain ⟨row', hrow', rfl⟩ := updateBooking_ok hx
          obtain rfl : row = row' := Option.some.inj (hrow.symm.trans hrow')
          refine keeps_inside (hsend _ _ _ _) hgiveUp (fun o u ws₄ hx => ?_) keeps_throw_doomed
          have hws := updateSlot_statusWrites hx
          exact keeps_ret.mpr ⟨rfl, _, rfl, row, hrow, not_not.mp hbooked,
            ⟨slot, now, hslot, by simpa using hwindow⟩, by simp [statusWrites, hws]⟩

end Keeps

end Chronos
