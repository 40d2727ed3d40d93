import Chronos.Clients
import Chronos.Lifecycle
import Chronos.Operations
import Chronos.ReadCommitted.OneWriter

namespace Chronos

open ReadCommitted ReadCommitted.Prog

/-!
# `LifecycleService` and the version a caller expects

`transition(id, toStatus, expectedVersion)` and `cancel(id, providerWindowHours)` read the booking
without a lock, check its version and status in JavaScript, and then update the row by its `id`
only.  Two calls may both pass the checks before one of them writes (`both_calls_resolve`).

`expected_version_honoured` is about the runs in which an `UPDATE` of the booking still finds it
`booked`: at most one call resolves, and the booking and its slot are what that call made of them.
-/

/-- A call on a booking that is expected to have some version. -/
inductive LifecycleCall
  | transition (toStatus : BookingStatus)
  | cancel (providerWindowHours : JsNumber)

/-- `transition(id, toStatus, expectedVersion)` or `cancel(id, providerWindowHours)`. -/
def LifecycleCall.program (id : BookingId) (expectedVersion : Int) : LifecycleCall → Program Booking
  | .transition toStatus => Chronos.transition id toStatus (.number (.rat expectedVersion))
  | .cancel hours => Chronos.cancel id hours

/-- The status a call asks for. -/
def LifecycleCall.target : LifecycleCall → BookingStatus
  | .transition toStatus => toStatus
  | .cancel _ => .cancelled

/-- `tx.booking.update` finds its booking `booked`. -/
def FindsBooked : Stmt → Database → Prop
  | .updateBooking id _ _, d => ∃ b, d.bookings.lookup id = some b ∧ b.status = .booked
  | _, _ => True

/-- What the calls compete for: booking `id`, which is `b` at the start. -/
def lifecycleRace {ι : Type} (d : Database) (id : BookingId) (b : Booking)
    (calls : ι → LifecycleCall) : Race Stmt Database Write Lock ι where
  start := d
  lock := .booking id
  adm := FindsBooked
  result i ws := (calls i).target ≠ .booked ∧
    ((calls i).target = .cancelled → (d.slots.lookup b.slotId).isSome) ∧
    ws = statusWrites d id b (calls i).target (b.version + 1)
      (decide ((calls i).target = .cancelled))

section LifecycleCalls

variable {cat : Catalog} {ι C : Type} {d₀ d : Database} {id : BookingId} {b₀ : Booking}
variable {calls : ι → LifecycleCall} {i : ι}

/-- Once a call has committed, the booking is not `booked` any more. -/
theorem not_booked_of_decided (h : (lifecycleRace d₀ id b₀ calls).Decided (chronos cat) d)
    {b : Booking} (hb : d.bookings.lookup id = some b) : b.status ≠ .booked := by
  obtain ⟨i, ws, ⟨htarget, -, rfl⟩, rfl⟩ := h
  rw [show (lifecycleRace d₀ id b₀ calls).start = d₀ from rfl, lookup_booking_statusWrites,
    if_pos rfl] at hb
  obtain rfl := Option.some.inj hb
  exact htarget

/-- A call that finds the booking `booked` finds the start. -/
theorem row_of_booked (hb₀ : d₀.bookings.lookup id = some b₀)
    (hseen : d = (lifecycleRace d₀ id b₀ calls).start ∨
      (lifecycleRace d₀ id b₀ calls).Decided (chronos cat) d)
    {b : Booking} (hb : d.bookings.lookup id = some b) (hbooked : b.status = .booked) :
    d = d₀ ∧ b = b₀ := by
  rcases hseen with rfl | hdecided
  · exact ⟨rfl, Option.some.inj (hb.symm.trans hb₀)⟩
  · exact absurd hbooked (not_booked_of_decided hdecided hb)

/-- The end of a transaction that gives up. -/
theorem writesLate_giveUp {st : Standing Write} (hst : st = .reading ∨ st = .failed) (e : JsError) :
    ((rollbackQuietly.bind fun _ => (Prog.throw e : Program Booking)).bind fun a =>
      (send .commit).bind fun _ => ret a).WritesLate (chronos cat) (lifecycleRace d₀ id b₀ calls) i
        st := by
  rcases hst with rfl | rfl
  · exact ⟨trivial, fun _ => trivial⟩
  · exact ⟨trivial, fun _ => trivial⟩

/-- The `UPDATE` of the booking, from what has been read, and what follows it. -/
theorem writesLate_update (hb₀ : d₀.bookings.lookup id = some b₀) {status : BookingStatus}
    {ok : Booking → Program Booking} {err : JsError → Program Booking}
    (hok : ∀ updated, (ok updated).WritesLate (chronos cat) (lifecycleRace d₀ id b₀ calls) i
      (.writing [.booking id { b₀ with status := status, version := b₀.version + 1 }]))
    (herr : ∀ e, (err e).WritesLate (chronos cat) (lifecycleRace d₀ id b₀ calls) i .failed) :
    (Prog.stmt (.updateBooking id status (b₀.version + 1)) ok err).WritesLate (chronos cat)
      (lifecycleRace d₀ id b₀ calls) i .reading := by
  refine ⟨fun o d updated ws hseen hadm hx => Or.inr ?_, herr⟩
  change (exec cat (.updateBooking id status (b₀.version + 1)) o d).result = _ at hx
  obtain ⟨b, hb, hbooked⟩ := hadm
  obtain ⟨row, hrow, rfl⟩ := updateBooking_ok hx
  obtain rfl := Option.some.inj (hb.symm.trans hrow)
  obtain ⟨rfl, rfl⟩ := row_of_booked hb₀ hseen hb hbooked
  refine ⟨fun hdecided => not_booked_of_decided hdecided hb hbooked, ?_, hok updated⟩
  show Lock.booking id ∈ (exec cat (.updateBooking id status (b.version + 1)) o d).locks
  simp [exec, hb, writeBooking]

/-- The transaction of a call that has read `b₀`, from its `UPDATE` of the booking to its end. -/
theorem writesLate_opened (htarget : (calls i).target = .cancelled) {e : JsError → Program Booking}
    (he : ∀ x, (e x).WritesLate (chronos cat) (lifecycleRace d₀ id b₀ calls) i .failed)
    (updated : Booking) :
    (Prog.stmt (.updateSlot b₀.slotId .«open») (fun _ => (send .commit).bind fun _ => ret updated)
      e).WritesLate (chronos cat) (lifecycleRace d₀ id b₀ calls) i
        (.writing [.booking id { b₀ with status := .cancelled, version := b₀.version + 1 }]) := by
  refine ⟨fun o r ws hx => ?_, he⟩
  change (exec cat (.updateSlot b₀.slotId .«open») o ((Write.booking id
    { b₀ with status := .cancelled, version := b₀.version + 1 }).apply d₀)).result = _ at hx
  obtain ⟨slot, hslot, -⟩ := updateSlot_ok hx
  have hslot₀ : d₀.slots.lookup b₀.slotId = some slot := hslot
  obtain rfl := updateSlot_statusWrites hx
  refine ⟨⟨by rw [htarget]; simp, fun _ => by rw [hslot₀]; rfl, ?_⟩, rfl, fun _ => trivial⟩
  rw [htarget]
  rfl

/-- The three transitions leave `booked`. -/
theorem booked_of_allowed {status toStatus : BookingStatus}
    (h : (allowedTransitions status).contains toStatus = true) :
    status = .booked ∧ toStatus ≠ .booked := by
  cases status with
  | booked =>
    refine ⟨rfl, ?_⟩
    rintro rfl
    exact absurd h (by decide)
  | _ => exact absurd h (by simp [allowedTransitions])

theorem writesLate_transition (hb₀ : d₀.bookings.lookup id = some b₀) {toStatus : BookingStatus}
    (hcall : calls i = .transition toStatus) :
    (transition id toStatus (.number (.rat b₀.version))).WritesLate (chronos cat)
      (lifecycleRace d₀ id b₀ calls) i .outside := by
  have htarget : (calls i).target = toStatus := by
    rw [hcall]
    rfl
  refine ⟨⟨fun o d row ws hseen _ hx => Or.inl ?_, fun e => writesLate_giveUp (Or.inr rfl) e⟩,
    fun e => trivial⟩
  obtain ⟨rfl, rfl⟩ := read_ok hx
  refine ⟨rfl, ?_⟩
  simp only [andThen]
  cases hrow : d.bookings.lookup id with
  | none => exact writesLate_giveUp (Or.inl rfl) _
  | some row =>
    simp only
    split
    · exact writesLate_giveUp (Or.inl rfl) _
    · split
      · exact writesLate_giveUp (Or.inl rfl) _
      · next hallowed =>
        -- The row is `booked`, so it is the row of the start.
        obtain ⟨hbooked, hleaves⟩ := booked_of_allowed (by simpa using hallowed)
        obtain ⟨-, rfl⟩ := row_of_booked hb₀ hseen hrow hbooked
        refine writesLate_update hb₀ (fun updated => ?_) fun e => writesLate_giveUp (Or.inr rfl) e
        simp only [andThen]
        by_cases hcancelled : toStatus = .cancelled
        · subst hcancelled
          exact writesLate_opened htarget (fun e => writesLate_giveUp (Or.inr rfl) e) updated
        · rw [if_neg hcancelled]
          refine ⟨⟨by rw [htarget]; exact hleaves, fun h => absurd (htarget ▸ h) hcancelled, ?_⟩,
            rfl, fun _ => trivial⟩
          rw [htarget, statusWrites, decide_eq_false hcancelled]
          rfl

theorem writesLate_cancel (hb₀ : d₀.bookings.lookup id = some b₀) {hours : JsNumber}
    (hcall : calls i = .cancel hours) :
    (cancel id hours).WritesLate (chronos cat) (lifecycleRace d₀ id b₀ calls) i .outside := by
  have htarget : (calls i).target = .cancelled := by
    rw [hcall]
    rfl
  refine ⟨⟨fun o d row ws hseen _ hx => Or.inl ?_, fun e => writesLate_giveUp (Or.inr rfl) e⟩,
    fun e => trivial⟩
  obtain ⟨rfl, rfl⟩ := read_ok hx
  refine ⟨rfl, ?_⟩
  simp only [andThen]
  cases hrow : d.bookings.lookup id with
  | none => exact writesLate_giveUp (Or.inl rfl) _
  | some row =>
    refine ⟨fun o d' slot ws _ _ hx => Or.inl ?_, fun e => writesLate_giveUp (Or.inr rfl) e⟩
    obtain ⟨-, rfl⟩ := read_ok hx
    refine ⟨rfl, ?_⟩
    simp only [andThen]
    split
    · exact writesLate_giveUp (Or.inl rfl) _
    · next hbooked =>
      obtain ⟨-, rfl⟩ := row_of_booked hb₀ hseen hrow (not_not.mp hbooked)
      refine ⟨fun _ => rfl, fun now => ?_⟩
      simp only [andThen]
      split
      · exact writesLate_giveUp (Or.inl rfl) _
      · split
        · exact writesLate_giveUp (Or.inl rfl) _
        · refine writesLate_update hb₀ (fun updated => ?_) fun e => writesLate_giveUp (Or.inr rfl) e
          exact writesLate_opened htarget (fun e => writesLate_giveUp (Or.inr rfl) e) updated

theorem writesLate_call (hb₀ : d₀.bookings.lookup id = some b₀) (i : ι) :
    ((calls i).program id b₀.version).WritesLate (chronos cat) (lifecycleRace d₀ id b₀ calls) i
      .outside := by
  cases hcall : calls i with
  | transition toStatus => exact writesLate_transition hb₀ hcall
  | cancel hours => exact writesLate_cancel hb₀ hcall

end LifecycleCalls

/-- Calls of `LifecycleService` at work on one database. -/
abbrev LifecycleWorld (C ι : Type) :=
  World Stmt.Rows Ask.Answer JsError Booking Database Write Lock C ι

/-- All calls at their start, on booking `id` that is expected to have some version. -/
def LifecycleWorld.start {C ι : Type} (d : Database) (id : BookingId) (expectedVersion : Int)
    (calls : ι → LifecycleCall) : LifecycleWorld C ι :=
  World.init d fun i => (calls i).program id expectedVersion

/-- The promise of call `i` has resolved. -/
def Resolves {C ι : Type} (w : LifecycleWorld C ι) (i : ι) : Prop :=
  ∃ b, (w.prog i).result = some (.ok b)

/-- **The expected version is honoured.**  In every run of exclusive steps in which an `UPDATE` of
    booking `id` finds it `booked`: at most one of all calls resolves, and then the booking has the
    next version and the status of that call, and its slot, which was not open, is open exactly
    when the call cancels. -/
theorem expected_version_honoured {cat : Catalog} {C ι : Type} [DecidableEq C] [DecidableEq ι]
    {d₀ : Database} {id : BookingId} {b₀ : Booking} {calls : ι → LifecycleCall}
    {w : LifecycleWorld C ι} (hb₀ : d₀.bookings.lookup id = some b₀)
    (hclosed : (d₀.slots.lookup b₀.slotId).map Slot.status ≠ some .«open»)
    (h : Reaches (chronos cat) (fun w l => Exclusive w l ∧
      Admits (chronos cat) (fun _ => FindsBooked) w l)
        (LifecycleWorld.start d₀ id b₀.version calls) w) :
    (∀ i j, Resolves w i → Resolves w j → i = j) ∧
      ∀ i, Resolves w i →
        w.db.bookings.lookup id =
          some { b₀ with status := (calls i).target, version := b₀.version + 1 } ∧
        ((w.db.slots.lookup b₀.slotId).map Slot.status = some .«open» ↔
          (calls i).target = .cancelled) := by
  rcases one_writer (R := lifecycleRace d₀ id b₀ calls) (writesLate_call hb₀) h with
    ⟨-, hnone⟩ | ⟨k, ws, ⟨-, hslot, rfl⟩, hdb, hone⟩
  · exact ⟨fun i _ ⟨b, hb⟩ => absurd hb (hnone i b), fun i ⟨b, hb⟩ => absurd hb (hnone i b)⟩
  · have hwinner : ∀ i, Resolves w i → i = k := fun i ⟨b, hb⟩ => hone i b hb
    refine ⟨fun i j hi hj => (hwinner i hi).trans (hwinner j hj).symm, fun i hi => ?_⟩
    obtain rfl := hwinner i hi
    have hdb' : w.db = (chronos cat).apply (statusWrites d₀ id b₀ (calls i).target (b₀.version + 1)
      (decide ((calls i).target = .cancelled))) d₀ := hdb
    rw [hdb', lookup_booking_statusWrites, if_pos rfl, lookup_slot_statusWrites]
    refine ⟨rfl, ?_⟩
    by_cases hcancelled : (calls i).target = .cancelled
    · -- The slot is there: its `UPDATE` has found it.
      obtain ⟨slot, hfound⟩ := Option.isSome_iff_exists.mp (hslot hcancelled)
      simp [hcancelled, hfound]
    · simp [hcancelled, hclosed]

/-! #### Two calls in turn, and two calls at a time -/

/-- The condition of `expected_version_honoured`, decided. -/
def findsBooked {C ι : Type} (cat : Catalog) (w : LifecycleWorld C ι)
    (l : Label Ask.Answer Nat JsError C ι) : Bool :=
  match w.prog l.thread, w.session l.conn with
  | .stmt (.updateBooking id _ _) _ _, .active _ pending =>
      (((chronos cat).apply (pending.map Prod.snd) w.db).bookings.lookup id).any
        fun b => decide (b.status = .booked)
  | _, _ => true

theorem admits_of_findsBooked {C ι : Type} {cat : Catalog} (w : LifecycleWorld C ι)
    (l : Label Ask.Answer Nat JsError C ι) (h : findsBooked cat w l = true) :
    Admits (chronos cat) (fun _ => FindsBooked) w l := by
  intro s ok err i pending hprog hsess
  cases s with
  | updateBooking id status version =>
    simp only [findsBooked, hprog, hsess, Option.any_eq_true, decide_eq_true_eq] at h
    exact h
  | _ => trivial

/-- Booking `1` is cancelled (`false`) and completed (`true`). -/
def cancelledOrCompleted : Bool → LifecycleCall
  | false => .transition .cancelled
  | true => .transition .completed

/-- The second call comes after the first one, and is refused. -/
theorem expected_version_in_turn : ∃ w : LifecycleWorld Bool Bool, Resolves w false ∧
    (∀ i j, Resolves w i → Resolves w j → i = j) ∧
    ∀ i, Resolves w i →
      w.db.bookings.lookup 1 =
        some { sampleBooking .booked 1 with
          status := (cancelledOrCompleted i).target, version := 1 + 1 } ∧
      ((w.db.slots.lookup 1).map Slot.status = some .«open» ↔
        (cancelledOrCompleted i).target = .cancelled) := by
  have hrun : ∃ w : LifecycleWorld Bool Bool, World.run (chronos sampleCatalog)
      (findsBooked sampleCatalog)
      (LifecycleWorld.start (sampleBooked .booked .booked 1) 1 1 cancelledOrCompleted)
      (ownSteps (fun _ => calmEnv 2 0) (List.replicate 5 false ++ List.replicate 3 true)) =
        some w ∧ Resolves w false :=
    ⟨_, by with_unfolding_all rfl, _, rfl⟩
  obtain ⟨w, hw, hresolves⟩ := hrun
  have hreach := (reaches_ownSteps (fun _ => calm_calmEnv 2 0) admits_of_findsBooked hw).mono
    (Q := fun w l => Exclusive w l ∧ Admits (chronos sampleCatalog) (fun _ => FindsBooked) w l)
    fun w l hP => ⟨hP.2, hP.1.1⟩
  have hbooking : (sampleBooked .booked .booked 1).bookings.lookup 1 =
      some (sampleBooking .booked 1) := rfl
  exact ⟨w, hresolves, expected_version_honoured hbooking (by decide) hreach⟩

/-- **Both calls resolve.**  Both read booking `1` at version `1`; then one cancels it and opens
    its slot, and the other one completes it.  Its version is `2`, and its slot is open. -/
theorem both_calls_resolve : ∃ w : LifecycleWorld Bool Bool,
    Reaches (chronos sampleCatalog) Exclusive
      (LifecycleWorld.start (sampleBooked .booked .booked 1) 1 1 cancelledOrCompleted) w ∧
    Resolves w false ∧ Resolves w true ∧
    (w.db.bookings.lookup 1).map (fun b => (b.status, b.version)) = some (.completed, 2) ∧
    (w.db.slots.lookup 1).map Slot.status = some .«open» := by
  have hrun : ∃ w : LifecycleWorld Bool Bool, World.run (chronos sampleCatalog) (fun _ _ => true)
      (LifecycleWorld.start (sampleBooked .booked .booked 1) 1 1 cancelledOrCompleted)
      (ownSteps (fun _ => calmEnv 2 0) (List.replicate 2 false ++ List.replicate 2 true ++
        List.replicate 3 false ++ List.replicate 2 true)) = some w ∧
      Resolves w false ∧ Resolves w true ∧
      (w.db.bookings.lookup 1).map (fun b => (b.status, b.version)) = some (.completed, 2) ∧
      (w.db.slots.lookup 1).map Slot.status = some .«open» :=
    ⟨_, by with_unfolding_all rfl, ⟨_, rfl⟩, ⟨_, rfl⟩, rfl, rfl⟩
  obtain ⟨w, hw, hboth⟩ := hrun
  have hreach := (reaches_ownSteps (P := fun _ _ => True) (fun _ => calm_calmEnv 2 0)
    (fun _ _ _ => trivial) hw).mono (Q := Exclusive) fun w l hP => hP.2
  exact ⟨w, hreach, hboth⟩

end Chronos
