import Chronos.Clients

namespace Chronos

open ReadCommitted ReadCommitted.Prog

/-!
# Reminders that outlive their booking

A reminder is pending while it is `scheduled` or `sending`.  Whoever changes the status of a
booking owes it the cancellation of its pending reminders: `rescheduleBooking` cancels them with
the booking, `declineBooking` and `PATCH :id/status` after their commit.  `cancelBooking` asks the
queue to cancel those of no booking, and `confirmBooking` asks for nothing.

`pending_reminders_booked`: if these two find no reminder pending, then whenever no request is in
progress the pending reminders are those of `booked` bookings.  A request's ghost is the booking it
still owes (`Debt`).
-/

/-! ### The requests -/

inductive Endpoint
  | request (req : Request)
  | updateStatus (id : BookingId) (status : String) (session : Option ClientId) (queue : Bool)
      (spelling : Spelling)

/-- The function an endpoint calls. -/
def Endpoint.program (fromColumn : Instant → Except JsError Instant) : Endpoint → Program Reply
  | .request req => req.program fromColumn
  | .updateStatus id status session queue spelling =>
      Chronos.updateStatus id status session queue spelling

/-- With the status of booking `b`, or after it has set it, the endpoint cancels its reminders. -/
def Endpoint.Cancels (b : BookingId) : Endpoint → Prop
  | .request (.declineBooking id _ queue _) => id = b ∧ queue = true
  | .request (.rescheduleBooking req _ _) => req.bookingId = b
  | .updateStatus id status _ queue _ => id = b ∧ status = "cancelled" ∧ queue = true
  | _ => False

/-! ### The tables -/

/-- A reminder of booking `b` is pending. -/
def Database.Reminds (d : Database) (b : BookingId) : Prop :=
  ∃ offset row, d.reminderJobs.lookup (b, offset) = some row ∧ row.pending = true

/-- A reminder of booking `b` is pending, and `b` is not `booked`. -/
def Database.Outlived (d : Database) (b : BookingId) : Prop :=
  d.Reminds b ∧ ∀ row, d.bookings.lookup b = some row → row.status ≠ .booked

/-- Every pending reminder is that of a `booked` booking. -/
def Database.RemindsBooked (d : Database) : Prop :=
  ∀ k row, d.reminderJobs.lookup k = some row → row.pending = true →
    ∃ b, d.bookings.lookup k.1 = some b ∧ b.status = .booked

theorem remindsBooked_iff {d : Database} : d.RemindsBooked ↔ ∀ b, ¬ d.Outlived b := by
  constructor
  · rintro h b ⟨⟨offset, row, hrow, hpending⟩, hnot⟩
    obtain ⟨booking, hbooking, hbooked⟩ := h _ row hrow hpending
    exact hnot booking hbooking hbooked
  · intro h k row hrow hpending
    by_contra hnone
    refine h k.1 ⟨⟨k.2, row, hrow, hpending⟩, fun booking hbooking hbooked => ?_⟩
    exact hnone ⟨booking, hbooking, hbooked⟩

/-! ### What a request owes -/

/-- The booking whose status a request has set, until it has cancelled its reminders. -/
abbrev Debt := Option BookingId

/-- What a request may write to `d`, with its debt before and after. -/
structure Debt.Moves (cat : Catalog) (d : Database) (ws : List Write) (g g' : Debt) : Prop where
  outlived : ∀ b, ((chronos cat).apply ws d).Outlived b → d.Outlived b ∨ g' = some b
  paid : ∀ b, g = some b → g' ≠ some b → ¬ ((chronos cat).apply ws d).Outlived b
  reminds : ∀ b, ((chronos cat).apply ws d).Reminds b → d.Reminds b ∨ d.bookings.lookup b = none
  stays : ∀ b, d.bookings.lookup b ≠ none → ((chronos cat).apply ws d).bookings.lookup b ≠ none
  incurred : ∀ b, g' = some b → g = some b ∨
    d.bookings.lookup b ≠ none ∧ ∃ row, Write.booking b row ∈ ws ∧ row.status ≠ .booked

section Moves

variable {cat : Catalog} {d : Database} {ws : List Write} {g : Debt}

theorem pending_cancel (row : ReminderJob) : row.cancel.pending = false := rfl

/-- Where no row is made pending, the pending rows were pending before. -/
theorem reminds_of_settles {b b' : BookingId} (h : ∀ w ∈ ws, w.Settles b)
    (hreminds : ((chronos cat).apply ws d).Reminds b') : d.Reminds b' := by
  induction ws generalizing d with
  | nil => exact hreminds
  | cons w ws ih =>
    obtain ⟨offset, row, hrow, hpending⟩ : (w.apply d).Reminds b' :=
      ih (fun w' hw' => h w' (List.mem_cons_of_mem _ hw')) hreminds
    have hw := h w List.mem_cons_self
    cases w with
    | reminder i o new =>
      have hnew : new.pending = false := hw.settled i o new rfl
      rw [lookup_reminder_write] at hrow
      split at hrow
      · rw [← Option.some.inj hrow, hnew] at hpending
        cases hpending
      · exact ⟨offset, row, hrow, hpending⟩
    | cancelReminders i =>
      rw [lookup_cancelReminders_write] at hrow
      obtain ⟨old, hold, rfl⟩ := Option.map_eq_some_iff.mp hrow
      split at hpending
      · rw [pending_cancel] at hpending
        cases hpending
      · next hi => exact ⟨offset, old, hold, by simpa [hi] using hpending⟩
    | cancelPendingReminders i =>
      rw [lookup_cancelPendingReminders_write] at hrow
      obtain ⟨old, hold, rfl⟩ := Option.map_eq_some_iff.mp hrow
      split at hpending
      · rw [pending_cancel] at hpending
        cases hpending
      · exact ⟨offset, old, hold, hpending⟩
    | slot id row' => exact hw.onReminders.elim
    | booking id row' => exact hw.onReminders.elim
    | key c k row' => exact hw.onReminders.elim
    | email r => exact hw.onReminders.elim
    | addJob i o now job => exact ⟨offset, row, hrow, hpending⟩
    | removeJob i o => exact ⟨offset, row, hrow, hpending⟩

/-- Writes that leave bookings alone and make no reminder pending change no debt. -/
theorem Debt.moves_settles {b : BookingId} (h : ∀ w ∈ ws, w.Settles b) :
    Debt.Moves cat d ws g g := by
  have hsame : ((chronos cat).apply ws d).bookings = d.bookings :=
    (sameBut_apply fun w hw => (h w hw).onReminders).bookings
  refine ⟨fun b' hb' => .inl ⟨reminds_of_settles h hb'.1, hsame ▸ hb'.2⟩,
    fun b' hg hne => absurd hg hne, fun b' hb' => .inl (reminds_of_settles h hb'),
    fun b' hb' => by rw [hsame]; exact hb', fun b' hg => .inl hg⟩

theorem Debt.moves_nil : Debt.Moves cat d [] g g :=
  Debt.moves_settles (b := 0) fun _ hw => nomatch hw

/-- A new booking owes nothing. -/
theorem Debt.moves_newBooking {req : BookingRequest} {now minStart : Instant} {row : Slot}
    {reminders : List Write} {id : BookingId}
    (h : NewBooking cat req now minStart d row reminders id ws) : Debt.Moves cat d ws none none := by
  obtain ⟨offsets, -, -, hreminders⟩ := h.reminderJobs
  have hreminds : ∀ b, ((chronos cat).apply ws d).Reminds b → d.Reminds b ∨ b = id := by
    rintro b ⟨offset, job, hjob, hpending⟩
    rw [hreminders] at hjob
    split at hjob
    · next hk => exact .inr hk.1
    · exact .inl ⟨offset, job, hjob, hpending⟩
  refine ⟨fun b hb => ?_, (fun b hg => nomatch hg), fun b hb => ?_, fun b hb => ?_,
    (fun b hg => nomatch hg)⟩
  · have hne : b ≠ id := by
      rintro rfl
      exact hb.2 req.booking (by rw [h.bookings, if_pos rfl]) rfl
    refine .inl ⟨(hreminds b hb.1).resolve_right hne, fun booking hbooking => ?_⟩
    exact hb.2 booking (by rw [h.bookings, if_neg hne]; exact hbooking)
  · rcases hreminds b hb with hold | rfl
    · exact .inl hold
    · exact .inr h.fresh
  · rw [h.bookings]
    split
    · simp
    · exact hb

/-- A move cancels the reminders of the booking it cancels. -/
theorem Debt.moves_guardedMove {fromColumn : Instant → Except JsError Instant}
    {req : RescheduleRequest} {now : Instant} {old : Booking} {slot : Slot}
    {reminders : List Write} {newId : BookingId}
    (h : GuardedMove cat fromColumn req now d old slot reminders newId ws) :
    Debt.Moves cat d ws none none := by
  obtain ⟨start, -, hreminders⟩ := h.reminderJobs
  have hreminds : ∀ b, ((chronos cat).apply ws d).Reminds b →
      b = newId ∨ b ≠ req.bookingId ∧ d.Reminds b := by
    rintro b ⟨offset, job, hjob, hpending⟩
    rw [hreminders] at hjob
    split at hjob
    · next hk => exact .inl hk.1
    · split at hjob
      · obtain ⟨row, -, rfl⟩ := Option.map_eq_some_iff.mp hjob
        rw [pending_cancel] at hpending
        cases hpending
      · next hb => exact .inr ⟨hb, offset, job, hjob, hpending⟩
  refine ⟨fun b hb => ?_, (fun b hg => nomatch hg), fun b hb => ?_, fun b hb => ?_,
    (fun b hg => nomatch hg)⟩
  · have hne : b ≠ newId := by
      rintro rfl
      exact hb.2 _ (by rw [h.bookings, if_pos rfl]) rfl
    obtain ⟨hold, hb'⟩ := (hreminds b hb.1).resolve_left hne
    refine .inl ⟨hb', fun booking hbooking => ?_⟩
    exact hb.2 booking (by rw [h.bookings, if_neg hne, if_neg hold]; exact hbooking)
  · rcases hreminds b hb with rfl | ⟨-, hb'⟩
    · exact .inr h.fresh
    · exact .inl hb'
  · rw [h.bookings]
    split
    · simp
    · split
      · simp
      · exact hb

/-- What it takes to set the status of a booking: a debt, unless it is `booked` now. -/
theorem Debt.moves_status {id : BookingId} {row row' : Booking}
    (hrow : d.bookings.lookup id = some row)
    (hbookings : ∀ i, ((chronos cat).apply ws d).bookings.lookup i =
      if i = id then some row' else d.bookings.lookup i)
    (hreminders : ((chronos cat).apply ws d).reminderJobs = d.reminderJobs)
    (hwrite : Write.booking id row' ∈ ws) :
    Debt.Moves cat d ws none (if row'.status = .booked then none else some id) := by
  have hreminds : ∀ b, ((chronos cat).apply ws d).Reminds b → d.Reminds b := by
    rintro b ⟨offset, job, hjob, hpending⟩
    exact ⟨offset, job, hreminders ▸ hjob, hpending⟩
  refine ⟨fun b hb => ?_, (fun b hg => nomatch hg), fun b hb => .inl (hreminds b hb), fun b hb => ?_,
    fun b hg => ?_⟩
  · by_cases hi : b = id
    · subst hi
      have hnot : row'.status ≠ .booked := hb.2 row' (by rw [hbookings, if_pos rfl])
      exact .inr (if_neg hnot)
    · refine .inl ⟨hreminds b hb.1, fun booking hbooking => ?_⟩
      exact hb.2 booking (by rw [hbookings, if_neg hi]; exact hbooking)
  · rw [hbookings]
    split
    · simp
    · exact hb
  · split at hg
    · cases hg
    · next hnot =>
      obtain rfl := Option.some.inj hg
      exact .inr ⟨by rw [hrow]; simp, row', hwrite, hnot⟩

/-- Cancelling the pending reminders of a booking pays for it. -/
theorem Debt.moves_cancelPending {id : BookingId} (hg : g = none ∨ g = some id) :
    Debt.Moves cat d [.cancelPendingReminders id] g none := by
  have hreminds : ∀ b, ((Write.cancelPendingReminders id).apply d).Reminds b →
      b ≠ id ∧ d.Reminds b := by
    rintro b ⟨offset, job, hjob, hpending⟩
    rw [lookup_cancelPendingReminders_write] at hjob
    obtain ⟨old, hold, rfl⟩ := Option.map_eq_some_iff.mp hjob
    split at hpending
    · rw [pending_cancel] at hpending
      cases hpending
    · next hnot =>
      exact ⟨fun hb => hnot ⟨hb, hpending⟩, offset, old, hold, hpending⟩
  refine ⟨fun b hb => .inl ⟨(hreminds b hb.1).2, hb.2⟩, fun b hb _ houtlived => ?_,
    fun b hb => .inl (hreminds b hb).2, fun b hb => hb, fun b hnone => nomatch hnone⟩
  rcases hg with rfl | rfl
  · cases hb
  · exact (hreminds b houtlived.1).1 (Option.some.inj hb).symm

end Moves

/-! ### The endpoints make these moves -/

/-- What an endpoint relies on and guarantees, where nothing fails. -/
def debtContract (cat : Catalog) : Contract Ask.Answer Stmt Database Write Nat JsError Debt where
  adm _ _ := True
  env _ _ env := Calm env
  know _ _ := True
  move g d ws g' := Debt.Moves cat d ws g g'
  send _ _ _ _ := True

/-- An endpoint that cancels the reminders of a booking has done so in the end. -/
def Endpoint.Settled (ep : Endpoint) (g : Debt) : Prop := ∀ b, g = some b → ¬ ep.Cancels b

section Keeps

variable {cat : Catalog} {g : Debt} {id : BookingId} {spelling : Spelling}

/-- The request owes for booking `id` at most. -/
def Debt.AtMost (id : BookingId) (g : Debt) : Prop := g = none ∨ g = some id

theorem stays_debt (d : Database) (_ : (debtContract cat).know g d) :
    (debtContract cat).move g d [] g := Debt.moves_nil

theorem settles_debt {φ : Debt → Prop} {b : BookingId} (g : Debt) (d : Database)
    (ws : List Write) (hg : φ g) (_ : (debtContract cat).know g d) (hws : ∀ w ∈ ws, w.Settles b) :
    (debtContract cat).Next g d ws φ := ⟨g, Debt.moves_settles hws, hg⟩

/-- `cancelForBooking` pays what is owed for the booking. -/
theorem keeps_cancelForBooking_pays (hg : g.AtMost id) :
    (cancelForBooking (some id) spelling).Keeps (chronos cat) (debtContract cat)
      (Quietly (debtContract cat) (· = none)) .free g := by
  refine keeps_reminders (s := .selectPendingReminders (some id)) (b := id) (φ := Debt.AtMost id)
    (fun o d e h => by cases h) (fun o d r ws h => by rw [(read_ok h).2]; simp) settles_debt hg
    (fun offsets g hg => ?_) fun d env e g g' _ he hf _ => absurd hf (by simp [he.1])
  refine (keeps_removeJobs settles_debt (some id) spelling (fun b h => (Option.some.inj h).symm) offsets
    hg).bind ?_ fun st g e h => ?_
  · rintro st g - ⟨rfl, hg, -⟩ d env he -
    refine ⟨fun e hf => absurd hf (by simp [he.1]), fun _ => ⟨fun r ws hx => ?_, fun e hx => ?_⟩⟩
    · obtain ⟨rfl, rfl⟩ := Prod.mk.inj (Except.ok.inj hx)
      exact ⟨none, Debt.moves_cancelPending hg, keeps_ret.mpr ⟨rfl, rfl, fun _ => ⟨(), rfl⟩⟩⟩
    · cases hx
  · have hcalm : CalmAt (debtContract cat) (Debt.AtMost id) := fun _ _ _ _ he => he
    obtain ⟨u, hu⟩ := h.2.2 hcalm
    cases hu

theorem keeps_cancelReminderJobs_pays (hg : g.AtMost id) :
    (cancelReminderJobs (some id) spelling true).Keeps (chronos cat) (debtContract cat)
      (Safely (· = none)) .free g := keeps_safely (keeps_cancelForBooking_pays hg)

/-- A change of a booking by its owner owes for that booking. -/
theorem next_ownerUpdate {session : Option ClientId} {check : Booking → Option Reply}
    {text : String} {d : Database} {row : Booking} {status : BookingStatus} {ws : List Write}
    (h : OwnerUpdate id session check text d row status ws) :
    (debtContract cat).Next none d ws (Debt.AtMost id) := by
  have hws : ws = [.booking id { row with status := status, version := row.version + 1 }] :=
    h.writes
  have hbookings : ∀ i, ((chronos cat).apply ws d).bookings.lookup i =
      if i = id then some { row with status := status, version := row.version + 1 }
      else d.bookings.lookup i := by
    intro i
    rw [h.writes, lookup_booking_statusWrites]
  have hreminders : ((chronos cat).apply ws d).reminderJobs = d.reminderJobs := by
    rw [hws]
    rfl
  refine ⟨_, Debt.moves_status h.booking hbookings hreminders ?_, ?_⟩
  · rw [hws]
    exact List.mem_singleton_self _
  unfold Debt.AtMost
  split
  · exact .inl rfl
  · exact .inr rfl

/-- `cancelBooking` owes for the booking, if it is there. -/
theorem next_cancelWrites {d : Database} {slotId : SlotId} :
    (debtContract cat).Next none d (cancelWrites d id slotId) (Debt.AtMost id) := by
  have hreminders : ((chronos cat).apply (cancelWrites d id slotId) d).reminderJobs =
      d.reminderJobs := by
    unfold cancelWrites openSlotWrites
    split <;> split <;> rfl
  cases hrow : d.bookings.lookup id with
  | none =>
    have hsettles : ∀ b, ((chronos cat).apply (cancelWrites d id slotId) d).bookings.lookup b =
        d.bookings.lookup b := by
      intro b
      rw [lookup_booking_cancelWrites, hrow]
      split
      · next hb => rw [hb, hrow]; rfl
      · rfl
    refine ⟨none, ⟨fun b hb => .inl ⟨?_, fun booking hbooking => ?_⟩, (fun b hg => nomatch hg),
      fun b hb => .inl ?_, fun b hb => ?_, (fun b hg => nomatch hg)⟩, .inl rfl⟩
    · obtain ⟨offset, job, hjob, hpending⟩ := hb.1
      exact ⟨offset, job, hreminders ▸ hjob, hpending⟩
    · exact hb.2 booking (by rw [hsettles]; exact hbooking)
    · obtain ⟨offset, job, hjob, hpending⟩ := hb
      exact ⟨offset, job, hreminders ▸ hjob, hpending⟩
    · rw [hsettles]
      exact hb
  | some row =>
    have hbookings : ∀ i, ((chronos cat).apply (cancelWrites d id slotId) d).bookings.lookup i =
        if i = id then some { row with status := .cancelled } else d.bookings.lookup i := by
      intro i
      rw [lookup_booking_cancelWrites, hrow]
      rfl
    refine ⟨some id, Debt.moves_status hrow hbookings hreminders ?_, .inr rfl⟩
    unfold cancelWrites
    rw [hrow]
    exact List.mem_cons_self

theorem rests_debt (φ : Debt → Prop) : StaysAt (debtContract cat) φ :=
  fun g _ hg _ => ⟨g, Debt.moves_nil, hg⟩

/-- Where nothing is owed, everything is settled. -/
theorem Endpoint.settled_none (ep : Endpoint) : ep.Settled none := fun _ hb => nomatch hb

/-- A change of a booking by its owner, and what it does after its commit. -/
theorem keeps_updateAsOwner_debt {ep : Endpoint} {session : Option ClientId}
    {check : Booking → Option Reply} {text : String} {Ended : Debt → Prop}
    {afterCommit : Program Unit} (hcheck : ∀ b r, check b = some r → r.status ≠ 200)
    (hafter : ∀ g, Debt.AtMost id g →
      afterCommit.Keeps (chronos cat) (debtContract cat) (Safely Ended) .free g)
    (hended : ∀ g, Ended g → ep.Settled g) :
    (updateAsOwner id session check text afterCommit).Keeps (chronos cat) (debtContract cat)
      (Contract.post (debtContract cat) fun g _ => ep.Settled g) .free none := by
  refine (keeps_updateAsOwner hcheck stays_debt (fun _ _ _ _ => trivial)
    (fun d row status ws _ h => next_ownerUpdate h) (rests_debt Ended) hafter).mono ?_
  refine fun st g r => Contract.post_mono fun g hg => ?_
  rcases hg with ⟨rfl, -⟩ | hg
  · exact ep.settled_none
  · exact hended g hg

/-- **Endpoints make only these moves**, and pay what they owe where they cancel reminders. -/
theorem keeps_endpoint (fromColumn : Instant → Except JsError Instant) (ep : Endpoint) :
    (ep.program fromColumn).Keeps (chronos cat) (debtContract cat)
      (Contract.post (debtContract cat) fun g _ => ep.Settled g) .free none := by
  have hkeep : ∀ (id : BookingId) (g : Debt), Debt.AtMost id g →
      (ret () : Program Unit).Keeps (chronos cat) (debtContract cat) (Safely (Debt.AtMost id))
        .free g := fun id g hg => keeps_ret.mpr ⟨rfl, hg, (), rfl⟩
  cases ep with
  | request req =>
    cases req with
    | createBooking req nowUtc queue =>
      -- A new booking is booked, so it owes nothing.
      have hcommit : ∀ (now : Instant) hours d row reminders id ws,
          NewBooking cat req now (now + hoursMs hours) d row reminders id ws →
          (debtContract cat).Next none d ws fun g => g = none :=
        fun _ _ _ _ _ _ _ hnew => ⟨none, Debt.moves_newBooking hnew, rfl⟩
      have hafter : ∀ now, Enqueued cat (debtContract cat) req.slotId now queue
          (fun _ g => g = none) fun _ g => g = none :=
        fun now => enqueued_of_reminders fun id => settles_debt
      refine (keeps_createBooking_enqueued stays_debt (fun _ _ _ _ => trivial)
        (fun now hours d row reminders id ws _ _ _ => hcommit now hours d row reminders id ws)
        hafter).mono ?_
      exact fun st g r => Contract.post_mono fun g _ b _ hcancels => hcancels
    | cancelBooking id ifMatch session queue =>
      have harm : ∀ (d : Database) (_ : Booking), (debtContract cat).Next none d [] fun g => g = none :=
        fun _ _ => ⟨none, Debt.moves_nil, rfl⟩
      have hcommit : ∀ (b : Booking) (g : Debt) d, g = none →
          (debtContract cat).Next g d (cancelWrites d id b.slotId) (Debt.AtMost id) :=
        fun b g d hg => hg ▸ next_cancelWrites
      -- The reminders of `undefined` are cancelled: the debt stays as it is.
      have hafter : ∀ g, Debt.AtMost id g →
          (cancelReminderJobs none (.other "undefined") queue).Keeps (chronos cat)
          (debtContract cat) (Safely (Debt.AtMost id)) .free g :=
        fun g hg => keeps_cancelReminderJobs none (fun b h => nomatch h) (settles_debt (b := id)) hg
      refine (keeps_cancelBooking_after stays_debt (fun d b _ _ => harm d b)
        (fun b g d _ _ => Debt.moves_nil) (fun _ _ _ _ _ => trivial) (fun _ _ _ _ _ _ _ => trivial)
        (fun b g d hg _ _ _ => hcommit b g d hg) hafter).mono ?_
      exact fun st g r => Contract.post_mono fun g _ b _ hcancels => hcancels
    | confirmBooking id session =>
      exact keeps_updateAsOwner_debt checkBooked_some (hkeep id)
        fun g _ b _ hcancels => hcancels
    | declineBooking id session queue spelling =>
      cases queue with
      | false =>
        refine keeps_updateAsOwner_debt checkBooked_some (hkeep id) ?_
        -- Without a queue the endpoint cancels no reminders, and promises nothing.
        rintro g - b - ⟨-, hqueue⟩
        cases hqueue
      | true =>
        exact keeps_updateAsOwner_debt checkBooked_some
          (fun g hg => keeps_cancelReminderJobs_pays hg) fun g hg => hg ▸ Endpoint.settled_none _
    | rescheduleBooking req nowUtc queue =>
      -- The transaction itself cancels the reminders of the booking it moves.
      have hcommit : ∀ now d old slot reminders id ws,
          GuardedMove cat fromColumn req now d old slot reminders id ws →
          (debtContract cat).Next none d ws fun g => g = none :=
        fun _ _ _ _ _ _ _ hmove => ⟨none, Debt.moves_guardedMove hmove, rfl⟩
      have hafter : MovedOn cat (debtContract cat) req queue (fun _ g => g = none)
          fun _ g => g = none := movedOn_of_reminders fun id g d ws hg hk hws =>
        hws.elim (settles_debt g d ws hg hk) (settles_debt g d ws hg hk)
      refine (keeps_rescheduleBooking_movedOn stays_debt (fun _ _ _ _ => trivial)
        (fun now d old slot reminders id ws _ _ _ => hcommit now d old slot reminders id ws)
        hafter).mono ?_
      refine fun st g r => Contract.post_mono fun g hg => ?_
      rcases hg with ⟨rfl, -⟩ | ⟨id, rfl, -⟩
      · exact Endpoint.settled_none _
      · exact Endpoint.settled_none _
  | updateStatus id status session queue spelling =>
    by_cases hcancelled : status = "cancelled" ∧ queue = true
    · have hafter : ∀ g, Debt.AtMost id g → (if status = "cancelled" then
          cancelReminderJobs (some id) spelling queue else pure ()).Keeps (chronos cat) (debtContract cat)
          (Safely fun g => g = none) .free g := by
        intro g hg
        rw [if_pos hcancelled.1, hcancelled.2]
        exact keeps_cancelReminderJobs_pays hg
      exact keeps_updateAsOwner_debt checkStatus_some hafter
        fun g hg => hg ▸ Endpoint.settled_none _
    · have hafter : ∀ g, Debt.AtMost id g → (if status = "cancelled" then
          cancelReminderJobs (some id) spelling queue else pure ()).Keeps (chronos cat) (debtContract cat)
          (Safely (Debt.AtMost id)) .free g := ?_
      · exact keeps_updateAsOwner_debt checkStatus_some hafter fun g _ b _ hb => hcancelled hb.2
      intro g hg
      split
      · next hstatus =>
        rw [Bool.eq_false_iff.mpr fun hqueue => hcancelled ⟨hstatus, hqueue⟩]
        exact hkeep id g hg
      · exact hkeep id g hg

theorem ok_endpoint (fromColumn : Instant → Except JsError Instant) (ep : Endpoint) :
    (ep.program fromColumn).Ok (chronos cat) value (debtContract cat).adm .free := by
  cases ep with
  | request req => exact ok_request (localTo_true cat) req
  | updateStatus id status session queue spelling =>
    refine ok_updateAsOwner (localTo_true cat) ?_
    split
    · exact ok_cancelReminderJobs (some id) spelling queue
    · exact okTo_ret.mpr rfl

end Keeps

/-! ### Every run -/

section Runs

variable {ι C : Type} [DecidableEq ι] [DecidableEq C] {cat : Catalog}
variable {fromColumn : Instant → Except JsError Instant} {eps : ι → Endpoint} {d₀ : Database}

/-- Bookings outlived by their reminders are owed for. -/
def Owed (d : Database) (_ : List (ι × Write)) (G : ι → Debt) : Prop :=
  ∀ b, d.Outlived b → ∃ i, G i = some b

theorem preserved_owed : Preserved (chronos cat) (fun _ : ι => debtContract cat) Owed where
  know _ _ _ _ _ := trivial
  move d j G i ws g' h hmoves := by
    intro b hb
    have hself : Function.update G i g' i = g' := Function.update_self ..
    rcases hmoves.outlived b hb with hbefore | hg'
    · obtain ⟨k, hk⟩ := h b hbefore
      by_cases hi : k = i
      · subst hi
        refine ⟨k, hself.trans ?_⟩
        by_contra hne
        exact hmoves.paid b hk hne hb
      · exact ⟨k, by rw [Function.update_of_ne hi]; exact hk⟩
    · exact ⟨i, hself.trans hg'⟩

/-- A request that sets the status of a booking to another than `booked` cancels the reminders of
    the booking, or finds none pending. -/
def SettlesFirst (cat : Catalog) (eps : ι → Endpoint) (w : Service C ι)
    (l : Label Ask.Answer Nat JsError C ι) : Prop :=
  ∀ b row, (l.thread, Write.booking b row) ∈ w.commits (chronos cat) l → row.status ≠ .booked →
    (eps l.thread).Cancels b ∨ ¬ w.db.Reminds b

/-- Requests that have not begun owe nothing; those that do not cancel reminders owe for bookings
    without pending reminders. -/
structure Solvent (eps : ι → Endpoint) (begun : ι → Prop) (d : Database) (G : ι → Debt) : Prop where
  untouched : ∀ i, ¬ begun i → G i = none
  booking : ∀ i b, G i = some b → d.bookings.lookup b ≠ none
  settled : ∀ i b, G i = some b → ¬ (eps i).Cancels b → ¬ d.Reminds b

theorem Solvent.move {begun : ι → Prop} {d : Database} {G : ι → Debt} {i : ι} {ws : List Write}
    {g' : Debt} (h : Solvent eps begun d G) (hi : begun i)
    (hmoves : Debt.Moves cat d ws (G i) g')
    (hfirst : ∀ b row, Write.booking b row ∈ ws → row.status ≠ .booked →
      (eps i).Cancels b ∨ ¬ d.Reminds b) :
    Solvent eps begun ((chronos cat).apply ws d) (Function.update G i g') := by
  -- What a debt was owed for is there, and reminders are added to new bookings only.
  have hkept : ∀ b, d.bookings.lookup b ≠ none → ¬ d.Reminds b →
      ¬ ((chronos cat).apply ws d).Reminds b := by
    intro b hb hnot hreminds
    rcases hmoves.reminds b hreminds with hold | hnew
    · exact hnot hold
    · exact hb hnew
  have hself : Function.update G i g' i = g' := Function.update_self ..
  refine ⟨fun k hk => ?_, fun k b hk => ?_, fun k b hk hcancels => ?_⟩
  · have hne : k ≠ i := by
      rintro rfl
      exact hk hi
    rw [Function.update_of_ne hne]
    exact h.untouched k hk
  · by_cases hne : k = i
    · subst hne
      rcases hmoves.incurred b (hself.symm.trans hk) with hold | ⟨hb, -⟩
      · exact hmoves.stays b (h.booking k b hold)
      · exact hmoves.stays b hb
    · rw [Function.update_of_ne hne] at hk
      exact hmoves.stays b (h.booking k b hk)
  · by_cases hne : k = i
    · subst hne
      rcases hmoves.incurred b (hself.symm.trans hk) with hold | ⟨hb, row, hrow, hstatus⟩
      · exact hkept b (h.booking k b hold) (h.settled k b hold hcancels)
      · exact hkept b hb ((hfirst b row hrow hstatus).resolve_left hcancels)
    · rw [Function.update_of_ne hne] at hk
      exact hkept b (h.booking k b hk) (h.settled k b hk hcancels)

/-- **No pending reminder outlives its booking.**  Any number of requests run at once, each
    transaction on one connection, and nothing fails.  If every request that sets the status of a
    booking to another than `booked` cancels its reminders or finds none pending, then whenever all
    requests that have begun are done, every pending reminder is that of a `booked` booking. -/
theorem pending_reminders_booked {begun : ι → Prop} {w : Service C ι} (h₀ : d₀.RemindsBooked)
    (h : Reaches (chronos cat)
      (fun w l => (begun l.thread ∧ Calm l.env ∧ SettlesFirst cat eps w l) ∧ Exclusive w l)
      (World.init d₀ fun i => (eps i).program fromColumn) w)
    (hdone : ∀ i, begun i → (w.prog i).Done) : w.db.RemindsBooked := by
  -- By induction on the run: what each request owes.
  have hrun : ∃ ts G, Modular (chronos cat) value (fun _ => debtContract cat)
      (fun i g _ => (eps i).Settled g) Owed w ts G ∧ Solvent eps begun w.db G := by
    clear hdone
    induction h with
    | start =>
      refine ⟨_, fun _ => none, modular_init (fun i => ok_endpoint fromColumn (eps i))
        (fun i => keeps_endpoint fromColumn (eps i)) fun b hb => ?_,
        fun _ _ => rfl, (fun _ _ hg => nomatch hg), (fun _ _ hg => nomatch hg)⟩
      exact absurd hb (remindsBooked_iff.mp h₀ b)
    | @step w w' l _ hP hs ih =>
      obtain ⟨ts, G, hmod, hsolvent⟩ := ih
      obtain ⟨⟨hbegun, hcalm, hfirst⟩, hexclusive⟩ := hP
      have hrelied : Relied (chronos cat) (fun _ : ι => debtContract cat) Owed w l :=
        ⟨hexclusive, fun _ _ _ _ _ _ _ => trivial, fun _ _ => hcalm⟩
      obtain ⟨ts', g', ws, hmod', hdb, hjournal, hcase⟩ :=
        hmod.step (lawful cat) preserved_owed hrelied hs
      refine ⟨ts', _, hmod', ?_⟩
      have hmoves : Debt.Moves cat w.db ws (G l.thread) g' := by
        rcases hcase with ⟨rfl, rfl⟩ | hmoves
        · exact Debt.moves_nil
        · exact hmoves
      rw [hdb]
      refine hsolvent.move hbegun hmoves fun b row hrow => hfirst b row ?_
      have hcommits : w.commits (chronos cat) l = ws.map (l.thread, ·) :=
        List.append_cancel_left ((step_commits hs).symm.trans hjournal)
      rw [hcommits]
      exact List.mem_map_of_mem hrow
  obtain ⟨ts, G, hmod, hsolvent⟩ := hrun
  refine remindsBooked_iff.mpr fun b hb => ?_
  obtain ⟨i, hi⟩ := hmod.inv b hb
  -- Whoever owes the reminder has begun, is done, and has settled.
  by_cases hbegun : begun i
  · obtain ⟨r, hr⟩ := result_of_done (hdone i hbegun)
    exact hsolvent.settled i b hi (hmod.result hr b hi) hb.1
  · rw [hsolvent.untouched i hbegun] at hi
    cases hi

end Runs

/-! ### One request -/

/-- Client `5` ends its booking `1` before it begins, and nothing else happens. -/
def sampleEnding (ep : Endpoint) : Service Unit Unit :=
  World.init (sampleBooked .booked .booked 1) fun _ => ep.program .ok

/-- The step commits no row of `bookings` but that of booking `1`. -/
def writesSample (w : Service Unit Unit) (l : Label Ask.Answer Nat JsError Unit Unit) : Bool :=
  (w.commits (chronos sampleCatalog) l).all fun e => match e.2 with
    | .booking b _ => decide (b = 1)
    | _ => true

theorem sampleBooked_remindsBooked : (sampleBooked .booked .booked 1).RemindsBooked := by
  intro k row hrow _
  have hmem : (⟨k, row⟩ : Sigma fun _ : ReminderId => ReminderJob) ∈
      (sampleBooked .booked .booked 1).reminderJobs.entries := AList.mem_lookup_iff.mp hrow
  have hkeys : ∀ e ∈ (sampleBooked .booked .booked 1).reminderJobs.entries, e.1.1 = 1 := by decide
  rw [hkeys _ hmem]
  exact ⟨_, rfl, rfl⟩

/-- `declineBooking` cancels the reminders of the booking it cancels. -/
theorem declined_reminders_cancelled : ∃ w : Service Unit Unit,
    w.db.bookings.lookup 1 = some (sampleBooking .cancelled 2) ∧ w.db.RemindsBooked := by
  have hrun : ∃ w : Service Unit Unit, World.run (chronos sampleCatalog) writesSample
      (sampleEnding (.request (.declineBooking 1 (some 5) true .printed)))
      (List.replicate 10 ⟨(), (), calmEnv 0 0⟩) = some w ∧
      w.db.bookings.lookup 1 = some (sampleBooking .cancelled 2) ∧ (w.prog ()).Done :=
    ⟨_, by with_unfolding_all rfl, by rfl, by trivial⟩
  obtain ⟨w, hw, hbooking, hdone⟩ := hrun
  have hfirst : ∀ (w : Service Unit Unit) l, writesSample w l = true →
      SettlesFirst sampleCatalog (fun _ => .request (.declineBooking 1 (some 5) true .printed)) w l := by
    intro w l hcheck b row hrow _
    have hb := List.all_eq_true.mp hcheck _ hrow
    exact .inl ⟨(of_decide_eq_true hb).symm, rfl⟩
  have hreach := exclusive_of_dedicated Function.injective_id (reaches_of_run
    (P := fun w l => (() = l.thread ∧ Calm l.env ∧ SettlesFirst sampleCatalog
      (fun _ => .request (.declineBooking 1 (some 5) true .printed)) w l) ∧ Dedicated id l)
    (fun w l hl hcheck => by
      obtain rfl := List.eq_of_mem_replicate hl
      exact ⟨⟨rfl, calm_calmEnv 0 0, hfirst w _ hcheck⟩, rfl⟩) hw)
  exact ⟨w, hbooking, pending_reminders_booked sampleBooked_remindsBooked hreach fun _ _ => hdone⟩

/-- **`cancelBooking` leaves the reminders pending.**  Nothing fails; when the request is done its
    booking is cancelled, and both reminders are still scheduled. -/
theorem cancelled_booking_reminds : ∃ w : Service Unit Unit,
    Reaches (chronos sampleCatalog) (fun w l => Calm l.env ∧ Exclusive w l)
      (sampleEnding (.request (.cancelBooking 1 (some "1") (some 5) true))) w ∧
    (w.prog ()).Done ∧ w.db.bookings.lookup 1 = some (sampleBooking .cancelled 1) ∧
    w.db.reminderJobs.lookup (1, 60) = some (sampleReminder 60 .scheduled) ∧
    ¬ w.db.RemindsBooked := by
  have hrun : ∃ w : Service Unit Unit, World.run (chronos sampleCatalog) (fun _ _ => true)
      (sampleEnding (.request (.cancelBooking 1 (some "1") (some 5) true)))
      (List.replicate 10 ⟨(), (), calmEnv 0 0⟩) = some w ∧ (w.prog ()).Done ∧
      w.db.bookings.lookup 1 = some (sampleBooking .cancelled 1) ∧
      w.db.reminderJobs.lookup (1, 60) = some (sampleReminder 60 .scheduled) :=
    ⟨_, by with_unfolding_all rfl, by trivial, by rfl, by rfl⟩
  obtain ⟨w, hw, hdone, hbooking, hreminder⟩ := hrun
  have hreach := exclusive_of_dedicated Function.injective_id (reaches_of_run
    (P := fun _ l => Calm l.env ∧ Dedicated id l) (fun w l hl _ => by
      obtain rfl := List.eq_of_mem_replicate hl
      exact ⟨calm_calmEnv 0 0, rfl⟩) hw)
  refine ⟨w, hreach, hdone, hbooking, hreminder, fun hbooked => ?_⟩
  obtain ⟨b, hb, hstatus⟩ := hbooked _ _ hreminder rfl
  rw [hbooking] at hb
  obtain rfl := Option.some.inj hb
  cases hstatus

end Chronos
