import Chronos.Controller
import Chronos.ReadCommitted.Calls

namespace Chronos

open ReadCommitted ReadCommitted.Prog

/-!
# The booking operations as atomic steps

Every function of the booking core that changes a booking, run alone: `Operation` lists
them with their arguments, `Operation.program` is the function, and `Operation.Commits` is
the guarded command it amounts to — what it must have found in the database, at a time the
clock may show, and what it then commits.

`alone_commits` connects the two: run alone on a database, whatever goes wrong around it,
an operation changes nothing but reminder rows, or commits what `Operation.Commits` says and
after that changes nothing but reminder rows.
-/

inductive Operation
  | createBooking (req : BookingRequest) (nowUtc : Option Instant) (queue : Bool)
  | cancelBooking (id : BookingId) (ifMatch : Option String) (session : Option ClientId)
      (queue : Bool)
  | confirmBooking (id : BookingId) (session : Option ClientId)
  | declineBooking (id : BookingId) (session : Option ClientId) (queue : Bool) (spelling : Spelling)
  | updateStatus (id : BookingId) (status : String) (session : Option ClientId) (queue : Bool)
      (spelling : Spelling)
  | rescheduleBooking (req : RescheduleRequest) (nowUtc : Option Instant) (queue : Bool)
  | rescheduleEndpoint (id : BookingId) (body : RescheduleBody) (session : Option ClientId)
      (queue : Bool)
  | transition (id : BookingId) (toStatus : BookingStatus) (expectedVersion : JsValue)
  | cancel (id : BookingId) (providerWindowHours : JsNumber)

/-- What an operation returns. -/
@[reducible] def Operation.Result : Operation → Type
  | .transition .. => Booking
  | .cancel .. => Booking
  | _ => Reply

section Program

variable (fromColumn : Instant → Except JsError Instant)

/-- The function an operation calls. -/
def Operation.program : (op : Operation) → Program op.Result
  | .createBooking req nowUtc queue => Chronos.createBooking req nowUtc queue
  | .cancelBooking id ifMatch session queue => Chronos.cancelBooking id ifMatch session queue
  | .confirmBooking id session => Chronos.confirmBooking id session
  | .declineBooking id session queue spelling => Chronos.declineBooking id session queue spelling
  | .updateStatus id status session queue spelling =>
      Chronos.updateStatus id status session queue spelling
  | .rescheduleBooking req nowUtc queue => Chronos.rescheduleBooking fromColumn req nowUtc queue
  | .rescheduleEndpoint id body session queue =>
      Chronos.rescheduleEndpoint fromColumn id body session queue
  | .transition id toStatus expectedVersion => Chronos.transition id toStatus expectedVersion
  | .cancel id providerWindowHours => Chronos.cancel id providerWindowHours

end Program

/-- What `evaluateCancellation` answers about booking `b` when everything is read from `d`. -/
def cancelRequestOn (cat : Catalog) (d : Database) (b : Booking) (ifMatch : Option String)
    (nowUtc : Instant) : CancelResult :=
  cancelRequest b ifMatch (d.slots.lookup b.slotId)
    ((d.slots.lookup b.slotId).bind fun row =>
      (cat.providers row.providerId).map Provider.cancellationWindowHours) nowUtc

/-- What an operation may commit on `d` when the clock shows a time in `T`. -/
inductive Operation.Commits (cat : Catalog) (fromColumn : Instant → Except JsError Instant)
    (T : Instant → Prop) (d : Database) : Operation → List Write → Prop
  | createBooking {req nowUtc queue now hours row reminders id ws} :
      NewBooking cat req now (now + hoursMs hours) d row reminders id ws →
      Commits cat fromColumn T d (.createBooking req nowUtc queue) ws
  | cancelBooking {id ifMatch session queue b now} : CancelRead id ifMatch session d b → T now →
      (cancelRequestOn cat d b ifMatch now).allowed = true →
      Commits cat fromColumn T d (.cancelBooking id ifMatch session queue)
        (statusWrites d id b .cancelled b.version true)
  | confirmBooking {id session row status ws} :
      OwnerUpdate id session checkBooked "completed" d row status ws →
      Commits cat fromColumn T d (.confirmBooking id session) ws
  | declineBooking {id session queue spelling row status ws} :
      OwnerUpdate id session checkBooked "cancelled" d row status ws →
      Commits cat fromColumn T d (.declineBooking id session queue spelling) ws
  | updateStatus {id text session queue spelling row status ws} :
      OwnerUpdate id session (checkStatus text) text d row status ws →
      Commits cat fromColumn T d (.updateStatus id text session queue spelling) ws
  | rescheduleBooking {req nowUtc queue now old slot reminders newId ws} :
      (∀ t, nowUtc = some t → now = t) → (nowUtc = none → T now) →
      req.windowExpired (d.slots.lookup old.slotId) now = false →
      GuardedMove cat fromColumn req now d old slot reminders newId ws →
      Commits cat fromColumn T d (.rescheduleBooking req nowUtc queue) ws
  | rescheduleEndpoint {id body session queue now old slot reminders newId ws} :
      session = some old.clientId → T now →
      (body.request id).windowExpired (d.slots.lookup old.slotId) now = false →
      GuardedMove cat fromColumn (body.request id) now d old slot reminders newId ws →
      Commits cat fromColumn T d (.rescheduleEndpoint id body session queue) ws
  | transition {id toStatus expectedVersion row ws} :
      Transition id toStatus expectedVersion d row ws →
      Commits cat fromColumn T d (.transition id toStatus expectedVersion) ws
  | cancel {id hours row ws} : ServiceCancel id hours d row ws →
      Commits cat fromColumn T d (.cancel id hours) ws

/-! ### The programs commit what the commands say -/

theorem SameBut.refl (d : Database) : SameBut d d := ⟨rfl, rfl, rfl⟩

theorem SameBut.trans {d d' d'' : Database} (h : SameBut d d') (h' : SameBut d' d'') :
    SameBut d d'' :=
  ⟨h'.slots.trans h.slots, h'.bookings.trans h.bookings,
    h'.idempotencyKeys.trans h.idempotencyKeys⟩

/-- The state after a commit that `Q` describes, and changes of reminder rows. -/
def Committed (cat : Catalog) (d : Database) (Q : List Write → Prop) (g : Database) : Prop :=
  ∃ ws, Q ws ∧ SameBut ((chronos cat).apply ws d) g

section Alone

variable {cat : Catalog} {fromColumn : Instant → Except JsError Instant} {T : Instant → Prop}
variable {d d' : Database} {Q : List Write → Prop}

/-- The surroundings of a solitary run in which the clock shows times in `T`. -/
def ClockIn (T : Instant → Prop) (env : Env Nat JsError Ask.Answer) : Prop := T (env.answer .now)

/-- The contract of an operation that runs alone. -/
abbrev aloneIn (cat : Catalog) (T : Instant → Prop) :
    Contract Ask.Answer Stmt Database Write Nat JsError Database :=
  .solo (chronos cat) (ClockIn T)

theorem committed_now {ws : List Write} (hQ : Q ws) :
    Committed cat d Q ((chronos cat).apply ws d) := ⟨ws, hQ, .refl _⟩

/-- Reminder rows may change after a commit. -/
theorem committed_reminders {g : Database} {b : BookingId} {ws : List Write}
    (hg : Committed cat d Q g) (hws : ∀ w ∈ ws, w.OnReminders b) :
    Committed cat d Q ((chronos cat).apply ws g) := by
  obtain ⟨ws₀, hQ, hsame⟩ := hg
  exact ⟨ws₀, hQ, hsame.trans (sameBut_apply hws)⟩

/-- The booking a solitary client saw in its first transaction is the one it sees now. -/
theorem windowSeen_alone {req : RescheduleRequest} {now : Instant} {old : Booking}
    (h : req.WindowSeen now ((aloneIn cat T).know d))
    (hold : d.bookings.lookup req.bookingId = some old) :
    req.windowExpired (d.slots.lookup old.slotId) now = false := by
  obtain ⟨d₁, d₂, b, rfl, rfl, hb, hwindow⟩ := h
  obtain rfl : b = old := Option.some.inj (hb.symm.trans hold)
  exact hwindow

theorem alone_createBooking {req : BookingRequest} {nowUtc : Option Instant} {queue : Bool}
    {r : Except JsError Reply}
    (h : Alone (chronos cat) (ClockIn T) d (createBooking req nowUtc queue) d' r) :
    d' = d ∨ Committed cat d (Operation.Commits cat fromColumn T d
      (.createBooking req nowUtc queue)) d' := by
  have hends := keeps_alone (R := CreateEnds (aloneIn cat T) d fun _ => Committed cat d
      (Operation.Commits cat fromColumn T d (.createBooking req nowUtc queue)))
    (keeps_createBooking solo_stays (fun _ _ _ _ => trivial)
    (fun now hours d₁ row reminders id ws _ _ hd hnew => ?_)
    (fun id g d ws hg _ hws => solo_next (committed_reminders hg hws))) h
  · rcases hends with ⟨hd, -⟩ | ⟨id, hwon, -⟩
    · exact Or.inl hd
    · exact Or.inr hwon
  · obtain rfl : d₁ = d := hd
    exact solo_next (committed_now (.createBooking hnew))

theorem alone_rescheduleBooking {req : RescheduleRequest} {nowUtc : Option Instant} {queue : Bool}
    {r : Except JsError Reply}
    (h : Alone (chronos cat) (ClockIn T) d (rescheduleBooking fromColumn req nowUtc queue) d' r) :
    d' = d ∨ Committed cat d (Operation.Commits cat fromColumn T d
      (.rescheduleBooking req nowUtc queue)) d' := by
  have hends := keeps_alone (R := RescheduleEnds d fun _ => Committed cat d
      (Operation.Commits cat fromColumn T d (.rescheduleBooking req nowUtc queue)))
    (keeps_rescheduleBooking solo_stays (fun _ _ _ _ => trivial)
    (fun now d₁ old slot reminders id ws hnow hseen hd hmove => ?_)
    (fun id g d ws hg _ hws => solo_next
      (hws.elim (committed_reminders hg) (committed_reminders hg)))) h
  · rcases hends with ⟨hd, -⟩ | ⟨id, hwon, -⟩
    · exact Or.inl hd
    · exact Or.inr hwon
  · obtain rfl : d₁ = d := hd
    have hclock : nowUtc = none → T now := by
      intro hnone
      obtain ⟨_, env, henv, rfl⟩ := hnow.2 hnone
      exact henv
    exact solo_next (committed_now (.rescheduleBooking hnow.1 hclock
      (windowSeen_alone hseen hmove.booking) hmove))

theorem alone_rescheduleEndpoint {id : BookingId} {body : RescheduleBody}
    {session : Option ClientId} {queue : Bool} {r : Except JsError Reply}
    (h : Alone (chronos cat) (ClockIn T) d (rescheduleEndpoint fromColumn id body session queue) d'
      r) :
    d' = d ∨ Committed cat d (Operation.Commits cat fromColumn T d
      (.rescheduleEndpoint id body session queue)) d' := by
  have hends := keeps_alone (R := RescheduleEnds d fun _ => Committed cat d
      (Operation.Commits cat fromColumn T d (.rescheduleEndpoint id body session queue)))
    (keeps_rescheduleEndpoint solo_stays (fun _ _ _ _ => trivial)
    (fun now d₁ b _ env d₂ old slot reminders newId ws hd₁ hb howner henv hnow hseen hd₂ hmove => ?_)
    (fun id g d ws hg _ hws => solo_next
      (hws.elim (committed_reminders hg) (committed_reminders hg)))) h
  · rcases hends with ⟨hd, -⟩ | ⟨id, hwon, -⟩
    · exact Or.inl hd
    · exact Or.inr hwon
  · obtain rfl : d₁ = d := hd₁
    obtain rfl : d₂ = d₁ := hd₂
    obtain rfl : b = old := Option.some.inj (hb.symm.trans hmove.booking)
    exact solo_next (committed_now (.rescheduleEndpoint howner (hnow ▸ henv)
      (windowSeen_alone hseen hmove.booking) hmove))

theorem alone_updateAsOwner {op : Operation} {p : Program Reply} {r : Except JsError Reply}
    {Won : Database → Prop} (hWon : Won = Committed cat d (op.Commits cat fromColumn T d))
    (hp : p.Keeps (chronos cat) (aloneIn cat T)
      (Contract.post (aloneIn cat T) (UpdateEnds d Won)) .free d)
    (h : Alone (chronos cat) (ClockIn T) d p d' r) :
    d' = d ∨ Committed cat d (op.Commits cat fromColumn T d) d' := by
  rcases keeps_alone hp h with ⟨hd, -⟩ | hwon
  · exact Or.inl hd
  · exact Or.inr (hWon ▸ hwon)

/-- The writes of a solitary `cancelBooking`: the booking it cancels is the one it has read. -/
theorem cancelWrites_eq {id : BookingId} {b : Booking} (hb : d.bookings.lookup id = some b) :
    cancelWrites d id b.slotId = statusWrites d id b .cancelled b.version true := by
  simp [cancelWrites, statusWrites, hb]

theorem alone_cancelBooking {id : BookingId} {ifMatch : Option String} {session : Option ClientId}
    {queue : Bool} {r : Except JsError Reply}
    (h : Alone (chronos cat) (ClockIn T) d (cancelBooking id ifMatch session queue) d' r) :
    d' = d ∨ Committed cat d (Operation.Commits cat fromColumn T d
      (.cancelBooking id ifMatch session queue)) d' := by
  have hends := keeps_alone (R := CancelEnds d (fun b g => g = d ∧ CancelRead id ifMatch session d b)
      (Committed cat d (Operation.Commits cat fromColumn T d
        (.cancelBooking id ifMatch session queue))))
    (keeps_cancelBooking solo_stays
    (fun d₁ b hd hread => ?_) (fun b g d₁ _ hd => rfl)
    (fun _ _ _ _ _ => trivial) (fun _ _ _ _ _ _ _ => trivial)
    (fun b g d₁ hg hd _ hallowed => ?_)
    (fun g d ws hg _ hws => solo_next (committed_reminders hg hws))) h
  · rcases hends with ⟨rfl | ⟨b, rfl, -⟩, -⟩ | hwon
    · exact Or.inl rfl
    · exact Or.inl rfl
    · exact Or.inr hwon
  · obtain rfl : d₁ = d := hd
    exact solo_next ⟨rfl, hread⟩
  · obtain ⟨rfl, hread⟩ := hg
    obtain rfl : d₁ = g := hd
    obtain ⟨_, _, _, _, env, ⟨_, ⟨rfl, -⟩, rfl⟩, ⟨_, ⟨rfl, -⟩, rfl⟩, -, henv, hok⟩ := hallowed
    rw [cancelWrites_eq hread.booking]
    exact solo_next (committed_now (.cancelBooking hread henv hok))

theorem alone_transition {id : BookingId} {toStatus : BookingStatus} {expectedVersion : JsValue}
    {r : Except JsError Booking}
    (h : Alone (chronos cat) (ClockIn T) d (transition id toStatus expectedVersion) d' r) :
    d' = d ∨ Committed cat d (Operation.Commits cat fromColumn T d
      (.transition id toStatus expectedVersion)) d' := by
  refine keeps_alone (R := fun g _ => g = d ∨ Committed cat d (Operation.Commits cat fromColumn T d
      (.transition id toStatus expectedVersion)) g) (keeps_transition (c := aloneIn cat T) solo_stays
    (fun _ _ _ _ => trivial) (fun _ => Or.inl rfl) fun d₁ row ws b hd htransition => ?_) h
  obtain rfl : d₁ = d := hd
  exact solo_next (Or.inr (committed_now (.transition htransition)))

theorem alone_cancel {id : BookingId} {hours : JsNumber} {r : Except JsError Booking}
    (h : Alone (chronos cat) (ClockIn T) d (cancel id hours) d' r) :
    d' = d ∨ Committed cat d (Operation.Commits cat fromColumn T d (.cancel id hours)) d' := by
  refine keeps_alone (R := fun g _ => g = d ∨ Committed cat d (Operation.Commits cat fromColumn T d
      (.cancel id hours)) g) (keeps_cancel (c := aloneIn cat T) solo_stays
    (fun _ _ _ _ => trivial) (fun _ => Or.inl rfl) fun d₁ row ws b hd hcancel => ?_) h
  obtain rfl : d₁ = d := hd
  exact solo_next (Or.inr (committed_now (.cancel hcancel)))

/-- **Operations are guarded commands.**  Whatever goes wrong around an operation that runs
    alone, it leaves the database as it was, or as one of its commits leaves it, but for
    reminder rows. -/
theorem alone_commits {op : Operation} {r : Except JsError op.Result}
    (h : Alone (chronos cat) (ClockIn T) d (op.program fromColumn) d' r) :
    d' = d ∨ Committed cat d (op.Commits cat fromColumn T d) d' := by
  cases op with
  | createBooking req nowUtc queue => exact alone_createBooking h
  | cancelBooking id ifMatch session queue => exact alone_cancelBooking h
  | rescheduleBooking req nowUtc queue => exact alone_rescheduleBooking h
  | rescheduleEndpoint id body session queue => exact alone_rescheduleEndpoint h
  | transition id toStatus expectedVersion => exact alone_transition h
  | cancel id hours => exact alone_cancel h
  | confirmBooking id session =>
    refine alone_updateAsOwner rfl (keeps_confirmBooking solo_stays (fun _ _ _ _ => trivial)
      (fun d₁ row status ws hd hupdate => ?_)
      fun g d hg _ => solo_next (by simpa using hg)) h
    obtain rfl : d₁ = d := hd
    exact solo_next (committed_now (.confirmBooking hupdate))
  | declineBooking id session queue spelling =>
    refine alone_updateAsOwner rfl (keeps_declineBooking solo_stays (fun _ _ _ _ => trivial)
      (fun d₁ row status ws hd hupdate => ?_)
      fun g d ws hg _ hws => solo_next (committed_reminders hg hws)) h
    obtain rfl : d₁ = d := hd
    exact solo_next (committed_now (.declineBooking hupdate))
  | updateStatus id text session queue spelling =>
    refine alone_updateAsOwner rfl (keeps_updateStatus solo_stays (fun _ _ _ _ => trivial)
      (fun d₁ row status ws hd hupdate => ?_)
      fun g d ws hg _ hws => solo_next (committed_reminders hg hws)) h
    obtain rfl : d₁ = d := hd
    exact solo_next (committed_now (.updateStatus hupdate))

end Alone

/-! ### A small database to run operations on -/

/-- Every client and every provider exists; the cancellation window is 24 hours. -/
def sampleCatalog : Catalog where
  providers _ := some ⟨24, none⟩
  clients _ := true
  eventTypes _ := none

/-- Slot `1` of provider `7` starts 100 hours after the epoch. -/
def sampleSlot (status : SlotStatus) : Slot := ⟨7, hoursMs 100, hoursMs 101, status⟩

/-- One open slot and no booking. -/
def sampleDb : Database where
  slots := (∅ : AList fun _ => Slot).insert 1 (sampleSlot .«open»)
  bookings := ∅
  reminderJobs := ∅
  idempotencyKeys := ∅

/-- Client `5` asks for slot `1`. -/
def sampleRequest : BookingRequest := ⟨none, none, 1, 5, none, "UTC"⟩

/-- The booking of client `5` on slot `1`, with a status and a version. -/
def sampleBooking (status : BookingStatus) (version : Int) : Booking :=
  { sampleRequest.booking with status := status, version := version }

/-- The reminder of booking `1` at an offset. -/
def sampleReminder (offset : Nat) (status : ReminderJobStatus) : ReminderJob :=
  ⟨hoursMs 100 - minutesMs offset, status, none⟩

/-- `sampleDb` with slot `1` and its booking `1` in the given states. -/
def sampleBooked (slot : SlotStatus) (status : BookingStatus) (version : Int) : Database where
  slots := (∅ : AList fun _ => Slot).insert 1 (sampleSlot slot)
  bookings := (∅ : AList fun _ => Booking).insert 1 (sampleBooking status version)
  reminderJobs := ((∅ : AList fun _ => ReminderJob).insert (1, 1440)
    (sampleReminder 1440 .scheduled)).insert (1, 60) (sampleReminder 60 .scheduled)
  idempotencyKeys := ∅

theorem oneLive_sampleBooked (slot : SlotStatus) (status : BookingStatus) (version : Int) :
    (sampleBooked slot status version).OneLive := by
  have honly : ∀ s i, (sampleBooked slot status version).LiveOn s i → i = 1 := by
    rintro s i ⟨b, hb, -⟩
    by_contra hi
    simp only [sampleBooked] at hb
    rw [AList.lookup_insert_ne hi] at hb
    cases hb
  intro s i k hi hk
  rw [honly s i hi, honly s k hk]

/-- Nothing goes wrong, the server draws id `fresh`, and the clock shows `now`. -/
def calmEnv (fresh : Nat) (now : Instant) : Env Nat JsError Ask.Answer :=
  ⟨fresh, none, fun a => match a with
    | .now => now
    | .effect _ => .ok ()
    | .queueAdd .. => .ok now
    | .selectClient _ => .ok none
    | .sendEmail .. => .sent none⟩

theorem calm_calmEnv (fresh : Nat) (now : Instant) : Calm (calmEnv fresh now) :=
  ⟨rfl, fun _ => rfl, fun _ _ _ _ => ⟨now, rfl⟩⟩

/-- Client `5` books slot `1` at the epoch. -/
example : Alone (chronos sampleCatalog) (fun _ => True) sampleDb
    (createBooking sampleRequest (some 0) false) (sampleBooked .booked .booked 1)
    (.ok (.created 1 false)) :=
  ⟨List.replicate 10 (calmEnv 1 0), _, _, fun _ _ => trivial, rfl, rfl⟩

end Chronos
