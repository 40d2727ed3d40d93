import Chronos.Operations

namespace Chronos

open ReadCommitted ReadCommitted.Prog

/-!
# Calls side by side

What one call of the booking core can do to the committed database while others are at
work.  `Request` lists the calls that are studied side by side, `Progress` is how far one of
them has come, and `Request.Moves` are its moves when transactions are atomic: a guarded
command it commits once, reads before it, and changes of reminder rows after it.

`keeps_request` says that the programs make no other moves.  `clients_step` and
`clients_reach` are the step rule and the run rule for any number of them: an invariant
of the tables, the journal and everyone's progress has to be checked against
`Request.Moves` only.
-/

/-- A call, with its arguments. -/
inductive Request
  | createBooking (req : BookingRequest) (nowUtc : Option Instant) (queue : Bool)
  | cancelBooking (id : BookingId) (ifMatch : Option String) (session : Option ClientId)
      (queue : Bool)
  | confirmBooking (id : BookingId) (session : Option ClientId)
  | declineBooking (id : BookingId) (session : Option ClientId) (queue : Bool) (spelling : Spelling)
  | rescheduleBooking (req : RescheduleRequest) (nowUtc : Option Instant) (queue : Bool)

/-- The function a request calls. -/
def Request.program (fromColumn : Instant → Except JsError Instant) : Request → Program Reply
  | .createBooking req nowUtc queue => Chronos.createBooking req nowUtc queue
  | .cancelBooking id ifMatch session queue => Chronos.cancelBooking id ifMatch session queue
  | .confirmBooking id session => Chronos.confirmBooking id session
  | .declineBooking id session queue spelling => Chronos.declineBooking id session queue spelling
  | .rescheduleBooking req nowUtc queue => Chronos.rescheduleBooking fromColumn req nowUtc queue

/-- The request is about booking `id`. -/
def Request.About (id : BookingId) : Request → Prop
  | .createBooking .. => False
  | .cancelBooking id' .. => id' = id
  | .confirmBooking id' .. => id' = id
  | .declineBooking id' .. => id' = id
  | .rescheduleBooking req .. => req.bookingId = id

/-- How far a call has come: nothing is committed, `cancelBooking` has read booking `b`, or
    the call has committed (with the id of the booking it has inserted). -/
inductive Progress
  | begun
  | hasRead (b : Booking)
  | done (id : Option BookingId)

/-- The call has not committed anything. -/
def Progress.Open (g : Progress) : Prop := ∀ x, g ≠ .done x

/-- `nowUtc || clock.now()`, read where nothing is committed yet. -/
def Progress.EffectiveNow (env : Progress → Database → Env Nat JsError Ask.Answer → Prop)
    (nowUtc : Option Instant) (now : Instant) : Prop :=
  (∀ t, nowUtc = some t → now = t) ∧
    (nowUtc = none → ∃ d e, env .begun d e ∧ e.answer .now = now)

/-- The moves of a call when transactions are atomic. -/
inductive Request.Moves (cat : Catalog) (fromColumn : Instant → Except JsError Instant)
    (adm : Stmt → Database → Prop)
    (env : Progress → Database → Env Nat JsError Ask.Answer → Prop)
    (know : Progress → Database → Prop) :
    Request → Progress → Database → List Write → Progress → Prop
  | stay {req g d} : Moves cat fromColumn adm env know req g d [] g
  | read {id ifMatch session queue d b} : CancelRead id ifMatch session d b →
      Moves cat fromColumn adm env know (.cancelBooking id ifMatch session queue) .begun d [] (.hasRead b)
  | createBooking {req nowUtc queue now hours d row reminders id ws} :
      Progress.EffectiveNow env nowUtc now → req.Checked cat (env .begun) (know .begun) hours →
      NewBooking cat req now (now + hoursMs hours) d row reminders id ws →
      Moves cat fromColumn adm env know (.createBooking req nowUtc queue) .begun d ws (.done (some id))
  | cancelBooking {id ifMatch session queue d b} : b.status = .booked →
      adm (.cancelBookingRow id) d →
      Moves cat fromColumn adm env know (.cancelBooking id ifMatch session queue) (.hasRead b) d
        (cancelWrites d id b.slotId) (.done none)
  | confirmBooking {id session d row status ws} :
      OwnerUpdate id session checkBooked "completed" d row status ws →
      Moves cat fromColumn adm env know (.confirmBooking id session) .begun d ws (.done none)
  | declineBooking {id session queue spelling d row status ws} :
      OwnerUpdate id session checkBooked "cancelled" d row status ws →
      Moves cat fromColumn adm env know (.declineBooking id session queue spelling) .begun d ws
        (.done none)
  | rescheduleBooking {req nowUtc queue now d old slot reminders newId ws} :
      Progress.EffectiveNow env nowUtc now →
      GuardedMove cat fromColumn req now d old slot reminders newId ws →
      Moves cat fromColumn adm env know (.rescheduleBooking req nowUtc queue) .begun d ws
        (.done (some newId))
  | remind {req x d ws b} : (∀ w ∈ ws, w.OnReminders b) →
      Moves cat fromColumn adm env know req (.done x) d ws (.done x)

/-- How a call ends. -/
def Request.Ends (c : Contract Ask.Answer Stmt Database Write Nat JsError Progress) :
    Request → Progress → Except JsError Reply → Prop
  | .createBooking .. => CreateEnds c .begun fun id g => g = .done (some id)
  | .cancelBooking .. => CancelEnds .begun (fun b g => g = .hasRead b) fun g => g = .done none
  | .confirmBooking .. => UpdateEnds .begun fun g => g = .done none
  | .declineBooking .. => UpdateEnds .begun fun g => g = .done none
  | .rescheduleBooking .. => RescheduleEnds .begun fun id g => g = .done (some id)

section Moves

variable {cat : Catalog} {fromColumn : Instant → Except JsError Instant}
variable {adm : Stmt → Database → Prop} {req : Request} {g g' : Progress} {d : Database}
variable {env : Progress → Database → Env Nat JsError Ask.Answer → Prop}
variable {know : Progress → Database → Prop} {ws : List Write}

/-- A call that goes on to be open has written nothing. -/
theorem Request.Moves.writes_of_open (h : req.Moves cat fromColumn adm env know g d ws g')
    (hopen : g'.Open) : ws = [] ∧ g.Open := by
  cases h with
  | stay => exact ⟨rfl, hopen⟩
  | read _ => exact ⟨rfl, fun x hx => by cases hx⟩
  | createBooking _ _ _ => exact absurd rfl (hopen _)
  | cancelBooking _ _ => exact absurd rfl (hopen _)
  | confirmBooking _ => exact absurd rfl (hopen _)
  | declineBooking _ => exact absurd rfl (hopen _)
  | rescheduleBooking _ _ => exact absurd rfl (hopen _)
  | remind _ => exact absurd rfl (hopen _)

/-- A booking keeps its slot and its client. -/
def Booking.SameOwner (b b' : Booking) : Prop := b'.slotId = b.slotId ∧ b'.clientId = b.clientId

/-- Bookings stay, on their slot and with their client. -/
theorem Request.Moves.booking_stays (h : req.Moves cat fromColumn adm env know g d ws g') {i : BookingId}
    {b : Booking} (hb : d.bookings.lookup i = some b) :
    ∃ b', ((chronos cat).apply ws d).bookings.lookup i = some b' ∧ b.SameOwner b' := by
  -- A new status leaves the other columns.
  have hstatus : ∀ {id : BookingId} {row : Booking} {status version reopen},
      d.bookings.lookup id = some row →
      ∃ b', ((chronos cat).apply (statusWrites d id row status version reopen) d).bookings.lookup i =
        some b' ∧ b.SameOwner b' := by
    intro id row status version reopen hrow
    by_cases hi : i = id
    · rw [hi, hrow] at hb
      rw [lookup_booking_statusWrites, if_pos hi, ← Option.some.inj hb]
      exact ⟨_, rfl, rfl, rfl⟩
    · exact ⟨b, by rw [lookup_booking_statusWrites, if_neg hi]; exact hb, rfl, rfl⟩
  -- An inserted booking is another one.
  have hfresh : ∀ {id : BookingId}, d.bookings.lookup id = none → i ≠ id := by
    rintro id hnone rfl
    rw [hnone] at hb
    cases hb
  cases h with
  | stay => exact ⟨b, hb, rfl, rfl⟩
  | read _ => exact ⟨b, hb, rfl, rfl⟩
  | createBooking _ _ hnew =>
    exact ⟨b, by rw [hnew.bookings, if_neg (hfresh hnew.fresh)]; exact hb, rfl, rfl⟩
  | cancelBooking _ _ =>
    rw [lookup_booking_cancelWrites]
    split
    · next hi =>
      rw [← hi, hb]
      exact ⟨_, rfl, rfl, rfl⟩
    · exact ⟨b, hb, rfl, rfl⟩
  | confirmBooking hupdate =>
    rw [hupdate.writes]
    exact hstatus hupdate.booking
  | declineBooking hupdate =>
    rw [hupdate.writes]
    exact hstatus hupdate.booking
  | rescheduleBooking _ hmove =>
    rw [hmove.bookings, if_neg (hfresh hmove.fresh)]
    split
    · next hi =>
      rw [hi, hmove.booking] at hb
      rw [← Option.some.inj hb]
      exact ⟨_, rfl, rfl, rfl⟩
    · exact ⟨b, hb, rfl, rfl⟩
  | remind hws => exact ⟨b, by rw [(sameBut_apply hws).bookings]; exact hb, rfl, rfl⟩

/-- No request makes a second booking live on a slot. -/
theorem Request.Moves.oneLive (h : req.Moves cat fromColumn adm env know g d ws g') (hd : d.OneLive) :
    ((chronos cat).apply ws d).OneLive := by
  have hstatus : ∀ {id : BookingId} {row : Booking} {status version reopen},
      d.bookings.lookup id = some row → row.status = .booked →
      ((chronos cat).apply (statusWrites d id row status version reopen) d).OneLive := by
    intro id row status version reopen hrow hbooked s i k hi hk
    -- Who is live now was live before.
    have hbefore : ∀ n, ((chronos cat).apply (statusWrites d id row status version reopen) d).LiveOn
        s n → d.LiveOn s n := by
      intro n hn
      rw [liveOn_statusWrites] at hn
      rcases hn with ⟨rfl, -, rfl⟩ | ⟨-, hn⟩
      · exact ⟨row, hrow, by simp [Booking.live, hbooked], rfl⟩
      · exact hn
    exact hd s i k (hbefore i hi) (hbefore k hk)
  cases h with
  | stay => exact hd
  | read _ => exact hd
  | createBooking _ _ hnew =>
    intro s i k hi hk
    rw [hnew.liveOn] at hi hk
    rcases hi with ⟨rfl, rfl⟩ | ⟨-, hi⟩ <;> rcases hk with ⟨rfl, hs⟩ | ⟨-, hk⟩
    · rfl
    · exact absurd hk (hnew.free k)
    · exact absurd (hs ▸ hi) (hnew.free i)
    · exact hd s i k hi hk
  | cancelBooking _ _ =>
    intro s i k hi hk
    rw [liveOn_cancelWrites] at hi hk
    exact hd s i k hi.2 hk.2
  | confirmBooking hupdate =>
    rw [hupdate.writes]
    exact hstatus hupdate.booking (checkBooked_none hupdate.checked)
  | declineBooking hupdate =>
    rw [hupdate.writes]
    exact hstatus hupdate.booking (checkBooked_none hupdate.checked)
  | rescheduleBooking _ hmove =>
    intro s i k hi hk
    rw [hmove.liveOn] at hi hk
    rcases hi with ⟨rfl, rfl⟩ | ⟨-, hold, hi⟩ <;> rcases hk with ⟨rfl, hs⟩ | ⟨-, hold', hk⟩
    · rfl
    · exact absurd hk (hmove.free k hold')
    · exact absurd (hs ▸ hi) (hmove.free i hold)
    · exact hd s i k hi hk
  | remind hws =>
    intro s i k hi hk
    rw [liveOn_of_bookings (sameBut_apply hws).bookings] at hi hk
    exact hd s i k hi hk

/-- Calls that have not committed have written nothing. -/
def Quiet {ι : Type} (j : List (ι × Write)) (G : ι → Progress) : Prop :=
  ∀ i, (G i).Open → ∀ e ∈ j, e.1 ≠ i

variable {ι : Type} [DecidableEq ι] {j : List (ι × Write)} {G : ι → Progress} {i : ι}

theorem Quiet.move (h : Quiet j G) (hm : req.Moves cat fromColumn adm env know (G i) d ws g') :
    Quiet (j ++ ws.map (i, ·)) (Function.update G i g') := by
  intro i' hopen e he
  by_cases hi : i' = i
  · subst hi
    rw [Function.update_self] at hopen
    obtain ⟨rfl, hopen'⟩ := hm.writes_of_open hopen
    exact h i' hopen' e (by simpa using he)
  · rw [Function.update_of_ne hi] at hopen
    rcases List.mem_append.mp he with he | he
    · exact h i' hopen e he
    · obtain ⟨w, -, rfl⟩ := List.mem_map.mp he
      exact Ne.symm hi

end Moves

/-! ### The programs make these moves -/

section Keeps

variable {cat : Catalog} {fromColumn : Instant → Except JsError Instant}

/-- What `cancelBooking` may rely on when it opens a slot: it is the slot of the booking it
    has read, and its transaction runs on a state where that booking may be cancelled. -/
def Request.Sends (adm : Stmt → Database → Prop) (know : Progress → Database → Prop) :
    Request → Progress → Database → Stmt → Prop
  | .cancelBooking id .., g, d, .openSlot s =>
      ∃ b, g = .hasRead b ∧ s = b.slotId ∧ know g d ∧ adm (.cancelBookingRow id) d
  | _, _, _, _ => True

/-- The contract of a request, with what it relies on. -/
def Request.contract (cat : Catalog) (fromColumn : Instant → Except JsError Instant)
    (adm : Stmt → Database → Prop) (env : Progress → Database → Env Nat JsError Ask.Answer → Prop)
    (know : Progress → Database → Prop) (req : Request) :
    Contract Ask.Answer Stmt Database Write Nat JsError Progress where
  adm := adm
  env := env
  know := know
  move := req.Moves cat fromColumn adm env know
  send := fun g d _ s => req.Sends adm know g d s

variable {adm : Stmt → Database → Prop}

theorem ok_request (hadm : LocalTo cat adm) (req : Request) :
    (req.program fromColumn).Ok (chronos cat) value adm .free := by
  cases req with
  | createBooking req nowUtc queue => exact ok_createBooking hadm req nowUtc queue
  | cancelBooking id ifMatch session queue => exact ok_cancelBooking hadm id ifMatch session queue
  | confirmBooking id session => exact ok_confirmBooking hadm id session
  | declineBooking id session queue spelling => exact ok_declineBooking hadm id session queue spelling
  | rescheduleBooking req nowUtc queue => exact ok_rescheduleBooking hadm nowUtc queue

variable {env : Progress → Database → Env Nat JsError Ask.Answer → Prop}
variable {know : Progress → Database → Prop} {req : Request}

/-- A move of a request leads to its new progress. -/
theorem Request.Moves.next {g g' : Progress} {d : Database} {ws : List Write}
    {φ : Progress → Prop} (h : req.Moves cat fromColumn adm env know g d ws g') (hφ : φ g') :
    (req.contract cat fromColumn adm env know).Next g d ws φ := ⟨g', h, hφ⟩

theorem Request.contract_stays (g : Progress) (d : Database) :
    (req.contract cat fromColumn adm env know).move g d [] g := Request.Moves.stay

/-- After its commit a request may write reminder rows. -/
theorem Request.contract_reminds {x : Option BookingId} {g : Progress} {d : Database}
    {ws : List Write} {b : BookingId} (hg : g = .done x) (hws : ∀ w ∈ ws, w.OnReminders b) :
    (req.contract cat fromColumn adm env know).Next g d ws fun g' => g' = .done x :=
  Request.Moves.next (hg ▸ .remind hws) hg

/-- **Requests make only their moves.** -/
theorem keeps_request (req : Request) :
    (req.program fromColumn).Keeps (chronos cat) (req.contract cat fromColumn adm env know)
      (Contract.post (req.contract cat fromColumn adm env know)
        (req.Ends (req.contract cat fromColumn adm env know))) .free .begun := by
  cases req with
  | createBooking req nowUtc queue =>
    exact keeps_createBooking (fun d _ => Request.contract_stays _ d) (fun _ _ _ _ => trivial)
      (fun now hours d row reminders id ws hnow hfits _ hnew =>
        Request.Moves.next (.createBooking hnow hfits hnew) rfl)
      fun id g d ws hg _ hws => Request.contract_reminds hg hws
  | cancelBooking id ifMatch session queue =>
    refine keeps_cancelBooking (fun d _ => Request.contract_stays _ d)
      (fun d b _ hread => Request.Moves.next (.read hread) rfl)
      (fun b g d _ _ => Request.contract_stays g d) (fun g d ws s hs => ?_)
      (fun b g d ws hg hk hadm => ⟨b, hg, rfl, hk, hadm⟩)
      (fun b g d hg _ hadm hallowed => ?_)
      fun g d ws hg _ hws => Request.contract_reminds hg hws
    · -- Every other statement is sent without a condition.
      cases s <;> first
        | exact trivial
        | exact absurd rfl (hs _)
    · obtain ⟨_, _, _, _, _, _, _, _, _, hok⟩ := hallowed
      have hbooked : b.status = .booked := (evaluateCancellation_allowed.mp hok).1
      exact Request.Moves.next (hg ▸ .cancelBooking hbooked hadm) rfl
  | confirmBooking id session =>
    exact keeps_confirmBooking (fun d _ => Request.contract_stays _ d) (fun _ _ _ _ => trivial)
      (fun d row status ws _ hupdate => Request.Moves.next (.confirmBooking hupdate) rfl)
      fun g d hg _ => Request.contract_reminds (b := 0) hg (by simp)
  | declineBooking id session queue spelling =>
    exact keeps_declineBooking (fun d _ => Request.contract_stays _ d) (fun _ _ _ _ => trivial)
      (fun d row status ws _ hupdate => Request.Moves.next (.declineBooking hupdate) rfl)
      fun g d ws hg _ hws => Request.contract_reminds hg hws
  | rescheduleBooking req nowUtc queue =>
    refine keeps_rescheduleBooking (fun d _ => Request.contract_stays _ d) (fun _ _ _ _ => trivial)
      (fun now d old slot reminders id ws hnow _ _ hmove =>
        Request.Moves.next (.rescheduleBooking hnow hmove) rfl)
      fun id g d ws hg _ hws => ?_
    exact hws.elim (Request.contract_reminds hg) (Request.contract_reminds hg)

end Keeps

/-! ### Any number of calls -/

/-- Calls at work on one database, each statement on a connection out of `C`. -/
abbrev Service (C ι : Type) := World Stmt.Rows Ask.Answer JsError Reply Database Write Lock C ι

section Service

variable {cat : Catalog} {fromColumn : Instant → Except JsError Instant} {C ι : Type}
variable {adm : ι → Stmt → Database → Prop}
variable {env : ι → Progress → Database → Env Nat JsError Ask.Answer → Prop}
variable {know : ι → Progress → Database → Prop}
variable {J : Database → List (ι × Write) → (ι → Progress) → Prop}

/-- All requests at their start. -/
def Service.start (fromColumn : Instant → Except JsError Instant) (d : Database)
    (reqs : ι → Request) : Service C ι :=
  World.init d fun i => (reqs i).program fromColumn

/-- The contracts of all requests. -/
def contracts (cat : Catalog) (fromColumn : Instant → Except JsError Instant)
    (adm : ι → Stmt → Database → Prop)
    (env : ι → Progress → Database → Env Nat JsError Ask.Answer → Prop)
    (know : ι → Progress → Database → Prop) (reqs : ι → Request) (i : ι) :
    Contract Ask.Answer Stmt Database Write Nat JsError Progress :=
  (reqs i).contract cat fromColumn (adm i) (env i) (know i)

/-- Requests keep their contracts from the start. -/
theorem modular_start (hadm : ∀ i, LocalTo cat (adm i)) {reqs : ι → Request} {d : Database}
    (hJ : J d [] fun _ => .begun) :
    Modular (chronos cat) value (contracts cat fromColumn adm env know reqs)
      (fun i => (reqs i).Ends (contracts cat fromColumn adm env know reqs i)) J
      (Service.start fromColumn d reqs : Service C ι)
      (fun i => (.free, (reqs i).program fromColumn)) fun _ => .begun :=
  modular_init (fun i => ok_request (hadm i) (reqs i)) (fun i => keeps_request (reqs i)) hJ

end Service

/-! ### Runs on connections of their own -/

/-- One step for each element of `order`, every call on its own connection. -/
def ownSteps {ι : Type} (env : ι → Env Nat JsError Ask.Answer) (order : List ι) :
    List (Label Ask.Answer Nat JsError ι ι) :=
  order.map fun i => ⟨i, i, env i⟩

/-- A list of steps on own connections, executed, is an exclusive run in calm surroundings. -/
theorem reaches_ownSteps {cat : Catalog} {ι α : Type} [DecidableEq ι] {d : Database}
    {prog : ι → Program α} {env : ι → Env Nat JsError Ask.Answer} (henv : ∀ i, Calm (env i))
    {P : World Stmt.Rows Ask.Answer JsError α Database Write Lock ι ι →
      Label Ask.Answer Nat JsError ι ι → Prop}
    {check : World Stmt.Rows Ask.Answer JsError α Database Write Lock ι ι →
      Label Ask.Answer Nat JsError ι ι → Bool}
    (hcheck : ∀ w l, check w l = true → P w l) {order : List ι}
    {w : World Stmt.Rows Ask.Answer JsError α Database Write Lock ι ι}
    (h : World.run (chronos cat) check (World.init d prog) (ownSteps env order) = some w) :
    Reaches (chronos cat) (fun w l => (P w l ∧ Calm l.env) ∧ Exclusive w l) (World.init d prog)
      w := by
  refine exclusive_of_dedicated Function.injective_id
    (reaches_of_run (P := fun w l => (P w l ∧ Calm l.env) ∧ Dedicated id l)
      (fun w l hl hw => ?_) h)
  obtain ⟨i, -, rfl⟩ := List.mem_map.mp hl
  exact ⟨⟨hcheck _ _ hw, henv i⟩, rfl⟩

end Chronos
