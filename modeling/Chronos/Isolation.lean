import Chronos.Operations
import Chronos.ReadCommitted.Unseen

namespace Chronos

open ReadCommitted ReadCommitted.Prog

/-!
# Clients see their own bookings

The two endpoints of `BookingsController` that read, `GET /bookings` and `GET /bookings/:id`,
and what all seven endpoints tell a client about the bookings of others: which ids there are.

Two sets of tables that agree for a client (`AgreeFor`) give the same answers to every request
of the client that is not about a booking of its own, and keep what they hold
(`controller_isolates_clients`).
-/

/-! ### The endpoints that read -/

/-- The tables, with the column `bookings.created_at`, which no other statement reads. -/
structure Tables where
  db : Database
  createdAt : BookingId → Instant

/-- A booking as `getBooking` and `listBookings` show it. -/
structure BookingDetails where
  id : BookingId
  bookingId : BookingId
  status : BookingStatus
  version : Int
  clientTimezone : String
  slotStartUtc : Instant
  slotEndUtc : Instant
  deriving DecidableEq

inductive Response
  | reply (r : Reply)
  | booking (b : BookingDetails)
  | bookings (bs : List BookingDetails)
  deriving DecidableEq

/-- `bookings b JOIN slots s ON b.slot_id = s.id`. -/
def joinSlot (d : Database) (id : BookingId) (b : Booking) : Option BookingDetails :=
  (d.slots.lookup b.slotId).map fun s =>
    ⟨id, id, b.status, b.version, b.clientTimezone, s.slotStartUtc, s.slotEndUtc⟩

/-- `GET /bookings/:id`. -/
def Tables.getBooking (t : Tables) (id : BookingId) (sessionClientId : ClientId) : Response :=
  match (t.db.bookings.lookup id).filter fun b => decide (b.clientId = sessionClientId) with
  | none => .reply (.refused 404 "not_found")
  | some b =>
    match joinSlot t.db id b with
    | none => .reply (.refused 404 "not_found")
    | some r => .booking r

/-- The rows of a client, in the order in which they are stored. -/
def rowsOf (d : Database) (client : ClientId) : List ((_ : BookingId) × Booking) :=
  d.bookings.entries.filter fun e => decide (e.2.clientId = client)

/-- `GET /bookings`, `ORDER BY b.created_at DESC`; rows with one time stay in their order. -/
def Tables.listBookings (t : Tables) (sessionClientId : ClientId) : Response :=
  let rows := (rowsOf t.db sessionClientId).filterMap fun e =>
    (joinSlot t.db e.1 e.2).map fun r => (t.createdAt e.1, r)
  .bookings ((rows.mergeSort fun a b => decide (b.1 ≤ a.1)).map Prod.snd)

/-! ### Requests -/

/-- A request to `BookingsController` other than `POST /bookings`. -/
inductive BookingsRequest
  | list
  | get (id : BookingId)
  | status (id : BookingId) (text : String) (spelling : Spelling)
  | reschedule (id : BookingId) (body : RescheduleBody)
  | cancel (id : BookingId) (ifMatch : Option String)
  | confirm (id : BookingId)
  | decline (id : BookingId) (spelling : Spelling)

/-- The booking a request is about. -/
def BookingsRequest.target : BookingsRequest → Option BookingId
  | .list => none
  | .get id => some id
  | .status id .. => some id
  | .reschedule id _ => some id
  | .cancel id _ => some id
  | .confirm id => some id
  | .decline id _ => some id

section Serve

variable (cat : Catalog) (fromColumn : Instant → Except JsError Instant) (queue : Bool)

/-- What is left of a request after some moves: its response, if there is one, and the tables. -/
abbrev Served := Option (Except JsError Response) × Tables

/-- One query through the pool. -/
def serveQuery (response : Response) (t : Tables) : List (Env Nat JsError Ask.Answer) → Option Served
  | [] => some (none, t)
  | [env] => some (some (match env.fault with
      | some e => .error e
      | none => .ok response), t)
  | _ => none

/-- The moves of an endpoint that nobody disturbs. -/
def serveProgram (p : Program Reply) (t : Tables) (envs : List (Env Nat JsError Ask.Answer)) :
    Option Served :=
  (runAlone (chronos cat) envs .idle t.db p).map fun (_, db, q) =>
    (q.result.map fun r => r.map Response.reply, { t with db := db })

/-- A request with session `client`, served as far as `envs` goes. -/
def BookingsRequest.serve (client : ClientId) (t : Tables) (envs : List (Env Nat JsError Ask.Answer)) :
    BookingsRequest → Option Served
  | .list => serveQuery (t.listBookings client) t envs
  | .get id => serveQuery (t.getBooking id client) t envs
  | .status id text spelling =>
      serveProgram cat (updateStatus id text (some client) queue spelling) t envs
  | .reschedule id body =>
      serveProgram cat (rescheduleEndpoint fromColumn id body (some client) queue) t envs
  | .cancel id ifMatch => serveProgram cat (cancelBooking id ifMatch (some client) queue) t envs
  | .confirm id => serveProgram cat (confirmBooking id (some client)) t envs
  | .decline id spelling =>
      serveProgram cat (declineBooking id (some client) queue spelling) t envs

end Serve

/-! ### What a client can tell apart -/

/-- The two sets of tables have the same rows for the client, and the same bookings of others with
    the same owners; all else may differ. -/
structure AgreeFor (client : ClientId) (t₁ t₂ : Tables) : Prop where
  rows : rowsOf t₁.db client = rowsOf t₂.db client
  created : ∀ e ∈ rowsOf t₁.db client, t₁.createdAt e.1 = t₂.createdAt e.1
  slots : ∀ e ∈ rowsOf t₁.db client, t₁.db.slots.lookup e.2.slotId = t₂.db.slots.lookup e.2.slotId
  owners : ∀ id, (t₁.db.bookings.lookup id).map Booking.clientId =
    (t₂.db.bookings.lookup id).map Booking.clientId

/-- The request is not about a booking of the client. -/
def BookingsRequest.Foreign (req : BookingsRequest) (client : ClientId) (t : Tables) : Prop :=
  ∀ id, req.target = some id → ∀ b, t.db.bookings.lookup id = some b → b.clientId ≠ client

/-- The requests answer alike over both tables and change nothing. -/
def Alike (serve : Tables → Option Served) (t₁ t₂ : Tables) : Prop :=
  (serve t₁).map Prod.fst = (serve t₂).map Prod.fst ∧
    (∀ r t, serve t₁ = some (r, t) → t = t₁) ∧ ∀ r t, serve t₂ = some (r, t) → t = t₂

theorem alike_serveQuery (response : Tables → Response) {t₁ t₂ : Tables}
    (h : response t₁ = response t₂) (envs : List (Env Nat JsError Ask.Answer)) :
    Alike (fun t => serveQuery (response t) t envs) t₁ t₂ := by
  unfold Alike
  dsimp only
  match envs with
  | [] => exact ⟨rfl, fun _ _ h => ((Prod.mk.inj (Option.some.inj h)).2).symm,
      fun _ _ h => ((Prod.mk.inj (Option.some.inj h)).2).symm⟩
  | [env] =>
    refine ⟨?_, fun _ _ h => ((Prod.mk.inj (Option.some.inj h)).2).symm,
      fun _ _ h => ((Prod.mk.inj (Option.some.inj h)).2).symm⟩
    unfold serveQuery
    rw [h]
    rfl
  | _ :: _ :: _ => exact ⟨rfl, (fun _ _ h => by cases h), fun _ _ h => by cases h⟩

section Programs

variable {cat : Catalog} {t₁ t₂ : Tables} {client : ClientId} {id : BookingId}

theorem alike_serveProgram {p : Program Reply} (hp : p.Unseen (chronos cat) t₁.db t₂.db)
    (envs : List (Env Nat JsError Ask.Answer)) :
    Alike (fun t => serveProgram cat p t envs) t₁ t₂ := by
  have hrun := hp.runAlone (σ := .idle) trivial envs
  unfold Alike serveProgram
  dsimp only
  rcases hrun with ⟨h₁, h₂⟩ | ⟨σ, q, h₁, h₂⟩
  · rw [h₁, h₂]
    exact ⟨rfl, (fun _ _ h => by cases h), fun _ _ h => by cases h⟩
  · rw [h₁, h₂]
    refine ⟨rfl, fun _ _ h => ?_, fun _ _ h => ?_⟩
    · exact ((Prod.mk.inj (Option.some.inj h)).2).symm
    · exact ((Prod.mk.inj (Option.some.inj h)).2).symm

/-- A booking that is not the client's: missing in both, or of another client in both. -/
theorem foreign_cases (howner : (t₁.db.bookings.lookup id).map Booking.clientId =
      (t₂.db.bookings.lookup id).map Booking.clientId)
    (hforeign : ∀ b, t₁.db.bookings.lookup id = some b → b.clientId ≠ client) :
    (t₁.db.bookings.lookup id = none ∧ t₂.db.bookings.lookup id = none) ∨
      ∃ b₁ b₂, t₁.db.bookings.lookup id = some b₁ ∧ t₂.db.bookings.lookup id = some b₂ ∧
        b₁.clientId ≠ client ∧ b₂.clientId ≠ client := by
  cases h₁ : t₁.db.bookings.lookup id with
  | none =>
    rw [h₁] at howner
    exact .inl ⟨rfl, Option.map_eq_none_iff.mp howner.symm⟩
  | some b₁ =>
    rw [h₁] at howner
    obtain ⟨b₂, h₂, hsame⟩ := Option.map_eq_some_iff.mp howner.symm
    exact .inr ⟨b₁, b₂, rfl, h₂, hforeign b₁ h₁, fun heq => hforeign b₁ h₁ (hsame ▸ heq)⟩

theorem unseen_perform {e : Effect} (he : ∀ x, noted (.effect e) x = []) :
    (perform e).Unseen (chronos cat) t₁.db t₂.db := by
  refine ⟨he, fun x => ?_⟩
  cases x with
  | ok a => trivial
  | error e => trivial

theorem unseen_refuse (r : Reply) : (Prog.control .rollback (ret r) Prog.throw : Program Reply).Unseen
    (chronos cat) t₁.db t₂.db :=
  ⟨trivial, fun _ => trivial⟩

/-- A transaction of an owner comes to nothing for anybody else. -/
theorem unseen_updateAsOwner (howner : (t₁.db.bookings.lookup id).map Booking.clientId =
      (t₂.db.bookings.lookup id).map Booking.clientId)
    (hforeign : ∀ b, t₁.db.bookings.lookup id = some b → b.clientId ≠ client)
    (check : Booking → Option Reply) (text : String) (afterCommit : Program Unit) :
    (updateAsOwner id (some client) check text afterCommit).Unseen (chronos cat) t₁.db t₂.db := by
  unfold updateAsOwner
  refine (unseen_perform fun _ => rfl).bind fun _ => ?_
  refine Unseen.tryFinally (Unseen.tryCatch ⟨⟨fun o => ?_, fun _ => trivial⟩, fun _ => trivial⟩
    fun e => ⟨trivial, fun _ => trivial⟩) (unseen_perform fun _ => rfl)
  have hresult : ∀ d : Database, ((chronos cat).exec (.selectBookingForUpdate id) o d).result =
      .ok (d.bookings.lookup id, []) := fun d => by
    show (exec cat (.selectBookingForUpdate id) o d).result = _
    exact exec_selectBookingForUpdate id o
  refine ⟨_, _, hresult _, hresult _, ?_⟩
  rcases foreign_cases howner hforeign with ⟨h₁, h₂⟩ | ⟨b₁, b₂, h₁, h₂, hb₁, hb₂⟩
  · rw [h₁, h₂]
    exact ⟨rfl, unseen_refuse _⟩
  · rw [h₁, h₂]
    simp only [andThen, if_pos hb₁, if_pos hb₂]
    exact ⟨trivial, unseen_refuse _⟩

/-- A program that reads a booking and sends everybody but its owner away. -/
theorem unseen_selectBooking (howner : (t₁.db.bookings.lookup id).map Booking.clientId =
      (t₂.db.bookings.lookup id).map Booking.clientId)
    (hforeign : ∀ b, t₁.db.bookings.lookup id = some b → b.clientId ≠ client)
    (rest : Booking → Program Reply) :
    (Prog.bind (dbQuery (.selectBooking id)) fun
      | none => ret (.refused 404 "not_found")
      | some b => if b.clientId ≠ client then ret (.refused 403 "unauthorized") else rest b).Unseen
      (chronos cat) t₁.db t₂.db := by
  refine ⟨fun o => ⟨_, _, rfl, rfl, ?_⟩, fun _ => trivial⟩
  rcases foreign_cases howner hforeign with ⟨h₁, h₂⟩ | ⟨b₁, b₂, h₁, h₂, hb₁, hb₂⟩
  · rw [h₁, h₂]
    exact ⟨rfl, trivial⟩
  · rw [h₁, h₂]
    simp only [andThen, if_pos hb₁, if_pos hb₂]
    exact ⟨trivial, trivial⟩

end Programs

section Reads

variable {t₁ t₂ : Tables} {client : ClientId}

/-- `GET /bookings` shows what is in the client's own rows. -/
theorem listBookings_agree (hagree : AgreeFor client t₁ t₂) :
    t₁.listBookings client = t₂.listBookings client := by
  have hrows : (rowsOf t₁.db client).filterMap (fun e =>
      (joinSlot t₁.db e.1 e.2).map fun r => (t₁.createdAt e.1, r)) =
      (rowsOf t₂.db client).filterMap fun e =>
        (joinSlot t₂.db e.1 e.2).map fun r => (t₂.createdAt e.1, r) := by
    rw [← hagree.rows]
    refine List.filterMap_congr fun e he => ?_
    unfold joinSlot
    rw [hagree.slots e he, hagree.created e he]
  unfold Tables.listBookings
  dsimp only
  rw [hrows]

/-- `GET /bookings/:id` finds nothing where the client owns nothing. -/
theorem getBooking_foreign {t : Tables} {id : BookingId}
    (hforeign : ∀ b, t.db.bookings.lookup id = some b → b.clientId ≠ client) :
    t.getBooking id client = .reply (.refused 404 "not_found") := by
  unfold Tables.getBooking
  cases h : t.db.bookings.lookup id with
  | none => rfl
  | some b =>
    have hne : (decide (b.clientId = client)) = false := decide_eq_false (hforeign b h)
    rw [Option.filter_some_neg (by simp [hne])]

end Reads

/-! ### The controller -/

/-- **Isolation.**  Over two sets of tables that agree for a client, a request of the client that is
    not about a booking of its own is answered alike, and changes neither the tables nor the
    queue of the reminders. -/
theorem controller_isolates_clients (cat : Catalog)
    (fromColumn : Instant → Except JsError Instant) (queue : Bool) (client : ClientId)
    (t₁ t₂ : Tables) (hagree : AgreeFor client t₁ t₂) (req : BookingsRequest)
    (hforeign : req.Foreign client t₁) (envs : List (Env Nat JsError Ask.Answer)) :
    Alike (fun t => req.serve cat fromColumn queue client t envs) t₁ t₂ := by
  have howner := hagree.owners
  cases req with
  | list => exact alike_serveQuery (fun t => t.listBookings client) (listBookings_agree hagree) envs
  | get id =>
    have h₂ : ∀ b, t₂.db.bookings.lookup id = some b → b.clientId ≠ client := fun b hb => by
      rcases foreign_cases (howner id) (hforeign id rfl) with ⟨-, h⟩ | ⟨-, b₂, -, h, -, hne⟩
      · rw [h] at hb
        cases hb
      · exact (Option.some.inj (h.symm.trans hb)) ▸ hne
    refine alike_serveQuery (fun t => t.getBooking id client) ?_ envs
    rw [getBooking_foreign (hforeign id rfl), getBooking_foreign h₂]
  | status id text =>
    exact alike_serveProgram (unseen_updateAsOwner (howner id) (hforeign id rfl) _ _ _) envs
  | reschedule id body =>
    exact alike_serveProgram (unseen_selectBooking (howner id) (hforeign id rfl) _) envs
  | cancel id ifMatch =>
    exact alike_serveProgram (unseen_selectBooking (howner id) (hforeign id rfl) _) envs
  | confirm id =>
    exact alike_serveProgram (unseen_updateAsOwner (howner id) (hforeign id rfl) _ _ _) envs
  | decline id =>
    exact alike_serveProgram (unseen_updateAsOwner (howner id) (hforeign id rfl) _ _ _) envs

/-- Client `0` owns booking `1`; booking `0` is of client `1`, on some slot, with some status. -/
def neighboursTables (slotId : SlotId) (status : BookingStatus) : Tables where
  db :=
    { slots := ∅
      bookings := ((∅ : AList fun _ : BookingId => Booking).insert 1
        ⟨7, 0, "UTC", none, none, .booked, 1, none, none⟩).insert 0
          ⟨slotId, 1, "UTC", none, none, status, 1, none, none⟩
      reminderJobs := ∅
      idempotencyKeys := ∅ }
  createdAt := fun _ => 0

theorem neighbours_owners (slotId : SlotId) (status : BookingStatus) (id : BookingId) :
    ((neighboursTables slotId status).db.bookings.lookup id).map Booking.clientId =
      if id = 0 then some 1 else if id = 1 then some 0 else none := by
  unfold neighboursTables
  rcases eq_or_ne id 0 with rfl | h₀
  · rw [AList.lookup_insert]
    rfl
  · rw [AList.lookup_insert_ne h₀, if_neg h₀]
    rcases eq_or_ne id 1 with rfl | h₁
    · rw [AList.lookup_insert]
      rfl
    · rw [AList.lookup_insert_ne h₁, if_neg h₁]
      rfl

/-- Client `0` cannot tell by `POST /bookings/0/confirm` whether booking `0` is still booked. -/
theorem neighbours_isolated :
    Alike (fun t => (BookingsRequest.confirm 0).serve sampleCatalog Except.ok true 0 t
      (List.replicate 5 (calmEnv 0 0))) (neighboursTables 5 .booked)
      (neighboursTables 6 .cancelled) := by
  refine controller_isolates_clients sampleCatalog Except.ok true 0 (neighboursTables 5 .booked)
    (neighboursTables 6 .cancelled) ⟨rfl, fun _ _ => rfl, fun _ _ => rfl,
    fun id => (neighbours_owners 5 .booked id).trans (neighbours_owners 6 .cancelled id).symm⟩
    (.confirm 0) (fun id hid b hb => ?_) _
  obtain rfl : 0 = id := Option.some.inj hid
  have howner := neighbours_owners 5 .booked 0
  rw [hb] at howner
  have hother : b.clientId = 1 := Option.some.inj howner
  rw [hother]
  decide

end Chronos
