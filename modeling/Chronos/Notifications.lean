import Chronos.AllOrNothing
import Chronos.Attribution
import Chronos.ExactBooking
import Chronos.Reconcile
import Chronos.ReadCommitted.Vetting

namespace Chronos

open ReadCommitted ReadCommitted.Prog

/-!
# The notifications of `POST /bookings`

After `createBooking` the controller inserts a notification, whatever `createBooking` has answered.

* `Posted` — what one request comes to when nothing fails: a booking and its notification, or no
  change of the bookings, but a notification all the same if the slot exists.
* `yields_slotlessly` — a request for a slot that does not exist changes nothing and notifies
  nobody, whatever fails.
* `notified_once_iff` — a sequence of requests inserts one notification for each booking exactly
  when every request is accepted, or asks for a slot that does not exist.
-/

/-! ### Events and rows -/

/-- The bookings that the notifications inserted among some events are about. -/
def notified (tr : List (Event Stmt Ask.Answer JsError)) : List (Option BookingId) :=
  tr.filterMap fun ev => match ev with
    | .answered (.effect (.notifyProvider _ _ bookingId)) x =>
        match x with
        | .ok _ => some bookingId
        | .error _ => none
    | _ => none

@[simp] theorem notified_append (tr tr' : List (Event Stmt Ask.Answer JsError)) :
    notified (tr ++ tr') = notified tr ++ notified tr' := List.filterMap_append

@[simp] theorem notified_ran (s : Stmt) : notified [.ran s] = [] := rfl
@[simp] theorem notified_disturbed (e : JsError) : notified [.disturbed e] = [] := rfl
@[simp] theorem notified_now (now : Instant) : notified [.answered .now now] = [] := rfl

/-- The bookings that are in `d'` and not in `d`. -/
def newBookings (d d' : Database) : List BookingId :=
  d'.bookings.keys.filter fun i => decide (i ∉ d.bookings)

theorem mem_newBookings {d d' : Database} {i : BookingId} :
    i ∈ newBookings d d' ↔ (d'.bookings.lookup i).isSome = true ∧ d.bookings.lookup i = none := by
  unfold newBookings
  rw [List.mem_filter, decide_eq_true_eq, AList.lookup_isSome, AList.lookup_eq_none]
  exact Iff.rfl

theorem newBookings_self (d : Database) : newBookings d d = [] := by
  refine List.eq_nil_iff_forall_not_mem.mpr fun i hi => ?_
  obtain ⟨hsome, hnone⟩ := mem_newBookings.mp hi
  rw [hnone] at hsome
  cases hsome

/-- One booking is added. -/
theorem newBookings_eq_singleton {d d' : Database} {id : BookingId} {row : Booking}
    (hfresh : d.bookings.lookup id = none)
    (h : ∀ i, d'.bookings.lookup i = if i = id then some row else d.bookings.lookup i) :
    newBookings d d' = [id] := by
  have hnodup : (newBookings d d').Nodup := d'.bookings.keys_nodup.filter _
  refine List.perm_singleton.mp ((List.perm_ext_iff_of_nodup hnodup (List.nodup_singleton id)).mpr
    fun i => ?_)
  rw [mem_newBookings, h, List.mem_singleton]
  by_cases hi : i = id
  · rw [if_pos hi, hi]
    simp [hfresh]
  · rw [if_neg hi]
    refine iff_of_false ?_ hi
    rintro ⟨hsome, hnone⟩
    rw [hnone] at hsome
    cases hsome

/-! ### `createBooking` notifies nobody -/

/-- The question is not the insertion of a notification. -/
def Unannounced (a : Ask) : Prop := ∀ p c b, a ≠ .effect (.notifyProvider p c b)

section Unannounced

theorem unannounced_queueAdd {b : BookingId} {offset : Nat} {now : Instant} {delayMs : Int} :
    Unannounced (.queueAdd b offset now delayMs) := by
  intro p c b' h
  cases h

theorem follows_rollbackSilently : rollbackQuietly.Follows (.asking Unannounced) :=
  ⟨trivial, fun _ => trivial⟩

theorem follows_enqueueSilently {b : BookingId} {start now : Instant} (offsets : List Nat) :
    (enqueueForBooking b start now offsets).Follows (.asking Unannounced) := by
  induction offsets with
  | nil => exact trivial
  | cons offset offsets ih =>
    simp only [enqueueForBooking]
    split
    · exact ⟨trivial, fun _ _ => ih, fun _ => trivial⟩
    · refine ⟨trivial, fun found _ => ?_, fun _ => trivial⟩
      cases found with
      | false => exact ih
      | true =>
        refine ⟨unannounced_queueAdd, fun x _ => ?_⟩
        cases x with
        | ok u => exact ih
        | error e => exact trivial

theorem follows_enqueueRemindersSilently {s : SlotId} {b : BookingId} {now : Instant} :
    (enqueueReminders s b (pure now)).Follows (.asking Unannounced) := by
  refine ⟨trivial, fun slot _ => ?_, fun _ => trivial⟩
  cases slot with
  | none => exact trivial
  | some slot =>
    refine ⟨trivial, fun offsets _ => ?_, fun _ => trivial⟩
    simp only [andThen]
    split
    · exact follows_enqueueSilently offsets
    · exact trivial

theorem follows_insertRemindersSilently {b : BookingId} {start : Instant} (offsets : List Nat) :
    (insertReminders b start offsets).Follows (.asking Unannounced) := by
  induction offsets with
  | nil => exact trivial
  | cons offset offsets ih =>
    refine ⟨nofun, fun nowMs _ => ?_⟩
    simp only [andThen]
    split
    · exact ⟨trivial, fun _ _ => ih, fun _ => trivial⟩
    · exact ih

theorem follows_createBookingSilently (req : BookingRequest) (now : Instant) (queue : Bool) :
    (createBookingAt req now queue).Follows (.asking Unannounced) := by
  refine ((talks_configuredNoticeHours req).follows (fun _ _ => trivial) fun _ h => h.elim).bind
    fun hours => ?_
  refine ((talks_validateEventType req).follows (fun _ _ => trivial) fun _ h => h.elim).bind
    fun refusal => ?_
  cases refusal with
  | some refusal => exact trivial
  | none =>
    refine ((talks_checkIdempotencyKey req).follows (fun _ _ => trivial) fun _ h => h.elim).bind
      fun answer => ?_
    cases answer with
    | some answer => exact trivial
    | none =>
      refine Follows.tryCatch ⟨⟨trivial, fun slot _ => ?_, fun _ => trivial⟩, fun _ => trivial⟩
        fun e => follows_rollbackSilently.bind fun _ => trivial
      cases slot with
      | none => exact ⟨trivial, fun _ => trivial⟩
      | some slot =>
        refine ⟨trivial, fun b _ => ?_, fun _ => trivial⟩
        refine (follows_insertRemindersSilently reminderOffsets).bind fun _ => ?_
        have hkey : (insertIdempotencyKey req.clientId req.idempotencyKey req.json b).Follows
            (.asking Unannounced) := by
          unfold insertIdempotencyKey
          split
          · exact trivial
          · exact follows_query trivial
        refine hkey.bind fun _ => ⟨?_, fun _ => trivial⟩
        simp only [andThen]
        split
        · exact follows_enqueueRemindersSilently.bind fun _ => trivial
        · exact trivial

/-- A program that inserts no notification adds none to the events. -/
theorem yields_unannounced {cat : Catalog} {α : Type} {p : Program α}
    {P : Env Nat JsError Ask.Answer → Prop} {tr : List (Event Stmt Ask.Answer JsError)}
    {st : Place Database Write} (hp : p.Follows (.asking Unannounced)) :
    p.Yields (chronos cat) P (fun tr' _ _ => notified tr' = notified tr) tr st := by
  refine hp.yields (I := fun tr' => notified tr' = notified tr) (fun tr' ev htr' hev => ?_) rfl
  have hnone : notified [ev] = [] := by
    unfold notified
    rw [List.filterMap_cons_none, List.filterMap_nil]
    split
    · exact absurd rfl (hev _ _ rfl _ _ _)
    · rfl
  rw [notified_append, htr', hnone, List.append_nil]

end Unannounced

/-! ### One request -/

/-- Nothing fails, and the server draws an unused id. -/
structure Favourable (d : Database) (env : Env Nat JsError Ask.Answer) : Prop where
  calm : Calm env
  fresh : d.bookings.lookup env.fresh = none

/-- A reminder has its booking. -/
def Database.RemindsOfBookings (d : Database) : Prop :=
  ∀ k, d.bookings.lookup k.1 = none → d.reminderJobs.lookup k = none

/-- **A request that is accepted**: its booking is there, and nothing else has changed among the
    bookings. -/
structure Booked (cat : Catalog) (d : Database) (req : BookingRequest) (now : Instant)
    (id : BookingId) (d' : Database) : Prop where
  accepts : Accepts cat d req now
  fresh : d.bookings.lookup id = none
  bookings : ∀ i, d'.bookings.lookup i = if i = id then some req.booking else d.bookings.lookup i
  slot : (d'.slots.lookup req.slotId).isSome = true
  reminds : d'.RemindsOfBookings

/-- How `createBooking` ends. -/
def Concludes (cat : Catalog) (d : Database) (req : BookingRequest) (now : Instant)
    (st : Place Database Write) (r : Except JsError Reply) : Prop :=
  (∃ id, r = .ok (.created id false) ∧ ∃ d', st = .free d' ∧ Booked cat d req now id d') ∨
    ¬ Accepts cat d req now ∧ st = .free d ∧ ∃ reply, r = .ok reply

section Request

variable {cat : Catalog} {d : Database} {req : BookingRequest} {now : Instant} {queue : Bool}
variable {tr : List (Event Stmt Ask.Answer JsError)}

/-- Filling the queue changes no booking. -/
theorem yields_enqueueRemindersCalmly {P : Env Nat JsError Ask.Answer → Prop}
    (hP : ∀ env, P env → Calm env) {d₁ : Database} {slotId : SlotId} {id : BookingId} :
    (enqueueReminders slotId id (pure now)).Yields (chronos cat) P
      (fun _ st r => r = .ok () ∧ ∃ d', st = .free d' ∧ Requeued d₁ d') tr (.free d₁) := by
  have hfault : ∀ {env : Env Nat JsError Ask.Answer} {e}, P env → env.fault ≠ some e :=
    fun {env e} henv => (hP env henv).fault_ne e
  refine yields_read (fun _ => rfl) ?_ fun env e henv hf => absurd hf (hfault henv)
  simp only [andThen]
  split
  · exact ⟨rfl, d₁, rfl, Requeued.refl d₁⟩
  · refine yields_read (fun _ => rfl) ?_ fun env e henv hf => absurd hf (hfault henv)
    simp only [andThen]
    split
    · exact yields_enqueueCalmly hP _ _ _
    · exact ⟨rfl, d₁, rfl, Requeued.refl d₁⟩

theorem NewBooking.booked {minStart : Instant} {row : Slot} {reminders ws : List Write}
    {id : BookingId} (h : NewBooking cat req now minStart d row reminders id ws)
    (haccepts : Accepts cat d req now) (hforeign : d.RemindsOfBookings) {d' : Database}
    (hqueued : Requeued ((chronos cat).apply ws d) d') : Booked cat d req now id d' := by
  have hsame := hqueued.tables
  refine ⟨haccepts, h.fresh, fun i => ?_, ?_, fun k hk => ?_⟩
  · rw [hsame.bookings, h.bookings]
  · rw [hsame.slots, h.slots, if_pos rfl]
    rfl
  · rw [hsame.bookings] at hk
    exact hqueued.rows k (h.foreignKey hforeign k hk)

theorem concludes_createBooking (hforeign : d.RemindsOfBookings) :
    (createBookingAt req now queue).Yields (chronos cat) (Favourable d)
      (fun tr' st r => notified tr' = notified tr ∧ Concludes cat d req now st r) tr (.free d) := by
  refine (yields_unannounced (follows_createBookingSilently req now queue)).and ?_
  refine yields_createBookingCalmly cat (fun _ h => ⟨h.calm.1, h.fresh⟩) now queue tr hforeign
    (fun tr' reply _ _ hno => Or.inr ⟨hno, rfl, reply, rfl⟩) ?_
  intro tr' clocks id row ws haccepts _ _ hnew
  -- After the `COMMIT` only reminders change.
  cases queue with
  | false =>
    exact ⟨rfl, Or.inl ⟨id, rfl, _, rfl, hnew.booked haccepts hforeign (Requeued.refl _)⟩⟩
  | true =>
    refine (yields_enqueueRemindersCalmly fun _ h => h.calm).mono ?_
    rintro tr'' _ r ⟨rfl, d', rfl, hqueued⟩
    exact ⟨rfl, Or.inl ⟨id, rfl, _, rfl, hnew.booked haccepts hforeign hqueued⟩⟩

/-- **What one request comes to** when nothing fails.  `createBooking` is given the first reading of
    the clock. -/
def Posted (cat : Catalog) (d : Database) (req : BookingRequest)
    (tr : List (Event Stmt Ask.Answer JsError)) (st : Place Database Write)
    (r : Except JsError Reply) : Prop :=
  ∃ now, (readings tr).head? = some now ∧
    ((∃ id, r = .ok (.created id false) ∧ notified tr = [some id] ∧ Booked cat d req now id st.db) ∨
      ¬ Accepts cat d req now ∧ st.db = d ∧
        ((d.slots.lookup req.slotId).isSome = true → ∃ bookingId, notified tr = [bookingId]))

/-- The controller notifies the provider of the slot. -/
theorem yields_notifyNewBooking {result : Reply} :
    (notifyNewBooking req result).Yields (chronos cat) Calm
      (fun tr' st r => r = .ok () ∧ st = .free d ∧
        notified tr' = notified tr ++ if (d.slots.lookup req.slotId).isSome then
          [result.bookingId] else []) tr (.free d) := by
  refine yields_read (fun _ => rfl) ?_ fun env e henv hf => absurd hf (henv.fault_ne e)
  simp only [andThen]
  cases d.slots.lookup req.slotId with
  | none => exact ⟨rfl, rfl, by simp⟩
  | some slot =>
    intro env henv
    rw [henv.2.1]
    exact ⟨rfl, rfl, by simp [notified]⟩

/-- Of the answers, only a booking that has just been made is passed on as one. -/
theorem answerPost_created (id : BookingId) (replay : Bool) :
    (Reply.created id replay).answerPost = .ok (.created id replay) := rfl

theorem yields_ofExcept {α : Type} {x : Except JsError α} {P : Env Nat JsError Ask.Answer → Prop}
    {Q : List (Event Stmt Ask.Answer JsError) → Place Database Write → Except JsError α → Prop}
    {st : Place Database Write} (h : Q tr st x) : (ofExcept x).Yields (chronos cat) P Q tr st := by
  cases x with
  | ok a => exact h
  | error e => exact h

theorem posted_createBookingEndpoint {body : CreateBookingDto} {key : Option String}
    {client : ClientId} (hforeign : d.RemindsOfBookings) :
    (createBookingEndpoint body key (.client client) queue).Yields (chronos cat) (Favourable d)
      (Posted cat d (body.request key client)) [] (.free d) := by
  intro env _
  have hall : ((createBooking (body.request key client) (some (env.answer .now)) queue).bind
      fun result => (notifyNewBooking (body.request key client) result).bind fun _ =>
        ofExcept result.answerPost).Yields (chronos cat) (Favourable d)
      (fun tr st r => (∃ id, r = .ok (.created id false) ∧ notified tr = [some id] ∧
          Booked cat d (body.request key client) (env.answer .now) id st.db) ∨
        ¬ Accepts cat d (body.request key client) (env.answer .now) ∧ st.db = d ∧
          ((d.slots.lookup (body.request key client).slotId).isSome = true →
            ∃ bookingId, notified tr = [bookingId]))
      [.answered .now (env.answer .now)] (.free d) := by
    refine (concludes_createBooking hforeign).bind ?_ ?_
    · rintro tr st result ⟨hnone, ⟨id, hr, d', rfl, hbooked⟩ | ⟨hno, rfl, -⟩⟩
      · -- A booking, and its notification.
        obtain rfl := Except.ok.inj hr
        refine (yields_notifyNewBooking.anti fun _ h => h.calm).bind ?_ fun _ _ _ h => nomatch h.1
        rintro tr' _ - ⟨-, rfl, hnotified⟩
        refine yields_ofExcept (Or.inl ⟨id, answerPost_created id false, ?_, hbooked⟩)
        rw [hnotified, hnone, if_pos hbooked.slot]
        rfl
      · -- A refusal, and a notification none the less.
        refine (yields_notifyNewBooking.anti fun _ h => h.calm).bind ?_ fun _ _ _ h => nomatch h.1
        rintro tr' _ - ⟨-, rfl, hnotified⟩
        refine yields_ofExcept (Or.inr ⟨hno, rfl, fun hslot => ⟨result.bookingId, ?_⟩⟩)
        rw [hnotified, hnone, if_pos hslot]
        rfl
    · rintro tr st e ⟨-, ⟨id, hr, -⟩ | ⟨-, -, reply, hr⟩⟩
      · cases hr
      · cases hr
  refine (hall.and (yields_extends _ _ _)).mono ?_
  rintro tr st r ⟨h, rest, rfl⟩
  exact ⟨env.answer .now, by simp, h⟩

end Request

/-! ### A slot that does not exist -/

/-- Nothing is committed, and a transaction that is still open has written nothing. -/
def Untouched (d : Database) (st : Place Database Write) : Prop :=
  st = .free d ∨ st = .inside d [] ∨ st = .failed d

theorem Untouched.db {d : Database} {st : Place Database Write} (h : Untouched d st) :
    st.db = d := by
  rcases h with rfl | rfl | rfl
  · rfl
  · rfl
  · rfl

section Slotless

variable {cat : Catalog} {d : Database} {req : BookingRequest} {now : Instant} {queue : Bool}
variable {tr : List (Event Stmt Ask.Answer JsError)} {P : Env Nat JsError Ask.Answer → Prop}

theorem yields_rollbackQuietly {st : Place Database Write} (h : Untouched d st) :
    rollbackQuietly.Yields (chronos cat) P (fun _ st' r => Untouched d st' ∧ r = .ok ()) tr st := by
  refine fun env _ => ⟨fun e _ => ⟨h, rfl⟩, fun _ => ⟨fun st' hturn => ?_, fun hturn => ?_⟩⟩
  · have hfree : st' = .free st.db := by simpa [Engine.turn] using hturn.symm
    rw [hfree, h.db]
    exact ⟨Or.inl rfl, rfl⟩
  · cases hturn

/-- The transaction ends where it began: no row of `slots` matches its `UPDATE`. -/
theorem yields_slotlessTransaction {minStart : Instant} (hslot : d.slots.lookup req.slotId = none) :
    (bookSlotInTransaction req now minStart queue).Yields (chronos cat) P
      (fun _ st _ => Untouched d st) tr (.free d) := by
  refine Yields.tryCatch (Q := fun _ st _ => Untouched d st) ?_ (fun _ _ _ h => h) ?_
  · refine fun env _ => ⟨fun e _ => Or.inl rfl, fun _ =>
      ⟨fun st' hturn => ?_, fun _ => Or.inl rfl⟩⟩
    obtain rfl : .inside d [] = st' := by simpa [Engine.turn] using hturn
    refine yields_stmt_inside fun env _ => ⟨fun e _ => Or.inr (Or.inr rfl), fun _ =>
      ⟨fun row ws hx => ?_, fun e _ => Or.inr (Or.inr rfl)⟩⟩
    change (exec cat (.bookSlot req.slotId now minStart) env.fresh d).result = _ at hx
    simp only [exec, updateSlotWhere, hslot, Option.filter_none] at hx
    obtain ⟨rfl, rfl⟩ := read_ok hx
    refine fun env _ => ⟨fun e _ => Or.inr (Or.inl rfl), fun _ =>
      ⟨fun st' hturn => ?_, fun hturn => ?_⟩⟩
    · obtain rfl : .free d = st' := by simpa [Engine.turn] using hturn
      exact Or.inl rfl
    · cases hturn
  · intro tr' st e h
    refine (yields_rollbackQuietly h).bind (fun _ _ _ hst => hst.1) fun _ _ _ hst => ?_
    cases hst.2

theorem yields_createBookingSlotlessly (hslot : d.slots.lookup req.slotId = none)
    (htr : .controlled .commit ∉ tr) :
    (createBookingAt req now queue).Yields (chronos cat) P (fun _ st _ => Untouched d st) tr
      (.free d) := by
  have hends : ∀ {α : Type} {tr' : List (Event Stmt Ask.Answer JsError)} {st} {r : Except JsError α},
      OnlyReads d tr' st r → Untouched d st := fun h => Or.inl h.2
  refine (yields_checks (talks_configuredNoticeHours req) htr).bind ?_ fun _ _ _ h => hends h
  rintro tr₁ _ hours ⟨htr₁, rfl⟩
  refine (yields_checks (talks_validateEventType req) htr₁).bind ?_ fun _ _ _ h => hends h
  rintro tr₂ _ refusal ⟨htr₂, rfl⟩
  cases refusal with
  | some refusal => exact Or.inl rfl
  | none =>
    refine (yields_checks (talks_checkIdempotencyKey req) htr₂).bind ?_ fun _ _ _ h => hends h
    rintro tr₃ _ answer ⟨-, rfl⟩
    cases answer with
    | some answer => exact Or.inl rfl
    | none => exact yields_slotlessTransaction hslot

/-- Nobody is notified where the query for the provider finds nothing, or fails. -/
theorem yields_notifySlotlessly {result : Reply} {st : Place Database Write}
    (hslot : d.slots.lookup req.slotId = none) (h : Untouched d st) :
    (notifyNewBooking req result).Yields (chronos cat) P
      (fun tr' st' r => notified tr' = notified tr ∧ st'.db = d ∧ r = .ok ()) tr st := by
  refine fun env _ => ⟨fun e _ => ⟨by simp, ?_, rfl⟩, fun _ =>
    ⟨fun slot st' hserve => ?_, fun e st' hserve => ⟨by simp, ?_, rfl⟩⟩⟩
  · rcases h with rfl | rfl | rfl
    · rfl
    · rfl
    · rfl
  · rcases h with rfl | rfl | rfl
    · obtain ⟨ws, hx, rfl⟩ := serve_free_ok hserve
      obtain ⟨rfl, rfl⟩ := read_ok hx
      rw [hslot]
      exact ⟨by simp, rfl, rfl⟩
    · obtain ⟨ws, hx, rfl⟩ := serve_inside_ok hserve
      obtain ⟨rfl, rfl⟩ := read_ok hx
      rw [Engine.apply_nil, hslot]
      exact ⟨by simp, rfl, rfl⟩
    · cases hserve
  · rcases h with rfl | rfl | rfl
    · rw [(serve_free_error hserve).2]
      rfl
    · rw [(serve_inside_error hserve).2]
      rfl
    · obtain ⟨-, rfl⟩ := Prod.mk.inj hserve
      rfl

/-- **Whatever fails**, a request for a slot that does not exist changes nothing and notifies
    nobody. -/
theorem yields_slotlessly {body : CreateBookingDto} {key : Option String} {client : ClientId}
    (hslot : d.slots.lookup body.slotId = none) :
    (createBookingEndpoint body key (.client client) queue).Yields (chronos cat) P
      (fun tr st _ => notified tr = [] ∧ st.db = d) [] (.free d) := by
  intro env _
  refine ((yields_unannounced (follows_createBookingSilently _ (env.answer .now) queue)).and
    (yields_createBookingSlotlessly hslot (by simp))).bind ?_ fun _ _ _ h => ⟨h.1, h.2.db⟩
  rintro tr st result ⟨hnone, hst⟩
  refine (yields_notifySlotlessly hslot hst).bind ?_ fun _ _ _ h => nomatch h.2.2
  rintro tr' st' - ⟨hsame, hdb, -⟩
  exact yields_ofExcept ⟨hsame.trans hnone, hdb⟩

end Slotless

/-! ### Requests one after the other -/

/-- The server draws an unused id, and no insertion of a notification fails; nothing fails at all, if
    `smooth`. -/
structure Surrounds (d : Database) (smooth : Bool) (env : Env Nat JsError Ask.Answer) : Prop where
  fresh : d.bookings.lookup env.fresh = none
  notifies : ∀ p c b, env.answer (.effect (.notifyProvider p c b)) = .ok ()
  calm : smooth = true → Calm env

/-- A `POST /bookings` with a valid session that has been handled. -/
structure Posting where
  body : CreateBookingDto
  idempotencyKey : Option String
  client : ClientId
  queue : Bool
  smooth : Bool
  before : Database
  events : List (Event Stmt Ask.Answer JsError)
  after : Database
  answer : Except JsError Reply

namespace Posting

def request (h : Posting) : BookingRequest := h.body.request h.idempotencyKey h.client

/-- The request was handled alone. -/
def Alone (cat : Catalog) (h : Posting) : Prop :=
  PerformsIn (chronos cat) (Surrounds h.before h.smooth) .idle h.before
    (createBookingEndpoint h.body h.idempotencyKey (.client h.client) h.queue) h.events h.after
    h.answer

/-- The slot does not exist; or nothing fails, and the request is one to accept. -/
def Announceable (cat : Catalog) (h : Posting) : Prop :=
  h.before.slots.lookup h.body.slotId = none ∨
    h.smooth = true ∧ ∃ now, (readings h.events).head? = some now ∧
      Accepts cat h.before h.request now

/-- The bookings the request inserted. -/
def bookings (h : Posting) : List BookingId := newBookings h.before h.after

end Posting

/-- A sequence of requests, each handled alone. -/
inductive Posts (cat : Catalog) : Database → List Posting → Database → Prop
  | nil (d) : Posts cat d [] d
  | cons {h run d'} : h.Alone cat → Posts cat h.after run d' → Posts cat h.before (h :: run) d'

/-- **A notification exactly per booking.** -/
structure NotifiesOnce (d d' : Database) (run : List Posting) : Prop where
  count : (run.flatMap fun h => notified h.events).length = (newBookings d d').length
  carries : ∀ h ∈ run, ∀ bookingId ∈ notified h.events, ∃ id ∈ h.bookings, bookingId = some id
  refused : ∀ h ∈ run, (∀ id, h.answer ≠ .ok (.created id false)) → notified h.events = []

/-- A request that notifies as it should: each booking it inserts is notified, and it removes
    none. -/
structure Posting.Announces (h : Posting) : Prop where
  notified : notified h.events = h.bookings.map some
  kept : ∀ i, (h.before.bookings.lookup i).isSome = true → (h.after.bookings.lookup i).isSome = true
  refused : (∀ id, h.answer ≠ .ok (.created id false)) → Chronos.notified h.events = []
  reminds : h.after.RemindsOfBookings

section Runs

variable {cat : Catalog} {d d' d'' : Database} {h : Posting} {run : List Posting}

/-- The bookings of two steps are those of the one and those of the other. -/
theorem newBookings_perm
    (hfirst : ∀ i, (d.bookings.lookup i).isSome = true → (d'.bookings.lookup i).isSome = true)
    (hsecond : ∀ i, (d'.bookings.lookup i).isSome = true → (d''.bookings.lookup i).isSome = true) :
    (newBookings d d'').Perm (newBookings d d' ++ newBookings d' d'') := by
  have hnodup : ∀ d₁ d₂ : Database, (newBookings d₁ d₂).Nodup :=
    fun d₁ d₂ => d₂.bookings.keys_nodup.filter _
  have hdisjoint : (newBookings d d').Disjoint (newBookings d' d'') := by
    intro i hi hi'
    have hsome := (mem_newBookings.mp hi).1
    rw [(mem_newBookings.mp hi').2] at hsome
    cases hsome
  refine (List.perm_ext_iff_of_nodup (hnodup d d'')
    (List.Nodup.append (hnodup d d') (hnodup d' d'') hdisjoint)).mpr fun i => ?_
  rw [List.mem_append, mem_newBookings, mem_newBookings, mem_newBookings]
  constructor
  · rintro ⟨hsome, hnone⟩
    cases hi : d'.bookings.lookup i with
    | none => exact Or.inr ⟨hsome, rfl⟩
    | some b => exact Or.inl ⟨rfl, hnone⟩
  · rintro (⟨hsome, hnone⟩ | ⟨hsome, hnone⟩)
    · exact ⟨hsecond i hsome, hnone⟩
    · refine ⟨hsome, ?_⟩
      cases hi : d.bookings.lookup i with
      | none => rfl
      | some b =>
        have hkept := hfirst i (by rw [hi]; rfl)
        rw [hnone] at hkept
        cases hkept

theorem Posting.Alone.posted (h' : h.Alone cat) (hsmooth : h.smooth = true)
    (hforeign : h.before.RemindsOfBookings) :
    ∃ st, st.db = h.after ∧ Posted cat h.before h.request h.events st h.answer := by
  have hfavourable : ∀ env, Surrounds h.before h.smooth env → Favourable h.before env :=
    fun _ henv => ⟨henv.calm hsmooth, henv.fresh⟩
  obtain ⟨st, hdb, hposted⟩ :=
    ((posted_createBookingEndpoint hforeign).anti hfavourable).performs h'
  exact ⟨st, hdb, hposted⟩

/-- **One request.** -/
theorem Posting.Announceable.announces (hann : h.Announceable cat) (h' : h.Alone cat)
    (hforeign : h.before.RemindsOfBookings) : h.Announces := by
  rcases hann with hslot | ⟨hsmooth, now, hnow, haccepts⟩
  · obtain ⟨st, hdb, hnone, hsame⟩ := (yields_slotlessly hslot).performs h'
    rw [List.nil_append] at hnone
    have hafter : h.after = h.before := by rw [← hdb, hsame]
    refine ⟨?_, fun i hi => ?_, fun _ => hnone, ?_⟩
    · rw [hnone, Posting.bookings, hafter, newBookings_self]
      rfl
    · rw [hafter]
      exact hi
    · rw [hafter]
      exact hforeign
  · obtain ⟨st, hdb, now', hnow', hends⟩ := h'.posted hsmooth hforeign
    rw [hnow, Option.some.injEq] at hnow'
    subst hnow'
    rcases hends with ⟨id, hanswer, hnotified, hbooked⟩ | ⟨hno, -⟩
    · rw [hdb] at hbooked
      refine ⟨?_, fun i hi => ?_, fun hrefused => absurd hanswer (hrefused id), hbooked.reminds⟩
      · rw [hnotified, Posting.bookings, newBookings_eq_singleton hbooked.fresh hbooked.bookings]
        rfl
      · rw [hbooked.bookings]
        split
        · rfl
        · exact hi
    · exact absurd haccepts hno

/-- **A request that is not one to accept** is announced all the same, if its slot exists. -/
theorem Posting.Alone.announceable (h' : h.Alone cat) (hsmooth : h.smooth = true)
    (hforeign : h.before.RemindsOfBookings)
    (hcarries : ∀ bookingId ∈ notified h.events, ∃ id ∈ h.bookings, bookingId = some id) :
    h.Announceable cat := by
  obtain ⟨st, hdb, now, hnow, ⟨id, -, -, hbooked⟩ | ⟨-, hsame, hnotified⟩⟩ :=
    h'.posted hsmooth hforeign
  · exact Or.inr ⟨hsmooth, now, hnow, hbooked.accepts⟩
  · cases hslot : h.before.slots.lookup h.body.slotId with
    | none => exact Or.inl hslot
    | some slot =>
      have hslot' : (h.before.slots.lookup h.request.slotId).isSome = true := by
        show (h.before.slots.lookup h.body.slotId).isSome = true
        rw [hslot]
        rfl
      obtain ⟨bookingId, heq⟩ := hnotified hslot'
      obtain ⟨id, hid, -⟩ := hcarries bookingId (by rw [heq]; exact List.mem_singleton_self _)
      -- No booking was inserted.
      rw [Posting.bookings, ← hdb, hsame, newBookings_self] at hid
      cases hid

theorem Posting.Alone.reminds (h' : h.Alone cat) (hsmooth : h.smooth = true)
    (hforeign : h.before.RemindsOfBookings) : h.after.RemindsOfBookings := by
  obtain ⟨st, hdb, now, hnow, ⟨id, -, -, hbooked⟩ | ⟨-, hsame, -⟩⟩ := h'.posted hsmooth hforeign
  · rw [← hdb]
    exact hbooked.reminds
  · rw [← hdb, hsame]
    exact hforeign

/-- Requests that are announced as they should be, one after the other. -/
theorem Posts.notifiesOnce (hrun : Posts cat d run d') (hforeign : d.RemindsOfBookings)
    (hann : ∀ h ∈ run, h.Announceable cat) :
    NotifiesOnce d d' run ∧
      ∀ i, (d.bookings.lookup i).isSome = true → (d'.bookings.lookup i).isSome = true := by
  induction hrun with
  | nil d =>
    refine ⟨⟨?_, fun h hh => (nomatch hh), fun h hh => (nomatch hh)⟩, fun _ hi => hi⟩
    rw [newBookings_self]
    rfl
  | @cons h run d' hhead htail ih =>
    obtain ⟨hfirst, hrest⟩ := List.forall_mem_cons.mp hann
    have hannounces := hfirst.announces hhead hforeign
    obtain ⟨hnotifies, hkept⟩ := ih hannounces.reminds hrest
    refine ⟨⟨?_, ?_, ?_⟩, fun i hi => hkept i (hannounces.kept i hi)⟩
    · rw [List.flatMap_cons, List.length_append, hnotifies.count, hannounces.notified,
        (newBookings_perm hannounces.kept hkept).length_eq, List.length_append, List.length_map]
      rfl
    · refine List.forall_mem_cons.mpr ⟨fun bookingId hmem => ?_, hnotifies.carries⟩
      rw [hannounces.notified, List.mem_map] at hmem
      obtain ⟨id, hid, rfl⟩ := hmem
      exact ⟨id, hid, rfl⟩
    · exact List.forall_mem_cons.mpr ⟨hannounces.refused, hnotifies.refused⟩

/-- Where nothing fails, a sequence that carries the ids it should consists of such requests. -/
theorem Posts.announceable (hrun : Posts cat d run d') (hforeign : d.RemindsOfBookings)
    (hsmooth : ∀ h ∈ run, h.smooth = true)
    (hcarries : ∀ h ∈ run, ∀ bookingId ∈ notified h.events, ∃ id ∈ h.bookings,
      bookingId = some id) :
    ∀ h ∈ run, h.Announceable cat := by
  induction hrun with
  | nil d => exact fun h hh => nomatch hh
  | cons hhead _ ih =>
    obtain ⟨hsmooth, hsmooth'⟩ := List.forall_mem_cons.mp hsmooth
    obtain ⟨hcarries, hcarries'⟩ := List.forall_mem_cons.mp hcarries
    exact List.forall_mem_cons.mpr ⟨hhead.announceable hsmooth hforeign hcarries,
      ih (hhead.reminds hsmooth hforeign) hsmooth' hcarries'⟩

end Runs

/-- **When there is a notification exactly per booking**: in a sequence of requests each of which
    asks for a slot that does not exist, or is one to accept and meets no failure.  Where nothing
    fails at all, in no other sequence. -/
theorem notified_once_iff (cat : Catalog) (d d' : Database) (run : List Posting)
    (hforeign : d.RemindsOfBookings) (hrun : Posts cat d run d') :
    ((∀ h ∈ run, h.Announceable cat) → NotifiesOnce d d' run) ∧
      ((∀ h ∈ run, h.smooth = true) →
        (NotifiesOnce d d' run ↔ ∀ h ∈ run, h.Announceable cat)) := by
  have hif : (∀ h ∈ run, h.Announceable cat) → NotifiesOnce d d' run :=
    fun hann => (hrun.notifiesOnce hforeign hann).1
  exact ⟨hif, fun hsmooth =>
    ⟨fun h => hrun.announceable hforeign hsmooth h.carries, hif⟩⟩

/-- Client `5` asks for slot `1`. -/
def sampleBody : CreateBookingDto := ⟨1, none, none, none⟩

/-- The program of that request. -/
def bookSlotOne : Program Reply := createBookingEndpoint sampleBody none (.client 5) false

theorem accepts_sampleBody : Accepts sampleCatalog sampleDb (sampleBody.request none 5) 0 where
  slot := ⟨sampleSlot .«open», rfl, rfl, by decide, by decide⟩
  fits := nofun
  client := rfl
  free := by
    rintro i ⟨b, hb, -⟩
    cases hb
  unused := nofun

/-- Slot `1` is open, and the client books it at the epoch. -/
theorem notified_once_booked :
    ∃ h d', Posts sampleCatalog sampleDb [h] d' ∧ h.Announceable sampleCatalog ∧
      NotifiesOnce sampleDb d' [h] := by
  let P : Env Nat JsError Ask.Answer → Prop := fun env => env = calmEnv 1 0
  obtain ⟨tr, d', r, hrun⟩ := performsIn_total (E := chronos sampleCatalog) (P := P) ⟨_, rfl⟩
    bookSlotOne .idle sampleDb
  have hclock : bookSlotOne.Yields (chronos sampleCatalog) P
      (fun tr _ _ => (readings tr).head? = some 0) [] (.free sampleDb) := by
    rintro _ rfl
    refine (yields_extends _ _ _).mono ?_
    rintro tr _ _ ⟨rest, rfl⟩
    simp [calmEnv]
  obtain ⟨-, -, hnow⟩ := hclock.performs hrun
  have halone : (⟨sampleBody, none, 5, false, true, sampleDb, tr, d', r⟩ : Posting).Alone
      sampleCatalog := by
    refine hrun.mono ?_
    rintro _ rfl
    exact ⟨rfl, fun _ _ _ => rfl, fun _ => calm_calmEnv 1 0⟩
  have hann : (⟨sampleBody, none, 5, false, true, sampleDb, tr, d', r⟩ : Posting).Announceable
      sampleCatalog :=
    Or.inr ⟨rfl, 0, hnow, accepts_sampleBody⟩
  exact ⟨_, d', .cons halone (.nil d'), hann,
    (notified_once_iff sampleCatalog sampleDb d' _ (fun _ _ => rfl) (.cons halone (.nil d'))).1
      (List.forall_mem_singleton.mpr hann)⟩

/-- The database with slot `1` taken. -/
def takenDb : Database :=
  { sampleDb with slots := (∅ : AList fun _ => Slot).insert 1 (sampleSlot .booked) }

/-- No booking is made, and the provider is told of a new one. -/
theorem refusal_notified :
    ∃ h d', Posts sampleCatalog takenDb [h] d' ∧ takenDb.RemindsOfBookings ∧ h.smooth = true ∧
      h.bookings = [] ∧ notified h.events ≠ [] ∧ ¬ NotifiesOnce takenDb d' [h] := by
  have hcalm : Surrounds takenDb true (calmEnv 1 0) :=
    ⟨rfl, fun _ _ _ => rfl, fun _ => calm_calmEnv 1 0⟩
  obtain ⟨tr, d', r, hrun⟩ := performsIn_total (E := chronos sampleCatalog) ⟨_, hcalm⟩ bookSlotOne
    .idle takenDb
  have halone : (⟨sampleBody, none, 5, false, true, takenDb, tr, d', r⟩ : Posting).Alone
      sampleCatalog := hrun
  obtain ⟨st, hdb, now, -, ⟨id, -, -, hbooked⟩ | ⟨-, hsame, hnotified⟩⟩ :=
    halone.posted rfl fun _ _ => rfl
  · -- The slot is not open.
    obtain ⟨row, hrow, hopen, -⟩ := hbooked.accepts.slot
    obtain rfl := Option.some.inj hrow
    cases hopen
  · obtain ⟨bookingId, heq⟩ := hnotified rfl
    obtain rfl : takenDb = d' := hsame.symm.trans hdb
    refine ⟨_, _, .cons halone (.nil _), fun _ _ => rfl, rfl, newBookings_self _, ?_, fun h => ?_⟩
    · rw [heq]
      exact List.cons_ne_nil _ _
    · have hcount := h.count
      rw [newBookings_self, List.flatMap_singleton, heq] at hcount
      cases hcount

end Chronos
