import Chronos.Winner
import Chronos.ReadCommitted.Linearizable

namespace Chronos

open ReadCommitted ReadCommitted.Prog

/-!
# The appointment book

What the booking core is for, without tables, locks and transactions: a book that says of
every slot whether it is open, and of every booking which slot and client it is for and whether it
still stands.  `Request.Serves` says what one request does to the book when it is served alone.

The service refines it (`linearizable`): whatever calls run side by side, the database shows the book
that the committed calls leave behind when they are served one after the other.  A
cancellation is the one request that is served without a look at the status of its booking.
-/

/-- A booking, as the book has it. -/
structure Entry where
  slotId : SlotId
  clientId : ClientId
  status : BookingStatus
  deriving DecidableEq

/-- The state of the booking core, as a client or a provider sees it. -/
@[ext]
structure AppointmentBook where
  slots : SlotId → Option SlotStatus
  entries : BookingId → Option Entry

namespace AppointmentBook

variable (k : AppointmentBook)

/-- Booking `i` stands, on slot `s`. -/
def Holds (i : BookingId) (s : SlotId) : Prop :=
  ∃ e, k.entries i = some e ∧ e.status ≠ .cancelled ∧ e.slotId = s

/-- The book with the status of slot `s` set. -/
def setSlot (s : SlotId) (status : SlotStatus) : AppointmentBook :=
  { k with slots := Function.update k.slots s (some status) }

/-- The book with slot `s` open, if there is such a slot. -/
def reopen (s : SlotId) : AppointmentBook :=
  { k with slots := Function.update k.slots s ((k.slots s).map fun _ => .«open») }

/-- The book with booking `i` entered. -/
def setEntry (i : BookingId) (e : Entry) : AppointmentBook :=
  { k with entries := Function.update k.entries i (some e) }

variable {k} {s s' : SlotId} {i i' : BookingId} {e : Entry} {status : SlotStatus}

@[simp] theorem entries_setSlot : (k.setSlot s status).entries = k.entries := rfl

@[simp] theorem entries_reopen : (k.reopen s).entries = k.entries := rfl

@[simp] theorem slots_setEntry : (k.setEntry i e).slots = k.slots := rfl

@[simp] theorem entries_setEntry :
    (k.setEntry i e).entries i' = if i' = i then some e else k.entries i' :=
  Function.update_apply ..

@[simp] theorem slots_setSlot :
    (k.setSlot s status).slots s' = if s' = s then some status else k.slots s' :=
  Function.update_apply ..

@[simp] theorem slots_reopen :
    (k.reopen s).slots s' = if s' = s then (k.slots s).map fun _ => .«open» else k.slots s' :=
  Function.update_apply ..

end AppointmentBook

/-- What a request does to the book, with the id of the booking it enters. -/
inductive Request.Serves :
    Request → Option BookingId → AppointmentBook → AppointmentBook → Prop
  | createBooking {req nowUtc queue k id} :
      k.slots req.slotId = some .«open» → (∀ i, ¬ k.Holds i req.slotId) → k.entries id = none →
      Serves (.createBooking req nowUtc queue) (some id) k
        ((k.setSlot req.slotId .booked).setEntry id ⟨req.slotId, req.clientId, .booked⟩)
  | cancelBooking {id ifMatch session queue k e} :
      k.entries id = some e → session = some e.clientId →
      Serves (.cancelBooking id ifMatch session queue) none k
        ((k.setEntry id { e with status := .cancelled }).reopen e.slotId)
  | confirmBooking {id session k e} :
      k.entries id = some e → session = some e.clientId → e.status = .booked →
      Serves (.confirmBooking id session) none k (k.setEntry id { e with status := .completed })
  | declineBooking {id session queue spelling k e} :
      k.entries id = some e → session = some e.clientId → e.status = .booked →
      Serves (.declineBooking id session queue spelling) none k
        (k.setEntry id { e with status := .cancelled })
  | rescheduleBooking {req nowUtc queue k e newId} :
      k.entries req.bookingId = some e → e.status = .booked →
      k.slots req.newSlotId = some .«open» →
      (∀ i, i ≠ req.bookingId → ¬ k.Holds i req.newSlotId) → k.entries newId = none →
      Serves (.rescheduleBooking req nowUtc queue) (some newId) k
        ((((k.setSlot req.newSlotId .booked).setEntry req.bookingId
          { e with status := .cancelled }).reopen e.slotId).setEntry newId
            ⟨req.newSlotId, e.clientId, .booked⟩)

/-! ### The book of a database -/

/-- A row of `bookings`, as the book has it. -/
def Booking.entry (b : Booking) : Entry := ⟨b.slotId, b.clientId, b.status⟩

/-- The book the tables show. -/
def Database.book (d : Database) : AppointmentBook where
  slots s := (d.slots.lookup s).map Slot.status
  entries i := (d.bookings.lookup i).map Booking.entry

section Book

variable {d d' : Database} {i : BookingId} {s : SlotId}

theorem book_slots {row : Slot} (h : d.slots.lookup s = some row) :
    d.book.slots s = some row.status := by
  change (d.slots.lookup s).map Slot.status = _
  rw [h]
  rfl

theorem book_entries {b : Booking} (h : d.bookings.lookup i = some b) :
    d.book.entries i = some b.entry := by
  change (d.bookings.lookup i).map Booking.entry = _
  rw [h]
  rfl

theorem book_entries_none (h : d.bookings.lookup i = none) : d.book.entries i = none := by
  change (d.bookings.lookup i).map Booking.entry = _
  rw [h]
  rfl

/-- The live bookings of the tables are those that stand in the book. -/
theorem holds_book : d.book.Holds i s ↔ d.LiveOn s i := by
  constructor
  · rintro ⟨e, he, hstatus, rfl⟩
    obtain ⟨b, hb, rfl⟩ := Option.map_eq_some_iff.mp he
    exact ⟨b, hb, decide_eq_true hstatus, rfl⟩
  · rintro ⟨b, hb, hlive, rfl⟩
    exact ⟨b.entry, book_entries hb, of_decide_eq_true hlive, rfl⟩

theorem book_eq_of (hslots : ∀ s, d'.slots.lookup s = d.slots.lookup s)
    (hbookings : ∀ i, d'.bookings.lookup i = d.bookings.lookup i) : d'.book = d.book := by
  refine AppointmentBook.ext (funext fun s => ?_) (funext fun i => ?_)
  · change (d'.slots.lookup s).map _ = (d.slots.lookup s).map _
    rw [hslots]
  · change (d'.bookings.lookup i).map _ = (d.bookings.lookup i).map _
    rw [hbookings]

end Book

/-! ### Each move is silent, or serves its request -/

section Moves

variable {cat : Catalog} {fromColumn : Instant → Except JsError Instant} {d : Database}
variable {ws : List Write}

theorem book_statusWrites {id : BookingId} {row : Booking} {status : BookingStatus} {version : Int} :
    ((chronos cat).apply (statusWrites d id row status version false) d).book =
      d.book.setEntry id { row.entry with status := status } := by
  refine AppointmentBook.ext (funext fun s => ?_) (funext fun i => ?_)
  · change (Database.slots _ |>.lookup s).map _ = (d.slots.lookup s).map _
    rw [lookup_slot_statusWrites, if_neg fun h => Bool.noConfusion h.1]
  · change (Database.bookings _ |>.lookup i).map _ = _
    rw [lookup_booking_statusWrites, AppointmentBook.entries_setEntry]
    split <;> rfl

theorem book_cancelWrites {id : BookingId} {b : Booking} (hb : d.bookings.lookup id = some b) :
    ((chronos cat).apply (cancelWrites d id b.slotId) d).book =
      (d.book.setEntry id { b.entry with status := .cancelled }).reopen b.slotId := by
  refine AppointmentBook.ext (funext fun s => ?_) (funext fun i => ?_)
  · change (Database.slots _ |>.lookup s).map _ = _
    rw [lookup_slot_cancelWrites, AppointmentBook.slots_reopen]
    split
    · change _ = ((d.slots.lookup b.slotId).map Slot.status).map _
      simp only [Option.map_map]
      rfl
    · rfl
  · change (Database.bookings _ |>.lookup i).map _ = _
    rw [lookup_booking_cancelWrites, AppointmentBook.entries_reopen, AppointmentBook.entries_setEntry]
    split
    · rw [hb]
      rfl
    · rfl

theorem NewBooking.book {req : BookingRequest} {now minStart : Instant} {row : Slot}
    {reminders : List Write} {id : BookingId}
    (h : NewBooking cat req now minStart d row reminders id ws) :
    ((chronos cat).apply ws d).book =
      (d.book.setSlot req.slotId .booked).setEntry id ⟨req.slotId, req.clientId, .booked⟩ := by
  refine AppointmentBook.ext (funext fun s => ?_) (funext fun i => ?_)
  · change (Database.slots _ |>.lookup s).map _ = _
    rw [h.slots, AppointmentBook.slots_setEntry, AppointmentBook.slots_setSlot]
    split <;> rfl
  · change (Database.bookings _ |>.lookup i).map _ = _
    rw [h.bookings, AppointmentBook.entries_setEntry]
    split <;> rfl

theorem GuardedMove.book {req : RescheduleRequest} {now : Instant} {old : Booking} {slot : Slot}
    {reminders : List Write} {newId : BookingId}
    (h : GuardedMove cat fromColumn req now d old slot reminders newId ws) :
    ((chronos cat).apply ws d).book =
      (((d.book.setSlot req.newSlotId .booked).setEntry req.bookingId
        { old.entry with status := .cancelled }).reopen old.slotId).setEntry newId
          ⟨req.newSlotId, old.clientId, .booked⟩ := by
  refine AppointmentBook.ext (funext fun s => ?_) (funext fun i => ?_)
  · change (Database.slots _ |>.lookup s).map _ = _
    rw [h.slots, lookup_slot_vacated, AppointmentBook.slots_setEntry, AppointmentBook.slots_reopen,
      AppointmentBook.slots_setEntry, AppointmentBook.slots_setSlot, AppointmentBook.slots_setSlot]
    split
    · split
      · rfl
      · change _ = ((d.slots.lookup old.slotId).map Slot.status).map _
        simp only [Option.map_map]
        rfl
    · split <;> rfl
  · change (Database.bookings _ |>.lookup i).map _ = _
    rw [h.bookings, AppointmentBook.entries_setEntry, AppointmentBook.entries_reopen,
      AppointmentBook.entries_setEntry]
    split
    · rfl
    · split <;> rfl

/-- The result of a request that has committed. -/
def Progress.served : Progress → Option (Option BookingId)
  | .done id => some id
  | _ => none

theorem served_eq_none {g : Progress} : g.served = none ↔ g.Open := by
  cases g with
  | begun => exact ⟨fun _ _ h => (nomatch h), fun _ => rfl⟩
  | hasRead b => exact ⟨fun _ _ h => (nomatch h), fun _ => rfl⟩
  | done id => exact ⟨fun h => (nomatch h), fun h => absurd rfl (h id)⟩

/-- What `cancelBooking` has read of its booking is still so: its slot, and its client, who asks. -/
def Request.Informed (req : Request) (g : Progress) (d : Database) : Prop :=
  ∀ b, g = .hasRead b → ∃ id ifMatch session queue b',
    req = .cancelBooking id ifMatch session queue ∧ d.bookings.lookup id = some b' ∧
      b.SameOwner b' ∧ session = some b.clientId

variable {adm : Stmt → Database → Prop} {req : Request} {g g' : Progress}
variable {env : Progress → Database → Env Nat JsError Ask.Answer → Prop}
variable {know : Progress → Database → Prop}

/-- **A move is silent, or serves its request.** -/
theorem Request.Moves.silentOrServed {ι : Type} {reqs : ι → Request} {i : ι}
    (h : (reqs i).Moves cat fromColumn adm env know g d ws g')
    (hinformed : (reqs i).Informed g d) :
    SilentOrServed Database.book Progress.served (fun i => (reqs i).Serves) i d g
      ((chronos cat).apply ws d) g' := by
  generalize hreq : reqs i = req at h hinformed
  simp only [SilentOrServed, hreq]
  cases h with
  | stay => exact Or.inl ⟨rfl, rfl⟩
  | read _ => exact Or.inl ⟨rfl, rfl⟩
  | remind hws =>
    have hsame : SameBut d ((chronos cat).apply ws d) := sameBut_apply hws
    exact Or.inl ⟨book_eq_of (fun s => by rw [hsame.slots]) fun i => by rw [hsame.bookings], rfl⟩
  | createBooking _ _ hnew =>
    refine Or.inr ⟨_, rfl, rfl, ?_⟩
    rw [hnew.book]
    refine .createBooking ?_ (fun i hi => hnew.free i (holds_book.mp hi)) (book_entries_none hnew.fresh)
    rw [book_slots hnew.slot, hnew.isOpen]
  | @cancelBooking id ifMatch session queue _ b _ _ =>
    refine Or.inr ⟨_, rfl, rfl, ?_⟩
    obtain ⟨id', ifMatch', session', queue', b', hcancel, hb', ⟨hslot, hclient⟩, hsession⟩ :=
      hinformed b rfl
    obtain ⟨rfl, rfl, rfl, rfl⟩ := Request.cancelBooking.inj hcancel
    rw [← hslot, book_cancelWrites hb']
    exact .cancelBooking (book_entries hb') (hsession.trans (congrArg some hclient.symm))
  | confirmBooking hupdate =>
    refine Or.inr ⟨_, rfl, rfl, ?_⟩
    obtain rfl := Option.some.inj hupdate.stored
    rw [hupdate.writes, book_statusWrites]
    exact .confirmBooking (book_entries hupdate.booking) hupdate.owner (checkBooked_none hupdate.checked)
  | declineBooking hupdate =>
    refine Or.inr ⟨_, rfl, rfl, ?_⟩
    obtain rfl := Option.some.inj hupdate.stored
    rw [hupdate.writes, book_statusWrites]
    exact .declineBooking (book_entries hupdate.booking) hupdate.owner (checkBooked_none hupdate.checked)
  | rescheduleBooking _ hmove =>
    refine Or.inr ⟨_, rfl, rfl, ?_⟩
    rw [hmove.book]
    refine .rescheduleBooking (book_entries hmove.booking) hmove.booked ?_
      (fun i hi hholds => hmove.free i hi (holds_book.mp hholds)) (book_entries_none hmove.fresh)
    rw [book_slots hmove.newSlot, hmove.isOpen]

end Moves

/-! ### Every run -/

/-- The booking an answer `201` names. -/
def createdId : Except JsError Reply → Option BookingId
  | .ok reply => if reply.status = 201 then reply.bookingId else none
  | .error _ => none

theorem createdId_eq_none {reply : Reply} (h : reply.status ≠ 201) : createdId (.ok reply) = none :=
  if_neg h

theorem created_inj {id id' : BookingId} {replay replay' : Bool}
    (h : (.ok (.created id replay) : Except JsError Reply) = .ok (.created id' replay')) : id = id' :=
  Option.some.inj (congrArg Reply.bookingId (Except.ok.inj h))

section Runs

variable {cat : Catalog} {fromColumn : Instant → Except JsError Instant}

/-- A call that answers with success has committed, and what it has entered. -/
theorem Request.Ends.served {c : Contract Ask.Answer Stmt Database Write Nat JsError Progress}
    {req : Request} {g : Progress} {r : Except JsError Reply} (h : req.Ends c g r)
    (hr : req.Succeeded r) : g.served = some (createdId r) := by
  cases req with
  | createBooking req nowUtc queue =>
    obtain ⟨id, rfl⟩ := hr
    rcases h with ⟨-, hnot⟩ | ⟨id', rfl, hid | ⟨hnot, -⟩⟩
    · exact absurd rfl (hnot id)
    · obtain rfl := created_inj hid
      rfl
    · exact absurd rfl (hnot id)
  | cancelBooking id ifMatch session queue =>
    obtain ⟨reply, rfl, hstatus⟩ := hr
    rcases h with ⟨-, hnot⟩ | rfl
    · exact absurd hstatus (hnot reply rfl)
    · rw [createdId_eq_none (by rw [hstatus]; decide)]
      rfl
  | confirmBooking id session =>
    obtain ⟨reply, rfl, hstatus⟩ := hr
    rcases h with ⟨-, hnot⟩ | rfl
    · exact absurd hstatus (hnot reply rfl)
    · rw [createdId_eq_none (by rw [hstatus]; decide)]
      rfl
  | declineBooking id session queue spelling =>
    obtain ⟨reply, rfl, hstatus⟩ := hr
    rcases h with ⟨-, hnot⟩ | rfl
    · exact absurd hstatus (hnot reply rfl)
    · rw [createdId_eq_none (by rw [hstatus]; decide)]
      rfl
  | rescheduleBooking req nowUtc queue =>
    obtain ⟨id, rfl⟩ := hr
    rcases h with ⟨-, hnot⟩ | ⟨id', rfl, hid | ⟨e, he⟩⟩
    · exact absurd rfl (hnot id)
    · obtain rfl := created_inj hid
      rfl
    · cases he

variable {ι : Type} {reqs : ι → Request}

/-- Call `i` has committed a row of `bookings`. -/
def Wrote (j : List (ι × Write)) (i : ι) : Prop := ∃ id row, (i, Write.booking id row) ∈ j

/-- The invariant: the calls that have committed are those that have written a booking, and what
    cancellations have read is still so. -/
structure Accounted (reqs : ι → Request) (d : Database) (j : List (ι × Write)) (G : ι → Progress) :
    Prop where
  wrote : ∀ i, Wrote j i ↔ ¬ (G i).Open
  informed : ∀ i, (reqs i).Informed (G i) d

/-- A move that commits writes a booking. -/
theorem Request.Moves.wrote {adm : Stmt → Database → Prop} {req : Request} {g g' : Progress}
    {env : Progress → Database → Env Nat JsError Ask.Answer → Prop} {d : Database} {ws : List Write}
    {know : Progress → Database → Prop} (h : req.Moves cat fromColumn adm env know g d ws g')
    (hinformed : req.Informed g d) (hg : g.Open) (hg' : ¬ g'.Open) :
    ∃ id row, Write.booking id row ∈ ws := by
  cases h with
  | stay => exact absurd hg hg'
  | read _ => exact absurd (fun x hx => nomatch hx) hg'
  | remind _ => exact absurd rfl (hg _)
  | @createBooking req _ _ _ _ _ _ _ id _ _ _ hnew =>
    refine ⟨id, req.booking, ?_⟩
    rw [hnew.writes]
    exact List.mem_cons_of_mem _ List.mem_cons_self
  | @cancelBooking id ifMatch session queue _ b _ _ =>
    obtain ⟨id', _, _, _, b', hcancel, hb', -, -⟩ := hinformed b rfl
    obtain rfl := (Request.cancelBooking.inj hcancel).1
    refine ⟨id, { b' with status := .cancelled }, ?_⟩
    unfold cancelWrites
    rw [hb']
    exact List.mem_append_left _ (List.mem_singleton_self _)
  | confirmBooking hupdate =>
    rw [hupdate.writes]
    exact ⟨_, _, List.mem_cons_self⟩
  | declineBooking hupdate =>
    rw [hupdate.writes]
    exact ⟨_, _, List.mem_cons_self⟩
  | @rescheduleBooking req _ _ _ _ old _ _ newId _ _ hmove =>
    refine ⟨newId, old.movedTo req.newSlotId, ?_⟩
    rw [hmove.writes]
    simp

/-- A move that does not commit, or comes after the commit, writes no booking. -/
theorem Request.Moves.wrote_not {adm : Stmt → Database → Prop} {req : Request} {g g' : Progress}
    {env : Progress → Database → Env Nat JsError Ask.Answer → Prop} {d : Database} {ws : List Write}
    {know : Progress → Database → Prop} (h : req.Moves cat fromColumn adm env know g d ws g')
    (hquiet : g'.Open) {id : BookingId} {row : Booking} : Write.booking id row ∉ ws := by
  obtain ⟨rfl, -⟩ := h.writes_of_open hquiet
  exact List.not_mem_nil

/-- What a cancellation has read stays so. -/
theorem Request.Moves.informed {adm : Stmt → Database → Prop} {req req' : Request} {g g' g₁ : Progress}
    {env : Progress → Database → Env Nat JsError Ask.Answer → Prop} {d : Database} {ws : List Write}
    {know : Progress → Database → Prop} (h : req.Moves cat fromColumn adm env know g d ws g')
    (hinformed : req'.Informed g₁ d) : req'.Informed g₁ ((chronos cat).apply ws d) := by
  intro b hb
  obtain ⟨id, ifMatch, session, queue, b', hcancel, hb', hsame, hsession⟩ := hinformed b hb
  obtain ⟨b'', hb'', hsame'⟩ := h.booking_stays hb'
  exact ⟨id, ifMatch, session, queue, b'', hcancel, hb'',
    ⟨hsame'.1.trans hsame.1, hsame'.2.trans hsame.2⟩, hsession⟩

/-- What a cancellation reads is so. -/
theorem Request.Moves.informed_self {adm : Stmt → Database → Prop} {req : Request} {g g' : Progress}
    {env : Progress → Database → Env Nat JsError Ask.Answer → Prop} {d : Database} {ws : List Write}
    {know : Progress → Database → Prop} (h : req.Moves cat fromColumn adm env know g d ws g')
    (hinformed : req.Informed g d) : req.Informed g' ((chronos cat).apply ws d) := by
  cases h with
  | stay => exact hinformed
  | @read id ifMatch session queue _ b hread =>
    rintro b' hb
    obtain rfl := Progress.hasRead.inj hb
    exact ⟨id, ifMatch, session, queue, b, rfl, hread.booking, ⟨rfl, rfl⟩, hread.owner⟩
  | remind _ => exact fun b hb => nomatch hb
  | createBooking _ _ _ => exact fun b hb => nomatch hb
  | cancelBooking _ _ => exact fun b hb => nomatch hb
  | confirmBooking _ => exact fun b hb => nomatch hb
  | declineBooking _ => exact fun b hb => nomatch hb
  | rescheduleBooking _ _ => exact fun b hb => nomatch hb

variable [DecidableEq ι]

/-- **Step lemma.** -/
theorem preserved_accounted : Preserved (chronos cat) (contracts cat fromColumn (fun _ _ _ => True)
    (fun _ _ _ _ => True) (fun _ _ _ => True) reqs) (Accounted reqs) where
  know _ _ _ _ _ := trivial
  move := by
    intro d j G i ws g' h hm
    have hmoves : (reqs i).Moves cat fromColumn _ _ _ (G i) d ws g' := hm
    refine ⟨fun k => ?_, fun k => ?_⟩
    · by_cases hk : k = i
      · subst hk
        rw [Function.update_self]
        constructor
        · rintro ⟨id, row, hmem⟩ hopen
          rcases List.mem_append.mp hmem with hmem | hmem
          · exact (h.wrote k).mp ⟨id, row, hmem⟩ (hmoves.writes_of_open hopen).2
          · obtain ⟨w, hw, he⟩ := List.mem_map.mp hmem
            exact hmoves.wrote_not hopen ((Prod.mk.inj he).2 ▸ hw)
        · intro hdone
          by_cases hg : (G k).Open
          · obtain ⟨id, row, hw⟩ := hmoves.wrote (h.informed k) hg hdone
            exact ⟨id, row, List.mem_append_right _ (List.mem_map_of_mem hw)⟩
          · obtain ⟨id, row, hmem⟩ := (h.wrote k).mpr hg
            exact ⟨id, row, List.mem_append_left _ hmem⟩
      · rw [Function.update_of_ne hk, ← h.wrote k]
        constructor
        · rintro ⟨id, row, hmem⟩
          rcases List.mem_append.mp hmem with hmem | hmem
          · exact ⟨id, row, hmem⟩
          · obtain ⟨w, -, he⟩ := List.mem_map.mp hmem
            exact absurd (Prod.mk.inj he).1.symm hk
        · rintro ⟨id, row, hmem⟩
          exact ⟨id, row, List.mem_append_left _ hmem⟩
    · by_cases hk : k = i
      · subst hk
        rw [Function.update_self]
        exact hmoves.informed_self (h.informed k)
      · rw [Function.update_of_ne hk]
        exact hmoves.informed (h.informed k)

variable {C : Type} [DecidableEq C] {d₀ : Database}

/-- The tables show the book that the calls of `l` leave behind, served one after the other: each at
    most once, just those that have committed a booking, among them all that answer with success. -/
structure InTurn (reqs : ι → Request) (k₀ : AppointmentBook) (w : Service C ι)
    (l : List (ι × Option BookingId)) : Prop where
  once : (l.map Prod.fst).Nodup
  served : InSequence (fun i => (reqs i).Serves) k₀ l w.db.book
  committed : ∀ i, (∃ x, (i, x) ∈ l) ↔ Wrote w.journal i
  answered : ∀ i r, (w.prog i).result = some r → (reqs i).Succeeded r → (i, createdId r) ∈ l

/-- The contracts of requests that rely on nothing. -/
abbrev freeContracts (cat : Catalog) (fromColumn : Instant → Except JsError Instant)
    (reqs : ι → Request) : ι → Contract Ask.Answer Stmt Database Write Nat JsError Progress :=
  contracts cat fromColumn (fun _ _ _ => True) (fun _ _ _ _ => True) (fun _ _ _ => True) reqs

/-- The order in which calls have committed, and how far each has come. -/
abbrev Ordered (cat : Catalog) (fromColumn : Instant → Except JsError Instant) (reqs : ι → Request)
    (k₀ : AppointmentBook) (w : Service C ι) (l : List (ι × Option BookingId)) (G : ι → Progress) :
    Prop :=
  Linearized Database.book Progress.served (fun i => (reqs i).Serves) (Accounted reqs)
    (fun i => (reqs i).Ends (freeContracts cat fromColumn reqs i)) k₀ w l G

omit [DecidableEq ι] [DecidableEq C] in
theorem Ordered.inTurn {k₀ : AppointmentBook} {w : Service C ι} {l : List (ι × Option BookingId)}
    {G : ι → Progress} (h : Ordered cat fromColumn reqs k₀ w l G) : InTurn reqs k₀ w l where
  once := h.once
  served := h.runs
  committed := by
    intro i
    rw [h.inv.wrote i, ← served_eq_none, ← ne_eq, Option.ne_none_iff_exists']
    exact exists_congr fun x => h.mem i x
  answered i r hr hsuccess := (h.mem i _).mpr (Request.Ends.served (h.ended i r hr) hsuccess)

/-- **Run lemma.** -/
theorem ordered_reaches {w₁ w₂ : Service C ι}
    (h₁ : Reaches (chronos cat) Exclusive (Service.start fromColumn d₀ reqs) w₁)
    (h₂ : Reaches (chronos cat) Exclusive w₁ w₂) :
    ∃ l later G₁ G₂, Ordered cat fromColumn reqs d₀.book w₁ l G₁ ∧
      Ordered cat fromColumn reqs d₀.book w₂ (l ++ later) G₂ := by
  have h₀ : Accounted reqs d₀ [] fun _ : ι => Progress.begun :=
    { wrote := fun i => ⟨fun ⟨_, _, hmem⟩ => absurd hmem List.not_mem_nil,
        fun h => absurd (fun _ hx => nomatch hx) h⟩
      informed := fun _ b hb => nomatch hb }
  exact Modular.linearize (lawful cat) preserved_accounted
    (fun w l hP => ⟨hP, fun _ _ _ _ _ _ _ => trivial, fun _ _ => trivial⟩)
    (fun d j G i ws g' hJ hm => Request.Moves.silentOrServed hm (hJ.informed i))
    (modular_start (fun _ => localTo_true cat) h₀) (fun _ => rfl) h₁ h₂

end Runs

end Chronos
