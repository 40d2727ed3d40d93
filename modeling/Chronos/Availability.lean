import Chronos.AppointmentBook
import Chronos.Materializer
import Chronos.Notifications
import Chronos.Permanence

namespace Chronos

open ReadCommitted ReadCommitted.Prog

/-!
# What a provider's page offers

`GET /providers/:id/availability` lists the open slots of a provider.  A client picks one of them and
posts a booking.

* `getAvailability`, `offered_iff` — the page, and what is on it.
* `AppointmentBook.Orderly` — nobody stands on an open slot.  Requests keep it when they are served one
  after the other, so the service keeps it (`orderly_reaches`).
* `offers_stand` — what the page offers is booked when it is asked for, what it does not is refused,
  and the next page offers the rest.
-/

/-! ### The page -/

/-- A provider as the page reads them. -/
structure ProviderProfile where
  timezone : String
  deriving DecidableEq

/-- `{ ...s, display_tz: displayTz }`. -/
structure OfferedSlot where
  id : SlotId
  slot : Slot
  displayTz : String
  deriving DecidableEq

structure Availability where
  provider : ProviderProfile
  rules : List Time.AvailabilityRule
  slots : List OfferedSlot
  deriving DecidableEq

/-- `where: { providerId: id, status: 'open' }, orderBy: { slotStartUtc: 'asc' }`. -/
def Database.openSlots (d : Database) (id : ProviderId) : List (SlotId × Slot) :=
  ((d.slots.entries.map fun e => (e.1, e.2)).filter fun e =>
    decide (e.2.providerId = id) && decide (e.2.status = .«open»)).mergeSort fun a b =>
      decide (a.2.slotStartUtc ≤ b.2.slotStartUtc)

section Page

variable (profiles : ProviderId → Option ProviderProfile) (rules : List Time.AvailabilityRule)

/-- `AvailabilityController.getAvailability`. -/
def getAvailability (d : Database) (id : ProviderId) (tz : Option String) :
    Except String Availability :=
  match profiles id with
  | none => .error "Provider not found"
  | some provider =>
    let displayTz := ((truthy tz).or (truthy (some provider.timezone))).getD "UTC"
    .ok { provider := provider
          rules := rules.filter fun r => decide (r.providerId = id) && r.active
          slots := (d.openSlots id).map fun e => ⟨e.1, e.2, displayTz⟩ }

/-- The page of provider `id` offers slot `s`. -/
def Offered (d : Database) (id : ProviderId) (tz : Option String) (s : SlotId) : Prop :=
  ∃ page, getAvailability profiles rules d id tz = .ok page ∧ ∃ o ∈ page.slots, o.id = s

variable {profiles rules} {d d' : Database} {id : ProviderId} {tz : Option String} {s : SlotId}

theorem mem_openSlots {row : Slot} : (s, row) ∈ d.openSlots id ↔
    d.slots.lookup s = some row ∧ row.providerId = id ∧ row.status = .«open» := by
  unfold Database.openSlots
  rw [List.mem_mergeSort, List.mem_filter, List.mem_map]
  simp only [Bool.and_eq_true, decide_eq_true_eq]
  refine and_congr_left fun _ => ?_
  rw [← Option.mem_def, AList.mem_lookup_iff]
  constructor
  · rintro ⟨e, he, heq⟩
    obtain ⟨rfl, rfl⟩ := Prod.mk.inj heq
    exact he
  · exact fun h => ⟨_, h, rfl⟩

/-- **The page offers the open slots of the provider**, whatever time zone it is asked for in. -/
theorem offered_iff : Offered profiles rules d id tz s ↔ (profiles id).isSome = true ∧
    ∃ row, d.slots.lookup s = some row ∧ row.providerId = id ∧ row.status = .«open» := by
  unfold Offered getAvailability
  cases hprofile : profiles id with
  | none => simp
  | some provider =>
    simp only [Except.ok.injEq, exists_eq_left', Option.isSome_some, true_and, List.mem_map]
    constructor
    · rintro ⟨_, ⟨⟨s', row⟩, hmem, rfl⟩, rfl⟩
      exact ⟨row, mem_openSlots.mp hmem⟩
    · rintro ⟨row, hrow⟩
      exact ⟨_, ⟨⟨s, row⟩, mem_openSlots.mpr hrow, rfl⟩, rfl⟩

end Page

/-! ### Nobody stands on an open slot -/

namespace AppointmentBook

variable {k : AppointmentBook} {s : SlotId} {i j : BookingId} {e : Entry} {status : SlotStatus}

@[simp] theorem holds_setSlot {s' : SlotId} : (k.setSlot s' status).Holds i s ↔ k.Holds i s := Iff.rfl

@[simp] theorem holds_reopen {s' : SlotId} : (k.reopen s').Holds i s ↔ k.Holds i s := Iff.rfl

theorem holds_setEntry : (k.setEntry j e).Holds i s ↔
    (i = j ∧ e.status ≠ .cancelled ∧ e.slotId = s) ∨ (i ≠ j ∧ k.Holds i s) := by
  unfold Holds
  rw [entries_setEntry]
  by_cases hij : i = j
  · simp [hij]
  · simp [hij]

theorem setEntry_setSlot : (k.setSlot s status).setEntry j e = (k.setEntry j e).setSlot s status := rfl

theorem reopen_setSlot {s' : SlotId} (h : s' ≠ s) :
    (k.setSlot s status).reopen s' = (k.reopen s').setSlot s status := by
  refine AppointmentBook.ext (funext fun t => ?_) rfl
  rw [slots_reopen, slots_setSlot, slots_setSlot, slots_setSlot, slots_reopen, if_neg h]
  by_cases ht : t = s'
  · rw [if_pos ht, if_neg (ht ▸ h), if_pos ht]
  · rw [if_neg ht, if_neg ht]

/-- An entry that is cancelled stands no more. -/
theorem holds_cancelled : (k.setEntry j { e with status := .cancelled }).Holds i s ↔
    i ≠ j ∧ k.Holds i s := by
  rw [holds_setEntry]
  simp

/-- An entry that keeps standing stands where it stood. -/
theorem holds_setStatus {status : BookingStatus} (he : k.entries j = some e)
    (hstood : e.status ≠ .cancelled) (hstands : status ≠ .cancelled) :
    (k.setEntry j { e with status := status }).Holds i s ↔ k.Holds i s := by
  rw [holds_setEntry]
  by_cases hij : i = j
  · subst hij
    constructor
    · rintro (⟨-, -, hs⟩ | ⟨hne, -⟩)
      · exact ⟨e, he, hstood, hs⟩
      · exact absurd rfl hne
    · rintro ⟨e', he', -, hs⟩
      obtain rfl := Option.some.inj (he.symm.trans he')
      exact Or.inl ⟨rfl, hstands, hs⟩
  · simp [hij]

/-- No two bookings stand on one slot, and none on an open one. -/
structure Orderly (k : AppointmentBook) : Prop where
  oneHolder : ∀ s i j, k.Holds i s → k.Holds j s → i = j
  openFree : ∀ s i, k.slots s = some .«open» → ¬ k.Holds i s

/-- The slot of a standing booking may be opened together with its cancellation. -/
theorem Orderly.vacate (h : k.Orderly) (he : k.entries j = some e) (hstood : e.status ≠ .cancelled) :
    ((k.setEntry j { e with status := .cancelled }).reopen e.slotId).Orderly where
  oneHolder s i i' hi hi' := by
    rw [holds_reopen, holds_cancelled] at hi hi'
    exact h.oneHolder s i i' hi.2 hi'.2
  openFree s i hopen hi := by
    rw [holds_reopen, holds_cancelled] at hi
    rw [slots_reopen, slots_setEntry] at hopen
    by_cases hs : s = e.slotId
    · -- Whoever stands on the slot is the booking that is cancelled.
      exact hi.1 (h.oneHolder s i j hi.2 ⟨e, he, hstood, hs.symm⟩)
    · rw [if_neg hs] at hopen
      exact h.openFree s i hopen hi.2

/-- A new booking may be entered on a slot nobody stands on. -/
theorem Orderly.enter {client : ClientId} (h : k.Orderly) (hfree : ∀ i, i ≠ j → ¬ k.Holds i s) :
    ((k.setSlot s .booked).setEntry j ⟨s, client, .booked⟩).Orderly where
  oneHolder s' i i' hi hi' := by
    rw [holds_setEntry, holds_setSlot] at hi hi'
    rcases hi with ⟨rfl, -, rfl⟩ | ⟨hij, hi⟩ <;> rcases hi' with ⟨rfl, -, hs⟩ | ⟨hij', hi'⟩
    · rfl
    · exact absurd hi' (hfree i' hij')
    · subst hs
      exact absurd hi (hfree i hij)
    · exact h.oneHolder s' i i' hi hi'
  openFree s' i hopen hi := by
    rw [slots_setEntry, slots_setSlot] at hopen
    rw [holds_setEntry, holds_setSlot] at hi
    by_cases hs : s' = s
    · rw [if_pos hs] at hopen
      cases hopen
    · rw [if_neg hs] at hopen
      rcases hi with ⟨-, -, heq⟩ | ⟨-, hi⟩
      · exact hs heq.symm
      · exact h.openFree s' i hopen hi

end AppointmentBook

/-- A cancellation finds its booking `booked`. -/
def Request.FindsBooked (k : AppointmentBook) : Request → Prop
  | .cancelBooking id .. => ∃ e, k.entries id = some e ∧ e.status = .booked
  | _ => True

/-- **Whoever is served keeps the book in order.** -/
theorem Request.Serves.orderly {req : Request} {x : Option BookingId} {k k' : AppointmentBook}
    (h : req.Serves x k k') (hfinds : req.FindsBooked k) (hk : k.Orderly) : k'.Orderly := by
  have hstood : ∀ {e : Entry}, e.status = .booked → e.status ≠ .cancelled := by
    intro e he
    rw [he]
    decide
  cases h with
  | createBooking _ hfree _ => exact hk.enter fun i _ => hfree i
  | @cancelBooking id _ _ _ _ e he _ =>
    obtain ⟨e', he', hbooked⟩ := hfinds
    obtain rfl := Option.some.inj (he.symm.trans he')
    exact hk.vacate he (hstood hbooked)
  | @confirmBooking id _ _ e he _ hbooked =>
    have hholds := fun i s => AppointmentBook.holds_setStatus (i := i) (s := s) he (hstood hbooked)
      (show BookingStatus.completed ≠ .cancelled by decide)
    exact ⟨fun s i j hi hj => hk.oneHolder s i j ((hholds i s).mp hi) ((hholds j s).mp hj),
      fun s i hopen hi => hk.openFree s i hopen ((hholds i s).mp hi)⟩
  | declineBooking _ _ _ =>
    refine ⟨fun s i j hi hj => ?_, fun s i hopen hi => ?_⟩
    · exact hk.oneHolder s i j (AppointmentBook.holds_cancelled.mp hi).2
        (AppointmentBook.holds_cancelled.mp hj).2
    · exact hk.openFree s i hopen (AppointmentBook.holds_cancelled.mp hi).2
  | @rescheduleBooking req _ _ _ e newId he hbooked hopen hfree hfresh =>
    -- The new slot is open, so the booking stands on another one.
    have hne : e.slotId ≠ req.newSlotId := fun heq =>
      hk.openFree req.newSlotId req.bookingId hopen ⟨e, he, hstood hbooked, heq⟩
    rw [AppointmentBook.setEntry_setSlot, AppointmentBook.reopen_setSlot hne]
    refine (hk.vacate he (hstood hbooked)).enter fun i _ hi => ?_
    rw [AppointmentBook.holds_reopen, AppointmentBook.holds_cancelled] at hi
    exact hfree i hi.1 hi.2

section Runs

variable {cat : Catalog} {fromColumn : Instant → Except JsError Instant} {ι : Type}
variable {reqs : ι → Request} {d : Database}

/-- The invariant: the book is in order, and what cancellations have read is still so. -/
structure InOrder (reqs : ι → Request) (d : Database) (_ : List (ι × Write)) (G : ι → Progress) :
    Prop where
  book : d.book.Orderly
  informed : ∀ i, (reqs i).Informed (G i) d

theorem Request.Moves.orderly {env : Progress → Database → Env Nat JsError Ask.Answer → Prop}
    {know : Progress → Database → Prop} {i : ι} {g g' : Progress} {ws : List Write}
    (h : (reqs i).Moves cat fromColumn StillBooked env know g d ws g')
    (hinformed : (reqs i).Informed g d) (hd : d.book.Orderly) :
    ((chronos cat).apply ws d).book.Orderly := by
  rcases h.silentOrServed hinformed with ⟨hview, -⟩ | ⟨x, hopen, hserved, hserves⟩
  · rw [hview]
    exact hd
  · refine hserves.orderly ?_ hd
    generalize reqs i = req at h
    cases h with
    | cancelBooking _ hadm =>
      obtain ⟨b, hb, hbooked⟩ := hadm
      exact ⟨b.entry, book_entries hb, hbooked⟩
    | read _ => cases hserved
    | stay =>
      rw [hopen] at hserved
      cases hserved
    | remind _ => cases hopen
    | _ => exact trivial

variable [DecidableEq ι]

/-- **Step lemma.** -/
theorem preserved_inOrder : Preserved (chronos cat) (contracts cat fromColumn (fun _ => StillBooked)
    (fun _ _ _ _ => True) (fun _ _ _ => True) reqs) (InOrder reqs) where
  know _ _ _ _ _ := trivial
  move := by
    intro d j G i ws g' h hm
    have hmoves : (reqs i).Moves cat fromColumn StillBooked _ _ (G i) d ws g' := hm
    refine ⟨hmoves.orderly (h.informed i) h.book, fun k => ?_⟩
    by_cases hk : k = i
    · subst hk
      rw [Function.update_self]
      exact hmoves.informed_self (h.informed k)
    · rw [Function.update_of_ne hk]
      exact hmoves.informed (h.informed k)

variable {C : Type} [DecidableEq C] {d₀ : Database} {w : Service C ι}

/-- Nobody shares a connection, and a cancellation comes to its `UPDATE` only while the booking is
    `booked`. -/
def Timely (cat : Catalog) (w : Service C ι) (l : Label Ask.Answer Nat JsError C ι) : Prop :=
  Exclusive w l ∧ Admits (chronos cat) (fun _ => StillBooked) w l

/-- **Run lemma.** -/
theorem orderly_reaches (hd : d₀.book.Orderly)
    (h : Reaches (chronos cat) (Timely cat) (Service.start fromColumn d₀ reqs) w) :
    w.db.book.Orderly := by
  have h₀ : InOrder reqs d₀ [] fun _ : ι => Progress.begun := ⟨hd, fun _ _ hb => nomatch hb⟩
  obtain ⟨_, _, hmod⟩ := Modular.reaches (lawful cat) preserved_inOrder
    (fun w l hP => ⟨hP.1, hP.2, fun _ _ => trivial⟩)
    (modular_start (fun _ => localTo_stillBooked cat) h₀) h
  exact hmod.inv.book

/-- A call keeps to a dialogue that says nothing. -/
theorem follows_request (req : Request) : (req.program fromColumn).Follows anyFacts.dialogue := by
  cases req with
  | createBooking req nowUtc queue => exact follows_createBooking fun _ _ => trivial
  | cancelBooking id ifMatch session queue => exact follows_cancelBooking
  | confirmBooking id session => exact follows_updateAsOwner trivial
  | declineBooking id session queue spelling => exact follows_updateAsOwner follows_cancelReminderJobs
  | rescheduleBooking req nowUtc queue => exact follows_rescheduleBooking fun _ _ _ _ _ => trivial

/-- The constraints of the schema hold all along. -/
theorem sound_service (hd : d₀.Sound cat)
    (h : Reaches (chronos cat) (Timely cat) (Service.start fromColumn d₀ reqs) w) :
    w.db.Sound cat :=
  (World.Vetted.reaches (vetting_sound cat ι d₀)
    (fun _ _ _ => ⟨fun _ _ _ _ _ _ => trivial, fun a _ _ => learns_anyFacts a _⟩)
    (vetted_init ⟨.refl d₀, hd⟩ fun i => follows_request (reqs i)) h).db.2

end Runs

/-! ### What is offered is booked -/

section Offers

variable {cat : Catalog} {d d' : Database} {req : BookingRequest} {now : Instant} {queue : Bool}

/-- A request that is in time for slot `row` and has nothing else against it. -/
structure Admissible (cat : Catalog) (d : Database) (req : BookingRequest) (now : Instant)
    (row : Slot) : Prop where
  notPast : now ≤ row.slotStartUtc
  notice : now + hoursMs (req.noticeHours cat d) ≤ row.slotStartUtc
  fits : ∀ e, req.eventTypeId = some e → EventTypeFits cat e req.slotId d
  client : cat.clients req.clientId = true
  unused : ∀ key, truthy req.idempotencyKey = some key →
    d.idempotencyKeys.lookup (req.clientId, key) = none

/-- Of admissible requests, those for open slots are accepted. -/
theorem Admissible.accepts_iff {row : Slot} (h : Admissible cat d req now row)
    (hrow : d.slots.lookup req.slotId = some row) (hd : d.book.Orderly) :
    Accepts cat d req now ↔ row.status = .«open» := by
  constructor
  · rintro ⟨⟨row', hrow', hopen, -⟩, -, -, -, -⟩
    obtain rfl := Option.some.inj (hrow.symm.trans hrow')
    exact hopen
  · intro hopen
    have hslot : d.book.slots req.slotId = some .«open» := by rw [book_slots hrow, hopen]
    exact ⟨⟨row, hrow, hopen, h.notPast, h.notice⟩, h.fits, h.client,
      fun i hi => hd.openFree req.slotId i hslot (holds_book.mpr hi), h.unused⟩

/-- How a call ends: it books the slot if the request is to be accepted, and leaves the other slots. -/
structure TakesSlot (cat : Catalog) (d : Database) (req : BookingRequest) (now : Instant)
    (d' : Database) (r : Except JsError Reply) : Prop where
  accepted : (∃ id, r = .ok (.created id false)) ↔ Accepts cat d req now
  refused : ¬ Accepts cat d req now → d' = d
  taken : Accepts cat d req now → ∀ row, d'.slots.lookup req.slotId = some row → row.status = .booked
  others : ∀ s, s ≠ req.slotId → d'.slots.lookup s = d.slots.lookup s

theorem yields_takesSlot (hforeign : d.RemindsOfBookings) (tr : List (Event Stmt Ask.Answer JsError)) :
    (createBookingAt req now queue).Yields (chronos cat) (Favourable d)
      (fun _ st r => TakesSlot cat d req now st.db r) tr (.free d) := by
  refine yields_createBookingCalmly cat (fun _ h => ⟨h.calm.1, h.fresh⟩) now queue tr hforeign ?_ ?_
  · intro tr' reply _ hreply hno
    refine ⟨iff_of_false ?_ hno, fun _ => rfl, fun h => absurd h hno, fun _ _ => rfl⟩
    rintro ⟨id, heq⟩
    exact hreply id (congrArg some (Except.ok.inj heq))
  · intro tr' clocks id row ws haccepts _ _ hnew
    -- The queue is filled after the `COMMIT`, and has no slots.
    have htakes : ∀ d', SameBookings ((chronos cat).apply ws d) d' →
        TakesSlot cat d req now d' (.ok (.created id false)) := by
      intro d' hsame
      refine ⟨iff_of_true ⟨id, rfl⟩ haccepts, fun h => absurd haccepts h, fun _ row' hrow' => ?_,
        fun s hs => ?_⟩
      · rw [hsame.slots, hnew.slots, if_pos rfl] at hrow'
        rw [← Option.some.inj hrow']
      · rw [hsame.slots, hnew.slots, if_neg hs]
    cases queue with
    | false => exact ⟨rfl, htakes _ ⟨rfl, rfl, rfl, rfl⟩⟩
    | true =>
      refine (yields_enqueueRemindersCalmly fun _ h => h.calm).mono ?_
      rintro tr'' _ r ⟨rfl, d', rfl, hqueued⟩
      exact ⟨rfl, htakes _ hqueued.tables⟩

/-- The next page offers the rest. -/
theorem TakesSlot.offered {profiles : ProviderId → Option ProviderProfile}
    {rules : List Time.AvailabilityRule} {row : Slot} {r : Except JsError Reply}
    (h : TakesSlot cat d req now d' r) (hrow : d.slots.lookup req.slotId = some row)
    (hopen : Accepts cat d req now ↔ row.status = .«open») (p : ProviderId) (tz : Option String)
    (s : SlotId) : Offered profiles rules d' p tz s ↔
      Offered profiles rules d p tz s ∧ s ≠ req.slotId := by
  rw [offered_iff, offered_iff, and_assoc]
  refine and_congr_right fun _ => ?_
  by_cases hs : s = req.slotId
  · subst hs
    refine iff_of_false ?_ fun hoffered => hoffered.2 rfl
    rintro ⟨row', hrow', -, hopen'⟩
    by_cases haccepts : Accepts cat d req now
    · rw [h.taken haccepts row' hrow'] at hopen'
      cases hopen'
    · rw [h.refused haccepts, hrow, Option.some.injEq] at hrow'
      exact haccepts (hopen.mpr (hrow' ▸ hopen'))
  · rw [h.others s hs]
    exact ⟨fun hoffered => ⟨hoffered, hs⟩, And.left⟩

variable {C ι : Type} [DecidableEq C] [DecidableEq ι] {d₀ : Database} {w : Service C ι}
variable {fromColumn : Instant → Except JsError Instant} {reqs : ι → Request}
variable (profiles : ProviderId → Option ProviderProfile) (rules : List Time.AvailabilityRule)

/-- **Offers stand.**  Calls have been at work side by side, without a stale cancellation among them.
    Then a request in time for a slot of a provider, served next with nothing failing, is accepted if and
    only if the provider's page offers the slot; and afterwards all pages offer what they offered, but
    for this slot. -/
theorem offers_stand (horder : d₀.book.Orderly) (hsound : d₀.Sound cat)
    (h : Reaches (chronos cat) (Timely cat) (Service.start fromColumn d₀ reqs) w) {row : Slot}
    (hrow : w.db.slots.lookup req.slotId = some row)
    (hprofile : (profiles row.providerId).isSome = true)
    (hadmissible : Admissible cat w.db req now row) (tz : Option String)
    {tr : List (Event Stmt Ask.Answer JsError)} {r : Except JsError Reply}
    (hserved : PerformsIn (chronos cat) (Favourable w.db) .idle w.db
      (createBooking req (some now) queue) tr d' r) :
    ((∃ id, r = .ok (.created id false)) ↔
      Offered profiles rules w.db row.providerId tz req.slotId) ∧
    ∀ p tz s, Offered profiles rules d' p tz s ↔
      Offered profiles rules w.db p tz s ∧ s ≠ req.slotId := by
  have hforeign : w.db.RemindsOfBookings := by
    intro k hk
    by_contra hne
    obtain ⟨job, hjob⟩ := Option.ne_none_iff_exists'.mp hne
    have hsome := (sound_service hsound h).reminders k job hjob
    rw [hk] at hsome
    cases hsome
  have hopen := hadmissible.accepts_iff hrow (orderly_reaches horder h)
  obtain ⟨st, rfl, htakes⟩ := (yields_takesSlot hforeign []).performs hserved
  refine ⟨?_, fun p tz s => htakes.offered hrow hopen p tz s⟩
  rw [htakes.accepted, hopen, offered_iff, hrow]
  constructor
  · exact fun hstatus => ⟨hprofile, row, rfl, rfl, hstatus⟩
  · rintro ⟨-, row', hrow', -, hstatus⟩
    obtain rfl := Option.some.inj hrow'
    exact hstatus

end Offers

/-! #### A slot that is offered again -/

theorem eq_of_lookup_singleton {ρ : Type} {i j : ℕ} {a b : ρ}
    (h : ((∅ : AList fun _ : ℕ => ρ).insert j b).lookup i = some a) : i = j ∧ a = b := by
  by_cases hij : i = j
  · subst hij
    rw [AList.lookup_insert, Option.some.injEq] at h
    exact ⟨rfl, h.symm⟩
  · rw [AList.lookup_insert_ne hij] at h
    cases h

/-- Slot `1` is taken by booking `1`. -/
theorem sound_sampleBooked : (sampleBooked .booked .booked 1).Sound sampleCatalog where
  slots id row h := by
    obtain ⟨-, rfl⟩ := eq_of_lookup_singleton h
    exact ⟨by decide, rfl⟩
  bookings id row h := by
    obtain ⟨-, rfl⟩ := eq_of_lookup_singleton h
    exact ⟨rfl, rfl⟩
  reminders id row h := by
    have hid : id.1 = 1 := by
      by_contra hne
      have h₁ : id ≠ (1, 1440) := fun heq => hne (congrArg Prod.fst heq)
      have h₂ : id ≠ (1, 60) := fun heq => hne (congrArg Prod.fst heq)
      have hnone : (sampleBooked .booked .booked 1).reminderJobs.lookup id = none := by
        unfold sampleBooked
        rw [AList.lookup_insert_ne h₂, AList.lookup_insert_ne h₁]
        rfl
      rw [hnone] at h
      cases h
    rw [hid]
    rfl
  keys k row h := nomatch h
  oneLive := oneLive_sampleBooked _ _ _

theorem orderly_sampleBooked : (sampleBooked .booked .booked 1).book.Orderly where
  oneHolder s i j hi hj := oneLive_sampleBooked _ _ _ s i j (holds_book.mp hi) (holds_book.mp hj)
  openFree s i hopen _ := by
    obtain ⟨row, hrow, hstatus⟩ := Option.map_eq_some_iff.mp hopen
    obtain ⟨-, rfl⟩ := eq_of_lookup_singleton hrow
    cases hstatus

/-- Client `6` asks for slot `1`. -/
def otherRequest : BookingRequest := { sampleRequest with clientId := 6 }

/-- Client `5` cancels booking `1`: its slot is offered again, and client `6` has it. -/
theorem offers_stand_reopened : ∃ (w : Service Unit Unit) (d' : Database),
    Offered (fun _ => some ⟨"UTC"⟩) [] w.db 7 none 1 ∧ d'.bookings.lookup 2 ≠ none ∧
      ¬ Offered (fun _ => some ⟨"UTC"⟩) [] d' 7 none 1 := by
  have hrun : ∃ w : Service Unit Unit, World.run (chronos sampleCatalog)
      (stillBooked sampleCatalog) (World.init (sampleBooked .booked .booked 1) fun _ =>
        (Request.cancelBooking 1 none (some 5) false).program .ok)
      (ownSteps (fun _ => calmEnv 2 0) (List.replicate 8 ())) = some w ∧
      w.db.slots.lookup 1 = some (sampleSlot .«open») ∧ w.db.bookings.lookup 2 = none ∧
      ∃ d', runAlone (chronos sampleCatalog) (List.replicate 10 (calmEnv 2 0)) .idle w.db
        (createBooking otherRequest (some 0) false) =
          some (.idle, d', ret (.created 2 false)) ∧ d'.bookings.lookup 2 ≠ none :=
    ⟨_, by with_unfolding_all rfl, rfl, rfl, _, by with_unfolding_all rfl, by with_unfolding_all nofun⟩
  obtain ⟨w, hw, hslot, hfresh, d', hbook, hbooked⟩ := hrun
  have hreach : Reaches (chronos sampleCatalog) (Timely sampleCatalog) _ w :=
    (reaches_ownSteps (fun _ => calm_calmEnv 2 0) admits_of_stillBooked hw).mono fun _ _ hP =>
      ⟨hP.2, hP.1.1⟩
  obtain ⟨tr, hserved⟩ := performsIn_of_runAlone (P := Favourable w.db) (fun env henv => by
    rw [List.eq_of_mem_replicate henv]
    exact ⟨calm_calmEnv 2 0, hfresh⟩) hbook rfl
  have hnotice : otherRequest.noticeHours sampleCatalog w.db = 4 := by
    unfold BookingRequest.noticeHours
    rw [show w.db.slots.lookup otherRequest.slotId = _ from hslot]
    rfl
  have hadmissible : Admissible sampleCatalog w.db otherRequest 0 (sampleSlot .«open») :=
    ⟨by decide, by rw [hnotice]; decide, fun e he => (nomatch he), rfl, fun key hkey => (nomatch hkey)⟩
  obtain ⟨haccepted, hnext⟩ := offers_stand (fun _ => some ⟨"UTC"⟩) []
    orderly_sampleBooked sound_sampleBooked hreach hslot rfl hadmissible none hserved
  exact ⟨w, d', haccepted.mp ⟨2, rfl⟩, hbooked, fun hoffered => ((hnext 7 none 1).mp hoffered).2 rfl⟩

end Chronos
