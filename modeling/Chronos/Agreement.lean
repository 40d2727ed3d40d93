import Chronos.Operations

namespace Chronos

open ReadCommitted ReadCommitted.Prog

/-!
# Slots and bookings agree

A slot should be `booked` exactly while a live booking is on it.  The two tables are kept
in step by hand, in eight functions; `Agrees` is the invariant that makes it work, with the
partial unique index and the foreign key of `bookings.slot_id`.

Two endpoints change whether a booking is live and leave the slot alone: `declineBooking`,
and `updateStatus` with a status on the other side of `cancelled`.
`slot_booked_iff_live` shows that there are no others: `Operation.MovesSlot` excludes exactly
these requests, and then every run keeps the tables in step.
-/

/-- The slot is `booked` exactly while a live booking is on it. -/
def Database.SlotsAgree (d : Database) : Prop :=
  ∀ s slot, d.slots.lookup s = some slot → (slot.status = .booked ↔ ∃ i, d.LiveOn s i)

structure Database.Agrees (d : Database) : Prop where
  oneLive : d.OneLive
  slots : ∀ i b, d.bookings.lookup i = some b → (d.slots.lookup b.slotId).isSome
  agree : d.SlotsAgree

section Agrees

variable {cat : Catalog} {d d' : Database}

/-- A live booking is in the table, a new id is not. -/
theorem Database.LiveOn.ne_of_fresh {s : SlotId} {i id : BookingId} (hi : d.LiveOn s i)
    (hfresh : d.bookings.lookup id = none) : i ≠ id := by
  rintro rfl
  obtain ⟨b, hb, -⟩ := hi
  rw [hfresh] at hb
  cases hb

/-- A live booking is on its own slot. -/
theorem Database.LiveOn.live_slot {s : SlotId} {i : BookingId} {row : Booking} (hi : d.LiveOn s i)
    (hrow : d.bookings.lookup i = some row) : row.live = true ∧ row.slotId = s := by
  obtain ⟨b, hb, hlive, hs⟩ := hi
  obtain rfl : row = b := Option.some.inj (hrow.symm.trans hb)
  exact ⟨hlive, hs⟩

/-- Reminder rows have no part in it. -/
theorem Database.Agrees.sameBut (h : d.Agrees) (hs : SameBut d d') : d'.Agrees := by
  have hlive : ∀ s i, d'.LiveOn s i ↔ d.LiveOn s i := liveOn_of_bookings hs.bookings
  refine ⟨fun s i j hi hj => ?_, fun i b hb => ?_, fun s slot hslot => ?_⟩
  · exact h.oneLive s i j ((hlive s i).mp hi) ((hlive s j).mp hj)
  · rw [hs.slots]
    rw [hs.bookings] at hb
    exact h.slots i b hb
  · rw [hs.slots] at hslot
    simp only [hlive]
    exact h.agree s slot hslot

/-- **A new booking.** -/
theorem NewBooking.agrees {req : BookingRequest} {now minStart : Instant} {row : Slot}
    {reminders ws : List Write} {id : BookingId} (h : d.Agrees)
    (hnew : NewBooking cat req now minStart d row reminders id ws) :
    ((chronos cat).apply ws d).Agrees := by
  refine ⟨fun s i j hi hj => ?_, fun i b hb => ?_, fun s slot hslot => ?_⟩
  · rw [hnew.liveOn] at hi hj
    rcases hi with ⟨rfl, rfl⟩ | ⟨-, hi⟩ <;> rcases hj with ⟨rfl, hs⟩ | ⟨-, hj⟩
    · rfl
    · exact absurd hj (hnew.free j)
    · exact absurd (hs ▸ hi) (hnew.free i)
    · exact h.oneLive s i j hi hj
  · rw [hnew.slots]
    rw [hnew.bookings] at hb
    split at hb
    · obtain rfl := Option.some.inj hb
      simp [BookingRequest.booking]
    · split
      · rfl
      · exact h.slots i b hb
  · rw [hnew.slots] at hslot
    simp only [hnew.liveOn]
    by_cases hs : s = req.slotId
    · subst hs
      rw [if_pos rfl] at hslot
      obtain rfl := Option.some.inj hslot
      exact ⟨fun _ => ⟨id, Or.inl ⟨rfl, rfl⟩⟩, fun _ => rfl⟩
    · rw [if_neg hs] at hslot
      rw [h.agree s slot hslot]
      constructor
      · rintro ⟨i, hi⟩
        exact ⟨i, Or.inr ⟨hi.ne_of_fresh hnew.fresh, hi⟩⟩
      · rintro ⟨i, ⟨-, rfl⟩ | ⟨-, hi⟩⟩
        · exact absurd rfl hs
        · exact ⟨i, hi⟩

/-- **A change of status** keeps the tables in step when a live booking stays live and its
    slot is left alone, or is cancelled and its slot is opened, and when a cancelled booking
    stays cancelled. -/
theorem agrees_statusWrites {id : BookingId} {row : Booking} {status : BookingStatus}
    {version : Int} {reopen : Bool} (h : d.Agrees) (hrow : d.bookings.lookup id = some row)
    (hcase : (row.live = true ∧ (reopen = true ↔ status = .cancelled)) ∨
      (row.live = false ∧ status = .cancelled ∧ reopen = false)) :
    ((chronos cat).apply (statusWrites d id row status version reopen) d).Agrees := by
  -- Only `id` can be live on the slot of a booking that is live.
  have honly : row.live = true → ∀ i, d.LiveOn row.slotId i → i = id :=
    fun hl i hi => h.oneLive row.slotId i id hi ⟨row, hrow, hl, rfl⟩
  refine ⟨fun s i j hi hj => ?_, fun i b hb => ?_, fun s slot hslot => ?_⟩
  · rw [liveOn_statusWrites] at hi hj
    have hcontra : ∀ j, status ≠ .cancelled → j ≠ id → ¬ d.LiveOn row.slotId j := by
      intro j hs hj hlive
      rcases hcase with ⟨hl, -⟩ | ⟨-, hc, -⟩
      · exact hj (honly hl j hlive)
      · exact hs hc
    rcases hi with ⟨rfl, hs, rfl⟩ | ⟨hne, hi⟩ <;> rcases hj with ⟨rfl, hs', hs''⟩ | ⟨hne', hj⟩
    · rfl
    · exact absurd hj (hcontra j hs hne')
    · exact absurd (hs'' ▸ hi) (hcontra i hs' hne)
    · exact h.oneLive s i j hi hj
  · have hslots : ∀ t, ((d.slots.lookup t).isSome) →
        (((chronos cat).apply (statusWrites d id row status version reopen) d).slots.lookup
          t).isSome := by
      intro t ht
      rw [lookup_slot_statusWrites]
      split
      · next hc => rw [Option.isSome_map, ← hc.2]; exact ht
      · exact ht
    rw [lookup_booking_statusWrites] at hb
    split at hb
    · obtain rfl := Option.some.inj hb
      exact hslots row.slotId (h.slots id row hrow)
    · exact hslots b.slotId (h.slots i b hb)
  · rw [lookup_slot_statusWrites] at hslot
    simp only [liveOn_statusWrites]
    split at hslot
    · next hc =>
      -- The slot has been opened, and its one live booking cancelled.
      obtain ⟨hreopen, rfl⟩ := hc
      obtain ⟨slot', -, rfl⟩ := Option.map_eq_some_iff.mp hslot
      rcases hcase with ⟨hl, hiff⟩ | ⟨-, -, hno⟩
      · refine ⟨fun hb => by simp at hb, ?_⟩
        rintro ⟨i, ⟨-, hs, -⟩ | ⟨hne, hi⟩⟩
        · exact absurd (hiff.mp hreopen) hs
        · exact absurd (honly hl i hi) hne
      · rw [hno] at hreopen; cases hreopen
    · next hc =>
      rw [h.agree s slot hslot]
      constructor
      · rintro ⟨i, hi⟩
        by_cases hne : i = id
        · subst hne
          obtain ⟨hl, rfl⟩ := hi.live_slot hrow
          -- It stays live: its slot is not opened.
          have hs : status ≠ .cancelled := by
            intro hs
            rcases hcase with ⟨-, hiff⟩ | ⟨hl', -⟩
            · exact hc ⟨hiff.mpr hs, rfl⟩
            · rw [hl] at hl'; cases hl'
          exact ⟨i, Or.inl ⟨rfl, hs, rfl⟩⟩
        · exact ⟨i, Or.inr ⟨hne, hi⟩⟩
      · rintro ⟨i, ⟨rfl, hs, rfl⟩ | ⟨-, hi⟩⟩
        · rcases hcase with ⟨hl, -⟩ | ⟨-, hs', -⟩
          · exact ⟨i, row, hrow, hl, rfl⟩
          · exact absurd hs' hs
        · exact ⟨i, hi⟩

section Move

variable {fromColumn : Instant → Except JsError Instant} {req : RescheduleRequest} {now : Instant}
variable {old : Booking} {slot : Slot} {reminders ws : List Write} {newId : BookingId}

theorem GuardedMove.oldLive (hmove : GuardedMove cat fromColumn req now d old slot reminders newId ws) :
    d.LiveOn old.slotId req.bookingId :=
  ⟨old, hmove.booking, by simp [Booking.live, hmove.booked], rfl⟩

/-- The old slot is not the new one: it is `booked`, and the new one `open`. -/
theorem GuardedMove.slot_ne (h : d.Agrees)
    (hmove : GuardedMove cat fromColumn req now d old slot reminders newId ws) :
    old.slotId ≠ req.newSlotId := by
  intro heq
  have hbooked := (h.agree req.newSlotId slot hmove.newSlot).mpr
    ⟨req.bookingId, heq ▸ hmove.oldLive⟩
  rw [hmove.isOpen] at hbooked
  cases hbooked

/-- No slot disappears. -/
theorem GuardedMove.isSome_slots (h : d.Agrees)
    (hmove : GuardedMove cat fromColumn req now d old slot reminders newId ws) {t : SlotId}
    (ht : (d.slots.lookup t).isSome) : (((chronos cat).apply ws d).slots.lookup t).isSome := by
  rw [hmove.slots, lookup_slot_vacated, if_neg (hmove.slot_ne h)]
  split
  · next hc => rw [Option.isSome_map, ← hc]; exact ht
  · split
    · rfl
    · exact ht

/-- The slot left is `open`, the one taken is `booked`, and all others are as they were. -/
theorem GuardedMove.slotsAgree (h : d.Agrees)
    (hmove : GuardedMove cat fromColumn req now d old slot reminders newId ws) :
    ((chronos cat).apply ws d).SlotsAgree := by
  have hne := hmove.slot_ne h
  intro s slot' hslot
  rw [hmove.slots, lookup_slot_vacated, if_neg hne] at hslot
  simp only [hmove.liveOn]
  by_cases hs : s = old.slotId
  · subst hs
    rw [if_pos rfl] at hslot
    obtain ⟨row, -, rfl⟩ := Option.map_eq_some_iff.mp hslot
    refine ⟨fun hb => by simp at hb, ?_⟩
    rintro ⟨i, ⟨-, hs⟩ | ⟨-, hold, hi⟩⟩
    · exact absurd hs.symm hne
    · exact absurd (h.oneLive _ _ _ hi hmove.oldLive) hold
  · rw [if_neg hs] at hslot
    by_cases hs' : s = req.newSlotId
    · subst hs'
      rw [if_pos rfl] at hslot
      obtain rfl := Option.some.inj hslot
      exact ⟨fun _ => ⟨newId, Or.inl ⟨rfl, rfl⟩⟩, fun _ => rfl⟩
    · rw [if_neg hs'] at hslot
      rw [h.agree s slot' hslot]
      constructor
      · rintro ⟨i, hi⟩
        refine ⟨i, Or.inr ⟨hi.ne_of_fresh hmove.fresh, ?_, hi⟩⟩
        rintro rfl
        exact hs (hi.live_slot hmove.booking).2.symm
      · rintro ⟨i, ⟨-, rfl⟩ | ⟨-, -, hi⟩⟩
        · exact absurd rfl hs'
        · exact ⟨i, hi⟩

/-- **A move.** -/
theorem GuardedMove.agrees (h : d.Agrees)
    (hmove : GuardedMove cat fromColumn req now d old slot reminders newId ws) :
    ((chronos cat).apply ws d).Agrees := by
  refine ⟨fun s i j hi hj => ?_, fun i b hb => ?_, hmove.slotsAgree h⟩
  · -- At most one live booking on a slot.
    rw [hmove.liveOn] at hi hj
    rcases hi with ⟨rfl, rfl⟩ | ⟨-, hold, hi⟩ <;> rcases hj with ⟨rfl, hs⟩ | ⟨-, hold', hj⟩
    · rfl
    · exact absurd hj (hmove.free j hold')
    · exact absurd (hs ▸ hi) (hmove.free i hold)
    · exact h.oneLive s i j hi hj
  · -- Bookings are on slots that exist.
    rw [hmove.bookings] at hb
    split at hb
    · obtain rfl := Option.some.inj hb
      have hnew : (d.slots.lookup req.newSlotId).isSome := by rw [hmove.newSlot]; rfl
      exact hmove.isSome_slots h hnew
    · split at hb
      · obtain rfl := Option.some.inj hb
        have hold := h.slots req.bookingId old hmove.booking
        exact hmove.isSome_slots h hold
      · exact hmove.isSome_slots h (h.slots i b hb)

end Move

end Agrees

/-! ### Which requests do not keep the tables in step -/

/-- No request that changes whether a booking is live and leaves its slot alone: no
    `declineBooking` of a `booked` booking by its owner, and no `updateStatus` by its owner
    across `cancelled`, unless the unique index refuses to revive the booking. -/
def Operation.MovesSlot (d : Database) : Operation → Prop
  | .declineBooking id session _ _ => ∀ row, d.bookings.lookup id = some row →
      session = some row.clientId → row.status ≠ .booked
  | .updateStatus id text session _ _ => ∀ row status, d.bookings.lookup id = some row →
      session = some row.clientId → allowedStatuses.contains text = true →
      BookingStatus.ofText? text = some status →
      (row.live = true ↔ status ≠ .cancelled) ∨
        (row.live = false ∧ d.otherLive row.slotId (some id) = true)
  | _ => True

/-- Only a `booked` booking may go anywhere. -/
theorem allowedTransitions_booked {source target : BookingStatus}
    (h : (allowedTransitions source).contains target = true) :
    source = .booked ∧ target ≠ .booked := by
  cases source <;> cases target <;> simp_all [allowedTransitions]

theorem checkStatus_none {text : String} {b : Booking} (h : checkStatus text b = none) :
    allowedStatuses.contains text = true := by
  unfold checkStatus at h
  split at h
  · cases h
  · next hc => simpa using hc

/-- The two texts the source writes itself are those of statuses. -/
theorem ofText_completed {status : BookingStatus}
    (h : BookingStatus.ofText? "completed" = some status) : status = .completed :=
  (Option.some.inj h).symm

theorem ofText_cancelled {status : BookingStatus}
    (h : BookingStatus.ofText? "cancelled" = some status) : status = .cancelled :=
  (Option.some.inj h).symm

theorem live_of_booked {b : Booking} (h : b.status = .booked) : b.live = true := by
  simp [Booking.live, h]

section Step

variable {cat : Catalog} {fromColumn : Instant → Except JsError Instant} {T : Instant → Prop}
variable {d : Database} {op : Operation} {ws : List Write}

/-- **Step lemma.**  One case for each operation. -/
theorem Operation.Commits.agrees (hc : op.Commits cat fromColumn T d ws) (h : d.Agrees)
    (hmoves : op.MovesSlot d) : ((chronos cat).apply ws d).Agrees := by
  cases hc with
  | createBooking hnew => exact hnew.agrees h
  | cancelBooking hread _ hok =>
    have hbooked := (evaluateCancellation_allowed.mp hok).1
    exact agrees_statusWrites h hread.booking (Or.inl ⟨live_of_booked hbooked, by simp⟩)
  | confirmBooking hupdate =>
    have hbooked := checkBooked_none hupdate.checked
    obtain rfl := ofText_completed hupdate.stored
    rw [hupdate.writes]
    exact agrees_statusWrites h hupdate.booking (Or.inl ⟨live_of_booked hbooked, by simp⟩)
  | declineBooking hupdate =>
    exact absurd (checkBooked_none hupdate.checked)
      (hmoves _ hupdate.booking hupdate.owner)
  | @updateStatus _ _ _ _ _ row status _ hupdate =>
    have hallowed := checkStatus_none hupdate.checked
    rw [hupdate.writes]
    refine agrees_statusWrites h hupdate.booking ?_
    rcases hmoves row status hupdate.booking hupdate.owner hallowed hupdate.stored with
      hsame | ⟨hdead, hother⟩
    · cases hlive : row.live with
      | true => exact Or.inl ⟨rfl, by simpa using hsame.mp hlive⟩
      | false =>
        rw [hlive] at hsame
        exact Or.inr ⟨rfl, by simpa using hsame, rfl⟩
    · -- The unique index has not refused, so the booking stays cancelled.
      refine Or.inr ⟨hdead, ?_, rfl⟩
      by_contra hs
      rw [hupdate.index hdead hs] at hother
      cases hother
  | rescheduleBooking _ _ _ hmove => exact hmove.agrees h
  | rescheduleEndpoint _ _ _ hmove => exact hmove.agrees h
  | transition htransition =>
    obtain ⟨hbooked, -⟩ := allowedTransitions_booked htransition.allowed
    rw [htransition.writes]
    exact agrees_statusWrites h htransition.booking (Or.inl ⟨live_of_booked hbooked, by simp⟩)
  | cancel hcancel =>
    rw [hcancel.writes]
    exact agrees_statusWrites h hcancel.booking
      (Or.inl ⟨live_of_booked hcancel.booked, by simp⟩)

end Step

/-- One operation, run alone in any surroundings. -/
def Operation.Runs (cat : Catalog) (fromColumn : Instant → Except JsError Instant) (d : Database)
    (op : Operation) (d' : Database) : Prop :=
  ∃ r, Alone (chronos cat) (fun _ => True) d (op.program fromColumn) d' r

section Runs

variable {cat : Catalog} {fromColumn : Instant → Except JsError Instant} {d d' : Database}

theorem Operation.Runs.commits {op : Operation} (h : op.Runs cat fromColumn d d') :
    d' = d ∨ Committed cat d (op.Commits cat fromColumn (fun _ => True) d) d' := by
  obtain ⟨r, h⟩ := h
  exact alone_commits (T := fun _ => True) h

/-- **Slots and bookings agree.**  From a database without bookings and without `booked`
    slots, every run of operations that do not decline a `booked` booking and do not patch a
    booking across `cancelled` keeps every slot `booked` exactly while a live booking is on
    it. -/
theorem slot_booked_iff_live {d₀ : Database} {tr : List (Call Database Operation)}
    (hbookings : ∀ i, d₀.bookings.lookup i = none)
    (hslots : ∀ s slot, d₀.slots.lookup s = some slot → slot.status ≠ .booked)
    (h : Calls (fun d op d' => op.MovesSlot d ∧ op.Runs cat fromColumn d d') d₀ tr d) :
    ∀ s slot, d.slots.lookup s = some slot →
      (slot.status = .booked ↔
        ∃ i b, d.bookings.lookup i = some b ∧ b.status ≠ .cancelled ∧ b.slotId = s) := by
  have hno : ∀ s i, ¬ d₀.LiveOn s i := by
    rintro s i ⟨b, hb, -⟩
    rw [hbookings] at hb
    cases hb
  have hstart : d₀.Agrees := by
    refine ⟨fun s i j hi _ => absurd hi (hno s i), fun i b hb => ?_, fun s slot hslot => ?_⟩
    · rw [hbookings] at hb
      cases hb
    · exact ⟨fun hb => absurd hb (hslots s slot hslot), fun ⟨i, hi⟩ => absurd hi (hno s i)⟩
  have hagrees : d.Agrees := by
    refine h.invariant hstart fun d op d' hd ⟨hmoves, hruns⟩ => ?_
    rcases hruns.commits with rfl | ⟨ws, hc, hsame⟩
    · exact hd
    · exact (hc.agrees hd hmoves).sameBut hsame
  intro s slot hslot
  rw [hagrees.agree s slot hslot]
  simp only [Database.LiveOn, Booking.live, decide_eq_true_eq]

end Runs

/-! #### A run that keeps the condition, and one that does not -/

theorem sampleDb_no_bookings (i : BookingId) : sampleDb.bookings.lookup i = none := rfl

theorem sampleDb_open (s : SlotId) (slot : Slot) (h : sampleDb.slots.lookup s = some slot) :
    slot.status ≠ .booked := by
  simp only [sampleDb] at h
  by_cases hs : s = 1
  · subst hs
    rw [AList.lookup_insert] at h
    obtain rfl := Option.some.inj h
    decide
  · rw [AList.lookup_insert_ne hs] at h
    cases h

theorem sample_created : Operation.Runs sampleCatalog .ok sampleDb
    (.createBooking sampleRequest (some 0) false) (sampleBooked .booked .booked 1) :=
  ⟨_, List.replicate 10 (calmEnv 1 0), _, _, fun _ _ => trivial, rfl, rfl⟩

theorem sample_cancelled : Operation.Runs sampleCatalog .ok (sampleBooked .booked .booked 1)
    (.cancelBooking 1 none (some 5) false) (sampleBooked .«open» .cancelled 1) :=
  ⟨_, List.replicate 8 (calmEnv 2 0), .idle, .ret .noContent, fun _ _ => trivial,
    by with_unfolding_all rfl, rfl⟩

theorem sample_declined : Operation.Runs sampleCatalog .ok (sampleBooked .booked .booked 1)
    (.declineBooking 1 (some 5) false .printed) (sampleBooked .booked .cancelled 2) :=
  ⟨_, List.replicate 6 (calmEnv 2 0), _, _, fun _ _ => trivial, rfl, rfl⟩

/-- A booking, and its cancellation, which opens the slot again. -/
theorem slot_booked_iff_live_cancelled :
    (sampleSlot .«open»).status = .booked ↔
      ∃ i b, (sampleBooked .«open» .cancelled 1).bookings.lookup i = some b ∧
        b.status ≠ .cancelled ∧ b.slotId = 1 := by
  have hmoves₁ : Operation.MovesSlot sampleDb (.createBooking sampleRequest (some 0) false) := trivial
  have hmoves₂ : Operation.MovesSlot (sampleBooked .booked .booked 1)
      (.cancelBooking 1 none (some 5) false) := trivial
  exact slot_booked_iff_live sampleDb_no_bookings sampleDb_open
    ((Calls.start.call ⟨hmoves₁, sample_created⟩).call ⟨hmoves₂, sample_cancelled⟩) 1
    (sampleSlot .«open») rfl

/-- **A declined booking strands its slot.**  After a booking and its decline the slot is
    still `booked`, and no live booking is on it. -/
theorem declined_slot_stays_booked :
    ∃ tr d, Calls (Operation.Runs sampleCatalog .ok) sampleDb tr d ∧
      (∀ i, sampleDb.bookings.lookup i = none) ∧
      (∀ s slot, sampleDb.slots.lookup s = some slot → slot.status ≠ .booked) ∧
      ∃ slot, d.slots.lookup 1 = some slot ∧ ¬ (slot.status = .booked ↔
        ∃ i b, d.bookings.lookup i = some b ∧ b.status ≠ .cancelled ∧ b.slotId = 1) := by
  refine ⟨_, sampleBooked .booked .cancelled 2,
    (Calls.start.call sample_created).call sample_declined, sampleDb_no_bookings, sampleDb_open,
    sampleSlot .booked, rfl, fun h => ?_⟩
  obtain ⟨i, b, hb, hlive, -⟩ := h.mp rfl
  simp only [sampleBooked] at hb
  by_cases hi : i = 1
  · subst hi
    rw [AList.lookup_insert] at hb
    obtain rfl := Option.some.inj hb
    exact hlive rfl
  · rw [AList.lookup_insert_ne hi] at hb
    cases hb

end Chronos
