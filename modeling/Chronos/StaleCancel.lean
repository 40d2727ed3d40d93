import Chronos.Winner

namespace Chronos

open ReadCommitted ReadCommitted.Prog

/-!
# A cancellation and the slot it opens

`cancelBooking` ends with an `UPDATE` that opens the slot of the booking it has read, with no
condition on the slot.  While `bookings_one_live_per_slot` holds, nobody else is on that slot
as long as the booking is `booked` (`cancel_opens_own_slot`); once it is not, somebody else
may be (`stale_cancel_opens_taken_slot`).
-/

/-- The request is a cancellation of booking `id`, or makes a new booking. -/
def Request.CancelsOrCreates (id : BookingId) : Request → Prop
  | .createBooking .. => True
  | .cancelBooking id' .. => id' = id
  | _ => False

section StaleCancel

variable {cat : Catalog} {fromColumn : Instant → Except JsError Instant} {ι C : Type}
variable {id : BookingId} {reqs : ι → Request}
variable {env : Progress → Database → Env Nat JsError Ask.Answer → Prop}
variable {know : Progress → Database → Prop}

/-- What a request knows: no slot has two live bookings, and the booking it has read is
    still on the slot it has read. -/
def OnSlotRead (id : BookingId) (g : Progress) (d : Database) : Prop :=
  d.OneLive ∧ ∀ b, g = .hasRead b → ∃ b', d.bookings.lookup id = some b' ∧ b'.slotId = b.slotId

/-- The invariant: every request knows so. -/
def AllOnSlotRead (id : BookingId) (d : Database) (_ : List (ι × Write)) (G : ι → Progress) : Prop :=
  d.OneLive ∧ ∀ i, OnSlotRead id (G i) d

variable [DecidableEq ι]

/-- **Step lemma.** -/
theorem preserved_allOnSlotRead (hreqs : ∀ i, (reqs i).CancelsOrCreates id) :
    Preserved (chronos cat) (contracts cat fromColumn (fun _ => StillBooked)
      (fun _ _ _ _ => True) (fun _ => OnSlotRead id) reqs) (AllOnSlotRead id) where
  know _ _ _ i h := h.2 i
  move := by
    intro d j G i ws g' h hm
    have hmoves : (reqs i).Moves cat fromColumn StillBooked _ _ (G i) d ws g' := hm
    have hone := hmoves.oneLive h.1
    refine ⟨hone, fun k => ⟨hone, fun b hb => ?_⟩⟩
    -- The booking keeps its slot.
    have hkeep : ∀ b : Booking, (∃ b', d.bookings.lookup id = some b' ∧ b'.slotId = b.slotId) →
        ∃ b', ((chronos cat).apply ws d).bookings.lookup id = some b' ∧ b'.slotId = b.slotId := by
      rintro b ⟨b', hb', hslot⟩
      obtain ⟨b'', hb'', hsame⟩ := hmoves.booking_stays hb'
      exact ⟨b'', hb'', hsame.1.trans hslot⟩
    by_cases hk : k = i
    · subst hk
      rw [Function.update_self] at hb
      have hreq := hreqs k
      have hread := (h.2 k).2
      generalize reqs k = req at hmoves hreq
      generalize G k = g at hmoves hread
      cases hmoves with
      | stay => exact hkeep b (hread b hb)
      | read hcancel =>
        obtain rfl := Progress.hasRead.inj hb
        obtain rfl : _ = id := hreq
        exact ⟨_, hcancel.booking, rfl⟩
      | _ => cases hb
    · rw [Function.update_of_ne hk] at hb
      exact hkeep b ((h.2 k).2 b hb)

/-- A `cancelBooking` outside a transaction has no slot to open. -/
theorem openSlot_free {ifMatch : Option String} {session : Option ClientId} {queue : Bool}
    {g g' : Progress} {d : Database} {s : SlotId} {slot : Slot}
    (h : (Request.cancelBooking id ifMatch session queue).Moves cat fromColumn StillBooked env know g d
      (openSlotWrites d s) g') : d.slots.lookup s ≠ some slot := by
  intro hslot
  generalize hws : openSlotWrites d s = ws at h
  rw [openSlotWrites, hslot] at hws
  cases h with
  | stay => cases hws
  | read _ => cases hws
  | cancelBooking _ hadm =>
    -- It writes the booking first.
    obtain ⟨b, hb, -⟩ := hadm
    rw [cancelWrites, hb] at hws
    cases hws
  | remind hall =>
    rw [← hws] at hall
    exact hall _ (List.mem_singleton_self _)

variable [DecidableEq C]

/-- **A cancellation opens its own slot.**  In every run of exclusive steps in which a
    cancellation comes to its `UPDATE` of the booking only while it is `booked`: when
    `cancelBooking` sends the statement that opens a slot, every other booking on that slot is
    `cancelled`. -/
theorem cancel_opens_own_slot {d₀ : Database} {w : Service C ι} (hone : d₀.OneLive)
    (hreqs : ∀ i, (reqs i).CancelsOrCreates id)
    (h : Reaches (chronos cat) (fun w l => Exclusive w l ∧
      Admits (chronos cat) (fun _ => StillBooked) w l) (Service.start fromColumn d₀ reqs) w)
    {i : ι} {ifMatch : Option String} {session : Option ClientId} {queue : Bool}
    (hreq : reqs i = .cancelBooking id ifMatch session queue) {s : SlotId}
    {ok : Unit → Program Reply} {err : JsError → Program Reply}
    (hprog : w.prog i = .stmt (.openSlot s) ok err) {slot : Slot}
    (hslot : w.db.slots.lookup s = some slot) :
    ∀ k b, w.db.bookings.lookup k = some b → k ≠ id → b.slotId = s → b.status = .cancelled := by
  have h₀ : AllOnSlotRead id d₀ [] fun _ : ι => Progress.begun :=
    ⟨hone, fun _ => ⟨hone, fun _ hb => nomatch hb⟩⟩
  obtain ⟨ts, G, hmod⟩ := Modular.reaches (lawful cat) (preserved_allOnSlotRead hreqs)
    (fun w l hP => ⟨hP.1, hP.2, fun _ _ => trivial⟩)
    (modular_start (fun _ => localTo_stillBooked cat) h₀) h
  have hsent : (reqs i).Sends StillBooked (OnSlotRead id) (G i) w.db (.openSlot s) := by
    rcases hmod.statement (preserved_allOnSlotRead hreqs) hprog with ⟨_, hsend⟩ | hfree
    · exact hsend
    · -- Outside a transaction it would have nothing to write.
      obtain ⟨g', hmove⟩ := hfree (calmEnv 0 0) () (openSlotWrites w.db s) trivial rfl rfl
      have hmoves : (reqs i).Moves cat fromColumn StillBooked _ _ (G i) w.db (openSlotWrites w.db s)
          g' := hmove
      rw [hreq] at hmoves
      exact absurd hslot (openSlot_free hmoves)
  rw [hreq] at hsent
  obtain ⟨b, hg, rfl, ⟨hlive, hread⟩, b₁, hb₁, hbooked⟩ := hsent
  obtain ⟨b₂, hb₂, hslot₂⟩ := hread b hg
  obtain rfl : b₁ = b₂ := Option.some.inj (hb₁.symm.trans hb₂)
  intro k b' hb' hk hs
  -- A second live booking on the slot would break the unique index.
  by_contra hstatus
  have hlive₁ : w.db.LiveOn b.slotId id := ⟨b₁, hb₁, by simp [Booking.live, hbooked], hslot₂⟩
  have hlive₂ : w.db.LiveOn b.slotId k := ⟨b', hb', by simp [Booking.live, hstatus], hs⟩
  exact hk (hlive _ k id hlive₂ hlive₁)

end StaleCancel

/-! #### A cancellation in time, and one that is late -/

/-- Client `5` cancels booking `1` twice (`0` and `2`), and client `6` books its slot (`1`). -/
def twoCancellations : Fin 3 → Request
  | 0 => .cancelBooking 1 none (some 5) false
  | 1 => .createBooking { sampleRequest with clientId := 6 } (some 0) false
  | 2 => .cancelBooking 1 none (some 5) false

theorem twoCancellations_cancelOrCreate (i : Fin 3) :
    (twoCancellations i).CancelsOrCreates 1 := by
  match i with
  | 0 => rfl
  | 1 => trivial
  | 2 => rfl

/-- The server draws id `2` for the booking of client `6`. -/
def twoCancellationsEnv (_ : Fin 3) : Env Nat JsError Ask.Answer := calmEnv 2 0

/-- The first cancellation is about to open slot `1`, and booking `1` is the only one on it. -/
theorem cancel_opens_own_slot_first : ∃ w : Service (Fin 3) (Fin 3),
    (∃ ok err, w.prog 0 = .stmt (.openSlot 1) ok err) ∧
    ∀ k b, w.db.bookings.lookup k = some b → k ≠ 1 → b.slotId = 1 → b.status = .cancelled := by
  have hrun : ∃ w : Service (Fin 3) (Fin 3), World.run (chronos sampleCatalog)
      (stillBooked sampleCatalog) (World.init (sampleBooked .booked .booked 1) fun i =>
        (twoCancellations i).program .ok)
      (ownSteps twoCancellationsEnv (List.replicate 6 0)) = some w ∧
      (∃ ok err, w.prog 0 = .stmt (.openSlot 1) ok err) ∧
      w.db.slots.lookup 1 = some (sampleSlot .booked) :=
    ⟨_, by with_unfolding_all rfl, ⟨_, _, rfl⟩, rfl⟩
  obtain ⟨w, hw, ⟨ok, err, hprog⟩, hslot⟩ := hrun
  have hreach := (reaches_ownSteps (fun _ => calm_calmEnv 2 0) admits_of_stillBooked hw).mono
    (Q := fun w l => Exclusive w l ∧ Admits (chronos sampleCatalog) (fun _ => StillBooked) w l)
    fun w l hP => ⟨hP.2, hP.1.1⟩
  exact ⟨w, ⟨ok, err, hprog⟩, cancel_opens_own_slot (oneLive_sampleBooked _ _ _)
    twoCancellations_cancelOrCreate hreach rfl hprog hslot⟩

/-- **A late cancellation opens a slot that is taken.**  Both cancellations have read booking
    `1`; the first one commits, client `6` books the slot it has opened, and the second one
    comes to the statement that opens the slot again. -/
theorem stale_cancel_opens_taken_slot : ∃ w : Service (Fin 3) (Fin 3),
    Reaches (chronos sampleCatalog) Exclusive
      (Service.start .ok (sampleBooked .booked .booked 1) twoCancellations) w ∧
    (∃ ok err, w.prog 2 = .stmt (.openSlot 1) ok err) ∧
    w.db.slots.lookup 1 = some (sampleSlot .booked) ∧
    ∃ b, w.db.bookings.lookup 2 = some b ∧ b.slotId = 1 ∧ b.status = .booked := by
  have hrun : ∃ w : Service (Fin 3) (Fin 3), World.run (chronos sampleCatalog) (fun _ _ => true)
      (World.init (sampleBooked .booked .booked 1) fun i => (twoCancellations i).program .ok)
      (ownSteps twoCancellationsEnv (List.replicate 4 0 ++ List.replicate 4 2 ++
        List.replicate 4 0 ++ List.replicate 10 1 ++ List.replicate 2 2)) = some w ∧
      (∃ ok err, w.prog 2 = .stmt (.openSlot 1) ok err) ∧
      w.db.slots.lookup 1 = some (sampleSlot .booked) ∧
      ∃ b, w.db.bookings.lookup 2 = some b ∧ b.slotId = 1 ∧ b.status = .booked :=
    ⟨_, by with_unfolding_all rfl, ⟨_, _, rfl⟩, rfl, _, rfl, rfl, rfl⟩
  obtain ⟨w, hw, hprog, hslot, hbooking⟩ := hrun
  have hreach := (reaches_ownSteps (P := fun _ _ => True) (fun _ => calm_calmEnv 2 0)
    (fun _ _ _ => trivial) hw).mono (Q := Exclusive) fun w l hP => hP.2
  exact ⟨w, hreach, hprog, hslot, hbooking⟩

end Chronos
