import Chronos.AppointmentBook

namespace Chronos

open ReadCommitted ReadCommitted.Prog

/-!
# How often a slot can be booked

A slot is booked while it is open, and is opened again when a booking on it is cancelled or moved
away; a booking that is declined leaves its slot closed.  So each booking of a slot, but for one if
the slot was open to begin with, comes after a cancellation or a move of its own.

* `taken_le_freed` — the balance of one slot, for calls served one after the other.
* `bookings_of_a_slot` — the balance in every run, from what callers are answered and what the
  others have written.
-/

/-- The request is for slot `s`. -/
def Request.takes (s : SlotId) : Request → Bool
  | .createBooking req .. => decide (req.slotId = s)
  | .rescheduleBooking req .. => decide (req.newSlotId = s)
  | _ => false

/-- The book has booking `i` on slot `s`. -/
def AppointmentBook.onSlot (k : AppointmentBook) (i : BookingId) (s : SlotId) : Bool :=
  (k.entries i).any fun e => decide (e.slotId = s)

/-- The request gives up a booking on slot `s`. -/
def Request.vacates (k : AppointmentBook) (s : SlotId) : Request → Bool
  | .cancelBooking id .. => k.onSlot id s
  | .rescheduleBooking req .. => k.onSlot req.bookingId s
  | _ => false

/-- `1` if slot `s` is open. -/
def AppointmentBook.vacancy (k : AppointmentBook) (s : SlotId) : Nat :=
  if k.slots s = some .«open» then 1 else 0

section Balance

variable {k k' k₀ : AppointmentBook} {req : Request} {x : Option BookingId} {s : SlotId}

theorem onSlot_of_entries {i : BookingId} {e : Entry} (he : k.entries i = some e) :
    k.onSlot i s = decide (e.slotId = s) := by
  rw [AppointmentBook.onSlot, he]
  rfl

/-- Entering a booking where there was one on the same slot, or none, keeps all on their slots. -/
theorem onSlot_setEntry {i i' : BookingId} {e' : Entry}
    (hsame : ∀ e, k.entries i' = some e → e'.slotId = e.slotId) (h : k.onSlot i s = true) :
    (k.setEntry i' e').onSlot i s = true := by
  by_cases hi : i = i'
  · subst hi
    cases he : k.entries i with
    | none => rw [AppointmentBook.onSlot, he] at h; cases h
    | some e =>
      rw [onSlot_of_entries he, ← hsame e he] at h
      rw [onSlot_of_entries (e := e') (by simp)]
      exact h
  · simpa [AppointmentBook.onSlot, hi] using h

/-- Bookings stay on their slots. -/
theorem Request.Serves.onSlot_stays (h : req.Serves x k k') {i : BookingId}
    (hi : k.onSlot i s = true) : k'.onSlot i s = true := by
  -- A new status leaves the slot of a booking.
  have hstatus : ∀ {k : AppointmentBook} {i' : BookingId} {e : Entry} {status : BookingStatus},
      k.entries i' = some e → k.onSlot i s = true →
      (k.setEntry i' { e with status := status }).onSlot i s = true := by
    intro k i' e status he
    refine onSlot_setEntry fun e' he' => ?_
    obtain rfl := Option.some.inj (he.symm.trans he')
    rfl
  cases h with
  | createBooking _ _ hnew =>
    exact onSlot_setEntry (k := k.setSlot _ _) (fun e he => nomatch hnew.symm.trans he) hi
  | cancelBooking he _ => exact hstatus he hi
  | confirmBooking he _ _ => exact hstatus he hi
  | declineBooking he _ _ => exact hstatus he hi
  | @rescheduleBooking req _ _ _ e newId he hbooked _ _ hnew =>
    refine onSlot_setEntry (fun e' he' => ?_) (hstatus (k := k.setSlot _ _) he hi)
    -- The new booking's id is none of the book's.
    have hne : newId ≠ req.bookingId := by
      rintro rfl
      exact nomatch hnew.symm.trans he
    simp [hne, hnew] at he'

theorem Request.Serves.vacates_stays (h : req.Serves x k k') {req' : Request}
    (hv : req'.vacates k s = true) : req'.vacates k' s = true := by
  cases req' with
  | cancelBooking id ifMatch session queue => exact h.onSlot_stays hv
  | rescheduleBooking req nowUtc queue => exact h.onSlot_stays hv
  | createBooking req nowUtc queue => cases hv
  | confirmBooking id session => cases hv
  | declineBooking id session queue spelling => cases hv

theorem vacancy_of_open (h : k.slots s = some .«open») : k.vacancy s = 1 := if_pos h

theorem vacancy_le (k : AppointmentBook) (s : SlotId) : k.vacancy s ≤ 1 := by
  unfold AppointmentBook.vacancy
  split <;> simp

theorem vacancy_of_slots (h : k'.slots s = k.slots s) : k'.vacancy s = k.vacancy s := by
  rw [AppointmentBook.vacancy, AppointmentBook.vacancy, h]

/-- Opening the slot of a booking makes room for one. -/
theorem vacancy_reopen {i : BookingId} {e : Entry} (he : k'.entries i = some e)
    (hk : k'.slots s = (k.reopen e.slotId).slots s) :
    k'.vacancy s ≤ (k'.onSlot i s).toNat + k.vacancy s := by
  rw [onSlot_of_entries he]
  by_cases hs : e.slotId = s
  · rw [decide_eq_true hs]
    exact (vacancy_le k' s).trans (Nat.le_add_right 1 _)
  · rw [vacancy_of_slots (k := k) (hk.trans (by simp [Ne.symm hs]))]
    exact Nat.le_add_left _ _

/-- Booking an open slot fills it. -/
theorem vacancy_setSlot {s' : SlotId} (hopen : k.slots s' = some .«open») :
    (decide (s' = s)).toNat + (k.setSlot s' .booked).vacancy s = k.vacancy s := by
  by_cases hs : s' = s
  · subst hs
    rw [vacancy_of_open hopen, decide_eq_true rfl]
    simp [AppointmentBook.vacancy]
  · rw [decide_eq_false hs, vacancy_of_slots (k := k) (by simp [Ne.symm hs])]
    exact Nat.zero_add _

/-- **One request.**  What it takes it found vacant, and what becomes vacant it has given up. -/
theorem Request.Serves.balance (h : req.Serves x k k') (s : SlotId) :
    (req.takes s).toNat + k'.vacancy s ≤ (req.vacates k' s).toNat + k.vacancy s := by
  cases h with
  | createBooking hopen _ _ => exact (vacancy_setSlot hopen).le.trans (Nat.le_add_left _ _)
  | @cancelBooking id _ _ _ _ e he _ =>
    refine (Nat.zero_add _).le.trans (vacancy_reopen (i := id) (e := { e with status := .cancelled }) ?_ rfl)
    simp
  | confirmBooking _ _ _ => exact Nat.le_refl _
  | declineBooking _ _ _ => exact Nat.le_refl _
  | @rescheduleBooking req _ _ _ e newId he _ hopen _ hnew =>
    have hne : req.bookingId ≠ newId := by
      intro heq
      rw [← heq, he] at hnew
      cases hnew
    have hfill := vacancy_setSlot (s := s) hopen
    have hold : ((((k.setSlot req.newSlotId .booked).setEntry req.bookingId
        { e with status := .cancelled }).reopen e.slotId).setEntry newId
          ⟨req.newSlotId, e.clientId, .booked⟩).entries req.bookingId =
        some { e with status := .cancelled } := by
      simp [hne]
    have hfreed := vacancy_reopen (s := s) (k := k.setSlot req.newSlotId .booked) hold rfl
    simp only [Request.takes, Request.vacates]
    omega

variable {ι : Type} {reqs : ι → Request} {l : List (ι × Option BookingId)}

/-- **The balance of a slot.** -/
theorem taken_le_freed (h : InSequence (fun i => (reqs i).Serves) k₀ l k) (s : SlotId) :
    (l.countP fun e => (reqs e.1).takes s) + k.vacancy s ≤
      (l.countP fun e => (reqs e.1).vacates k s) + k₀.vacancy s := by
  induction h with
  | nil => exact Nat.le_refl _
  | @snoc l k i x k' _ hserves ih =>
    have hmono : (l.countP fun e => (reqs e.1).vacates k s) ≤
        l.countP fun e => (reqs e.1).vacates k' s :=
      List.countP_mono_left fun e _ he => hserves.vacates_stays he
    have hone := hserves.balance s
    have hsingle : ∀ p : Request → Bool,
        ([(i, x)] : List (ι × Option BookingId)).countP (fun e => p (reqs e.1)) = (p (reqs i)).toNat := by
      intro p
      cases hp : p (reqs i) <;> simp [hp]
    rw [List.countP_append, List.countP_append, hsingle fun req => req.takes s,
      hsingle fun req => req.vacates k' s]
    omega

end Balance

section Runs

variable {cat : Catalog} {fromColumn : Instant → Except JsError Instant} {ι C : Type} [DecidableEq ι]
variable [DecidableEq C] {reqs : ι → Request} {d₀ : Database}

/-- **Bookings of a slot.**  To any calls of a run that have answered that they have booked slot `s`
    there belong as many cancellations or moves of bookings on `s` that have been committed, but
    for one if `s` was open at the start. -/
theorem bookings_of_a_slot {w : Service C ι}
    (h : Reaches (chronos cat) Exclusive (Service.start fromColumn d₀ reqs) w) (s : SlotId)
    {calls : List ι} (hnodup : calls.Nodup) (hcalls : ∀ i ∈ calls, (reqs i).takes s = true ∧
      ∃ r, (w.prog i).result = some r ∧ (reqs i).Succeeded r) :
    ∃ freed : List ι, freed.Nodup ∧
      (∀ i ∈ freed, (reqs i).vacates w.db.book s = true ∧ Wrote w.journal i) ∧
      calls.length ≤ freed.length + d₀.book.vacancy s := by
  obtain ⟨l, _, _, _, hl, -⟩ := ordered_reaches h .start
  have hturn : InTurn reqs d₀.book w l := hl.inTurn
  refine ⟨(l.map Prod.fst).filter fun i => (reqs i).vacates w.db.book s, hturn.once.filter _,
    fun i hi => ?_, ?_⟩
  · obtain ⟨hmem, hv⟩ := List.mem_filter.mp hi
    obtain ⟨⟨i, x⟩, hx, rfl⟩ := List.mem_map.mp hmem
    exact ⟨hv, (hturn.committed i).mp ⟨x, hx⟩⟩
  · have hsub : calls ⊆ (l.map Prod.fst).filter fun i => (reqs i).takes s := by
      intro i hi
      obtain ⟨htakes, r, hr, hsuccess⟩ := hcalls i hi
      exact List.mem_filter.mpr ⟨List.mem_map_of_mem (hturn.answered i r hr hsuccess), htakes⟩
    have hle := (List.subperm_of_subset hnodup hsub).length_le
    have hbalance := taken_le_freed hturn.served s
    rw [← List.countP_eq_length_filter, List.countP_map] at hle ⊢
    simp only [Function.comp_def] at hle ⊢
    omega

end Runs

/-- Client `5` cancels booking `1` (`true`), and books its slot again (`false`). -/
def cancelAndRebook : Bool → Request
  | false => .createBooking sampleRequest (some 0) false
  | true => .cancelBooking 1 none (some 5) false

/-- The slot was booked at the start, so the new booking of it has a cancellation before it. -/
theorem bookings_of_a_slot_again : ∃ w : Service Bool Bool,
    (w.prog false).result = some (.ok (.created 2 false)) ∧
    ∃ freed : List Bool, freed.Nodup ∧
      (∀ i ∈ freed, (cancelAndRebook i).vacates w.db.book 1 = true ∧ Wrote w.journal i) ∧
      [false].length ≤ freed.length + (sampleBooked .booked .booked 1).book.vacancy 1 := by
  have hrun : ∃ w : Service Bool Bool, World.run (chronos sampleCatalog) (fun _ _ => true)
      (World.init (sampleBooked .booked .booked 1) fun i => (cancelAndRebook i).program .ok)
      (ownSteps (fun _ => calmEnv 2 0) (List.replicate 8 true ++ List.replicate 10 false)) = some w ∧
      (w.prog false).result = some (.ok (.created 2 false)) :=
    ⟨_, by with_unfolding_all rfl, rfl⟩
  obtain ⟨w, hw, hr⟩ := hrun
  have hreach := (reaches_ownSteps (P := fun _ _ => True) (fun _ => calm_calmEnv 2 0)
    (fun _ _ _ => trivial) hw).mono (Q := Exclusive) fun w l hP => hP.2
  refine ⟨w, hr, bookings_of_a_slot hreach 1 (List.nodup_singleton false) fun i hi => ?_⟩
  obtain rfl := List.mem_singleton.mp hi
  exact ⟨rfl, _, hr, 2, rfl⟩

end Chronos
