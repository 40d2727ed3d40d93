import Chronos.Clients

namespace Chronos

open ReadCommitted ReadCommitted.Prog

/-!
# `createBooking` on a shared pool

`BookingsController` passes its `pg` pool to `createBooking`, and a pool may send every
statement of a call over another connection.  `created_has_booking` is what the function
promises its callers, under two conditions on a run:

* every step is `Exclusive`: the statements of a transaction stay on the connection of its
  `BEGIN`, and no other call uses that connection meanwhile;
* nothing goes wrong around a call after its `COMMIT` (`CalmAfterCommit`): its `catch` block
  would answer with a refusal.

Neither holds of the pool; `pooled_booking_lost` is a run of a single call that breaks the
first, and answers `201` without having left a booking.
-/

/-- Nothing goes wrong around a call that has committed. -/
def CalmAfterCommit {C ι : Type} (w : Service C ι) (l : Label Ask.Answer Nat JsError C ι) : Prop :=
  (∃ e ∈ w.journal, e.1 = l.thread) → Calm l.env

/-- Booking `id` is there, `booked`, on a slot that is `booked`. -/
def Database.HasBooking (d : Database) (id : BookingId) : Prop :=
  ∃ b slot, d.bookings.lookup id = some b ∧ b.status = .booked ∧
    d.slots.lookup b.slotId = some slot ∧ slot.status = .booked

section Pool

variable {cat : Catalog} {C ι : Type} {d : Database} {j : List (ι × Write)} {G : ι → Progress}

theorem Database.HasBooking.sameBut {d' : Database} {id : BookingId} (h : d.HasBooking id)
    (hs : SameBut d d') : d'.HasBooking id := by
  obtain ⟨b, slot, hb, hbooked, hslot, hstatus⟩ := h
  exact ⟨b, slot, by rw [hs.bookings]; exact hb, hbooked, by rw [hs.slots]; exact hslot, hstatus⟩

section NewBooking

variable {req : BookingRequest} {now minStart : Instant} {row : Slot} {reminders ws : List Write}
variable {id : BookingId}

/-- A new booking takes an `open` slot, so the bookings that are there keep theirs. -/
theorem NewBooking.hasBooking (h : NewBooking cat req now minStart d row reminders id ws)
    {i : BookingId} (hi : d.HasBooking i) : ((chronos cat).apply ws d).HasBooking i := by
  obtain ⟨b, slot, hb, hbooked, hslot, hstatus⟩ := hi
  have hid : i ≠ id := by
    rintro rfl
    rw [h.fresh] at hb
    cases hb
  have hs : b.slotId ≠ req.slotId := by
    intro heq
    rw [heq, h.slot] at hslot
    rw [← Option.some.inj hslot, h.isOpen] at hstatus
    cases hstatus
  refine ⟨b, slot, ?_, hbooked, ?_, hstatus⟩
  · rw [h.bookings, if_neg hid]
    exact hb
  · rw [h.slots, if_neg hs]
    exact hslot

theorem NewBooking.hasBooking_self (h : NewBooking cat req now minStart d row reminders id ws) :
    ((chronos cat).apply ws d).HasBooking id := by
  refine ⟨req.booking, { row with status := .booked }, ?_, rfl, ?_, rfl⟩
  · rw [h.bookings, if_pos rfl]
  · rw [h.slots]
    exact if_pos rfl

end NewBooking

/-- The invariant: calls that have not committed have written nothing, the others have, and
    their bookings stay. -/
structure BookingsKept (d : Database) (j : List (ι × Write)) (G : ι → Progress) : Prop where
  quiet : Quiet j G
  written : ∀ i x, G i = .done x → ∃ e ∈ j, e.1 = i
  kept : ∀ i id, G i = .done (some id) → d.HasBooking id

/-- What a call relies on: after its commit nothing goes wrong. -/
def calmWhenDone (_ : ι) (g : Progress) (_ : Database) (env : Env Nat JsError Ask.Answer) : Prop :=
  (∃ x, g = .done x) → Calm env

variable [DecidableEq ι] {req : ι → BookingRequest} {nowUtc : ι → Option Instant}
variable {queue : ι → Bool}

/-- The calls of `createBooking`. -/
abbrev createCalls (req : ι → BookingRequest) (nowUtc : ι → Option Instant) (queue : ι → Bool)
    (i : ι) : Request := .createBooking (req i) (nowUtc i) (queue i)

/-- **Step lemma.** -/
theorem preserved_bookingsKept :
    Preserved (chronos cat) (contracts cat .ok (fun _ _ _ => True) calmWhenDone
      (fun _ _ _ => True) (createCalls req nowUtc queue)) BookingsKept where
  know _ _ _ _ _ := trivial
  move := by
    intro d j G i ws g' h hm
    have hmoves : (createCalls req nowUtc queue i).Moves cat .ok (fun _ _ => True) _ _ (G i) d ws g' :=
      hm
    refine ⟨h.quiet.move hmoves, fun i' x hx => ?_, fun i' id hx => ?_⟩
    · by_cases hi : i' = i
      · subst hi
        rw [Function.update_self] at hx
        generalize hg : G i' = g at hmoves
        cases hmoves with
        | stay =>
          obtain ⟨e, he, hei⟩ := h.written i' x (hg.trans hx)
          exact ⟨e, List.mem_append_left _ he, hei⟩
        | createBooking _ _ hnew =>
          -- The slot is written first.
          rw [hnew.writes]
          exact ⟨(i', _), List.mem_append_right _ List.mem_cons_self, rfl⟩
        | remind _ =>
          obtain ⟨e, he, hei⟩ := h.written i' _ hg
          exact ⟨e, List.mem_append_left _ he, hei⟩
      · rw [Function.update_of_ne hi] at hx
        obtain ⟨e, he, hei⟩ := h.written i' x hx
        exact ⟨e, List.mem_append_left _ he, hei⟩
    · have hold : ∀ k, d.HasBooking k → ((chronos cat).apply ws d).HasBooking k := by
        intro k hk
        generalize G i = g at hmoves
        cases hmoves with
        | stay => exact hk
        | createBooking _ _ hnew => exact hnew.hasBooking hk
        | remind hws => exact hk.sameBut (sameBut_apply hws)
      by_cases hi : i' = i
      · subst hi
        rw [Function.update_self] at hx
        generalize hg : G i' = g at hmoves
        cases hmoves with
        | stay => exact h.kept i' id (hg.trans hx)
        | createBooking _ _ hnew =>
          obtain rfl := Option.some.inj (Progress.done.inj hx)
          exact hnew.hasBooking_self
        | remind hws => exact hold id (h.kept i' id (hg.trans hx))
      · rw [Function.update_of_ne hi] at hx
        exact hold id (h.kept i' id hx)

variable [DecidableEq C]

/-- **What a call of `createBooking` has left when it answers.**  In every run of exclusive
    steps in which nothing goes wrong around a call after its commit: a call that answers `201`
    without `replay` has left its booking, `booked` on a `booked` slot; a call that answers
    anything else has committed nothing. -/
theorem created_has_booking {d₀ : Database} {w : Service C ι}
    (h : Reaches (chronos cat) (fun w l => Exclusive w l ∧ CalmAfterCommit w l)
      (World.init d₀ fun i => createBooking (req i) (nowUtc i) (queue i)) w) {i : ι}
    {r : Except JsError Reply} (hr : (w.prog i).result = some r) :
    (∀ id, r = .ok (.created id false) → ∃ b slot, w.db.bookings.lookup id = some b ∧
      b.status = .booked ∧ w.db.slots.lookup b.slotId = some slot ∧ slot.status = .booked) ∧
    ((∀ id, r ≠ .ok (.created id false)) → ∀ e ∈ w.journal, e.1 ≠ i) := by
  have h₀ : BookingsKept d₀ [] fun _ : ι => Progress.begun :=
    { quiet := fun _ _ e he => absurd he List.not_mem_nil
      written := fun _ _ hx => nomatch hx
      kept := fun _ _ hx => nomatch hx }
  obtain ⟨ts, G, hmod⟩ := Modular.reaches (lawful cat) preserved_bookingsKept
    (fun w l hP => ⟨hP.1, fun _ _ _ _ _ _ _ => trivial,
      fun G hJ ⟨x, hx⟩ => hP.2 (hJ.written l.thread x hx)⟩)
    (modular_start (fun _ => localTo_true cat) h₀) h
  have hends := hmod.result hr
  rcases hends with ⟨hg, hnot⟩ | ⟨id, hdone, hcase⟩
  · -- The call has stayed where it was.
    refine ⟨fun id hid => absurd hid (hnot id), fun _ => ?_⟩
    exact hmod.inv.quiet i (hg ▸ fun x hx => by cases hx)
  · have hcreated : r = .ok (.created id false) := by
      rcases hcase with hr' | ⟨-, hbad⟩
      · exact hr'
      · exact absurd (fun g _ _ hg he => he ⟨_, hg⟩) hbad
    refine ⟨fun id' hid' => ?_, fun hnot => absurd hcreated (hnot id)⟩
    have hsame : id' = id := by
      rw [hcreated] at hid'
      simpa [Reply.created] using hid'.symm
    rw [hsame]
    exact hmod.inv.kept i id hdone

end Pool

/-- A call on a connection of its own that is answered `201`. -/
theorem created_has_booking_alone : ∃ w : Service Unit Unit,
    (w.prog ()).result = some (.ok (.created 1 false)) ∧ ∃ b slot,
      w.db.bookings.lookup 1 = some b ∧ b.status = .booked ∧
      w.db.slots.lookup b.slotId = some slot ∧ slot.status = .booked := by
  have hrun : ∃ w : Service Unit Unit, World.run (chronos sampleCatalog) (fun _ _ => true)
      (World.init sampleDb fun _ => createBooking sampleRequest (some 0) false)
      (ownSteps (fun _ => calmEnv 1 0) (List.replicate 10 ())) = some w ∧
      (w.prog ()).result = some (.ok (.created 1 false)) := ⟨_, rfl, rfl⟩
  obtain ⟨w, hw, hr⟩ := hrun
  have hreach := (reaches_ownSteps (P := fun _ _ => True) (fun _ => calm_calmEnv 1 0)
    (fun _ _ _ => trivial) hw).mono (Q := fun w l => Exclusive w l ∧ CalmAfterCommit w l)
    fun w l hP => ⟨hP.2, fun _ => hP.1.2⟩
  exact ⟨w, hr, (created_has_booking hreach hr).1 1 rfl⟩

/-- The pool sends everything up to the last statement over one connection, and `COMMIT`
    over another. -/
def strayCommit : List (Label Ask.Answer Nat JsError Bool Unit) :=
  (List.replicate 9 false ++ [true]).map fun conn => ⟨(), conn, calmEnv 1 0⟩

/-- **A booking that is answered and lost.**  `COMMIT` arrives on a connection without a
    transaction: the call answers `201`, and there is no booking. -/
theorem pooled_booking_lost : ∃ w : Service Bool Unit,
    Reaches (chronos sampleCatalog) (fun _ _ => True)
      (World.init sampleDb fun _ => createBooking sampleRequest (some 0) false) w ∧
    (w.prog ()).result = some (.ok (.created 1 false)) ∧ ¬ ∃ b slot,
      w.db.bookings.lookup 1 = some b ∧ b.status = .booked ∧
      w.db.slots.lookup b.slotId = some slot ∧ slot.status = .booked := by
  have hrun : ∃ w : Service Bool Unit, World.run (chronos sampleCatalog) (fun _ _ => true)
      (World.init sampleDb fun _ => createBooking sampleRequest (some 0) false) strayCommit =
        some w ∧ (w.prog ()).result = some (.ok (.created 1 false)) ∧ w.db = sampleDb :=
    ⟨_, rfl, rfl, rfl⟩
  obtain ⟨w, hw, hr, hdb⟩ := hrun
  refine ⟨w, reaches_of_run (fun _ _ _ _ => trivial) hw, hr, ?_⟩
  rintro ⟨b, slot, hb, -⟩
  rw [hdb] at hb
  cases hb

end Chronos
