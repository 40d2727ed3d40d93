import Chronos.Permanence
import Chronos.ReadCommitted.Immediate

namespace Chronos

open ReadCommitted ReadCommitted.Prog

/-!
# No provider is booked twice at a time

`bookings_one_live_per_slot` keeps a slot from two live bookings, and `slots_no_overlap` a provider
from two slots at a time.  The materializers insert slots outside transactions, where the second
constraint is judged in the committed state; bookings keep their slots and slots their times.

* `Database.SlotsApart` — `slots_no_overlap`.
* `slotsApart_step` — a step keeps it, whatever it commits.
* `never_double_booked` — at every instant a provider has at most one live booking.
-/

/-- The slots are of two providers, or one ends before the other starts. -/
def Slot.Apart (a b : Slot) : Prop :=
  a.providerId ≠ b.providerId ∨ a.slotEndUtc ≤ b.slotStartUtc ∨ b.slotEndUtc ≤ a.slotStartUtc

/-- `slots_no_overlap`: slots of one provider do not overlap. -/
def Database.SlotsApart (d : Database) : Prop :=
  ∀ i j a b, i ≠ j → d.slots.lookup i = some a → d.slots.lookup j = some b → a.Apart b

/-- The live booking `i` takes the provider's time at `t`. -/
def Database.Occupied (d : Database) (p : ProviderId) (t : Instant) (i : BookingId) : Prop :=
  ∃ b slot, d.bookings.lookup i = some b ∧ b.live = true ∧ d.slots.lookup b.slotId = some slot ∧
    slot.providerId = p ∧ slot.slotStartUtc ≤ t ∧ t < slot.slotEndUtc

/-- The write inserts a slot. -/
def Write.MakesSlot (d : Database) : Write → Prop
  | .slot id _ => d.slots.lookup id = none
  | _ => False

/-- Materializers insert outside transactions: on a connection of Prisma's, not of the pool. -/
def InsertsAlone {C ι : Type} (w : Workers C ι) (l : Label Ask.Answer Nat JsError C ι) : Prop :=
  ∀ p start finish ok err, w.prog l.thread = .stmt (.insertSlot p start finish) ok err →
    ∀ i pending, w.session l.conn ≠ .active i pending

section Slots

variable {cat : Catalog} {d : Database} {w : Write}

theorem Slot.Apart.symm {a b : Slot} (h : a.Apart b) : b.Apart a := by
  rcases h with h | h | h
  · exact Or.inl fun heq => h heq.symm
  · exact Or.inr (Or.inr h)
  · exact Or.inr (Or.inl h)

/-- Where nothing conflicts with a new slot, every slot is apart from it. -/
theorem apart_of_free {p : ProviderId} {start finish : Instant} {status : SlotStatus}
    (hfree : d.slotConflict p start finish = false) {j : SlotId} {b : Slot}
    (hb : d.slots.lookup j = some b) : Slot.Apart ⟨p, start, finish, status⟩ b := by
  have hentry : ⟨j, b⟩ ∈ d.slots.entries := AList.mem_lookup_iff.mp hb
  have hnone := List.any_eq_false.mp hfree ⟨j, b⟩ hentry
  simp only [Bool.and_eq_true, Bool.or_eq_true, decide_eq_true_eq, not_and, not_or] at hnone
  by_cases hp : p = b.providerId
  · obtain ⟨-, hmeets⟩ := hnone hp.symm
    refine Or.inr ?_
    by_cases hstart : b.slotStartUtc < finish
    · exact Or.inr (Int.not_lt.mp (hmeets hstart))
    · exact Or.inl (Int.not_lt.mp hstart)
  · exact Or.inl hp

theorem creation_slots (cat : Catalog) : Creation (chronos cat) fun d w => w.MakesSlot d where
  stays d w w' h := by
    cases w with
    | slot id row =>
      have hsome : (d.slots.lookup id).isSome := Option.isSome_iff_ne_none.mpr h
      exact Option.isSome_iff_ne_none.mp (isSome_slot_write w' hsome)
    | _ => exact h
  before d w w' h' h := by
    cases w with
    | slot id row =>
      intro hnone
      cases w' with
      | slot id' row' =>
        refine h ?_
        show ((Write.slot id' row').apply d).slots.lookup id = none
        rw [lookup_slot_write]
        split
        · next hid =>
          subst hid
          exact absurd hnone h'
        · exact hnone
      | _ => exact h hnone
    | _ => exact h
  note a x d w hw := by
    have hnoted : w ∈ noted a x := hw
    unfold noted at hnoted
    split at hnoted
    · obtain rfl := List.mem_singleton.mp hnoted
      exact id
    · obtain rfl := List.mem_singleton.mp hnoted
      exact id
    · obtain rfl := List.mem_singleton.mp hnoted
      exact id
    · cases hnoted

/-- Only `INSERT INTO slots` inserts slots, and only where they are apart from the others. -/
theorem exec_makesSlot {s : Stmt} {o : Nat} {r : s.Rows} {ws : List Write}
    (hx : (exec cat s o d).result = .ok (r, ws)) (hw : w ∈ ws) (hmakes : w.MakesSlot d) :
    ∃ p start finish, s = .insertSlot p start finish ∧
      w = .slot o ⟨p, start, finish, .«open»⟩ ∧ d.slotConflict p start finish = false := by
  rcases exec_written hx with rfl | ⟨w', rfl, hwritten⟩
  · cases hw
  obtain rfl := List.mem_singleton.mp hw
  cases hwritten with
  | @slot id row status hrow => exact absurd (hmakes.symm.trans hrow) nofun
  | insertSlot hinsert hnone =>
    subst hinsert
    exact ⟨_, _, _, rfl, rfl, (insertSlot_free hx hw).2.1⟩
  | _ => exact hmakes.elim

/-! ### One write -/

theorem slotsApart_insert {id : SlotId} {p : ProviderId} {start finish : Instant}
    {status : SlotStatus} (hd : d.SlotsApart) (hfree : d.slotConflict p start finish = false) :
    ((Write.slot id ⟨p, start, finish, status⟩).apply d).SlotsApart := by
  intro i j a b hne ha hb
  rw [lookup_slot_write] at ha hb
  by_cases hi : i = id
  · rw [if_pos hi] at ha
    rw [if_neg fun hj => hne (hi.trans hj.symm)] at hb
    exact Option.some.inj ha ▸ apart_of_free hfree hb
  · rw [if_neg hi] at ha
    by_cases hj : j = id
    · rw [if_pos hj] at hb
      exact Option.some.inj hb ▸ (apart_of_free hfree ha).symm
    · rw [if_neg hj] at hb
      exact hd i j a b hne ha hb

/-- A new version of a slot is where the slot was. -/
theorem slotsApart_update (hd : d.SlotsApart) (hsound : w.Sound cat d) (hold : ¬ w.MakesSlot d) :
    (w.apply d).SlotsApart := by
  cases w with
  | slot id row =>
    obtain ⟨old, hrow⟩ := Option.ne_none_iff_exists'.mp hold
    have hkept : ∀ k c, ((Write.slot id row).apply d).slots.lookup k = some c →
        ∃ c', d.slots.lookup k = some c' ∧ c = { c' with status := c.status } := by
      intro k c hc
      rw [lookup_slot_write] at hc
      split at hc
      · next hk =>
        subst hk
        obtain rfl := Option.some.inj hc
        exact ⟨old, hrow, hsound.1 old hrow⟩
      · exact ⟨c, hc, rfl⟩
    intro i j a b hne ha hb
    obtain ⟨a', ha', haeq⟩ := hkept i a ha
    obtain ⟨b', hb', hbeq⟩ := hkept j b hb
    rw [haeq, hbeq]
    exact hd i j a' b' hne ha' hb'
  | _ => exact hd

/-! ### One step -/

theorem slotsApart_apply {ι : Type} {made : List (ι × Write)} (hd : d.SlotsApart)
    (hvets : Vets (chronos cat) (fun _ d w => w.Sound cat d) d made)
    (hold : ∀ e ∈ made, ¬ e.2.MakesSlot d) :
    ((chronos cat).apply (made.map Prod.snd) d).SlotsApart := by
  induction made generalizing d with
  | nil => exact hd
  | cons e made ih =>
    refine ih (slotsApart_update hd hvets.1 (hold e List.mem_cons_self)) hvets.2 fun e' he' => ?_
    exact (creation_slots cat).stays d e'.2 e.2 (hold e' (List.mem_cons_of_mem _ he'))

/-- What one statement writes in the committed state keeps slots apart. -/
theorem slotsApart_exec {s : Stmt} {o : Nat} {r : s.Rows} {ws : List Write} (hd : d.SlotsApart)
    (hsound : d.Sound cat) (hx : (exec cat s o d).result = .ok (r, ws)) :
    ((chronos cat).apply ws d).SlotsApart := by
  rcases exec_written hx with rfl | ⟨w, rfl, -⟩
  · exact hd
  · have hmem := List.mem_singleton_self w
    by_cases hmakes : w.MakesSlot d
    · obtain ⟨p, start, finish, -, rfl, hfree⟩ := exec_makesSlot hx hmem hmakes
      exact slotsApart_insert hd hfree
    · exact slotsApart_update hd (exec_sound hsound hx hmem) hmakes

end Slots

/-! ### Every run -/

section Runs

variable {C ι : Type} [DecidableEq C] [DecidableEq ι] {cat : Catalog}
variable {fromColumn : Instant → Except JsError Instant} {tasks : ι → Task} {d₀ : Database}
variable {w w' : Workers C ι} {l : Label Ask.Answer Nat JsError C ι}

omit [DecidableEq C] [DecidableEq ι] in
theorem createsAlone_of_insertsAlone (h : InsertsAlone w l) :
    CreatesAlone (chronos cat) (fun d w => w.MakesSlot d) w l := by
  intro s ok err i pending r ws hprog hsession hx x hmem hmakes
  obtain ⟨p, start, finish, rfl, -⟩ := exec_makesSlot hx hmem hmakes
  exact h p start finish ok err hprog i pending hsession

/-- The slots are apart, and no new one waits for a `COMMIT`. -/
structure SlotsKeptApart (w : Workers C ι) : Prop where
  apart : w.db.SlotsApart
  pending : w.NoneBeingMade fun d w => w.MakesSlot d

/-- **Step lemma.** -/
theorem slotsApart_step (hsound : w.Vetted (chronos cat) (fun _ => anyFacts.dialogue)
      (fun d => d₀.Keeps d ∧ d.Sound cat) (fun _ d w => w.Sound cat d) Write.soundLock)
    (h : SlotsKeptApart w) (hl : InsertsAlone w l) (hs : w.step (chronos cat) l = some w') :
    SlotsKeptApart w' := by
  obtain ⟨hpending, made, hdb, hjournal, hmade⟩ :=
    h.pending.step (creation_slots cat) (createsAlone_of_insertsAlone hl) hs
  refine ⟨?_, hpending⟩
  rw [hdb]
  rcases hmade with hold | ⟨s, ok, err, r, -, hx⟩
  · -- The step's writes are vetted; the journal tells that they are the same.
    obtain ⟨-, made', hvets, -, hjournal'⟩ := hsound.step (vetting_sound cat ι d₀)
      ⟨fun _ _ _ _ _ _ => trivial, fun a _ _ => learns_anyFacts a _⟩ hs
    obtain rfl := List.append_cancel_left (hjournal'.symm.trans hjournal)
    exact slotsApart_apply h.apart hvets hold
  · exact slotsApart_exec h.apart hsound.db.2 hx

/-- **Run lemma.** -/
theorem slotsApart_reaches (hsound : d₀.Sound cat) (hapart : d₀.SlotsApart)
    (h : Reaches (chronos cat) InsertsAlone (World.init d₀ fun i => (tasks i).program fromColumn) w) :
    SlotsKeptApart w := by
  induction h with
  | start => exact ⟨hapart, noneBeingMade_init _ _⟩
  | step hr hl hs ih => exact slotsApart_step (sound_of_reaches hsound hr) ih hl hs

omit [DecidableEq C] [DecidableEq ι] in
/-- Where slots have one live booking each and do not overlap, nobody is booked twice. -/
theorem occupied_unique {d : Database} (hone : d.OneLive) (hapart : d.SlotsApart) {p : ProviderId}
    {t : Instant} {i j : BookingId} (hi : d.Occupied p t i) (hj : d.Occupied p t j) : i = j := by
  obtain ⟨b, slot, hb, hlive, hslot, hp, hstart, hend⟩ := hi
  obtain ⟨b', slot', hb', hlive', hslot', hp', hstart', hend'⟩ := hj
  by_cases hs : b.slotId = b'.slotId
  · exact hone b.slotId i j ⟨b, hb, hlive, rfl⟩ ⟨b', hb', hlive', hs.symm⟩
  · rcases hapart b.slotId b'.slotId slot slot' hs hslot hslot' with hother | hbefore | hafter
    · exact absurd (hp.trans hp'.symm) hother
    · exact absurd (hstart'.trans_lt hend) (Int.not_lt.mpr hbefore)
    · exact absurd (hstart.trans_lt hend') (Int.not_lt.mpr hafter)

/-- **No provider is booked twice at a time.**  Whatever tasks run, interleaved in any order over
    any connections, with anything failing: the slot of a live booking is there, and at every
    instant a provider has at most one live booking whose slot lasts over it. -/
theorem never_double_booked (hsound : d₀.Sound cat) (hapart : d₀.SlotsApart)
    (h : Reaches (chronos cat) InsertsAlone (World.init d₀ fun i => (tasks i).program fromColumn) w) :
    (∀ i b, w.db.bookings.lookup i = some b → b.live = true →
      ∃ slot, w.db.slots.lookup b.slotId = some slot ∧
        ∀ t, slot.slotStartUtc ≤ t → t < slot.slotEndUtc → w.db.Occupied slot.providerId t i) ∧
    ∀ p t i j, w.db.Occupied p t i → w.db.Occupied p t j → i = j := by
  have hdb : w.db.Sound cat := (sound_of_reaches hsound h).db.2
  refine ⟨fun i b hb hlive => ?_, fun p t i j => ?_⟩
  · obtain ⟨slot, hslot⟩ := Option.isSome_iff_exists.mp (hdb.bookings i b hb).1
    exact ⟨slot, hslot, fun t hstart hend => ⟨b, slot, hb, hlive, hslot, rfl, hstart, hend⟩⟩
  · exact occupied_unique hdb.oneLive (slotsApart_reaches hsound hapart h).apart

/-- The condition on a step as a check. -/
def insertsAlone (w : Workers C ι) (l : Label Ask.Answer Nat JsError C ι) : Bool :=
  match w.prog l.thread, w.session l.conn with
  | .stmt (.insertSlot ..) _ _, .active .. => false
  | _, _ => true

omit [DecidableEq C] [DecidableEq ι] in
theorem insertsAlone_of_check (h : insertsAlone w l = true) : InsertsAlone w l := by
  intro p start finish ok err hprog i pending hsession
  unfold insertsAlone at h
  rw [hprog, hsession] at h
  cases h

/-- The slot is made and booked: client `5` has the provider's time, and nobody else. -/
theorem never_double_booked_filled : ∃ w : Workers Bool Bool,
    w.db.Occupied 7 (hoursMs 100) 1 ∧ ∀ j, w.db.Occupied 7 (hoursMs 100) j → j = 1 := by
  have hrun : ∃ w : Workers Bool Bool, World.run (chronos sampleCatalog) insertsAlone
      startFillAndBook (⟨false, false, calmEnv 1 0⟩ :: List.replicate 10 ⟨true, true, calmEnv 1 0⟩) =
        some w ∧ w.db.bookings.lookup 1 = some (sampleBooking .booked 1) ∧
        w.db.slots.lookup 1 = some (sampleSlot .booked) := ⟨_, rfl, rfl, rfl⟩
  obtain ⟨w, hw, hbooked, hfilled⟩ := hrun
  have hapart : newDb.SlotsApart := fun _ _ _ _ _ h => nomatch h
  obtain ⟨hslots, honce⟩ := never_double_booked (sound_newDb sampleCatalog) hapart
    (reaches_of_run (fun _ _ _ hcheck => insertsAlone_of_check hcheck) hw)
  obtain ⟨slot, hslot, hoccupied⟩ := hslots 1 (sampleBooking .booked 1) hbooked rfl
  obtain rfl := Option.some.inj (hfilled.symm.trans hslot)
  have htaken : w.db.Occupied 7 (hoursMs 100) 1 := hoccupied _ (by decide) (by decide)
  exact ⟨w, htaken, fun j hj => honce 7 (hoursMs 100) j 1 hj htaken⟩

end Runs

end Chronos
