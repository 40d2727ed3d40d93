import Chronos.DoubleBooking
import Chronos.SlotFill
import Chronos.ReadCommitted.Settled

namespace Chronos

open ReadCommitted ReadCommitted.Prog

/-!
# What a materializer has made lasts

`materializeProvider` inserts its slots one by one, while bookings, workers and other materializers
are at work.  An `INSERT` that has answered has put a slot there, or found one in its way, and no slot
is ever moved or deleted.

* `owes_materializeProvider` — the loop is answered for each of its slots.
* `hasSlot_insertSlot` — what an answer tells about the table.
* `materialized_lasts` — once `materializeProvider` has answered, no working hour of its dates is
  without a slot, then or later.
-/

/-- A slot of the provider lasts over a part of that time. -/
def Database.HasSlot (p : ProviderId) (time : Instant × Instant) (d : Database) : Prop :=
  ∃ id row, d.slots.lookup id = some row ∧ row.providerId = p ∧ row.slotStartUtc < time.2 ∧
    time.1 < row.slotEndUtc

/-- An answer to the `INSERT` of a slot at that time. -/
def AnswersSlot (p : ProviderId) : (s : Stmt) → s.Rows → Instant × Instant → Prop
  | .insertSlot p' start finish, _, time => p' = p ∧ time = (start, finish)
  | _, _, _ => False

/-- `gen_random_uuid()` draws an id that no slot has. -/
def DrawsNewSlots {C ι : Type} (w : Workers C ι) (l : Label Ask.Answer Nat JsError C ι) : Prop :=
  ∀ p start finish ok err, w.prog l.thread = .stmt (.insertSlot p start finish) ok err →
    w.db.slots.lookup l.env.fresh = none

section Table

variable {cat : Catalog} {p : ProviderId} {d d' : Database} {time : Instant × Instant}

/-- Slots stay where they are. -/
theorem Database.HasSlot.keeps (h : d.HasSlot p time) (hd : d.Keeps d') : d'.HasSlot p time := by
  obtain ⟨id, row, hrow, hp, hstart, hend⟩ := h
  obtain ⟨status, hkept⟩ := hd.slots id row hrow
  exact ⟨id, _, hkept, hp, hstart, hend⟩

/-- **An `INSERT` that answers** has put the slot there, or there is another one in its way. -/
theorem hasSlot_insertSlot {start finish : Instant} {o : Nat} {r : Unit} {ws : List Write}
    (hsound : d.Sound cat) (hfresh : d.slots.lookup o = none)
    (hx : (exec cat (.insertSlot p start finish) o d).result = .ok (r, ws)) :
    ((chronos cat).apply ws d).HasSlot p (start, finish) := by
  simp only [exec, hfresh, Option.isSome_none, Bool.false_or] at hx
  split at hx
  · cases hx
  · next hordered =>
    have hlt : start < finish := Int.not_le.mp hordered
    split at hx
    · next hconflict =>
      obtain rfl := (Prod.mk.inj (Except.ok.inj hx)).2
      obtain ⟨e, he, hmeets⟩ := List.any_eq_true.mp hconflict
      simp only [Bool.and_eq_true, Bool.or_eq_true, decide_eq_true_eq] at hmeets
      have hrow := mem_slots_entries.mp he
      refine ⟨e.1, e.2, hrow, hmeets.1, ?_⟩
      rcases hmeets.2 with hstart | hoverlap
      · -- The slot that starts at once ends later.
        have hends := (hsound.slots e.1 e.2 hrow).1
        exact ⟨hstart ▸ hlt, hstart ▸ hends⟩
      · exact hoverlap
    · split at hx
      · cases hx
      · obtain rfl := (Prod.mk.inj (Except.ok.inj hx)).2
        refine ⟨o, ⟨p, start, finish, .«open»⟩, ?_, rfl, hlt, hlt⟩
        show ((Write.slot o ⟨p, start, finish, .«open»⟩).apply d).slots.lookup o = _
        rw [lookup_slot_write, if_pos rfl]

/-- **The loop** is answered for each of its slots before it returns. -/
theorem owes_materializeProvider (p : ProviderId) (slots : List (Instant × Instant)) :
    (materializeProvider p slots).Owes (AnswersSlot p) (· ∈ slots) := by
  induction slots with
  | nil => exact fun b hb => nomatch hb
  | cons s slots ih =>
    refine ⟨fun r => ih.mono ?_, fun e => trivial⟩
    rintro b ⟨hmem, hother⟩
    exact (List.mem_cons.mp hmem).resolve_left fun heq => hother ⟨rfl, heq⟩

end Table

/-! ### Every run -/

section Runs

variable {C ι : Type} [DecidableEq C] [DecidableEq ι] {cat : Catalog}
variable {fromColumn : Instant → Except JsError Instant} {tasks : ι → Task} {d₀ : Database}
variable {w w' : Workers C ι} {l : Label Ask.Answer Nat JsError C ι} {i : ι} {p : ProviderId}
variable {need : Instant × Instant → Prop}

/-- A step keeps what was there before it. -/
theorem keeps_step (hsound : w.Vetted (chronos cat) (fun _ => anyFacts.dialogue)
      (fun d => d₀.Keeps d ∧ d.Sound cat) (fun _ d w => w.Sound cat d) Write.soundLock)
    (hs : w.step (chronos cat) l = some w') : w.db.Keeps w'.db := by
  have hhere : w.Vetted (chronos cat) (fun _ => anyFacts.dialogue)
      (fun d => w.db.Keeps d ∧ d.Sound cat) (fun _ d w => w.Sound cat d) Write.soundLock :=
    ⟨⟨.refl w.db, hsound.db.2⟩, hsound.session, hsound.prog⟩
  exact (hhere.step (vetting_sound cat ι w.db)
    ⟨fun _ _ _ _ _ _ => trivial, fun a _ _ => learns_anyFacts a _⟩ hs).1.db.1

/-- **Run lemma.**  What the materializer has been told holds, and it owes the rest. -/
theorem settles_reaches (hsound : d₀.Sound cat)
    (howes : ((tasks i).program fromColumn).Owes (AnswersSlot p) need)
    (h : Reaches (chronos cat) (fun w l => InsertsAlone w l ∧ DrawsNewSlots w l)
      (World.init d₀ fun i => (tasks i).program fromColumn) w) :
    w.Settles (AnswersSlot p) (fun time d => d.HasSlot p time) need i := by
  induction h with
  | start => exact settles_init howes
  | @step w w' l hr hl hs ih =>
    have hvetted := sound_of_reaches hsound hr
    refine ih.step ?_ (fun b hb => hb.keeps (keeps_step hvetted hs)) ?_ hs
    · rintro rfl s ok err r b hprog htold
      cases s with
      | insertSlot p' start finish => exact hl.1 p' start finish ok err hprog
      | _ => exact htold.elim
    · rintro s ok err r ws b hprog rfl hx htold
      cases s with
      | insertSlot p' start finish =>
        obtain ⟨rfl, rfl⟩ := htold
        exact hasSlot_insertSlot hvetted.db.2 (hl.2 p' start finish ok err hprog) hx
      | _ => exact htold.elim

/-- **What a materializer has made lasts.**  Once `materializeProvider` has answered, there is a slot
    of the provider in each half hour from nine to five of each of its dates that the clocks do not
    skip: whatever else is running, then and at every later moment. -/
theorem materialized_lasts (hsound : d₀.Sound cat) {tz : Calendar.Zone} {fromDate toDate : Time.IsoDate}
    (htask : (tasks i).program fromColumn = materializeProviderDates p fromDate.1 toDate.1 tz)
    (h : Reaches (chronos cat) (fun w l => InsertsAlone w l ∧ DrawsNewSlots w l)
      (World.init d₀ fun i => (tasks i).program fromColumn) w)
    (hanswered : w.prog i = .ret ()) {d : Calendar.Date} (hd : fromDate.1 ≤ d ∧ d ≤ toDate.1)
    {j : Nat} (hj : j < 16) {start finish : Instant}
    (hstart : start = tz.compatible (Time.reading d (540 + j * 30)))
    (hfinish : finish = tz.compatible (Time.reading d (540 + (j + 1) * 30))) (hlt : start < finish) :
    w.db.HasSlot p (start, finish) := by
  have hle : fromDate.1 ≤ toDate.1 := Calendar.Date.le_def.mpr
    ((Calendar.Date.le_def.mp hd.1).trans (Calendar.Date.le_def.mp hd.2))
  obtain ⟨slots, hslots, hmem⟩ := Time.mem_generateSlots tz (by decide : 5 ≤ providerSlotMinutes)
    (by decide) nineToFive toDate.2 hle
  have hprogram : materializeProviderDates p fromDate.1 toDate.1 tz =
      materializeProvider p (slots.map fun s => (s.startUtc, s.endUtc)) := by
    unfold materializeProviderDates
    rw [hslots]
  have howes : ((tasks i).program fromColumn).Owes (AnswersSlot p)
      (· ∈ slots.map fun s => (s.startUtc, s.endUtc)) := by
    rw [htask, hprogram]
    exact owes_materializeProvider p _
  refine (settles_reaches hsound howes h).returned hanswered ?_
  -- The half hour is one of the steps of its date.
  subst hstart hfinish
  have hopen : (Time.startTimeOf nineToFive).minutes = 540 := rfl
  have hcount : Time.stepCount providerSlotMinutes nineToFive = 16 := by decide
  have hstep : (⟨d, 540 + j * 30, 540 + (j + 1) * 30⟩ : Time.Step) ∈
      Time.Rules.steps providerSlotMinutes nineToFive fromDate.1 toDate.1 := by
    refine Time.mem_steps.mpr ⟨d, hd, rfl, j, hcount ▸ hj, ?_⟩
    rw [hopen]
    rfl
  have hslot := (hmem _).mpr (Time.mem_slotsOf.mpr ⟨_, hstep, hlt, rfl⟩)
  exact List.mem_map.mpr ⟨_, hslot, rfl⟩

/-! #### The second day of 2026 -/

/-- The half hours of that day, in UTC. -/
def halfHours : List (Instant × Instant) :=
  (List.range 16).map fun j : Nat => (1767344400000 + j * 1800000, 1767344400000 + (j + 1) * 1800000)

/-- They are what is generated. -/
theorem materializeProviderDates_secondOfJanuary :
    materializeProviderDates 7 Time.secondOfJanuary.1 Time.secondOfJanuary.1 Time.utc =
      materializeProvider 7 halfHours := by
  have hslots : Time.slotsOf Time.utc (Time.Rules.steps providerSlotMinutes nineToFive
      Time.secondOfJanuary.1 Time.secondOfJanuary.1) = halfHours.map fun time => ⟨time.1, time.2⟩ := by
    decide +kernel
  have hgenerated := Time.generateSlots_eq Time.utc (by decide : 5 ≤ providerSlotMinutes) (by decide)
    nineToFive Time.secondOfJanuary.2 (Calendar.Date.le_def.mpr (le_refl _))
  rw [hslots, List.mergeSort_of_pairwise (by decide +kernel)] at hgenerated
  unfold materializeProviderDates
  rw [hgenerated]
  rfl

/-- The slots of the day are made while the first of them is booked. -/
def fillAndBookFirst : Bool → Task
  | false => .materializeProvider 7 halfHours
  | true => .operation (.createBooking sampleRequest (some 0) false)

def startFirst : Workers Bool Bool := World.init newDb fun i => (fillAndBookFirst i).program .ok

/-- The conditions on a step as a check. -/
def insertsNew (w : Workers Bool Bool) (l : Label Ask.Answer Nat JsError Bool Bool) : Bool :=
  insertsAlone w l && match w.prog l.thread with
    | .stmt (.insertSlot ..) _ _ => (w.db.slots.lookup l.env.fresh).isNone
    | _ => true

theorem drawsNewSlots_of_check {w : Workers Bool Bool} {l : Label Ask.Answer Nat JsError Bool Bool}
    (h : insertsNew w l = true) : InsertsAlone w l ∧ DrawsNewSlots w l := by
  obtain ⟨halone, hnew⟩ := Bool.and_eq_true_iff.mp h
  refine ⟨insertsAlone_of_check halone, fun p start finish ok err hprog => ?_⟩
  rw [hprog] at hnew
  exact Option.isNone_iff_eq_none.mp hnew

/-- The first half hour is booked at once, and still a slot of the provider in the end. -/
theorem materialized_lasts_booked : ∃ w : Workers Bool Bool,
    (w.db.slots.lookup 1).map Slot.status = some .booked ∧
      ∀ j < 16, w.db.HasSlot 7 (1767344400000 + (j : Nat) * 1800000,
        1767344400000 + ((j : Nat) + 1) * 1800000) := by
  have hrun : ∃ w : Workers Bool Bool, World.run (chronos sampleCatalog) insertsNew startFirst
      (⟨false, false, calmEnv 1 0⟩ :: List.replicate 10 ⟨true, true, calmEnv 1 0⟩ ++
        (List.range 15).map fun k => ⟨false, false, calmEnv (k + 2) 0⟩) = some w ∧
      w.prog false = .ret () ∧ (w.db.slots.lookup 1).map Slot.status = some .booked :=
    ⟨_, rfl, rfl, rfl⟩
  obtain ⟨w, hw, hanswered, hbooked⟩ := hrun
  have hreach : Reaches (chronos sampleCatalog) (fun w l => InsertsAlone w l ∧ DrawsNewSlots w l)
      startFirst w := reaches_of_run (fun _ _ _ hcheck => drawsNewSlots_of_check hcheck) hw
  have htask : (fillAndBookFirst false).program .ok = materializeProviderDates 7
      Time.secondOfJanuary.1 Time.secondOfJanuary.1 Time.utc :=
    materializeProviderDates_secondOfJanuary.symm
  have hday : Time.secondOfJanuary.1 ≤ Time.secondOfJanuary.1 := Calendar.Date.le_def.mpr (le_refl _)
  have hopens : ∀ m : Nat, Time.utc.compatible (Time.reading Time.secondOfJanuary.1 (540 + m * 30)) =
      1767344400000 + m * 1800000 := by
    intro m
    have hstart : Time.secondOfJanuary.1.start = 1767312000000 := by decide +kernel
    unfold Time.utc Time.reading
    rw [Calendar.Zone.compatible_fixed, hstart]
    omega
  refine ⟨w, hbooked, fun j hj => ?_⟩
  have hlt : (1767344400000 + j * 1800000 : Int) < 1767344400000 + (j + 1) * 1800000 := by omega
  exact materialized_lasts (sound_newDb sampleCatalog) htask hreach hanswered ⟨hday, hday⟩ hj
    (hopens j).symm (hopens (j + 1)).symm hlt

end Runs

end Chronos
