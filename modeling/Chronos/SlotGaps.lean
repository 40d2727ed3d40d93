import Chronos.SlotDays

namespace Chronos.Time

open Calendar

/-!
# Generated slots around a gap of the clock

Where the clocks are moved forward, readings that do not occur are taken for later instants, and
two steps may end up in the wrong order.

* `generateSlots_inOrder_iff`: when the slots come one after another.  A step that ends in the gap
  runs into the steps that begin soon after it (`Step.RunsInto`).
* `generateSlots_insideHours_iff`: when the slots stay within the hours of the provider.  The code
  drops a step that begins in the gap and ends after it (`Step.LeavesGap`), not one that ends in
  the gap.

Of the windows nothing is lost to the gap (`windows_covered_iff`), but the code takes the years
0 to 99 for 1900 to 1999, so it may leave out a date of these years that the rules allow.
-/

/-! ### The order of the steps -/

theorem stepsFrom_pairwise (d : Date) (slotMinutes n m : Nat) :
    (stepsFrom d slotMinutes n m).Pairwise fun p q => p.ends ≤ q.begins := by
  induction n generalizing m with
  | zero => exact List.Pairwise.nil
  | succ n ih =>
    refine List.Pairwise.cons (fun q hq => ?_) (ih _)
    obtain ⟨j, -, rfl⟩ := mem_stepsFrom.mp hq
    show reading d (m + slotMinutes) ≤ reading d (m + slotMinutes + j * slotMinutes)
    unfold reading
    omega

theorem datesFrom_pairwise (n : Nat) (d : Date) :
    (datesFrom n d).Pairwise fun a b => a.number < b.number := by
  induction n generalizing d with
  | zero => exact List.Pairwise.nil
  | succ n ih =>
    refine List.Pairwise.cons (fun b hb => ?_) (ih _)
    have hlow := (mem_datesFrom.mp hb).1
    rw [number_next] at hlow
    omega

/-- The minutes of a date come before those of a later one. -/
theorem reading_lt_reading {d d' : Date} (h : d.number < d'.number) {m m' : Nat} (hm : m < 1440) :
    reading d m < reading d' m' := by
  have hday : dayMs = 86400000 := rfl
  unfold reading Date.start
  rw [hday]
  omega

section Steps

variable {slotMinutes : Nat} {rules : Option Rules} {fromDate toDate : Date} {p : Step}

theorem mem_dateSteps {d : Date} (hp : p ∈ dateSteps slotMinutes rules d) :
    p.date = d ∧ p.last < 1440 := by
  unfold dateSteps at hp
  split at hp
  · obtain ⟨j, hj, rfl⟩ := mem_stepsFrom.mp hp
    have hfits := step_le hj
    have hend := (endTimeOf rules).minutes_lt
    exact ⟨rfl, by dsimp only; omega⟩
  · cases hp

/-- The steps come one after another. -/
theorem steps_pairwise (slotMinutes : Nat) (rules : Option Rules) (fromDate toDate : Date) :
    (Rules.steps slotMinutes rules fromDate toDate).Pairwise fun p q => p.ends ≤ q.begins := by
  unfold Rules.steps
  rw [List.pairwise_flatMap]
  constructor
  · intro d _
    unfold dateSteps
    split
    · exact stepsFrom_pairwise _ _ _ _
    · exact List.Pairwise.nil
  · refine (datesFrom_pairwise _ _).imp fun {d d'} hlt p hp q hq => ?_
    obtain ⟨hpdate, hlast⟩ := mem_dateSteps hp
    obtain ⟨hqdate, -⟩ := mem_dateSteps hq
    exact (reading_lt_reading (by rw [hpdate, hqdate]; exact hlt) hlast).le

theorem step_first_lt (hpos : 0 < slotMinutes)
    (hp : p ∈ Rules.steps slotMinutes rules fromDate toDate) : p.first < p.last := by
  obtain ⟨d, -, -, j, -, rfl⟩ := mem_steps.mp hp
  show _ + j * slotMinutes < _ + (j + 1) * slotMinutes
  rw [Nat.succ_mul]
  omega

theorem step_begins_lt (h : p.first < p.last) : p.begins < p.ends := by
  unfold Step.begins Step.ends reading
  omega

end Steps

/-! ### Slots that come one after another -/

/-- The slots are in the order of their starts, last some time, and each ends by the start of the
    next. -/
def InOrder (slots : List Slot) : Prop :=
  slots.Pairwise (fun a b => a.startUtc < b.startUtc) ∧
    (∀ slot ∈ slots, slot.startUtc < slot.endUtc) ∧
      slots.IsChain fun a b => a.endUtc ≤ b.startUtc

theorem inOrder_iff {slots : List Slot} :
    InOrder slots ↔ (∀ slot ∈ slots, slot.startUtc < slot.endUtc) ∧
      slots.Pairwise fun a b => a.endUtc ≤ b.startUtc := by
  constructor
  · rintro ⟨hstarts, hlast, hnext⟩
    refine ⟨hlast, ?_⟩
    clear hlast
    induction slots with
    | nil => exact List.Pairwise.nil
    | cons a slots ih =>
      obtain ⟨-, hrest⟩ := List.pairwise_cons.mp hstarts
      cases slots with
      | nil => exact List.pairwise_singleton _ _
      | cons b slots =>
        obtain ⟨hab, hchain⟩ := List.isChain_cons_cons.mp hnext
        refine List.Pairwise.cons (fun c hc => ?_) (ih hrest hchain)
        rcases List.mem_cons.mp hc with rfl | hc
        · exact hab
        · have hbc := List.rel_of_pairwise_cons hrest hc
          exact hab.trans hbc.le
  · rintro ⟨hlast, hends⟩
    refine ⟨hends.imp_of_mem fun {a b} ha _ hab => ?_, hlast, hends.isChain⟩
    exact (hlast a ha).trans_le hab

/-- Two slots share no instant. -/
def Slot.Apart (a b : Slot) : Prop := a.endUtc ≤ b.startUtc ∨ b.endUtc ≤ a.startUtc

instance : Std.Symm Slot.Apart := ⟨fun _ _ => Or.symm⟩

/-- The texts of the starts have years of one length. -/
def OneEra (slots : List Slot) : Prop :=
  (∀ slot ∈ slots, slot.startUtc < year10000) ∨ ∀ slot ∈ slots, year10000 ≤ slot.startUtc

theorem Slot.before_trans (a b c : Slot) (hab : a.before b = true) (hbc : b.before c = true) :
    a.before c = true := by
  unfold Slot.before at *
  grind

theorem Slot.before_total (a b : Slot) : (a.before b || b.before a) = true := by
  unfold Slot.before
  grind

/-- Starts with years of one length are in the order of their texts. -/
theorem Slot.before_iff {a b : Slot} (h : a.startUtc < year10000 ↔ b.startUtc < year10000) :
    a.before b = true ↔ a.startUtc ≤ b.startUtc := by
  unfold Slot.before
  grind

/-- A start of the year 10000 has the lesser text. -/
theorem Slot.not_before {a b : Slot} (ha : a.startUtc < year10000) (hb : year10000 ≤ b.startUtc) :
    a.before b = false := by
  unfold Slot.before
  grind

/-- Two elements of a list are related, the one first that comes first. -/
theorem pairwise_or {α : Type} {R : α → α → Prop} {l : List α} (h : l.Pairwise R) {a b : α}
    (ha : a ∈ l) (hb : b ∈ l) (hne : a ≠ b) : R a b ∨ R b a := by
  have hsymm : Std.Symm fun x y => R x y ∨ R y x := ⟨fun _ _ => Or.symm⟩
  exact List.Pairwise.forall (R := fun x y => R x y ∨ R y x) (h.imp fun hab => Or.inl hab) ha hb hne

/-- Slots that are apart are brought in order by sorting the texts of their starts, if the
    years of these have one length. -/
theorem inOrder_mergeSort_iff {slots : List Slot}
    (hlast : ∀ slot ∈ slots, slot.startUtc < slot.endUtc) :
    InOrder (slots.mergeSort Slot.before) ↔ slots.Pairwise Slot.Apart ∧ OneEra slots := by
  have hperm : (slots.mergeSort Slot.before).Perm slots := List.mergeSort_perm _ _
  have hsorted := List.pairwise_mergeSort Slot.before_trans Slot.before_total slots
  have hlast' : ∀ slot ∈ slots.mergeSort Slot.before, slot.startUtc < slot.endUtc :=
    fun slot h => hlast slot (hperm.mem_iff.mp h)
  rw [inOrder_iff]
  constructor
  · rintro ⟨-, hends⟩
    refine ⟨hperm.pairwise (hends.imp fun h => .inl h) fun h => h.symm, ?_⟩
    by_contra hno
    unfold OneEra at hno
    push Not at hno
    obtain ⟨⟨late, hlate, h10000⟩, early, hearly, h9999⟩ := hno
    have hne : late ≠ early := fun heq => h9999.not_ge (heq ▸ h10000)
    -- The start of the year 10000 comes first in the list, which has the starts in order.
    rcases pairwise_or (hsorted.and hends) (hperm.mem_iff.mpr hlate) (hperm.mem_iff.mpr hearly) hne
      with ⟨-, hend⟩ | ⟨hbefore, -⟩
    · have hstart := hlast late hlate
      exact absurd (hstart.trans_le hend) (h9999.trans_le h10000).not_gt
    · rw [Slot.not_before h9999 h10000] at hbefore
      cases hbefore
  · rintro ⟨hapart, hera⟩
    refine ⟨hlast', ?_⟩
    have hapart' : (slots.mergeSort Slot.before).Pairwise Slot.Apart :=
      hperm.symm.pairwise hapart fun h => h.symm
    refine (hsorted.and hapart').imp_of_mem fun {a b} ha hb hab => ?_
    have hsame : a.startUtc < year10000 ↔ b.startUtc < year10000 := by
      rcases hera with hera | hera
      · exact iff_of_true (hera a (hperm.mem_iff.mp ha)) (hera b (hperm.mem_iff.mp hb))
      · exact iff_of_false (hera a (hperm.mem_iff.mp ha)).not_gt (hera b (hperm.mem_iff.mp hb)).not_gt
    have hstart : a.startUtc ≤ b.startUtc := (Slot.before_iff hsame).mp hab.1
    rcases hab.2 with h | h
    · exact h
    · exact absurd ((hlast' b hb).trans_le h) hstart.not_gt

section RunsInto

variable {tz : Zone} {p q : Step}

/-- The slot of `p` runs into that of the later step `q`: `p` ends in a gap, and `q` begins after
    it, by less than the gap's length.  Only the slot of a `p` in the gap may come after the
    whole slot of `q`. -/
def Step.RunsInto (tz : Zone) (p q : Step) : Prop :=
  (tz.InGap p.ends ∧ ¬ tz.InGap q.begins ∧ q.begins - p.ends < tz.gap p.ends) ∧
    ¬ (tz.InGap p.begins ∧ ¬ tz.InGap q.ends ∧ q.ends - p.begins ≤ tz.gap p.begins)

/-- **The slots of two steps are apart** unless the earlier one runs into the later one. -/
theorem apart_iff (hp : p.first < p.last) (hq : q.first < q.last) (hpq : p.ends ≤ q.begins) :
    (p.slot tz).Apart (q.slot tz) ↔ ¬ p.RunsInto tz q := by
  have hp' := step_begins_lt hp
  have hq' := step_begins_lt hq
  have hfirst : (p.slot tz).endUtc ≤ (q.slot tz).startUtc ↔
      ¬ (tz.InGap p.ends ∧ ¬ tz.InGap q.begins ∧ q.begins - p.ends < tz.gap p.ends) := by
    rcases hpq.eq_or_lt with heq | hlt
    · refine iff_of_true ?_ fun hrun => hrun.2.1 (heq ▸ hrun.1)
      show tz.compatible p.ends ≤ tz.compatible q.begins
      rw [heq]
    · rw [← Zone.compatible_gt_iff hlt]
      exact not_lt.symm
  have hsecond : (q.slot tz).endUtc ≤ (p.slot tz).startUtc ↔
      (tz.InGap p.begins ∧ ¬ tz.InGap q.ends ∧ q.ends - p.begins ≤ tz.gap p.begins) := by
    rw [← not_iff_not, ← Zone.compatible_lt_iff (by omega)]
    exact not_le
  unfold Slot.Apart Step.RunsInto
  rw [hfirst, hsecond]
  constructor
  · intro h hruns
    rcases h with h | h
    · exact h hruns.1
    · exact hruns.2 h
  · intro hruns
    by_contra hno
    rw [not_or, not_not] at hno
    exact hruns hno

/-- A step that runs into another one is kept, and so is that one. -/
theorem kept_of_runsInto (hp : p.first < p.last) (hq : q.first < q.last) (h : p.RunsInto tz q) :
    p.Kept tz ∧ q.Kept tz := by
  rw [Step.kept_iff hp, Step.kept_iff hq]
  exact ⟨fun hleaves => hleaves.2.1 h.1.1, fun hleaves => h.1.2.1 hleaves.1⟩

end RunsInto

/-- **The slots of the steps are apart** unless a step runs into a later one. -/
theorem slotsOf_pairwise_apart_iff (tz : Zone) {slotMinutes : Nat} (hpos : 0 < slotMinutes)
    (rules : Option Rules) (fromDate toDate : Date) :
    (slotsOf tz (Rules.steps slotMinutes rules fromDate toDate)).Pairwise Slot.Apart ↔
      ∀ p ∈ Rules.steps slotMinutes rules fromDate toDate,
        ∀ q ∈ Rules.steps slotMinutes rules fromDate toDate, p.ends ≤ q.begins →
          ¬ p.RunsInto tz q := by
  have hsteps := steps_pairwise slotMinutes rules fromDate toDate
  have hlt : ∀ p ∈ Rules.steps slotMinutes rules fromDate toDate, p.first < p.last :=
    fun p => step_first_lt hpos
  generalize Rules.steps slotMinutes rules fromDate toDate = steps at hsteps hlt ⊢
  unfold slotsOf
  rw [List.pairwise_map]
  constructor
  · intro hapart p hp q hq hpq hruns
    obtain ⟨hpkept, hqkept⟩ := kept_of_runsInto (hlt p hp) (hlt q hq) hruns
    have hne : p ≠ q := by
      rintro rfl
      exact absurd (step_begins_lt (hlt p hp)) hpq.not_gt
    have hfilter : ∀ r ∈ steps, r.Kept tz → r ∈ steps.filter fun r => r.Kept tz :=
      fun r hr hkept => List.mem_filter.mpr ⟨hr, decide_eq_true hkept⟩
    have hslots : (p.slot tz).Apart (q.slot tz) := by
      rcases pairwise_or hapart (hfilter p hp hpkept) (hfilter q hq hqkept) hne with h | h
      · exact h
      · exact h.symm
    exact (apart_iff (hlt p hp) (hlt q hq) hpq).mp hslots hruns
  · intro hruns
    refine (hsteps.sublist List.filter_sublist).imp_of_mem fun {p q} hp hq hpq => ?_
    have hp' := (List.mem_filter.mp hp).1
    have hq' := (List.mem_filter.mp hq).1
    exact (apart_iff (hlt p hp') (hlt q hq') hpq).mpr (hruns p hp' q hq' hpq)

section Result

variable {tz : Zone} {slotMinutes : Nat} {rules : Option Rules} {fromDate toDate : Date}

theorem slotsOf_last (steps : List Step) :
    ∀ slot ∈ slotsOf tz steps, slot.startUtc < slot.endUtc := by
  intro slot hslot
  obtain ⟨p, -, hkept, rfl⟩ := mem_slotsOf.mp hslot
  exact hkept

/-- What all slots have, those of the steps have that are kept. -/
theorem forall_slotsOf_iff (hpos : 0 < slotMinutes) (P : Slot → Prop) :
    (∀ slot ∈ slotsOf tz (Rules.steps slotMinutes rules fromDate toDate), P slot) ↔
      ∀ p ∈ Rules.steps slotMinutes rules fromDate toDate, ¬ p.LeavesGap tz → P (p.slot tz) := by
  constructor
  · intro h p hp hstays
    have hkept : p.Kept tz := (Step.kept_iff (step_first_lt hpos hp)).mpr hstays
    exact h (p.slot tz) (mem_slotsOf.mpr ⟨p, hp, hkept, rfl⟩)
  · intro h slot hslot
    obtain ⟨p, hp, hkept, rfl⟩ := mem_slotsOf.mp hslot
    exact h p hp ((Step.kept_iff (step_first_lt hpos hp)).mp hkept)

theorem result_inOrder_iff (hlength : 5 ≤ slotMinutes ∧ slotMinutes ≤ 240)
    (hyear : toDate.year ≤ 9999) (hle : fromDate ≤ toDate) :
    (∃ slots, generateSlots tz slotMinutes rules fromDate toDate = .ok slots ∧ InOrder slots) ↔
      (slotsOf tz (Rules.steps slotMinutes rules fromDate toDate)).Pairwise Slot.Apart ∧
        OneEra (slotsOf tz (Rules.steps slotMinutes rules fromDate toDate)) := by
  have hgenerate := generateSlots_eq tz hlength.1 hlength.2 rules hyear hle
  refine Iff.trans ?_ (inOrder_mergeSort_iff (slotsOf_last _))
  constructor
  · rintro ⟨slots, hslots, horder⟩
    rw [hgenerate] at hslots
    obtain rfl := Except.ok.inj hslots
    exact horder
  · exact fun horder => ⟨_, hgenerate, horder⟩

end Result

/-- **The generated slots come one after another** exactly if no step runs into a later one, and
    the slots do not pass from the year 9999 to the year 10000. -/
theorem generateSlots_inOrder_iff (tz : Zone) (slotMinutes : Nat)
    (hlength : 5 ≤ slotMinutes ∧ slotMinutes ≤ 240) (rules : Option Rules)
    (fromDate toDate : IsoDate) (hle : fromDate.1 ≤ toDate.1) :
    (∃ slots, generateSlots tz slotMinutes rules fromDate.1 toDate.1 = .ok slots ∧ InOrder slots) ↔
      (∀ p ∈ Rules.steps slotMinutes rules fromDate.1 toDate.1,
        ∀ q ∈ Rules.steps slotMinutes rules fromDate.1 toDate.1, p.ends ≤ q.begins →
          ¬ p.RunsInto tz q) ∧
      ((∀ p ∈ Rules.steps slotMinutes rules fromDate.1 toDate.1,
          ¬ p.LeavesGap tz → tz.compatible p.begins < year10000) ∨
        ∀ p ∈ Rules.steps slotMinutes rules fromDate.1 toDate.1,
          ¬ p.LeavesGap tz → year10000 ≤ tz.compatible p.begins) := by
  have hpos : 0 < slotMinutes := by omega
  rw [result_inOrder_iff hlength toDate.2 hle, slotsOf_pairwise_apart_iff tz hpos]
  refine and_congr_right fun _ => ?_
  unfold OneEra
  rw [forall_slotsOf_iff hpos fun slot => slot.startUtc < year10000,
    forall_slotsOf_iff hpos fun slot => year10000 ≤ slot.startUtc]
  rfl

theorem utc_not_inGap (l : Int) : ¬ utc.InGap l := fun h => h l (Int.add_zero l)

theorem utc_inOrder :
    ∃ slots, generateSlots utc 30 none newYear2026.1 newYear2026.1 = .ok slots ∧ InOrder slots := by
  have hearly : ∀ p ∈ Rules.steps 30 none newYear2026.1 newYear2026.1, p.begins - 0 < year10000 := by
    decide
  refine (generateSlots_inOrder_iff utc 30 (by omega) none newYear2026 newYear2026
    (by decide)).mpr ⟨fun p _ q _ _ hruns => utc_not_inGap _ hruns.1.1, .inl fun p hp _ => ?_⟩
  rw [utc, Zone.compatible_fixed]
  exact hearly p hp

/-- The rules of the night, from 01:00 to 04:00. -/
def night : Rules := ⟨none, some ⟨1, 0⟩, some ⟨4, 0⟩⟩

/-- When New York skips the hour from 02:00 on, 01:45 to 02:30 ends after 03:15 to 04:00 has
    begun. -/
theorem night_slots_overlap :
    ¬ ∃ slots, generateSlots newYork 45 (some night) springForward.1 springForward.1 = .ok slots ∧
      InOrder slots := by
  rw [result_inOrder_iff (by omega) springForward.2 (Date.le_def.mpr (le_refl _)),
    slotsOf_pairwise_apart_iff newYork (by omega)]
  intro h
  refine h.1 ⟨springForward.1, 105, 150⟩ (by decide) ⟨springForward.1, 195, 240⟩ (by decide)
    (by decide) ⟨⟨(newYork_inGap _).mpr (by decide), ?_, ?_⟩, ?_⟩
  · rw [newYork_inGap]
    decide
  · decide
  · rintro ⟨hgap, -⟩
    rw [newYork_inGap] at hgap
    revert hgap
    decide

/-! ### Slots within the hours of the provider -/

/-- The weekday of a date, 1 to 7 from Monday on, is among those of the rules. -/
def AllowedDay (rules : Option Rules) (d : Date) : Prop :=
  ∀ daysOfWeek, rules.bind Rules.daysOfWeek = some daysOfWeek → (d.weekday : Int) ∈ daysOfWeek

/-- The clock shows a minute of the date. -/
def OnDate (d : Date) (l : Int) : Prop := d.start ≤ l ∧ l < d.start + dayMs

/-- The clock shows, as the slot begins and ends, minutes of one allowed date between the two,
    the first one not before the window and the last one not after it. -/
def Slot.InHours (tz : Zone) (rules : Option Rules) (fromDate toDate : Date) (slot : Slot) : Prop :=
  ∃ d, (fromDate ≤ d ∧ d ≤ toDate) ∧ AllowedDay rules d ∧
    OnDate d (tz.clock slot.startUtc) ∧ OnDate d (tz.clock slot.endUtc) ∧
    reading d (startTimeOf rules).minutes ≤ tz.clock slot.startUtc ∧
    tz.clock slot.endUtc ≤ reading d (endTimeOf rules).minutes

/-- The slots are within the hours of the provider, and none is made of a step whose start or
    end does not occur. -/
def InsideHours (tz : Zone) (slotMinutes : Nat) (rules : Option Rules) (fromDate toDate : Date)
    (slots : List Slot) : Prop :=
  (∀ slot ∈ slots, slot.InHours tz rules fromDate toDate) ∧
    ∀ p ∈ Rules.steps slotMinutes rules fromDate toDate, p.slot tz ∈ slots →
      ¬ tz.InGap p.begins ∧ ¬ tz.InGap p.ends

/-- The minutes of a date are shown on that date. -/
theorem onDate_reading {d : Date} {m : Nat} (hm : m < 1440) : OnDate d (reading d m) := by
  have hday : dayMs = 86400000 := rfl
  unfold OnDate reading
  rw [hday]
  omega

theorem date_of_onDate {d d' : Date} {l : Int} (h : OnDate d l) (h' : OnDate d' l) : d = d' := by
  have hday : dayMs = 86400000 := rfl
  unfold OnDate Date.start at h h'
  rw [hday] at h h'
  exact number_injective (by omega)

theorem reading_mono {d : Date} {m m' : Nat} (h : m ≤ m') : reading d m ≤ reading d m' := by
  unfold reading
  omega

/-- From the year 100 on the code finds the weekday of a date. -/
theorem dayOfWeek_eq {d : Date} (hyear : 100 ≤ d.year) : dayOfWeek d = d.weekday := by
  have hnumber : (if d.year ≤ 99 then 1900 + d.year else d.year) = d.year := if_neg (by omega)
  unfold dayOfWeek Date.weekday
  dsimp only
  rw [hnumber]
  change (if (d.number + 6) % 7 = 0 then 7 else (d.number + 6) % 7) = _
  split <;> omega

/-- The code includes a date if the weekday it finds is among those of the rules. -/
theorem includesDay_iff {rules : Option Rules} {d : Date} :
    includesDay rules d = true ↔ ∀ daysOfWeek, rules.bind Rules.daysOfWeek = some daysOfWeek →
      (dayOfWeek d : Int) ∈ daysOfWeek := by
  unfold includesDay
  cases rules.bind Rules.daysOfWeek with
  | none => simp
  | some daysOfWeek => simp

/-- From the year 100 on the dates it includes are the allowed ones. -/
theorem includesDay_iff_allowedDay {rules : Option Rules} {d : Date} (hyear : 100 ≤ d.year) :
    includesDay rules d = true ↔ AllowedDay rules d := by
  rw [includesDay_iff, dayOfWeek_eq hyear]
  rfl

/-- **The generated slots stay within the hours** exactly if every step that does not leave a gap
    begins and ends at minutes that occur, on a date whose weekday is allowed. -/
theorem generateSlots_insideHours_iff (tz : Zone) (slotMinutes : Nat)
    (hlength : 5 ≤ slotMinutes ∧ slotMinutes ≤ 240) (rules : Option Rules)
    (fromDate toDate : IsoDate) (hle : fromDate.1 ≤ toDate.1) :
    (∃ slots, generateSlots tz slotMinutes rules fromDate.1 toDate.1 = .ok slots ∧
        InsideHours tz slotMinutes rules fromDate.1 toDate.1 slots) ↔
      ∀ p ∈ Rules.steps slotMinutes rules fromDate.1 toDate.1, ¬ p.LeavesGap tz →
        ¬ tz.InGap p.begins ∧ ¬ tz.InGap p.ends ∧ AllowedDay rules p.date := by
  have hpos : 0 < slotMinutes := by omega
  have hgenerate := generateSlots_eq tz hlength.1 hlength.2 rules toDate.2 hle
  constructor
  · rintro ⟨slots, hslots, hhours, hoccur⟩ p hp hstays
    rw [hgenerate] at hslots
    obtain rfl := Except.ok.inj hslots
    have hkept : p.Kept tz := (Step.kept_iff (step_first_lt hpos hp)).mpr hstays
    have hmem : p.slot tz ∈ (slotsOf tz (Rules.steps slotMinutes rules fromDate.1 toDate.1)).mergeSort
        Slot.before := List.mem_mergeSort.mpr (mem_slotsOf.mpr ⟨p, hp, hkept, rfl⟩)
    obtain ⟨hbegins, hends⟩ := hoccur p hp hmem
    obtain ⟨d, -, hallowed, hstart, -⟩ := hhours _ hmem
    refine ⟨hbegins, hends, ?_⟩
    -- The slot begins on the date of its step.
    have hclock : tz.clock (p.slot tz).startUtc = p.begins := (tz.compatible_of_occurs hbegins).1
    obtain ⟨hdate, hfirst⟩ : p.date = p.date ∧ p.first < 1440 := by
      obtain ⟨d', -, -, j, hj, rfl⟩ := mem_steps.mp hp
      have hfits := step_le hj
      have hend := (endTimeOf rules).minutes_lt
      rw [Nat.succ_mul] at hfits
      exact ⟨rfl, by dsimp only; omega⟩
    rw [hclock] at hstart
    rw [date_of_onDate (onDate_reading hfirst) hstart]
    exact hallowed
  · intro h
    refine ⟨_, hgenerate, fun slot hslot => ?_, fun p hp hslot => ?_⟩
    · obtain ⟨p, hp, hkept, rfl⟩ := mem_slotsOf.mp (List.mem_mergeSort.mp hslot)
      obtain ⟨hbegins, hends, hallowed⟩ := h p hp ((Step.kept_iff (step_first_lt hpos hp)).mp hkept)
      obtain ⟨d, hd, -, j, hj, rfl⟩ := mem_steps.mp hp
      have hfits := step_le hj
      have hend := (endTimeOf rules).minutes_lt
      have hfirst := (tz.compatible_of_occurs hbegins).1
      have hlast := (tz.compatible_of_occurs hends).1
      unfold Slot.InHours Step.slot
      dsimp only
      rw [hfirst, hlast]
      unfold Step.begins Step.ends at *
      dsimp only at *
      exact ⟨d, hd, hallowed, onDate_reading (by rw [Nat.succ_mul] at hfits; omega),
        onDate_reading (by omega), reading_mono (Nat.le_add_right _ _), reading_mono hfits⟩
    · have hkept : p.Kept tz := slotsOf_last _ _ (List.mem_mergeSort.mp hslot)
      obtain ⟨hbegins, hends, -⟩ := h p hp ((Step.kept_iff (step_first_lt hpos hp)).mp hkept)
      exact ⟨hbegins, hends⟩

theorem utc_insideHours :
    ∃ slots, generateSlots utc 30 none newYear2026.1 newYear2026.1 = .ok slots ∧
      InsideHours utc 30 none newYear2026.1 newYear2026.1 slots :=
  (generateSlots_insideHours_iff utc 30 (by omega) none newYear2026 newYear2026 (by decide)).mpr
    fun _ _ _ => ⟨utc_not_inGap _, utc_not_inGap _, fun _ hnone => nomatch hnone⟩

/-- From 01:00 to 02:30, which the clocks skip. -/
def smallHours : Rules := ⟨none, some ⟨1, 0⟩, some ⟨2, 30⟩⟩

/-- The slot of 01:00 to 02:30 ends at 03:30. -/
theorem small_hours_slot_ends_late :
    ¬ ∃ slots, generateSlots newYork 90 (some smallHours) springForward.1 springForward.1 = .ok slots ∧
      InsideHours newYork 90 (some smallHours) springForward.1 springForward.1 slots := by
  rintro ⟨slots, hslots, hhours, -⟩
  rw [generateSlots_eq newYork (by omega) (by omega) _ springForward.2
    (Date.le_def.mpr (le_refl _))] at hslots
  obtain rfl := Except.ok.inj hslots
  let p : Step := ⟨springForward.1, 60, 150⟩
  have hslot : p.slot newYork = ⟨1772949600000, 1772955000000⟩ := by
    unfold Step.slot
    rw [newYork_compatible, newYork_compatible]
    decide
  have hkept : p.Kept newYork := by
    unfold Step.Kept
    rw [hslot]
    decide
  obtain ⟨d, ⟨hlow, hhigh⟩, -, -, -, -, hlast⟩ :=
    hhours (p.slot newYork) (List.mem_mergeSort.mpr (mem_slotsOf.mpr ⟨p, by decide, hkept, rfl⟩))
  have hd : d = springForward.1 := number_injective (le_antisymm hhigh hlow)
  rw [hslot, hd] at hlast
  revert hlast
  decide

/-! ### The windows of the allowed dates -/

/-- The slots leave out no instant of the windows of the allowed dates: between the instants of
    the first and of the last minute of the steps of such a date, each is in a slot. -/
def CoversWindows (tz : Zone) (slotMinutes : Nat) (rules : Option Rules) (fromDate toDate : Date) :
    Prop :=
  ∀ d, (fromDate ≤ d ∧ d ≤ toDate) → AllowedDay rules d → ∀ first last : WallClockResult,
    resolveWallClock tz (atMinute d (startTimeOf rules).minutes) .compatible = .ok first →
    resolveWallClock tz (atMinute d ((startTimeOf rules).minutes +
      stepCount slotMinutes rules * slotMinutes)) .compatible = .ok last →
    ∀ t, first.instant ≤ t → t < last.instant →
      ∃ slots, generateSlots tz slotMinutes rules fromDate toDate = .ok slots ∧
        ∃ slot ∈ slots, slot.startUtc ≤ t ∧ t < slot.endUtc

/-- The weekday of the date with 1900 years more; the 29th of February of the year 0 becomes the
    first of March. -/
def weekdayIn1900s (d : Date) : Nat :=
  (daysBeforeYear (1900 + d.year) + daysBeforeMonth (1900 + d.year) d.month + (d.day - 1) + 5) % 7
    + 1

/-- The allowed dates of the years 0 to 99 have an allowed weekday 1900 years later as well, if the
    window holds a step. -/
def AllowedInBoth (slotMinutes : Nat) (rules : Option Rules) (fromDate toDate : Date) : Prop :=
  ∀ d, (fromDate ≤ d ∧ d ≤ toDate) → d.year ≤ 99 → 0 < stepCount slotMinutes rules →
    AllowedDay rules d →
    ∀ daysOfWeek, rules.bind Rules.daysOfWeek = some daysOfWeek →
      (weekdayIn1900s d : Int) ∈ daysOfWeek

/-- No clock was moved forward in the years 0 to 99. -/
def NoEarlyGap (tz : Zone) : Prop :=
  ∀ d : Date, d.year ≤ 99 → ∀ m < 1440, ¬ tz.InGap (reading d m)

theorem dayOfWeek_early {d : Date} (hyear : d.year ≤ 99) : dayOfWeek d = weekdayIn1900s d := by
  unfold dayOfWeek weekdayIn1900s
  dsimp only
  rw [if_pos hyear]
  split <;> omega

section Windows

variable {tz : Zone} {slotMinutes : Nat} {rules : Option Rules} {fromDate toDate : IsoDate}

/-- The code includes the allowed dates, then. -/
theorem includesDay_of_allowedInBoth (h : AllowedInBoth slotMinutes rules fromDate.1 toDate.1)
    {d : Date} (hd : fromDate.1 ≤ d ∧ d ≤ toDate.1) (hallowed : AllowedDay rules d)
    (hpos : 0 < stepCount slotMinutes rules) : includesDay rules d = true := by
  rcases Nat.lt_or_ge d.year 100 with hearly | hlate
  · rw [includesDay_iff, dayOfWeek_early (by omega)]
    exact h d hd (by omega) hpos hallowed
  · exact (includesDay_iff_allowedDay hlate).mpr hallowed

theorem coversWindows_of_allowedInBoth (hlength : 5 ≤ slotMinutes ∧ slotMinutes ≤ 240)
    (h : AllowedInBoth slotMinutes rules fromDate.1 toDate.1) :
    CoversWindows tz slotMinutes rules fromDate.1 toDate.1 := by
  intro d hd hallowed first last hfirst hlast t hlow hhigh
  rcases Nat.eq_zero_or_pos (stepCount slotMinutes rules) with hnone | hpos
  · -- Without a step the first minute is the last one.
    rw [hnone, Nat.zero_mul, Nat.add_zero, hfirst] at hlast
    obtain rfl := Except.ok.inj hlast
    exact absurd hhigh hlow.not_gt
  · exact slots_cover_window tz slotMinutes hlength rules fromDate toDate d hd
      (includesDay_of_allowedInBoth h hd hallowed hpos) first last hfirst hlast t ⟨hlow, hhigh⟩

/-- **A date that is left out stays uncovered**: where no clock is moved, the slots of the earlier
    dates end before the window begins, and those of the later ones begin after that. -/
theorem includesDay_of_coversWindows (hgap : NoEarlyGap tz)
    (hlength : 5 ≤ slotMinutes ∧ slotMinutes ≤ 240)
    (h : CoversWindows tz slotMinutes rules fromDate.1 toDate.1) {d : Date}
    (hd : fromDate.1 ≤ d ∧ d ≤ toDate.1) (hyear : d.year ≤ 99)
    (hpos : 0 < stepCount slotMinutes rules) (hallowed : AllowedDay rules d) :
    includesDay rules d = true := by
  have hstart := (startTimeOf rules).minutes_lt
  have hlast := lastMinute_lt slotMinutes rules
  have hoccurs := hgap d hyear _ hstart
  have hsteps : 0 < stepCount slotMinutes rules * slotMinutes := Nat.mul_pos hpos (by omega)
  have hwindow : tz.compatible (reading d (startTimeOf rules).minutes) <
      tz.compatible (reading d ((startTimeOf rules).minutes +
        stepCount slotMinutes rules * slotMinutes)) :=
    Zone.compatible_lt_of_occurs hoccurs (by unfold reading; omega)
  -- The slot over the first instant of the window is that of a step of some date `d'`.
  obtain ⟨slots, hslots, slot, hslot, hbegins, hends⟩ := h d hd hallowed _ _
    (resolveWallClock_atMinute (by omega) hstart) (resolveWallClock_atMinute (by omega) hlast)
    (tz.compatible (reading d (startTimeOf rules).minutes)) (le_refl _) hwindow
  have hle : fromDate.1 ≤ toDate.1 := by
    simp only [Date.le_def] at hd ⊢
    omega
  rw [generateSlots_eq tz hlength.1 hlength.2 rules toDate.2 hle] at hslots
  obtain rfl := Except.ok.inj hslots
  obtain ⟨p, hp, -, rfl⟩ := mem_slotsOf.mp (List.mem_mergeSort.mp hslot)
  obtain ⟨d', -, hday, j, hj, rfl⟩ := mem_steps.mp hp
  have hfits := step_le hj
  have hend := (endTimeOf rules).minutes_lt
  rcases lt_trichotomy d'.number d.number with hearlier | hsame | hlater
  · have hlate : (startTimeOf rules).minutes + (j + 1) * slotMinutes < 1440 := by omega
    have hbefore : reading d' ((startTimeOf rules).minutes + (j + 1) * slotMinutes) <
        reading d (startTimeOf rules).minutes := reading_lt_reading hearlier hlate
    have hyear' := Date.year_le hearlier.le
    have hlt := Zone.compatible_lt_of_occurs (hgap d' (by omega) _ hlate) hbefore
    exact absurd hends hlt.not_gt
  · rw [← number_injective hsame]
    exact hday
  · have hafter : reading d (startTimeOf rules).minutes <
        reading d' ((startTimeOf rules).minutes + j * slotMinutes) :=
      reading_lt_reading hlater hstart
    have hlt := Zone.compatible_lt_of_occurs hoccurs hafter
    exact absurd hbegins hlt.not_ge

theorem allowedInBoth_of_coversWindows (hgap : NoEarlyGap tz)
    (hlength : 5 ≤ slotMinutes ∧ slotMinutes ≤ 240)
    (h : CoversWindows tz slotMinutes rules fromDate.1 toDate.1) :
    AllowedInBoth slotMinutes rules fromDate.1 toDate.1 := by
  intro d hd hyear hpos hallowed
  have hday := includesDay_of_coversWindows hgap hlength h hd hyear hpos hallowed
  rwa [includesDay_iff, dayOfWeek_early hyear] at hday

end Windows

/-- **No availability is lost to the clock**: whatever a zone does, the slots cover the windows of
    all allowed dates exactly if those of the years 0 to 99 have an allowed weekday 1900 years
    later as well.  And it is so for each zone that has no gap in those years. -/
theorem windows_covered_iff (slotMinutes : Nat) (hlength : 5 ≤ slotMinutes ∧ slotMinutes ≤ 240)
    (rules : Option Rules) (fromDate toDate : IsoDate) :
    ((∀ tz, CoversWindows tz slotMinutes rules fromDate.1 toDate.1) ↔
        AllowedInBoth slotMinutes rules fromDate.1 toDate.1) ∧
      ∀ tz, NoEarlyGap tz → (CoversWindows tz slotMinutes rules fromDate.1 toDate.1 ↔
        AllowedInBoth slotMinutes rules fromDate.1 toDate.1) := by
  have heach : ∀ tz, NoEarlyGap tz → (CoversWindows tz slotMinutes rules fromDate.1 toDate.1 ↔
      AllowedInBoth slotMinutes rules fromDate.1 toDate.1) := fun tz hgap =>
    ⟨allowedInBoth_of_coversWindows hgap hlength, coversWindows_of_allowedInBoth hlength⟩
  refine ⟨⟨fun hall => ?_, fun h tz => coversWindows_of_allowedInBoth hlength h⟩, heach⟩
  have hutc : NoEarlyGap utc := fun d _ m _ => utc_not_inGap _
  exact (heach utc hutc).mp (hall utc)

/-- In the night in which New York skips an hour, the slot of 01:45 to 02:30, which ends at 03:30,
    is the one over the instant of the change. -/
theorem night_covered :
    ∃ slots, generateSlots newYork 45 (some night) springForward.1 springForward.1 = .ok slots ∧
      ∃ slot ∈ slots, slot.startUtc ≤ 1772953200000 ∧ 1772953200000 < slot.endUtc := by
  have hlate : AllowedInBoth 45 (some night) springForward.1 springForward.1 := by
    intro d hd hyear
    have hfrom : (2026 : Nat) ≤ d.year := Date.year_le hd.1
    omega
  refine (windows_covered_iff 45 (by omega) (some night) springForward springForward).1.mpr hlate
    newYork springForward.1 (by decide) (fun _ hnone => nomatch hnone)
    ⟨1772949600000, true, false⟩ ⟨1772956800000, true, false⟩ ?_ ?_ _ (by decide) (by decide)
  · rw [resolveWallClock_atMinute (by decide) (by decide), newYork_compatible]
    decide
  · rw [resolveWallClock_atMinute (by decide) (by decide), newYork_compatible]
    decide

/-- The first of January of the year 50, a Saturday; that of 1950 was a Sunday. -/
def newYear50 : IsoDate :=
  ⟨⟨50, 1, 1, epoch.month_pos, epoch.month_le, epoch.day_pos, by decide⟩, by decide⟩

def saturdays : Rules := ⟨some [6], none, none⟩

/-- The Saturday has no slots, though the window is from 09:00 to 17:00. -/
theorem early_saturday_uncovered :
    ¬ CoversWindows utc 30 (some saturdays) newYear50.1 newYear50.1 := by
  have hgap : NoEarlyGap utc := fun d _ m _ => utc_not_inGap _
  have hsaturday : AllowedDay (some saturdays) newYear50.1 := by
    rintro daysOfWeek ⟨⟩
    decide
  intro hcovers
  have hday := includesDay_of_coversWindows hgap (by omega) hcovers (by decide) (by decide)
    (by decide) hsaturday
  revert hday
  decide

end Chronos.Time
