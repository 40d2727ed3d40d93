import Chronos.Calendar.Date
import Mathlib.Data.List.Dedup
import Mathlib.Data.List.Sort

namespace Calendar

/-!
# Time zones

A zone is the UTC offset of every instant: the clocks on the wall show `t + offset t` at the
instant `t` (`Zone.clock`).  Instants and readings of the wall clock are milliseconds, counted
from the first of January 1970.

Where the offset grows the clock skips readings (a gap), where it shrinks it repeats some (an
overlap), so a reading may stand for no instant or for several (`Zone.possible`).
`Zone.resolve` picks one as Temporal does.  The policy `compatible` takes the first of several,
and moves a reading in a gap forward by the length of the gap (`compatible_iff`).

`Zone.compatible` is not monotone: `compatible_lt_iff` says when a later reading stands for a
later instant.
-/

/-- Milliseconds of a day. -/
def dayMs : Int := 86400000

/-- What the clock shows as a date begins. -/
def Date.start (d : Date) : Int := ((d.number : Int) - epoch.number) * dayMs

/-- The date of a reading of the clock. -/
def Date.ofReading (l : Int) : Date := Date.ofNumber (l / dayMs + epoch.number).toNat

theorem number_ofReading {l : Int} (hl : 0 ≤ l) :
    ((Date.ofReading l).number : Int) = l / dayMs + epoch.number := by
  have hpos : 0 ≤ l / dayMs := Int.ediv_nonneg hl (by decide)
  unfold Date.ofReading
  rw [number_ofNumber, Int.toNat_of_nonneg]
  omega

/-- A reading lies on its date. -/
theorem start_ofReading {l : Int} (hl : 0 ≤ l) :
    (Date.ofReading l).start ≤ l ∧ l < (Date.ofReading l).start + dayMs := by
  have hday : dayMs = 86400000 := rfl
  have hnumber := number_ofReading hl
  unfold Date.start
  rw [hnumber, hday]
  omega

/-- A date that begins before the first of January `d'` has an earlier year. -/
theorem year_lt_of_start {d d' : Date} (h : d.start < d'.start)
    (hfirst : d'.number = daysBeforeYear d'.year) : d.year < d'.year := by
  have hday : dayMs = 86400000 := rfl
  unfold Date.start at h
  rw [hday] at h
  by_contra hyear
  have hmono : daysBeforeYear d'.year ≤ daysBeforeYear d.year := daysBeforeYear_mono (by omega)
  have hnumber := d.number_lt_year.1
  omega

theorem ofReading_mono {l l' : Int} (hl : 0 ≤ l) (h : l ≤ l') :
    Date.ofReading l ≤ Date.ofReading l' := by
  have hday : dayMs = 86400000 := rfl
  have hnumber := number_ofReading hl
  have hnumber' := number_ofReading (hl.trans h)
  rw [hday] at hnumber hnumber'
  rw [Date.le_def]
  omega

/-- A zone uses finitely many offsets of less than a day, and keeps a new one for four days. -/
structure Zone where
  offset : Int → Int
  offsets : List Int
  offset_mem : ∀ t, offset t ∈ offsets
  bounded : ∀ o ∈ offsets, -dayMs < o ∧ o < dayMs
  settles : ∀ t u v, t ≤ u → u ≤ v → v ≤ t + 4 * dayMs → offset u ≠ offset t → offset v = offset u

namespace Zone

variable (z : Zone)

/-- What the clock on the wall shows. -/
def clock (t : Int) : Int := t + z.offset t

theorem offset_bounded (t : Int) : -dayMs < z.offset t ∧ z.offset t < dayMs :=
  z.bounded _ (z.offset_mem t)

/-- The instants at which the clock shows `l`, the earliest first. -/
def possible (l : Int) : List Int :=
  ((z.offsets.dedup.map (l - ·)).filter fun t => z.clock t = l).mergeSort

theorem mem_possible {t l : Int} : t ∈ z.possible l ↔ z.clock t = l := by
  simp only [possible, List.mem_mergeSort, List.mem_filter, List.mem_map, List.mem_dedup,
    decide_eq_true_eq]
  refine ⟨fun h => h.2, fun h => ⟨⟨z.offset t, z.offset_mem t, ?_⟩, h⟩⟩
  unfold clock at h
  omega

theorem pairwise_possible (l : Int) : (z.possible l).Pairwise (· ≤ ·) :=
  List.pairwise_mergeSort' (· ≤ ·) _

theorem nodup_possible (l : Int) : (z.possible l).Nodup := by
  have hmap : (z.offsets.dedup.map (l - ·)).Nodup :=
    (List.nodup_dedup z.offsets).map fun o o' ho => by
      have ho : l - o = l - o' := ho
      omega
  exact (List.mergeSort_perm _ _).nodup_iff.mpr (hmap.filter _)

/-- A reading occurs twice at most: the offset does not change again so soon. -/
theorem length_possible_le (l : Int) : (z.possible l).length ≤ 2 := by
  have hsorted := z.pairwise_possible l
  have hnodup := z.nodup_possible l
  match hp : z.possible l with
  | [] => simp
  | [t] => simp
  | [t, u] => simp
  | t :: u :: v :: ts =>
    rw [hp] at hsorted hnodup
    have ht : z.clock t = l := z.mem_possible.mp (by rw [hp]; simp)
    have hu : z.clock u = l := z.mem_possible.mp (by rw [hp]; simp)
    have hv : z.clock v = l := z.mem_possible.mp (by rw [hp]; simp)
    have htu : t ≤ u := List.rel_of_pairwise_cons hsorted (by simp)
    have huv : u ≤ v := List.rel_of_pairwise_cons (List.pairwise_cons.mp hsorted).2 (by simp)
    have hne : t ≠ u := by rintro rfl; simp at hnodup
    have hne' : u ≠ v := by rintro rfl; simp at hnodup
    have hboundt := z.offset_bounded t
    have hboundv := z.offset_bounded v
    unfold clock at ht hu hv
    have hsame : z.offset v = z.offset u :=
      z.settles t u v htu huv (by omega) (by omega)
    omega

/-- The clock never shows `l`. -/
def InGap (l : Int) : Prop := ∀ t, z.clock t ≠ l

/-- How much the offset grows around the reading `l`. -/
def gap (l : Int) : Int := z.offset (l + dayMs) - z.offset (l - dayMs)

end Zone

/-- Temporal's disambiguation policies. -/
inductive Disambiguation
  | compatible
  | earlier
  | later
  | reject
  deriving DecidableEq

namespace Zone

variable (z : Zone)

/-- The instant a reading of the clock is taken for, if there is one. -/
def resolve (policy : Disambiguation) (l : Int) : Option Int :=
  match z.possible l, policy with
  | [], .reject => none
  | [], .earlier => (z.possible (l - z.gap l)).head?
  | [], .compatible => (z.possible (l + z.gap l)).getLast?
  | [], .later => (z.possible (l + z.gap l)).getLast?
  | t :: [], .reject => some t
  | _ :: _ :: _, .reject => none
  | t :: ts, .later => some ((t :: ts).getLast (List.cons_ne_nil t ts))
  | t :: _, _ => some t

/-! ### The policy `compatible` -/

/-- The offset that counts for a reading of the clock: that of the first instant at which the
    clock shows it, and in a gap the offset before the gap. -/
def usedOffset (l : Int) : Int :=
  match z.possible l with
  | [] => z.offset (l - dayMs)
  | t :: _ => z.offset t

theorem usedOffset_bounded (l : Int) : -dayMs < z.usedOffset l ∧ z.usedOffset l < dayMs := by
  unfold usedOffset
  split
  · exact z.offset_bounded _
  · exact z.offset_bounded _

/-- The instant `compatible` takes a reading for. -/
def compatible (l : Int) : Int := l - z.usedOffset l

theorem inGap_iff {l : Int} : z.InGap l ↔ z.possible l = [] := by
  constructor
  · intro h
    by_contra hne
    obtain ⟨t, ht⟩ := List.exists_mem_of_ne_nil _ hne
    exact h t (z.mem_possible.mp ht)
  · intro h t ht
    have hmem : t ∈ z.possible l := z.mem_possible.mpr ht
    rw [h] at hmem
    exact List.not_mem_nil hmem

instance (l : Int) : Decidable (z.InGap l) := decidable_of_iff _ z.inGap_iff.symm

/-- **A reading that occurs** stands for the first instant at which it does. -/
theorem compatible_of_occurs {l : Int} (h : ¬ z.InGap l) :
    z.clock (z.compatible l) = l ∧ ∀ t, z.clock t = l → z.compatible l ≤ t := by
  rw [inGap_iff] at h
  unfold compatible usedOffset
  have hsorted := z.pairwise_possible l
  have hmem : ∀ t, t ∈ z.possible l ↔ z.clock t = l := fun t => z.mem_possible
  match hp : z.possible l with
  | [] => exact absurd hp h
  | first :: rest =>
    rw [hp] at hsorted hmem
    have hclock : z.clock first = l := (hmem first).mp List.mem_cons_self
    have hfirst : l - z.offset first = first := by unfold clock at hclock; omega
    dsimp only
    rw [hfirst]
    refine ⟨hclock, fun t ht => ?_⟩
    rcases List.mem_cons.mp ((hmem t).mpr ht) with rfl | hrest
    · exact le_refl _
    · exact List.rel_of_pairwise_cons hsorted hrest

/-- **A reading in a gap** is moved forward by the length of the gap: it counts by the offset
    before the gap, and the clock then shows the reading `gap` later. -/
theorem compatible_of_inGap {l : Int} (h : z.InGap l) :
    z.compatible l = l - z.offset (l - dayMs) ∧ 0 < z.gap l ∧
      z.clock (z.compatible l) = l + z.gap l := by
  have hused : z.usedOffset l = z.offset (l - dayMs) := by
    unfold usedOffset
    rw [z.inGap_iff.mp h]
  have hbefore := z.offset_bounded (l - dayMs)
  have hafter := z.offset_bounded (l + dayMs)
  -- The clock does not show `l` at the instants the two offsets make of it.
  have hfirst : z.offset (l - z.offset (l - dayMs)) ≠ z.offset (l - dayMs) := by
    intro heq
    exact h (l - z.offset (l - dayMs)) (by unfold clock; omega)
  have hsecond : z.offset (l - z.offset (l + dayMs)) ≠ z.offset (l + dayMs) := by
    intro heq
    exact h (l - z.offset (l + dayMs)) (by unfold clock; omega)
  have hday : (0 : Int) < dayMs := by decide
  have hnew : z.offset (l + dayMs) = z.offset (l - z.offset (l - dayMs)) :=
    z.settles (l - dayMs) _ _ (by omega) (by omega) (by omega) hfirst
  have hgrows : z.offset (l - dayMs) < z.offset (l + dayMs) := by
    by_contra hle
    refine hsecond ?_
    rw [hnew]
    exact z.settles (l - dayMs) _ _ (by omega) (by omega) (by omega) hfirst
  unfold compatible clock gap
  rw [hused]
  refine ⟨rfl, by omega, ?_⟩
  rw [← hnew]
  omega

/-- Before a gap the old offset is in force: the reading moved back by the length of the gap occurs
    at the instant that the offset after the gap makes of it. -/
theorem clock_before_gap {l : Int} (h : z.InGap l) :
    z.clock (l - z.offset (l + dayMs)) = l - z.gap l := by
  have hbefore := z.offset_bounded (l - dayMs)
  have hafter := z.offset_bounded (l + dayMs)
  have hday : (0 : Int) < dayMs := by decide
  have hkept : z.offset (l - z.offset (l + dayMs)) = z.offset (l - dayMs) := by
    by_contra hmoved
    have hnew : z.offset (l + dayMs) = z.offset (l - z.offset (l + dayMs)) :=
      z.settles (l - dayMs) _ _ (by omega) (by omega) (by omega) hmoved
    exact h (l - z.offset (l + dayMs)) (by unfold clock; omega)
  show l - z.offset (l + dayMs) + z.offset (l - z.offset (l + dayMs)) = l - z.gap l
  unfold gap
  omega

/-- After a gap its new offset is in force. -/
theorem offset_after_gap {l t : Int} (h : z.InGap l) (hlow : z.compatible l ≤ t)
    (hhigh : t ≤ l + 3 * dayMs) : z.offset t = z.offset (l - dayMs) + z.gap l := by
  obtain ⟨hcompatible, hpos, hclock⟩ := z.compatible_of_inGap h
  have hbefore := z.offset_bounded (l - dayMs)
  have hday : (0 : Int) < dayMs := by decide
  have hnew : z.offset (z.compatible l) = z.offset (l - dayMs) + z.gap l := by
    unfold clock at hclock
    omega
  rw [← hnew]
  exact z.settles (l - dayMs) _ _ (by omega) hlow (by omega) (by omega)

theorem getLast_of_pairwise {ts : List Int} {t : Int} (hsorted : ts.Pairwise (· ≤ ·)) (ht : t ∈ ts)
    (hlast : ∀ u ∈ ts, u ≤ t) : ts.getLast? = some t := by
  cases hts : ts.getLast? with
  | none => rw [List.getLast?_eq_none_iff] at hts; subst hts; exact absurd ht List.not_mem_nil
  | some u =>
    obtain ⟨init, rfl⟩ := List.getLast?_eq_some_iff.mp hts
    have hle : u ≤ t := hlast u (by simp)
    rcases List.mem_append.mp ht with hinit | hu
    · have hge : t ≤ u := (List.pairwise_append.mp hsorted).2.2 t hinit u (by simp)
      rw [le_antisymm hle hge]
    · rw [List.mem_singleton.mp hu]

/-- Temporal takes every reading for the instant `compatible`. -/
theorem resolve_compatible (l : Int) : z.resolve .compatible l = some (z.compatible l) := by
  match hp : z.possible l with
  | first :: rest =>
    have hoccurs : ¬ z.InGap l := by rw [inGap_iff, hp]; simp
    have hclock : z.clock first = l := z.mem_possible.mp (by rw [hp]; exact List.mem_cons_self)
    have hfirst : z.compatible l = first := by
      unfold compatible usedOffset
      unfold clock at hclock
      rw [hp]
      dsimp only
      omega
    rw [hfirst]
    unfold resolve
    rw [hp]
    cases rest <;> rfl
  | [] =>
    have hgap : z.InGap l := z.inGap_iff.mpr hp
    obtain ⟨hcompatible, hpos, hclock⟩ := z.compatible_of_inGap hgap
    have hresolve : z.resolve .compatible l = (z.possible (l + z.gap l)).getLast? := by
      unfold resolve
      rw [hp]
    rw [hresolve]
    refine getLast_of_pairwise (z.pairwise_possible _) (z.mem_possible.mpr hclock) fun t ht => ?_
    have ht' : z.clock t = l + z.gap l := z.mem_possible.mp ht
    by_contra hlt
    have hbound := z.offset_bounded t
    have hbefore := z.offset_bounded (l - dayMs)
    have hafter := z.offset_bounded (l + dayMs)
    have hlate : t ≤ l + 3 * dayMs := by unfold clock at ht'; unfold gap at ht'; omega
    have hoffset := z.offset_after_gap hgap (by omega) hlate
    unfold clock at ht'
    omega

/-! ### Later readings and later instants -/

variable {z} {l l' : Int}

/-- After a reading that occurs, later readings stand for later instants. -/
theorem compatible_lt_of_occurs (h : ¬ z.InGap l) (hl : l < l') :
    z.compatible l < z.compatible l' := by
  obtain ⟨hclock, hfirst⟩ := z.compatible_of_occurs h
  have hbound := z.offset_bounded (z.compatible l)
  have hday : (0 : Int) < dayMs := by decide
  by_contra hle
  by_cases hgap : z.InGap l'
  · obtain ⟨hcompatible, hpos, -⟩ := z.compatible_of_inGap hgap
    have hoffset : z.offset (z.compatible l) = z.offset (l' - dayMs) + z.gap l' :=
      z.offset_after_gap hgap (by omega) (by unfold clock at hclock; omega)
    unfold clock at hclock
    omega
  · obtain ⟨hclock', -⟩ := z.compatible_of_occurs hgap
    have hbound' := z.offset_bounded (z.compatible l')
    unfold clock at hclock hclock'
    -- Had the offset of the later reading been in force before, `l` would have occurred earlier.
    have hearlier : z.offset (l - z.offset (z.compatible l')) ≠ z.offset (z.compatible l') := by
      intro heq
      have hle' := hfirst (l - z.offset (z.compatible l')) (by unfold clock; omega)
      omega
    have hsame : z.offset (z.compatible l) = z.offset (z.compatible l') :=
      z.settles (l - z.offset (z.compatible l')) _ _ (by omega) (by omega) (by omega) hearlier.symm
    omega

/-- So do the readings of gaps among themselves. -/
theorem compatible_lt_of_inGap (h : z.InGap l) (h' : z.InGap l') (hl : l < l') :
    z.compatible l < z.compatible l' := by
  obtain ⟨hcompatible, -, -⟩ := z.compatible_of_inGap h
  obtain ⟨hcompatible', hpos', -⟩ := z.compatible_of_inGap h'
  have hbound := z.offset_bounded (l - dayMs)
  have hbound' := z.offset_bounded (l' - dayMs)
  have hday : (0 : Int) < dayMs := by decide
  by_contra hle
  have hafter' : z.offset (z.compatible l') = z.offset (l' - dayMs) + z.gap l' :=
    z.offset_after_gap h' (le_refl _) (by omega)
  -- The offset cannot have changed twice by then.
  have hsame : z.offset (l' - dayMs) = z.offset (l - dayMs) := by
    by_contra hne
    have hkept : z.offset (z.compatible l') = z.offset (l' - dayMs) :=
      z.settles (l - dayMs) _ _ (by omega) (by omega) (by omega) hne
    omega
  omega

/-- **Past a gap** the clock shows again what the readings of the gap were moved to: the reading
    `gap` later stands for the same instant. -/
theorem compatible_past_gap (h : z.InGap l) (h' : ¬ z.InGap l') (hl : l < l') :
    if l' - l ≤ z.gap l then z.compatible l' = z.compatible l + (l' - l) - z.gap l
    else z.compatible l < z.compatible l' := by
  obtain ⟨hcompatible, hpos, -⟩ := z.compatible_of_inGap h
  obtain ⟨hclock', -⟩ := z.compatible_of_occurs h'
  have hbound := z.offset_bounded (l - dayMs)
  have hbound' := z.offset_bounded (z.compatible l')
  have hafter := z.offset_bounded (l + dayMs)
  have hday : (0 : Int) < dayMs := by decide
  unfold clock at hclock'
  have hback : z.compatible l' < z.compatible l →
      z.offset (z.compatible l') = z.offset (l - dayMs) + z.gap l := by
    intro hlt
    have hnew : z.offset (z.compatible l') ≠ z.offset (l - dayMs) := by omega
    rw [← z.offset_after_gap h (le_refl _) (by omega)]
    exact (z.settles (l - dayMs) _ _ (by omega) hlt.le (by omega) hnew).symm
  split
  · next hnear =>
    have hoffset : z.offset (z.compatible l') = z.offset (l - dayMs) + z.gap l := by
      rcases lt_or_ge (z.compatible l') (z.compatible l) with hlt | hge
      · exact hback hlt
      · exact z.offset_after_gap h hge (by unfold gap at hnear; omega)
    omega
  · next hfar =>
    by_contra hle
    rcases lt_or_eq_of_le (not_lt.mp hle) with hlt | heq
    · have hoffset := hback hlt
      omega
    · have hoffset : z.offset (z.compatible l') = z.offset (l - dayMs) + z.gap l :=
        z.offset_after_gap h (le_of_eq heq.symm) (by omega)
      omega

/-- **A later reading stands for a later instant**, unless the earlier one is in a gap and the
    later one comes after the gap, by no more than the gap's length. -/
theorem compatible_lt_iff (hl : l < l') :
    z.compatible l < z.compatible l' ↔ ¬ (z.InGap l ∧ ¬ z.InGap l' ∧ l' - l ≤ z.gap l) := by
  by_cases h : z.InGap l
  · by_cases h' : z.InGap l'
    · exact iff_of_true (compatible_lt_of_inGap h h' hl) fun hpast => hpast.2.1 h'
    · have hpast := compatible_past_gap h h' hl
      split at hpast
      · next hnear => exact iff_of_false (by omega) fun hno => hno ⟨h, h', hnear⟩
      · next hfar => exact iff_of_true hpast fun hno => hfar hno.2.2
  · exact iff_of_true (compatible_lt_of_occurs h hl) fun hno => h hno.1

/-- A later reading stands for an earlier instant exactly when it comes after the gap of the
    other one, by less than the gap's length. -/
theorem compatible_gt_iff (hl : l < l') :
    z.compatible l' < z.compatible l ↔ z.InGap l ∧ ¬ z.InGap l' ∧ l' - l < z.gap l := by
  by_cases h : z.InGap l
  · by_cases h' : z.InGap l'
    · have hlt := compatible_lt_of_inGap h h' hl
      exact iff_of_false (by omega) fun hpast => hpast.2.1 h'
    · have hpast := compatible_past_gap h h' hl
      split at hpast
      · constructor
        · exact fun hlt => ⟨h, h', by omega⟩
        · rintro ⟨-, -, hlt⟩
          omega
      · next hfar => exact iff_of_false (by omega) fun hno => hfar hno.2.2.le
  · have hlt := compatible_lt_of_occurs h hl
    exact iff_of_false (by omega) fun hno => h hno.1

/-! ### Zones that change their offset once -/

/-- The zone with one offset. -/
def fixed (o : Int) (ho : -dayMs < o ∧ o < dayMs) : Zone where
  offset _ := o
  offsets := [o]
  offset_mem _ := List.mem_singleton.mpr rfl
  bounded o' ho' := by rw [List.mem_singleton.mp ho']; exact ho
  settles _ _ _ _ _ _ hne := absurd rfl hne

@[simp] theorem compatible_fixed (o : Int) (ho : -dayMs < o ∧ o < dayMs) (l : Int) :
    (fixed o ho).compatible l = l - o := by
  have hoccurs : ¬ (fixed o ho).InGap l := fun h =>
    h (l - o) (show l - o + o = l by omega)
  have hclock := (compatible_of_occurs _ hoccurs).1
  change (fixed o ho).compatible l + o = l at hclock
  omega

/-- The zone whose clocks are moved once, at the instant `at₀`. -/
def moved (at₀ before after : Int) (hbefore : -dayMs < before ∧ before < dayMs)
    (hafter : -dayMs < after ∧ after < dayMs) : Zone where
  offset t := if t < at₀ then before else after
  offsets := [before, after]
  offset_mem t := by
    split
    · exact List.mem_cons_self
    · exact List.mem_cons_of_mem _ List.mem_cons_self
  bounded o ho := by
    rcases List.mem_cons.mp ho with rfl | ho
    · exact hbefore
    · rw [List.mem_singleton.mp ho]
      exact hafter
  settles t u v htu huv _ hne := by
    -- The offset is another one at `u`, so the clocks were moved between `t` and `u`.
    have hmoved : t < at₀ ∧ at₀ ≤ u ∨ u < at₀ ∧ at₀ ≤ t := by
      by_contra hno
      refine hne ?_
      split <;> split <;> first | rfl | omega
    have hu : at₀ ≤ u := by omega
    rw [if_neg (show ¬ u < at₀ by omega), if_neg (show ¬ v < at₀ by omega)]

section Moved

variable {at₀ before after : Int} {hbefore : -dayMs < before ∧ before < dayMs}
  {hafter : -dayMs < after ∧ after < dayMs}

/-- Clocks that are moved forward skip the readings from `before` to `after`. -/
theorem inGap_moved {l : Int} :
    (moved at₀ before after hbefore hafter).InGap l ↔ at₀ + before ≤ l ∧ l < at₀ + after := by
  constructor
  · intro h
    have hfirst := h (l - before)
    have hsecond := h (l - after)
    unfold clock moved at hfirst hsecond
    dsimp only at hfirst hsecond
    split at hfirst <;> split at hsecond <;> omega
  · intro h t ht
    unfold clock moved at ht
    dsimp only at ht
    split at ht <;> omega

/-- Before the clocks are moved forward readings have the old offset, and in the gap too. -/
theorem compatible_moved (hle : before ≤ after) (l : Int) :
    (moved at₀ before after hbefore hafter).compatible l =
      if l < at₀ + after then l - before else l - after := by
  by_cases hgap : (moved at₀ before after hbefore hafter).InGap l
  · have hin := inGap_moved.mp hgap
    have hcompatible := (compatible_of_inGap _ hgap).1
    rw [if_pos hin.2, hcompatible]
    unfold moved
    dsimp only
    rw [if_pos (by have := hafter.2; omega)]
  · obtain ⟨hclock, -⟩ := compatible_of_occurs _ hgap
    rw [inGap_moved] at hgap
    unfold clock at hclock
    have hoffset : (moved at₀ before after hbefore hafter).offset
        ((moved at₀ before after hbefore hafter).compatible l) =
          if (moved at₀ before after hbefore hafter).compatible l < at₀ then before else after := rfl
    split at hoffset <;> split <;> omega

end Moved

end Zone

end Calendar
