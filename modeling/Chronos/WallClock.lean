import Chronos.SlotDays

namespace Chronos.Time

open Calendar

/-!
# What a disambiguation policy asks for

`DisambiguationPolicy.asks` is the meaning of a policy over the occurrences of a reading: the
instant it asks for, or none where it asks for an exception.  It is what Temporal does with the
option that stands for the policy (`asks_eq_resolve`).

`resolveWallClock` never gets that far: the policy is in the wrong argument, and the flag
`ambiguous` is a constant.  `obeys_iff` says for which readings nobody notices.
-/

/-- Temporal's name for a policy. -/
def DisambiguationPolicy.disambiguation : DisambiguationPolicy → Disambiguation
  | .compatible => .compatible
  | .earliest => .earlier
  | .latest => .later
  | .reject => .reject

/-- The instant a policy asks for at the reading `l`.  Of a gap, `earliest` asks for the instant
    before the shift, at which the clock shows the reading moved back by the length of the gap. -/
def DisambiguationPolicy.asks (policy : DisambiguationPolicy) (tz : Zone) (l : Int) :
    Option Instant :=
  match tz.possible l, policy with
  | [t], _ => some t
  -- The reading occurs twice.
  | _ :: _ :: _, .reject => none
  | _ :: second :: _, .latest => some second
  | first :: _ :: _, _ => some first
  -- It does not occur.
  | [], .reject => none
  | [], .earliest => some (l - tz.offset (l + dayMs))
  | [], _ => some (l - tz.offset (l - dayMs))

/-- The earliest instant that the clock shows before a gap. -/
theorem head_possible_of_inGap {tz : Zone} {l : Int} (h : tz.InGap l) :
    (tz.possible (l - tz.gap l)).head? = some (l - tz.offset (l + dayMs)) := by
  have hclock := tz.clock_before_gap h
  have hsorted := tz.pairwise_possible (l - tz.gap l)
  have hmem := tz.mem_possible.mpr hclock
  obtain ⟨-, hpos, -⟩ := tz.compatible_of_inGap h
  match hp : tz.possible (l - tz.gap l) with
  | [] => rw [hp] at hmem; exact absurd hmem List.not_mem_nil
  | first :: rest =>
    rw [hp] at hsorted hmem
    show some first = _
    rcases List.mem_cons.mp hmem with heq | hrest
    · rw [heq]
    · have hle : first ≤ l - tz.offset (l + dayMs) := List.rel_of_pairwise_cons hsorted hrest
      have hfirst : tz.clock first = l - tz.gap l := tz.mem_possible.mp (by rw [hp]; simp)
      have hbound := tz.offset_bounded first
      have hbefore := tz.offset_bounded (l - dayMs)
      have hafter := tz.offset_bounded (l + dayMs)
      unfold Zone.clock at hfirst hclock
      unfold Zone.gap at hfirst hclock hpos
      -- An offset that changes before the gap would still be in force after it.
      have hsame : tz.offset (l - tz.offset (l + dayMs)) = tz.offset first := by
        by_contra hmoved
        have hkept : tz.offset (l + dayMs) = tz.offset (l - tz.offset (l + dayMs)) :=
          tz.settles first _ _ hle (by omega) (by omega) hmoved
        omega
      congr 1
      omega

/-- **The policies are Temporal's**: with the option for the policy, a reading stands for the
    instant that the policy asks for. -/
theorem asks_eq_resolve (policy : DisambiguationPolicy) (tz : Zone) (l : Int) :
    policy.asks tz l = tz.resolve policy.disambiguation l := by
  have hlength := tz.length_possible_le l
  unfold DisambiguationPolicy.asks DisambiguationPolicy.disambiguation
  match hp : tz.possible l with
  | [t] => unfold Zone.resolve; cases policy <;> simp [hp]
  | [first, second] => unfold Zone.resolve; cases policy <;> simp [hp]
  | _ :: _ :: _ :: _ => rw [hp] at hlength; simp at hlength
  | [] =>
    have hgap : tz.InGap l := tz.inGap_iff.mpr hp
    have hforward : tz.resolve .compatible l = some (l - tz.offset (l - dayMs)) := by
      rw [tz.resolve_compatible, (tz.compatible_of_inGap hgap).1]
    have hlater : tz.resolve .later l = tz.resolve .compatible l := by
      unfold Zone.resolve
      rw [hp]
    cases policy
    case compatible => exact hforward.symm
    case earliest =>
      unfold Zone.resolve
      rw [hp]
      exact (head_possible_of_inGap hgap).symm
    case latest => exact (hlater.trans hforward).symm
    case reject =>
      unfold Zone.resolve
      rw [hp]

/-! ### What `resolveWallClock` does -/

/-- A call obeys its policy: it throws where the policy asks for that, and otherwise returns the
    instant asked for, flagged as ambiguous unless the reading occurs exactly once. -/
def ObeysPolicy (tz : Zone) (plainDateTime : PlainDateTime) (policy : DisambiguationPolicy) : Prop :=
  match policy.asks tz plainDateTime.reading with
  | none => ∃ e, resolveWallClock tz plainDateTime policy = .error e
  | some t => ∃ result, resolveWallClock tz plainDateTime policy = .ok result ∧
      result.instant = t ∧
      (result.ambiguous = true ↔ (tz.possible plainDateTime.reading).length ≠ 1)

/-- Whatever the policy, a reading is taken for the instant `compatible`. -/
theorem resolveWallClock_eq (tz : Zone) (plainDateTime : PlainDateTime)
    (policy : DisambiguationPolicy) :
    resolveWallClock tz plainDateTime policy =
      if inRange (tz.compatible plainDateTime.reading) then
        .ok ⟨tz.compatible plainDateTime.reading, true, false⟩
      else .error .rangeError := by
  unfold resolveWallClock
  rw [tz.resolve_compatible]

theorem compatible_of_once {tz : Zone} {l : Int} {t : Instant} (h : tz.possible l = [t]) :
    tz.compatible l = t := by
  have hresolve := tz.resolve_compatible l
  unfold Zone.resolve at hresolve
  rw [h] at hresolve
  exact (Option.some.inj hresolve).symm

/-- **The policy is obeyed by accident only**: where the reading occurs exactly once, at an instant
    Temporal knows, or where `reject` is asked to throw and the instant taken instead is one that
    Temporal does not know. -/
theorem obeys_iff (tz : Zone) (plainDateTime : PlainDateTime) (policy : DisambiguationPolicy) :
    ObeysPolicy tz plainDateTime policy ↔
      (∃ t, tz.possible plainDateTime.reading = [t] ∧ inRange t = true) ∨
      (policy = .reject ∧ (tz.possible plainDateTime.reading).length ≠ 1 ∧
        ¬ inRange (tz.compatible plainDateTime.reading) = true) := by
  unfold ObeysPolicy
  rw [resolveWallClock_eq]
  -- The flag that is returned is always `false`.
  have hflag : ∀ t, (tz.possible plainDateTime.reading).length ≠ 1 →
      ¬ ∃ result, (if inRange (tz.compatible plainDateTime.reading) then
          (.ok ⟨tz.compatible plainDateTime.reading, true, false⟩ : Except TimeError WallClockResult)
        else .error .rangeError) = .ok result ∧ result.instant = t ∧
        (result.ambiguous = true ↔ (tz.possible plainDateTime.reading).length ≠ 1) := by
    rintro t hlength ⟨result, hresult, -, hambiguous⟩
    split at hresult
    · obtain rfl := Except.ok.inj hresult
      exact absurd (hambiguous.mpr hlength) (by simp)
    · simp at hresult
  by_cases honce : (tz.possible plainDateTime.reading).length = 1
  · obtain ⟨t, ht⟩ := List.length_eq_one_iff.mp honce
    have hasks : policy.asks tz plainDateTime.reading = some t := by
      unfold DisambiguationPolicy.asks
      rw [ht]
    rw [hasks, compatible_of_once ht, ht]
    by_cases hrange : inRange t = true
    · simp [hrange]
    · simp [hrange]
  · have hnone : ¬ ∃ t, tz.possible plainDateTime.reading = [t] ∧ inRange t = true := by
      rintro ⟨t, ht, -⟩
      exact honce (by rw [ht]; rfl)
    match hasks : policy.asks tz plainDateTime.reading with
    | some t =>
      have hpolicy : policy ≠ .reject := by
        rintro rfl
        unfold DisambiguationPolicy.asks at hasks
        split at hasks <;> simp_all
      exact iff_of_false (hflag t honce) (by simp [hnone, hpolicy])
    | none =>
      have hpolicy : policy = .reject := by
        unfold DisambiguationPolicy.asks at hasks
        split at hasks <;> simp_all
      by_cases hrange : inRange (tz.compatible plainDateTime.reading) = true
      · simp [hrange, hnone]
      · simp [hrange, hpolicy, honce]

/-- Half past two of the eighth of March 2026, which the clocks of New York skipped. -/
def halfPastTwo : PlainDateTime := ⟨springForward.1, 2, 30, 0⟩

theorem halfPastTwo_inGap : newYork.InGap halfPastTwo.reading :=
  (newYork_inGap _).mpr (by decide)

/-- Of half past two, `reject` asks for an exception and gets the instant of half past three. -/
theorem reject_resolves : ¬ ObeysPolicy newYork halfPastTwo .reject := by
  have hasks : DisambiguationPolicy.reject.asks newYork halfPastTwo.reading = none := by
    unfold DisambiguationPolicy.asks
    rw [newYork.inGap_iff.mp halfPastTwo_inGap]
  have hrange : inRange (newYork.compatible halfPastTwo.reading) = true := by
    rw [newYork_compatible]
    decide
  unfold ObeysPolicy
  rw [hasks, resolveWallClock_eq, if_pos hrange]
  simp

end Chronos.Time
