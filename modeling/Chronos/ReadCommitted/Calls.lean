import Chronos.ReadCommitted.Contract

namespace ReadCommitted

/-!
# Sequences of calls, each one atomic step

`Calls step d₀ tr d` says that the calls in the list `tr`, made one after the other from
`d₀`, end in `d`; `tr` keeps every call with the states before and after it.  `step` is
usually `Alone` of the called program, with a condition on the state and the call.
-/

variable {D L : Type}

/-- A call in a run: the state before it, the call, the state after it. -/
structure Call (D L : Type) where
  before : D
  call : L
  after : D

/-- Calls made one after the other. -/
inductive Calls (step : D → L → D → Prop) (d₀ : D) : List (Call D L) → D → Prop
  | start : Calls step d₀ [] d₀
  | call {tr d l d'} : Calls step d₀ tr d → step d l d' → Calls step d₀ (tr ++ [⟨d, l, d'⟩]) d'

section Calls

variable {step : D → L → D → Prop} {d₀ d : D} {tr : List (Call D L)}

/-- **Run rule.**  What holds at the start and is preserved by every call holds at the end. -/
theorem Calls.invariant {J : D → Prop} (h₀ : J d₀)
    (hstep : ∀ d l d', J d → step d l d' → J d') (h : Calls step d₀ tr d) : J d := by
  induction h with
  | start => exact h₀
  | call _ hs ih => exact hstep _ _ _ ih hs

/-- Every call of a run is a step. -/
theorem Calls.mem_step (h : Calls step d₀ tr d) : ∀ x ∈ tr, step x.before x.call x.after := by
  induction h with
  | start => intro x hx; cases hx
  | call _ hs ih =>
    intro x hx
    rcases List.mem_append.mp hx with hx | hx
    · exact ih x hx
    · rw [List.mem_singleton.mp hx]
      exact hs

/-- What a call leaves behind and every call preserves holds at the end. -/
theorem Calls.since {J : D → Prop} (hstep : ∀ d l d', J d → step d l d' → J d')
    (h : Calls step d₀ tr d) : ∀ x ∈ tr, J x.after → J d := by
  induction h with
  | start => intro x hx; cases hx
  | call _ hs ih =>
    intro x hx hJ
    rcases List.mem_append.mp hx with hx | hx
    · exact hstep _ _ _ (ih x hx hJ) hs
    · rw [List.mem_singleton.mp hx] at hJ
      exact hJ

end Calls

/-! ### Calls of disciplined programs -/

section Solo

variable {S A : Type} {Rows : S → Type} {Ans : A → Type} {Err α O W K : Type}
variable {E : Engine Rows Ans D O W K Err} {P : Env O Err Ans → Prop} {d : D}

/-- The ghost of a solitary client at its start: what it knows, and that it may stay. -/
theorem solo_stays (d' : D) (_ : (Contract.solo E P).know d d') :
    (Contract.solo E P).move d d' [] d := rfl

/-- A solitary client commits whatever it commits. -/
theorem solo_next {φ : D → Prop} {d' : D} {ws : List W} (hφ : φ (E.apply ws d)) :
    (Contract.solo E P).Next d d' ws φ := ⟨_, rfl, hφ⟩

end Solo

end ReadCommitted
