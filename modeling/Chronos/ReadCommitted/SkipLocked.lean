import Mathlib.Data.List.Basic
import Mathlib.Logic.Function.Basic
import Mathlib.Logic.Relation

namespace ReadCommitted

/-!
# Rows handed out with `SKIP LOCKED`

    UPDATE t SET … WHERE id IN (SELECT id FROM t WHERE … ORDER BY … LIMIT 1
      FOR UPDATE SKIP LOCKED) RETURNING *

A call of such a statement first looks for a row and locks it, and then changes it and lets go.
In between other calls look for rows, and pass over this one.

* `Pick` — the statement: the rows it wants, in which order, and what it makes of one.
* `Look` — what a call finds when it looks: the table, and the rows that others have locked.
* `Claims` — the table with any number of calls; `Claims.Step` lets one of them go on.

A call is handed the first row among those it wants that nobody has locked, and nothing only if
there is none (`Claims.Sound.answered`).  When a row is handed out again, the earlier call had lost
it by then (`Claims.Sound.again`); what that means is a parameter (`Expiry`).
-/

variable {ι K R Q T : Type}

/-- The statement, with the parameters `Q` of a call. -/
structure Pick (Q R T : Type) where
  /-- the `WHERE` clause -/
  wanted : Q → R → Prop
  /-- the `ORDER BY` clause -/
  rank : R → T
  /-- the `SET` clause -/
  change : Q → R → R

/-- What a call with parameters `query` finds when it looks for a row. -/
structure Look (K R Q : Type) where
  query : Q
  table : K → Option R
  locked : K → Prop

/-- Row `k` is there, and nobody has locked it. -/
def Look.Offers (look : Look K R Q) (k : K) (r : R) : Prop :=
  look.table k = some r ∧ ¬ look.locked k

section Pick

variable [LE T] (P : Pick Q R T) (look : Look K R Q)

/-- A row the call may have. -/
def Pick.Candidate (k : K) (r : R) : Prop := look.Offers k r ∧ P.wanted look.query r

/-- The call may take row `k`: no other candidate comes before it. -/
def Pick.Picks (k : K) (r : R) : Prop :=
  P.Candidate look k r ∧ ∀ k' r', P.Candidate look k' r' → P.rank r ≤ P.rank r'

/-- What the call may return. -/
def Pick.Returns : Option (K × R) → Prop
  | none => ∀ k r, ¬ P.Candidate look k r
  | some (k, r') => ∃ r, P.Picks look k r ∧ r' = P.change look.query r

end Pick

/-- Where a call is: it has not looked yet, it has locked a row, or it is over. -/
inductive Turn (K R Q : Type)
  | waits
  | holds (look : Look K R Q) (k : K)
  | done

/-- What a call has returned, and what it had found. -/
structure Handout (ι K R Q : Type) where
  client : ι
  look : Look K R Q
  row : Option (K × R)

/-- The table, the calls, the parameters of those that have looked, and what has been returned so
    far, the last of it at the end. -/
structure Claims (ι K R Q : Type) where
  table : K → Option R
  turn : ι → Turn K R Q
  asked : List Q
  handouts : List (Handout ι K R Q)

namespace Claims

/-- All calls at their start. -/
def start (table : K → Option R) : Claims ι K R Q := ⟨table, fun _ => .waits, [], []⟩

/-- A call has locked row `k`. -/
def Locked (s : Claims ι K R Q) (k : K) : Prop := ∃ i look, s.turn i = .holds look k

/-- What a call with parameters `q` finds now. -/
def look (s : Claims ι K R Q) (q : Q) : Look K R Q := ⟨q, s.table, s.Locked⟩

section Step

variable [DecidableEq ι] [DecidableEq K]

/-- Call `i` locks row `k`. -/
def takes (s : Claims ι K R Q) (i : ι) (q : Q) (k : K) : Claims ι K R Q :=
  { s with turn := Function.update s.turn i (.holds (s.look q) k), asked := s.asked ++ [q] }

/-- Call `i` returns nothing. -/
def misses (s : Claims ι K R Q) (i : ι) (q : Q) : Claims ι K R Q :=
  { s with
    turn := Function.update s.turn i .done
    asked := s.asked ++ [q]
    handouts := s.handouts ++ [⟨i, s.look q, none⟩] }

/-- Call `i` stores the row `r'` it has made of the row it had locked, and returns it. -/
def finishes (s : Claims ι K R Q) (i : ι) (look : Look K R Q) (k : K) (r' : R) :
    Claims ι K R Q :=
  { s with
    table := Function.update s.table k (some r')
    turn := Function.update s.turn i .done
    handouts := s.handouts ++ [⟨i, look, some (k, r')⟩] }

/-- Call `i` fails, and lets go of what it has locked. -/
def fails (s : Claims ι K R Q) (i : ι) : Claims ι K R Q :=
  { s with turn := Function.update s.turn i .done }

/-- One call goes on.  `later q q'` says that a call with parameters `q'` may look after one with
    parameters `q`. -/
inductive Step [LE T] (P : Pick Q R T) (later : Q → Q → Prop) (s : Claims ι K R Q) :
    Claims ι K R Q → Prop
  | take {i q k r} (hturn : s.turn i = .waits) (hlater : ∀ q' ∈ s.asked, later q' q)
      (hpick : P.Picks (s.look q) k r) : Step P later s (s.takes i q k)
  | miss {i q} (hturn : s.turn i = .waits) (hlater : ∀ q' ∈ s.asked, later q' q)
      (hnone : ∀ k r, ¬ P.Candidate (s.look q) k r) : Step P later s (s.misses i q)
  | finish {i look k r} (hturn : s.turn i = .holds look k) (hrow : s.table k = some r) :
      Step P later s (s.finishes i look k (P.change look.query r))
  | fail {i} : Step P later s (s.fails i)

/-- `s` is reached from `s₀`. -/
abbrev Run [LE T] (P : Pick Q R T) (later : Q → Q → Prop) (s₀ s : Claims ι K R Q) : Prop :=
  Relation.ReflTransGen (Step P later) s₀ s

end Step

section Holds

variable [DecidableEq ι] {s : Claims ι K R Q} {i : ι} {q : Q} {k : K}

/-- A call that is over holds nothing, and the others hold what they held. -/
theorem holds_of_done {turn : ι → Turn K R Q} {j : ι} {look : Look K R Q}
    (h : Function.update turn i .done j = .holds look k) : j ≠ i ∧ turn j = .holds look k := by
  by_cases hj : j = i
  · subst hj
    rw [Function.update_self] at h
    cases h
  · rw [Function.update_of_ne hj] at h
    exact ⟨hj, h⟩

/-- Who holds a row after call `i` has locked one. -/
theorem holds_of_takes {j : ι} {look : Look K R Q} {k' : K}
    (h : (s.takes i q k).turn j = .holds look k') :
    (j = i ∧ look = s.look q ∧ k' = k) ∨ (j ≠ i ∧ s.turn j = .holds look k') := by
  by_cases hj : j = i
  · subst hj
    change Function.update s.turn j _ j = _ at h
    rw [Function.update_self] at h
    obtain ⟨rfl, rfl⟩ := Turn.holds.inj h
    exact Or.inl ⟨rfl, rfl, rfl⟩
  · change Function.update s.turn i _ j = _ at h
    rw [Function.update_of_ne hj] at h
    exact Or.inr ⟨hj, h⟩

end Holds

/-! ### What holds in every run -/

variable {P : Pick Q R T} {later lost : Q → Q → Prop} {s s' : Claims ι K R Q} {q : Q}

/-- When a call loses the row it was handed.  `lost q q'`: the row that a call with parameters `q`
    has changed is free again for one with parameters `q'`. -/
structure Expiry (P : Pick Q R T) (later lost : Q → Q → Prop) : Prop where
  wanted : ∀ q q' r, P.wanted q' (P.change q r) → lost q q'
  later : ∀ q q' q'', lost q q' → later q' q'' → lost q q''

/-- What was lost when someone had looked is still lost when someone looks later. -/
theorem lost_of_asked (hE : Expiry P later lost) {q₀ : Q} (hlater : ∀ q' ∈ s.asked, later q' q)
    (h : ∃ q' ∈ s.asked, lost q₀ q') : lost q₀ q := by
  obtain ⟨q', hq', hlost⟩ := h
  exact hE.later q₀ q' q hlost (hlater q' hq')

theorem asked_mono {asked : List Q} {q₀ : Q} (h : ∃ q' ∈ asked, lost q₀ q') :
    ∃ q' ∈ asked ++ [q], lost q₀ q' := by
  obtain ⟨q', hq', hlost⟩ := h
  exact ⟨q', List.mem_append_left _ hq', hlost⟩

variable [LE T]

/-- What every run keeps. -/
structure Sound (P : Pick Q R T) (lost : Q → Q → Prop) (s : Claims ι K R Q) : Prop where
  /-- A locked row has not changed since its call picked it. -/
  held : ∀ i look k, s.turn i = .holds look k → ∃ r, s.table k = some r ∧ P.Picks look k r
  /-- No two calls have locked one row. -/
  apart : ∀ i j look look' k, s.turn i = .holds look k → s.turn j = .holds look' k → i = j
  asked : ∀ i look k, s.turn i = .holds look k → look.query ∈ s.asked
  answered : ∀ a ∈ s.handouts, P.Returns a.look a.row
  /-- A row that was handed out is as it was returned, or lost. -/
  kept : ∀ a ∈ s.handouts, ∀ k r, a.row = some (k, r) →
    (∃ r₀, s.table k = some (P.change a.look.query r₀)) ∨ ∃ q ∈ s.asked, lost a.look.query q
  /-- A row is locked again only when it was lost. -/
  regained : ∀ a ∈ s.handouts, ∀ k r, a.row = some (k, r) → ∀ i look, s.turn i = .holds look k →
    lost a.look.query look.query
  /-- A row is handed out again only when it was lost. -/
  again : s.handouts.Pairwise fun a b => ∀ k r r', a.row = some (k, r) → b.row = some (k, r') →
    lost a.look.query b.look.query

theorem sound_start (table : K → Option R) : (start table : Claims ι K R Q).Sound P lost where
  held := fun _ _ _ h => nomatch h
  apart := fun _ _ _ _ _ h => nomatch h
  asked := fun _ _ _ h => nomatch h
  answered := fun _ h => nomatch h
  kept := fun _ h => nomatch h
  regained := fun _ h => nomatch h
  again := List.Pairwise.nil

section Steps

variable [DecidableEq ι] {i : ι} {k : K}

/-- A call locks a row: nobody else has, and who had been handed it has lost it. -/
theorem Sound.takes {r : R} (h : s.Sound P lost) (hE : Expiry P later lost)
    (hlater : ∀ q' ∈ s.asked, later q' q) (hpick : P.Picks (s.look q) k r) :
    (s.takes i q k).Sound P lost where
  held := fun j look k' hj => by
    rcases holds_of_takes hj with ⟨-, rfl, rfl⟩ | ⟨-, hj⟩
    · exact ⟨r, hpick.1.1.1, hpick⟩
    · exact h.held j look k' hj
  apart := fun j j' look look' k' hj hj' => by
    rcases holds_of_takes hj with ⟨hji, -, hk⟩ | ⟨-, hold⟩ <;>
      rcases holds_of_takes hj' with ⟨hji', -, hk'⟩ | ⟨-, hold'⟩
    · rw [hji, hji']
    · exact absurd ⟨j', look', hk ▸ hold'⟩ hpick.1.1.2
    · exact absurd ⟨j, look, hk' ▸ hold⟩ hpick.1.1.2
    · exact h.apart j j' look look' k' hold hold'
  asked := fun j look k' hj => by
    rcases holds_of_takes hj with ⟨-, rfl, -⟩ | ⟨-, hj⟩
    · exact List.mem_append_right _ (List.mem_singleton_self q)
    · exact List.mem_append_left _ (h.asked j look k' hj)
  answered := h.answered
  kept := fun a ha k' r' hrow => by
    rcases h.kept a ha k' r' hrow with hkept | hlost
    · exact Or.inl hkept
    · exact Or.inr (asked_mono hlost)
  regained := fun a ha k' r' hrow j look hj => by
    rcases holds_of_takes hj with ⟨-, rfl, rfl⟩ | ⟨-, hj⟩
    · rcases h.kept a ha k' r' hrow with ⟨r₀, hkept⟩ | hlost
      · -- The row is as call `a` has left it, and yet it is wanted.
        have hr : P.change a.look.query r₀ = r :=
          Option.some.inj (hkept.symm.trans hpick.1.1.1)
        exact hE.wanted _ _ r₀ (hr ▸ hpick.1.2)
      · exact lost_of_asked hE hlater hlost
    · exact h.regained a ha k' r' hrow j look hj
  again := h.again

/-- A call returns nothing: it is the last of the handouts, and no row is in it. -/
theorem Sound.misses (h : s.Sound P lost) (hnone : ∀ k r, ¬ P.Candidate (s.look q) k r) :
    (s.misses i q).Sound P lost where
  held := fun j look k hj => h.held j look k (holds_of_done hj).2
  apart := fun j j' look look' k hj hj' =>
    h.apart j j' look look' k (holds_of_done hj).2 (holds_of_done hj').2
  asked := fun j look k hj =>
    List.mem_append_left _ (h.asked j look k (holds_of_done hj).2)
  answered := fun a ha => by
    rcases List.mem_append.mp ha with ha | ha
    · exact h.answered a ha
    · obtain rfl := List.mem_singleton.mp ha
      exact hnone
  kept := fun a ha k r hrow => by
    rcases List.mem_append.mp ha with ha | ha
    · rcases h.kept a ha k r hrow with hkept | hlost
      · exact Or.inl hkept
      · exact Or.inr (asked_mono hlost)
    · obtain rfl := List.mem_singleton.mp ha
      cases hrow
  regained := fun a ha k r hrow j look hj => by
    rcases List.mem_append.mp ha with ha | ha
    · exact h.regained a ha k r hrow j look (holds_of_done hj).2
    · obtain rfl := List.mem_singleton.mp ha
      cases hrow
  again := by
    refine List.pairwise_append.mpr ⟨h.again, List.pairwise_singleton _ _, ?_⟩
    intro a _ b hb k r r' _ hrow'
    obtain rfl := List.mem_singleton.mp hb
    cases hrow'

theorem Sound.fails (h : s.Sound P lost) : (s.fails i).Sound P lost where
  held := fun j look k hj => h.held j look k (holds_of_done hj).2
  apart := fun j j' look look' k hj hj' =>
    h.apart j j' look look' k (holds_of_done hj).2 (holds_of_done hj').2
  asked := fun j look k hj => h.asked j look k (holds_of_done hj).2
  answered := h.answered
  kept := h.kept
  regained := fun a ha k r hrow j look hj => h.regained a ha k r hrow j look (holds_of_done hj).2
  again := h.again

variable [DecidableEq K]

/-- A call changes the row it has locked and returns it: everybody who was handed the row before
    has lost it. -/
theorem Sound.finishes {look : Look K R Q} {r : R} (h : s.Sound P lost)
    (hturn : s.turn i = .holds look k) (hrow : s.table k = some r) :
    (s.finishes i look k (P.change look.query r)).Sound P lost where
  held := fun j look' k' hj => by
    obtain ⟨hji, hj⟩ := holds_of_done hj
    obtain ⟨r', hrow', hpick⟩ := h.held j look' k' hj
    have hk : k' ≠ k := fun hk => hji (h.apart j i look' look k (hk ▸ hj) hturn)
    refine ⟨r', ?_, hpick⟩
    change Function.update s.table k _ k' = _
    rw [Function.update_of_ne hk]
    exact hrow'
  apart := fun j j' l l' k' hj hj' =>
    h.apart j j' l l' k' (holds_of_done hj).2 (holds_of_done hj').2
  asked := fun j l k' hj => h.asked j l k' (holds_of_done hj).2
  answered := fun a ha => by
    rcases List.mem_append.mp ha with ha | ha
    · exact h.answered a ha
    · obtain rfl := List.mem_singleton.mp ha
      obtain ⟨r', hrow', hpick⟩ := h.held i look k hturn
      obtain rfl := Option.some.inj (hrow.symm.trans hrow')
      exact ⟨r, hpick, rfl⟩
  kept := fun a ha k' r' hreturned => by
    change (∃ r₀, Function.update s.table k _ k' = _) ∨ _
    rcases List.mem_append.mp ha with hold | hnew
    · -- An earlier answer with the same row has been lost before the row was locked again.
      by_cases hk : k' = k
      · rw [hk] at hreturned
        exact Or.inr ⟨look.query, h.asked i look k hturn,
          h.regained a hold k r' hreturned i look hturn⟩
      · rw [Function.update_of_ne hk]
        exact h.kept a hold k' r' hreturned
    · obtain rfl := List.mem_singleton.mp hnew
      obtain ⟨rfl, -⟩ := Prod.mk.inj (Option.some.inj hreturned)
      exact Or.inl ⟨r, Function.update_self _ _ _⟩
  regained := fun a ha k' r' hreturned j l hj => by
    obtain ⟨hji, hj⟩ := holds_of_done hj
    rcases List.mem_append.mp ha with ha | ha
    · exact h.regained a ha k' r' hreturned j l hj
    · -- Only call `i` had locked the row it returns.
      obtain rfl := List.mem_singleton.mp ha
      obtain ⟨rfl, -⟩ := Prod.mk.inj (Option.some.inj hreturned)
      exact absurd (h.apart j i l look _ hj hturn) hji
  again := by
    refine List.pairwise_append.mpr ⟨h.again, List.pairwise_singleton _ _, ?_⟩
    intro a ha b hb k' r' r'' hreturned hreturned'
    obtain rfl := List.mem_singleton.mp hb
    obtain ⟨rfl, -⟩ := Prod.mk.inj (Option.some.inj hreturned')
    exact h.regained a ha _ r' hreturned i look hturn

/-- **What one step keeps.** -/
theorem Sound.step (h : s.Sound P lost) (hE : Expiry P later lost) (hs : Step P later s s') :
    s'.Sound P lost := by
  cases hs with
  | take hturn hlater hpick => exact h.takes hE hlater hpick
  | miss hturn hlater hnone => exact h.misses hnone
  | finish hturn hrow => exact h.finishes hturn hrow
  | fail => exact h.fails

/-- **What every run keeps.** -/
theorem sound_of_run {table : K → Option R} (hE : Expiry P later lost)
    (h : Run P later (start table) s) : s.Sound P lost := by
  induction h with
  | refl => exact sound_start table
  | tail _ hs ih => exact ih.step hE hs

end Steps

end Claims

end ReadCommitted
