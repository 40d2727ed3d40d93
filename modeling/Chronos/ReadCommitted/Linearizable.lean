import Chronos.ReadCommitted.Contract

namespace ReadCommitted

/-!
# Linearizable clients

Clients whose moves an observer of the committed state sees at most once each.  `view` is what
the observer sees of a state, `spec i x` what the observer may see when client `i` is served with
result `x`, and `served g` the result of a client that has been served.

* `InSequence` — clients served one after the other.
* `SilentOrServed` — the condition on a move: it changes nothing that is seen, or serves the client.
* `Ledger` — the invariant: what is seen is what clients served one after the other leave behind,
  and each is served at most once.
* `Modular.linearize` — the clients of a run, in an order that only grows at its end.
-/

variable {S Q : Type} {Rows : S → Type} {Ans : Q → Type} {Err α : Type}
variable {D O W K C ι γ A X : Type} {V : K → Type}

/-- The clients of the list, served one after the other with the results of the list. -/
inductive InSequence (spec : ι → X → A → A → Prop) (a₀ : A) : List (ι × X) → A → Prop
  | nil : InSequence spec a₀ [] a₀
  | snoc {l a i x a'} : InSequence spec a₀ l a → spec i x a a' → InSequence spec a₀ (l ++ [(i, x)]) a'

/-- A move from `(d, g)` to `(d', g')` serves client `i`, or nothing of it is seen. -/
def SilentOrServed (view : D → A) (served : γ → Option X) (spec : ι → X → A → A → Prop) (i : ι)
    (d : D) (g : γ) (d' : D) (g' : γ) : Prop :=
  (view d' = view d ∧ served g' = served g) ∨
    ∃ x, served g = none ∧ served g' = some x ∧ spec i x (view d) (view d')

/-- The clients of `first`, and others after them, have been served, each once. -/
structure Ledger (view : D → A) (served : γ → Option X) (spec : ι → X → A → A → Prop) (a₀ : A)
    (first : List (ι × X)) (J : D → List (ι × W) → (ι → γ) → Prop) (d : D) (j : List (ι × W))
    (G : ι → γ) : Prop where
  inv : J d j G
  order : ∃ later, ((first ++ later).map Prod.fst).Nodup ∧
    (∀ i x, (i, x) ∈ first ++ later ↔ served (G i) = some x) ∧
    InSequence spec a₀ (first ++ later) (view d)

section Ledger

variable {E : Engine Rows Ans D O W K Err} {c : ι → Contract Ans S D W O Err γ}
variable {J : D → List (ι × W) → (ι → γ) → Prop} {view : D → A} {served : γ → Option X}
variable {spec : ι → X → A → A → Prop} {a₀ : A} {first : List (ι × X)} [DecidableEq ι]

/-- **Step lemma.** -/
theorem preserved_ledger (hJ : Preserved E c J)
    (hmoves : ∀ d j G i ws g', J d j G → (c i).move (G i) d ws g' →
      SilentOrServed view served spec i d (G i) (E.apply ws d) g') :
    Preserved E c (Ledger view served spec a₀ first J) where
  know d j G i h := hJ.know d j G i h.inv
  move := by
    intro d j G i ws g' h hm
    refine ⟨hJ.move d j G i ws g' h.inv hm, ?_⟩
    obtain ⟨later, hnodup, hmem, hserved⟩ := h.order
    rcases hmoves d j G i ws g' h.inv hm with ⟨hview, hg'⟩ | ⟨x, hg, hg', hspec⟩
    · refine ⟨later, hnodup, fun k x => (hmem k x).trans ?_, by rw [hview]; exact hserved⟩
      by_cases hk : k = i
      · subst hk
        rw [Function.update_self, hg']
      · rw [Function.update_of_ne hk]
    · -- The client was not in the list, and comes last.
      have hnew : ∀ y, (i, y) ∉ first ++ later := by
        intro y hy
        have hy' := (hmem i y).mp hy
        rw [hg] at hy'
        cases hy'
      refine ⟨later ++ [(i, x)], ?_, fun k y => ?_, ?_⟩
      · rw [← List.append_assoc, List.map_append]
        refine List.Nodup.append hnodup (List.nodup_singleton _) ?_
        intro k hk hki
        obtain rfl : k = i := by simpa using hki
        obtain ⟨⟨k', y⟩, hy, rfl⟩ := List.mem_map.mp hk
        exact hnew y hy
      · rw [← List.append_assoc, List.mem_append, List.mem_singleton, Prod.mk.injEq]
        by_cases hk : k = i
        · subst hk
          rw [Function.update_self, hg', Option.some.injEq]
          constructor
          · rintro (hy | ⟨-, rfl⟩)
            · exact absurd hy (hnew y)
            · rfl
          · rintro rfl
            exact Or.inr ⟨rfl, rfl⟩
        · rw [Function.update_of_ne hk, ← hmem k y]
          exact or_iff_left fun h => hk h.1
      · rw [← List.append_assoc]
        exact hserved.snoc hspec

variable {value : (k : K) → D → V k} {R : ι → γ → Except Err α → Prop} [DecidableEq C] [DecidableEq K]
variable {w₀ w₁ w₂ : World Rows Ans Err α D W K C ι} {ts : ι → Phase × Prog Rows Ans Err α} {G : ι → γ}
variable {P : World Rows Ans Err α D W K C ι → Label Ans O Err C ι → Prop}

/-- What the ledger says of a world: the invariant of the clients, the order in which they have been
    served, and the postconditions of those that have ended. -/
structure Linearized (view : D → A) (served : γ → Option X) (spec : ι → X → A → A → Prop)
    (J : D → List (ι × W) → (ι → γ) → Prop) (R : ι → γ → Except Err α → Prop) (a₀ : A)
    (w : World Rows Ans Err α D W K C ι) (l : List (ι × X)) (G : ι → γ) : Prop where
  inv : J w.db w.journal G
  once : (l.map Prod.fst).Nodup
  mem : ∀ i x, (i, x) ∈ l ↔ served (G i) = some x
  runs : InSequence spec a₀ l (view w.db)
  ended : ∀ i r, (w.prog i).result = some r → R i (G i) r

/-- **Run rule.**  What is seen of every world of a run is what its clients leave behind when they
    are served one after the other, each at most once, and the order of a world is the
    beginning of the order of every later one. -/
theorem Modular.linearize (hL : Lawful E value) (hJ : Preserved E c J)
    (hP : ∀ w l, P w l → Exclusive w l ∧ Admits E (fun i => (c i).adm) w l ∧
      ∀ G, J w.db w.journal G → (c l.thread).env (G l.thread) w.db l.env)
    (hmoves : ∀ d j G i ws g', J d j G → (c i).move (G i) d ws g' →
      SilentOrServed view served spec i d (G i) (E.apply ws d) g')
    (h₀ : Modular E value c R J w₀ ts G) (hG : ∀ i, served (G i) = none)
    (h₁ : Reaches E P w₀ w₁) (h₂ : Reaches E P w₁ w₂) :
    ∃ l later G₁ G₂, Linearized view served spec J R (view w₀.db) w₁ l G₁ ∧
      Linearized view served spec J R (view w₀.db) w₂ (l ++ later) G₂ := by
  have hrelied : ∀ first w l, P w l →
      Relied E c (Ledger view served spec (view w₀.db) first J) w l :=
    fun first w l h => ⟨(hP w l h).1, (hP w l h).2.1, fun G hG => (hP w l h).2.2 G hG.inv⟩
  have hstart : Modular E value c R (Ledger view served spec (view w₀.db) [] J) w₀ ts G :=
    ⟨h₀.atomically, h₀.keeps, h₀.inv, [], List.nodup_nil, fun i x => by simp [hG i], .nil⟩
  obtain ⟨ts₁, G₁, hmod₁⟩ :=
    Modular.reaches hL (preserved_ledger hJ hmoves) (hrelied []) hstart h₁
  obtain ⟨l, hnodup, hmem, hserved⟩ := hmod₁.inv.order
  rw [List.nil_append] at hnodup hmem hserved
  have hagain : Modular E value c R (Ledger view served spec (view w₀.db) l J) w₁ ts₁ G₁ :=
    ⟨hmod₁.atomically, hmod₁.keeps, hmod₁.inv.inv, [], by rwa [List.append_nil],
      by rwa [List.append_nil], by rwa [List.append_nil]⟩
  obtain ⟨ts₂, G₂, hmod₂⟩ :=
    Modular.reaches hL (preserved_ledger hJ hmoves) (hrelied l) hagain h₂
  obtain ⟨later, hnodup₂, hmem₂, hserved₂⟩ := hmod₂.inv.order
  exact ⟨l, later, G₁, G₂, ⟨hmod₁.inv.inv, hnodup, hmem, hserved, fun _ _ => hmod₁.result⟩,
    hmod₂.inv.inv, hnodup₂, hmem₂, hserved₂, fun _ _ => hmod₂.result⟩

end Ledger

end ReadCommitted
