import Chronos.ReadCommitted.Engine

namespace ReadCommitted

/-!
# Programs that cannot tell two databases apart

`Prog.Unseen E d₁ d₂ p` says that `p` writes nothing and goes on in the same way whichever of
the two databases answers it.  Run alone, in any surroundings, it then leaves the database as it
was and comes to the same result (`Unseen.runAlone`).
-/

variable {S A : Type} {Rows : S → Type} {Ans : A → Type} {Err α β : Type}
variable {D O W K : Type}

namespace Prog

/-- The answers of the two databases may differ, what the program does with them may not. -/
def Unseen (E : Engine Rows Ans D O W K Err) (d₁ d₂ : D) : Prog Rows Ans Err α → Prop
  | .ret _ => True
  | .throw _ => True
  | .stmt s ok err =>
      (∀ o, ∃ r₁ r₂, (E.exec s o d₁).result = .ok (r₁, []) ∧ (E.exec s o d₂).result = .ok (r₂, []) ∧
        ok r₁ = ok r₂ ∧ Unseen E d₁ d₂ (ok r₁)) ∧ ∀ e, Unseen E d₁ d₂ (err e)
  | .control _ ok err => Unseen E d₁ d₂ ok ∧ ∀ e, Unseen E d₁ d₂ (err e)
  | .ask a k => (∀ x, E.note a x = []) ∧ ∀ x, Unseen E d₁ d₂ (k x)

section Rules

variable {E : Engine Rows Ans D O W K Err} {d₁ d₂ : D}

/-! ### Rules for the source language's control flow -/

theorem Unseen.andThen {p : Prog Rows Ans Err α} {f : α → Prog Rows Ans Err β}
    {h : Err → Prog Rows Ans Err β} (hp : p.Unseen E d₁ d₂) (hf : ∀ a, (f a).Unseen E d₁ d₂)
    (hh : ∀ e, (h e).Unseen E d₁ d₂) : (p.andThen f h).Unseen E d₁ d₂ := by
  induction p with
  | ret a => exact hf a
  | throw e => exact hh e
  | stmt s ok err ihok iherr =>
    refine ⟨fun o => ?_, fun e => iherr e (hp.2 e)⟩
    obtain ⟨r₁, r₂, h₁, h₂, hsame, hrest⟩ := hp.1 o
    refine ⟨r₁, r₂, h₁, h₂, ?_, ihok r₁ hrest⟩
    show (ok r₁).andThen f h = (ok r₂).andThen f h
    rw [hsame]
  | control c ok err ihok iherr => exact ⟨ihok hp.1, fun e => iherr e (hp.2 e)⟩
  | ask a k ih => exact ⟨hp.1, fun x => ih x (hp.2 x)⟩

theorem Unseen.bind {p : Prog Rows Ans Err α} {f : α → Prog Rows Ans Err β}
    (hp : p.Unseen E d₁ d₂) (hf : ∀ a, (f a).Unseen E d₁ d₂) : (p.bind f).Unseen E d₁ d₂ :=
  hp.andThen hf fun _ => trivial

theorem Unseen.tryCatch {p : Prog Rows Ans Err α} {h : Err → Prog Rows Ans Err α}
    (hp : p.Unseen E d₁ d₂) (hh : ∀ e, (h e).Unseen E d₁ d₂) : (p.tryCatch h).Unseen E d₁ d₂ :=
  hp.andThen (fun _ => trivial) hh

theorem Unseen.tryFinally {p : Prog Rows Ans Err α} {fin : Prog Rows Ans Err Unit}
    (hp : p.Unseen E d₁ d₂) (hfin : fin.Unseen E d₁ d₂) : (p.tryFinally fin).Unseen E d₁ d₂ :=
  hp.andThen (fun _ => hfin.bind fun _ => trivial) fun _ => hfin.bind fun _ => trivial

end Rules

end Prog

/-! ### Runs -/

section Runs

variable {E : Engine Rows Ans D O W K Err} {d₁ d₂ : D}

/-- Nothing is pending. -/
def Session.Clean {ι : Type} : Session ι W → Prop
  | .idle => True
  | .active _ pending => pending = []
  | .failed _ => True

theorem statement_clean_ok {i : Unit} {d : D} {o : O} {s : S} {r : Rows s}
    (h : (E.exec s o d).result = .ok (r, [])) {ok : Rows s → Prog Rows Ans Err α}
    {err : Err → Prog Rows Ans Err α} : E.statement () o (.active i []) d s ok err =
      ⟨(E.exec s o d).locks, .active i [], [], ok r⟩ := by
  have hempty : E.apply (([] : List (Unit × W)).map Prod.snd) d = d := rfl
  rw [statement_active_ok E () d (hempty ▸ h) ok err, hempty]
  rfl

/-- **Step lemma.**  The next move is the same over both databases, and commits nothing. -/
theorem Prog.Unseen.move {p : Prog Rows Ans Err α} (hp : p.Unseen E d₁ d₂) {σ : Session Unit W}
    (hσ : σ.Clean) (env : Env O Err Ans) :
    (p.move E () env σ d₁ = none ∧ p.move E () env σ d₂ = none) ∨
      ∃ locks₁ locks₂ σ' q, p.move E () env σ d₁ = some ⟨locks₁, σ', [], q⟩ ∧
        p.move E () env σ d₂ = some ⟨locks₂, σ', [], q⟩ ∧ σ'.Clean ∧ q.Unseen E d₁ d₂ := by
  cases p with
  | ret a => exact .inl ⟨rfl, rfl⟩
  | throw e => exact .inl ⟨rfl, rfl⟩
  | ask a k =>
    refine .inr ⟨[], [], σ, k (env.answer a), ?_, ?_, hσ, hp.2 _⟩
    · rw [move_ask, hp.1]
      rfl
    · rw [move_ask, hp.1]
      rfl
  | control c ok err =>
    cases hf : env.fault with
    | some e =>
      refine .inr ⟨[], [], σ.afterFault c, err e, move_control_fault E () env d₁ hf σ c ok err,
        move_control_fault E () env d₂ hf σ c ok err, ?_, hp.2 e⟩
      cases c with
      | commit => trivial
      | beginTx => exact hσ
      | rollback => exact hσ
    | none =>
      have h₁ := move_control E () env d₁ hf σ c ok err
      have h₂ := move_control E () env d₂ hf σ c ok err
      cases c with
      | beginTx =>
        cases σ with
        | idle => exact .inr ⟨_, _, _, _, h₁, h₂, rfl, hp.1⟩
        | active i pending => exact .inr ⟨_, _, _, _, h₁, h₂, hσ, hp.1⟩
        | failed i => exact .inr ⟨_, _, _, _, h₁, h₂, trivial, hp.2 _⟩
      | commit =>
        cases σ with
        | idle => exact .inr ⟨_, _, _, _, h₁, h₂, trivial, hp.1⟩
        | active i pending =>
          obtain rfl : pending = [] := hσ
          exact .inr ⟨_, _, _, _, h₁, h₂, trivial, hp.1⟩
        | failed i => exact .inr ⟨_, _, _, _, h₁, h₂, trivial, hp.1⟩
      | rollback => exact .inr ⟨_, _, _, _, h₁, h₂, trivial, hp.1⟩
  | stmt s ok err =>
    cases hf : env.fault with
    | some e =>
      refine .inr ⟨[], [], σ.abort, err e, move_stmt_fault E () env d₁ hf σ s ok err,
        move_stmt_fault E () env d₂ hf σ s ok err, ?_, hp.2 e⟩
      cases σ <;> trivial
    | none =>
      have h₁ := move_stmt E () env d₁ hf σ s ok err
      have h₂ := move_stmt E () env d₂ hf σ s ok err
      -- The answers may differ, but not in what the program makes of them.
      obtain ⟨r₁, r₂, hr₁, hr₂, hsame, hrest⟩ := hp.1 env.fresh
      cases σ with
      | idle =>
        rw [statement_idle_ok E () d₁ hr₁] at h₁
        rw [statement_idle_ok E () d₂ hr₂, ← hsame] at h₂
        exact .inr ⟨_, _, _, _, h₁, h₂, trivial, hrest⟩
      | active i pending =>
        obtain rfl : pending = [] := hσ
        rw [statement_clean_ok hr₁] at h₁
        rw [statement_clean_ok hr₂, ← hsame] at h₂
        exact .inr ⟨_, _, _, _, h₁, h₂, rfl, hrest⟩
      | failed i => exact .inr ⟨_, _, _, _, h₁, h₂, trivial, hp.2 _⟩

/-- **Run lemma.**  The two runs agree, and leave their databases as they were. -/
theorem Prog.Unseen.runAlone {p : Prog Rows Ans Err α} (hp : p.Unseen E d₁ d₂)
    {σ : Session Unit W} (hσ : σ.Clean) (envs : List (Env O Err Ans)) :
    (ReadCommitted.runAlone E envs σ d₁ p = none ∧ ReadCommitted.runAlone E envs σ d₂ p = none) ∨
      ∃ σ' q, ReadCommitted.runAlone E envs σ d₁ p = some (σ', d₁, q) ∧
        ReadCommitted.runAlone E envs σ d₂ p = some (σ', d₂, q) := by
  induction envs generalizing σ p with
  | nil => exact .inr ⟨σ, p, rfl, rfl⟩
  | cons env envs ih =>
    unfold ReadCommitted.runAlone
    rcases hp.move hσ env with ⟨h₁, h₂⟩ | ⟨locks₁, locks₂, σ', q, h₁, h₂, hclean, hq⟩
    · rw [h₁, h₂]
      exact .inl ⟨rfl, rfl⟩
    · rw [h₁, h₂]
      exact ih hq hclean

end Runs

end ReadCommitted
