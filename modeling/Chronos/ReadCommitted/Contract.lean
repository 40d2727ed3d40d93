import Chronos.ReadCommitted.Atomicity

namespace ReadCommitted

/-!
# Contracts between a client and its surroundings

A `Contract` is what one client promises and what it may rely on while others are at work,
told with a ghost value that only the proof sees:

* it relies on its surroundings (`env`), on what its ghost `know`s of the committed state,
  and on statements being sent inside transactions only where `adm` allows it;
* it guarantees that everything it commits is a `move` of its ghost, and that the statements
  it sends inside a transaction satisfy `send`.

`Prog.Keeps` says, by recursion on the program, that a program keeps its contract and ends
in `Q`.  The rules `Keeps.bind`, `Keeps.tryCatch`, `Keeps.tryFinally` take a program apart
along its source text.

Two theorems put a contract to use.  `Modular.step`: clients that keep their contracts
preserve an invariant of the committed state and all ghosts, under every exclusive
interleaving.  `keeps_alone`: a client that runs alone satisfies its contract as a
specification of the whole call.
-/

variable {S A : Type} {Rows : S → Type} {Ans : A → Type} {Err α β : Type}
variable {D O W K C ι γ : Type} {V : K → Type}

/-- Where a program stands: outside a transaction, inside one that runs on `d` and has
    written `ws`, or inside one it will not commit any more. -/
inductive Stage (D W : Type)
  | free
  | inside (d : D) (ws : List W)
  | doomed

/-- The stage of a serial place. -/
def Phase.stage : Phase → Stage D W
  | .free => .free
  | .doomed => .doomed

/-- What a client relies on (`adm`, `env`, `know`) and guarantees (`move`, `send`). -/
structure Contract (Ans : A → Type) (S D W O Err γ : Type) where
  adm : S → D → Prop
  env : γ → D → Env O Err Ans → Prop
  know : γ → D → Prop
  move : γ → D → List W → γ → Prop
  send : γ → D → List W → S → Prop

/-- A move that leads to a ghost with `φ`. -/
def Contract.Next (c : Contract Ans S D W O Err γ) (g : γ) (d : D) (ws : List W)
    (φ : γ → Prop) : Prop :=
  ∃ g', c.move g d ws g' ∧ φ g'

theorem Contract.Next.mono {c : Contract Ans S D W O Err γ} {g : γ} {d : D} {ws : List W}
    {φ ψ : γ → Prop} (h : c.Next g d ws φ) (hφ : ∀ g', φ g' → ψ g') : c.Next g d ws ψ := by
  obtain ⟨g', hmove, hg'⟩ := h
  exact ⟨g', hmove, hφ g' hg'⟩

/-- **The program keeps the contract**, from ghost `g` at a stage, and where it ends `Q`
    holds of the stage, the ghost and the result. -/
def Prog.Keeps (E : Engine Rows Ans D O W K Err) (c : Contract Ans S D W O Err γ)
    (Q : Stage D W → γ → Except Err α → Prop) : Prog Rows Ans Err α → Stage D W → γ → Prop
  | .ret a, st, g => Q st g (.ok a)
  | .throw e, st, g => Q st g (.error e)
  | .ask a k, .free, g => ∀ d env, c.env g d env → c.know g d →
      c.Next g d (E.note a (env.answer a)) fun g' => Keeps E c Q (k (env.answer a)) .free g'
  | .ask a k, .inside d ws, g =>
      (∀ x, E.note a x = []) ∧ ∀ x, Keeps E c Q (k x) (.inside d ws) g
  | .ask a k, .doomed, g => (∀ x, E.note a x = []) ∧ ∀ d env, c.env g d env → c.know g d →
      c.Next g d [] fun g' => Keeps E c Q (k (env.answer a)) .doomed g'
  | .stmt s ok err, .free, g => ∀ d env, c.env g d env → c.know g d →
      (∀ e, env.fault = some e → c.Next g d [] fun g' => Keeps E c Q (err e) .free g') ∧
      (env.fault = none →
        (∀ r ws, (E.exec s env.fresh d).result = .ok (r, ws) →
          c.Next g d ws fun g' => Keeps E c Q (ok r) .free g') ∧
        ∀ e, (E.exec s env.fresh d).result = .error e →
          c.Next g d [] fun g' => Keeps E c Q (err e) .free g')
  | .stmt s ok err, .inside d ws, g => c.send g d ws s ∧ (c.adm s (E.apply ws d) →
      (∀ o r ws', (E.exec s o (E.apply ws d)).result = .ok (r, ws') →
        Keeps E c Q (ok r) (.inside d (ws ++ ws')) g)) ∧
      ∀ env e, c.env g d env → (env.fault = some e ∨
          env.fault = none ∧ (E.exec s env.fresh (E.apply ws d)).result = .error e) →
        c.Next g d [] fun g' => Keeps E c Q (err e) .doomed g'
  | .control .beginTx ok err, .free, g =>
      (∀ d, c.know g d → Keeps E c Q ok (.inside d []) g) ∧
      ∀ d env e, c.env g d env → c.know g d → env.fault = some e →
        c.Next g d [] fun g' => Keeps E c Q (err e) .free g'
  | .control _ ok err, .free, g => ∀ d env, c.env g d env → c.know g d →
      (env.fault = none → c.Next g d [] fun g' => Keeps E c Q ok .free g') ∧
      ∀ e, env.fault = some e → c.Next g d [] fun g' => Keeps E c Q (err e) .free g'
  | .control .commit ok err, .inside d ws, g =>
      (c.Next g d ws fun g' => Keeps E c Q ok .free g') ∧
      ∀ env e, c.env g d env → env.fault = some e →
        c.Next g d [] fun g' => Keeps E c Q (err e) .free g'
  | .control .rollback ok err, .inside d _, g =>
      -- The transaction is given up now, or by the statement before.
      (∀ env, c.env g d env →
        (env.fault = none → c.Next g d [] fun g' => Keeps E c Q ok .free g') ∧
        ∀ e, env.fault = some e → c.Next g d [] fun g' => Keeps E c Q (err e) .doomed g') ∧
      c.Next g d [] fun g₁ => ∀ d' env, c.env g₁ d' env → c.know g₁ d' →
        (env.fault = none → c.Next g₁ d' [] fun g' => Keeps E c Q ok .free g') ∧
        ∀ e, env.fault = some e → c.Next g₁ d' [] fun g' => Keeps E c Q (err e) .doomed g'
  | .control .rollback ok err, .doomed, g => ∀ d env, c.env g d env → c.know g d →
      (env.fault = none → c.Next g d [] fun g' => Keeps E c Q ok .free g') ∧
      ∀ e, env.fault = some e → c.Next g d [] fun g' => Keeps E c Q (err e) .doomed g'
  | _, _, _ => False

/-- How a whole call ends: a transaction that is still open is given up. -/
def Contract.post (c : Contract Ans S D W O Err γ) (R : γ → Except Err α → Prop) :
    Stage D W → γ → Except Err α → Prop
  | .inside d _, g, r => c.Next g d [] fun g' => R g' r
  | .free, g, r => R g r
  | .doomed, g, r => R g r

theorem Contract.post_mono {c : Contract Ans S D W O Err γ} {R : γ → Except Err α → Prop}
    {R' : γ → Except Err β → Prop} {r : Except Err α} {r' : Except Err β}
    (hR : ∀ g, R g r → R' g r') {st : Stage D W} {g : γ} (h : c.post R st g r) :
    c.post R' st g r' := by
  cases st with
  | free => exact hR g h
  | inside d ws => exact Contract.Next.mono h hR
  | doomed => exact hR g h

variable {E : Engine Rows Ans D O W K Err}

/-! ### Rules for the source language's control flow -/

section Rules

variable {c : Contract Ans S D W O Err γ} {Q Q' : Stage D W → γ → Except Err α → Prop}
variable {st : Stage D W} {g : γ}

@[simp] theorem keeps_ret {a : α} :
    (Prog.ret a : Prog Rows Ans Err α).Keeps E c Q st g ↔ Q st g (.ok a) := by
  cases st <;> exact Iff.rfl

@[simp] theorem keeps_throw {e : Err} :
    (Prog.throw e : Prog Rows Ans Err α).Keeps E c Q st g ↔ Q st g (.error e) := by
  cases st <;> exact Iff.rfl

/-- What follows a program starts where the program ends. -/
theorem Prog.Keeps.andThen {p : Prog Rows Ans Err α} {f : α → Prog Rows Ans Err β}
    {h : Err → Prog Rows Ans Err β} {Q' : Stage D W → γ → Except Err β → Prop}
    (hp : p.Keeps E c Q st g)
    (hf : ∀ st g a, Q st g (.ok a) → (f a).Keeps E c Q' st g)
    (hh : ∀ st g e, Q st g (.error e) → (h e).Keeps E c Q' st g) :
    (p.andThen f h).Keeps E c Q' st g := by
  induction p generalizing st g with
  | ret a => exact hf _ _ _ (keeps_ret.mp hp)
  | throw e => exact hh _ _ _ (keeps_throw.mp hp)
  | ask a k ih =>
    cases st with
    | free => exact fun d env he hk => (hp d env he hk).mono fun _ => ih _
    | inside d ws => exact ⟨hp.1, fun x => ih x (hp.2 x)⟩
    | doomed => exact ⟨hp.1, fun d env he hk => (hp.2 d env he hk).mono fun _ => ih _⟩
  | stmt s ok err ihok iherr =>
    cases st with
    | free =>
      intro d env he hk
      obtain ⟨hfault, hrun⟩ := hp d env he hk
      exact ⟨fun e hf => (hfault e hf).mono fun _ => iherr e,
        fun hf => ⟨fun r ws hx => ((hrun hf).1 r ws hx).mono fun _ => ihok r,
          fun e hx => ((hrun hf).2 e hx).mono fun _ => iherr e⟩⟩
    | inside d ws =>
      obtain ⟨hsend, hok, herr⟩ := hp
      exact ⟨hsend, fun ha o r ws' hx => ihok r (hok ha o r ws' hx),
        fun env e he hx => (herr env e he hx).mono fun _ => iherr e⟩
    | doomed => exact hp
  | control ctl ok err ihok iherr =>
    -- One clause of `Keeps` per control statement and stage.
    cases st with
    | free =>
      cases ctl with
      | beginTx =>
        exact ⟨fun d hk => ihok (hp.1 d hk),
          fun d env e he hk hf => (hp.2 d env e he hk hf).mono fun _ => iherr e⟩
      | commit =>
        exact fun d env he hk => ⟨fun hf => ((hp d env he hk).1 hf).mono fun _ => ihok,
          fun e hf => ((hp d env he hk).2 e hf).mono fun _ => iherr e⟩
      | rollback =>
        exact fun d env he hk => ⟨fun hf => ((hp d env he hk).1 hf).mono fun _ => ihok,
          fun e hf => ((hp d env he hk).2 e hf).mono fun _ => iherr e⟩
    | inside d ws =>
      cases ctl with
      | beginTx => exact hp
      | commit =>
        exact ⟨hp.1.mono fun _ => ihok,
          fun env e he hf => (hp.2 env e he hf).mono fun _ => iherr e⟩
      | rollback =>
        refine ⟨fun env he => ⟨fun hf => ((hp.1 env he).1 hf).mono fun _ => ihok,
          fun e hf => ((hp.1 env he).2 e hf).mono fun _ => iherr e⟩, ?_⟩
        exact Contract.Next.mono hp.2 fun g₁ h₁ d' env he hk =>
          ⟨fun hf => ((h₁ d' env he hk).1 hf).mono fun _ => ihok,
            fun e hf => ((h₁ d' env he hk).2 e hf).mono fun _ => iherr e⟩
    | doomed =>
      cases ctl with
      | beginTx => exact hp
      | commit => exact hp
      | rollback =>
        exact fun d env he hk => ⟨fun hf => ((hp d env he hk).1 hf).mono fun _ => ihok,
          fun e hf => ((hp d env he hk).2 e hf).mono fun _ => iherr e⟩

theorem Prog.Keeps.mono {p : Prog Rows Ans Err α} (hp : p.Keeps E c Q st g)
    (hQ : ∀ st g r, Q st g r → Q' st g r) : p.Keeps E c Q' st g := by
  rw [← Prog.andThen_ret_throw p]
  exact hp.andThen (fun st g a ha => keeps_ret.mpr (hQ st g _ ha))
    (fun st g e he => keeps_throw.mpr (hQ st g _ he))

theorem Prog.Keeps.bind {p : Prog Rows Ans Err α} {f : α → Prog Rows Ans Err β}
    {Q' : Stage D W → γ → Except Err β → Prop} (hp : p.Keeps E c Q st g)
    (hf : ∀ st g a, Q st g (.ok a) → (f a).Keeps E c Q' st g)
    (he : ∀ st g e, Q st g (.error e) → Q' st g (.error e)) : (p.bind f).Keeps E c Q' st g :=
  hp.andThen hf fun st g e h => keeps_throw.mpr (he st g e h)

theorem Prog.Keeps.tryCatch {p : Prog Rows Ans Err α} {h : Err → Prog Rows Ans Err α}
    (Q : Stage D W → γ → Except Err α → Prop) (hp : p.Keeps E c Q st g) (hret : ∀ st g a, Q st g (.ok a) → Q' st g (.ok a))
    (hh : ∀ st g e, Q st g (.error e) → (h e).Keeps E c Q' st g) :
    (p.tryCatch h).Keeps E c Q' st g :=
  hp.andThen (fun st g a ha => keeps_ret.mpr (hret st g a ha)) hh

end Rules

/-! ### Serial moves keep contracts -/

section Serial

variable {c : Contract Ans S D W O Err γ} {R : γ → Except Err α → Prop}
variable {d : D} {g : γ} {k p : Prog Rows Ans Err α} {ws : List W}

/-- A contract is inherited by everything a transaction turns into. -/
theorem TxRun.keeps {Q : Stage D W → γ → Except Err α → Prop} (h : TxRun E c.adm d k ws p)
    (hk : k.Keeps E c Q (.inside d []) g) : p.Keeps E c Q (.inside d ws) g := by
  induction h with
  | start => exact hk
  | stmt _ hx hadm ih => exact ih.2.1 hadm _ _ _ hx
  | ask x _ ih => exact ih.2 x

/-- A transaction that is being closed is given up. -/
theorem Prog.Keeps.closing (h : p.Keeps E c (c.post R) (.inside d ws) g) (hp : p.Closing) :
    c.Next g d [] fun g' => p.Keeps E c (c.post R) .doomed g' := by
  cases p with
  | ret a => exact hp.elim
  | throw e => exact hp.elim
  | stmt s ok err => exact hp.elim
  | ask a f => exact hp.elim
  | control ctl ok err =>
    cases ctl with
    | beginTx => exact hp.elim
    | commit => exact hp.elim
    | rollback => exact h.2

/-- A move outside transactions keeps the contract. -/
theorem Prog.Keeps.move {me : ι} {env : Env O Err Ans} {m : Move Rows Ans Err α ι W K}
    (h : p.Keeps E c (c.post R) .free g) (hne : ∀ ok err, p ≠ .control .beginTx ok err)
    (hm : p.move E me env .idle d = some m) (henv : c.env g d env) (hknow : c.know g d) :
    m.session = .idle ∧
      c.Next g d (m.commits.map Prod.snd) fun g' => m.next.Keeps E c (c.post R) .free g' := by
  cases p with
  | ret a => cases hm
  | throw e => cases hm
  | ask a f =>
    obtain rfl := by simpa using hm.symm
    have hws : ((E.note a (env.answer a)).map (me, ·)).map Prod.snd = E.note a (env.answer a) := by
      simp [Function.comp_def]
    exact ⟨rfl, by rw [hws]; exact h d env henv hknow⟩
  | stmt s ok err =>
    obtain ⟨hfault, hrun⟩ := h d env henv hknow
    rcases move_stmt_idle_cases hm with ⟨e, hf, rfl⟩ | ⟨e, hf, hx, rfl⟩ | ⟨r, ws, hf, hx, rfl⟩
    · exact ⟨rfl, hfault e hf⟩
    · exact ⟨rfl, (hrun hf).2 e hx⟩
    · have hws : (ws.map (me, ·)).map Prod.snd = ws := by simp [Function.comp_def]
      exact ⟨rfl, by rw [hws]; exact (hrun hf).1 r ws hx⟩
  | control ctl ok err =>
    cases ctl with
    | beginTx => exact absurd rfl (hne ok err)
    | commit =>
      obtain ⟨hok, herr⟩ := h d env henv hknow
      rcases move_control_cases hm with ⟨e, hf, rfl⟩ | ⟨hf, rfl⟩
      · exact ⟨rfl, herr e hf⟩
      · exact ⟨rfl, hok hf⟩
    | rollback =>
      obtain ⟨hok, herr⟩ := h d env henv hknow
      rcases move_control_cases hm with ⟨e, hf, rfl⟩ | ⟨hf, rfl⟩
      · exact ⟨rfl, herr e hf⟩
      · exact ⟨rfl, hok hf⟩

/-- **A serial move keeps the contract.** -/
theorem Prog.Keeps.serial {me : ι} {env : Env O Err Ans} {φ φ' : Phase}
    {p' : Prog Rows Ans Err α} (h : p.Keeps E c (c.post R) φ.stage g) (henv : c.env g d env)
    (hknow : c.know g d) (hs : Serial (K := K) E c.adm me env d φ p ws φ' p') :
    c.Next g d ws fun g' => p'.Keeps E c (c.post R) φ'.stage g' := by
  cases hs with
  | move hne hm => exact (h.move hne hm henv hknow).2
  | beginFault he => exact h.2 d env _ henv hknow he
  | commit _ hr => exact (hr.keeps (h.1 d hknow)).1
  | commitFault he hr => exact (hr.keeps (h.1 d hknow)).2 env _ henv he
  | fail hr he => exact (hr.keeps (h.1 d hknow)).2.2 env _ henv he
  | abandon he hr => exact ((hr.keeps (h.1 d hknow)).1 env henv).1 he
  | abandonFault he hr => exact ((hr.keeps (h.1 d hknow)).1 env henv).2 _ he
  | wait => exact h.2 d env henv hknow
  | giveUp hr hc => exact (hr.keeps (h.1 d hknow)).closing hc
  | rollback he => exact (h d env henv hknow).1 he
  | rollbackFault he => exact (h d env henv hknow).2 _ he

/-- A client that has ended satisfies its postcondition. -/
theorem Prog.Keeps.result {φ : Phase} {r : Except Err α}
    (h : p.Keeps E c (c.post R) φ.stage g) (hr : p.result = some r) : R g r := by
  rcases Prog.result_eq_some hr with ⟨a, rfl, rfl⟩ | ⟨e, rfl, rfl⟩
  · cases φ with
    | free => exact keeps_ret.mp h
    | doomed => exact keeps_ret.mp h
  · cases φ with
    | free => exact keeps_throw.mp h
    | doomed => exact keeps_throw.mp h

end Serial

/-! ### Many clients -/

section Modular

variable {value : (k : K) → D → V k} {c : ι → Contract Ans S D W O Err γ}
variable {R : ι → γ → Except Err α → Prop} {J : D → List (ι × W) → (ι → γ) → Prop}
variable {w w' : World Rows Ans Err α D W K C ι} {l : Label Ans O Err C ι}
variable {ts : ι → Phase × Prog Rows Ans Err α} {G : ι → γ}

/-- `J` gives every client what it relies on, and is preserved by what clients guarantee. -/
structure Preserved [DecidableEq ι] (E : Engine Rows Ans D O W K Err) (c : ι → Contract Ans S D W O Err γ)
    (J : D → List (ι × W) → (ι → γ) → Prop) : Prop where
  know : ∀ d j G i, J d j G → (c i).know (G i) d
  move : ∀ d j G i ws g', J d j G → (c i).move (G i) d ws g' →
    J (E.apply ws d) (j ++ ws.map (i, ·)) (Function.update G i g')

/-- Every client keeps its contract from where it stands serially, and `J` holds of the
    committed state, the journal and the ghosts. -/
structure Modular (E : Engine Rows Ans D O W K Err) (value : (k : K) → D → V k)
    (c : ι → Contract Ans S D W O Err γ) (R : ι → γ → Except Err α → Prop)
    (J : D → List (ι × W) → (ι → γ) → Prop) (w : World Rows Ans Err α D W K C ι)
    (ts : ι → Phase × Prog Rows Ans Err α) (G : ι → γ) : Prop where
  atomically : Atomically E value (fun i => (c i).adm) w ts
  keeps : ∀ i, (ts i).2.Keeps E (c i) ((c i).post (R i)) (ts i).1.stage (G i)
  inv : J w.db w.journal G

/-- A step in which the client finds what its contract relies on. -/
structure Relied (E : Engine Rows Ans D O W K Err) (c : ι → Contract Ans S D W O Err γ)
    (J : D → List (ι × W) → (ι → γ) → Prop) (w : World Rows Ans Err α D W K C ι)
    (l : Label Ans O Err C ι) : Prop where
  exclusive : Exclusive w l
  admits : Admits E (fun i => (c i).adm) w l
  env : ∀ G, J w.db w.journal G → (c l.thread).env (G l.thread) w.db l.env

theorem modular_init {d : D} {prog : ι → Prog Rows Ans Err α}
    (hok : ∀ i, (prog i).Ok E value (c i).adm .free)
    (hk : ∀ i, (prog i).Keeps E (c i) ((c i).post (R i)) .free (G i)) (hJ : J d [] G) :
    Modular E value c R J (World.init d prog : World Rows Ans Err α D W K C ι)
      (fun i => (.free, prog i)) G :=
  ⟨atomically_init hok, hk, hJ⟩

/-- A finished client satisfies its postcondition. -/
theorem Modular.result (h : Modular E value c R J w ts G) {i : ι} {r : Except Err α}
    (hr : (w.prog i).result = some r) : R i (G i) r := by
  have hp := (h.atomically.follows i).result hr
  exact (h.keeps i).result (hp ▸ hr)

/-- What a client sends inside its transaction is what its contract promises to send. -/
theorem Modular.send [DecidableEq ι] (h : Modular E value c R J w ts G)
    (hJ : Preserved E c J) {i : ι}
    {conn : C} {pending : List (ι × W)} {s : S} {ok : Rows s → Prog Rows Ans Err α}
    {err : Err → Prog Rows Ans Err α} (hprog : w.prog i = .stmt s ok err)
    (hsess : w.session conn = .active i pending) :
    (c i).send (G i) w.db (pending.map Prod.snd) s := by
  have hfol := h.atomically.follows i
  have hkeeps := h.keeps i
  generalize (ts i).1 = φ, (ts i).2 = p at hfol hkeeps
  cases hfol with
  | free hno _ => exact absurd (by rw [hsess]; rfl) (hno conn)
  | inside conn' pending' held k err' hc' _ huniq _ hrep _ =>
    obtain rfl : conn = conn' := huniq conn (by rw [hsess]; rfl)
    rw [hsess] at hc'
    obtain rfl : pending = pending' := by simpa using hc'
    have hrun := hrep.txRun.keeps (hkeeps.1 w.db (hJ.know _ _ _ i h.inv))
    rw [hprog] at hrun
    exact hrun.1
  | doomed _ _ _ hok => rw [hprog] at hok; exact hok.elim

/-- A client's next statement is sent inside its transaction, as its contract promises, or
    outside, and then what it writes is a move. -/
theorem Modular.statement [DecidableEq ι] (h : Modular E value c R J w ts G)
    (hJ : Preserved E c J) {i : ι} {s : S} {ok : Rows s → Prog Rows Ans Err α}
    {err : Err → Prog Rows Ans Err α} (hprog : w.prog i = .stmt s ok err) :
    (∃ pending : List (ι × W), (c i).send (G i) w.db (pending.map Prod.snd) s) ∨
      ∀ env r ws, (c i).env (G i) w.db env → env.fault = none →
        (E.exec s env.fresh w.db).result = .ok (r, ws) → ∃ g', (c i).move (G i) w.db ws g' := by
  have hfol := h.atomically.follows i
  have hkeeps := h.keeps i
  generalize (ts i).1 = φ, (ts i).2 = p at hfol hkeeps
  cases hfol with
  | free hno _ =>
    refine Or.inr fun env r ws henv hf hx => ?_
    rw [hprog] at hkeeps
    obtain ⟨g', hmove, -⟩ :=
      ((hkeeps w.db env henv (hJ.know _ _ _ _ h.inv)).2 hf).1 r ws hx
    exact ⟨g', hmove⟩
  | inside conn pending held k err' hc _ _ _ _ _ =>
    exact Or.inl ⟨pending, h.send hJ hprog hc⟩
  | doomed _ _ _ hok => rw [hprog] at hok; exact hok.elim

variable [DecidableEq ι] [DecidableEq C] [DecidableEq K]

/-- **Step rule.**  A step of a client that finds what it relies on preserves `J`; what it
    commits is a move of its ghost. -/
theorem Modular.step (hL : Lawful E value) (hJ : Preserved E c J)
    (h : Modular E value c R J w ts G) (hrel : Relied E c J w l) (hs : w.step E l = some w') :
    ∃ ts' g' ws, Modular E value c R J w' ts' (Function.update G l.thread g') ∧
      w'.db = E.apply ws w.db ∧ w'.journal = w.journal ++ ws.map (l.thread, ·) ∧
      ((ws = [] ∧ g' = G l.thread) ∨ (c l.thread).move (G l.thread) w.db ws g') := by
  obtain ⟨ws, φ, p, hts', hdb, hj, -, hcase⟩ :=
    serial_step hL h.atomically hrel.exclusive hrel.admits hs
  rcases hcase with ⟨rfl, hstay⟩ | hser
  · refine ⟨_, G l.thread, [], ⟨hts', fun i => ?_, ?_⟩, hdb, hj, Or.inl ⟨rfl, rfl⟩⟩
    · rw [hstay, Function.update_eq_self, Function.update_eq_self]
      exact h.keeps i
    · rw [hdb, hj, Function.update_eq_self]
      simpa using h.inv
  · have hknow := hJ.know _ _ _ l.thread h.inv
    obtain ⟨g', hmove, hk⟩ := (h.keeps l.thread).serial (hrel.env G h.inv) hknow hser
    refine ⟨_, g', ws, ⟨hts', fun i => ?_, ?_⟩, hdb, hj, Or.inr hmove⟩
    · by_cases hi : i = l.thread
      · subst hi
        simpa only [Function.update_self] using hk
      · simpa only [Function.update_of_ne hi] using h.keeps i
    · rw [hdb, hj]
      exact hJ.move _ _ _ _ _ _ h.inv hmove

/-- **Run rule.**  In every run whose steps satisfy what the clients rely on, `J` holds of
    every world, and finished clients satisfy their postconditions; so does whatever else `I`
    the steps preserve, given that. -/
theorem Modular.reaches_with {w₀ : World Rows Ans Err α D W K C ι}
    {P : World Rows Ans Err α D W K C ι → Label Ans O Err C ι → Prop}
    {I : World Rows Ans Err α D W K C ι → (ι → γ) → Prop}
    (hL : Lawful E value) (hJ : Preserved E c J) (hP : ∀ w l, P w l → Relied E c J w l)
    (hI : ∀ w l w' ts G g', Modular E value c R J w ts G → I w G → P w l →
      w.step E l = some w' → I w' (Function.update G l.thread g'))
    (h₀ : Modular E value c R J w₀ ts G) (hI₀ : I w₀ G) (h : Reaches E P w₀ w) :
    ∃ ts' G', Modular E value c R J w ts' G' ∧ I w G' := by
  induction h with
  | start => exact ⟨ts, G, h₀, hI₀⟩
  | step _ hPl hs ih =>
    obtain ⟨ts', G', hmod, hi⟩ := ih
    obtain ⟨ts'', g', ws, hmod', -⟩ := hmod.step hL hJ (hP _ _ hPl) hs
    exact ⟨ts'', _, hmod', hI _ _ _ _ _ g' hmod hi hPl hs⟩

theorem Modular.reaches {w₀ : World Rows Ans Err α D W K C ι}
    {P : World Rows Ans Err α D W K C ι → Label Ans O Err C ι → Prop}
    (hL : Lawful E value) (hJ : Preserved E c J) (hP : ∀ w l, P w l → Relied E c J w l)
    (h₀ : Modular E value c R J w₀ ts G) (h : Reaches E P w₀ w) :
    ∃ ts' G', Modular E value c R J w ts' G' := by
  obtain ⟨ts', G', hmod, -⟩ := Modular.reaches_with (I := fun _ _ => True) hL hJ hP
    (fun _ _ _ _ _ _ _ _ _ _ => trivial) h₀ trivial h
  exact ⟨ts', G', hmod⟩

end Modular

/-! ### One client that runs alone -/

/-- The contract of a client that runs alone: its ghost is the committed state. -/
def Contract.solo (E : Engine Rows Ans D O W K Err) (P : Env O Err Ans → Prop) :
    Contract Ans S D W O Err D where
  adm := fun _ _ => True
  env := fun _ _ env => P env
  know := fun g d => d = g
  move := fun g _ ws g' => g' = E.apply ws g
  send := fun _ _ _ _ => True

section Alone

variable {P : Env O Err Ans → Prop} {R : D → Except Err α → Prop}

/-- Where a client that runs alone stands. -/
inductive Solo (E : Engine Rows Ans D O W K Err) (P : Env O Err Ans → Prop)
    (R : D → Except Err α → Prop) : Session Unit W → D → Prog Rows Ans Err α → Prop
  | free {d p} : p.Keeps E (.solo E P) (Contract.post (.solo E P) R) .free d →
      Solo E P R .idle d p
  | inside {d p} {pending : List (Unit × W)} :
      p.Keeps E (.solo E P) (Contract.post (.solo E P) R) (.inside d (pending.map Prod.snd)) d →
      Solo E P R (.active () pending) d p
  | doomed {σ d p} : p.Keeps E (.solo E P) (Contract.post (.solo E P) R) .doomed d →
      Solo E P R σ d p

theorem Solo.move {σ : Session Unit W} {d : D} {p : Prog Rows Ans Err α}
    {env : Env O Err Ans} {m : Move Rows Ans Err α Unit W K} (h : Solo E P R σ d p) (hP : P env)
    (hm : p.move E () env σ d = some m) :
    Solo E P R m.session (E.apply (m.commits.map Prod.snd) d) m.next := by
  cases h with
  | free hk =>
    by_cases hb : ∃ ok err, p = .control .beginTx ok err
    · obtain ⟨ok, err, rfl⟩ := hb
      rcases move_control_cases hm with ⟨e, hf, rfl⟩ | ⟨-, rfl⟩
      · obtain ⟨g', rfl, hk'⟩ := hk.2 d env e hP rfl hf
        exact .free hk'
      · exact .inside (hk.1 d rfl)
    · have hne : ∀ ok err, p ≠ .control .beginTx ok err := fun ok err h => hb ⟨ok, err, h⟩
      obtain ⟨hsess, g', rfl, hk'⟩ := hk.move hne hm hP rfl
      rw [hsess]
      exact .free hk'
  | @inside _ _ pending hk =>
    cases p with
    | ret a => cases hm
    | throw e => cases hm
    | ask a f =>
      obtain rfl := by simpa [hk.1] using hm.symm
      exact .inside (hk.2 _)
    | stmt s ok err =>
      obtain ⟨-, hok, herr⟩ := hk
      rcases move_stmt_active_cases hm with ⟨e, hf, rfl⟩ | ⟨e, hf, hx, rfl⟩ | ⟨r, ws, -, hx, rfl⟩
      · obtain ⟨g', rfl, hk'⟩ := herr env e hP (Or.inl hf)
        exact .doomed hk'
      · obtain ⟨g', rfl, hk'⟩ := herr env e hP (Or.inr ⟨hf, hx⟩)
        exact .doomed hk'
      · refine .inside ?_
        have hmap : (pending ++ ws.map ((), ·)).map Prod.snd = pending.map Prod.snd ++ ws := by
          simp [Function.comp_def]
        rw [hmap]
        exact hok trivial _ _ _ hx
    | control c ok err =>
      cases c with
      | beginTx => exact hk.elim
      | commit =>
        -- A `COMMIT` that fails has rolled back.
        rcases move_control_cases hm with ⟨e, hf, rfl⟩ | ⟨-, rfl⟩
        · obtain ⟨g', rfl, hk'⟩ := hk.2 env e hP hf
          exact .free hk'
        · obtain ⟨g', rfl, hk'⟩ := hk.1
          exact .free hk'
      | rollback =>
        obtain ⟨hok, herr⟩ := hk.1 env hP
        -- A `ROLLBACK` that fails has done nothing.
        rcases move_control_cases hm with ⟨e, hf, rfl⟩ | ⟨hf, rfl⟩
        · obtain ⟨g', rfl, hk'⟩ := herr e hf
          exact .doomed hk'
        · obtain ⟨g', rfl, hk'⟩ := hok hf
          exact .free hk'
  | doomed hk =>
    cases p with
    | ret a => cases hm
    | throw e => cases hm
    | ask a f =>
      obtain rfl := by simpa [hk.1] using hm.symm
      obtain ⟨g', rfl, hk'⟩ := hk.2 d env hP rfl
      exact .doomed hk'
    | stmt s ok err => exact hk.elim
    | control c ok err =>
      cases c with
      | beginTx => exact hk.elim
      | commit => exact hk.elim
      | rollback =>
        obtain ⟨hok, herr⟩ := hk d env hP rfl
        -- A `ROLLBACK` that fails has done nothing.
        rcases move_control_cases hm with ⟨e, hf, rfl⟩ | ⟨hf, rfl⟩
        · obtain ⟨g', rfl, hk'⟩ := herr e hf
          exact .doomed hk'
        · obtain ⟨g', rfl, hk'⟩ := hok hf
          exact .free hk'

/-- **Solitary runs.**  A client that keeps its solitary contract ends, run alone, with its
    postcondition. -/
theorem keeps_alone {d d' : D} {p : Prog Rows Ans Err α} {r : Except Err α}
    (hk : p.Keeps E (.solo E P) (Contract.post (.solo E P) R) .free d)
    (h : Alone E P d p d' r) : R d' r := by
  obtain ⟨envs, σ, q, hP, hrun, hq⟩ := h
  have hsolo : Solo E P R σ d' q := by
    have h₀ : Solo E P R .idle d p := .free hk
    generalize Session.idle = σ₀ at h₀ hrun
    clear hk
    induction envs generalizing σ₀ d p with
    | nil =>
      simp only [runAlone, Option.some.injEq, Prod.mk.injEq] at hrun
      obtain ⟨rfl, rfl, rfl⟩ := hrun
      exact h₀
    | cons env envs ih =>
      cases hm : p.move E () env σ₀ d with
      | none => simp only [runAlone, hm] at hrun; cases hrun
      | some m =>
        simp only [runAlone, hm] at hrun
        exact ih (fun e he => hP e (by simp [he])) _ (h₀.move (hP env (by simp)) hm) hrun
  rcases Prog.result_eq_some hq with ⟨a, rfl, rfl⟩ | ⟨e, rfl, rfl⟩
  · cases hsolo with
    | free hR => exact keeps_ret.mp hR
    | inside hR =>
      obtain ⟨g', rfl, hR'⟩ := keeps_ret.mp hR
      exact hR'
    | doomed hR => exact keeps_ret.mp hR
  · cases hsolo with
    | free hR => exact keeps_throw.mp hR
    | inside hR =>
      obtain ⟨g', rfl, hR'⟩ := keeps_throw.mp hR
      exact hR'
    | doomed hR => exact keeps_throw.mp hR

end Alone

end ReadCommitted
