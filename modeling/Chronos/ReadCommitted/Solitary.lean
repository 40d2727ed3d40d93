import Chronos.ReadCommitted.Trace

namespace ReadCommitted

/-!
# Specifications of a solitary call

`PerformsIn` is a run of one call with nobody else at work, in surroundings that satisfy `P` at
every move, told with the events it meets.  `Prog.Yields` is the weakest precondition of such
runs: by recursion on the program, wherever the call ends, `Q` holds of the events, of the place
it leaves behind and of its result.

* `Yields.performs` — what a program yields is true of its runs.
* `performsIn_total`, `performsIn_guided` — there is a run in all surroundings, also in those that
  look at what has happened so far.
* `Yields.andThen` and its instances for `bind`, `tryCatch` and `tryFinally` take a program apart
  along its source text; `yields_query` and the other rules for single moves walk through it.
-/

variable {S A : Type} {Rows : S → Type} {Ans : A → Type} {Err α β : Type} {D O W K : Type}

/-- **One call in surroundings that satisfy `P`**: `Performs`, with a condition on every move. -/
inductive PerformsIn (E : Engine Rows Ans D O W K Err) (P : Env O Err Ans → Prop) :
    Session Unit W → D → Prog Rows Ans Err α → List (Event S Ans Err) → D → Except Err α → Prop
  | done {σ d p r} : p.result = some r → PerformsIn E P σ d p [] d r
  | step {σ d p tr d' r ev m} (env : Env O Err Ans) : P env → p.event env = some ev →
      p.move E () env σ d = some m →
      PerformsIn E P m.session (E.apply (m.commits.map Prod.snd) d) m.next tr d' r →
      PerformsIn E P σ d p (ev :: tr) d' r

section Performs

variable {E : Engine Rows Ans D O W K Err} {P : Env O Err Ans → Prop}
variable {σ : Session Unit W} {d d' : D} {p : Prog Rows Ans Err α}
variable {tr : List (Event S Ans Err)} {r : Except Err α}

theorem PerformsIn.mono {P' : Env O Err Ans → Prop} (h : PerformsIn E P σ d p tr d' r)
    (hP : ∀ env, P env → P' env) : PerformsIn E P' σ d p tr d' r := by
  induction h with
  | done hr => exact .done hr
  | step env henv hev hm _ ih => exact .step env (hP env henv) hev hm ih

theorem performs_iff_performsIn :
    Performs E σ d p tr d' r ↔ PerformsIn E (fun _ => True) σ d p tr d' r := by
  constructor
  · intro h
    induction h with
    | done hr => exact .done hr
    | step env hev hm _ ih => exact .step env trivial hev hm ih
  · intro h
    induction h with
    | done hr => exact .done hr
    | step env _ hev hm _ ih => exact .step env hev hm ih

/-- The events of a run that has been computed. -/
def eventsAlone (E : Engine Rows Ans D O W K Err) :
    List (Env O Err Ans) → Session Unit W → D → Prog Rows Ans Err α → List (Event S Ans Err)
  | [], _, _, _ => []
  | env :: envs, σ, d, p =>
      match p.event env, p.move E () env σ d with
      | some ev, some m =>
          ev :: eventsAlone E envs m.session (E.apply (m.commits.map Prod.snd) d) m.next
      | _, _ => []

theorem performsIn_eventsAlone {envs : List (Env O Err Ans)} {q : Prog Rows Ans Err α}
    {σ' : Session Unit W} (henvs : ∀ env ∈ envs, P env)
    (hrun : runAlone E envs σ d p = some (σ', d', q)) (hq : q.result = some r) :
    PerformsIn E P σ d p (eventsAlone E envs σ d p) d' r := by
  induction envs generalizing σ d p with
  | nil =>
    simp only [runAlone, Option.some.injEq, Prod.mk.injEq] at hrun
    obtain ⟨-, rfl, rfl⟩ := hrun
    exact .done hq
  | cons env envs ih =>
    cases hm : p.move E () env σ d with
    | none => simp only [runAlone, hm] at hrun; cases hrun
    | some m =>
      simp only [runAlone, hm] at hrun
      obtain ⟨ev, hev⟩ := event_of_move hm
      simp only [eventsAlone, hev, hm]
      exact .step env (henvs env List.mem_cons_self) hev hm
        (ih (fun env' h => henvs env' (List.mem_cons_of_mem _ h)) hrun)

/-- A run that has been computed. -/
theorem performsIn_of_runAlone {envs : List (Env O Err Ans)} {q : Prog Rows Ans Err α}
    {σ' : Session Unit W} (henvs : ∀ env ∈ envs, P env)
    (hrun : runAlone E envs σ d p = some (σ', d', q)) (hq : q.result = some r) :
    ∃ tr, PerformsIn E P σ d p tr d' r :=
  ⟨_, performsIn_eventsAlone henvs hrun hq⟩

theorem PerformsIn.runAlone {p : Prog Rows Ans Err α} (h : PerformsIn E P σ d p tr d' r) :
    ∃ envs σ' q, (∀ env ∈ envs, P env) ∧ runAlone E envs σ d p = some (σ', d', q) ∧
      q.result = some r := by
  induction h with
  | done hr => exact ⟨[], _, _, by simp, rfl, hr⟩
  | step env henv _ hm _ ih =>
    obtain ⟨envs, σ', q, henvs, hrun, hq⟩ := ih
    refine ⟨env :: envs, σ', q, List.forall_mem_cons.mpr ⟨henv, henvs⟩, ?_, hq⟩
    simp only [ReadCommitted.runAlone, hm]
    exact hrun

/-- A call that runs alone in such surroundings meets some events. -/
theorem alone_iff_performsIn {p : Prog Rows Ans Err α} :
    Alone E P d p d' r ↔ ∃ tr, PerformsIn E P .idle d p tr d' r := by
  constructor
  · rintro ⟨envs, σ', q, henvs, hrun, hq⟩
    exact performsIn_of_runAlone henvs hrun hq
  · rintro ⟨tr, h⟩
    obtain ⟨envs, σ', q, henvs, hrun, hq⟩ := h.runAlone
    exact ⟨envs, σ', q, henvs, hrun, hq⟩

/-- The answers are those of surroundings that look at what has happened so far. -/
def Guided {T : Type} (guide : T → Env O Err Ans) (next : T → Event S Ans Err → T) :
    T → List (Event S Ans Err) → Prop
  | _, [] => True
  | t, ev :: tr => (∀ a x, ev = .answered a x → x = (guide t).answer a) ∧
      Guided guide next (next t ev) tr

/-- Surroundings that satisfy `P` see a call through to its end, whatever they go by. -/
theorem performsIn_guided {T : Type} (guide : T → Env O Err Ans)
    (next : T → Event S Ans Err → T) (hP : ∀ t, P (guide t)) (p : Prog Rows Ans Err α) :
    ∀ (t : T) (σ : Session Unit W) (d : D),
      ∃ tr d' r, PerformsIn E P σ d p tr d' r ∧ Guided guide next t tr := by
  -- One move, and the run of what follows it.
  have hstep : ∀ {t : T} {σ : Session Unit W} {d : D} {p : Prog Rows Ans Err α} {ev}
      {m : Move Rows Ans Err α Unit W K}, p.event (guide t) = some ev →
      p.move E () (guide t) σ d = some m →
      (∃ tr d' r, PerformsIn E P m.session (E.apply (m.commits.map Prod.snd) d) m.next tr d' r ∧
        Guided guide next (next t ev) tr) →
      ∃ tr d' r, PerformsIn E P σ d p tr d' r ∧ Guided guide next t tr := by
    rintro t σ d p ev m hev hm ⟨tr, d', r, h, hguided⟩
    refine ⟨ev :: tr, d', r, .step (guide t) (hP t) hev hm h, ?_, hguided⟩
    rintro a x rfl
    cases p with
    | ret a => cases hev
    | throw e => cases hev
    | ask a k => cases hev; rfl
    | stmt s ok err => cases hf : (guide t).fault <;> simp [Prog.event, hf] at hev
    | control c ok err => cases hf : (guide t).fault <;> simp [Prog.event, hf] at hev
  induction p with
  | ret a => exact fun t σ d => ⟨[], d, _, .done rfl, trivial⟩
  | throw e => exact fun t σ d => ⟨[], d, _, .done rfl, trivial⟩
  | ask a k ih => exact fun t σ d => hstep rfl (move_ask E () (guide t) d σ a k) (ih _ _ _ _)
  | stmt s ok err ihok iherr =>
    intro t σ d
    cases hf : (guide t).fault with
    | some e =>
      exact hstep rfl (move_stmt_fault E () (guide t) d hf σ s ok err) (iherr _ _ _ _)
    | none =>
      refine hstep rfl (move_stmt E () (guide t) d hf σ s ok err) ?_
      cases σ with
      | failed i => exact iherr _ _ _ _
      | idle =>
        cases hx : (E.exec s (guide t).fresh d).result with
        | ok res =>
          obtain ⟨rows, ws⟩ := res
          rw [statement_idle_ok E () d hx]
          exact ihok _ _ _ _
        | error e =>
          rw [statement_idle_error E () d hx]
          exact iherr _ _ _ _
      | active i pending =>
        cases hx : (E.exec s (guide t).fresh (E.apply (pending.map Prod.snd) d)).result with
        | ok res =>
          obtain ⟨rows, ws⟩ := res
          rw [statement_active_ok E () d hx]
          exact ihok _ _ _ _
        | error e =>
          rw [statement_active_error E () d hx]
          exact iherr _ _ _ _
  | control c ok err ihok iherr =>
    intro t σ d
    cases hf : (guide t).fault with
    | some e =>
      exact hstep rfl (move_control_fault E () (guide t) d hf σ c ok err) (iherr _ _ _ _)
    | none =>
      refine hstep rfl (move_control E () (guide t) d hf σ c ok err) ?_
      cases c <;> cases σ <;> first | exact ihok _ _ _ | exact iherr _ _ _ _

/-- Surroundings that satisfy `P` see a call through to its end. -/
theorem performsIn_total (hP : ∃ env, P env) (p : Prog Rows Ans Err α) (σ : Session Unit W)
    (d : D) : ∃ tr d' r, PerformsIn E P σ d p tr d' r := by
  obtain ⟨env, henv⟩ := hP
  obtain ⟨tr, d', r, h, -⟩ := performsIn_guided (E := E) (fun _ : Unit => env) (fun t _ => t)
    (fun _ => henv) p () σ d
  exact ⟨tr, d', r, h⟩

end Performs

/-! ### Surroundings that know the database -/

/-- **One call alone**, in surroundings that satisfy `P` of the database they meet. -/
inductive PerformsAt (E : Engine Rows Ans D O W K Err) (P : D → Env O Err Ans → Prop) :
    Session Unit W → D → Prog Rows Ans Err α → D → Except Err α → Prop
  | done {σ d p r} : p.result = some r → PerformsAt E P σ d p d r
  | step {σ d p d' r m} (env : Env O Err Ans) : P d env → p.move E () env σ d = some m →
      PerformsAt E P m.session (E.apply (m.commits.map Prod.snd) d) m.next d' r →
      PerformsAt E P σ d p d' r

section PerformsAt

variable {E : Engine Rows Ans D O W K Err} {P : D → Env O Err Ans → Prop}
variable {σ : Session Unit W} {d d' : D} {r : Except Err α}

theorem performsAt_ret {a : α} :
    PerformsAt E P σ d (.ret a) d' r ↔ d' = d ∧ r = .ok a := by
  constructor
  · intro h
    cases h with
    | done hr => exact ⟨rfl, (Option.some.inj hr).symm⟩
    | step env _ hm => cases hm
  · rintro ⟨rfl, rfl⟩
    exact .done rfl

theorem map_snd_unit (ws : List W) : (ws.map (((), ·) : W → Unit × W)).map Prod.snd = ws := by
  simp [Function.comp_def]

/-- A statement outside a transaction. -/
theorem performsAt_stmt_idle {s : S} {ok : Rows s → Prog Rows Ans Err α}
    {err : Err → Prog Rows Ans Err α} :
    PerformsAt E P .idle d (.stmt s ok err) d' r ↔ ∃ env, P d env ∧
      ((∃ e, env.fault = some e ∧ PerformsAt E P .idle d (err e) d' r) ∨
        (∃ e, env.fault = none ∧ (E.exec s env.fresh d).result = .error e ∧
          PerformsAt E P .idle d (err e) d' r) ∨
        ∃ rows ws, env.fault = none ∧ (E.exec s env.fresh d).result = .ok (rows, ws) ∧
          PerformsAt E P .idle (E.apply ws d) (ok rows) d' r) := by
  constructor
  · intro h
    cases h with
    | done hr => cases hr
    | step env henv hm hrest =>
      refine ⟨env, henv, ?_⟩
      rcases move_stmt_idle_cases hm with ⟨e, hf, rfl⟩ | ⟨e, hf, hx, rfl⟩ | ⟨rows, ws, hf, hx, rfl⟩
      · exact Or.inl ⟨e, hf, hrest⟩
      · exact Or.inr (Or.inl ⟨e, hf, hx, hrest⟩)
      · dsimp only at hrest
        rw [map_snd_unit] at hrest
        exact Or.inr (Or.inr ⟨rows, ws, hf, hx, hrest⟩)
  · rintro ⟨env, henv, ⟨e, hf, hrest⟩ | ⟨e, hf, hx, hrest⟩ | ⟨rows, ws, hf, hx, hrest⟩⟩
    · exact .step env henv (move_stmt_fault E () env d hf .idle s ok err) hrest
    · refine .step env henv (move_stmt E () env d hf .idle s ok err) ?_
      rw [statement_idle_error E () d hx]
      exact hrest
    · refine .step env henv (move_stmt E () env d hf .idle s ok err) ?_
      rw [statement_idle_ok E () d hx]
      dsimp only
      rw [map_snd_unit]
      exact hrest

theorem PerformsAt.performsIn {p : Prog Rows Ans Err α} (h : PerformsAt E P σ d p d' r) :
    ∃ tr, PerformsIn E (fun env => ∃ d, P d env) σ d p tr d' r := by
  induction h with
  | done hr => exact ⟨[], .done hr⟩
  | step env henv hm _ ih =>
    obtain ⟨tr, htr⟩ := ih
    obtain ⟨ev, hev⟩ := event_of_move hm
    exact ⟨ev :: tr, .step env ⟨_, henv⟩ hev hm htr⟩

/-- It is a run of the call alone. -/
theorem PerformsAt.alone {p : Prog Rows Ans Err α} (h : PerformsAt E P .idle d p d' r) :
    Alone E (fun env => ∃ d, P d env) d p d' r :=
  alone_iff_performsIn.mpr h.performsIn

end PerformsAt

/-! ### Places -/

/-- Where a solitary call stands: outside a transaction on a database, inside one that has
    written `ws`, or inside one that an error has aborted. -/
inductive Place (D W : Type)
  | free (d : D)
  | inside (d : D) (ws : List W)
  | failed (d : D)

namespace Place

/-- The committed database. -/
def db : Place D W → D
  | free d => d
  | inside d _ => d
  | failed d => d

def session : Place D W → Session Unit W
  | free _ => .idle
  | inside _ ws => .active () (ws.map ((), ·))
  | failed _ => .failed ()

/-- A statement fails. -/
def abort : Place D W → Place D W
  | free d => free d
  | inside d _ => failed d
  | failed d => failed d

/-- A control statement fails from outside. -/
def afterFault (c : Control) (st : Place D W) : Place D W :=
  match c with
  | .commit => free st.db
  | _ => st

@[simp] theorem db_free (d : D) : (free d : Place D W).db = d := rfl
@[simp] theorem db_inside (d : D) (ws : List W) : (inside d ws).db = d := rfl
@[simp] theorem db_failed (d : D) : (failed d : Place D W).db = d := rfl
@[simp] theorem session_free (d : D) : (free d : Place D W).session = .idle := rfl
@[simp] theorem abort_free (d : D) : (free d : Place D W).abort = free d := rfl
@[simp] theorem abort_inside (d : D) (ws : List W) : (inside d ws).abort = failed d := rfl
@[simp] theorem abort_failed (d : D) : (failed d : Place D W).abort = failed d := rfl
@[simp] theorem afterFault_commit (st : Place D W) : st.afterFault .commit = free st.db := rfl
@[simp] theorem afterFault_beginTx (st : Place D W) : st.afterFault .beginTx = st := rfl
@[simp] theorem afterFault_rollback (st : Place D W) : st.afterFault .rollback = st := rfl

end Place

/-- What a statement does at a place. -/
def Engine.serve (E : Engine Rows Ans D O W K Err) (o : O) (s : S) :
    Place D W → Except Err (Rows s) × Place D W
  | .free d => match (E.exec s o d).result with
      | .ok (r, ws) => (.ok r, .free (E.apply ws d))
      | .error e => (.error e, .free d)
  | .inside d ws => match (E.exec s o (E.apply ws d)).result with
      | .ok (r, ws') => (.ok r, .inside d (ws ++ ws'))
      | .error e => (.error e, .failed d)
  | .failed d => (.error E.aborted, .failed d)

section Serve

variable {E : Engine Rows Ans D O W K Err} {o : O} {s : S} {r : Rows s} {e : Err} {d : D} {ws : List W}
variable {st : Place D W}

/-- A statement that succeeds outside a transaction has committed what it writes. -/
theorem serve_free_ok (h : E.serve o s (.free d) = (.ok r, st)) :
    ∃ ws, (E.exec s o d).result = .ok (r, ws) ∧ st = .free (E.apply ws d) := by
  simp only [Engine.serve] at h
  split at h
  · next r' ws hx =>
    obtain ⟨hr, rfl⟩ := Prod.mk.inj h
    obtain rfl := Except.ok.inj hr
    exact ⟨ws, hx, rfl⟩
  · cases h

theorem serve_free_error (h : E.serve o s (.free d) = (.error e, st)) :
    (E.exec s o d).result = .error e ∧ st = .free d := by
  simp only [Engine.serve] at h
  split at h
  · cases h
  · next e' hx =>
    obtain ⟨he, rfl⟩ := Prod.mk.inj h
    obtain rfl := Except.error.inj he
    exact ⟨hx, rfl⟩

/-- A statement that succeeds in a transaction adds to what the transaction has written. -/
theorem serve_inside_ok (h : E.serve o s (.inside d ws) = (.ok r, st)) :
    ∃ ws', (E.exec s o (E.apply ws d)).result = .ok (r, ws') ∧ st = .inside d (ws ++ ws') := by
  simp only [Engine.serve] at h
  split at h
  · next r' ws' hx =>
    obtain ⟨hr, rfl⟩ := Prod.mk.inj h
    obtain rfl := Except.ok.inj hr
    exact ⟨ws', hx, rfl⟩
  · cases h

theorem serve_inside_error (h : E.serve o s (.inside d ws) = (.error e, st)) :
    (E.exec s o (E.apply ws d)).result = .error e ∧ st = .failed d := by
  simp only [Engine.serve] at h
  split at h
  · cases h
  · next e' hx =>
    obtain ⟨he, rfl⟩ := Prod.mk.inj h
    obtain rfl := Except.error.inj he
    exact ⟨hx, rfl⟩

end Serve

/-- What a control statement does at a place; `BEGIN` fails in an aborted transaction. -/
def Engine.turn (E : Engine Rows Ans D O W K Err) : Control → Place D W → Option (Place D W)
  | .beginTx, .free d => some (.inside d [])
  | .beginTx, .inside d ws => some (.inside d ws)
  | .beginTx, .failed _ => none
  | .commit, .inside d ws => some (.free (E.apply ws d))
  | .commit, st => some (.free st.db)
  | .rollback, st => some (.free st.db)

/-- What a question leaves with another service. -/
def Engine.noteAt (E : Engine Rows Ans D O W K Err) (a : A) (x : Ans a) : Place D W → Place D W
  | .free d => .free (E.apply (E.note a x) d)
  | .inside d ws => .inside (E.apply (E.note a x) d) ws
  | .failed d => .failed (E.apply (E.note a x) d)

/-! ### What a program yields -/

/-- **The weakest precondition of a solitary call** in surroundings that satisfy `P`, after the
    events `tr`, at a place. -/
def Prog.Yields (E : Engine Rows Ans D O W K Err) (P : Env O Err Ans → Prop)
    (Q : List (Event S Ans Err) → Place D W → Except Err α → Prop) :
    Prog Rows Ans Err α → List (Event S Ans Err) → Place D W → Prop
  | .ret a, tr, st => Q tr st (.ok a)
  | .throw e, tr, st => Q tr st (.error e)
  | .ask a k, tr, st => ∀ env, P env →
      Yields E P Q (k (env.answer a)) (tr ++ [.answered a (env.answer a)])
        (E.noteAt a (env.answer a) st)
  | .stmt s ok err, tr, st => ∀ env, P env →
      (∀ e, env.fault = some e → Yields E P Q (err e) (tr ++ [.disturbed e]) st.abort) ∧
      (env.fault = none →
        (∀ r st', E.serve env.fresh s st = (.ok r, st') →
          Yields E P Q (ok r) (tr ++ [.ran s]) st') ∧
        ∀ e st', E.serve env.fresh s st = (.error e, st') →
          Yields E P Q (err e) (tr ++ [.ran s]) st')
  | .control c ok err, tr, st => ∀ env, P env →
      (∀ e, env.fault = some e →
        Yields E P Q (err e) (tr ++ [.disturbed e]) (st.afterFault c)) ∧
      (env.fault = none →
        (∀ st', E.turn c st = some st' → Yields E P Q ok (tr ++ [.controlled c]) st') ∧
        (E.turn c st = none → Yields E P Q (err E.aborted) (tr ++ [.controlled c]) st))

section Yields

variable {E : Engine Rows Ans D O W K Err} {P : Env O Err Ans → Prop}
variable {Q : List (Event S Ans Err) → Place D W → Except Err α → Prop}
variable {tr : List (Event S Ans Err)} {st : Place D W}

@[simp] theorem yields_ret {a : α} :
    (Prog.ret a : Prog Rows Ans Err α).Yields E P Q tr st ↔ Q tr st (.ok a) := Iff.rfl

@[simp] theorem yields_throw {e : Err} :
    (Prog.throw e : Prog Rows Ans Err α).Yields E P Q tr st ↔ Q tr st (.error e) := Iff.rfl

theorem Prog.Yields.mono {Q' : List (Event S Ans Err) → Place D W → Except Err α → Prop}
    {p : Prog Rows Ans Err α} (h : p.Yields E P Q tr st) (hQ : ∀ tr st r, Q tr st r → Q' tr st r) :
    p.Yields E P Q' tr st := by
  induction p generalizing tr st with
  | ret a => exact hQ _ _ _ h
  | throw e => exact hQ _ _ _ h
  | ask a k ih => exact fun env henv => ih _ (h env henv)
  | stmt s ok err ihok iherr =>
    intro env henv
    obtain ⟨hfault, hran⟩ := h env henv
    exact ⟨fun e hf => iherr e (hfault e hf), fun hf =>
      ⟨fun r st' hx => ihok r ((hran hf).1 r st' hx), fun e st' hx => iherr e ((hran hf).2 e st' hx)⟩⟩
  | control c ok err ihok iherr =>
    intro env henv
    obtain ⟨hfault, hran⟩ := h env henv
    exact ⟨fun e hf => iherr e (hfault e hf), fun hf =>
      ⟨fun st' hx => ihok ((hran hf).1 st' hx), fun hx => iherr _ ((hran hf).2 hx)⟩⟩

theorem Prog.Yields.and {Q' : List (Event S Ans Err) → Place D W → Except Err α → Prop}
    {p : Prog Rows Ans Err α} (h : p.Yields E P Q tr st) (h' : p.Yields E P Q' tr st) :
    p.Yields E P (fun tr st r => Q tr st r ∧ Q' tr st r) tr st := by
  induction p generalizing tr st with
  | ret a => exact ⟨h, h'⟩
  | throw e => exact ⟨h, h'⟩
  | ask a k ih => exact fun env henv => ih _ (h env henv) (h' env henv)
  | stmt s ok err ihok iherr =>
    intro env henv
    obtain ⟨hfault, hran⟩ := h env henv
    obtain ⟨hfault', hran'⟩ := h' env henv
    exact ⟨fun e hf => iherr e (hfault e hf) (hfault' e hf), fun hf =>
      ⟨fun r st' hx => ihok r ((hran hf).1 r st' hx) ((hran' hf).1 r st' hx),
        fun e st' hx => iherr e ((hran hf).2 e st' hx) ((hran' hf).2 e st' hx)⟩⟩
  | control c ok err ihok iherr =>
    intro env henv
    obtain ⟨hfault, hran⟩ := h env henv
    obtain ⟨hfault', hran'⟩ := h' env henv
    exact ⟨fun e hf => iherr e (hfault e hf) (hfault' e hf), fun hf =>
      ⟨fun st' hx => ihok ((hran hf).1 st' hx) ((hran' hf).1 st' hx),
        fun hx => iherr _ ((hran hf).2 hx) ((hran' hf).2 hx)⟩⟩

/-- What is yielded in some surroundings is yielded in fewer. -/
theorem Prog.Yields.anti {P' : Env O Err Ans → Prop} {p : Prog Rows Ans Err α}
    (h : p.Yields E P Q tr st) (hP : ∀ env, P' env → P env) : p.Yields E P' Q tr st := by
  induction p generalizing tr st with
  | ret a => exact h
  | throw e => exact h
  | ask a k ih => exact fun env henv => ih _ (h env (hP env henv))
  | stmt s ok err ihok iherr =>
    intro env henv
    obtain ⟨hfault, hran⟩ := h env (hP env henv)
    exact ⟨fun e hf => iherr e (hfault e hf), fun hf =>
      ⟨fun r st' hx => ihok r ((hran hf).1 r st' hx), fun e st' hx => iherr e ((hran hf).2 e st' hx)⟩⟩
  | control c ok err ihok iherr =>
    intro env henv
    obtain ⟨hfault, hran⟩ := h env (hP env henv)
    exact ⟨fun e hf => iherr e (hfault e hf), fun hf =>
      ⟨fun st' hx => ihok ((hran hf).1 st' hx), fun hx => iherr _ ((hran hf).2 hx)⟩⟩

/-- A program only adds to the events. -/
theorem Prog.yields_extends (p : Prog Rows Ans Err α) (tr : List (Event S Ans Err))
    (st : Place D W) : p.Yields E P (fun tr' _ _ => tr <+: tr') tr st := by
  have hmore : ∀ {ev} {p : Prog Rows Ans Err α} {tr : List (Event S Ans Err)} {st : Place D W},
      p.Yields E P (fun tr' _ _ => tr ++ [ev] <+: tr') (tr ++ [ev]) st →
      p.Yields E P (fun tr' _ _ => tr <+: tr') (tr ++ [ev]) st := by
    intro ev p tr st h
    exact h.mono fun _ _ _ hpre => (List.prefix_append tr [ev]).trans hpre
  induction p generalizing tr st with
  | ret a => exact List.prefix_refl tr
  | throw e => exact List.prefix_refl tr
  | ask a k ih => exact fun env _ => hmore (ih _ _ _)
  | stmt s ok err ihok iherr =>
    exact fun env _ => ⟨fun e _ => hmore (iherr e _ _), fun _ =>
      ⟨fun r st' _ => hmore (ihok r _ _), fun e st' _ => hmore (iherr e _ _)⟩⟩
  | control c ok err ihok iherr =>
    exact fun env _ => ⟨fun e _ => hmore (iherr e _ _), fun _ =>
      ⟨fun st' _ => hmore (ihok _ _), fun _ => hmore (iherr _ _ _)⟩⟩

/-- **Sequencing**: what follows is yielded wherever the first part ends. -/
theorem Prog.Yields.andThen {Q' : List (Event S Ans Err) → Place D W → Except Err β → Prop}
    {p : Prog Rows Ans Err α} {f : α → Prog Rows Ans Err β} {h : Err → Prog Rows Ans Err β}
    (hp : p.Yields E P Q tr st) (hok : ∀ tr st a, Q tr st (.ok a) → (f a).Yields E P Q' tr st)
    (herr : ∀ tr st e, Q tr st (.error e) → (h e).Yields E P Q' tr st) :
    (Prog.andThen p f h).Yields E P Q' tr st := by
  induction p generalizing tr st with
  | ret a => exact hok _ _ _ hp
  | throw e => exact herr _ _ _ hp
  | ask a k ih => exact fun env henv => ih _ (hp env henv)
  | stmt s ok err ihok iherr =>
    intro env henv
    obtain ⟨hfault, hran⟩ := hp env henv
    exact ⟨fun e hf => iherr e (hfault e hf), fun hf =>
      ⟨fun r st' hx => ihok r ((hran hf).1 r st' hx), fun e st' hx => iherr e ((hran hf).2 e st' hx)⟩⟩
  | control c ok err ihok iherr =>
    intro env henv
    obtain ⟨hfault, hran⟩ := hp env henv
    exact ⟨fun e hf => iherr e (hfault e hf), fun hf =>
      ⟨fun st' hx => ihok ((hran hf).1 st' hx), fun hx => iherr _ ((hran hf).2 hx)⟩⟩

theorem Prog.Yields.bind {Q' : List (Event S Ans Err) → Place D W → Except Err β → Prop}
    {p : Prog Rows Ans Err α} {f : α → Prog Rows Ans Err β} (hp : p.Yields E P Q tr st)
    (hok : ∀ tr st a, Q tr st (.ok a) → (f a).Yields E P Q' tr st)
    (herr : ∀ tr st e, Q tr st (.error e) → Q' tr st (.error e)) :
    (p.bind f).Yields E P Q' tr st :=
  Prog.Yields.andThen hp hok herr

theorem Prog.Yields.tryCatch {Q' : List (Event S Ans Err) → Place D W → Except Err α → Prop}
    {p : Prog Rows Ans Err α} {h : Err → Prog Rows Ans Err α} (hp : p.Yields E P Q tr st)
    (hok : ∀ tr st a, Q tr st (.ok a) → Q' tr st (.ok a))
    (herr : ∀ tr st e, Q tr st (.error e) → (h e).Yields E P Q' tr st) :
    (p.tryCatch h).Yields E P Q' tr st :=
  Prog.Yields.andThen hp hok herr

/-- How a `try` block that ended with `r` goes on after its `finally` block. -/
def afterFinally (r : Except Err α) : Except Err Unit → Except Err α
  | .ok _ => r
  | .error e => .error e

/-- `finally` runs on both exits. -/
theorem Prog.Yields.tryFinally {Q' : List (Event S Ans Err) → Place D W → Except Err α → Prop}
    {p : Prog Rows Ans Err α} {fin : Prog Rows Ans Err Unit} (hp : p.Yields E P Q tr st)
    (hfin : ∀ tr st r, Q tr st r →
      fin.Yields E P (fun tr st x => Q' tr st (afterFinally r x)) tr st) :
    (p.tryFinally fin).Yields E P Q' tr st :=
  Prog.Yields.andThen hp
    (fun tr st _ h => (hfin tr st _ h).bind (fun _ _ _ h => h) fun _ _ _ h => h)
    fun tr st _ h => (hfin tr st _ h).bind (fun _ _ _ h => h) fun _ _ _ h => h

/-! ### Single moves -/

variable {s : S} {ok : Rows s → Prog Rows Ans Err α} {err : Err → Prog Rows Ans Err α}

/-- A statement outside a transaction. -/
theorem yields_stmt_free {d : D} (h : ∀ env, P env →
      (∀ e, env.fault = some e → (err e).Yields E P Q (tr ++ [.disturbed e]) (.free d)) ∧
      (env.fault = none →
        (∀ r ws, (E.exec s env.fresh d).result = .ok (r, ws) →
          (ok r).Yields E P Q (tr ++ [.ran s]) (.free (E.apply ws d))) ∧
        ∀ e, (E.exec s env.fresh d).result = .error e →
          (err e).Yields E P Q (tr ++ [.ran s]) (.free d))) :
    (Prog.stmt s ok err).Yields E P Q tr (.free d) := by
  intro env henv
  obtain ⟨hfault, hran⟩ := h env henv
  refine ⟨hfault, fun hf => ?_⟩
  obtain ⟨hok, herr⟩ := hran hf
  refine ⟨fun r st' hserve => ?_, fun e st' hserve => ?_⟩
  · obtain ⟨ws, hx, rfl⟩ := serve_free_ok hserve
    exact hok r ws hx
  · obtain ⟨hx, rfl⟩ := serve_free_error hserve
    exact herr e hx

/-- A statement outside a transaction that only reads. -/
theorem yields_read {d : D} {r : Rows s} (hs : ∀ o, (E.exec s o d).result = .ok (r, []))
    (hok : (ok r).Yields E P Q (tr ++ [.ran s]) (.free d))
    (herr : ∀ env e, P env → env.fault = some e →
      (err e).Yields E P Q (tr ++ [.disturbed e]) (.free d)) :
    (Prog.stmt s ok err).Yields E P Q tr (.free d) := by
  refine yields_stmt_free fun env henv => ⟨fun e hf => herr env e henv hf, fun _ =>
    ⟨fun r' ws hx => ?_, fun e hx => ?_⟩⟩
  · rw [hs, Except.ok.injEq, Prod.mk.injEq] at hx
    obtain ⟨rfl, rfl⟩ := hx
    exact hok
  · rw [hs] at hx
    cases hx

/-- A statement inside a transaction. -/
theorem yields_stmt_inside {d : D} {ws : List W} (h : ∀ env, P env →
      (∀ e, env.fault = some e → (err e).Yields E P Q (tr ++ [.disturbed e]) (.failed d)) ∧
      (env.fault = none →
        (∀ r ws', (E.exec s env.fresh (E.apply ws d)).result = .ok (r, ws') →
          (ok r).Yields E P Q (tr ++ [.ran s]) (.inside d (ws ++ ws'))) ∧
        ∀ e, (E.exec s env.fresh (E.apply ws d)).result = .error e →
          (err e).Yields E P Q (tr ++ [.ran s]) (.failed d))) :
    (Prog.stmt s ok err).Yields E P Q tr (.inside d ws) := by
  intro env henv
  obtain ⟨hfault, hran⟩ := h env henv
  refine ⟨hfault, fun hf => ?_⟩
  obtain ⟨hok, herr⟩ := hran hf
  refine ⟨fun r st' hserve => ?_, fun e st' hserve => ?_⟩
  · obtain ⟨ws', hx, rfl⟩ := serve_inside_ok hserve
    exact hok r ws' hx
  · obtain ⟨hx, rfl⟩ := serve_inside_error hserve
    exact herr e hx

end Yields

/-! ### Soundness -/

section Sound

variable {E : Engine Rows Ans D O W K Err} {P : Env O Err Ans → Prop}
variable {Q : List (Event S Ans Err) → Place D W → Except Err α → Prop}
variable {tr : List (Event S Ans Err)} {st st' : Place D W}

/-- A move that is made on the database `d` leaves its client at the place `st`. -/
structure Move.ArrivesAt (E : Engine Rows Ans D O W K Err) (m : Move Rows Ans Err α Unit W K) (d : D)
    (st : Place D W) : Prop where
  session : st.session = m.session
  db : st.db = E.apply (m.commits.map Prod.snd) d

/-- A question leaves its note with another service. -/
theorem arrivesAt_noteAt (a : A) (x : Ans a) (k : Prog Rows Ans Err α) :
    Move.ArrivesAt E (⟨[], st.session, (E.note a x).map ((), ·), k⟩ : Move Rows Ans Err α Unit W K)
      st.db (E.noteAt a x st) := by
  constructor
  · cases st <;> rfl
  · show _ = E.apply (((E.note a x).map ((), ·)).map Prod.snd) st.db
    rw [map_snd_unit]
    cases st <;> rfl

section Statement

variable {s : S} (ok : Rows s → Prog Rows Ans Err α) (err : Err → Prog Rows Ans Err α)

/-- A statement that succeeds. -/
theorem statement_of_serve_ok {o : O} {r : Rows s} (h : E.serve o s st = (.ok r, st')) :
    (E.statement () o st.session st.db s ok err).next = ok r ∧
      (E.statement () o st.session st.db s ok err).ArrivesAt E st.db st' := by
  cases st with
  | free d =>
    obtain ⟨ws, hx, rfl⟩ := serve_free_ok h
    show (E.statement () o .idle d s ok err).next = _ ∧
      (E.statement () o .idle d s ok err).ArrivesAt E d _
    rw [statement_idle_ok E () d hx]
    refine ⟨rfl, rfl, ?_⟩
    show _ = E.apply ((ws.map ((), ·)).map Prod.snd) d
    rw [map_snd_unit]
    rfl
  | inside d ws =>
    obtain ⟨ws', hx, rfl⟩ := serve_inside_ok h
    -- The transaction sees what it has written.
    rw [← map_snd_unit ws] at hx
    show (E.statement () o (.active () _) d s ok err).next = _ ∧
      (E.statement () o (.active () _) d s ok err).ArrivesAt E d _
    rw [statement_active_ok E () d hx]
    refine ⟨rfl, ?_, rfl⟩
    simp [Place.session]
  | failed d => cases h

/-- A statement that fails. -/
theorem statement_of_serve_error {o : O} {e : Err} (h : E.serve o s st = (.error e, st')) :
    (E.statement () o st.session st.db s ok err).next = err e ∧
      (E.statement () o st.session st.db s ok err).ArrivesAt E st.db st' := by
  cases st with
  | free d =>
    obtain ⟨hx, rfl⟩ := serve_free_error h
    show (E.statement () o .idle d s ok err).next = _ ∧
      (E.statement () o .idle d s ok err).ArrivesAt E d _
    rw [statement_idle_error E () d hx]
    exact ⟨rfl, rfl, rfl⟩
  | inside d ws =>
    obtain ⟨hx, rfl⟩ := serve_inside_error h
    rw [← map_snd_unit ws] at hx
    show (E.statement () o (.active () _) d s ok err).next = _ ∧
      (E.statement () o (.active () _) d s ok err).ArrivesAt E d _
    rw [statement_active_error E () d hx]
    exact ⟨rfl, rfl, rfl⟩
  | failed d =>
    obtain ⟨he, rfl⟩ := Prod.mk.inj h
    obtain rfl := Except.error.inj he
    exact ⟨rfl, rfl, rfl⟩

end Statement

section Control

variable {c : Control} (ok : Prog Rows Ans Err α) (err : Err → Prog Rows Ans Err α)

/-- A control statement that succeeds. -/
theorem transact_of_turn (h : E.turn c st = some st') :
    (E.transact () st.session c ok err).next = ok ∧
      (E.transact () st.session c ok err).ArrivesAt E st.db st' := by
  cases c with
  | beginTx =>
    cases st with
    | free d =>
      obtain rfl := Option.some.inj h
      exact ⟨rfl, rfl, rfl⟩
    | inside d ws =>
      obtain rfl := Option.some.inj h
      exact ⟨rfl, rfl, rfl⟩
    | failed d => cases h
  | commit =>
    cases st with
    | free d =>
      obtain rfl := Option.some.inj h
      exact ⟨rfl, rfl, rfl⟩
    | inside d ws =>
      obtain rfl := Option.some.inj h
      refine ⟨rfl, rfl, ?_⟩
      show _ = E.apply ((ws.map ((), ·)).map Prod.snd) d
      rw [map_snd_unit]
      rfl
    | failed d =>
      obtain rfl := Option.some.inj h
      exact ⟨rfl, rfl, rfl⟩
  | rollback =>
    obtain rfl := Option.some.inj h
    cases st <;> exact ⟨rfl, rfl, rfl⟩

/-- `BEGIN` in an aborted transaction. -/
theorem transact_of_turn_none (h : E.turn c st = none) :
    (E.transact () st.session c ok err).next = err E.aborted ∧
      (E.transact () st.session c ok err).ArrivesAt E st.db st := by
  cases c with
  | beginTx =>
    cases st with
    | free d => cases h
    | inside d ws => cases h
    | failed d => exact ⟨rfl, rfl, rfl⟩
  | commit => cases st <;> cases h
  | rollback => cases h

end Control

/-- **One move** of a program takes what it yields to the place it arrives at. -/
theorem Prog.Yields.move {p : Prog Rows Ans Err α} {env : Env O Err Ans} {ev : Event S Ans Err}
    {m : Move Rows Ans Err α Unit W K} (h : p.Yields E P Q tr st) (henv : P env)
    (hev : p.event env = some ev) (hm : p.move E () env st.session st.db = some m) :
    ∃ st', m.next.Yields E P Q (tr ++ [ev]) st' ∧ m.ArrivesAt E st.db st' := by
  cases p with
  | ret a => cases hev
  | throw e => cases hev
  | ask a k =>
    obtain rfl := Option.some.inj hev
    obtain rfl := Option.some.inj hm
    exact ⟨_, h env henv, arrivesAt_noteAt a (env.answer a) _⟩
  | stmt s ok err =>
    obtain ⟨hfault, hran⟩ := h env henv
    obtain rfl := Option.some.inj hev
    cases hf : env.fault with
    | some e =>
      rw [move_stmt_fault E () env st.db hf] at hm
      obtain rfl := Option.some.inj hm
      exact ⟨st.abort, hfault e hf, by cases st <;> rfl, by cases st <;> rfl⟩
    | none =>
      rw [move_stmt E () env st.db hf] at hm
      obtain rfl := Option.some.inj hm
      obtain ⟨hok, herr⟩ := hran hf
      cases hserve : E.serve env.fresh s st with
      | mk answer st' =>
        cases answer with
        | ok r =>
          obtain ⟨hnext, harrives⟩ := statement_of_serve_ok ok err hserve
          refine ⟨st', ?_, harrives⟩
          rw [hnext]
          exact hok r st' hserve
        | error e =>
          obtain ⟨hnext, harrives⟩ := statement_of_serve_error ok err hserve
          refine ⟨st', ?_, harrives⟩
          rw [hnext]
          exact herr e st' hserve
  | control c ok err =>
    obtain ⟨hfault, hran⟩ := h env henv
    obtain rfl := Option.some.inj hev
    cases hf : env.fault with
    | some e =>
      rw [move_control_fault E () env st.db hf] at hm
      obtain rfl := Option.some.inj hm
      exact ⟨st.afterFault c, hfault e hf, by cases c <;> rfl, by cases c <;> cases st <;> rfl⟩
    | none =>
      rw [move_control E () env st.db hf] at hm
      obtain rfl := Option.some.inj hm
      obtain ⟨hok, herr⟩ := hran hf
      cases hturn : E.turn c st with
      | some st' =>
        obtain ⟨hnext, harrives⟩ := transact_of_turn ok err hturn
        refine ⟨st', ?_, harrives⟩
        rw [hnext]
        exact hok st' hturn
      | none =>
        obtain ⟨hnext, harrives⟩ := transact_of_turn_none ok err hturn
        refine ⟨st, ?_, harrives⟩
        rw [hnext]
        exact herr hturn

/-- **What a program yields is true of its runs.** -/
theorem Prog.Yields.performs {p : Prog Rows Ans Err α} {st : Place D W}
    {tr tr' : List (Event S Ans Err)} {d' : D} {r : Except Err α} (h : p.Yields E P Q tr st)
    (hrun : PerformsIn E P st.session st.db p tr' d' r) :
    ∃ st', st'.db = d' ∧ Q (tr ++ tr') st' r := by
  generalize hσ : st.session = σ at hrun
  generalize hd : st.db = d at hrun
  induction hrun generalizing st tr with
  | @done σ d p r hr =>
    refine ⟨st, hd, ?_⟩
    rw [List.append_nil]
    rcases Prog.result_eq_some hr with ⟨a, rfl, rfl⟩ | ⟨e, rfl, rfl⟩
    · exact h
    · exact h
  | @step σ d p tr' d' r ev m env henv hev hm _ ih =>
    subst hσ hd
    obtain ⟨st', hnext, harrives⟩ := h.move henv hev hm
    obtain ⟨st'', hdb, hQ⟩ := ih hnext harrives.session harrives.db
    rw [List.append_assoc] at hQ
    exact ⟨st'', hdb, hQ⟩

end Sound

end ReadCommitted
