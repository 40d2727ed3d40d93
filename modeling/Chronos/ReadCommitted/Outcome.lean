import Chronos.ReadCommitted.Solitary

namespace ReadCommitted

/-!
# The outcome of a solitary call

In surroundings that never change a solitary call has one outcome, which `Prog.outcome` computes
along the program: its result, and the place it leaves behind.  Two programs are compared by
computing the outcomes of both.

* `alone_iff_outcome` — the solitary runs of a program in fixed surroundings are those with its
  outcome.
* `outcome_bind`, `outcome_tryCatch`, `outcome_tryFinally` — the outcome of a program from those
  of its parts; `outcome_stmt` and `outcome_control` for single moves.
-/

variable {S A : Type} {Rows : S → Type} {Ans : A → Type} {Err α β : Type} {D O W K : Type}

/-- **The outcome** of a program in surroundings that stay `env`, from a place. -/
def Prog.outcome (E : Engine Rows Ans D O W K Err) (env : Env O Err Ans) :
    Prog Rows Ans Err α → Place D W → Except Err α × Place D W
  | .ret a, st => (.ok a, st)
  | .throw e, st => (.error e, st)
  | .ask a k, st => outcome E env (k (env.answer a)) (E.noteAt a (env.answer a) st)
  | .stmt s ok err, st =>
      match env.fault with
      | some e => outcome E env (err e) st.abort
      | none =>
          match E.serve env.fresh s st with
          | (.ok r, st') => outcome E env (ok r) st'
          | (.error e, st') => outcome E env (err e) st'
  | .control c ok err, st =>
      match env.fault with
      | some e => outcome E env (err e) (st.afterFault c)
      | none =>
          match E.turn c st with
          | some st' => outcome E env ok st'
          | none => outcome E env (err E.aborted) st

section Outcome

variable {E : Engine Rows Ans D O W K Err} {env : Env O Err Ans} {st st' : Place D W}

@[simp] theorem outcome_ret (a : α) :
    (Prog.ret a : Prog Rows Ans Err α).outcome E env st = (.ok a, st) := rfl

@[simp] theorem outcome_throw (e : Err) :
    (Prog.throw e : Prog Rows Ans Err α).outcome E env st = (.error e, st) := rfl

@[simp] theorem outcome_ask (a : A) (k : Ans a → Prog Rows Ans Err α) :
    (Prog.ask a k).outcome E env st =
      (k (env.answer a)).outcome E env (E.noteAt a (env.answer a) st) := rfl

/-- A statement that is answered. -/
theorem outcome_stmt (hf : env.fault = none) {s : S} {ok : Rows s → Prog Rows Ans Err α}
    {err : Err → Prog Rows Ans Err α} {r : Rows s} (h : E.serve env.fresh s st = (.ok r, st')) :
    (Prog.stmt s ok err).outcome E env st = (ok r).outcome E env st' := by
  simp only [Prog.outcome, hf, h]

/-- A statement that is refused. -/
theorem outcome_stmt_error (hf : env.fault = none) {s : S} {ok : Rows s → Prog Rows Ans Err α}
    {err : Err → Prog Rows Ans Err α} {e : Err} (h : E.serve env.fresh s st = (.error e, st')) :
    (Prog.stmt s ok err).outcome E env st = (err e).outcome E env st' := by
  simp only [Prog.outcome, hf, h]

theorem outcome_control (hf : env.fault = none) {c : Control} {ok : Prog Rows Ans Err α}
    {err : Err → Prog Rows Ans Err α} (h : E.turn c st = some st') :
    (Prog.control c ok err).outcome E env st = ok.outcome E env st' := by
  simp only [Prog.outcome, hf, h]

/-- A statement inside a transaction. -/
theorem outcome_inside (hf : env.fault = none) {s : S} {ok : Rows s → Prog Rows Ans Err α}
    {err : Err → Prog Rows Ans Err α} {d : D} {ws ws' : List W} {r : Rows s}
    (h : (E.exec s env.fresh (E.apply ws d)).result = .ok (r, ws')) :
    (Prog.stmt s ok err).outcome E env (.inside d ws) =
      (ok r).outcome E env (.inside d (ws ++ ws')) := by
  refine outcome_stmt hf ?_
  simp only [Engine.serve, h]

/-- A statement inside a transaction that a constraint stops. -/
theorem outcome_inside_error (hf : env.fault = none) {s : S} {ok : Rows s → Prog Rows Ans Err α}
    {err : Err → Prog Rows Ans Err α} {d : D} {ws : List W} {e : Err}
    (h : (E.exec s env.fresh (E.apply ws d)).result = .error e) :
    (Prog.stmt s ok err).outcome E env (.inside d ws) = (err e).outcome E env (.failed d) := by
  refine outcome_stmt_error hf ?_
  simp only [Engine.serve, h]

/-- A statement outside a transaction that only reads. -/
theorem outcome_read (hf : env.fault = none) {s : S} {ok : Rows s → Prog Rows Ans Err α}
    {err : Err → Prog Rows Ans Err α} {d : D} {r : Rows s}
    (h : (E.exec s env.fresh d).result = .ok (r, [])) :
    (Prog.stmt s ok err).outcome E env (.free d) = (ok r).outcome E env (.free d) := by
  refine outcome_stmt hf ?_
  simp only [Engine.serve, h, Engine.apply_nil]

/-- The outcome of what follows a part. -/
theorem outcome_andThen (p : Prog Rows Ans Err α) (f : α → Prog Rows Ans Err β)
    (h : Err → Prog Rows Ans Err β) (st : Place D W) :
    (p.andThen f h).outcome E env st =
      match p.outcome E env st with
      | (.ok a, st') => (f a).outcome E env st'
      | (.error e, st') => (h e).outcome E env st' := by
  induction p generalizing st with
  | ret a => rfl
  | throw e => rfl
  | ask a k ih => exact ih _ _
  | stmt s ok err ihok iherr =>
    simp only [Prog.andThen, Prog.outcome]
    cases env.fault with
    | some e => exact iherr e _
    | none =>
      rcases E.serve env.fresh s st with ⟨r | e, st'⟩
      · exact iherr _ _
      · exact ihok _ _
  | control c ok err ihok iherr =>
    simp only [Prog.andThen, Prog.outcome]
    cases env.fault with
    | some e => exact iherr e _
    | none =>
      cases E.turn c st with
      | some st' => exact ihok _
      | none => exact iherr _ _

theorem outcome_bind {p : Prog Rows Ans Err α} {f : α → Prog Rows Ans Err β} {a : α}
    (h : p.outcome E env st = (.ok a, st')) :
    (p.bind f).outcome E env st = (f a).outcome E env st' := by
  unfold Prog.bind
  rw [outcome_andThen, h]

theorem outcome_bind_error {p : Prog Rows Ans Err α} {f : α → Prog Rows Ans Err β} {e : Err}
    (h : p.outcome E env st = (.error e, st')) :
    (p.bind f).outcome E env st = (.error e, st') := by
  unfold Prog.bind
  rw [outcome_andThen, h]
  rfl

theorem outcome_tryCatch {p : Prog Rows Ans Err α} {h : Err → Prog Rows Ans Err α} {a : α}
    (hp : p.outcome E env st = (.ok a, st')) :
    (p.tryCatch h).outcome E env st = (.ok a, st') := by
  unfold Prog.tryCatch
  rw [outcome_andThen, hp]
  rfl

theorem outcome_tryCatch_error {p : Prog Rows Ans Err α} {h : Err → Prog Rows Ans Err α} {e : Err}
    (hp : p.outcome E env st = (.error e, st')) :
    (p.tryCatch h).outcome E env st = (h e).outcome E env st' := by
  unfold Prog.tryCatch
  rw [outcome_andThen, hp]

/-- A `finally` block that does nothing here. -/
theorem outcome_tryFinally {p : Prog Rows Ans Err α} {fin : Prog Rows Ans Err Unit}
    (hfin : ∀ st : Place D W, fin.outcome E env st = (.ok (), st)) :
    (p.tryFinally fin).outcome E env st = p.outcome E env st := by
  unfold Prog.tryFinally
  rw [outcome_andThen]
  rcases p.outcome E env st with ⟨a | e, st'⟩
  · exact outcome_bind (hfin st')
  · exact outcome_bind (hfin st')

/-! ### Soundness -/

theorem yields_outcome (p : Prog Rows Ans Err α) (tr : List (Event S Ans Err)) (st : Place D W) :
    p.Yields E (· = env) (fun _ st' r => p.outcome E env st = (r, st')) tr st := by
  induction p generalizing tr st with
  | ret a => exact rfl
  | throw e => exact rfl
  | ask a k ih =>
    rintro _ rfl
    exact ih _ _ _
  | stmt s ok err ihok iherr =>
    rintro _ rfl
    refine ⟨fun e hf => ?_, fun hf => ⟨fun r st' hx => ?_, fun e st' hx => ?_⟩⟩
    · simp only [Prog.outcome, hf]
      exact iherr e _ _
    · rw [outcome_stmt hf hx]
      exact ihok r _ _
    · rw [outcome_stmt_error hf hx]
      exact iherr e _ _
  | control c ok err ihok iherr =>
    rintro _ rfl
    refine ⟨fun e hf => ?_, fun hf => ⟨fun st' hx => ?_, fun hx => ?_⟩⟩
    · simp only [Prog.outcome, hf]
      exact iherr e _ _
    · rw [outcome_control hf hx]
      exact ihok _ _
    · simp only [Prog.outcome, hf, hx]
      exact iherr _ _ _

/-- **The outcome is what solitary runs come to.** -/
theorem alone_iff_outcome {p : Prog Rows Ans Err α} {d d' : D} {r : Except Err α} :
    Alone E (· = env) d p d' r ↔
      (p.outcome E env (.free d)).1 = r ∧ (p.outcome E env (.free d)).2.db = d' := by
  have hsound : ∀ {d' r}, Alone E (· = env) d p d' r →
      (p.outcome E env (.free d)).1 = r ∧ (p.outcome E env (.free d)).2.db = d' := by
    intro d' r h
    obtain ⟨tr, hrun⟩ := alone_iff_performsIn.mp h
    have hyields : p.Yields E (· = env) (fun _ st' r => p.outcome E env (.free d) = (r, st')) []
        (.free d) := yields_outcome p [] (.free d)
    obtain ⟨st', rfl, hout⟩ := hyields.performs hrun
    rw [hout]
    exact ⟨rfl, rfl⟩
  refine ⟨hsound, ?_⟩
  rintro ⟨rfl, rfl⟩
  obtain ⟨tr, d', r, hrun⟩ := performsIn_total (E := E) (P := (· = env)) ⟨env, rfl⟩ p .idle d
  have halone := alone_iff_performsIn.mpr ⟨tr, hrun⟩
  obtain ⟨hr, hd⟩ := hsound halone
  rw [hr, hd]
  exact halone

end Outcome

end ReadCommitted
