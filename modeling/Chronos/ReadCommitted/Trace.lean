import Chronos.ReadCommitted.Engine

namespace ReadCommitted

/-!
# What a solitary client meets

`Alone` says that a client can run to its end in some surroundings.  `Performs` is the same
run told with what the surroundings contributed, move by move (`Event`): a statement that was
executed, a statement that failed from outside, a question with its answer.  Conditions on
the circumstances of a call are conditions on this list.

`alone_iff` connects the two, and the `…_cases` lemmas take a run apart along the program.
-/

variable {S A : Type} {Rows : S → Type} {Ans : A → Type} {Err α β : Type} {D O W K : Type}

/-- What one move of a client meets. -/
inductive Event (S : Type) {A : Type} (Ans : A → Type) (Err : Type)
  | ran (s : S)
  | controlled (c : Control)
  | disturbed (e : Err)
  | answered (a : A) (x : Ans a)

/-- The event of the next move of a program. -/
def Prog.event (env : Env O Err Ans) : Prog Rows Ans Err α → Option (Event S Ans Err)
  | .ret _ => none
  | .throw _ => none
  | .stmt s _ _ => some (env.fault.elim (.ran s) .disturbed)
  | .control c _ _ => some (env.fault.elim (.controlled c) .disturbed)
  | .ask a _ => some (.answered a (env.answer a))

/-- **One call with its circumstances.**  Started with a connection in state `σ` on database
    `d`, the program runs alone to its end with result `r`, meets the events `tr`, and leaves
    the database `d'`. -/
inductive Performs (E : Engine Rows Ans D O W K Err) : Session Unit W → D → Prog Rows Ans Err α →
    List (Event S Ans Err) → D → Except Err α → Prop
  | done {σ d p r} : p.result = some r → Performs E σ d p [] d r
  | step {σ d p tr d' r ev m} (env : Env O Err Ans) : p.event env = some ev →
      p.move E () env σ d = some m →
      Performs E m.session (E.apply (m.commits.map Prod.snd) d) m.next tr d' r →
      Performs E σ d p (ev :: tr) d' r

section Performs

variable {E : Engine Rows Ans D O W K Err} {σ : Session Unit W} {d d' : D}
variable {tr : List (Event S Ans Err)} {r : Except Err α}

/-- Every move has its event. -/
theorem event_of_move {p : Prog Rows Ans Err α} {env : Env O Err Ans}
    {m : Move Rows Ans Err α Unit W K} (h : p.move E () env σ d = some m) :
    ∃ ev, p.event env = some ev := by
  cases p with
  | ret a => cases h
  | throw e => cases h
  | stmt s ok err => exact ⟨_, rfl⟩
  | control c ok err => exact ⟨_, rfl⟩
  | ask a k => exact ⟨_, rfl⟩

theorem performs_of_runAlone {envs : List (Env O Err Ans)} {p q : Prog Rows Ans Err α}
    {σ' : Session Unit W} (hrun : runAlone E envs σ d p = some (σ', d', q))
    (hq : q.result = some r) : ∃ tr, Performs E σ d p tr d' r := by
  induction envs generalizing σ d p with
  | nil =>
    simp only [runAlone, Option.some.injEq, Prod.mk.injEq] at hrun
    obtain ⟨-, rfl, rfl⟩ := hrun
    exact ⟨[], .done hq⟩
  | cons env envs ih =>
    cases hm : p.move E () env σ d with
    | none => simp only [runAlone, hm] at hrun; cases hrun
    | some m =>
      simp only [runAlone, hm] at hrun
      obtain ⟨tr, htr⟩ := ih hrun
      obtain ⟨ev, hev⟩ := event_of_move hm
      exact ⟨ev :: tr, .step env hev hm htr⟩

theorem Performs.runAlone {p : Prog Rows Ans Err α} (h : Performs E σ d p tr d' r) :
    ∃ envs σ' q, runAlone E envs σ d p = some (σ', d', q) ∧ q.result = some r := by
  induction h with
  | done hr => exact ⟨[], _, _, rfl, hr⟩
  | step env _ hm _ ih =>
    obtain ⟨envs, σ', q, hrun, hq⟩ := ih
    refine ⟨env :: envs, σ', q, ?_, hq⟩
    simp only [ReadCommitted.runAlone, hm]
    exact hrun

/-- A call that runs alone meets some events. -/
theorem alone_iff {p : Prog Rows Ans Err α} :
    Alone E (fun _ => True) d p d' r ↔ ∃ tr, Performs E .idle d p tr d' r := by
  constructor
  · rintro ⟨envs, σ', q, -, hrun, hq⟩
    exact performs_of_runAlone hrun hq
  · rintro ⟨tr, h⟩
    obtain ⟨envs, σ', q, hrun, hq⟩ := h.runAlone
    exact ⟨envs, σ', q, fun _ _ => trivial, hrun, hq⟩

/-! ### Taking a run apart -/

theorem performs_ret_cases {a : α} (h : Performs E σ d (.ret a) tr d' r) :
    tr = [] ∧ d' = d ∧ r = .ok a := by
  cases h with
  | done hr => exact ⟨rfl, rfl, by simpa using hr.symm⟩
  | step env hev _ _ => cases hev

theorem performs_throw_cases {e : Err} (h : Performs E σ d (.throw e : Prog Rows Ans Err α) tr d' r) :
    tr = [] ∧ d' = d ∧ r = .error e := by
  cases h with
  | done hr => exact ⟨rfl, rfl, by simpa using hr.symm⟩
  | step env hev _ _ => cases hev

/-- A statement outside a transaction is disturbed, answered with rows, or refused. -/
theorem performs_stmt_cases {s : S} {ok : Rows s → Prog Rows Ans Err α}
    {err : Err → Prog Rows Ans Err α} (h : Performs E .idle d (.stmt s ok err) tr d' r) :
    (∃ e tr', tr = .disturbed e :: tr' ∧ Performs E .idle d (err e) tr' d' r) ∨
    (∃ o rows ws tr', (E.exec s o d).result = .ok (rows, ws) ∧ tr = .ran s :: tr' ∧
      Performs E .idle (E.apply ws d) (ok rows) tr' d' r) ∨
    (∃ o e tr', (E.exec s o d).result = .error e ∧ tr = .ran s :: tr' ∧
      Performs E .idle d (err e) tr' d' r) := by
  cases h with
  | done hr => cases hr
  | @step _ _ _ tr' _ _ ev m env hev hm hrest =>
    obtain rfl := Option.some.inj hev
    rcases move_stmt_idle_cases hm with ⟨e, hf, rfl⟩ | ⟨e, hf, hx, rfl⟩ | ⟨rows, ws, hf, hx, rfl⟩
    · exact Or.inl ⟨e, tr', by rw [hf]; rfl, hrest⟩
    · exact Or.inr (Or.inr ⟨env.fresh, e, tr', hx, by rw [hf]; rfl, hrest⟩)
    · have hws : (ws.map (((), ·) : W → Unit × W)).map Prod.snd = ws := by simp [Function.comp_def]
      rw [hws] at hrest
      exact Or.inr (Or.inl ⟨env.fresh, rows, ws, tr', hx, by rw [hf]; rfl, hrest⟩)

/-- A question is answered. -/
theorem performs_ask_cases {a : A} {k : Ans a → Prog Rows Ans Err α}
    (h : Performs E σ d (.ask a k) tr d' r) :
    ∃ x tr', tr = .answered a x :: tr' ∧ Performs E σ (E.apply (E.note a x) d) (k x) tr' d' r := by
  cases h with
  | done hr => cases hr
  | @step _ _ _ tr' _ _ ev m env hev hm hrest =>
    simp only [Prog.event, Option.some.injEq] at hev
    rw [move_ask, Option.some.injEq] at hm
    subst hm
    have hws : ((E.note a (env.answer a)).map (((), ·) : W → Unit × W)).map Prod.snd
        = E.note a (env.answer a) := by simp [Function.comp_def]
    rw [hws] at hrest
    exact ⟨env.answer a, tr', by rw [hev], hrest⟩

/-- A question that leaves nothing behind is answered. -/
theorem performs_plain_ask_cases {a : A} (hnote : ∀ x, E.note a x = [])
    {k : Ans a → Prog Rows Ans Err α} (h : Performs E σ d (.ask a k) tr d' r) :
    ∃ x tr', tr = .answered a x :: tr' ∧ Performs E σ d (k x) tr' d' r := by
  obtain ⟨x, tr', rfl, hrest⟩ := performs_ask_cases h
  rw [hnote, Engine.apply_nil] at hrest
  exact ⟨x, tr', rfl, hrest⟩

/-- What every write preserves, a call preserves. -/
theorem Performs.preserves {J : D → Prop} (hJ : ∀ w d, J d → J (E.write w d))
    {p : Prog Rows Ans Err α} (hd : J d) (h : Performs E σ d p tr d' r) : J d' := by
  have happly : ∀ (ws : List W) d, J d → J (E.apply ws d) := by
    intro ws
    induction ws with
    | nil => exact fun _ hd => hd
    | cons w ws ih => exact fun d hd => ih _ (hJ w d hd)
  induction h with
  | done _ => exact hd
  | step _ _ _ _ ih => exact ih (happly _ _ hd)

end Performs

end ReadCommitted
