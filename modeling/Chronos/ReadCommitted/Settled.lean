import Chronos.ReadCommitted.World

namespace ReadCommitted

/-!
# What holds once a client has returned

A client that returns has been answered by the statements on its way.  Where the answer of a
statement outside transactions tells that some fact holds in the committed state, and the other
clients leave such facts alone, they all hold when the client has returned, and ever after.

* `settles s r b` says that the answer `r` of `s` tells fact `b`, and `Prog.Owes settles p owed` that
  `p` is told every fact that is `owed` before it returns.
* `World.Settles.step` — a step of a world keeps what has been told and owes the rest.
* `World.Settles.returned` — nothing is owed by a client that has returned.
-/

variable {S A : Type} {Rows : S → Type} {Ans : A → Type} {Err α β : Type}
variable {D O W K C ι : Type}

/-- Before the program returns it is told all that is owed. -/
def Prog.Owes (settles : (s : S) → Rows s → β → Prop) : Prog Rows Ans Err α → (β → Prop) → Prop
  | .ret _, owed => ∀ b, ¬ owed b
  | .throw _, _ => True
  | .stmt s ok err, owed =>
      (∀ r, Owes settles (ok r) fun b => owed b ∧ ¬ settles s r b) ∧ ∀ e, Owes settles (err e) owed
  | .control _ ok err, owed => Owes settles ok owed ∧ ∀ e, Owes settles (err e) owed
  | .ask _ k, owed => ∀ x, Owes settles (k x) owed

/-- Client `i` owes what is needed, as far as it does not hold. -/
def World.Settles (settles : (s : S) → Rows s → β → Prop) (holds : β → D → Prop) (need : β → Prop)
    (i : ι) (w : World Rows Ans Err α D W K C ι) : Prop :=
  ∃ owed : β → Prop, (w.prog i).Owes settles owed ∧ ∀ b, need b → owed b ∨ holds b w.db

/-- What client `i` is told in a step, it is told outside transactions. -/
def TellsOutside (settles : (s : S) → Rows s → β → Prop) (i : ι) (w : World Rows Ans Err α D W K C ι)
    (l : Label Ans O Err C ι) : Prop :=
  l.thread = i → ∀ s ok err r b, w.prog i = .stmt s ok err → settles s r b →
    ∀ j pending, w.session l.conn ≠ .active j pending

section Settles

variable {E : Engine Rows Ans D O W K Err} {settles : (s : S) → Rows s → β → Prop}
variable {holds : β → D → Prop} {owed need : β → Prop}

/-- Nobody is wronged by being owed less. -/
theorem Prog.Owes.mono {p : Prog Rows Ans Err α} {owed' : β → Prop} (hp : p.Owes settles owed)
    (hless : ∀ b, owed' b → owed b) : p.Owes settles owed' := by
  induction p generalizing owed owed' with
  | ret a => exact fun b hb => hp b (hless b hb)
  | throw e => trivial
  | stmt s ok err ihok iherr =>
    exact ⟨fun r => ihok r (hp.1 r) fun b hb => ⟨hless b hb.1, hb.2⟩,
      fun e => iherr e (hp.2 e) hless⟩
  | control c ok err ihok iherr => exact ⟨ihok hp.1 hless, fun e => iherr e (hp.2 e) hless⟩
  | ask a k ih => exact fun x => ih x (hp x) hless

/-- **One move** is told a fact by a statement outside transactions, or still owes it. -/
theorem Prog.Owes.move {p : Prog Rows Ans Err α} (hp : p.Owes settles owed) {me : ι}
    {env : Env O Err Ans} {σ : Session ι W} {d : D} {m : Move Rows Ans Err α ι W K}
    (houtside : ∀ s ok err r b, p = .stmt s ok err → settles s r b →
      ∀ j pending, σ ≠ .active j pending)
    (hm : p.move E me env σ d = some m) :
    ∃ owed', m.next.Owes settles owed' ∧ ∀ b, owed b → owed' b ∨ ∃ s ok err r,
      p = .stmt s ok err ∧ (E.exec s env.fresh d).result = .ok (r, m.commits.map Prod.snd) ∧
        settles s r b := by
  cases p with
  | ret a => cases hm
  | throw e => cases hm
  | ask a k =>
    obtain rfl := by simpa using hm.symm
    exact ⟨owed, hp _, fun b hb => Or.inl hb⟩
  | control c ok err =>
    rcases move_control_cases hm with ⟨e, -, rfl⟩ | ⟨-, rfl⟩
    · exact ⟨owed, hp.2 e, fun b hb => Or.inl hb⟩
    · refine ⟨owed, ?_, fun b hb => Or.inl hb⟩
      cases c with
      | rollback => exact hp.1
      | beginTx =>
        cases σ with
        | failed j => exact hp.2 _
        | _ => exact hp.1
      | commit => cases σ <;> exact hp.1
  | stmt s ok err =>
    cases σ with
    | failed j =>
      obtain ⟨e, rfl⟩ := move_stmt_failed_cases hm
      exact ⟨owed, hp.2 e, fun b hb => Or.inl hb⟩
    | idle =>
      rcases move_stmt_idle_cases hm with ⟨e, -, rfl⟩ | ⟨e, -, -, rfl⟩ | ⟨r, ws, -, hx, rfl⟩
      · exact ⟨owed, hp.2 e, fun b hb => Or.inl hb⟩
      · exact ⟨owed, hp.2 e, fun b hb => Or.inl hb⟩
      · refine ⟨_, hp.1 r, fun b hb => ?_⟩
        by_cases htold : settles s r b
        · refine Or.inr ⟨s, ok, err, r, rfl, ?_, htold⟩
          rw [hx, List.map_map, Function.comp_def, List.map_id']
        · exact Or.inl ⟨hb, htold⟩
    | active j pending =>
      rcases move_stmt_active_cases hm with ⟨e, -, rfl⟩ | ⟨e, -, -, rfl⟩ | ⟨r, ws, -, -, rfl⟩
      · exact ⟨owed, hp.2 e, fun b hb => Or.inl hb⟩
      · exact ⟨owed, hp.2 e, fun b hb => Or.inl hb⟩
      · -- Inside a transaction nothing is told.
        exact ⟨_, hp.1 r, fun b hb => Or.inl
          ⟨hb, fun htold => houtside s ok err r b rfl htold j pending rfl⟩⟩

variable [DecidableEq ι] [DecidableEq C] [DecidableEq K]
variable {i : ι} {w w' : World Rows Ans Err α D W K C ι} {l : Label Ans O Err C ι}

/-- **Step rule.** -/
theorem World.Settles.step (h : w.Settles settles holds need i) (houtside : TellsOutside settles i w l)
    (hstay : ∀ b, holds b w.db → holds b w'.db)
    (hexec : ∀ s ok err r ws b, w.prog i = .stmt s ok err → l.thread = i →
      (E.exec s l.env.fresh w.db).result = .ok (r, ws) → settles s r b → holds b (E.apply ws w.db))
    (hs : w.step E l = some w') : w'.Settles settles holds need i := by
  obtain ⟨owed, howes, hneed⟩ := h
  obtain ⟨m, hm, -, rfl⟩ := step_cases hs
  by_cases hi : l.thread = i
  · subst hi
    obtain ⟨owed', howes', htold⟩ := howes.move (houtside rfl) hm
    refine ⟨owed', ?_, fun b hb => ?_⟩
    · simp only [World.after, Function.update_self]
      exact howes'
    · rcases hneed b hb with howed | hholds
      · refine (htold b howed).imp_right ?_
        rintro ⟨s, ok, err, r, hprog, hx, hsettles⟩
        exact hexec s ok err r _ b hprog rfl hx hsettles
      · exact Or.inr (hstay b hholds)
  · refine ⟨owed, ?_, fun b hb => (hneed b hb).imp_right (hstay b)⟩
    simp only [World.after, Function.update_of_ne (Ne.symm hi)]
    exact howes

omit [DecidableEq ι] [DecidableEq C] [DecidableEq K] in
/-- **What a client has returned with** holds. -/
theorem World.Settles.returned (h : w.Settles settles holds need i) {a : α} (ha : w.prog i = .ret a)
    {b : β} (hb : need b) : holds b w.db := by
  obtain ⟨owed, howes, hneed⟩ := h
  rw [ha] at howes
  exact (hneed b hb).resolve_left (howes b)

omit [DecidableEq ι] [DecidableEq C] [DecidableEq K] in
theorem settles_init {d : D} {prog : ι → Prog Rows Ans Err α} (h : (prog i).Owes settles need) :
    (World.init d prog : World Rows Ans Err α D W K C ι).Settles settles holds need i :=
  ⟨need, h, fun _ hb => Or.inl hb⟩

end Settles

end ReadCommitted
