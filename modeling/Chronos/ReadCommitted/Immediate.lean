import Chronos.ReadCommitted.World

namespace ReadCommitted

/-!
# What is only made outside transactions

A constraint that spans many rows cannot be judged by the locks of one row: what a transaction
has checked may be undone before it commits.  It holds all the same where everything that could
violate it is made by statements that commit by themselves.

`creates d w` says that the write makes something new in `d`.  Where the statements inside
transactions create nothing (`CreatesAlone`), nothing that is pending creates anything
(`World.NoneBeingMade`), and a step commits either writes that create nothing, or what one
statement has written in the committed state (`World.NoneBeingMade.step`).
-/

variable {S A : Type} {Rows : S → Type} {Ans : A → Type} {Err α : Type}
variable {D O W K C ι : Type}

/-- What is there stays, what a write that creates nothing has left was there before, and the
    answers to questions create nothing. -/
structure Creation (E : Engine Rows Ans D O W K Err) (creates : D → W → Prop) : Prop where
  stays : ∀ d w w', ¬ creates d w → ¬ creates (E.write w' d) w
  before : ∀ d w w', ¬ creates d w' → ¬ creates (E.write w' d) w → ¬ creates d w
  note : ∀ a x d, ∀ w ∈ E.note a x, ¬ creates d w

/-- A statement that is executed inside a transaction creates nothing. -/
def CreatesAlone (E : Engine Rows Ans D O W K Err) (creates : D → W → Prop)
    (w : World Rows Ans Err α D W K C ι) (l : Label Ans O Err C ι) : Prop :=
  ∀ s ok err i pending r ws, w.prog l.thread = .stmt s ok err →
    w.session l.conn = .active i pending →
    (E.exec s l.env.fresh (E.apply (pending.map Prod.snd) w.db)).result = .ok (r, ws) →
      ∀ x ∈ ws, ¬ creates (E.apply (pending.map Prod.snd) w.db) x

/-- What is pending on the connection creates nothing. -/
def Session.NoneBeingMade (creates : D → W → Prop) (d : D) (σ : Session ι W) : Prop :=
  ∀ i pending, σ = .active i pending → ∀ e ∈ pending, ¬ creates d e.2

def World.NoneBeingMade (creates : D → W → Prop) (w : World Rows Ans Err α D W K C ι) : Prop :=
  ∀ c, (w.session c).NoneBeingMade creates w.db

section Creation

variable {E : Engine Rows Ans D O W K Err} {creates : D → W → Prop}

theorem Creation.stays_apply (hE : Creation E creates) {d : D} {w : W} (ws : List W)
    (h : ¬ creates d w) : ¬ creates (E.apply ws d) w := by
  induction ws generalizing d with
  | nil => exact h
  | cons w' ws ih => exact ih (hE.stays d w w' h)

theorem Creation.before_apply (hE : Creation E creates) {d : D} {w : W} {ws : List W}
    (hws : ∀ x ∈ ws, ¬ creates d x) (h : ¬ creates (E.apply ws d) w) : ¬ creates d w := by
  induction ws generalizing d with
  | nil => exact h
  | cons w' ws ih =>
    refine hE.before d w w' (hws w' List.mem_cons_self) (ih (fun x hx => ?_) h)
    exact hE.stays d x w' (hws x (List.mem_cons_of_mem _ hx))

theorem Session.NoneBeingMade.apply (hE : Creation E creates) {d : D} {σ : Session ι W}
    (h : σ.NoneBeingMade creates d) (ws : List W) : σ.NoneBeingMade creates (E.apply ws d) :=
  fun i pending hσ e he => hE.stays_apply ws (h i pending hσ e he)

/-- Outside transactions nothing is pending. -/
theorem noneBeingMade_of_quiet {d : D} {σ : Session ι W} (h : ∀ i pending, σ ≠ .active i pending) :
    σ.NoneBeingMade creates d := fun i pending hσ => absurd hσ (h i pending)

/-- **One move.** -/
theorem Prog.move_created (hE : Creation E creates) {p : Prog Rows Ans Err α} {me : ι}
    {env : Env O Err Ans} {σ : Session ι W} {d : D} {m : Move Rows Ans Err α ι W K}
    (hσ : σ.NoneBeingMade creates d)
    (hstmt : ∀ s ok err i pending r ws, p = .stmt s ok err → σ = .active i pending →
      (E.exec s env.fresh (E.apply (pending.map Prod.snd) d)).result = .ok (r, ws) →
        ∀ x ∈ ws, ¬ creates (E.apply (pending.map Prod.snd) d) x)
    (hm : p.move E me env σ d = some m) :
    m.session.NoneBeingMade creates d ∧
      ((∀ e ∈ m.commits, ¬ creates d e.2) ∨
        ∃ s ok err r, p = .stmt s ok err ∧
          (E.exec s env.fresh d).result = .ok (r, m.commits.map Prod.snd)) := by
  have hidle : (Session.idle : Session ι W).NoneBeingMade creates d :=
    noneBeingMade_of_quiet fun _ _ => nofun
  have hfailed : ∀ i, (Session.failed i : Session ι W).NoneBeingMade creates d :=
    fun i => noneBeingMade_of_quiet fun _ _ => nofun
  have hnone : ∀ e ∈ ([] : List (ι × W)), ¬ creates d e.2 := fun e he => nomatch he
  cases p with
  | ret a => cases hm
  | throw e => cases hm
  | ask a k =>
    obtain rfl := by simpa using hm.symm
    refine ⟨hσ, Or.inl fun e he => ?_⟩
    obtain ⟨w, hw, rfl⟩ := List.mem_map.mp he
    exact hE.note a (env.answer a) d w hw
  | stmt s ok err =>
    cases σ with
    | failed i =>
      obtain ⟨e, rfl⟩ := move_stmt_failed_cases hm
      exact ⟨hfailed i, Or.inl hnone⟩
    | idle =>
      rcases move_stmt_idle_cases hm with ⟨e, -, rfl⟩ | ⟨e, -, -, rfl⟩ | ⟨r, ws, -, hx, rfl⟩
      · exact ⟨hidle, Or.inl hnone⟩
      · exact ⟨hidle, Or.inl hnone⟩
      · refine ⟨hidle, Or.inr ⟨s, ok, err, r, rfl, ?_⟩⟩
        rw [hx, List.map_map, Function.comp_def, List.map_id']
    | active i pending =>
      rcases move_stmt_active_cases hm with ⟨e, -, rfl⟩ | ⟨e, -, -, rfl⟩ | ⟨r, ws, -, hx, rfl⟩
      · exact ⟨hfailed i, Or.inl hnone⟩
      · exact ⟨hfailed i, Or.inl hnone⟩
      · -- What the statement sees, the transaction has not created.
        have hpending := hσ i pending rfl
        refine ⟨fun i' pending' hactive e he => ?_, Or.inl hnone⟩
        obtain ⟨-, rfl⟩ := Session.active.inj hactive
        rcases List.mem_append.mp he with he | he
        · exact hpending e he
        · obtain ⟨x, hmem, rfl⟩ := List.mem_map.mp he
          refine hE.before_apply (fun y hy => ?_) (hstmt s ok err i pending r ws rfl rfl hx x hmem)
          obtain ⟨e', he', rfl⟩ := List.mem_map.mp hy
          exact hpending e' he'
  | control c ok err =>
    rcases move_control_cases hm with ⟨e, -, rfl⟩ | ⟨-, rfl⟩
    · cases c with
      | commit => exact ⟨hidle, Or.inl hnone⟩
      | beginTx => exact ⟨hσ, Or.inl hnone⟩
      | rollback => exact ⟨hσ, Or.inl hnone⟩
    · cases c with
      | rollback => exact ⟨hidle, Or.inl hnone⟩
      | commit =>
        cases σ with
        | idle => exact ⟨hidle, Or.inl hnone⟩
        | failed i => exact ⟨hidle, Or.inl hnone⟩
        | active i pending => exact ⟨hidle, Or.inl (hσ i pending rfl)⟩
      | beginTx =>
        cases σ with
        | failed i => exact ⟨hσ, Or.inl hnone⟩
        | active i pending => exact ⟨hσ, Or.inl hnone⟩
        | idle =>
          refine ⟨fun i pending hactive e he => ?_, Or.inl hnone⟩
          obtain ⟨-, rfl⟩ := Session.active.inj hactive
          cases he

variable [DecidableEq ι] [DecidableEq C] [DecidableEq K]
variable {w w' : World Rows Ans Err α D W K C ι} {l : Label Ans O Err C ι}

/-- **Step rule.** -/
theorem World.NoneBeingMade.step (hE : Creation E creates) (h : w.NoneBeingMade creates)
    (hl : CreatesAlone E creates w l) (hs : w.step E l = some w') :
    w'.NoneBeingMade creates ∧ ∃ made : List (ι × W),
      w'.db = E.apply (made.map Prod.snd) w.db ∧ w'.journal = w.journal ++ made ∧
      ((∀ e ∈ made, ¬ creates w.db e.2) ∨ ∃ s ok err r, w.prog l.thread = .stmt s ok err ∧
        (E.exec s l.env.fresh w.db).result = .ok (r, made.map Prod.snd)) := by
  obtain ⟨m, hm, -, rfl⟩ := step_cases hs
  obtain ⟨hsession, hmade⟩ := Prog.move_created hE (h l.conn)
    (fun s ok err i pending r ws => hl s ok err i pending r ws) hm
  refine ⟨fun c => ?_, m.commits, rfl, rfl, hmade⟩
  by_cases hc : c = l.conn
  · subst hc
    simp only [World.after, Function.update_self]
    exact hsession.apply hE _
  · simp only [World.after, Function.update_of_ne hc]
    exact (h c).apply hE _

omit [DecidableEq ι] [DecidableEq C] [DecidableEq K] in
theorem noneBeingMade_init (d : D) (prog : ι → Prog Rows Ans Err α) :
    (World.init d prog : World Rows Ans Err α D W K C ι).NoneBeingMade creates :=
  fun _ => noneBeingMade_of_quiet fun _ _ => nofun

end Creation

end ReadCommitted
