import Chronos.ReadCommitted.LockOrder
import Mathlib.Data.DFinsupp.WellFounded

namespace ReadCommitted

/-!
# Runs end

A program is a tree, with a branch for every answer, and a move goes from a program to one of its
branches.  So a client cannot move for ever, however many answers there are, and finitely many
clients cannot either (`wellFounded_moves`): no bound on their moves is needed.  With
`World.Climbing.can_step`, clients that take their locks in one order all come to their ends
(`World.Climbing.finishes`).
-/

variable {S A : Type} {Rows : S → Type} {Ans : A → Type} {Err α : Type}
variable {D O W K C ι : Type}

/-- `q` is what is left of the program after one move. -/
inductive Prog.Branch : Prog Rows Ans Err α → Prog Rows Ans Err α → Prop
  | ok {s ok err} (r : Rows s) : Branch (ok r) (.stmt s ok err)
  | error {s ok err} (e : Err) : Branch (err e) (.stmt s ok err)
  | controlOk {c ok err} : Branch ok (.control c ok err)
  | controlError {c ok err} (e : Err) : Branch (err e) (.control c ok err)
  | answer {a k} (x : Ans a) : Branch (k x) (.ask a k)

/-- Every program is a finite way from its ends. -/
theorem wellFounded_branch : WellFounded fun q p : Prog Rows Ans Err α => q.Branch p := by
  refine ⟨fun p => ?_⟩
  induction p with
  | ret a => exact ⟨_, fun q h => nomatch h⟩
  | throw e => exact ⟨_, fun q h => nomatch h⟩
  | stmt s ok err ihok iherr =>
    refine ⟨_, fun q h => ?_⟩
    cases h with
    | ok r => exact ihok r
    | error e => exact iherr e
  | control c ok err ihok iherr =>
    refine ⟨_, fun q h => ?_⟩
    cases h with
    | controlOk => exact ihok
    | controlError e => exact iherr e
  | ask a k ih =>
    refine ⟨_, fun q h => ?_⟩
    cases h with
    | answer x => exact ih x

variable {E : Engine Rows Ans D O W K Err}

theorem branch_of_move {p : Prog Rows Ans Err α} {me : ι} {env : Env O Err Ans} {σ : Session ι W}
    {d : D} {m : Move Rows Ans Err α ι W K} (hm : p.move E me env σ d = some m) :
    m.next.Branch p := by
  cases p with
  | ret a => cases hm
  | throw e => cases hm
  | ask a k =>
    obtain rfl := by simpa using hm.symm
    exact .answer _
  | stmt s ok err =>
    cases σ with
    | idle =>
      rcases move_stmt_idle_cases hm with ⟨e, -, rfl⟩ | ⟨e, -, -, rfl⟩ | ⟨r, ws, -, -, rfl⟩
      · exact .error e
      · exact .error e
      · exact .ok r
    | active i pending =>
      rcases move_stmt_active_cases hm with ⟨e, -, rfl⟩ | ⟨e, -, -, rfl⟩ | ⟨r, ws, -, -, rfl⟩
      · exact .error e
      · exact .error e
      · exact .ok r
    | failed i =>
      obtain ⟨e, rfl⟩ := move_stmt_failed_cases hm
      exact .error e
  | control c ok err =>
    rcases move_control_cases hm with ⟨e, -, rfl⟩ | ⟨-, rfl⟩
    · exact .controlError e
    · cases c <;> cases σ <;> first | exact .controlOk | exact .controlError _

variable [DecidableEq ι] [DecidableEq C] [DecidableEq K]

/-- **Runs are finite.** -/
theorem wellFounded_moves (E : Engine Rows Ans D O W K Err) [Finite ι] :
    WellFounded fun w' w : World Rows Ans Err α D W K C ι => ∃ l, w.step E l = some w' := by
  have hlex : WellFounded (Pi.Lex WellOrderingRel
      fun {_ : ι} (q p : Prog Rows Ans Err α) => q.Branch p) :=
    Pi.Lex.wellFounded WellOrderingRel fun _ => wellFounded_branch
  refine Subrelation.wf (fun {w' w} h => ?_) (InvImage.wf World.prog hlex)
  obtain ⟨l, hs⟩ := h
  obtain ⟨m, hm, -, rfl⟩ := step_cases hs
  refine ⟨l.thread, fun j hj => ?_, ?_⟩
  · exact after_prog_of_ne fun heq => (irrefl_of WellOrderingRel l.thread) (heq ▸ hj)
  · show Prog.Branch ((w.after E l m).prog l.thread) (w.prog l.thread)
    rw [after_prog_self]
    exact branch_of_move hm

/-- The step a client takes on its own connection in the given surroundings. -/
def Surrounded (own : ι → C) (surroundings : World Rows Ans Err α D W K C ι → ι → Env O Err Ans)
    (w : World Rows Ans Err α D W K C ι) (l : Label Ans O Err C ι) : Prop :=
  l.conn = own l.thread ∧ l.env = surroundings w l.thread

variable {rank : K → Nat} {own : ι → C}

/-- **Everybody comes to an end.**  Whatever the surroundings are, the clients can be run on until
    all of them are done; no lock is held then. -/
theorem World.Climbing.finishes [Finite ι] {w : World Rows Ans Err α D W K C ι}
    (h : w.Climbing E rank own) (hown : Function.Injective own) {top : Nat} (htop : ∀ k, rank k ≤ top)
    {surroundings : World Rows Ans Err α D W K C ι → ι → Env O Err Ans}
    (hcontrol : ∀ w l, Surrounded own surroundings w l → ControlsUndisturbed w l) :
    ∃ w', Reaches E (Surrounded own surroundings) w w' ∧ (∀ i, (w'.prog i).Done) ∧
      ∀ k, w'.holder k = none := by
  have hwf : WellFounded fun w' w : World Rows Ans Err α D W K C ι => ∃ l, w.step E l = some w' :=
    wellFounded_moves E
  induction w using hwf.induction with
  | _ w ih =>
    by_cases hdone : ∀ i, (w.prog i).Done
    · refine ⟨w, .start, hdone, fun k => ?_⟩
      cases hk : w.holder k with
      | none => rfl
      | some c =>
        obtain ⟨i, rfl⟩ := h.holders k c hk
        exact absurd (hdone i) (h.not_done hk)
    · obtain ⟨i, hi⟩ := not_forall.mp hdone
      obtain ⟨j, -, hstep⟩ := h.can_step htop hi
      obtain ⟨w₁, hs⟩ := hstep (surroundings w j)
      have hlabel : Surrounded own surroundings w ⟨j, own j, surroundings w j⟩ := ⟨rfl, rfl⟩
      obtain ⟨w', hreach, hend⟩ := ih w₁ ⟨_, hs⟩ (h.step hown hlabel.1 (hcontrol _ _ hlabel) hs)
      exact ⟨w', (Reaches.start.step hlabel hs).trans hreach, hend⟩

end ReadCommitted
