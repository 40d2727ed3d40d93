import Chronos.ReadCommitted.Contract
import Mathlib.Algebra.BigOperators.Group.Finset.Piecewise
import Mathlib.Algebra.BigOperators.Group.Finset.Basic
import Mathlib.Data.Fintype.Basic

namespace ReadCommitted

/-!
# Progress

Three reasons why clients come to an end.

* `Prog.EndsWithin` bounds the moves of a program whatever it is answered, so it bounds the
  steps of each client and the length of every run (`run_countP_le`, `run_length_le`).
* When every transaction locks the same resource before any other (`LocksFirst`), whoever
  holds that lock holds all locks there are, and some client can always move
  (`Modular.can_step`): such clients do not deadlock.
* A client that only reads what does not change waits for nobody, and its answer can be told
  in advance (`Prog.Answers`).
-/

variable {S A : Type} {Rows : S → Type} {Ans : A → Type} {Err α β : Type}
variable {D O W K C ι γ : Type} {V : K → Type}

/-! ### Bounded programs -/

/-- The program ends within `n` moves, whatever it is answered. -/
def Prog.EndsWithin : Prog Rows Ans Err α → Nat → Prop
  | .ret _, _ => True
  | .throw _, _ => True
  | .stmt _ ok err, n + 1 => (∀ r, EndsWithin (ok r) n) ∧ ∀ e, EndsWithin (err e) n
  | .control _ ok err, n + 1 => EndsWithin ok n ∧ ∀ e, EndsWithin (err e) n
  | .ask _ k, n + 1 => ∀ x, EndsWithin (k x) n
  | _, 0 => False

section EndsWithin

variable {E : Engine Rows Ans D O W K Err} {p : Prog Rows Ans Err α} {n m : Nat}

theorem Prog.EndsWithin.mono (h : p.EndsWithin n) (hnm : n ≤ m) : p.EndsWithin m := by
  induction p generalizing n m with
  | ret a => trivial
  | throw e => trivial
  | stmt s ok err ihok iherr =>
    obtain _ | n := n
    · exact h.elim
    · obtain ⟨m, rfl⟩ := Nat.exists_eq_add_of_lt hnm
      exact ⟨fun r => ihok r (h.1 r) (by omega), fun e => iherr e (h.2 e) (by omega)⟩
  | control c ok err ihok iherr =>
    obtain _ | n := n
    · exact h.elim
    · obtain ⟨m, rfl⟩ := Nat.exists_eq_add_of_lt hnm
      exact ⟨ihok h.1 (by omega), fun e => iherr e (h.2 e) (by omega)⟩
  | ask a k ih =>
    obtain _ | n := n
    · exact h.elim
    · obtain ⟨m, rfl⟩ := Nat.exists_eq_add_of_lt hnm
      exact fun x => ih x (h x) (by omega)

theorem Prog.EndsWithin.andThen {f : α → Prog Rows Ans Err β} {h : Err → Prog Rows Ans Err β}
    (hp : p.EndsWithin n) (hf : ∀ a, (f a).EndsWithin m) (hh : ∀ e, (h e).EndsWithin m) :
    (p.andThen f h).EndsWithin (n + m) := by
  induction p generalizing n with
  | ret a => exact (hf a).mono (by omega)
  | throw e => exact (hh e).mono (by omega)
  | stmt s ok err ihok iherr =>
    obtain _ | n := n
    · exact hp.elim
    · rw [Nat.add_right_comm]
      exact ⟨fun r => ihok r (hp.1 r), fun e => iherr e (hp.2 e)⟩
  | control c ok err ihok iherr =>
    obtain _ | n := n
    · exact hp.elim
    · rw [Nat.add_right_comm]
      exact ⟨ihok hp.1, fun e => iherr e (hp.2 e)⟩
  | ask a k ih =>
    obtain _ | n := n
    · exact hp.elim
    · rw [Nat.add_right_comm]
      exact fun x => ih x (hp x)

theorem Prog.EndsWithin.bind {f : α → Prog Rows Ans Err β} (hp : p.EndsWithin n)
    (hf : ∀ a, (f a).EndsWithin m) : (p.bind f).EndsWithin (n + m) :=
  hp.andThen hf fun _ => trivial

theorem Prog.EndsWithin.tryCatch {h : Err → Prog Rows Ans Err α} (hp : p.EndsWithin n)
    (hh : ∀ e, (h e).EndsWithin m) : (p.tryCatch h).EndsWithin (n + m) :=
  hp.andThen (fun _ => trivial) hh

/-- A client that is not done has a next move. -/
theorem move_of_not_done {me : ι} {env : Env O Err Ans} {σ : Session ι W} {d : D}
    (h : ¬ p.Done) : ∃ m, p.move E me env σ d = some m := by
  cases p with
  | ret a => exact absurd trivial h
  | throw e => exact absurd trivial h
  | ask a k => exact ⟨_, rfl⟩
  | stmt s ok err =>
    cases hf : env.fault with
    | none => exact ⟨_, move_stmt E me env d hf _ _ _ _⟩
    | some e => exact ⟨_, move_stmt_fault E me env d hf _ _ _ _⟩
  | control c ok err =>
    cases hf : env.fault with
    | none => exact ⟨_, move_control E me env d hf _ _ _ _⟩
    | some e => exact ⟨_, move_control_fault E me env d hf _ _ _ _⟩

/-- `BEGIN`, `COMMIT` and `ROLLBACK` wait for nobody. -/
theorem locks_control {me : ι} {env : Env O Err Ans} {σ : Session ι W} {d : D} {c : Control}
    {ok : Prog Rows Ans Err α} {err : Err → Prog Rows Ans Err α} {mv : Move Rows Ans Err α ι W K}
    (hm : (Prog.control c ok err).move E me env σ d = some mv) : mv.locks = [] := by
  rcases move_control_cases hm with ⟨e, -, rfl⟩ | ⟨-, rfl⟩
  · rfl
  · cases c <;> cases σ <;> rfl

/-- A move uses up one move. -/
theorem Prog.EndsWithin.move {me : ι} {env : Env O Err Ans} {σ : Session ι W} {d : D}
    {mv : Move Rows Ans Err α ι W K} (h : p.EndsWithin n)
    (hm : p.move E me env σ d = some mv) : ∃ k, n = k + 1 ∧ mv.next.EndsWithin k := by
  cases p with
  | ret a => cases hm
  | throw e => cases hm
  | ask a k =>
    obtain _ | n := n
    · exact h.elim
    · obtain rfl := by simpa using hm.symm
      exact ⟨n, rfl, h _⟩
  | stmt s ok err =>
    obtain _ | n := n
    · exact h.elim
    · refine ⟨n, rfl, ?_⟩
      cases σ with
      | idle =>
        rcases move_stmt_idle_cases hm with ⟨e, -, rfl⟩ | ⟨e, -, -, rfl⟩ | ⟨r, ws, -, -, rfl⟩
        · exact h.2 e
        · exact h.2 e
        · exact h.1 r
      | active i pending =>
        rcases move_stmt_active_cases hm with ⟨e, -, rfl⟩ | ⟨e, -, -, rfl⟩ | ⟨r, ws, -, -, rfl⟩
        · exact h.2 e
        · exact h.2 e
        · exact h.1 r
      | failed i =>
        obtain ⟨e, rfl⟩ := move_stmt_failed_cases hm
        exact h.2 e
  | control c ok err =>
    obtain _ | n := n
    · exact h.elim
    · refine ⟨n, rfl, ?_⟩
      rcases move_control_cases hm with ⟨e, -, rfl⟩ | ⟨-, rfl⟩
      · exact h.2 e
      · cases c <;> cases σ <;> first
          | exact h.1
          | exact h.2 _

variable [DecidableEq ι] [DecidableEq C] [DecidableEq K]

/-- A client makes no more steps than its program has moves, whatever the others do. -/
theorem run_countP_le {check : World Rows Ans Err α D W K C ι → Label Ans O Err C ι → Bool}
    {w w' : World Rows Ans Err α D W K C ι} {ls : List (Label Ans O Err C ι)} {i : ι} {n : Nat}
    (hn : (w.prog i).EndsWithin n) (h : w.run E check ls = some w') :
    (ls.countP fun l => decide (l.thread = i)) ≤ n := by
  induction ls generalizing w n with
  | nil => exact Nat.zero_le _
  | cons l ls ih =>
    simp only [World.run] at h
    split at h
    · obtain ⟨w₁, h₁, h₂⟩ := Option.bind_eq_some_iff.mp h
      obtain ⟨m, hm, -, rfl⟩ := step_cases h₁
      by_cases hi : l.thread = i
      · subst hi
        obtain ⟨k, rfl, hnext⟩ := hn.move hm
        rw [List.countP_cons_of_pos (by simp)]
        exact Nat.succ_le_succ (ih (by rw [after_prog_self]; exact hnext) h₂)
      · rw [List.countP_cons_of_neg (by simpa using hi)]
        exact ih (by rw [after_prog_of_ne (Ne.symm hi)]; exact hn) h₂
    · cases h

variable [Fintype ι]

/-- **Runs are finite.**  A run has no more steps than its clients have moves. -/
theorem run_length_le {check : World Rows Ans Err α D W K C ι → Label Ans O Err C ι → Bool}
    {w w' : World Rows Ans Err α D W K C ι} {ls : List (Label Ans O Err C ι)} {b : ι → Nat}
    (hb : ∀ i, (w.prog i).EndsWithin (b i)) (h : w.run E check ls = some w') :
    ls.length ≤ ∑ i, b i := by
  induction ls generalizing w b with
  | nil => exact Nat.zero_le _
  | cons l ls ih =>
    simp only [World.run] at h
    split at h
    · obtain ⟨w₁, h₁, h₂⟩ := Option.bind_eq_some_iff.mp h
      obtain ⟨m, hm, -, rfl⟩ := step_cases h₁
      obtain ⟨k, hk, hnext⟩ := (hb l.thread).move hm
      have hlen := ih (b := Function.update b l.thread k) (fun i => ?_) h₂
      · have hsum : ∑ i, b i = ∑ i, Function.update b l.thread k i + 1 := by
          rw [Finset.sum_update_of_mem (Finset.mem_univ _), ← Finset.sum_erase_add _ _
            (Finset.mem_univ l.thread), Finset.erase_eq, hk]
          omega
        rw [List.length_cons, hsum]
        omega
      · by_cases hi : i = l.thread
        · subst hi
          rw [after_prog_self, Function.update_self]
          exact hnext
        · rw [after_prog_of_ne hi, Function.update_of_ne hi]
          exact hb i
    · cases h

end EndsWithin

/-! ### Transactions are left -/

/-- While no control statement fails from outside, the program ends with `T` of its result and
    of whether it is inside a transaction then. -/
def Prog.Leaves (T : Bool → Except Err α → Prop) : Bool → Prog Rows Ans Err α → Prop
  | b, .ret a => T b (.ok a)
  | b, .throw e => T b (.error e)
  | b, .stmt _ ok err => (∀ r, Leaves T b (ok r)) ∧ ∀ e, Leaves T b (err e)
  | b, .ask _ k => ∀ x, Leaves T b (k x)
  | false, .control .beginTx ok _ => Leaves T true ok
  | true, .control .beginTx _ _ => False
  | _, .control .commit ok _ => Leaves T false ok
  | _, .control .rollback ok _ => Leaves T false ok

/-- Outside transactions, whatever the result. -/
def Prog.Left (b : Bool) (_ : Except Err α) : Prop := b = false

section Leaves

variable {T : Bool → Except Err α → Prop} {b : Bool} {p : Prog Rows Ans Err α}

@[simp] theorem leaves_ret {a : α} :
    (Prog.ret a : Prog Rows Ans Err α).Leaves T b ↔ T b (.ok a) := by
  cases b <;> exact Iff.rfl

@[simp] theorem leaves_throw {e : Err} :
    (Prog.throw e : Prog Rows Ans Err α).Leaves T b ↔ T b (.error e) := by
  cases b <;> exact Iff.rfl

theorem Prog.Leaves.andThen {U : Bool → Except Err β → Prop} {f : α → Prog Rows Ans Err β}
    {h : Err → Prog Rows Ans Err β} (hp : p.Leaves T b)
    (hf : ∀ b a, T b (.ok a) → (f a).Leaves U b)
    (hh : ∀ b e, T b (.error e) → (h e).Leaves U b) : (p.andThen f h).Leaves U b := by
  induction p generalizing b with
  | ret a => exact hf b a (leaves_ret.mp hp)
  | throw e => exact hh b e (leaves_throw.mp hp)
  | stmt s ok err ihok iherr =>
    cases b <;> exact ⟨fun r => ihok r (hp.1 r), fun e => iherr e (hp.2 e)⟩
  | ask a k ih => cases b <;> exact fun x => ih x (hp x)
  | control c ok err ihok iherr =>
    cases b with
    | false => cases c <;> exact ihok hp
    | true =>
      cases c with
      | beginTx => exact hp
      | commit => exact ihok hp
      | rollback => exact ihok hp

/-- A program that opens no transaction need not leave one. -/
theorem Prog.Talks.leaves {φ : S → Prop} {ψ : A → Prop} (hp : p.Talks φ ψ) :
    p.Leaves Prog.Left false := by
  induction p with
  | ret a => exact leaves_ret.mpr rfl
  | throw e => exact leaves_throw.mpr rfl
  | stmt s ok err ihok iherr => exact ⟨fun r => ihok r (hp.2.1 r), fun e => iherr e (hp.2.2 e)⟩
  | control c ok err ihok iherr => exact hp.elim
  | ask a k ih => exact fun x => ih x (hp.2 x)

end Leaves

/-- Whose transaction a connection is in: of `me`, or nobody's. -/
def Session.Of (me : ι) (σ : Session ι W) (b : Bool) : Prop :=
  σ.opener = if b then some me else none

/-- A move keeps a program on its way. -/
theorem Prog.Leaves.move {E : Engine Rows Ans D O W K Err} {T : Bool → Except Err α → Prop} {b : Bool}
    {p : Prog Rows Ans Err α} {me : ι} {env : Env O Err Ans} {σ : Session ι W} {d : D}
    {m : Move Rows Ans Err α ι W K} (h : p.Leaves T b) (hσ : σ.Of me b) (hf : env.fault = none)
    (hm : p.move E me env σ d = some m) : ∃ b', m.session.Of me b' ∧ m.next.Leaves T b' := by
  cases p with
  | ret a => cases hm
  | throw e => cases hm
  | ask a k =>
    obtain rfl := by simpa using hm.symm
    exact ⟨b, hσ, by cases b <;> exact h _⟩
  | stmt s ok err =>
    rw [move_stmt E me env d hf] at hm
    obtain rfl := by simpa using hm.symm
    have hok : ∀ r, (ok r).Leaves T b := by cases b <;> exact h.1
    have herr : ∀ e, (err e).Leaves T b := by cases b <;> exact h.2
    refine ⟨b, ?_⟩
    unfold Engine.statement Session.Of at *
    cases σ with
    | failed i => exact ⟨hσ, herr _⟩
    | idle =>
      simp only
      split
      · exact ⟨hσ, hok _⟩
      · exact ⟨hσ, herr _⟩
    | active i pending =>
      simp only
      split
      · exact ⟨hσ, hok _⟩
      · exact ⟨hσ, herr _⟩
  | control c ok err =>
    rw [move_control E me env d hf] at hm
    obtain rfl := by simpa using hm.symm
    cases b with
    | false =>
      -- Nobody's transaction is open, so the connection is idle.
      have hidle : σ = .idle := by
        cases σ with
        | idle => rfl
        | active i pending => cases hσ
        | failed i => cases hσ
      subst hidle
      cases c with
      | beginTx => exact ⟨true, rfl, h⟩
      | commit => exact ⟨false, rfl, h⟩
      | rollback => exact ⟨false, rfl, h⟩
    | true =>
      cases c with
      | beginTx => exact h.elim
      | commit => cases σ <;> exact ⟨false, rfl, h⟩
      | rollback => cases σ <;> exact ⟨false, rfl, h⟩

section Attended

variable {E : Engine Rows Ans D O W K Err} {w w' : World Rows Ans Err α D W K C ι}
variable {l : Label Ans O Err C ι}

/-- Every client that is inside a transaction is going to leave it. -/
def Attended (w : World Rows Ans Err α D W K C ι) : Prop :=
  ∀ i, ((∀ c, (w.session c).opener ≠ some i) → (w.prog i).Leaves Prog.Left false) ∧
    ∀ c, (w.session c).opener = some i → (w.prog i).Leaves Prog.Left true

/-- A client inside a transaction is not done. -/
theorem Attended.not_done (h : Attended w) {c : C} {i : ι} (hc : (w.session c).opener = some i) :
    ¬ (w.prog i).Done := by
  have hleaves := (h i).2 c hc
  generalize w.prog i = p at hleaves
  cases p with
  | ret a => cases leaves_ret.mp hleaves
  | throw e => cases leaves_throw.mp hleaves
  | stmt s ok err => exact id
  | control c ok err => exact id
  | ask a k => exact id

theorem attended_init {d : D} {prog : ι → Prog Rows Ans Err α}
    (h : ∀ i, (prog i).Leaves Prog.Left false) :
    Attended (World.init d prog : World Rows Ans Err α D W K C ι) :=
  fun i => ⟨fun _ => h i, fun _ hc => nomatch hc⟩

variable [DecidableEq ι] [DecidableEq C] [DecidableEq K]

/-- **Step lemma.**  A step without a fault. -/
theorem Attended.step (h : Attended w) (hex : Exclusive w l) (hf : l.env.fault = none)
    (hs : w.step E l = some w') : Attended w' := by
  obtain ⟨m, hm, -, rfl⟩ := step_cases hs
  -- The program that moves, by whether its connection is in its transaction.
  have hof : ∃ b, (w.session l.conn).Of l.thread b ∧
      (w.prog l.thread).Leaves Prog.Left b := by
    rcases hex.session with hidle | hown
    · refine ⟨false, by rw [hidle]; rfl, (h l.thread).1 fun c hc => ?_⟩
      rw [hex.2 c hc, hidle] at hc
      cases hc
    · exact ⟨true, hown, (h l.thread).2 _ hown⟩
  obtain ⟨b, hσ, hleaves⟩ := hof
  obtain ⟨b', hσ', hnext⟩ := hleaves.move hσ hf hm
  have hopener : m.session.opener = none ∨ m.session.opener = some l.thread := by
    cases b' with
    | false => exact Or.inl hσ'
    | true => exact Or.inr hσ'
  intro i
  by_cases hi : i = l.thread
  · subst hi
    rw [after_prog_self]
    cases b' with
    | false =>
      refine ⟨fun _ => hnext, fun c hc => absurd hc (no_transaction_after hex hσ' c)⟩
    | true =>
      exact ⟨fun hno => absurd (by rw [after_session_self]; exact hσ') (hno l.conn),
        fun _ _ => hnext⟩
  · rw [after_prog_of_ne hi]
    have hsame := after_opener (E := E) hi hex hopener
    exact ⟨fun hno => (h i).1 fun c hc => hno c ((hsame c).mpr hc),
      fun c hc => (h i).2 c ((hsame c).mp hc)⟩

end Attended

/-! ### No deadlock -/

/-- A transaction that has written nothing sends `s` on `d`: the statement locks `guard`, or
    it neither locks nor writes. -/
def LocksFirst (E : Engine Rows Ans D O W K Err) (guard : K) (d : D) (ws : List W) (s : S) : Prop :=
  ws ≠ [] ∨ ∀ o r ws', (E.exec s o d).result = .ok (r, ws') →
    guard ∈ (E.exec s o d).locks ∨ (E.exec s o d).locks = [] ∧ ws' = []

section Guard

variable {E : Engine Rows Ans D O W K Err} {value : (k : K) → D → V k} {guard : K}

/-- A transaction that holds a lock holds `guard`. -/
theorem Replay.guarded {c : Contract Ans S D W O Err γ} {Q : Stage D W → γ → Except Err α → Prop}
    {d : D} {k p : Prog Rows Ans Err α} {ws : List W} {held : List K} {g : γ}
    (h : Replay E value c.adm d k ws held p) (hk : k.Keeps E c Q (.inside d []) g)
    (hsend : ∀ g d ws s, c.send g d ws s → LocksFirst E guard d ws s) :
    guard ∈ held ∨ held = [] ∧ ws = [] := by
  induction h with
  | start => exact Or.inr ⟨rfl, rfl⟩
  | @stmt ws held ws' s o r ok err hrun hx hadm hpin ih =>
    rcases ih with hg | ⟨rfl, rfl⟩
    · exact Or.inl (List.mem_append_left _ hg)
    · have hkeeps := hrun.txRun.keeps hk
      have hfirst := (hsend _ _ _ _ hkeeps.1).resolve_left (fun h => h rfl)
      rcases hfirst o r ws' hx with hg | ⟨hlocks, hws⟩
      · exact Or.inl (by simpa using hg)
      · refine Or.inr ⟨?_, by simpa using hws⟩
        rw [List.nil_append, Engine.apply_nil, hlocks]
  | ask x _ ih => exact ih

variable {c : ι → Contract Ans S D W O Err γ} {R : ι → γ → Except Err α → Prop}
variable {J : D → List (ι × W) → (ι → γ) → Prop} {w : World Rows Ans Err α D W K C ι}
variable {ts : ι → Phase × Prog Rows Ans Err α} {G : ι → γ}

/-- Whoever holds a lock holds `guard`. -/
def Guarded (guard : K) (w : World Rows Ans Err α D W K C ι) : Prop :=
  ∀ lk conn, w.holder lk = some conn → w.holder guard = some conn

variable [DecidableEq ι] {w' : World Rows Ans Err α D W K C ι} {l : Label Ans O Err C ι}

/-- The locks a client needs next: none that its connection keeps, `guard`, or more of them. -/
theorem Modular.locks (h : Modular E value c R J w ts G) (hJ : Preserved E c J)
    (hsend : ∀ i g d ws s, (c i).send g d ws s → LocksFirst E guard d ws s) (hex : Exclusive w l)
    {m : Move Rows Ans Err α ι W K}
    (hm : (w.prog l.thread).move E l.thread l.env (w.session l.conn) w.db = some m) :
    (∀ i pending, m.session ≠ .active i pending) ∨ m.locks = [] ∨ guard ∈ m.locks ∨
      w.holder guard = some l.conn := by
  have hfol := h.atomically.follows l.thread
  have hkeeps := h.keeps l.thread
  generalize (ts l.thread).1 = φ, (ts l.thread).2 = q at hfol hkeeps
  generalize hp : w.prog l.thread = p at hm hfol
  cases p with
  | ret a => cases hm
  | throw e => cases hm
  | ask a k =>
    obtain rfl := by simpa using hm.symm
    exact Or.inr (Or.inl rfl)
  | control ctl ok err => exact Or.inr (Or.inl (locks_control hm))
  | stmt s ok err =>
    cases hfol with
    | free hno _ =>
      -- Outside transactions nothing stays locked.
      have hidle : w.session l.conn = .idle := hex.session.resolve_right (hno l.conn)
      rw [hidle] at hm
      refine Or.inl fun i pending hactive => ?_
      rcases move_stmt_idle_cases hm with ⟨e, -, rfl⟩ | ⟨e, -, -, rfl⟩ | ⟨r, ws, -, -, rfl⟩ <;>
        cases hactive
    | inside conn pending held k err' hc _ _ hheld hrep _ =>
      obtain rfl : conn = l.conn := hex.2 conn (by rw [hc]; rfl)
      rw [hp] at hrep
      rcases hrep.guarded (hkeeps.1 w.db (hJ.know _ _ _ _ h.inv)) (hsend _) with hg | ⟨-, hws⟩
      · exact Or.inr (Or.inr (Or.inr ((hheld guard).mpr hg)))
      · -- The transaction's first lock.
        have hrun := hrep.txRun.keeps (hkeeps.1 w.db (hJ.know _ _ _ _ h.inv))
        have hfirst := (hsend _ _ _ _ _ hrun.1).resolve_left (fun hne => hne hws)
        rw [hc] at hm
        rcases move_stmt_active_cases hm with ⟨e, -, rfl⟩ | ⟨e, -, -, rfl⟩ | ⟨r, ws, -, hx, rfl⟩
        · exact Or.inl fun i pending' hactive => by cases hactive
        · exact Or.inl fun i pending' hactive => by cases hactive
        · rw [hws] at hx ⊢
          rcases hfirst _ r ws hx with hg | ⟨hlocks, -⟩
          · exact Or.inr (Or.inr (Or.inl hg))
          · exact Or.inr (Or.inl hlocks)
    | doomed conn hc _ hok => rw [hp] at hok; exact hok.elim

variable [DecidableEq C] [DecidableEq K]

/-- **Step lemma.** -/
theorem Modular.guarded_step (h : Modular E value c R J w ts G) (hJ : Preserved E c J)
    (hsend : ∀ i g d ws s, (c i).send g d ws s → LocksFirst E guard d ws s) (hex : Exclusive w l)
    (hg : Guarded guard w) (hs : w.step E l = some w') : Guarded guard w' := by
  obtain ⟨m, hm, hf, rfl⟩ := step_cases hs
  intro lk conn hlk
  by_cases hc : conn = l.conn
  · subst hc
    rw [after_holder] at hlk ⊢
    unfold holderAfter at hlk ⊢
    cases hσ : m.session with
    | idle => simp only [hσ] at hlk; split at hlk <;> simp_all
    | failed i => simp only [hσ] at hlk; split at hlk <;> simp_all
    | active i pending =>
      simp only [hσ] at hlk ⊢
      by_cases hguard : guard ∈ m.locks
      · exact if_pos hguard
      · rw [if_neg hguard]
        rcases h.locks hJ hsend hex hm with hno | hnil | hmem | hheld
        · exact absurd hσ (hno i pending)
        · rw [hnil, if_neg List.not_mem_nil] at hlk
          exact hg lk _ hlk
        · exact absurd hmem hguard
        · exact hheld
  · rw [after_holder_of_ne hf hc] at hlk ⊢
    exact hg lk conn hlk

/-- **No deadlock.**  While some client is not done, some client can move, in any
    surroundings. -/
theorem Modular.can_step (h : Modular E value c R J w ts G) (hg : Guarded guard w)
    (ha : Attended w) {own : ι → C} (hown : OwnTransactions own w)
    {i : ι}
    (hi : ¬ (w.prog i).Done) :
    ∃ k, ¬ (w.prog k).Done ∧ ∀ env, ∃ w', w.step E ⟨k, own k, env⟩ = some w' := by
  -- Whoever holds the guard can go on; if nobody does, nothing is locked.
  have hgo : ∀ k, ¬ (w.prog k).Done → (∀ lk, w.holder lk = none ∨ w.holder lk = some (own k)) →
      ∃ k, ¬ (w.prog k).Done ∧ ∀ env, ∃ w', w.step E ⟨k, own k, env⟩ = some w' := by
    intro k hk hfree
    refine ⟨k, hk, fun env => ?_⟩
    obtain ⟨m, hm⟩ : ∃ m, (w.prog k).move E k env (w.session (own k)) w.db = some m :=
      move_of_not_done hk
    exact ⟨_, step_eq hm fun lk _ => hfree lk⟩
  cases hguard : w.holder guard with
  | none =>
    refine hgo i hi fun lk => Or.inl ?_
    cases hlk : w.holder lk with
    | none => rfl
    | some conn => rw [hg lk conn hlk] at hguard; cases hguard
  | some conn =>
    obtain ⟨k, pending, hsess⟩ := h.atomically.held guard conn hguard
    have hopen : (w.session conn).opener = some k := by rw [hsess]; rfl
    obtain rfl : conn = own k := hown conn k hopen
    refine hgo k (ha.not_done hopen) fun lk => ?_
    cases hlk : w.holder lk with
    | none => exact Or.inl rfl
    | some conn' =>
      rw [hg lk conn' hlk, Option.some.injEq] at hguard
      exact Or.inr (by rw [hguard])

end Guard

/-! ### Clients that only read -/

/-- Without faults the program reads, on databases with `J`, and returns `a`. -/
def Prog.Answers (E : Engine Rows Ans D O W K Err) (J : D → Prop) (a : α) : Prog Rows Ans Err α → Prop
  | .ret a' => a' = a
  | .throw _ => False
  | .stmt s ok _ => ∀ o d, J d → ∃ r, E.exec s o d = ⟨[], .ok (r, [])⟩ ∧ Answers E J a (ok r)
  | .ask q k => ∀ x, E.note q x = [] ∧ Answers E J a (k x)
  | .control .. => False

section Answers

variable {E : Engine Rows Ans D O W K Err} {J : D → Prop} {a : α} {p : Prog Rows Ans Err α}

theorem Prog.Answers.andThen {a' : β} {f : α → Prog Rows Ans Err β} {h : Err → Prog Rows Ans Err β}
    (hp : p.Answers E J a) (hf : (f a).Answers E J a') : (p.andThen f h).Answers E J a' := by
  induction p with
  | ret b =>
    obtain rfl : b = a := hp
    exact hf
  | throw e => exact hp.elim
  | stmt s ok err ihok _ =>
    intro o d hd
    obtain ⟨r, hexec, hr⟩ := hp o d hd
    exact ⟨r, hexec, ihok r hr⟩
  | ask q k ih => exact fun x => ⟨(hp x).1, ih x (hp x).2⟩
  | control c ok err _ _ => exact hp.elim

theorem Prog.Answers.mono {J' : D → Prop} (h : p.Answers E J a) (hJ : ∀ d, J' d → J d) :
    p.Answers E J' a := by
  induction p with
  | ret b => exact h
  | throw e => exact h
  | stmt s ok err ihok _ =>
    intro o d hd
    obtain ⟨r, hexec, hr⟩ := h o d (hJ d hd)
    exact ⟨r, hexec, ihok r hr⟩
  | ask q k ih => exact fun x => ⟨(h x).1, ih x (h x).2⟩
  | control c ok err _ _ => exact h

theorem Prog.Answers.bind {a' : β} {f : α → Prog Rows Ans Err β} (hp : p.Answers E J a)
    (hf : (f a).Answers E J a') : (p.bind f).Answers E J a' :=
  hp.andThen hf

theorem Prog.Answers.tryCatch {h : Err → Prog Rows Ans Err α} (hp : p.Answers E J a) :
    (p.tryCatch h).Answers E J a :=
  hp.andThen rfl

/-- What only reads keeps every contract that lets it stay and disturbs no statement. -/
theorem Prog.Answers.keeps {c : Contract Ans S D W O Err γ}
    {Q : Stage D W → γ → Except Err α → Prop} {g : γ} (h : p.Answers E J a)
    (hknow : ∀ d, c.know g d → J d) (hstay : ∀ d, c.know g d → c.move g d [] g)
    (hcalm : ∀ d env, c.env g d env → env.fault = none) (hQ : Q .free g (.ok a)) :
    p.Keeps E c Q .free g := by
  induction p with
  | ret b =>
    obtain rfl : b = a := h
    exact keeps_ret.mpr hQ
  | throw e => exact h.elim
  | ask q k ih =>
    intro d env _ hk
    obtain ⟨hnote, hnext⟩ := h (env.answer q)
    rw [hnote]
    exact ⟨g, hstay d hk, ih _ hnext⟩
  | control c ok err _ _ => exact h.elim
  | stmt s ok err ihok _ =>
    intro d env he hk
    obtain ⟨r, hexec, hr⟩ := h env.fresh d (hknow d hk)
    have hfault := hcalm d env he
    refine ⟨fun e hf => ?_, fun _ => ⟨fun r' ws hx => ?_, fun e hx => ?_⟩⟩
    · rw [hfault] at hf
      cases hf
    · rw [hexec] at hx
      obtain ⟨rfl, rfl⟩ := Prod.mk.inj (Except.ok.inj hx)
      exact ⟨g, hstay d hk, ihok _ hr⟩
    · rw [hexec] at hx
      cases hx

variable {own : ι → C} {i : ι} {w w' : World Rows Ans Err α D W K C ι} {l : Label Ans O Err C ι}

/-- Client `i` is outside transactions, on its way to answer `a`. -/
def Reader (E : Engine Rows Ans D O W K Err) (J : D → Prop) (a : α) (own : ι → C) (i : ι)
    (w : World Rows Ans Err α D W K C ι) : Prop :=
  w.session (own i) = .idle ∧ (w.prog i).Answers E J a

/-- It answers nothing else. -/
theorem Reader.result (h : Reader E J a own i w) {r : Except Err α}
    (hr : (w.prog i).result = some r) : r = .ok a := by
  rcases Prog.result_eq_some hr with ⟨a', ha, rfl⟩ | ⟨e, he, -⟩
  · have hanswers := h.2
    rw [ha] at hanswers
    exact congrArg Except.ok hanswers
  · have hanswers := h.2
    rw [he] at hanswers
    exact hanswers.elim

/-- What it does next: it reads on, and waits for nobody. -/
theorem Prog.Answers.move {me : ι} {env : Env O Err Ans} {d : D} {m : Move Rows Ans Err α ι W K}
    (h : p.Answers E J a) (hd : J d) (hf : env.fault = none)
    (hm : p.move E me env .idle d = some m) :
    m.locks = [] ∧ m.session = .idle ∧ m.next.Answers E J a := by
  cases p with
  | ret a => cases hm
  | throw e => cases hm
  | ask q k =>
    obtain rfl := by simpa using hm.symm
    exact ⟨rfl, rfl, (h _).2⟩
  | control c ok err => exact h.elim
  | stmt s ok err =>
    obtain ⟨r, hexec, hr⟩ := h env.fresh d hd
    have hresult : (E.exec s env.fresh d).result = .ok (r, []) := by rw [hexec]
    rw [move_stmt E me env d hf, Option.some.injEq, statement_idle_ok E me d hresult] at hm
    subst hm
    exact ⟨by rw [hexec], rfl, hr⟩

variable [DecidableEq ι] [DecidableEq C] [DecidableEq K]

/-- A client on a connection of its own that has not been served yet. -/
theorem reader_of_untouched {P : World Rows Ans Err α D W K C ι → Label Ans O Err C ι → Prop}
    {d₀ : D} {prog : ι → Prog Rows Ans Err α} (hown : Function.Injective own)
    (h : Reaches E (fun w l => P w l ∧ Dedicated own l) (World.init d₀ prog) w)
    (hi : ∀ w l, P w l → l.thread ≠ i) (hp : (prog i).Answers E J a) : Reader E J a own i w := by
  have hnone : ∀ c, ((World.init d₀ prog : World Rows Ans Err α D W K C ι).session c).opener ≠
      some i := fun c hc => nomatch hc
  obtain ⟨hprog, hno⟩ := untouched (fun _ _ hP => hi _ _ hP.1) hnone h
  have howner := ownTransactions_of_dedicated ownTransactions_init h
  refine ⟨?_, hprog ▸ hp⟩
  -- Whoever had opened a transaction there would be client `i`.
  cases hsess : w.session (own i) with
  | idle => rfl
  | active k pending =>
    have hk : own i = own k := howner _ k (by rw [hsess]; rfl)
    exact absurd (by rw [hsess, hown hk]; rfl) (hno (own i))
  | failed k =>
    have hk : own i = own k := howner _ k (by rw [hsess]; rfl)
    exact absurd (by rw [hsess, hown hk]; rfl) (hno (own i))

/-- **Step lemma.**  Its own steps, without faults, and all steps of others keep it on its
    way. -/
theorem Reader.step (h : Reader E J a own i w) (hown : Function.Injective own)
    (hl : Dedicated own l) (hd : J w.db) (hf : l.thread = i → l.env.fault = none)
    (hs : w.step E l = some w') : Reader E J a own i w' := by
  obtain ⟨m, hm, -, rfl⟩ := step_cases hs
  by_cases hi : i = l.thread
  · subst hi
    rw [hl, h.1] at hm
    obtain ⟨-, hsess, hnext⟩ := h.2.move hd (hf rfl) hm
    exact ⟨by rw [← hl, after_session_self]; exact hsess, by rw [after_prog_self]; exact hnext⟩
  · have hconn : own i ≠ l.conn := fun heq => hi (hown (heq.trans hl))
    exact ⟨by rw [after_session_of_ne hconn]; exact h.1, by rw [after_prog_of_ne hi]; exact h.2⟩

/-- Until it is done it can move. -/
theorem Reader.can_step (h : Reader E J a own i w) (hd : J w.db) {env : Env O Err Ans}
    (hf : env.fault = none) (hi : ¬ (w.prog i).Done) :
    ∃ w', w.step E ⟨i, own i, env⟩ = some w' := by
  obtain ⟨m, hm⟩ : ∃ m, (w.prog i).move E i env .idle w.db = some m := move_of_not_done hi
  obtain ⟨hlocks, -, -⟩ := h.2.move hd hf hm
  rw [← h.1] at hm
  exact ⟨_, step_eq hm fun lk hlk => by rw [hlocks] at hlk; cases hlk⟩

end Answers

end ReadCommitted
