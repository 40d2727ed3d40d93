import Chronos.ReadCommitted.Engine
import Mathlib.Logic.Function.Basic

namespace ReadCommitted

/-!
# Many clients on one database

A `World` is a committed database with its connections, the locks they hold and the
programs of all clients.  One step (`World.step`) lets one client make its next move on
one connection; it is refused while that move needs a lock another connection holds.
Nothing else orders the clients, so the runs of a world are all the interleavings,
statement by statement.  The `journal` is the list of all committed writes with the
client that made each of them; no move reads it.

Which connection a client uses is part of the step (`Label.conn`): a pool may hand every
statement another connection.  `Exclusive` says that a step respects transactions — it is
not inside a transaction of another client, and stays inside its own; `Dedicated` runs,
where each client has a connection of its own, are always exclusive.
-/

variable {S A : Type} {Rows : S → Type} {Ans : A → Type} {Err α : Type}
variable {D O W K C ι : Type}

/-- The committed database, the connections and the clients. -/
structure World (Rows : S → Type) (Ans : A → Type) (Err α D W K C ι : Type) where
  db : D
  session : C → Session ι W
  holder : K → Option C
  prog : ι → Prog Rows Ans Err α
  journal : List (ι × W)

/-- One step of a run: who moves, on which connection, in which surroundings. -/
structure Label (Ans : A → Type) (O Err C ι : Type) where
  thread : ι
  conn : C
  env : Env O Err Ans

/-- All clients at their start, no transaction open. -/
def World.init (d : D) (prog : ι → Prog Rows Ans Err α) : World Rows Ans Err α D W K C ι where
  db := d
  session := fun _ => .idle
  holder := fun _ => none
  prog := prog
  journal := []

section Step

variable [DecidableEq ι] [DecidableEq C] [DecidableEq K]

/-- The locks after a move on connection `c`: an open transaction adds what it needed and
    keeps what it has, everything else lets go. -/
def holderAfter (holder : K → Option C) (c : C) (locks : List K) (σ : Session ι W) (k : K) :
    Option C :=
  match σ with
  | .active _ _ => if k ∈ locks then some c else holder k
  | _ => if holder k = some c then none else holder k

/-- The world after client `l.thread` has made move `m` on connection `l.conn`. -/
def World.after (E : Engine Rows Ans D O W K Err) (w : World Rows Ans Err α D W K C ι)
    (l : Label Ans O Err C ι) (m : Move Rows Ans Err α ι W K) : World Rows Ans Err α D W K C ι where
  db := E.apply (m.commits.map Prod.snd) w.db
  session := Function.update w.session l.conn m.session
  holder := holderAfter w.holder l.conn m.locks m.session
  prog := Function.update w.prog l.thread m.next
  journal := w.journal ++ m.commits

/-- No other connection holds one of the locks. -/
def World.Free (w : World Rows Ans Err α D W K C ι) (c : C) (locks : List K) : Prop :=
  ∀ k ∈ locks, w.holder k = none ∨ w.holder k = some c

instance (w : World Rows Ans Err α D W K C ι) (c : C) (locks : List K) :
    Decidable (w.Free c locks) :=
  inferInstanceAs (Decidable (∀ k ∈ locks, w.holder k = none ∨ w.holder k = some c))

/-- One step; `none` when the client is done or has to wait for a lock. -/
def World.step (E : Engine Rows Ans D O W K Err) (w : World Rows Ans Err α D W K C ι)
    (l : Label Ans O Err C ι) : Option (World Rows Ans Err α D W K C ι) :=
  match (w.prog l.thread).move E l.thread l.env (w.session l.conn) w.db with
  | none => none
  | some m => if w.Free l.conn m.locks then some (w.after E l m) else none

/-- **What a step can do**: one client makes its next move on one connection, and the move
    had to wait for nobody. -/
theorem step_cases {E : Engine Rows Ans D O W K Err} {w w' : World Rows Ans Err α D W K C ι}
    {l : Label Ans O Err C ι} (h : w.step E l = some w') :
    ∃ m, (w.prog l.thread).move E l.thread l.env (w.session l.conn) w.db = some m ∧
      w.Free l.conn m.locks ∧ w' = w.after E l m := by
  unfold World.step at h
  split at h
  · cases h
  · next m hm =>
    split at h
    · next hf => exact ⟨m, hm, hf, by simpa using h.symm⟩
    · cases h

theorem step_eq {E : Engine Rows Ans D O W K Err} {w : World Rows Ans Err α D W K C ι}
    {l : Label Ans O Err C ι} {m : Move Rows Ans Err α ι W K}
    (hm : (w.prog l.thread).move E l.thread l.env (w.session l.conn) w.db = some m)
    (hf : w.Free l.conn m.locks) : w.step E l = some (w.after E l m) := by
  unfold World.step
  rw [hm]
  exact if_pos hf

/-- What a step commits, with who has written it. -/
def World.commits (E : Engine Rows Ans D O W K Err) (w : World Rows Ans Err α D W K C ι)
    (l : Label Ans O Err C ι) : List (ι × W) :=
  match (w.prog l.thread).move E l.thread l.env (w.session l.conn) w.db with
  | none => []
  | some m => m.commits

theorem step_commits {E : Engine Rows Ans D O W K Err} {w w' : World Rows Ans Err α D W K C ι}
    {l : Label Ans O Err C ι} (h : w.step E l = some w') :
    w'.journal = w.journal ++ w.commits E l := by
  obtain ⟨m, hm, -, rfl⟩ := step_cases h
  unfold World.commits
  rw [hm]
  rfl

/-- A list of steps, executed from left to right, each of which has to pass a check. -/
def World.run (E : Engine Rows Ans D O W K Err)
    (check : World Rows Ans Err α D W K C ι → Label Ans O Err C ι → Bool)
    (w : World Rows Ans Err α D W K C ι) :
    List (Label Ans O Err C ι) → Option (World Rows Ans Err α D W K C ι)
  | [] => some w
  | l :: ls => if check w l then (w.step E l).bind fun w' => w'.run E check ls else none

/-- `w` is reached from `w₀` by steps that all satisfy `P`. -/
inductive Reaches (E : Engine Rows Ans D O W K Err)
    (P : World Rows Ans Err α D W K C ι → Label Ans O Err C ι → Prop)
    (w₀ : World Rows Ans Err α D W K C ι) : World Rows Ans Err α D W K C ι → Prop
  | start : Reaches E P w₀ w₀
  | step {w w' l} : Reaches E P w₀ w → P w l → w.step E l = some w' → Reaches E P w₀ w'

/-- A run may be taken up where another one ended. -/
theorem Reaches.trans {E : Engine Rows Ans D O W K Err}
    {P : World Rows Ans Err α D W K C ι → Label Ans O Err C ι → Prop}
    {w₀ w₁ w₂ : World Rows Ans Err α D W K C ι}
    (h₁ : Reaches E P w₀ w₁) (h₂ : Reaches E P w₁ w₂) : Reaches E P w₀ w₂ := by
  induction h₂ with
  | start => exact h₁
  | step _ hP hs ih => exact ih.step hP hs

theorem Reaches.mono {E : Engine Rows Ans D O W K Err}
    {P Q : World Rows Ans Err α D W K C ι → Label Ans O Err C ι → Prop}
    {w₀ w : World Rows Ans Err α D W K C ι} (hPQ : ∀ w l, P w l → Q w l)
    (h : Reaches E P w₀ w) : Reaches E Q w₀ w := by
  induction h with
  | start => exact .start
  | step _ hP hs ih => exact ih.step (hPQ _ _ hP) hs

/-- An executed list of steps is a run of steps that pass the check. -/
theorem reaches_of_run {E : Engine Rows Ans D O W K Err}
    {P : World Rows Ans Err α D W K C ι → Label Ans O Err C ι → Prop}
    {check : World Rows Ans Err α D W K C ι → Label Ans O Err C ι → Bool}
    {ls : List (Label Ans O Err C ι)} {w₀ w : World Rows Ans Err α D W K C ι}
    (hP : ∀ w, ∀ l ∈ ls, check w l = true → P w l) (h : w₀.run E check ls = some w) :
    Reaches E P w₀ w := by
  induction ls generalizing w₀ with
  | nil =>
    simp only [World.run, Option.some.injEq] at h
    exact h ▸ .start
  | cons l ls ih =>
    unfold World.run at h
    split at h
    · next hcheck =>
      obtain ⟨w₁, h₁, h₂⟩ := Option.bind_eq_some_iff.mp h
      have hfirst := hP w₀ l List.mem_cons_self hcheck
      exact (Reaches.start.step hfirst h₁).trans
        (ih (fun w l' hl' => hP w l' (List.mem_cons_of_mem _ hl')) h₂)
    · cases h

end Step

/-! ### Exclusive steps -/

/-- The step respects transactions: its connection is in no other client's transaction, and
    a client with an open transaction stays on that connection. -/
def Exclusive (w : World Rows Ans Err α D W K C ι) (l : Label Ans O Err C ι) : Prop :=
  (∀ i, (w.session l.conn).opener = some i → i = l.thread) ∧
    ∀ c, (w.session c).opener = some l.thread → c = l.conn

/-- The step runs on the connection dedicated to its client. -/
def Dedicated (own : ι → C) (l : Label Ans O Err C ι) : Prop := l.conn = own l.thread

/-- A move leaves behind no transaction, the one it found, or one of its own client. -/
theorem opener_move {E : Engine Rows Ans D O W K Err} {me : ι} {env : Env O Err Ans}
    {σ : Session ι W} {d : D} {p : Prog Rows Ans Err α} {m : Move Rows Ans Err α ι W K}
    (h : p.move E me env σ d = some m) :
    m.session.opener = none ∨ m.session.opener = σ.opener ∨ m.session.opener = some me := by
  cases p with
  | ret a => cases h
  | throw e => cases h
  | ask a k =>
    obtain rfl := by simpa using h.symm
    exact Or.inr (Or.inl rfl)
  | stmt s ok err =>
    cases σ with
    | idle =>
      rcases move_stmt_idle_cases h with ⟨e, -, rfl⟩ | ⟨e, -, -, rfl⟩ | ⟨r, ws, -, -, rfl⟩ <;> simp
    | active i pending =>
      rcases move_stmt_active_cases h with ⟨e, -, rfl⟩ | ⟨e, -, -, rfl⟩ | ⟨r, ws, -, -, rfl⟩ <;> simp
    | failed i =>
      obtain ⟨e, rfl⟩ := move_stmt_failed_cases h
      simp
  | control c ok err =>
    rcases move_control_cases h with ⟨e, -, rfl⟩ | ⟨-, rfl⟩
    · cases c <;> simp [Session.afterFault]
    · cases c <;> cases σ <;> simp [Engine.transact]

/-- A client that makes no step stays where it is, outside transactions. -/
theorem untouched [DecidableEq ι] [DecidableEq C] [DecidableEq K] {E : Engine Rows Ans D O W K Err}
    {P : World Rows Ans Err α D W K C ι → Label Ans O Err C ι → Prop}
    {w₀ w : World Rows Ans Err α D W K C ι} {i : ι} (hi : ∀ w l, P w l → l.thread ≠ i)
    (h₀ : ∀ c, (w₀.session c).opener ≠ some i) (h : Reaches E P w₀ w) :
    w.prog i = w₀.prog i ∧ ∀ c, (w.session c).opener ≠ some i := by
  induction h with
  | start => exact ⟨rfl, h₀⟩
  | @step w w' l _ hP hs ih =>
    obtain ⟨m, hm, -, rfl⟩ := step_cases hs
    refine ⟨?_, fun c hc => ?_⟩
    · rw [← ih.1]
      exact Function.update_of_ne (hi w l hP).symm _ _
    · by_cases hconn : c = l.conn
      · subst hconn
        simp only [World.after, Function.update_self] at hc
        rcases opener_move hm with ho | ho | ho
        · rw [ho] at hc; cases hc
        · exact ih.2 _ (ho ▸ hc)
        · rw [ho, Option.some.injEq] at hc
          exact hi w l hP hc
      · simp only [World.after, Function.update_of_ne hconn] at hc
        exact ih.2 c hc

section Dedicated

variable [DecidableEq ι] [DecidableEq C] [DecidableEq K]
variable {E : Engine Rows Ans D O W K Err} {own : ι → C}
variable {P : World Rows Ans Err α D W K C ι → Label Ans O Err C ι → Prop}
variable {d₀ : D} {prog : ι → Prog Rows Ans Err α} {w₀ w : World Rows Ans Err α D W K C ι}

/-- Transactions are open only on their clients' own connections. -/
def OwnTransactions (own : ι → C) (w : World Rows Ans Err α D W K C ι) : Prop :=
  ∀ c i, (w.session c).opener = some i → c = own i

omit [DecidableEq ι] [DecidableEq C] [DecidableEq K] in
theorem ownTransactions_init :
    OwnTransactions own (World.init d₀ prog : World Rows Ans Err α D W K C ι) :=
  fun _ _ hi => nomatch hi

theorem ownTransactions_of_dedicated (h₀ : OwnTransactions own w₀)
    (h : Reaches E (fun w l => P w l ∧ Dedicated own l) w₀ w) : OwnTransactions own w := by
  induction h with
  | start => exact h₀
  | @step w w' l _ hP hs ih =>
    obtain ⟨m, hm, -, rfl⟩ := step_cases hs
    intro c i hi
    by_cases hc : c = l.conn
    · subst hc
      simp only [World.after, Function.update_self] at hi
      rcases opener_move hm with ho | ho | ho
      · rw [ho] at hi; cases hi
      · exact ih _ _ (ho ▸ hi)
      · rw [ho, Option.some.injEq] at hi
        exact hi ▸ hP.2
    · simp only [World.after, Function.update_of_ne hc] at hi
      exact ih _ _ hi

omit [DecidableEq ι] [DecidableEq C] [DecidableEq K] in
/-- A step on its client's own connection respects transactions. -/
theorem OwnTransactions.exclusive (h : OwnTransactions own w) (hown : Function.Injective own)
    {l : Label Ans O Err C ι} (hl : Dedicated own l) : Exclusive w l := by
  refine ⟨fun i hi => ?_, fun c hc => ?_⟩
  · exact hown ((h _ _ hi).symm.trans hl)
  · rw [h _ _ hc]
    exact hl.symm

/-- **Dedicated runs are exclusive**, from wherever transactions are on own connections. -/
theorem exclusive_from (hown : Function.Injective own) (h₀ : OwnTransactions own w₀)
    (h : Reaches E (fun w l => P w l ∧ Dedicated own l) w₀ w) :
    Reaches E (fun w l => P w l ∧ Exclusive w l) w₀ w := by
  induction h with
  | start => exact .start
  | step hr hP hs ih =>
    exact ih.step ⟨hP.1, (ownTransactions_of_dedicated h₀ hr).exclusive hown hP.2⟩ hs

theorem exclusive_of_dedicated (hown : Function.Injective own)
    (h : Reaches E (fun w l => P w l ∧ Dedicated own l) (World.init d₀ prog) w) :
    Reaches E (fun w l => P w l ∧ Exclusive w l) (World.init d₀ prog) w :=
  exclusive_from hown ownTransactions_init h

end Dedicated

end ReadCommitted
