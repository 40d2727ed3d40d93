import Chronos.ReadCommitted.Prog

namespace ReadCommitted

/-!
# One session of a READ COMMITTED database

`Engine` is what the rest of the library needs to know about a database: what one data
statement answers and writes on a given database (`exec`), which lockable resources it
needs, and how a write changes a database (`write`).

A connection is in one of three states (`Session`): outside a transaction, inside one
(with the writes it has not committed yet), or inside one that an error has aborted.
`Prog.move` is the next move of one client on one connection.  It follows PostgreSQL:

* outside a transaction a statement commits by itself;
* inside, a statement sees the committed database with the transaction's own writes on
  top, and its writes stay private until `COMMIT`;
* an error aborts the transaction: its writes are dropped, every further statement fails,
  and `COMMIT` then behaves as `ROLLBACK`;
* `BEGIN` inside a transaction and `COMMIT`/`ROLLBACK` outside one are warnings;
* what a question leaves with another service is there at once, whatever the transaction.

`runAlone` iterates moves of a single client that nobody disturbs.
-/

/-- What one data statement does on one database: the resources it must be able to lock
    (it waits while another transaction holds one), and its error, or its rows and the
    writes it makes. -/
structure Outcome (R W K Err : Type) where
  locks : List K
  result : Except Err (R × List W)

/-- A database as a client sees it, one statement at a time.  `exec s o d` runs `s` on `d`;
    `o` is what the server draws itself (a fresh id).  `note a x` is what remains of question
    `a` when its answer is `x`: what another service has stored, where it is kept with the
    tables. -/
structure Engine {S A : Type} (Rows : S → Type) (Ans : A → Type) (D O W K Err : Type) where
  exec : (s : S) → O → D → Outcome (Rows s) W K Err
  write : W → D → D
  aborted : Err
  note : (a : A) → Ans a → List W

/-- What the surroundings contribute to one move: the server's draw, an error from outside
    (`none`: the statement is not disturbed), and the answers to questions. -/
structure Env {A : Type} (O Err : Type) (Ans : A → Type) where
  fresh : O
  fault : Option Err
  answer : (a : A) → Ans a

/-- The state of a connection.  A transaction remembers which client opened it and, with
    each pending write, which client made it. -/
inductive Session (ι W : Type)
  | idle
  | active (opener : ι) (pending : List (ι × W))
  | failed (opener : ι)

namespace Session

variable {ι W : Type}

/-- Who opened the transaction on this connection, if there is one. -/
def opener : Session ι W → Option ι
  | idle => none
  | active i _ => some i
  | failed i => some i

/-- The session after an error: an open transaction is aborted. -/
def abort : Session ι W → Session ι W
  | idle => idle
  | active i _ => failed i
  | failed i => failed i

@[simp] theorem opener_idle : (idle : Session ι W).opener = none := rfl
@[simp] theorem opener_active (i : ι) (p : List (ι × W)) : (active i p).opener = some i := rfl
@[simp] theorem opener_failed (i : ι) : (failed i : Session ι W).opener = some i := rfl
@[simp] theorem abort_idle : (idle : Session ι W).abort = idle := rfl
@[simp] theorem abort_active (i : ι) (p : List (ι × W)) : (active i p).abort = failed i := rfl
@[simp] theorem abort_failed (i : ι) : (failed i : Session ι W).abort = failed i := rfl

@[simp] theorem opener_abort (σ : Session ι W) : σ.abort.opener = σ.opener := by
  cases σ <;> rfl

end Session

variable {S A : Type} {Rows : S → Type} {Ans : A → Type} {Err α : Type}
variable {D O W K ι : Type}

/-- Apply writes in order. -/
def Engine.apply (E : Engine Rows Ans D O W K Err) (ws : List W) (d : D) : D :=
  ws.foldl (fun d w => E.write w d) d

@[simp] theorem Engine.apply_nil (E : Engine Rows Ans D O W K Err) (d : D) : E.apply [] d = d := rfl
@[simp] theorem Engine.apply_cons (E : Engine Rows Ans D O W K Err) (w : W) (ws : List W) (d : D) :
    E.apply (w :: ws) d = E.apply ws (E.write w d) := rfl
theorem Engine.apply_append (E : Engine Rows Ans D O W K Err) (ws ws' : List W) (d : D) :
    E.apply (ws ++ ws') d = E.apply ws' (E.apply ws d) := by
  simp [Engine.apply, List.foldl_append]

/-- The next move of a client: the locks it needs, the session it leaves behind, the writes
    that reach the committed database with it, and the rest of the program. -/
structure Move (Rows : S → Type) (Ans : A → Type) (Err α ι W K : Type) where
  locks : List K
  session : Session ι W
  commits : List (ι × W)
  next : Prog Rows Ans Err α

/-- A data statement on a connection in state `σ`. -/
def Engine.statement (E : Engine Rows Ans D O W K Err) (me : ι) (o : O) (σ : Session ι W) (d : D)
    (s : S) (ok : Rows s → Prog Rows Ans Err α) (err : Err → Prog Rows Ans Err α) :
    Move Rows Ans Err α ι W K :=
  match σ with
  | .failed i => ⟨[], .failed i, [], err E.aborted⟩
  | .idle =>
      match (E.exec s o d).result with
      | .ok (r, ws) => ⟨(E.exec s o d).locks, .idle, ws.map (me, ·), ok r⟩
      | .error e => ⟨(E.exec s o d).locks, .idle, [], err e⟩
  | .active i pending =>
      match (E.exec s o (E.apply (pending.map Prod.snd) d)).result with
      | .ok (r, ws) => ⟨(E.exec s o (E.apply (pending.map Prod.snd) d)).locks,
          .active i (pending ++ ws.map (me, ·)), [], ok r⟩
      | .error e => ⟨(E.exec s o (E.apply (pending.map Prod.snd) d)).locks, .failed i, [], err e⟩

/-- `BEGIN`, `COMMIT` or `ROLLBACK` on a connection in state `σ`. -/
def Engine.transact (E : Engine Rows Ans D O W K Err) (me : ι) (σ : Session ι W)
    (c : Control) (ok : Prog Rows Ans Err α) (err : Err → Prog Rows Ans Err α) :
    Move Rows Ans Err α ι W K :=
  match c, σ with
  | .beginTx, .idle => ⟨[], .active me [], [], ok⟩
  | .beginTx, .active i pending => ⟨[], .active i pending, [], ok⟩
  | .beginTx, .failed i => ⟨[], .failed i, [], err E.aborted⟩
  | .commit, .idle => ⟨[], .idle, [], ok⟩
  | .commit, .active _ pending => ⟨[], .idle, pending, ok⟩
  | .commit, .failed _ => ⟨[], .idle, [], ok⟩
  | .rollback, _ => ⟨[], .idle, [], ok⟩

/-- The session a control statement that fails from outside leaves behind: a failed
    `COMMIT` has rolled back, a failed `BEGIN` or `ROLLBACK` has done nothing. -/
def Session.afterFault (σ : Session ι W) : Control → Session ι W
  | .commit => .idle
  | _ => σ

/-- The next move of a client whose statements run on a connection in state `σ` of a
    database whose committed state is `d`; `none` when the client is done. -/
def Prog.move (E : Engine Rows Ans D O W K Err) (me : ι) (env : Env O Err Ans) (σ : Session ι W)
    (d : D) : Prog Rows Ans Err α → Option (Move Rows Ans Err α ι W K)
  | .ret _ => none
  | .throw _ => none
  | .ask a k => some ⟨[], σ, (E.note a (env.answer a)).map (me, ·), k (env.answer a)⟩
  | .stmt s ok err =>
      match env.fault with
      | some e => some ⟨[], σ.abort, [], err e⟩
      | none => some (E.statement me env.fresh σ d s ok err)
  | .control c ok err =>
      match env.fault with
      | some e => some ⟨[], σ.afterFault c, [], err e⟩
      | none => some (E.transact me σ c ok err)

/-! ### Computation rules of `move` -/

section Rules

variable (E : Engine Rows Ans D O W K Err) (me : ι) (env : Env O Err Ans) (d : D)

@[simp] theorem move_ret (σ : Session ι W) (a : α) :
    (Prog.ret a : Prog Rows Ans Err α).move E me env σ d = none := rfl

@[simp] theorem move_throw (σ : Session ι W) (e : Err) :
    (Prog.throw e : Prog Rows Ans Err α).move E me env σ d = none := rfl

@[simp] theorem move_ask (σ : Session ι W) (a : A) (k : Ans a → Prog Rows Ans Err α) :
    (Prog.ask a k).move E me env σ d =
      some ⟨[], σ, (E.note a (env.answer a)).map (me, ·), k (env.answer a)⟩ := rfl

theorem move_stmt_fault {e : Err} (h : env.fault = some e) (σ : Session ι W) (s : S)
    (ok : Rows s → Prog Rows Ans Err α) (err : Err → Prog Rows Ans Err α) :
    (Prog.stmt s ok err).move E me env σ d = some ⟨[], σ.abort, [], err e⟩ := by
  simp only [Prog.move, h]

theorem move_stmt (h : env.fault = none) (σ : Session ι W) (s : S)
    (ok : Rows s → Prog Rows Ans Err α) (err : Err → Prog Rows Ans Err α) :
    (Prog.stmt s ok err).move E me env σ d
      = some (E.statement me env.fresh σ d s ok err) := by
  simp only [Prog.move, h]

theorem move_control_fault {e : Err} (h : env.fault = some e) (σ : Session ι W) (c : Control)
    (ok : Prog Rows Ans Err α) (err : Err → Prog Rows Ans Err α) :
    (Prog.control c ok err).move E me env σ d = some ⟨[], σ.afterFault c, [], err e⟩ := by
  simp only [Prog.move, h]

theorem move_control (h : env.fault = none) (σ : Session ι W) (c : Control)
    (ok : Prog Rows Ans Err α) (err : Err → Prog Rows Ans Err α) :
    (Prog.control c ok err).move E me env σ d = some (E.transact me σ c ok err) := by
  simp only [Prog.move, h]

theorem statement_idle_ok {o : O} {s : S} {r : Rows s} {ws : List W}
    (h : (E.exec s o d).result = .ok (r, ws))
    (ok : Rows s → Prog Rows Ans Err α) (err : Err → Prog Rows Ans Err α) :
    E.statement me o .idle d s ok err
      = ⟨(E.exec s o d).locks, .idle, ws.map (me, ·), ok r⟩ := by
  simp only [Engine.statement, h]

theorem statement_idle_error {o : O} {s : S} {e : Err}
    (h : (E.exec s o d).result = .error e)
    (ok : Rows s → Prog Rows Ans Err α) (err : Err → Prog Rows Ans Err α) :
    E.statement me o .idle d s ok err = ⟨(E.exec s o d).locks, .idle, [], err e⟩ := by
  simp only [Engine.statement, h]

theorem statement_active_ok {o : O} {s : S} {i : ι} {pending : List (ι × W)} {r : Rows s}
    {ws : List W} (h : (E.exec s o (E.apply (pending.map Prod.snd) d)).result = .ok (r, ws))
    (ok : Rows s → Prog Rows Ans Err α) (err : Err → Prog Rows Ans Err α) :
    E.statement me o (.active i pending) d s ok err
      = ⟨(E.exec s o (E.apply (pending.map Prod.snd) d)).locks,
          .active i (pending ++ ws.map (me, ·)), [], ok r⟩ := by
  simp only [Engine.statement, h]

theorem statement_active_error {o : O} {s : S} {i : ι} {pending : List (ι × W)} {e : Err}
    (h : (E.exec s o (E.apply (pending.map Prod.snd) d)).result = .error e)
    (ok : Rows s → Prog Rows Ans Err α) (err : Err → Prog Rows Ans Err α) :
    E.statement me o (.active i pending) d s ok err
      = ⟨(E.exec s o (E.apply (pending.map Prod.snd) d)).locks, .failed i, [], err e⟩ := by
  simp only [Engine.statement, h]

/-! #### What a move can do -/

section Cases

variable {E me env d} {m : Move Rows Ans Err α ι W K}

/-- **A statement outside a transaction** fails from outside, fails, or commits what it writes. -/
theorem move_stmt_idle_cases {s : S} {ok : Rows s → Prog Rows Ans Err α}
    {err : Err → Prog Rows Ans Err α}
    (h : (Prog.stmt s ok err).move E me env .idle d = some m) :
    (∃ e, env.fault = some e ∧ m = ⟨[], .idle, [], err e⟩) ∨
    (∃ e, env.fault = none ∧ (E.exec s env.fresh d).result = .error e ∧
      m = ⟨(E.exec s env.fresh d).locks, .idle, [], err e⟩) ∨
    ∃ r ws, env.fault = none ∧ (E.exec s env.fresh d).result = .ok (r, ws) ∧
      m = ⟨(E.exec s env.fresh d).locks, .idle, ws.map (me, ·), ok r⟩ := by
  cases hf : env.fault with
  | some e =>
    rw [move_stmt_fault E me env d hf] at h
    exact Or.inl ⟨e, rfl, (Option.some.inj h).symm⟩
  | none =>
    rw [move_stmt E me env d hf] at h
    obtain rfl := Option.some.inj h
    cases hx : (E.exec s env.fresh d).result with
    | error e => exact Or.inr (Or.inl ⟨e, rfl, rfl, statement_idle_error E me d hx ok err⟩)
    | ok res =>
      obtain ⟨r, ws⟩ := res
      exact Or.inr (Or.inr ⟨r, ws, rfl, rfl, statement_idle_ok E me d hx ok err⟩)

/-- **A statement in a transaction** fails from outside, fails, or adds what it writes to what is
    pending. -/
theorem move_stmt_active_cases {s : S} {ok : Rows s → Prog Rows Ans Err α}
    {err : Err → Prog Rows Ans Err α} {i : ι} {pending : List (ι × W)}
    (h : (Prog.stmt s ok err).move E me env (.active i pending) d = some m) :
    (∃ e, env.fault = some e ∧ m = ⟨[], .failed i, [], err e⟩) ∨
    (∃ e, env.fault = none ∧
      (E.exec s env.fresh (E.apply (pending.map Prod.snd) d)).result = .error e ∧
      m = ⟨(E.exec s env.fresh (E.apply (pending.map Prod.snd) d)).locks, .failed i, [], err e⟩) ∨
    ∃ r ws, env.fault = none ∧
      (E.exec s env.fresh (E.apply (pending.map Prod.snd) d)).result = .ok (r, ws) ∧
      m = ⟨(E.exec s env.fresh (E.apply (pending.map Prod.snd) d)).locks,
        .active i (pending ++ ws.map (me, ·)), [], ok r⟩ := by
  cases hf : env.fault with
  | some e =>
    rw [move_stmt_fault E me env d hf] at h
    exact Or.inl ⟨e, rfl, (Option.some.inj h).symm⟩
  | none =>
    rw [move_stmt E me env d hf] at h
    obtain rfl := Option.some.inj h
    cases hx : (E.exec s env.fresh (E.apply (pending.map Prod.snd) d)).result with
    | error e => exact Or.inr (Or.inl ⟨e, rfl, rfl, statement_active_error E me d hx ok err⟩)
    | ok res =>
      obtain ⟨r, ws⟩ := res
      exact Or.inr (Or.inr ⟨r, ws, rfl, rfl, statement_active_ok E me d hx ok err⟩)

/-- **A statement in an aborted transaction** fails. -/
theorem move_stmt_failed_cases {s : S} {ok : Rows s → Prog Rows Ans Err α}
    {err : Err → Prog Rows Ans Err α} {i : ι}
    (h : (Prog.stmt s ok err).move E me env (.failed i) d = some m) :
    ∃ e, m = ⟨[], .failed i, [], err e⟩ := by
  cases hf : env.fault with
  | some e =>
    rw [move_stmt_fault E me env d hf] at h
    exact ⟨e, (Option.some.inj h).symm⟩
  | none =>
    rw [move_stmt E me env d hf] at h
    exact ⟨E.aborted, (Option.some.inj h).symm⟩

/-- **A control statement** fails from outside, or does its work. -/
theorem move_control_cases {σ : Session ι W} {c : Control} {ok : Prog Rows Ans Err α}
    {err : Err → Prog Rows Ans Err α} (h : (Prog.control c ok err).move E me env σ d = some m) :
    (∃ e, env.fault = some e ∧ m = ⟨[], σ.afterFault c, [], err e⟩) ∨
    (env.fault = none ∧ m = E.transact me σ c ok err) := by
  cases hf : env.fault with
  | some e =>
    rw [move_control_fault E me env d hf] at h
    exact Or.inl ⟨e, rfl, (Option.some.inj h).symm⟩
  | none =>
    rw [move_control E me env d hf] at h
    exact Or.inr ⟨rfl, (Option.some.inj h).symm⟩

end Cases

end Rules

/-! ### A client that runs alone -/

/-- The moves of one client on its own connection, one per element of `envs`, with nobody
    else at work; `none` when there are more environments than moves. -/
def runAlone (E : Engine Rows Ans D O W K Err) :
    List (Env O Err Ans) → Session Unit W → D → Prog Rows Ans Err α →
      Option (Session Unit W × D × Prog Rows Ans Err α)
  | [], σ, d, p => some (σ, d, p)
  | env :: envs, σ, d, p =>
      match p.move E () env σ d with
      | none => none
      | some m => runAlone E envs m.session (E.apply (m.commits.map Prod.snd) d) m.next

/-- **One call as one atomic step.**  Started outside a transaction on `d`, in surroundings
    that satisfy `P`, the program can run alone to its end with result `r`, leaving the
    committed database `d'`. -/
def Alone (E : Engine Rows Ans D O W K Err) (P : Env O Err Ans → Prop) (d : D)
    (p : Prog Rows Ans Err α) (d' : D) (r : Except Err α) : Prop :=
  ∃ envs σ q, (∀ env ∈ envs, P env) ∧ runAlone E envs .idle d p = some (σ, d', q) ∧
    q.result = some r

end ReadCommitted
