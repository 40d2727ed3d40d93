import Chronos.ReadCommitted.Atomicity

namespace ReadCommitted

/-!
# Transactions that read first and write late

Under READ COMMITTED a transaction that reads without a lock may decide on a row that somebody
changes before it writes.  The programs here (`Prog.WritesLate`) do so: they read what they like,
and from the first statement that writes they hold one lock, the same for all of them.

`one_writer` is about runs in which the first write of a transaction still finds what it was
decided on (`Admits`): at most one of all clients commits, and the database is what that client's
writes make of the start.

* `Standing` — how far a client has come with its transaction.
* `Race` — what the clients compete for: the state they start on, the lock, the condition on
  statements, and what each of them may commit.
* `Racing` — the invariant: while a client has written, nobody has committed.
-/

variable {S A : Type} {Rows : S → Type} {Ans : A → Type} {Err α : Type}
variable {D O W K C ι : Type}

/-- How far a client has come: outside transactions, inside one in which it has only read, inside
    one in which it has written, inside one that has failed, or past its `COMMIT`. -/
inductive Standing (W : Type)
  | outside
  | reading
  | writing (ws : List W)
  | failed
  | committed

/-- What clients compete for on the state `start`: all of them write under `lock`, `adm` says
    where a statement may be sent, and `result` what a client may commit. -/
structure Race (S D W K ι : Type) where
  start : D
  lock : K
  adm : S → D → Prop
  result : ι → List W → Prop

variable {E : Engine Rows Ans D O W K Err} {R : Race S D W K ι}

/-- Somebody has committed. -/
def Race.Decided (E : Engine Rows Ans D O W K Err) (R : Race S D W K ι) (d : D) : Prop :=
  ∃ i ws, R.result i ws ∧ d = E.apply ws R.start

/-- **The program reads first and writes late**, from the given standing. -/
def Prog.WritesLate (E : Engine Rows Ans D O W K Err) (R : Race S D W K ι) (me : ι) :
    Prog Rows Ans Err α → Standing W → Prop
  | .ret _, st => st = .committed
  | .throw _, _ => True
  | .ask a k, st => (∀ x, E.note a x = []) ∧ ∀ x, WritesLate E R me (k x) st
  | .stmt s ok err, .reading =>
      (∀ o d r ws, d = R.start ∨ R.Decided E d → R.adm s d → (E.exec s o d).result = .ok (r, ws) →
        (ws = [] ∧ WritesLate E R me (ok r) .reading) ∨
        (¬ R.Decided E d ∧ R.lock ∈ (E.exec s o d).locks ∧ WritesLate E R me (ok r) (.writing ws))) ∧
      ∀ e, WritesLate E R me (err e) .failed
  | .stmt s ok err, .writing ws =>
      (∀ o r ws', (E.exec s o (E.apply ws R.start)).result = .ok (r, ws') →
        WritesLate E R me (ok r) (.writing (ws ++ ws'))) ∧
      ∀ e, WritesLate E R me (err e) .failed
  | .control .beginTx ok err, .outside =>
      WritesLate E R me ok .reading ∧ ∀ e, WritesLate E R me (err e) .outside
  | .control .rollback ok err, .reading =>
      WritesLate E R me ok .outside ∧ ∀ e, WritesLate E R me (err e) .reading
  | .control .rollback ok err, .failed =>
      WritesLate E R me ok .outside ∧ ∀ e, WritesLate E R me (err e) .failed
  | .control .commit ok err, .writing ws =>
      R.result me ws ∧ WritesLate E R me ok .committed ∧ ∀ e, WritesLate E R me (err e) .outside
  | _, _ => False

/-! ### The invariant -/

/-- The connections and locks of `w` show client `i` at a standing. -/
def Stands (R : Race S D W K ι) (w : World Rows Ans Err α D W K C ι) (i : ι) : Standing W → Prop
  | .outside => ∀ c, (w.session c).opener ≠ some i
  | .reading => ∃ c, w.session c = .active i [] ∧ ∀ c', (w.session c').opener = some i → c' = c
  | .writing ws => ∃ c pending, w.session c = .active i pending ∧ pending.map Prod.snd = ws ∧
      w.holder R.lock = some c ∧ ∀ c', (w.session c').opener = some i → c' = c
  | .failed => ∃ c, w.session c = .failed i ∧ ∀ c', (w.session c').opener = some i → c' = c
  | .committed => ∀ c, (w.session c).opener ≠ some i

/-- Nobody has committed, or one client has, and nobody is writing. -/
def AtMostOne (E : Engine Rows Ans D O W K Err) (R : Race S D W K ι) (d : D)
    (st : ι → Standing W) : Prop :=
  (d = R.start ∧ ∀ i, st i ≠ .committed) ∨
    ∃ i ws, R.result i ws ∧ d = E.apply ws R.start ∧ (∀ j, st j = .committed → j = i) ∧
      ∀ j ws', st j ≠ .writing ws'

/-- **The invariant.** -/
structure Racing (E : Engine Rows Ans D O W K Err) (R : Race S D W K ι)
    (w : World Rows Ans Err α D W K C ι) (st : ι → Standing W) : Prop where
  late : ∀ i, (w.prog i).WritesLate E R i (st i)
  stands : ∀ i, Stands R w i (st i)
  db : AtMostOne E R w.db st

/-- How the standing of a client changes with one move on the state `d`, and what it commits. -/
inductive Advances (E : Engine Rows Ans D O W K Err) (R : Race S D W K ι) (me : ι) (d : D) :
    Standing W → List W → Standing W → Prop
  | stay (st) : Advances E R me d st [] st
  | quiet {st st'} : (∀ ws, st' ≠ .writing ws) → st' ≠ .committed → Advances E R me d st [] st'
  | first {ws} : ¬ R.Decided E d → Advances E R me d .reading [] (.writing ws)
  | more {ws ws'} : Advances E R me d (.writing ws) [] (.writing ws')
  | commit {ws} : R.result me ws → Advances E R me d (.writing ws) ws .committed

section Race

variable {w w' : World Rows Ans Err α D W K C ι} {l : Label Ans O Err C ι}
variable {m : Move Rows Ans Err α ι W K} {st : ι → Standing W}

/-- Two clients do not write at a time. -/
theorem writing_unique {i j : ι} {ws ws' : List W} (hi : Stands R w i (.writing ws))
    (hj : Stands R w j (.writing ws')) : i = j := by
  obtain ⟨c, pending, hc, -, hlock, -⟩ := hi
  obtain ⟨c', pending', hc', -, hlock', -⟩ := hj
  have hconn : c = c' := Option.some.inj (hlock.symm.trans hlock')
  rw [hconn, hc'] at hc
  have hopener := congrArg Session.opener hc
  exact (Option.some.inj hopener).symm

/-- Where a program sends a control statement. -/
theorem control_cases {c : Control} {ok : Prog Rows Ans Err α} {err : Err → Prog Rows Ans Err α}
    {me : ι} {s : Standing W} (h : (Prog.control c ok err).WritesLate E R me s) :
    (c = .beginTx ∧ s = .outside) ∨ (c = .rollback ∧ (s = .reading ∨ s = .failed)) ∨
      (c = .commit ∧ ∃ ws, s = .writing ws) := by
  cases c <;> cases s <;> simp_all [Prog.WritesLate]

/-- A client in a transaction moves on the connection of that transaction. -/
theorem Stands.session {s : Standing W} (h : Stands R w l.thread s) (hex : Exclusive w l) :
    match s with
    | .outside => w.session l.conn = .idle
    | .reading => w.session l.conn = .active l.thread []
    | .writing ws => ∃ pending, w.session l.conn = .active l.thread pending ∧
        pending.map Prod.snd = ws ∧ w.holder R.lock = some l.conn
    | .failed => w.session l.conn = .failed l.thread
    | .committed => w.session l.conn = .idle := by
  have hidle : (∀ c, (w.session c).opener ≠ some l.thread) → w.session l.conn = .idle := by
    intro hno
    rcases hex.session with hs | hs
    · exact hs
    · exact absurd hs (hno l.conn)
  cases s with
  | outside => exact hidle h
  | committed => exact hidle h
  | reading =>
    obtain ⟨c, hc, -⟩ := h
    obtain rfl := hex.2 c (by rw [hc]; rfl)
    exact hc
  | writing ws =>
    obtain ⟨c, pending, hc, hws, hlock, -⟩ := h
    obtain rfl := hex.2 c (by rw [hc]; rfl)
    exact ⟨pending, hc, hws, hlock⟩
  | failed =>
    obtain ⟨c, hc, -⟩ := h
    obtain rfl := hex.2 c (by rw [hc]; rfl)
    exact hc

variable [DecidableEq ι] [DecidableEq C] [DecidableEq K]

/-- The clients that do not move stand where they stood. -/
theorem Stands.other {i : ι} {s : Standing W} (h : Stands R w i s) (hi : i ≠ l.thread)
    (hf : w.Free l.conn m.locks) (hex : Exclusive w l)
    (hopen : m.session.opener = none ∨ m.session.opener = some l.thread) :
    Stands R (w.after E l m) i s := by
  have hsess := after_opener (E := E) hi hex hopen
  -- The step is not on a connection of client `i`.
  have hconn : ∀ c, (w.session c).opener = some i → c ≠ l.conn := by
    rintro c hc rfl
    exact hi (hex.1 i hc)
  cases s with
  | outside => exact fun c hc => h c ((hsess c).mp hc)
  | committed => exact fun c hc => h c ((hsess c).mp hc)
  | reading =>
    obtain ⟨c, hc, honly⟩ := h
    have hne : c ≠ l.conn := hconn c (by rw [hc]; rfl)
    exact ⟨c, by rw [after_session_of_ne hne]; exact hc, fun c' hc' => honly c' ((hsess c').mp hc')⟩
  | writing ws =>
    obtain ⟨c, pending, hc, hws, hlock, honly⟩ := h
    have hne : c ≠ l.conn := hconn c (by rw [hc]; rfl)
    exact ⟨c, pending, by rw [after_session_of_ne hne]; exact hc, hws,
      (after_holder_of_ne hf hne _).mpr hlock, fun c' hc' => honly c' ((hsess c').mp hc')⟩
  | failed =>
    obtain ⟨c, hc, honly⟩ := h
    have hne : c ≠ l.conn := hconn c (by rw [hc]; rfl)
    exact ⟨c, by rw [after_session_of_ne hne]; exact hc, fun c' hc' => honly c' ((hsess c').mp hc')⟩

/-! ### The step of a client -/

theorem stands_outside (hex : Exclusive w l) (hm : m.session.opener = none) :
    Stands R (w.after E l m) l.thread .outside := no_transaction_after hex hm

theorem stands_reading (hex : Exclusive w l) (hm : m.session = .active l.thread []) :
    Stands R (w.after E l m) l.thread .reading :=
  ⟨l.conn, by rw [after_session_self]; exact hm, one_transaction_after hex⟩

theorem stands_failed (hex : Exclusive w l) (hm : m.session = .failed l.thread) :
    Stands R (w.after E l m) l.thread .failed :=
  ⟨l.conn, by rw [after_session_self]; exact hm, one_transaction_after hex⟩

theorem stands_committed (hex : Exclusive w l) (hm : m.session.opener = none) :
    Stands R (w.after E l m) l.thread .committed := no_transaction_after hex hm

theorem stands_writing (hex : Exclusive w l) {pending : List (ι × W)} {ws : List W}
    (hm : m.session = .active l.thread pending) (hws : pending.map Prod.snd = ws)
    (hlock : R.lock ∈ m.locks ∨ w.holder R.lock = some l.conn) :
    Stands R (w.after E l m) l.thread (.writing ws) :=
  ⟨l.conn, pending, by rw [after_session_self]; exact hm, hws, (after_holder_self hm _).mpr hlock,
    one_transaction_after hex⟩

/-- A move that leaves its connection as it was leaves its client where it was. -/
theorem Stands.same {s : Standing W} (h : Stands R w l.thread s) (hex : Exclusive w l)
    (hm : m.session = w.session l.conn) : Stands R (w.after E l m) l.thread s := by
  have hsession := h.session hex
  cases s with
  | outside =>
    refine stands_outside hex ?_
    rw [hm, hsession]
    rfl
  | committed =>
    refine stands_committed hex ?_
    rw [hm, hsession]
    rfl
  | reading => exact stands_reading hex (hm.trans hsession)
  | writing ws =>
    obtain ⟨pending, hactive, hws, hlock⟩ := hsession
    exact stands_writing hex (hm.trans hactive) hws (Or.inr hlock)
  | failed => exact stands_failed hex (hm.trans hsession)

/-- What `l.thread` comes to with its move. -/
def Moved (E : Engine Rows Ans D O W K Err) (R : Race S D W K ι)
    (w : World Rows Ans Err α D W K C ι) (l : Label Ans O Err C ι)
    (m : Move Rows Ans Err α ι W K) (s : Standing W) : Prop :=
  ∃ s', m.next.WritesLate E R l.thread s' ∧ Stands R (w.after E l m) l.thread s' ∧
    Advances E R l.thread w.db s (m.commits.map Prod.snd) s'

/-- A statement of a transaction that has only read. -/
theorem moved_reading {s : S} {ok : Rows s → Prog Rows Ans Err α}
    {err : Err → Prog Rows Ans Err α} (hprog : w.prog l.thread = .stmt s ok err)
    (hlate : (Prog.stmt s ok err).WritesLate E R l.thread .reading)
    (hsession : w.session l.conn = .active l.thread [])
    (hseen : w.db = R.start ∨ R.Decided E w.db) (hex : Exclusive w l)
    (hadm : Admits E (fun _ => R.adm) w l)
    (hm : (Prog.stmt s ok err).move E l.thread l.env (w.session l.conn) w.db = some m) :
    Moved E R w l m .reading := by
  rw [hsession] at hm
  rcases move_stmt_active_cases hm with ⟨e, -, rfl⟩ | ⟨e, -, -, rfl⟩ | ⟨r, ws, -, hx, rfl⟩
  · exact ⟨.failed, hlate.2 e, stands_failed hex rfl, .quiet (by simp) (by simp)⟩
  · exact ⟨.failed, hlate.2 e, stands_failed hex rfl, .quiet (by simp) (by simp)⟩
  · have hallowed : R.adm s w.db := hadm s ok err l.thread [] hprog hsession
    rcases hlate.1 _ _ r ws hseen hallowed hx with ⟨rfl, hnext⟩ | ⟨hundecided, hlock, hnext⟩
    · exact ⟨.reading, hnext, stands_reading hex rfl, .stay _⟩
    · -- The first write: the lock is taken.
      have hws : ([] ++ ws.map (l.thread, ·)).map Prod.snd = ws := by simp [Function.comp_def]
      exact ⟨.writing ws, hnext, stands_writing hex rfl hws (Or.inl hlock), .first hundecided⟩

/-- A statement of a transaction that has written. -/
theorem moved_writing {s : S} {ok : Rows s → Prog Rows Ans Err α}
    {err : Err → Prog Rows Ans Err α} {pending : List (ι × W)}
    (hlate : (Prog.stmt s ok err).WritesLate E R l.thread (.writing (pending.map Prod.snd)))
    (hsession : w.session l.conn = .active l.thread pending)
    (hlock : w.holder R.lock = some l.conn) (hstart : w.db = R.start) (hex : Exclusive w l)
    (hm : (Prog.stmt s ok err).move E l.thread l.env (w.session l.conn) w.db = some m) :
    Moved E R w l m (.writing (pending.map Prod.snd)) := by
  rw [hsession] at hm
  rcases move_stmt_active_cases hm with ⟨e, -, rfl⟩ | ⟨e, -, -, rfl⟩ | ⟨r, ws, -, hx, rfl⟩
  · exact ⟨.failed, hlate.2 e, stands_failed hex rfl, .quiet (by simp) (by simp)⟩
  · exact ⟨.failed, hlate.2 e, stands_failed hex rfl, .quiet (by simp) (by simp)⟩
  · have hws : (pending ++ ws.map (l.thread, ·)).map Prod.snd = pending.map Prod.snd ++ ws := by
      simp [Function.comp_def]
    rw [hstart] at hx
    exact ⟨_, hlate.1 _ r ws hx, stands_writing hex rfl hws (Or.inr hlock), .more⟩

/-- `BEGIN`, `COMMIT` or `ROLLBACK`. -/
theorem moved_control {s : Standing W} {c : Control} {ok : Prog Rows Ans Err α}
    {err : Err → Prog Rows Ans Err α} (hlate : (Prog.control c ok err).WritesLate E R l.thread s)
    (hstands : Stands R w l.thread s) (hex : Exclusive w l)
    (hm : (Prog.control c ok err).move E l.thread l.env (w.session l.conn) w.db = some m) :
    Moved E R w l m s := by
  have hsession := hstands.session hex
  rcases move_control_cases hm with ⟨e, -, rfl⟩ | ⟨-, rfl⟩
  · rcases control_cases hlate with ⟨rfl, rfl⟩ | ⟨rfl, rfl | rfl⟩ | ⟨rfl, ws, rfl⟩
    · exact ⟨.outside, hlate.2 e, hstands.same hex rfl, .stay _⟩
    · exact ⟨.reading, hlate.2 e, hstands.same hex rfl, .stay _⟩
    · exact ⟨.failed, hlate.2 e, hstands.same hex rfl, .stay _⟩
    · -- A `COMMIT` that fails has rolled back.
      exact ⟨.outside, hlate.2.2 e, stands_outside hex rfl, .quiet (by simp) (by simp)⟩
  · rcases control_cases hlate with ⟨rfl, rfl⟩ | ⟨rfl, rfl | rfl⟩ | ⟨rfl, ws, rfl⟩
    · rw [show w.session l.conn = .idle from hsession]
      exact ⟨.reading, hlate.1, stands_reading hex rfl, .quiet (by simp) (by simp)⟩
    · exact ⟨.outside, hlate.1, stands_outside hex rfl, .quiet (by simp) (by simp)⟩
    · exact ⟨.outside, hlate.1, stands_outside hex rfl, .quiet (by simp) (by simp)⟩
    · obtain ⟨pending, hactive, rfl, -⟩ := hsession
      rw [hactive]
      exact ⟨.committed, hlate.2.1, stands_committed hex rfl, .commit hlate.1⟩

/-- **The move of one client.** -/
theorem moved {s : Standing W} (hlate : (w.prog l.thread).WritesLate E R l.thread s)
    (hstands : Stands R w l.thread s) (hseen : w.db = R.start ∨ R.Decided E w.db)
    (hwriting : ∀ ws, s = .writing ws → w.db = R.start) (hex : Exclusive w l)
    (hadm : Admits E (fun _ => R.adm) w l)
    (hm : (w.prog l.thread).move E l.thread l.env (w.session l.conn) w.db = some m) :
    Moved E R w l m s := by
  have hsession := hstands.session hex
  generalize hprog : w.prog l.thread = p at hlate hm
  cases p with
  | ret a => cases hm
  | throw e => cases hm
  | ask a k =>
    obtain rfl := by simpa [hlate.1] using hm.symm
    exact ⟨s, hlate.2 _, hstands.same hex rfl, .stay s⟩
  | stmt t ok err =>
    cases s with
    | reading => exact moved_reading hprog hlate hsession hseen hex hadm hm
    | writing ws =>
      obtain ⟨pending, hactive, rfl, hlock⟩ := hsession
      exact moved_writing hlate hactive hlock (hwriting _ rfl) hex hm
    | _ => exact hlate.elim
  | control c ok err => exact moved_control hlate hstands hex hm

/-! ### Runs -/

omit [DecidableEq C] [DecidableEq K] in
/-- At most one client commits: the lock is held by one of those that write. -/
theorem AtMostOne.advance {d : D} {i : ι} {s' : Standing W} {ws : List W}
    (h : AtMostOne E R d st) (hadvances : Advances E R i d (st i) ws s')
    (hunique : ∀ j ws₁ ws₂, st i = .writing ws₁ → st j = .writing ws₂ → j = i) :
    AtMostOne E R (E.apply ws d) (Function.update st i s') := by
  generalize hs : st i = s at hadvances
  -- The others stand where they stood.
  have hother : ∀ j, j ≠ i → Function.update st i s' j = st j := fun j hj =>
    Function.update_of_ne hj _ _
  cases hadvances with
  | stay =>
    rw [← hs, Function.update_eq_self]
    exact h
  | quiet hwriting hcommitted =>
    rcases h with ⟨hstart, hnone⟩ | ⟨k, ws, hresult, hd, hone, hnone⟩
    · refine Or.inl ⟨hstart, fun j => ?_⟩
      by_cases hj : j = i
      · rw [hj, Function.update_self]
        exact hcommitted
      · rw [hother j hj]
        exact hnone j
    · refine Or.inr ⟨k, ws, hresult, hd, fun j hj => ?_, fun j ws' => ?_⟩
      · by_cases hji : j = i
        · rw [hji, Function.update_self] at hj
          exact absurd hj hcommitted
        · rw [hother j hji] at hj
          exact hone j hj
      · by_cases hji : j = i
        · rw [hji, Function.update_self]
          exact hwriting ws'
        · rw [hother j hji]
          exact hnone j ws'
  | first hundecided =>
    rcases h with ⟨hstart, hnone⟩ | ⟨k, ws, hresult, hd, -⟩
    · refine Or.inl ⟨hstart, fun j => ?_⟩
      by_cases hj : j = i
      · rw [hj, Function.update_self]
        simp
      · rw [hother j hj]
        exact hnone j
    · exact absurd ⟨k, ws, hresult, hd⟩ hundecided
  | more =>
    rcases h with ⟨hstart, hnone⟩ | ⟨k, ws, -, -, -, hnone⟩
    · refine Or.inl ⟨hstart, fun j => ?_⟩
      by_cases hj : j = i
      · rw [hj, Function.update_self]
        simp
      · rw [hother j hj]
        exact hnone j
    · exact absurd hs (hnone _ _)
  | commit hresult =>
    rcases h with ⟨hstart, hnone⟩ | ⟨k, ws, -, -, -, hnone⟩
    · refine Or.inr ⟨i, ws, hresult, by rw [hstart], fun j hj => ?_, fun j ws' hj => ?_⟩
      · by_contra hji
        rw [hother j hji] at hj
        exact hnone j hj
      · by_cases hji : j = i
        · rw [hji, Function.update_self] at hj
          cases hj
        · rw [hother j hji] at hj
          exact hji (hunique j _ _ hs hj)
    · exact absurd hs (hnone _ _)

/-- **Step lemma.** -/
theorem Racing.step (h : Racing E R w st) (hex : Exclusive w l)
    (hadm : Admits E (fun _ => R.adm) w l) (hs : w.step E l = some w') :
    ∃ st', Racing E R w' st' := by
  obtain ⟨m, hm, hf, rfl⟩ := step_cases hs
  -- A client sees the start, or what the winner has committed.
  have hseen : w.db = R.start ∨ R.Decided E w.db := by
    rcases h.db with ⟨hstart, -⟩ | ⟨i, ws, hresult, hdb, -⟩
    · exact Or.inl hstart
    · exact Or.inr ⟨i, ws, hresult, hdb⟩
  have hwriting : ∀ ws, st l.thread = .writing ws → w.db = R.start ∧ ∀ i, st i ≠ .committed := by
    intro ws hst
    rcases h.db with hstart | ⟨i, ws', -, -, -, hnone⟩
    · exact hstart
    · exact absurd hst (hnone _ _)
  obtain ⟨s', hlate, hstands, hadvances⟩ := moved (h.late _) (h.stands _) hseen
    (fun ws hst => (hwriting ws hst).1) hex hadm hm
  -- Afterwards the connection is free or the client's own.
  have hopen : m.session.opener = none ∨ m.session.opener = some l.thread := by
    rcases opener_move hm with ho | ho | ho
    · exact Or.inl ho
    · rcases hex.session with hidle | hown
      · exact Or.inl (by rw [ho, hidle]; rfl)
      · exact Or.inr (ho.trans hown)
    · exact Or.inr ho
  refine ⟨Function.update st l.thread s', ?_, ?_, ?_⟩
  · intro i
    by_cases hi : i = l.thread
    · subst hi
      rw [after_prog_self, Function.update_self]
      exact hlate
    · rw [after_prog_of_ne hi, Function.update_of_ne hi]
      exact h.late i
  · intro i
    by_cases hi : i = l.thread
    · subst hi
      rw [Function.update_self]
      exact hstands
    · rw [Function.update_of_ne hi]
      exact (h.stands i).other hi hf hex hopen
  · exact h.db.advance hadvances fun j ws₁ ws₂ hi hj =>
      writing_unique (hj ▸ h.stands j) (hi ▸ h.stands l.thread)

variable {prog : ι → Prog Rows Ans Err α} {d₀ : D}

/-- **Run lemma.** -/
theorem racing_of_reaches (hlate : ∀ i, (prog i).WritesLate E R i .outside)
    (h : Reaches E (fun w l => Exclusive w l ∧ Admits E (fun _ => R.adm) w l)
      (World.init R.start prog) w) : ∃ st, Racing E R w st := by
  induction h with
  | start =>
    refine ⟨fun _ => .outside, hlate, fun i c hc => ?_, Or.inl ⟨rfl, fun i hi => ?_⟩⟩
    · cases hc
    · cases hi
  | step _ hP hs ih =>
    obtain ⟨st, hst⟩ := ih
    exact hst.step hP.1 hP.2 hs

/-- **One writer.**  Clients that read first and write late, in a run in which every first write
    finds what it was decided on: nobody has committed and the database is the one at the start,
    or it is what the writes of one client make of the start, and nobody else ends with an
    answer. -/
theorem one_writer (hlate : ∀ i, (prog i).WritesLate E R i .outside)
    (h : Reaches E (fun w l => Exclusive w l ∧ Admits E (fun _ => R.adm) w l)
      (World.init R.start prog) w) :
    (w.db = R.start ∧ ∀ i a, (w.prog i).result ≠ some (.ok a)) ∨
      ∃ i ws, R.result i ws ∧ w.db = E.apply ws R.start ∧
        ∀ j a, (w.prog j).result = some (.ok a) → j = i := by
  obtain ⟨st, hst⟩ := racing_of_reaches hlate h
  have hanswers : ∀ i a, (w.prog i).result = some (.ok a) → st i = .committed := by
    intro i a ha
    rcases Prog.result_eq_some ha with ⟨a', hprog, -⟩ | ⟨e, -, he⟩
    · have hlate := hst.late i
      rw [hprog] at hlate
      exact hlate
    · cases he
  rcases hst.db with ⟨hstart, hnone⟩ | ⟨i, ws, hresult, hdb, hone, -⟩
  · exact Or.inl ⟨hstart, fun i a ha => hnone i (hanswers i a ha)⟩
  · exact Or.inr ⟨i, ws, hresult, hdb, fun j a ha => hone j (hanswers j a ha)⟩

end Race

end ReadCommitted
