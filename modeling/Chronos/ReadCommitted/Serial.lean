import Chronos.ReadCommitted.World
import Chronos.ReadCommitted.Discipline

namespace ReadCommitted

/-!
# Disciplined transactions are atomic

The main result of the library.  In a run of exclusive steps, clients whose programs keep
the discipline (`Prog.Ok`) behave as if every transaction ran alone on one committed state:
a transaction that commits reads and writes the state it commits on (`Serial.commit`), one
that does not changes nothing and fails on the state of the statement that stopped it
(`Serial.fail`, `Serial.giveUp`).

* `TxRun E adm d k ws p` — inside a transaction that started with program `k` and runs alone on
  `d`, `p` is left to run and `ws` is written.
* `Serial` — the moves of one client when transactions are atomic.
* `Follows` — the invariant: a client in the middle of a transaction is, atomically
  speaking, still in front of its `BEGIN`, and its transaction *replays* on the committed
  state of every moment (`Replay`), because all its answers are pinned by its locks.
* `serial_step` — every exclusive step is a serial move, or none.
-/

variable {S A : Type} {Rows : S → Type} {Ans : A → Type} {Err α : Type}
variable {D O W K C ι : Type} {V : K → Type}

/-! ### A transaction that runs alone -/

/-- Inside a transaction on `d` that started with `k`, the writes so far and what is left. -/
inductive TxRun (E : Engine Rows Ans D O W K Err) (adm : S → D → Prop) (d : D)
    (k : Prog Rows Ans Err α) :
    List W → Prog Rows Ans Err α → Prop
  | start : TxRun E adm d k [] k
  | stmt {ws ws' s o r ok err} : TxRun E adm d k ws (.stmt s ok err) →
      (E.exec s o (E.apply ws d)).result = .ok (r, ws') → adm s (E.apply ws d) →
      TxRun E adm d k (ws ++ ws') (ok r)
  | ask {ws a f} (x : Ans a) : TxRun E adm d k ws (.ask a f) → TxRun E adm d k ws (f x)

/-! ### Serial moves -/

/-- Whether a client will still commit the transaction it is in. -/
inductive Phase
  | free
  | doomed
  deriving DecidableEq

/-- The moves of client `me` on the committed state `d` when transactions are atomic, with
    the writes that are committed. -/
inductive Serial (E : Engine Rows Ans D O W K Err) (adm : S → D → Prop) (me : ι)
    (env : Env O Err Ans) (d : D) :
    Phase → Prog Rows Ans Err α → List W → Phase → Prog Rows Ans Err α → Prop
  | move {p} {m : Move Rows Ans Err α ι W K} : (∀ ok err, p ≠ .control .beginTx ok err) →
      p.move E me env .idle d = some m →
      Serial E adm me env d .free p (m.commits.map Prod.snd) .free m.next
  | beginFault {ok err e} : env.fault = some e →
      Serial E adm me env d .free (.control .beginTx ok err) [] .free (err e)
  | commit {k err ws ok err'} : env.fault = none → TxRun E adm d k ws (.control .commit ok err') →
      Serial E adm me env d .free (.control .beginTx k err) ws .free ok
  | commitFault {k err ws ok err' e} : env.fault = some e →
      TxRun E adm d k ws (.control .commit ok err') →
      Serial E adm me env d .free (.control .beginTx k err) [] .free (err' e)
  | fail {k err ws s ok err' e} : TxRun E adm d k ws (.stmt s ok err') →
      (env.fault = some e ∨
        env.fault = none ∧ (E.exec s env.fresh (E.apply ws d)).result = .error e) →
      Serial E adm me env d .free (.control .beginTx k err) [] .doomed (err' e)
  | abandon {k err ws ok err'} : env.fault = none →
      TxRun E adm d k ws (.control .rollback ok err') →
      Serial E adm me env d .free (.control .beginTx k err) [] .free ok
  | abandonFault {k err ws ok err' e} : env.fault = some e →
      TxRun E adm d k ws (.control .rollback ok err') →
      Serial E adm me env d .free (.control .beginTx k err) [] .doomed (err' e)
  | wait {a f} : Serial E adm me env d .doomed (.ask a f) [] .doomed (f (env.answer a))
  | giveUp {k err ws p} : TxRun E adm d k ws p → p.Closing →
      Serial E adm me env d .free (.control .beginTx k err) [] .doomed p
  | rollback {ok err} : env.fault = none →
      Serial E adm me env d .doomed (.control .rollback ok err) [] .free ok
  | rollbackFault {ok err e} : env.fault = some e →
      Serial E adm me env d .doomed (.control .rollback ok err) [] .doomed (err e)

/-! ### Replay -/

/-- `TxRun`, with every answer pinned by the locks taken so far. -/
inductive Replay (E : Engine Rows Ans D O W K Err) (value : (k : K) → D → V k)
    (adm : S → D → Prop) (d : D) (k : Prog Rows Ans Err α) : List W → List K → Prog Rows Ans Err α → Prop
  | start : Replay E value adm d k [] [] k
  | stmt {ws held ws' s o r ok err} : Replay E value adm d k ws held (.stmt s ok err) →
      (E.exec s o (E.apply ws d)).result = .ok (r, ws') →
      adm s (E.apply ws d) → Pinned E value adm held s o (E.apply ws d) →
      Replay E value adm d k (ws ++ ws') (held ++ (E.exec s o (E.apply ws d)).locks) (ok r)
  | ask {ws held a f} (x : Ans a) : Replay E value adm d k ws held (.ask a f) →
      Replay E value adm d k ws held (f x)

section Replay

variable {E : Engine Rows Ans D O W K Err} {value : (k : K) → D → V k} {adm : S → D → Prop}
variable {d d' : D} {k p : Prog Rows Ans Err α} {ws : List W} {held : List K}

theorem Replay.txRun (h : Replay E value adm d k ws held p) : TxRun E adm d k ws p := by
  induction h with
  | start => exact .start
  | stmt _ hx hadm _ ih => exact ih.stmt hx hadm
  | ask x _ ih => exact ih.ask x

/-- A transaction has changed only what it has locked. -/
theorem Replay.frame (hL : Lawful E value) (h : Replay E value adm d k ws held p) :
    ∀ lk, lk ∉ held → value lk (E.apply ws d) = value lk d := by
  induction h with
  | start => exact fun _ _ => rfl
  | @stmt ws held ws' s o r ok err _ hx _ _ ih =>
    intro lk hlk
    rw [List.mem_append, not_or] at hlk
    rw [E.apply_append, hL.frame s o _ r ws' hx lk hlk.2]
    exact ih lk hlk.1
  | ask x _ ih => exact ih

/-- **Replay.**  On any state that agrees on the locks, the same answers lead to the same
    writes and the same rest. -/
theorem Replay.stable (hL : Lawful E value) (h : Replay E value adm d k ws held p)
    (ha : Agree value held d d') : Replay E value adm d' k ws held p := by
  induction h with
  | start => exact .start
  | @stmt ws held ws' s o r ok err _ hx hadm hpin ih =>
    -- The views agree on all locks, so the statement answers on `d'` as it did on `d`.
    have hview : Agree value (held ++ (E.exec s o (E.apply ws d)).locks)
        (E.apply ws d) (E.apply ws d') := fun lk hlk => hL.congr_apply ws (ha lk hlk)
    obtain ⟨hexec, hadm'⟩ := hpin _ hview
    have hpin' : Pinned E value adm held s o (E.apply ws d') := by
      intro v hv
      rw [hexec] at hv ⊢
      obtain ⟨hv', hadmv⟩ := hpin v (hview.trans hv)
      exact ⟨hv', fun _ => hadmv hadm⟩
    have hstep := (ih ha.left).stmt (hexec ▸ hx) (hadm' hadm) hpin'
    rwa [hexec] at hstep
  | ask x _ ih => exact (ih ha).ask x

end Replay

/-! ### The invariant -/

/-- Where client `i` of `w` stands when transactions are atomic: at its own program outside
    a transaction, in front of `BEGIN` while its transaction may still commit, at its own
    program again once it cannot. -/
inductive Follows (E : Engine Rows Ans D O W K Err) (value : (k : K) → D → V k)
    (adm : ι → S → D → Prop)
    (w : World Rows Ans Err α D W K C ι) (i : ι) : Phase → Prog Rows Ans Err α → Prop
  | free : (∀ c, (w.session c).opener ≠ some i) → (w.prog i).Ok E value (adm i) .free →
      Follows E value adm w i .free (w.prog i)
  | inside (c : C) (pending : List (ι × W)) (held : List K) (k : Prog Rows Ans Err α)
      (err : Err → Prog Rows Ans Err α) :
      w.session c = .active i pending → (∀ x ∈ pending, x.1 = i) →
      (∀ c', (w.session c').opener = some i → c' = c) →
      (∀ lk, w.holder lk = some c ↔ lk ∈ held) →
      Replay E value (adm i) w.db k (pending.map Prod.snd) held (w.prog i) →
      (w.prog i).Ok E value (adm i) (.inside held) →
      Follows E value adm w i .free (.control .beginTx k err)
  | doomed (c : C) : (w.session c).opener = some i →
      (∀ c', (w.session c').opener = some i → c' = c) → (w.prog i).Ok E value (adm i) .doomed →
      Follows E value adm w i .doomed (w.prog i)

/-- All clients follow their serial counterparts, and locks belong to open transactions. -/
structure Atomically (E : Engine Rows Ans D O W K Err) (value : (k : K) → D → V k)
    (adm : ι → S → D → Prop)
    (w : World Rows Ans Err α D W K C ι) (ts : ι → Phase × Prog Rows Ans Err α) : Prop where
  follows : ∀ i, Follows E value adm w i (ts i).1 (ts i).2
  held : ∀ lk c, w.holder lk = some c → ∃ i pending, w.session c = .active i pending

section Invariant

variable {E : Engine Rows Ans D O W K Err} {value : (k : K) → D → V k} {adm : ι → S → D → Prop}
variable {w w' : World Rows Ans Err α D W K C ι} {l : Label Ans O Err C ι}
variable {ts : ι → Phase × Prog Rows Ans Err α}

theorem atomically_init {d : D} {prog : ι → Prog Rows Ans Err α}
    (h : ∀ i, (prog i).Ok E value (adm i) .free) :
    Atomically E value adm (World.init d prog : World Rows Ans Err α D W K C ι)
      (fun i => (.free, prog i)) where
  follows i := .free (fun _ hc => by cases hc) (h i)
  held lk c hc := by cases hc

/-- A finished client is finished serially, with the same result. -/
theorem Follows.result {i : ι} {φ : Phase} {p : Prog Rows Ans Err α} {r : Except Err α}
    (h : Follows E value adm w i φ p) (hr : (w.prog i).result = some r) : p = w.prog i := by
  cases h with
  | free _ _ => rfl
  | doomed _ _ _ _ => rfl
  | inside _ _ _ _ _ _ _ _ _ _ hok =>
    rcases Prog.result_eq_some hr with ⟨a, ha, -⟩ | ⟨e, he, -⟩
    · rw [ha] at hok; exact hok.elim
    · rw [he] at hok; exact hok.elim

/-- The connection a client moves on is idle, or in a transaction of its own. -/
theorem Exclusive.session (hex : Exclusive w l) :
    w.session l.conn = .idle ∨ (w.session l.conn).opener = some l.thread := by
  cases hs : w.session l.conn with
  | idle => exact Or.inl rfl
  | active i pending => exact Or.inr (by rw [← hex.1 i (by rw [hs]; rfl)]; rfl)
  | failed i => exact Or.inr (by rw [← hex.1 i (by rw [hs]; rfl)]; rfl)

/-- A lock that another connection holds is not among those of the step. -/
theorem not_mem_locks {m : Move Rows Ans Err α ι W K} (hf : w.Free l.conn m.locks) {c : C}
    (hc : c ≠ l.conn) {lk : K}
    (hlk : w.holder lk = some c) : lk ∉ m.locks := by
  intro hmem
  rcases hf lk hmem with h | h
  · rw [h] at hlk; cases hlk
  · rw [h, Option.some.injEq] at hlk; exact hc hlk.symm

variable [DecidableEq ι] [DecidableEq C] [DecidableEq K]
variable {m : Move Rows Ans Err α ι W K}

/-! ### The world after a step -/

@[simp] theorem after_db : (w.after E l m).db = E.apply (m.commits.map Prod.snd) w.db := rfl

@[simp] theorem after_journal : (w.after E l m).journal = w.journal ++ m.commits := rfl

@[simp] theorem after_prog_self : (w.after E l m).prog l.thread = m.next := by
  simp [World.after]

theorem after_prog_of_ne {i : ι} (h : i ≠ l.thread) : (w.after E l m).prog i = w.prog i := by
  simp [World.after, h]

@[simp] theorem after_session_self : (w.after E l m).session l.conn = m.session := by
  simp [World.after]

theorem after_session_of_ne {c : C} (h : c ≠ l.conn) :
    (w.after E l m).session c = w.session c := by
  simp [World.after, h]

theorem after_holder (lk : K) :
    (w.after E l m).holder lk = holderAfter w.holder l.conn m.locks m.session lk := rfl

/-- Locks of other connections are neither taken nor given away by a step. -/
theorem after_holder_of_ne (hf : w.Free l.conn m.locks) {c : C} (hc : c ≠ l.conn) (lk : K) :
    (w.after E l m).holder lk = some c ↔ w.holder lk = some c := by
  rw [after_holder]
  unfold holderAfter
  split
  · split
    · next hlk =>
      have hne : w.holder lk ≠ some c := by
        rcases hf lk hlk with h | h
        · simp [h]
        · rw [h]; simpa using hc.symm
      simp [hne, hc.symm]
    · rfl
  · split
    · next h => simp [h, hc.symm]
    · rfl

/-- After a step that leaves the connection idle, its client has no transaction. -/
theorem no_transaction_after (hex : Exclusive w l) (hm : m.session.opener = none) (c : C) :
    ((w.after E l m).session c).opener ≠ some l.thread := by
  intro hc
  by_cases h : c = l.conn
  · subst h
    rw [after_session_self, hm] at hc
    cases hc
  · rw [after_session_of_ne h] at hc
    exact h (hex.2 c hc)

/-- After a step, a transaction of its client can only be on the step's connection. -/
theorem one_transaction_after (hex : Exclusive w l) (c : C)
    (hc : ((w.after E l m).session c).opener = some l.thread) : c = l.conn := by
  by_contra h
  rw [after_session_of_ne h] at hc
  exact h (hex.2 c hc)

/-- A step opens and closes no transaction of another client. -/
theorem after_opener {i : ι} (hi : i ≠ l.thread) (hex : Exclusive w l)
    (hopen : m.session.opener = none ∨ m.session.opener = some l.thread) (c : C) :
    ((w.after E l m).session c).opener = some i ↔ (w.session c).opener = some i := by
  by_cases hc : c = l.conn
  · subst hc
    rw [after_session_self]
    constructor
    · intro h
      rcases hopen with ho | ho
      · rw [ho] at h; cases h
      · rw [ho, Option.some.injEq] at h; exact absurd h.symm hi
    · intro h; exact absurd (hex.1 i h) hi
  · rw [after_session_of_ne hc]

/-- The clients that do not move keep following: what their transactions have locked does
    not change. -/
theorem Follows.other {i : ι} {φ : Phase} {p : Prog Rows Ans Err α}
    (hL : Lawful E value) (hf : w.Free l.conn m.locks) (hi : i ≠ l.thread)
    (hopen : m.session.opener = none ∨ m.session.opener = some l.thread)
    (hex : Exclusive w l)
    (hframe : ∀ lk c, c ≠ l.conn → w.holder lk = some c →
      value lk (w.after E l m).db = value lk w.db)
    (h : Follows E value adm w i φ p) : Follows E value adm (w.after E l m) i φ p := by
  -- On the step's connection there is no transaction of `i`, neither before nor after.
  have hbefore : ∀ c, (w.session c).opener = some i → c ≠ l.conn := by
    rintro c hc rfl
    exact hi (hex.1 i hc)
  have hsess := after_opener (E := E) hi hex hopen
  have hprog : (w.after E l m).prog i = w.prog i := after_prog_of_ne hi
  cases h with
  | free hno hok =>
    rw [← hprog]
    exact .free (fun c hc => hno c ((hsess c).mp hc)) (by rw [hprog]; exact hok)
  | inside c pending held k err hc hauth huniq hheld hrep hok =>
    have hne : c ≠ l.conn := hbefore c (by rw [hc]; rfl)
    refine .inside c pending held k err (by rw [after_session_of_ne hne]; exact hc) hauth
      (fun c' hc' => huniq c' ((hsess c').mp hc'))
      (fun lk => (after_holder_of_ne hf hne lk).trans (hheld lk)) ?_ (by rw [hprog]; exact hok)
    rw [hprog]
    exact hrep.stable hL fun lk hlk => (hframe lk c hne ((hheld lk).mpr hlk)).symm
  | doomed c hc huniq hok =>
    rw [← hprog]
    exact .doomed c ((hsess c).mpr hc) (fun c' hc' => huniq c' ((hsess c').mp hc'))
      (by rw [hprog]; exact hok)

end Invariant

end ReadCommitted
