import Chronos.ReadCommitted.Serial

namespace ReadCommitted

/-!
# Every exclusive step is a serial move

`Advance` collects what the step of one disciplined client does to its own serial
counterpart; `serial_step` puts it together with `Follows.other`.
-/

variable {S A : Type} {Rows : S → Type} {Ans : A → Type} {Err α : Type}
variable {D O W K C ι : Type} {V : K → Type}
variable {E : Engine Rows Ans D O W K Err} {value : (k : K) → D → V k} {adm : ι → S → D → Prop}
variable {w w' : World Rows Ans Err α D W K C ι} {l : Label Ans O Err C ι}
variable {m : Move Rows Ans Err α ι W K} {ts : ι → Phase × Prog Rows Ans Err α}

/-- A move outside transactions stays outside, and commits at most what it has locked. -/
theorem free_move {adm : S → D → Prop} (hL : Lawful E value) {me : ι} {env : Env O Err Ans} {d : D}
    {p : Prog Rows Ans Err α} (hok : p.Ok E value adm .free)
    (hne : ∀ ok err, p ≠ .control .beginTx ok err) (hm : p.move E me env .idle d = some m) :
    m.session = .idle ∧ m.next.Ok E value adm .free ∧
      (∃ ws : List W, m.commits = ws.map (me, ·)) ∧
      ∀ lk, lk ∉ m.locks → value lk (E.apply (m.commits.map Prod.snd) d) = value lk d := by
  cases p with
  | ret a => cases hm
  | throw e => cases hm
  | ask a k =>
    obtain rfl := by simpa using hm.symm
    refine ⟨rfl, hok _, ⟨E.note a (env.answer a), rfl⟩, fun lk _ => ?_⟩
    have hws : ((E.note a (env.answer a)).map (me, ·)).map Prod.snd = E.note a (env.answer a) := by
      simp [Function.comp_def]
    rw [hws]
    exact hL.note a _ lk d
  | stmt s ok err =>
    rcases move_stmt_idle_cases hm with ⟨e, -, rfl⟩ | ⟨e, -, -, rfl⟩ | ⟨r, ws, -, hx, rfl⟩
    · exact ⟨rfl, hok.2 e, ⟨[], rfl⟩, fun _ _ => rfl⟩
    · exact ⟨rfl, hok.2 e, ⟨[], rfl⟩, fun _ _ => rfl⟩
    · refine ⟨rfl, hok.1 r, ⟨ws, rfl⟩, fun lk hlk => ?_⟩
      have hws : (ws.map (me, ·)).map Prod.snd = ws := by simp [Function.comp_def]
      rw [hws]
      exact hL.frame s env.fresh d r ws hx lk hlk
  | control c ok err =>
    rcases move_control_cases hm with ⟨e, -, rfl⟩ | ⟨-, rfl⟩
    · cases c with
      | beginTx => exact absurd rfl (hne ok err)
      | commit => exact ⟨rfl, hok.2 e, ⟨[], rfl⟩, fun _ _ => rfl⟩
      | rollback => exact ⟨rfl, hok.2 e, ⟨[], rfl⟩, fun _ _ => rfl⟩
    · cases c with
      | beginTx => exact absurd rfl (hne ok err)
      | commit => exact ⟨rfl, hok.1, ⟨[], rfl⟩, fun _ _ => rfl⟩
      | rollback => exact ⟨rfl, hok.1, ⟨[], rfl⟩, fun _ _ => rfl⟩

variable [DecidableEq ι] [DecidableEq C] [DecidableEq K]

/-- What a move of client `l.thread`, serially at `(φ, p)`, amounts to: its new serial place
    `(φ', p')`, the committed writes, and what stays locked by others. -/
structure Advance (E : Engine Rows Ans D O W K Err) (value : (k : K) → D → V k)
    (adm : ι → S → D → Prop)
    (w : World Rows Ans Err α D W K C ι) (l : Label Ans O Err C ι)
    (m : Move Rows Ans Err α ι W K) (φ : Phase) (p : Prog Rows Ans Err α) (ws : List W)
    (φ' : Phase) (p' : Prog Rows Ans Err α) : Prop where
  follows : Follows E value adm (w.after E l m) l.thread φ' p'
  commits : m.commits = ws.map (l.thread, ·)
  opener : m.session.opener = none ∨ m.session.opener = some l.thread
  frame : ∀ lk c, c ≠ l.conn → w.holder lk = some c →
    value lk (w.after E l m).db = value lk w.db
  serial : (ws = [] ∧ φ' = φ ∧ p' = p) ∨ Serial E (adm l.thread) l.thread l.env w.db φ p ws φ' p'

/-- A step that commits nothing leaves all values as they are. -/
theorem frame_of_no_commits (h : m.commits = []) (lk : K) :
    value lk (w.after E l m).db = value lk w.db := by
  rw [after_db, h]; rfl

/-- After a step, a client without a transaction follows its own program. -/
theorem follows_free (hex : Exclusive w l) (hm : m.session.opener = none)
    (hok : m.next.Ok E value (adm l.thread) .free) :
    Follows E value adm (w.after E l m) l.thread .free m.next := by
  have h : Follows E value adm (w.after E l m) l.thread .free ((w.after E l m).prog l.thread) :=
    .free (no_transaction_after hex hm) (by rw [after_prog_self]; exact hok)
  rwa [after_prog_self] at h

/-- After a step, a client that will not commit follows its own program. -/
theorem follows_doomed (hex : Exclusive w l) (hm : m.session.opener = some l.thread)
    (hok : m.next.Ok E value (adm l.thread) .doomed) :
    Follows E value adm (w.after E l m) l.thread .doomed m.next := by
  have h : Follows E value adm (w.after E l m) l.thread .doomed ((w.after E l m).prog l.thread) :=
    .doomed l.conn (by rw [after_session_self]; exact hm) (one_transaction_after hex)
      (by rw [after_prog_self]; exact hok)
  rwa [after_prog_self] at h

/-- After a step inside a transaction that commits nothing, the client is still in front of
    its `BEGIN`. -/
theorem follows_inside (hex : Exclusive w l) {pending : List (ι × W)} {held : List K}
    {k : Prog Rows Ans Err α} {err : Err → Prog Rows Ans Err α}
    (hm : m.session = .active l.thread pending) (hauth : ∀ x ∈ pending, x.1 = l.thread)
    (hcommits : m.commits = [])
    (hheld : ∀ lk, (w.after E l m).holder lk = some l.conn ↔ lk ∈ held)
    (hrep : Replay E value (adm l.thread) w.db k (pending.map Prod.snd) held m.next)
    (hok : m.next.Ok E value (adm l.thread) (.inside held)) :
    Follows E value adm (w.after E l m) l.thread .free (.control .beginTx k err) := by
  refine .inside l.conn pending held k err (by rw [after_session_self]; exact hm) hauth
    (one_transaction_after hex) hheld ?_ (by rw [after_prog_self]; exact hok)
  rw [after_prog_self, after_db, hcommits]
  exact hrep

/-- Locks are added to those of the step's connection while its transaction is open. -/
theorem after_holder_self {i : ι} {pending : List (ι × W)} (hm : m.session = .active i pending)
    (lk : K) : (w.after E l m).holder lk = some l.conn ↔
      lk ∈ m.locks ∨ w.holder lk = some l.conn := by
  rw [after_holder, hm]
  unfold holderAfter
  by_cases h : lk ∈ m.locks <;> simp [h]

/-- A client outside transactions advances by a serial move, or opens a transaction. -/
theorem advance_free (hL : Lawful E value) (hex : Exclusive w l)
    (hheld : ∀ lk c, w.holder lk = some c → ∃ i pending, w.session c = .active i pending)
    (hf : w.Free l.conn m.locks) (hidle : w.session l.conn = .idle)
    (hok : (w.prog l.thread).Ok E value (adm l.thread) .free)
    (hm : (w.prog l.thread).move E l.thread l.env (w.session l.conn) w.db = some m) :
    ∃ ws φ p, Advance E value adm w l m .free (w.prog l.thread) ws φ p := by
  rw [hidle] at hm
  by_cases hb : ∃ ok err, w.prog l.thread = .control .beginTx ok err
  · obtain ⟨ok, err, hp⟩ := hb
    rw [hp] at hm hok ⊢
    rcases move_control_cases hm with ⟨e, hfault, rfl⟩ | ⟨-, rfl⟩
    · exact ⟨[], .free, err e, follows_free hex rfl (hok.2 e), rfl, Or.inl rfl,
        fun lk _ _ _ => frame_of_no_commits rfl lk, Or.inr (.beginFault hfault)⟩
    · refine ⟨[], .free, .control .beginTx ok err, ?_, rfl, Or.inr rfl,
        fun lk _ _ _ => frame_of_no_commits rfl lk, Or.inl ⟨rfl, rfl, rfl⟩⟩
      refine follows_inside hex rfl (by simp) rfl (fun lk => ?_) .start hok.1
      -- An idle connection held no lock, and `BEGIN` takes none.
      rw [after_holder_self rfl]
      constructor
      · rintro (h | h)
        · exact h
        · obtain ⟨i, pending, hi⟩ := hheld lk _ h
          rw [hidle] at hi
          cases hi
      · intro h; cases h
  · have hne : ∀ ok err, w.prog l.thread ≠ .control .beginTx ok err :=
      fun ok err h => hb ⟨ok, err, h⟩
    obtain ⟨hsess, hnext, ⟨ws, hws⟩, hframe⟩ := free_move hL hok hne hm
    have hmap : m.commits.map Prod.snd = ws := by rw [hws]; simp [Function.comp_def]
    refine ⟨ws, .free, m.next, follows_free hex (by rw [hsess]; rfl) hnext, hws,
      Or.inl (by rw [hsess]; rfl), fun lk c hc hlk => ?_, Or.inr ?_⟩
    · exact hframe lk (not_mem_locks hf hc hlk)
    · rw [← hmap]
      exact .move hne hm

/-- A client inside a transaction goes on replaying, commits, or is stopped. -/
theorem advance_inside (hL : Lawful E value) (hex : Exclusive w l) {pending : List (ι × W)}
    {held : List K} {k : Prog Rows Ans Err α} {err : Err → Prog Rows Ans Err α}
    (hsess : w.session l.conn = .active l.thread pending)
    (hauth : ∀ x ∈ pending, x.1 = l.thread)
    (hheld : ∀ lk, w.holder lk = some l.conn ↔ lk ∈ held)
    (hrep : Replay E value (adm l.thread) w.db k (pending.map Prod.snd) held (w.prog l.thread))
    (hok : (w.prog l.thread).Ok E value (adm l.thread) (.inside held))
    (hadm : ∀ s ok err, w.prog l.thread = .stmt s ok err →
      adm l.thread s (E.apply (pending.map Prod.snd) w.db))
    (hm : (w.prog l.thread).move E l.thread l.env (w.session l.conn) w.db = some m) :
    ∃ ws φ p, Advance E value adm w l m .free (.control .beginTx k err) ws φ p := by
  have hrun := hrep.txRun
  rw [hsess] at hm
  generalize hp : w.prog l.thread = p at hm hok hadm hrep hrun
  cases p with
  | ret a => cases hm
  | throw e => cases hm
  | ask a f =>
    obtain rfl := by simpa [hok.1] using hm.symm
    refine ⟨[], .free, .control .beginTx k err, ?_, rfl, Or.inr rfl,
      fun lk _ _ _ => frame_of_no_commits rfl lk, Or.inl ⟨rfl, rfl, rfl⟩⟩
    refine follows_inside hex rfl hauth rfl (fun lk => ?_) (hrep.ask _) (hok.2 _)
    rw [after_holder_self rfl]
    simpa using hheld lk
  | stmt s ok err' =>
    rcases move_stmt_active_cases hm with ⟨e, hfault, rfl⟩ | ⟨e, hfault, hx, rfl⟩ |
      ⟨r, ws, -, hx, rfl⟩
    · exact ⟨[], .doomed, err' e, follows_doomed hex rfl (hok.2 e), rfl, Or.inr rfl,
        fun lk _ _ _ => frame_of_no_commits rfl lk, Or.inr (.fail hrun (Or.inl hfault))⟩
    · exact ⟨[], .doomed, err' e, follows_doomed hex rfl (hok.2 e), rfl, Or.inr rfl,
        fun lk _ _ _ => frame_of_no_commits rfl lk,
        Or.inr (.fail hrun (Or.inr ⟨hfault, hx⟩))⟩
    · have hmap : (pending ++ ws.map (l.thread, ·)).map Prod.snd
          = pending.map Prod.snd ++ ws := by simp [Function.comp_def]
      rcases hok.1 _ _ r ws hx with ⟨hpin, hnext⟩ | ⟨hclose, hnext⟩
      · -- The answer is pinned by what is locked, so the transaction may still begin later.
        refine ⟨[], .free, .control .beginTx k err, ?_, rfl, Or.inr rfl,
          fun lk _ _ _ => frame_of_no_commits rfl lk, Or.inl ⟨rfl, rfl, rfl⟩⟩
        refine follows_inside hex rfl ?_ rfl (fun lk => ?_) ?_ hnext
        · intro x hx'
          rcases List.mem_append.mp hx' with h | h
          · exact hauth x h
          · obtain ⟨a, -, rfl⟩ := List.mem_map.mp h
            rfl
        · rw [after_holder_self rfl, List.mem_append, hheld lk]
          exact or_comm
        · rw [hmap]
          exact hrep.stmt hx (hadm s ok err' rfl) hpin
      · -- Not pinned: the answer is true now, and the client gives up on it.
        exact ⟨[], .doomed, ok r, follows_doomed hex rfl hnext, rfl, Or.inr rfl,
          fun lk _ _ _ => frame_of_no_commits rfl lk,
          Or.inr (.giveUp (hrun.stmt hx (hadm s ok err' rfl)) hclose)⟩
  | control c ok err' =>
    cases c with
    | beginTx => exact hok.elim
    | rollback =>
      rcases move_control_cases hm with ⟨e, hfault, rfl⟩ | ⟨hfault, rfl⟩
      · exact ⟨[], .doomed, err' e, follows_doomed hex rfl (hok.2 e), rfl, Or.inr rfl,
          fun lk _ _ _ => frame_of_no_commits rfl lk, Or.inr (.abandonFault hfault hrun)⟩
      · exact ⟨[], .free, ok, follows_free hex rfl hok.1, rfl, Or.inl rfl,
          fun lk _ _ _ => frame_of_no_commits rfl lk, Or.inr (.abandon hfault hrun)⟩
    | commit =>
      rcases move_control_cases hm with ⟨e, hfault, rfl⟩ | ⟨hfault, rfl⟩
      · exact ⟨[], .free, err' e, follows_free hex rfl (hok.2 e), rfl, Or.inl rfl,
          fun lk _ _ _ => frame_of_no_commits rfl lk, Or.inr (.commitFault hfault hrun)⟩
      · refine ⟨pending.map Prod.snd, .free, ok, follows_free hex rfl hok.1, ?_, Or.inl rfl,
          fun lk c hc hlk => ?_, Or.inr (.commit hfault hrun)⟩
        · rw [List.map_map]
          exact (List.map_id'' (fun x => rfl) pending).symm.trans
            (List.map_congr_left fun x hx => Prod.ext (hauth x hx) rfl)
        · -- What another connection has locked is not among this transaction's locks.
          have hnot : lk ∉ held := by
            intro hmem
            rw [(hheld lk).mpr hmem, Option.some.injEq] at hlk
            exact hc hlk.symm
          exact hrep.frame hL lk hnot

/-- A client that will not commit closes its transaction. -/
theorem advance_doomed (hex : Exclusive w l)
    (hsess : (w.session l.conn).opener = some l.thread)
    (hok : (w.prog l.thread).Ok E value (adm l.thread) .doomed)
    (hm : (w.prog l.thread).move E l.thread l.env (w.session l.conn) w.db = some m) :
    ∃ ws φ p, Advance E value adm w l m .doomed (w.prog l.thread) ws φ p := by
  generalize hp : w.prog l.thread = p at hm hok
  cases p with
  | ret a => cases hm
  | throw e => cases hm
  | ask a f =>
    obtain rfl := by simpa [hok.1] using hm.symm
    exact ⟨[], .doomed, f (l.env.answer a), follows_doomed hex hsess (hok.2 _), rfl, Or.inr hsess,
      fun lk _ _ _ => frame_of_no_commits rfl lk, Or.inr .wait⟩
  | stmt s ok err => exact hok.elim
  | control c ok err =>
    cases c with
    | beginTx => exact hok.elim
    | commit => exact hok.elim
    | rollback =>
      rcases move_control_cases hm with ⟨e, hfault, rfl⟩ | ⟨hfault, rfl⟩
      · exact ⟨[], .doomed, err e, follows_doomed hex hsess (hok.2 e), rfl, Or.inr hsess,
          fun lk _ _ _ => frame_of_no_commits rfl lk, Or.inr (.rollbackFault hfault)⟩
      · exact ⟨[], .free, ok, follows_free hex rfl hok.1, rfl, Or.inl rfl,
          fun lk _ _ _ => frame_of_no_commits rfl lk, Or.inr (.rollback hfault)⟩

/-- The step sends its statement, if it is inside a transaction, where `adm` allows it. -/
def Admits (E : Engine Rows Ans D O W K Err) (adm : ι → S → D → Prop)
    (w : World Rows Ans Err α D W K C ι) (l : Label Ans O Err C ι) : Prop :=
  ∀ s ok err i pending, w.prog l.thread = .stmt s ok err →
    w.session l.conn = .active i pending →
    adm l.thread s (E.apply (pending.map Prod.snd) w.db)

/-- Every client advances. -/
theorem advance (hL : Lawful E value) (h : Atomically E value adm w ts) (hex : Exclusive w l)
    (hadm : Admits E adm w l) (hf : w.Free l.conn m.locks)
    (hm : (w.prog l.thread).move E l.thread l.env (w.session l.conn) w.db = some m) :
    ∃ ws φ p, Advance E value adm w l m (ts l.thread).1 (ts l.thread).2 ws φ p := by
  have hfol := h.follows l.thread
  generalize (ts l.thread).1 = φ, (ts l.thread).2 = p at hfol
  cases hfol with
  | free hno hok =>
    have hidle : w.session l.conn = .idle := hex.session.resolve_right (hno l.conn)
    exact advance_free hL hex h.held hf hidle hok hm
  | inside c pending held k err hc hauth huniq hheld hrep hok =>
    obtain rfl : c = l.conn := hex.2 c (by rw [hc]; rfl)
    exact advance_inside hL hex hc hauth hheld hrep hok
      (fun s ok err' hp => hadm s ok err' _ _ hp hc) hm
  | doomed c hc huniq hok =>
    obtain rfl : c = l.conn := hex.2 c hc
    exact advance_doomed hex hc hok hm

/-- Locks still belong to open transactions after a step. -/
theorem held_after (hf : w.Free l.conn m.locks)
    (hheld : ∀ lk c, w.holder lk = some c → ∃ i pending, w.session c = .active i pending)
    (lk : K) (c : C) (h : (w.after E l m).holder lk = some c) :
    ∃ i pending, (w.after E l m).session c = .active i pending := by
  by_cases hc : c = l.conn
  · subst hc
    cases hσ : m.session with
    | active i pending => exact ⟨i, pending, by rw [after_session_self]; exact hσ⟩
    | idle =>
      rw [after_holder, hσ] at h
      unfold holderAfter at h
      split at h <;> simp_all
    | failed i =>
      rw [after_holder, hσ] at h
      unfold holderAfter at h
      split at h <;> simp_all
  · rw [after_session_of_ne hc]
    exact hheld lk c ((after_holder_of_ne hf hc lk).mp h)

/-- **Disciplined transactions are atomic.**  An exclusive step of disciplined clients is a
    serial move of the client that steps, or changes nothing serially; it commits exactly
    the writes of that move. -/
theorem serial_step (hL : Lawful E value) (h : Atomically E value adm w ts)
    (hex : Exclusive w l) (hadm : Admits E adm w l) (hs : w.step E l = some w') :
    ∃ ws φ p, Atomically E value adm w' (Function.update ts l.thread (φ, p)) ∧
      w'.db = E.apply ws w.db ∧ w'.journal = w.journal ++ ws.map (l.thread, ·) ∧
      (∀ lk c, c ≠ l.conn → w.holder lk = some c →
        value lk w'.db = value lk w.db ∧ w'.holder lk = some c) ∧
      ((ws = [] ∧ (φ, p) = ts l.thread) ∨
        Serial E (adm l.thread) l.thread l.env w.db (ts l.thread).1 (ts l.thread).2 ws φ p) := by
  obtain ⟨m, hm, hf, rfl⟩ := step_cases hs
  obtain ⟨ws, φ, p, hadv⟩ := advance hL h hex hadm hf hm
  have hmap : m.commits.map Prod.snd = ws := by rw [hadv.commits]; simp [Function.comp_def]
  refine ⟨ws, φ, p, ⟨fun i => ?_, held_after hf h.held⟩, by rw [after_db, hmap],
    by rw [after_journal, hadv.commits],
    fun lk c hc hlk => ⟨hadv.frame lk c hc hlk, (after_holder_of_ne hf hc lk).mpr hlk⟩, ?_⟩
  · by_cases hi : i = l.thread
    · subst hi
      simpa only [Function.update_self] using hadv.follows
    · simp only [Function.update_of_ne hi]
      exact (h.follows i).other hL hf hi hadv.opener hex hadv.frame
  · rcases hadv.serial with ⟨hws, hφ, hp⟩ | hser
    · exact Or.inl ⟨hws, by rw [hφ, hp]⟩
    · exact Or.inr hser

end ReadCommitted
