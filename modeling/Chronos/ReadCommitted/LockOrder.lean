import Chronos.ReadCommitted.Progress

namespace ReadCommitted

/-!
# Locks taken in one order

Transactions that lock one row after the other can wait for each other in a circle.  They cannot
when all of them take their locks in one order: then whoever waits, waits for somebody whose next
lock ranks higher, and ranks are bounded.

* `Prog.Climbs` — inside a transaction the program locks only what it has locked before, or what
  ranks above all of it; and it leaves every transaction it has opened.
* `World.Climbing` — the invariant: what a client holds is what its program has locked.
* `World.Climbing.can_step` — some client can always go on.

Every client has a connection of its own here, and no `BEGIN`, `COMMIT` or `ROLLBACK` fails from
outside: a `ROLLBACK` that does would leave its locks with nobody to release them.
-/

variable {S A : Type} {Rows : S → Type} {Ans : A → Type} {Err α β : Type}
variable {D O W K C ι : Type}

/-- **The order.**  `T` says where, and with which results, the program may end. -/
def Prog.Climbs (E : Engine Rows Ans D O W K Err) (rank : K → Nat)
    (T : Mode K → Except Err α → Prop) : Mode K → Prog Rows Ans Err α → Prop
  | m, .ret a => T m (.ok a)
  | m, .throw e => T m (.error e)
  | m, .ask _ k => ∀ x, Climbs E rank T m (k x)
  | .free, .stmt _ ok err => (∀ r, Climbs E rank T .free (ok r)) ∧ ∀ e, Climbs E rank T .free (err e)
  | .inside held, .stmt s ok err =>
      (∀ o d, ∀ k ∈ (E.exec s o d).locks, k ∈ held ∨ ∀ k' ∈ held, rank k' < rank k) ∧
      (∀ o d r ws, (E.exec s o d).result = .ok (r, ws) →
        Climbs E rank T (.inside (held ++ (E.exec s o d).locks)) (ok r)) ∧
      ∀ e, Climbs E rank T .doomed (err e)
  | .doomed, .stmt _ _ err => ∀ e, Climbs E rank T .doomed (err e)
  | .free, .control .beginTx ok _ => Climbs E rank T (.inside []) ok
  | _, .control .beginTx _ _ => False
  | _, .control .commit ok _ => Climbs E rank T .free ok
  | _, .control .rollback ok _ => Climbs E rank T .free ok

section Climbs

variable {E : Engine Rows Ans D O W K Err} {rank : K → Nat}
variable {T : Mode K → Except Err α → Prop} {U : Mode K → Except Err β → Prop} {m : Mode K}

@[simp] theorem climbs_ret {a : α} :
    (Prog.ret a : Prog Rows Ans Err α).Climbs E rank T m ↔ T m (.ok a) := by
  cases m <;> exact Iff.rfl

@[simp] theorem climbs_throw {e : Err} :
    (Prog.throw e : Prog Rows Ans Err α).Climbs E rank T m ↔ T m (.error e) := by
  cases m <;> exact Iff.rfl

@[simp] theorem climbs_ask {a : A} {k : Ans a → Prog Rows Ans Err α} :
    (Prog.ask a k).Climbs E rank T m ↔ ∀ x, (k x).Climbs E rank T m := by
  cases m <;> exact Iff.rfl

/-- `ROLLBACK` is left, wherever it was sent. -/
@[simp] theorem climbs_rollback {ok : Prog Rows Ans Err α} {err : Err → Prog Rows Ans Err α} :
    (Prog.control .rollback ok err).Climbs E rank T m ↔ ok.Climbs E rank T .free := by
  cases m <;> exact Iff.rfl

/-- What follows a program starts where the program ends. -/
theorem Prog.Climbs.andThen {p : Prog Rows Ans Err α} {f : α → Prog Rows Ans Err β}
    {h : Err → Prog Rows Ans Err β} (hp : p.Climbs E rank T m)
    (hf : ∀ m a, T m (.ok a) → (f a).Climbs E rank U m)
    (hh : ∀ m e, T m (.error e) → (h e).Climbs E rank U m) : (p.andThen f h).Climbs E rank U m := by
  induction p generalizing m with
  | ret a => exact hf m a (climbs_ret.mp hp)
  | throw e => exact hh m e (climbs_throw.mp hp)
  | ask a k ih => exact climbs_ask.mpr fun x => ih x (climbs_ask.mp hp x)
  | stmt s ok err ihok iherr =>
    cases m with
    | free => exact ⟨fun r => ihok r (hp.1 r), fun e => iherr e (hp.2 e)⟩
    | inside held =>
      exact ⟨hp.1, fun o d r ws hx => ihok r (hp.2.1 o d r ws hx), fun e => iherr e (hp.2.2 e)⟩
    | doomed => exact fun e => iherr e (hp e)
  | control c ok err ihok iherr =>
    cases m with
    | free => cases c <;> exact ihok hp
    | inside held =>
      cases c with
      | beginTx => exact hp
      | commit => exact ihok hp
      | rollback => exact ihok hp
    | doomed =>
      cases c with
      | beginTx => exact hp
      | commit => exact ihok hp
      | rollback => exact ihok hp

theorem Prog.Climbs.bind {p : Prog Rows Ans Err α} {f : α → Prog Rows Ans Err β}
    (hp : p.Climbs E rank T m) (hf : ∀ m a, T m (.ok a) → (f a).Climbs E rank U m)
    (hU : ∀ m e, T m (.error e) → U m (.error e)) : (p.bind f).Climbs E rank U m :=
  hp.andThen hf fun m e h => climbs_throw.mpr (hU m e h)

theorem Prog.Climbs.tryCatch {T' : Mode K → Except Err α → Prop} {p : Prog Rows Ans Err α}
    {h : Err → Prog Rows Ans Err α} (hp : p.Climbs E rank T m)
    (hT : ∀ m a, T m (.ok a) → T' m (.ok a))
    (hh : ∀ m e, T m (.error e) → (h e).Climbs E rank T' m) : (p.tryCatch h).Climbs E rank T' m :=
  hp.andThen (fun m a h => climbs_ret.mpr (hT m a h)) hh

/-- A program that stays outside transactions, and what follows it. -/
theorem Prog.Climbs.outside_bind {p : Prog Rows Ans Err α} {f : α → Prog Rows Ans Err β}
    (hp : p.Climbs E rank Mode.Outside .free) (hf : ∀ a, (f a).Climbs E rank U .free)
    (hU : ∀ e, U .free (.error e)) : (p.bind f).Climbs E rank U .free := by
  refine hp.bind ?_ ?_
  · rintro m a rfl
    exact hf a
  · rintro m e rfl
    exact hU e

/-- A program that opens no transaction holds nothing. -/
theorem Prog.Talks.climbs {φ : S → Prop} {ψ : A → Prop} {p : Prog Rows Ans Err α}
    (hp : p.Talks φ ψ) : p.Climbs E rank Mode.Outside .free := by
  induction p with
  | ret a => exact climbs_ret.mpr rfl
  | throw e => exact climbs_throw.mpr rfl
  | stmt s ok err ihok iherr => exact ⟨fun r => ihok r (hp.2.1 r), fun e => iherr e (hp.2.2 e)⟩
  | control c ok err ihok iherr => exact hp.elim
  | ask a k ih => exact climbs_ask.mpr fun x => ih x (hp.2 x)

end Climbs

/-! ### What a client holds -/

/-- The locks a program has taken in the transaction it is in. -/
def Mode.held : Mode K → List K
  | .inside held => held
  | _ => []

/-- The connection of client `me` is where its program takes it to be. -/
def Mode.Fits (me : ι) : Mode K → Session ι W → Prop
  | .free, σ => σ = .idle
  | .inside _, σ => ∃ pending, σ = .active me pending
  | .doomed, σ => σ = .failed me

section Move

variable {E : Engine Rows Ans D O W K Err} {rank : K → Nat} {T : Mode K → Except Err α → Prop}

/-- **One move.**  A transaction that goes on adds the locks of the move to those it has. -/
theorem Prog.Climbs.move {me : ι} {env : Env O Err Ans} {σ : Session ι W} {d : D} {mode : Mode K}
    {p : Prog Rows Ans Err α} {m : Move Rows Ans Err α ι W K} (h : p.Climbs E rank T mode)
    (hσ : mode.Fits me σ) (hfault : ∀ c ok err, p = .control c ok err → env.fault = none)
    (hm : p.move E me env σ d = some m) :
    ∃ mode' : Mode K, mode'.Fits me m.session ∧ m.next.Climbs E rank T mode' ∧
      ∀ held, mode' = .inside held → held = mode.held ++ m.locks := by
  cases p with
  | ret a => cases hm
  | throw e => cases hm
  | ask a k =>
    obtain rfl := by simpa using hm.symm
    refine ⟨mode, hσ, climbs_ask.mp h _, ?_⟩
    rintro held rfl
    exact (List.append_nil _).symm
  | stmt s ok err =>
    cases mode with
    | free =>
      obtain rfl : σ = .idle := hσ
      rcases move_stmt_idle_cases hm with ⟨e, -, rfl⟩ | ⟨e, -, -, rfl⟩ | ⟨r, ws, -, -, rfl⟩
      · exact ⟨.free, rfl, h.2 e, fun _ heq => nomatch heq⟩
      · exact ⟨.free, rfl, h.2 e, fun _ heq => nomatch heq⟩
      · exact ⟨.free, rfl, h.1 r, fun _ heq => nomatch heq⟩
    | inside held =>
      obtain ⟨pending, rfl⟩ := hσ
      rcases move_stmt_active_cases hm with ⟨e, -, rfl⟩ | ⟨e, -, -, rfl⟩ | ⟨r, ws, -, hx, rfl⟩
      · exact ⟨.doomed, rfl, h.2.2 e, fun _ heq => nomatch heq⟩
      · exact ⟨.doomed, rfl, h.2.2 e, fun _ heq => nomatch heq⟩
      · refine ⟨.inside _, ⟨_, rfl⟩, h.2.1 _ _ r ws hx, fun held' heq => ?_⟩
        exact (Mode.inside.inj heq).symm
    | doomed =>
      obtain rfl : σ = .failed me := hσ
      obtain ⟨e, rfl⟩ := move_stmt_failed_cases hm
      exact ⟨.doomed, rfl, h e, fun _ heq => nomatch heq⟩
  | control c ok err =>
    rw [move_control E me env d (hfault c ok err rfl)] at hm
    obtain rfl := by simpa using hm.symm
    cases mode with
    | free =>
      obtain rfl : σ = .idle := hσ
      cases c with
      | beginTx => exact ⟨.inside [], ⟨[], rfl⟩, h, fun held heq => (Mode.inside.inj heq).symm⟩
      | commit => exact ⟨.free, rfl, h, fun _ heq => nomatch heq⟩
      | rollback => exact ⟨.free, rfl, h, fun _ heq => nomatch heq⟩
    | inside held =>
      obtain ⟨pending, rfl⟩ := hσ
      cases c with
      | beginTx => exact h.elim
      | commit => exact ⟨.free, rfl, h, fun _ heq => nomatch heq⟩
      | rollback => exact ⟨.free, rfl, h, fun _ heq => nomatch heq⟩
    | doomed =>
      obtain rfl : σ = .failed me := hσ
      cases c with
      | beginTx => exact h.elim
      | commit => exact ⟨.free, rfl, h, fun _ heq => nomatch heq⟩
      | rollback => exact ⟨.free, rfl, h, fun _ heq => nomatch heq⟩

/-- A program that has to wait waits for a lock above all it has taken. -/
theorem Prog.Climbs.waits {me : ι} {env : Env O Err Ans} {σ : Session ι W} {d : D} {held : List K}
    {p : Prog Rows Ans Err α} {m : Move Rows Ans Err α ι W K}
    (h : p.Climbs E rank T (.inside held)) (hσ : (Mode.inside held).Fits me σ)
    (hm : p.move E me env σ d = some m) {k : K} (hk : k ∈ m.locks) (hnew : k ∉ held) :
    ∀ k' ∈ held, rank k' < rank k := by
  obtain ⟨pending, rfl⟩ := hσ
  cases p with
  | ret a => cases hm
  | throw e => cases hm
  | ask a f =>
    obtain rfl := by simpa using hm.symm
    cases hk
  | control c ok err =>
    rw [locks_control hm] at hk
    cases hk
  | stmt s ok err =>
    rcases move_stmt_active_cases hm with ⟨e, -, rfl⟩ | ⟨e, -, -, rfl⟩ | ⟨r, ws, -, -, rfl⟩
    · cases hk
    · exact (h.1 _ _ k hk).resolve_left hnew
    · exact (h.1 _ _ k hk).resolve_left hnew

end Move

/-! ### No deadlock -/

section World

variable {E : Engine Rows Ans D O W K Err} {rank : K → Nat} {own : ι → C}
variable {w w' : World Rows Ans Err α D W K C ι} {l : Label Ans O Err C ι}

/-- Every client climbs, and what its connection holds is what its program has locked. -/
structure World.Climbing (E : Engine Rows Ans D O W K Err) (rank : K → Nat) (own : ι → C)
    (w : World Rows Ans Err α D W K C ι) : Prop where
  clients : ∀ i, ∃ mode : Mode K, mode.Fits i (w.session (own i)) ∧
    (w.prog i).Climbs E rank Mode.Outside mode ∧
    ∀ k, w.holder k = some (own i) ↔ k ∈ mode.held
  holders : ∀ k c, w.holder k = some c → ∃ i, c = own i

theorem climbing_init {d : D} {prog : ι → Prog Rows Ans Err α}
    (h : ∀ i, (prog i).Climbs E rank Mode.Outside .free) :
    (World.init d prog : World Rows Ans Err α D W K C ι).Climbing E rank own where
  clients i := ⟨.free, rfl, h i, fun _ => ⟨fun hk => (nomatch hk), fun hk => (nomatch hk)⟩⟩
  holders _ _ hk := nomatch hk

/-- No `BEGIN`, `COMMIT` or `ROLLBACK` fails from outside. -/
def ControlsUndisturbed (w : World Rows Ans Err α D W K C ι) (l : Label Ans O Err C ι) : Prop :=
  ∀ c ok err, w.prog l.thread = .control c ok err → l.env.fault = none

variable [DecidableEq ι] [DecidableEq C] [DecidableEq K]

/-- **Step lemma.** -/
theorem World.Climbing.step (h : w.Climbing E rank own) (hown : Function.Injective own)
    (hl : Dedicated own l) (hcontrol : ControlsUndisturbed w l) (hs : w.step E l = some w') :
    w'.Climbing E rank own := by
  obtain ⟨m, hm, hfree, rfl⟩ := step_cases hs
  refine ⟨fun i => ?_, fun k c hk => ?_⟩
  · by_cases hi : i = l.thread
    · subst hi
      obtain ⟨mode, hfits, hclimbs, hheld⟩ := h.clients l.thread
      rw [← hl] at hfits hheld ⊢
      obtain ⟨mode', hfits', hnext, hlocks⟩ := hclimbs.move hfits hcontrol hm
      refine ⟨mode', by rw [after_session_self]; exact hfits', by rw [after_prog_self]; exact hnext,
        fun k => ?_⟩
      rw [after_holder]
      unfold holderAfter
      cases mode' with
      | inside held' =>
        obtain ⟨pending, hactive⟩ := hfits'
        rw [hactive, Mode.held, hlocks held' rfl, List.mem_append, ← hheld k]
        simp only
        by_cases hmem : k ∈ m.locks
        · simp [hmem]
        · simp [hmem]
      | free =>
        rw [show m.session = .idle from hfits']
        simp only [Mode.held, List.not_mem_nil, iff_false]
        split
        · exact fun hnone => nomatch hnone
        · assumption
      | doomed =>
        rw [show m.session = .failed l.thread from hfits']
        simp only [Mode.held, List.not_mem_nil, iff_false]
        split
        · exact fun hnone => nomatch hnone
        · assumption
    · have hconn : own i ≠ l.conn := fun heq => hi (hown (heq.trans hl))
      obtain ⟨mode, hfits, hclimbs, hheld⟩ := h.clients i
      refine ⟨mode, by rw [after_session_of_ne hconn]; exact hfits,
        by rw [after_prog_of_ne hi]; exact hclimbs, fun k => ?_⟩
      rw [after_holder_of_ne hfree hconn]
      exact hheld k
  · by_cases hc : c = l.conn
    · exact ⟨l.thread, hc.trans hl⟩
    · rw [after_holder_of_ne hfree hc] at hk
      exact h.holders k c hk

/-- Either client `i` can make its next move, whatever it is told, or somebody holds a lock that
    it needs. -/
theorem can_step_or_waits {i : ι} {c : C} (hi : ¬ (w.prog i).Done) :
    (∀ env, ∃ w', w.step E ⟨i, c, env⟩ = some w') ∨
      ∃ env m k c', (w.prog i).move E i env (w.session c) w.db = some m ∧ k ∈ m.locks ∧
        w.holder k = some c' ∧ c' ≠ c := by
  by_cases hcan : ∀ env, ∃ w', w.step E ⟨i, c, env⟩ = some w'
  · exact Or.inl hcan
  · obtain ⟨env, hno⟩ := not_forall.mp hcan
    obtain ⟨m, hm⟩ : ∃ m, (w.prog i).move E i env (w.session c) w.db = some m := move_of_not_done hi
    have hblocked : ¬ w.Free c m.locks := fun hfree => hno ⟨_, step_eq (l := ⟨i, c, env⟩) hm hfree⟩
    unfold World.Free at hblocked
    push Not at hblocked
    obtain ⟨k, hk, hsome, hother⟩ := hblocked
    obtain ⟨c', hc'⟩ := Option.ne_none_iff_exists'.mp hsome
    exact Or.inr ⟨env, m, k, c', hm, hk, hc', fun heq => hother (heq ▸ hc')⟩

/-- A statement that needs a lock another connection holds has to wait. -/
theorem step_eq_none {s : S} {ok : Rows s → Prog Rows Ans Err α} {err : Err → Prog Rows Ans Err α}
    {i : ι} {pending : List (ι × W)} {k : K} {c : C} (hprog : w.prog l.thread = .stmt s ok err)
    (hsession : w.session l.conn = .active i pending) (hfault : l.env.fault = none)
    (hk : ∀ d, k ∈ (E.exec s l.env.fresh d).locks) (hc : w.holder k = some c) (hne : c ≠ l.conn) :
    w.step E l = none := by
  unfold World.step
  rw [hprog, hsession, move_stmt E _ _ _ hfault]
  refine if_neg fun hfree => ?_
  have hmem : k ∈ (E.statement l.thread l.env.fresh (.active i pending) w.db s ok err).locks := by
    unfold Engine.statement
    simp only
    split <;> exact hk _
  rcases hfree k hmem with hnone | hown
  · rw [hc] at hnone
    cases hnone
  · rw [hc] at hown
    exact hne (Option.some.inj hown)

omit [DecidableEq ι] [DecidableEq C] [DecidableEq K] in
/-- A client that is done holds no lock. -/
theorem World.Climbing.not_done (h : w.Climbing E rank own) {i : ι} {k : K}
    (hk : w.holder k = some (own i)) : ¬ (w.prog i).Done := by
  intro hdone
  obtain ⟨mode, -, hclimbs, hheld⟩ := h.clients i
  have hfree : mode = .free := by
    obtain ⟨r, hr⟩ := Prog.result_of_done hdone
    rcases Prog.result_eq_some hr with ⟨a, ha, -⟩ | ⟨e, he, -⟩
    · rw [ha] at hclimbs
      exact climbs_ret.mp hclimbs
    · rw [he] at hclimbs
      exact climbs_throw.mp hclimbs
  subst hfree
  exact absurd ((hheld k).mp hk) List.not_mem_nil

/-- Whoever holds a lock can go on, or waits for somebody who holds a higher one. -/
theorem World.Climbing.holder_goes_on (h : w.Climbing E rank own) {top : Nat}
    (htop : ∀ k, rank k ≤ top) (n : Nat) {i : ι} {k : K} (hk : w.holder k = some (own i))
    (hn : top < rank k + n) :
    ∃ j, ¬ (w.prog j).Done ∧ ∀ env, ∃ w', w.step E ⟨j, own j, env⟩ = some w' := by
  induction n generalizing i k with
  | zero => exact absurd (htop k) (by omega)
  | succ n ih =>
    obtain ⟨mode, hfits, hclimbs, hheld⟩ := h.clients i
    cases mode with
    | free => exact absurd ((hheld k).mp hk) List.not_mem_nil
    | doomed => exact absurd ((hheld k).mp hk) List.not_mem_nil
    | inside held =>
      have hdone : ¬ (w.prog i).Done := h.not_done hk
      rcases can_step_or_waits (E := E) (c := own i) hdone with
        hcan | ⟨env, m, k', c', hm, hk', hc', hne⟩
      · exact ⟨i, hdone, hcan⟩
      · have hnew : k' ∉ held := by
          intro hmem
          rw [(hheld k').mpr hmem] at hc'
          exact hne (Option.some.inj hc').symm
        have hrank : rank k < rank k' := hclimbs.waits hfits hm hk' hnew k ((hheld k).mp hk)
        obtain ⟨j, rfl⟩ := h.holders k' c' hc'
        exact ih hc' (by omega)

/-- **No deadlock.**  While some client is not done, some client can move, in any
    surroundings. -/
theorem World.Climbing.can_step (h : w.Climbing E rank own) {top : Nat} (htop : ∀ k, rank k ≤ top)
    {i : ι} (hi : ¬ (w.prog i).Done) :
    ∃ j, ¬ (w.prog j).Done ∧ ∀ env, ∃ w', w.step E ⟨j, own j, env⟩ = some w' := by
  rcases can_step_or_waits (E := E) (c := own i) hi with hcan | ⟨env, m, k, c, -, -, hc, -⟩
  · exact ⟨i, hi, hcan⟩
  · obtain ⟨j, rfl⟩ := h.holders k c hc
    exact h.holder_goes_on htop (top + 1) hc (by omega)

end World

end ReadCommitted
