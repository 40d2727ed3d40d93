import Chronos.ReadCommitted.World

namespace ReadCommitted

/-!
# What holds of every write

An invariant of the tables that every single write preserves needs no transactions.  If
statements with `φ` make only writes with `ψ` wherever `J` holds, and such writes preserve `J`
(`Writes`), then programs that send only statements with `φ` (`Prog.Sends`) keep `J` in every
run: whichever connection a statement is sent over, whoever is overtaken, whatever fails
(`World.Within.reaches`).
-/

variable {S A : Type} {Rows : S → Type} {Ans : A → Type} {Err α β : Type}
variable {D O W K C ι : Type} {φ : S → Prop}

namespace Prog

/-- Every statement the program may send satisfies `φ`. -/
def Sends (φ : S → Prop) : Prog Rows Ans Err α → Prop
  | .ret _ => True
  | .throw _ => True
  | .stmt s ok err => φ s ∧ (∀ r, Sends φ (ok r)) ∧ ∀ e, Sends φ (err e)
  | .control _ ok err => Sends φ ok ∧ ∀ e, Sends φ (err e)
  | .ask _ k => ∀ x, Sends φ (k x)

/-! ### Rules for the source language's control flow -/

theorem Sends.andThen {p : Prog Rows Ans Err α} {f : α → Prog Rows Ans Err β}
    {h : Err → Prog Rows Ans Err β} (hp : p.Sends φ) (hf : ∀ a, (f a).Sends φ)
    (hh : ∀ e, (h e).Sends φ) : (p.andThen f h).Sends φ := by
  induction p with
  | ret a => exact hf a
  | throw e => exact hh e
  | stmt s ok err ihok iherr =>
    exact ⟨hp.1, fun r => ihok r (hp.2.1 r), fun e => iherr e (hp.2.2 e)⟩
  | control c ok err ihok iherr => exact ⟨ihok hp.1, fun e => iherr e (hp.2 e)⟩
  | ask a k ih => exact fun x => ih x (hp x)

theorem Sends.bind {p : Prog Rows Ans Err α} {f : α → Prog Rows Ans Err β} (hp : p.Sends φ)
    (hf : ∀ a, (f a).Sends φ) : (p.bind f).Sends φ :=
  hp.andThen hf fun _ => trivial

theorem Sends.tryCatch {p : Prog Rows Ans Err α} {h : Err → Prog Rows Ans Err α}
    (hp : p.Sends φ) (hh : ∀ e, (h e).Sends φ) : (p.tryCatch h).Sends φ :=
  hp.andThen (fun _ => trivial) hh

theorem Sends.tryFinally {p : Prog Rows Ans Err α} {fin : Prog Rows Ans Err Unit}
    (hp : p.Sends φ) (hfin : fin.Sends φ) : (p.tryFinally fin).Sends φ :=
  hp.andThen (fun _ => hfin.bind fun _ => trivial) fun _ => hfin.bind fun _ => trivial

theorem Talks.sends {φ' : S → Prop} {ψ : A → Prop} {p : Prog Rows Ans Err α} (hp : p.Talks φ' ψ)
    (hφ : ∀ s, φ' s → φ s) : p.Sends φ := by
  induction p with
  | ret a => trivial
  | throw e => trivial
  | stmt s ok err ihok iherr =>
    exact ⟨hφ s hp.1, fun r => ihok r (hp.2.1 r), fun e => iherr e (hp.2.2 e)⟩
  | control c ok err ihok iherr => exact hp.elim
  | ask a k ih => exact fun x => ih x (hp.2 x)

theorem sends_query {s : S} (hs : φ s) : (query s : Prog Rows Ans Err (Rows s)).Sends φ :=
  ⟨hs, fun _ => trivial, fun _ => trivial⟩

end Prog

/-- Statements with `φ` write only what satisfies `ψ`, as questions do, and such writes
    preserve `J`. -/
structure Writes (E : Engine Rows Ans D O W K Err) (φ : S → Prop) (J : D → Prop) (ψ : W → Prop) :
    Prop where
  exec : ∀ s o d r ws, φ s → J d → (E.exec s o d).result = .ok (r, ws) → ∀ w ∈ ws, ψ w
  note : ∀ a x, ∀ w ∈ E.note a x, ψ w
  write : ∀ d w, J d → ψ w → J (E.write w d)

/-- All transactions that are open on the connection hold only writes with `ψ`. -/
def Session.Holds (ψ : W → Prop) (σ : Session ι W) : Prop :=
  ∀ i pending, σ = .active i pending → ∀ e ∈ pending, ψ e.2

/-- `J` holds of the tables, `ψ` of what is written and not committed, and the programs send
    only statements with `φ`. -/
structure World.Within (w : World Rows Ans Err α D W K C ι) (φ : S → Prop) (J : D → Prop)
    (ψ : W → Prop) : Prop where
  db : J w.db
  session : ∀ c, (w.session c).Holds ψ
  prog : ∀ i, (w.prog i).Sends φ

section Writes

variable {E : Engine Rows Ans D O W K Err} {J : D → Prop} {ψ : W → Prop}

theorem Writes.apply (h : Writes E φ J ψ) {ws : List W} {d : D} (hd : J d)
    (hws : ∀ w ∈ ws, ψ w) : J (E.apply ws d) := by
  induction ws generalizing d with
  | nil => exact hd
  | cons w ws ih =>
    have hfirst : J (E.write w d) := h.write d w hd (hws w List.mem_cons_self)
    exact ih hfirst fun w' hw' => hws w' (List.mem_cons_of_mem _ hw')

/-- What a statement writes satisfies `ψ`. -/
theorem Writes.made (h : Writes E φ J ψ) {me : ι} {o : O} {d : D} {s : S} {r : Rows s} {ws : List W}
    (hs : φ s) (hd : J d) (hx : (E.exec s o d).result = .ok (r, ws)) :
    ∀ e ∈ ws.map (me, ·), ψ e.2 := by
  intro e he
  obtain ⟨w, hw, rfl⟩ := List.mem_map.mp he
  exact h.exec s o d r ws hs hd hx w hw

theorem Session.Holds.transact {σ : Session ι W} (hσ : σ.Holds ψ)
    (E : Engine Rows Ans D O W K Err) (me : ι) (c : Control)
    (ok : Prog Rows Ans Err α) (err : Err → Prog Rows Ans Err α) :
    (E.transact me σ c ok err).session.Holds ψ ∧
      ∀ e ∈ (E.transact me σ c ok err).commits, ψ e.2 := by
  have hidle : (Session.idle : Session ι W).Holds ψ := fun _ _ hnone => nomatch hnone
  have hnone : ∀ e ∈ ([] : List (ι × W)), ψ e.2 := fun e he => nomatch he
  cases c with
  | rollback => exact ⟨hidle, hnone⟩
  | commit =>
    cases σ with
    | idle => exact ⟨hidle, hnone⟩
    | failed i => exact ⟨hidle, hnone⟩
    | active i pending => exact ⟨hidle, hσ i pending rfl⟩
  | beginTx =>
    cases σ with
    | idle =>
      refine ⟨fun _ _ hactive e he => ?_, hnone⟩
      obtain ⟨-, rfl⟩ := Session.active.inj hactive
      cases he
    | failed i => exact ⟨hσ, hnone⟩
    | active i pending => exact ⟨hσ, hnone⟩

/-- **One move.** -/
theorem Prog.Sends.move (h : Writes E φ J ψ) {p : Prog Rows Ans Err α} {me : ι}
    {env : Env O Err Ans} {σ : Session ι W} {d : D} {m : Move Rows Ans Err α ι W K}
    (hp : p.Sends φ) (hd : J d) (hσ : σ.Holds ψ) (hm : p.move E me env σ d = some m) :
    m.session.Holds ψ ∧ (∀ e ∈ m.commits, ψ e.2) ∧ m.next.Sends φ := by
  have hnothing : ∀ e ∈ ([] : List (ι × W)), ψ e.2 := fun e he => nomatch he
  cases p with
  | ret a => cases hm
  | throw e => cases hm
  | ask a k =>
    obtain rfl := by simpa using hm.symm
    refine ⟨hσ, fun e he => ?_, hp _⟩
    obtain ⟨w, hw, rfl⟩ := List.mem_map.mp he
    exact h.note a _ w hw
  | stmt s ok err =>
    have hidle : (Session.idle : Session ι W).Holds ψ := fun _ _ hnone => nomatch hnone
    have hfailed : ∀ i, (Session.failed i : Session ι W).Holds ψ := fun _ _ _ hnone => nomatch hnone
    cases σ with
    | idle =>
      rcases move_stmt_idle_cases hm with ⟨e, -, rfl⟩ | ⟨e, -, -, rfl⟩ | ⟨r, ws, -, hx, rfl⟩
      · exact ⟨hidle, hnothing, hp.2.2 e⟩
      · exact ⟨hidle, hnothing, hp.2.2 e⟩
      · exact ⟨hidle, h.made hp.1 hd hx, hp.2.1 r⟩
    | failed i =>
      obtain ⟨e, rfl⟩ := move_stmt_failed_cases hm
      exact ⟨hfailed i, hnothing, hp.2.2 e⟩
    | active i pending =>
      rcases move_stmt_active_cases hm with ⟨e, -, rfl⟩ | ⟨e, -, -, rfl⟩ | ⟨r, ws, -, hx, rfl⟩
      · exact ⟨hfailed i, hnothing, hp.2.2 e⟩
      · exact ⟨hfailed i, hnothing, hp.2.2 e⟩
      · have hheld : ∀ e ∈ pending, ψ e.2 := hσ i pending rfl
        -- What is pending satisfies `ψ`, so the transaction still sees a state with `J`.
        have hseen : J (E.apply (pending.map Prod.snd) d) := by
          refine h.apply hd fun w hw => ?_
          obtain ⟨e, he, rfl⟩ := List.mem_map.mp hw
          exact hheld e he
        refine ⟨fun _ _ hactive e he => ?_, hnothing, hp.2.1 r⟩
        obtain ⟨-, rfl⟩ := Session.active.inj hactive
        rcases List.mem_append.mp he with he | he
        · exact hheld e he
        · exact h.made hp.1 hseen hx e he
  | control c ok err =>
    rcases move_control_cases hm with ⟨e, -, rfl⟩ | ⟨-, rfl⟩
    · refine ⟨?_, hnothing, hp.2 e⟩
      cases c with
      | commit => exact fun _ _ hnone => nomatch hnone
      | beginTx => exact hσ
      | rollback => exact hσ
    · obtain ⟨hsession, hcommits⟩ := hσ.transact E me c ok err
      refine ⟨hsession, hcommits, ?_⟩
      cases c <;> cases σ <;> first
        | exact hp.1
        | exact hp.2 _

variable [DecidableEq ι] [DecidableEq C] [DecidableEq K]
variable {w w' : World Rows Ans Err α D W K C ι} {l : Label Ans O Err C ι}

/-- **Step rule.**  A step commits writes with `ψ`, and nothing leaves `J`. -/
theorem World.Within.step (hE : Writes E φ J ψ) (h : w.Within φ J ψ) (hs : w.step E l = some w') :
    w'.Within φ J ψ ∧ ∃ made : List (ι × W), (∀ e ∈ made, ψ e.2) ∧
      w'.db = E.apply (made.map Prod.snd) w.db ∧ w'.journal = w.journal ++ made := by
  obtain ⟨m, hm, -, rfl⟩ := step_cases hs
  obtain ⟨hsession, hcommits, hnext⟩ :=
    (h.prog l.thread).move hE h.db (h.session l.conn) hm
  have hws : ∀ w ∈ m.commits.map Prod.snd, ψ w := by
    intro w hw
    obtain ⟨e, he, rfl⟩ := List.mem_map.mp hw
    exact hcommits e he
  refine ⟨⟨hE.apply h.db hws, fun c => ?_, fun i => ?_⟩, m.commits, hcommits, rfl, rfl⟩
  · by_cases hc : c = l.conn
    · subst hc
      simpa only [World.after, Function.update_self] using hsession
    · simpa only [World.after, Function.update_of_ne hc] using h.session c
  · by_cases hi : i = l.thread
    · subst hi
      simpa only [World.after, Function.update_self] using hnext
    · simpa only [World.after, Function.update_of_ne hi] using h.prog i

/-- **Run rule.** -/
theorem World.Within.reaches (hE : Writes E φ J ψ)
    {P : World Rows Ans Err α D W K C ι → Label Ans O Err C ι → Prop}
    {w₀ : World Rows Ans Err α D W K C ι} (h₀ : w₀.Within φ J ψ) (h : Reaches E P w₀ w) :
    w.Within φ J ψ := by
  induction h with
  | start => exact h₀
  | step _ _ hs ih => exact (ih.step hE hs).1

omit [DecidableEq ι] [DecidableEq C] [DecidableEq K] in
theorem within_init {d : D} {prog : ι → Prog Rows Ans Err α} (hd : J d)
    (hprog : ∀ i, (prog i).Sends φ) :
    (World.init d prog : World Rows Ans Err α D W K C ι).Within φ J ψ :=
  ⟨hd, fun _ _ _ hnone => (nomatch hnone), hprog⟩

end Writes

end ReadCommitted
