import Chronos.ReadCommitted.World

namespace ReadCommitted

/-!
# Clients without transactions

A client that opens no transaction commits every statement by itself, whichever connection it
uses (`Prog.Talks`).  `OneMove` is what a move of such a client amounts to, and
`World.Autocommits.step` that every step of a world in which all clients are such is one.

`Prog.Leads p q` says that `q` is what may be left of `p`, and `Prog.AsksAtMost` bounds how
often a program asks a question of some kind.
-/

variable {S A : Type} {Rows : S → Type} {Ans : A → Type} {Err α β : Type}
variable {D O W K C ι : Type}

namespace Prog

/-- On every path the program asks at most `n` questions with `P`. -/
def AsksAtMost (P : A → Prop) : Prog Rows Ans Err α → Nat → Prop
  | .ret _, _ => True
  | .throw _, _ => True
  | .stmt _ ok err, n => (∀ r, AsksAtMost P (ok r) n) ∧ ∀ e, AsksAtMost P (err e) n
  | .control _ ok err, n => AsksAtMost P ok n ∧ ∀ e, AsksAtMost P (err e) n
  | .ask a k, n => (¬ P a ∧ ∀ x, AsksAtMost P (k x) n) ∨
      P a ∧ ∃ m, n = m + 1 ∧ ∀ x, AsksAtMost P (k x) m

/-- What may be left of a program. -/
inductive Leads : Prog Rows Ans Err α → Prog Rows Ans Err α → Prop
  | refl {p} : Leads p p
  | ok {p s ok err} (r : Rows s) : Leads p (.stmt s ok err) → Leads p (ok r)
  | err {p s} {ok : Rows s → Prog Rows Ans Err α} {err} (e : Err) :
      Leads p (.stmt s ok err) → Leads p (err e)
  | controlled {p c ok err} : Leads p (.control c ok err) → Leads p ok
  | failed {p c ok err} (e : Err) : Leads p (.control c ok err) → Leads p (err e)
  | answer {p a k} (x : Ans a) : Leads p (.ask a k) → Leads p (k x)

section Rules

variable {φ : S → Prop} {ψ : A → Prop} {P : A → Prop} {n m : Nat}

/-! ### Rules for the source language's control flow -/

theorem AsksAtMost.mono {p : Prog Rows Ans Err α} (hp : p.AsksAtMost P n) (hn : n ≤ m) :
    p.AsksAtMost P m := by
  induction p generalizing n m with
  | ret a => trivial
  | throw e => trivial
  | stmt s ok err ihok iherr => exact ⟨fun r => ihok r (hp.1 r) hn, fun e => iherr e (hp.2 e) hn⟩
  | control c ok err ihok iherr => exact ⟨ihok hp.1 hn, fun e => iherr e (hp.2 e) hn⟩
  | ask a k ih =>
    rcases hp with ⟨hnot, hk⟩ | ⟨ha, n', rfl, hk⟩
    · exact Or.inl ⟨hnot, fun x => ih x (hk x) hn⟩
    · exact Or.inr ⟨ha, m - 1, by omega, fun x => ih x (hk x) (by omega)⟩

/-- What follows a program may ask what is left. -/
theorem AsksAtMost.andThen {p : Prog Rows Ans Err α} {f : α → Prog Rows Ans Err β}
    {h : Err → Prog Rows Ans Err β} (hp : p.AsksAtMost P n) (hf : ∀ a, (f a).AsksAtMost P m)
    (hh : ∀ e, (h e).AsksAtMost P m) : (p.andThen f h).AsksAtMost P (n + m) := by
  induction p generalizing n with
  | ret a => exact (hf a).mono (by omega)
  | throw e => exact (hh e).mono (by omega)
  | stmt s ok err ihok iherr => exact ⟨fun r => ihok r (hp.1 r), fun e => iherr e (hp.2 e)⟩
  | control c ok err ihok iherr => exact ⟨ihok hp.1, fun e => iherr e (hp.2 e)⟩
  | ask a k ih =>
    rcases hp with ⟨hnot, hk⟩ | ⟨ha, n', rfl, hk⟩
    · exact Or.inl ⟨hnot, fun x => ih x (hk x)⟩
    · exact Or.inr ⟨ha, n' + m, by omega, fun x => ih x (hk x)⟩

theorem AsksAtMost.bind {p : Prog Rows Ans Err α} {f : α → Prog Rows Ans Err β}
    (hp : p.AsksAtMost P n) (hf : ∀ a, (f a).AsksAtMost P m) : (p.bind f).AsksAtMost P (n + m) :=
  hp.andThen hf fun _ => trivial

/-! ### What is left of a program -/

theorem Leads.talks {p q : Prog Rows Ans Err α} (h : Leads p q) (hp : p.Talks φ ψ) :
    q.Talks φ ψ := by
  induction h with
  | refl => exact hp
  | ok r _ ih => exact ih.2.1 r
  | err e _ ih => exact ih.2.2 e
  | controlled _ ih => exact ih.elim
  | failed _ _ ih => exact ih.elim
  | answer x _ ih => exact ih.2 x

/-- What is left of a program that starts with a statement: all of it, or what is left after the
    answer. -/
theorem Leads.stmt_cases {s : S} {ok : Rows s → Prog Rows Ans Err α} {err : Err → Prog Rows Ans Err α}
    {q : Prog Rows Ans Err α} (h : Leads (.stmt s ok err) q) :
    q = .stmt s ok err ∨ (∃ r, Leads (ok r) q) ∨ ∃ e, Leads (err e) q := by
  have hstep : ∀ {q q' : Prog Rows Ans Err α}, (∀ p : Prog Rows Ans Err α, Leads p q → Leads p q') →
      ((∃ r, Leads (ok r) q) ∨ ∃ e, Leads (err e) q) → (∃ r, Leads (ok r) q') ∨ ∃ e, Leads (err e) q' := by
    rintro q q' hnext (⟨r, hr⟩ | ⟨e, he⟩)
    · exact Or.inl ⟨r, hnext _ hr⟩
    · exact Or.inr ⟨e, hnext _ he⟩
  induction h with
  | refl => exact Or.inl rfl
  | ok r _ ih =>
    refine Or.inr ?_
    rcases ih with heq | hrest
    · cases heq
      exact Or.inl ⟨r, .refl⟩
    · exact hstep (fun _ h => .ok r h) hrest
  | err e _ ih =>
    refine Or.inr ?_
    rcases ih with heq | hrest
    · cases heq
      exact Or.inr ⟨e, .refl⟩
    · exact hstep (fun _ h => .err e h) hrest
  | controlled _ ih =>
    rcases ih with heq | hrest
    · cases heq
    · exact Or.inr (hstep (fun _ h => .controlled h) hrest)
  | failed e _ ih =>
    rcases ih with heq | hrest
    · cases heq
    · exact Or.inr (hstep (fun _ h => .failed e h) hrest)
  | answer x _ ih =>
    rcases ih with heq | hrest
    · cases heq
    · exact Or.inr (hstep (fun _ h => .answer x h) hrest)

theorem Leads.asksAtMost {p q : Prog Rows Ans Err α} (h : Leads p q) (hp : p.AsksAtMost P n) :
    q.AsksAtMost P n := by
  induction h with
  | refl => exact hp
  | ok r _ ih => exact ih.1 r
  | err e _ ih => exact ih.2 e
  | controlled _ ih => exact ih.1
  | failed e _ ih => exact ih.2 e
  | answer x _ ih =>
    rcases ih with ⟨-, hk⟩ | ⟨-, m, rfl, hk⟩
    · exact hk x
    · exact (hk x).mono (by omega)

end Rules

end Prog

/-! ### Moves -/

/-- **One move outside transactions** on `d`: what it commits, and what is left of the program. -/
inductive OneMove (E : Engine Rows Ans D O W K Err) (d : D) :
    Prog Rows Ans Err α → List W → Prog Rows Ans Err α → Prop
  | disturbed {s ok err} (e : Err) : OneMove E d (.stmt s ok err) [] (err e)
  | ran {s ok err r ws} (o : O) : (E.exec s o d).result = .ok (r, ws) →
      OneMove E d (.stmt s ok err) ws (ok r)
  | refused {s} {ok : Rows s → Prog Rows Ans Err α} {err e} (o : O) :
      (E.exec s o d).result = .error e → OneMove E d (.stmt s ok err) [] (err e)
  | answered {a k} (x : Ans a) : OneMove E d (.ask a k) (E.note a x) (k x)

/-- No transaction is open, and no client opens one. -/
structure World.Autocommits (w : World Rows Ans Err α D W K C ι) (φ : S → Prop) (ψ : A → Prop) :
    Prop where
  idle : ∀ c, w.session c = .idle
  talks : ∀ i, (w.prog i).Talks φ ψ

section Step

variable {E : Engine Rows Ans D O W K Err} {φ : S → Prop} {ψ : A → Prop}

theorem OneMove.talks {d : D} {p p' : Prog Rows Ans Err α} {ws : List W} (h : OneMove E d p ws p')
    (hp : p.Talks φ ψ) : p'.Talks φ ψ := by
  cases h with
  | disturbed e => exact hp.2.2 e
  | ran o hx => exact hp.2.1 _
  | refused o hx => exact hp.2.2 _
  | answered x => exact hp.2 x

theorem OneMove.asksAtMost {P : A → Prop} {n : Nat} {d : D} {p p' : Prog Rows Ans Err α}
    {ws : List W} (h : OneMove E d p ws p') (hp : p.AsksAtMost P n) : p'.AsksAtMost P n := by
  cases h with
  | disturbed e => exact hp.2 e
  | ran o hx => exact hp.1 _
  | refused o hx => exact hp.2 _
  | answered x =>
    rcases hp with ⟨-, hk⟩ | ⟨-, m, rfl, hk⟩
    · exact hk x
    · exact (hk x).mono (by omega)

theorem OneMove.leads {d : D} {p₀ p p' : Prog Rows Ans Err α} {ws : List W}
    (h : OneMove E d p ws p') (hp : p₀.Leads p) : p₀.Leads p' := by
  cases h with
  | disturbed e => exact .err e hp
  | ran o hx => exact .ok _ hp
  | refused o hx => exact .err _ hp
  | answered x => exact .answer x hp

variable [DecidableEq ι] [DecidableEq C] [DecidableEq K]
variable {w w' : World Rows Ans Err α D W K C ι} {l : Label Ans O Err C ι}

theorem World.Autocommits.step (h : w.Autocommits φ ψ) (hs : w.step E l = some w') :
    w'.Autocommits φ ψ ∧ ∃ ws p', OneMove E w.db (w.prog l.thread) ws p' ∧
      w'.db = E.apply ws w.db ∧ w'.prog = Function.update w.prog l.thread p' := by
  obtain ⟨m, hm, -, rfl⟩ := step_cases hs
  rw [h.idle] at hm
  have hmove : m.session = .idle ∧ ∃ ws : List W, m.commits = ws.map (l.thread, ·) ∧
      OneMove E w.db (w.prog l.thread) ws m.next := by
    have htalks := h.talks l.thread
    generalize w.prog l.thread = p at hm htalks
    cases p with
    | ret a => cases hm
    | throw e => cases hm
    | control c ok err => exact htalks.elim
    | ask a k =>
      obtain rfl := by simpa using hm.symm
      exact ⟨rfl, _, rfl, .answered _⟩
    | stmt s ok err =>
      rcases move_stmt_idle_cases hm with ⟨e, -, rfl⟩ | ⟨e, -, hx, rfl⟩ | ⟨r, ws, -, hx, rfl⟩
      · exact ⟨rfl, [], rfl, .disturbed e⟩
      · exact ⟨rfl, [], rfl, .refused _ hx⟩
      · exact ⟨rfl, ws, rfl, .ran _ hx⟩
  obtain ⟨hsession, ws, hws, hone⟩ := hmove
  have hdb : m.commits.map Prod.snd = ws := by simp [hws, Function.comp_def]
  refine ⟨⟨fun c => ?_, fun i => ?_⟩, ws, m.next, hone, by simp only [World.after, hdb], rfl⟩
  · by_cases hc : c = l.conn
    · rw [hc]
      simpa only [World.after, Function.update_self] using hsession
    · simpa only [World.after, Function.update_of_ne hc] using h.idle c
  · by_cases hi : i = l.thread
    · rw [hi]
      simpa only [World.after, Function.update_self] using hone.talks (h.talks l.thread)
    · simpa only [World.after, Function.update_of_ne hi] using h.talks i

omit [DecidableEq ι] [DecidableEq C] [DecidableEq K] in
theorem autocommits_init {d : D} {prog : ι → Prog Rows Ans Err α}
    (hprog : ∀ i, (prog i).Talks φ ψ) :
    (World.init d prog : World Rows Ans Err α D W K C ι).Autocommits φ ψ :=
  ⟨fun _ => rfl, hprog⟩

/-- No transaction is open, and nothing is locked. -/
structure World.Quiet (w : World Rows Ans Err α D W K C ι) : Prop where
  idle : ∀ c, w.session c = .idle
  free : ∀ k, w.holder k = none

/-- Outside transactions nobody has to wait: a move is a step on any connection, and the world is
    quiet after it. -/
theorem World.Quiet.step (h : w.Quiet) {m : Move Rows Ans Err α ι W K}
    (hm : (w.prog l.thread).move E l.thread l.env .idle w.db = some m) (hsession : m.session = .idle) :
    w.step E l = some (w.after E l m) ∧ (w.after E l m).Quiet := by
  refine ⟨step_eq ?_ fun k _ => Or.inl (h.free k), fun c => ?_, fun k => ?_⟩
  · rw [h.idle]
    exact hm
  · by_cases hc : c = l.conn
    · rw [hc]
      simpa only [World.after, Function.update_self] using hsession
    · simpa only [World.after, Function.update_of_ne hc] using h.idle c
  · show holderAfter w.holder l.conn m.locks m.session k = none
    rw [hsession]
    show (if w.holder k = some l.conn then none else w.holder k) = none
    rw [h.free k]
    exact if_neg (by simp)

omit [DecidableEq ι] [DecidableEq C] [DecidableEq K] in
/-- In a quiet world every step respects transactions. -/
theorem World.Quiet.exclusive (h : w.Quiet) : Exclusive w l := by
  refine ⟨fun i hi => ?_, fun c hc => ?_⟩
  · rw [h.idle] at hi
    cases hi
  · rw [h.idle] at hc
    cases hc

end Step

end ReadCommitted
