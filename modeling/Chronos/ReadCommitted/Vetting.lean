import Chronos.ReadCommitted.Solitary
import Chronos.ReadCommitted.World

namespace ReadCommitted

/-!
# Writes that are vetted when they are made, and hold when they commit

Some properties need no transactions: every single write is as it should be (`ψ`) in the state
it is applied to, and keeps an invariant `J` of the tables.  A statement decides about its
writes in the state it sees; inside a transaction they reach the tables later.  They are still
as they should be then, because whatever they were judged by is locked until the end of the
transaction, or never undone by anybody: `guard` names the locks and `Sees` the relation
between two states that preserves the judgement.

What a client sends and asks may depend on what it was answered.  A `Dialogue` says what it may
send (`sends`) and ask (`asks`), and what it may take from the answers (`hears`, `learns`);
`Prog.Speaks` that a program keeps to it.

`World.Vetted.step` holds of every run: whichever connection a statement is sent over, whoever
is overtaken, whatever fails.
-/

variable {S A : Type} {Rows : S → Type} {Ans : A → Type} {Err α β : Type}
variable {D O W K C ι : Type}

/-- What a client may send and ask, and what it may take from the answers. -/
structure Dialogue {S A : Type} (Rows : S → Type) (Ans : A → Type) where
  sends : S → Prop
  hears : (s : S) → Rows s → Prop
  asks : A → Prop
  learns : (a : A) → Ans a → Prop

/-- Nothing is said but which questions are asked. -/
def Dialogue.asking (ψ : A → Prop) : Dialogue Rows Ans where
  sends _ := True
  hears _ _ := True
  asks := ψ
  learns _ _ := True

namespace Prog

variable {δ : Dialogue Rows Ans}

/-- **The program keeps to the dialogue**, and where it ends its result satisfies `Q`. -/
def Speaks (δ : Dialogue Rows Ans) (Q : Except Err α → Prop) : Prog Rows Ans Err α → Prop
  | .ret a => Q (.ok a)
  | .throw e => Q (.error e)
  | .stmt s ok err => δ.sends s ∧ (∀ r, δ.hears s r → Speaks δ Q (ok r)) ∧ ∀ e, Speaks δ Q (err e)
  | .control _ ok err => Speaks δ Q ok ∧ ∀ e, Speaks δ Q (err e)
  | .ask a k => δ.asks a ∧ ∀ x, δ.learns a x → Speaks δ Q (k x)

/-! ### Rules for the source language's control flow -/

theorem Speaks.andThen {p : Prog Rows Ans Err α} {f : α → Prog Rows Ans Err β}
    {h : Err → Prog Rows Ans Err β} {Q : Except Err α → Prop} {R : Except Err β → Prop}
    (hp : p.Speaks δ Q) (hf : ∀ a, Q (.ok a) → (f a).Speaks δ R)
    (hh : ∀ e, Q (.error e) → (h e).Speaks δ R) : (p.andThen f h).Speaks δ R := by
  induction p with
  | ret a => exact hf a hp
  | throw e => exact hh e hp
  | stmt s ok err ihok iherr =>
    exact ⟨hp.1, fun r hr => ihok r (hp.2.1 r hr), fun e => iherr e (hp.2.2 e)⟩
  | control c ok err ihok iherr => exact ⟨ihok hp.1, fun e => iherr e (hp.2 e)⟩
  | ask a k ih => exact ⟨hp.1, fun x hx => ih x (hp.2 x hx)⟩

theorem Speaks.mono {p : Prog Rows Ans Err α} {Q R : Except Err α → Prop} (hp : p.Speaks δ Q)
    (hQ : ∀ r, Q r → R r) : p.Speaks δ R := by
  rw [← andThen_ret_throw p]
  exact hp.andThen (fun a h => hQ _ h) fun e h => hQ _ h

theorem Speaks.bind {p : Prog Rows Ans Err α} {f : α → Prog Rows Ans Err β}
    {Q : Except Err α → Prop} {R : Except Err β → Prop} (hp : p.Speaks δ Q)
    (hf : ∀ a, Q (.ok a) → (f a).Speaks δ R) (hR : ∀ e, Q (.error e) → R (.error e)) :
    (p.bind f).Speaks δ R :=
  hp.andThen hf fun e h => hR e h

theorem Speaks.tryCatch {p : Prog Rows Ans Err α} {h : Err → Prog Rows Ans Err α}
    {Q R : Except Err α → Prop} (hp : p.Speaks δ Q) (hret : ∀ a, Q (.ok a) → R (.ok a))
    (hh : ∀ e, Q (.error e) → (h e).Speaks δ R) : (p.tryCatch h).Speaks δ R :=
  hp.andThen (fun a ha => hret a ha) hh

theorem Speaks.tryFinally {p : Prog Rows Ans Err α} {fin : Prog Rows Ans Err Unit}
    {Q : Except Err α → Prop} (hp : p.Speaks δ Q) (hfin : fin.Speaks δ fun _ => True)
    (hQ : ∀ r e, Q r → Q (.error e)) : (p.tryFinally fin).Speaks δ Q :=
  hp.andThen (fun _ ha => hfin.bind (fun _ _ => ha) fun e _ => hQ _ e ha)
    fun _ he => hfin.bind (fun _ _ => he) fun e _ => hQ _ e he

/-- The program keeps to the dialogue, however it ends. -/
abbrev Follows (δ : Dialogue Rows Ans) (p : Prog Rows Ans Err α) : Prop := p.Speaks δ fun _ => True

theorem Follows.bind {p : Prog Rows Ans Err α} {f : α → Prog Rows Ans Err β} (hp : p.Follows δ)
    (hf : ∀ a, (f a).Follows δ) : (p.bind f).Follows δ :=
  Speaks.bind hp (fun a _ => hf a) fun _ _ => trivial

theorem Follows.tryCatch {p : Prog Rows Ans Err α} {h : Err → Prog Rows Ans Err α}
    (hp : p.Follows δ) (hh : ∀ e, (h e).Follows δ) : (p.tryCatch h).Follows δ :=
  Speaks.tryCatch hp (fun _ _ => trivial) fun e _ => hh e

theorem Follows.tryFinally {p : Prog Rows Ans Err α} {fin : Prog Rows Ans Err Unit}
    (hp : p.Follows δ) (hfin : fin.Follows δ) : (p.tryFinally fin).Follows δ :=
  Speaks.tryFinally hp hfin fun _ _ _ => trivial

theorem Talks.follows {φ : S → Prop} {ψ : A → Prop} {p : Prog Rows Ans Err α} (hp : p.Talks φ ψ)
    (hφ : ∀ s, φ s → δ.sends s) (hψ : ∀ a, ψ a → δ.asks a) : p.Follows δ := by
  induction p with
  | ret a => trivial
  | throw e => trivial
  | stmt s ok err ihok iherr =>
    exact ⟨hφ s hp.1, fun r _ => ihok r (hp.2.1 r), fun e => iherr e (hp.2.2 e)⟩
  | control c ok err ihok iherr => exact hp.elim
  | ask a k ih => exact ⟨hψ a hp.1, fun x _ => ih x (hp.2 x)⟩

/-- A program that asks only what satisfies `ψ` adds only events of that kind. -/
theorem Follows.yields {E : Engine Rows Ans D O W K Err} {P : Env O Err Ans → Prop} {ψ : A → Prop}
    {I : List (Event S Ans Err) → Prop} {p : Prog Rows Ans Err α} (hp : p.Follows (.asking ψ))
    (hI : ∀ tr ev, I tr → (∀ a x, ev = .answered a x → ψ a) → I (tr ++ [ev]))
    {tr : List (Event S Ans Err)} {st : Place D W} (htr : I tr) :
    p.Yields E P (fun tr _ _ => I tr) tr st := by
  induction p generalizing tr st with
  | ret a => exact htr
  | throw e => exact htr
  | ask a k ih =>
    refine fun env _ => ih _ (hp.2 _ trivial) (hI _ _ htr fun a' x heq => ?_)
    obtain ⟨rfl, -⟩ := Event.answered.inj heq
    exact hp.1
  | stmt s ok err ihok iherr =>
    refine fun env _ => ⟨fun e _ => ?_, fun _ => ⟨fun r st' _ => ?_, fun e st' _ => ?_⟩⟩
    · exact iherr e (hp.2.2 e) (hI _ _ htr fun _ _ heq => nomatch heq)
    · exact ihok r (hp.2.1 r trivial) (hI _ _ htr fun _ _ heq => nomatch heq)
    · exact iherr e (hp.2.2 e) (hI _ _ htr fun _ _ heq => nomatch heq)
  | control c ok err ihok iherr =>
    refine fun env _ => ⟨fun e _ => ?_, fun _ => ⟨fun st' _ => ?_, fun _ => ?_⟩⟩
    · exact iherr e (hp.2 e) (hI _ _ htr fun _ _ heq => nomatch heq)
    · exact ihok hp.1 (hI _ _ htr fun _ _ heq => nomatch heq)
    · exact iherr _ (hp.2 _) (hI _ _ htr fun _ _ heq => nomatch heq)

theorem follows_query {s : S} (hs : δ.sends s) : (query s : Prog Rows Ans Err (Rows s)).Follows δ :=
  ⟨hs, fun _ _ => trivial, fun _ => trivial⟩

end Prog

/-! ### Vetted writes -/

/-- Applied one after the other, the writes are as they should be. -/
def Vets (E : Engine Rows Ans D O W K Err) (ψ : ι → D → W → Prop) : D → List (ι × W) → Prop
  | _, [] => True
  | d, e :: es => ψ e.1 d e.2 ∧ Vets E ψ (E.write e.2 d) es

/-- Statements that clients may send where `allow` lets them make only writes with `ψ`, and lock
    what these were judged by; `J` is an invariant. -/
structure Vetting (E : Engine Rows Ans D O W K Err) (δ : ι → Dialogue Rows Ans)
    (allow : ι → S → O → D → Prop) (J : D → Prop) (ψ : ι → D → W → Prop) (guard : W → List K)
    (Sees : List K → D → D → Prop) : Prop where
  exec : ∀ i s o d r ws, (δ i).sends s → allow i s o d → J d →
    (E.exec s o d).result = .ok (r, ws) →
      (δ i).hears s r ∧ Vets E ψ d (ws.map (i, ·)) ∧
        ∀ w ∈ ws, ∀ k ∈ guard w, k ∈ (E.exec s o d).locks
  note : ∀ i a x d, (δ i).asks a → (δ i).learns a x → J d →
    Vets E ψ d ((E.note a x).map (i, ·)) ∧ ∀ w ∈ E.note a x, guard w = []
  write : ∀ i d w, J d → ψ i d w → J (E.write w d)
  stable : ∀ i d d' w, Sees (guard w) d d' → ψ i d w → ψ i d' w
  sees_refl : ∀ ks d, Sees ks d d
  sees_trans : ∀ ks d d' d'', Sees ks d d' → Sees ks d' d'' → Sees ks d d''
  sees_write : ∀ ks d d' w, Sees ks d d' → Sees ks (E.write w d) (E.write w d')
  sees_frame : ∀ ks d w, (∀ k ∈ ks, k ∉ guard w) → Sees ks d (E.write w d)

/-- The state a statement on the connection sees. -/
def Session.view (E : Engine Rows Ans D O W K Err) (d : D) : Session ι W → D
  | .active _ pending => E.apply (pending.map Prod.snd) d
  | _ => d

/-- What is written on the connection and not committed is vetted, and what it was judged by
    is `held`. -/
def Session.Vetted (E : Engine Rows Ans D O W K Err) (ψ : ι → D → W → Prop) (guard : W → List K)
    (held : K → Prop) (d : D) (σ : Session ι W) : Prop :=
  ∀ i pending, σ = .active i pending →
    Vets E ψ d pending ∧ ∀ e ∈ pending, ∀ k ∈ guard e.2, held k

/-- The invariant of a vetted world. -/
structure World.Vetted (E : Engine Rows Ans D O W K Err) (δ : ι → Dialogue Rows Ans)
    (J : D → Prop) (ψ : ι → D → W → Prop) (guard : W → List K) (w : World Rows Ans Err α D W K C ι) :
    Prop where
  db : J w.db
  session : ∀ c, (w.session c).Vetted E ψ guard (fun k => w.holder k = some c) w.db
  prog : ∀ i, (w.prog i).Speaks (δ i) fun _ => True

/-- A statement that is executed may be, and the answer to a question is one the client may
    get. -/
structure World.Allows (E : Engine Rows Ans D O W K Err) (δ : ι → Dialogue Rows Ans)
    (allow : ι → S → O → D → Prop) (w : World Rows Ans Err α D W K C ι) (l : Label Ans O Err C ι) :
    Prop where
  statement : ∀ s ok err, w.prog l.thread = .stmt s ok err → l.env.fault = none →
    (∀ i, w.session l.conn ≠ .failed i) →
      allow l.thread s l.env.fresh ((w.session l.conn).view E w.db)
  answer : ∀ a k, w.prog l.thread = .ask a k → (δ l.thread).learns a (l.env.answer a)

section Vetting

variable {E : Engine Rows Ans D O W K Err} {δ : ι → Dialogue Rows Ans}
variable {allow : ι → S → O → D → Prop} {J : D → Prop} {ψ : ι → D → W → Prop}
variable {guard : W → List K} {Sees : List K → D → D → Prop}

theorem vets_append {d : D} {es es' : List (ι × W)} :
    Vets E ψ d (es ++ es') ↔ Vets E ψ d es ∧ Vets E ψ (E.apply (es.map Prod.snd) d) es' := by
  induction es generalizing d with
  | nil => simp [Vets]
  | cons e es ih => simp [Vets, ih, and_assoc]

theorem Vetting.apply (hV : Vetting E δ allow J ψ guard Sees) {d : D} {es : List (ι × W)}
    (hd : J d) (h : Vets E ψ d es) : J (E.apply (es.map Prod.snd) d) := by
  induction es generalizing d with
  | nil => exact hd
  | cons e es ih => exact ih (hV.write _ _ _ hd h.1) h.2

/-- Writes stay vetted in a state that preserves what they were judged by. -/
theorem Vetting.vets_stable (hV : Vetting E δ allow J ψ guard Sees) {d d' : D}
    {es : List (ι × W)} (hsees : ∀ e ∈ es, Sees (guard e.2) d d') (h : Vets E ψ d es) :
    Vets E ψ d' es := by
  induction es generalizing d d' with
  | nil => trivial
  | cons e es ih =>
    refine ⟨hV.stable _ _ _ _ (hsees e List.mem_cons_self) h.1, ih (fun e' he' => ?_) h.2⟩
    exact hV.sees_write _ _ _ _ (hsees e' (List.mem_cons_of_mem _ he'))

/-- Writes that are judged by other locks preserve what is guarded. -/
theorem Vetting.sees_apply (hV : Vetting E δ allow J ψ guard Sees) {d : D} {ks : List K}
    {es : List (ι × W)} (h : ∀ e ∈ es, ∀ k ∈ ks, k ∉ guard e.2) :
    Sees ks d (E.apply (es.map Prod.snd) d) := by
  induction es generalizing d with
  | nil => exact hV.sees_refl _ _
  | cons e es ih =>
    have hfirst : Sees ks d (E.write e.2 d) := hV.sees_frame _ _ _ (h e List.mem_cons_self)
    exact hV.sees_trans _ _ _ _ hfirst (ih fun e' he' => h e' (List.mem_cons_of_mem _ he'))

/-- **One move.**  What it commits is vetted, and judged by what the move locks or the
    connection holds; so is what it leaves uncommitted. -/
theorem Prog.Speaks.move (hV : Vetting E δ allow J ψ guard Sees) {p : Prog Rows Ans Err α}
    {me : ι} {env : Env O Err Ans} {σ : Session ι W} {d : D} {m : Move Rows Ans Err α ι W K}
    {held : K → Prop} (hp : p.Speaks (δ me) fun _ => True) (hd : J d)
    (hσ : σ.Vetted E ψ guard held d)
    (hstmt : ∀ s ok err, p = .stmt s ok err → env.fault = none → (∀ i, σ ≠ .failed i) →
      allow me s env.fresh (σ.view E d))
    (hask : ∀ a k, p = .ask a k → (δ me).learns a (env.answer a))
    (hm : p.move E me env σ d = some m) :
    Vets E ψ d m.commits ∧ (∀ e ∈ m.commits, ∀ k ∈ guard e.2, k ∈ m.locks ∨ held k) ∧
      m.session.Vetted E ψ guard (fun k => k ∈ m.locks ∨ held k)
        (E.apply (m.commits.map Prod.snd) d) ∧
      m.next.Speaks (δ me) fun _ => True := by
  have hquiet : ∀ σ' : Session ι W, (∀ i pending, σ' ≠ .active i pending) →
      Vets E ψ d ([] : List (ι × W)) ∧
      (∀ e ∈ ([] : List (ι × W)), ∀ k ∈ guard e.2, k ∈ m.locks ∨ held k) ∧
      σ'.Vetted E ψ guard (fun k => k ∈ m.locks ∨ held k) d :=
    fun σ' hσ' => ⟨trivial, fun e he => (nomatch he), fun i pending h => absurd h (hσ' i pending)⟩
  have hkept : Vets E ψ d ([] : List (ι × W)) ∧
      (∀ e ∈ ([] : List (ι × W)), ∀ k ∈ guard e.2, k ∈ m.locks ∨ held k) ∧
      σ.Vetted E ψ guard (fun k => k ∈ m.locks ∨ held k) d :=
    ⟨trivial, fun e he => (nomatch he), fun i pending h =>
      ⟨(hσ i pending h).1, fun e he k hk => Or.inr ((hσ i pending h).2 e he k hk)⟩⟩
  cases p with
  | ret a => cases hm
  | throw e => cases hm
  | ask a k =>
    obtain rfl := by simpa using hm.symm
    -- What a question leaves is judged by no lock, so it disturbs nothing that is pending.
    obtain ⟨hvets, hfree⟩ := hV.note me a (env.answer a) d hp.1 (hask a k rfl) hd
    have hnone : ∀ e ∈ (E.note a (env.answer a)).map (me, ·), guard e.2 = [] := by
      intro e he
      obtain ⟨w, hw, rfl⟩ := List.mem_map.mp he
      exact hfree w hw
    refine ⟨hvets, fun e he k hk => ?_, fun i pending h => ⟨?_, ?_⟩, hp.2 _ (hask a k rfl)⟩
    · rw [hnone e he] at hk
      cases hk
    · refine hV.vets_stable (fun e _ => hV.sees_apply fun e' he' k _ => ?_) (hσ i pending h).1
      rw [hnone e' he']
      exact List.not_mem_nil
    · exact fun e he k hk => Or.inr ((hσ i pending h).2 e he k hk)
  | stmt s ok err =>
    cases σ with
    | failed i =>
      obtain ⟨e, rfl⟩ := move_stmt_failed_cases hm
      obtain ⟨h₁, h₂, h₃⟩ := hquiet (.failed i) fun _ _ h => nomatch h
      exact ⟨h₁, h₂, h₃, hp.2.2 e⟩
    | idle =>
      obtain ⟨h₁, h₂, h₃⟩ := hquiet .idle fun _ _ h => nomatch h
      rcases move_stmt_idle_cases hm with ⟨e, -, rfl⟩ | ⟨e, -, -, rfl⟩ | ⟨r, ws, hf, hx, rfl⟩
      · exact ⟨h₁, h₂, h₃, hp.2.2 e⟩
      · exact ⟨h₁, h₂, h₃, hp.2.2 e⟩
      · obtain ⟨hhears, hvets, hlocks⟩ := hV.exec me s env.fresh d r ws hp.1
          (hstmt s ok err rfl hf fun _ h => nomatch h) hd hx
        refine ⟨hvets, fun e he k hk => ?_, fun _ _ h => (nomatch h), hp.2.1 r hhears⟩
        obtain ⟨w, hw, rfl⟩ := List.mem_map.mp he
        exact Or.inl (hlocks w hw k hk)
    | active i pending =>
      obtain ⟨h₁, h₂, h₃⟩ := hquiet (.failed i) fun _ _ h => nomatch h
      rcases move_stmt_active_cases hm with ⟨e, -, rfl⟩ | ⟨e, -, -, rfl⟩ | ⟨r, ws, hf, hx, rfl⟩
      · exact ⟨h₁, h₂, h₃, hp.2.2 e⟩
      · exact ⟨h₁, h₂, h₃, hp.2.2 e⟩
      · -- The transaction's new writes are judged in what it sees, after those it made before.
        obtain ⟨hpending, hheld⟩ := hσ i pending rfl
        obtain ⟨hhears, hvets, hlocks⟩ := hV.exec me s env.fresh _ r ws hp.1
          (hstmt s ok err rfl hf fun _ h => nomatch h) (hV.apply hd hpending) hx
        refine ⟨trivial, fun e he => (nomatch he), fun i' pending' h => ?_, hp.2.1 r hhears⟩
        obtain ⟨-, rfl⟩ := Session.active.inj h
        refine ⟨vets_append.mpr ⟨hpending, hvets⟩, fun e he k hk => ?_⟩
        rcases List.mem_append.mp he with he | he
        · exact Or.inr (hheld e he k hk)
        · obtain ⟨w, hw, rfl⟩ := List.mem_map.mp he
          exact Or.inl (hlocks w hw k hk)
  | control c ok err =>
    have hidle := hquiet .idle fun _ _ h => nomatch h
    rcases move_control_cases hm with ⟨e, -, rfl⟩ | ⟨-, rfl⟩
    · cases c with
      | commit => exact ⟨hidle.1, hidle.2.1, hidle.2.2, hp.2 e⟩
      | beginTx => exact ⟨hkept.1, hkept.2.1, hkept.2.2, hp.2 e⟩
      | rollback => exact ⟨hkept.1, hkept.2.1, hkept.2.2, hp.2 e⟩
    · cases c with
      | rollback => exact ⟨hidle.1, hidle.2.1, hidle.2.2, hp.1⟩
      | commit =>
        cases σ with
        | idle => exact ⟨hidle.1, hidle.2.1, hidle.2.2, hp.1⟩
        | failed i => exact ⟨hidle.1, hidle.2.1, hidle.2.2, hp.1⟩
        | active i pending =>
          obtain ⟨hpending, hheld⟩ := hσ i pending rfl
          exact ⟨hpending, fun e he k hk => Or.inr (hheld e he k hk), fun _ _ h => (nomatch h), hp.1⟩
      | beginTx =>
        cases σ with
        | failed i => exact ⟨hkept.1, hkept.2.1, hkept.2.2, hp.2 _⟩
        | active i pending => exact ⟨hkept.1, hkept.2.1, hkept.2.2, hp.1⟩
        | idle =>
          refine ⟨hidle.1, hidle.2.1, fun i pending h => ?_, hp.1⟩
          obtain ⟨-, rfl⟩ := Session.active.inj h
          exact ⟨trivial, fun e he => nomatch he⟩

variable [DecidableEq ι] [DecidableEq C] [DecidableEq K]
variable {w w' : World Rows Ans Err α D W K C ι} {l : Label Ans O Err C ι}

omit [DecidableEq ι] in
/-- A step takes no lock away from another connection. -/
theorem holder_after_other {m : Move Rows Ans Err α ι W K} (hf : w.Free l.conn m.locks) {c : C}
    (hc : c ≠ l.conn) {k : K} (hk : w.holder k = some c) :
    holderAfter w.holder l.conn m.locks m.session k = some c := by
  have hfree : k ∉ m.locks := by
    intro hmem
    rcases hf k hmem with hnone | hown
    · rw [hnone] at hk; cases hk
    · rw [hown] at hk; exact hc (Option.some.inj hk).symm
  unfold holderAfter
  split
  · rw [if_neg hfree]
    exact hk
  · rw [if_neg (by rw [hk]; exact fun h => hc (Option.some.inj h)), hk]

omit [DecidableEq ι] in
/-- While its transaction is open, a connection keeps its locks and adds those of its move. -/
theorem holder_after_own {m : Move Rows Ans Err α ι W K} {i : ι} {pending : List (ι × W)}
    (hm : m.session = .active i pending) {k : K} (hk : k ∈ m.locks ∨ w.holder k = some l.conn) :
    holderAfter w.holder l.conn m.locks m.session k = some l.conn := by
  unfold holderAfter
  rw [hm]
  by_cases hmem : k ∈ m.locks
  · simp [hmem]
  · simpa [hmem] using hk

/-- **Step rule.**  What a step commits is vetted, one write after the other, and the world
    stays vetted. -/
theorem World.Vetted.step (hV : Vetting E δ allow J ψ guard Sees) (h : w.Vetted E δ J ψ guard)
    (hl : w.Allows E δ allow l) (hs : w.step E l = some w') :
    w'.Vetted E δ J ψ guard ∧ ∃ made : List (ι × W), Vets E ψ w.db made ∧
      w'.db = E.apply (made.map Prod.snd) w.db ∧ w'.journal = w.journal ++ made := by
  obtain ⟨m, hm, hfree, rfl⟩ := step_cases hs
  obtain ⟨hvets, hguards, hsession, hnext⟩ := (h.prog l.thread).move hV h.db (h.session l.conn)
    hl.statement hl.answer hm
  refine ⟨⟨hV.apply h.db hvets, fun c => ?_, fun i => ?_⟩, m.commits, hvets, rfl, rfl⟩
  · by_cases hc : c = l.conn
    · subst hc
      simp only [World.after, Function.update_self]
      intro i pending hactive
      obtain ⟨hpending, hheld⟩ := hsession i pending hactive
      exact ⟨hpending, fun e he k hk => holder_after_own hactive (hheld e he k hk)⟩
    · simp only [World.after, Function.update_of_ne hc]
      intro i pending hactive
      obtain ⟨hpending, hheld⟩ := h.session c i pending hactive
      refine ⟨hV.vets_stable (fun e he => hV.sees_apply fun e' he' k hk hk' => ?_) hpending,
        fun e he k hk => holder_after_other hfree hc (hheld e he k hk)⟩
      -- The other connection holds what its write was judged by.
      have hother : w.holder k = some c := hheld e he k hk
      rcases hguards e' he' k hk' with hmem | hown
      · rcases hfree k hmem with hnone | hown
        · rw [hnone] at hother; cases hother
        · rw [hown] at hother; exact hc (Option.some.inj hother).symm
      · rw [hown] at hother; exact hc (Option.some.inj hother).symm
  · by_cases hi : i = l.thread
    · subst hi
      simpa only [World.after, Function.update_self] using hnext
    · simpa only [World.after, Function.update_of_ne hi] using h.prog i

/-- **Run rule.** -/
theorem World.Vetted.reaches (hV : Vetting E δ allow J ψ guard Sees)
    {P : World Rows Ans Err α D W K C ι → Label Ans O Err C ι → Prop}
    {w₀ : World Rows Ans Err α D W K C ι} (hP : ∀ w l, P w l → w.Allows E δ allow l)
    (h₀ : w₀.Vetted E δ J ψ guard) (h : Reaches E P w₀ w) : w.Vetted E δ J ψ guard := by
  induction h with
  | start => exact h₀
  | step _ hl hs ih => exact (ih.step hV (hP _ _ hl) hs).1

/-- **The journal.**  The writes of a run were vetted one after the other, and lead from the first
    database to the last one. -/
theorem World.Vetted.journal (hV : Vetting E δ allow J ψ guard Sees)
    {P : World Rows Ans Err α D W K C ι → Label Ans O Err C ι → Prop}
    {w₀ : World Rows Ans Err α D W K C ι} (hP : ∀ w l, P w l → w.Allows E δ allow l)
    (h₀ : w₀.Vetted E δ J ψ guard) (h : Reaches E P w₀ w) :
    ∃ made : List (ι × W), Vets E ψ w₀.db made ∧ w.db = E.apply (made.map Prod.snd) w₀.db ∧
      w.journal = w₀.journal ++ made := by
  induction h with
  | start => exact ⟨[], trivial, rfl, by simp⟩
  | step hr hl hs ih =>
    obtain ⟨made, hvets, hdb, hjournal⟩ := ih
    obtain ⟨-, more, hmore, hdb', hjournal'⟩ :=
      (World.Vetted.reaches hV hP h₀ hr).step hV (hP _ _ hl) hs
    rw [hdb] at hmore
    refine ⟨made ++ more, vets_append.mpr ⟨hvets, hmore⟩, ?_, ?_⟩
    · rw [hdb', hdb, List.map_append, Engine.apply_append]
    · rw [hjournal', hjournal, List.append_assoc]

omit [DecidableEq ι] [DecidableEq C] [DecidableEq K] in
/-- What was committed in the midst of a run was vetted in the state it met. -/
theorem vets_mem {d : D} {es es' : List (ι × W)} {e : ι × W} (h : Vets E ψ d (es ++ e :: es')) :
    Vets E ψ d es ∧ ψ e.1 (E.apply (es.map Prod.snd) d) e.2 :=
  ⟨(vets_append.mp h).1, (vets_append.mp h).2.1⟩

omit [DecidableEq ι] [DecidableEq C] [DecidableEq K] in
theorem vetted_init {d : D} {prog : ι → Prog Rows Ans Err α} (hd : J d)
    (hprog : ∀ i, (prog i).Speaks (δ i) fun _ => True) :
    (World.init d prog : World Rows Ans Err α D W K C ι).Vetted E δ J ψ guard :=
  ⟨hd, fun _ _ _ h => (nomatch h), hprog⟩

end Vetting

end ReadCommitted
