import Chronos.ReadCommitted.Engine

namespace ReadCommitted

/-!
# Locks, and programs that keep to them

A lock protects a part of the database: `value k d` is what lock `k` protects in `d`.
An engine is `Lawful` for `value` when a statement changes only what it locks (`frame`)
and a write changes what a lock protects in a way that depends on nothing else (`congr`).

Under READ COMMITTED a transaction is only as isolated as its locks: an answer stays true
until the end of the transaction when it is determined by what the transaction has locked
(`Pinned`).  `Prog.Ok` describes programs whose transactions are built of such answers —
and give up at once (`Prog.Closing`) after any other.  These are the programs `Serial`
proves to be atomic.

A run may be known to send a statement only where some condition `adm` holds of the state
the statement sees; `Pinned` asks that this, too, is determined by the locks.
-/

variable {S A : Type} {Rows : S → Type} {Ans : A → Type} {Err α : Type}
variable {D O W K ι : Type} {V : K → Type}

/-- `d` and `d'` agree on everything the locks protect. -/
def Agree (value : (k : K) → D → V k) (locks : List K) (d d' : D) : Prop :=
  ∀ k ∈ locks, value k d = value k d'

section Agree

variable {value : (k : K) → D → V k} {ks ks' : List K} {d d' d'' : D}

theorem Agree.refl (ks : List K) (d : D) : Agree value ks d d := fun _ _ => rfl

theorem Agree.symm (h : Agree value ks d d') : Agree value ks d' d := fun k hk => (h k hk).symm

theorem Agree.trans (h : Agree value ks d d') (h' : Agree value ks d' d'') :
    Agree value ks d d'' := fun k hk => (h k hk).trans (h' k hk)

theorem Agree.left (h : Agree value (ks ++ ks') d d') : Agree value ks d d' :=
  fun k hk => h k (List.mem_append_left _ hk)

end Agree

/-- Statements change what they lock and nothing else, questions nothing that is locked. -/
structure Lawful (E : Engine Rows Ans D O W K Err) (value : (k : K) → D → V k) : Prop where
  frame : ∀ (s : S) (o : O) (d : D) (r : Rows s) (ws : List W),
    (E.exec s o d).result = .ok (r, ws) →
      ∀ k, k ∉ (E.exec s o d).locks → value k (E.apply ws d) = value k d
  congr : ∀ (w : W) (k : K) (d d' : D),
    value k d = value k d' → value k (E.write w d) = value k (E.write w d')
  note : ∀ (a : A) (x : Ans a) (k : K) (d : D), value k (E.apply (E.note a x) d) = value k d

theorem Lawful.congr_apply {E : Engine Rows Ans D O W K Err} {value : (k : K) → D → V k}
    (hL : Lawful E value) (ws : List W) {k : K} {d d' : D} (h : value k d = value k d') :
    value k (E.apply ws d) = value k (E.apply ws d') := by
  induction ws generalizing d d' with
  | nil => exact h
  | cons w ws ih => exact ih (hL.congr w k d d' h)

/-- The answer of `s` on `d`, and whether it may be sent there, depend on nothing but `held`
    and the locks `s` takes itself. -/
def Pinned (E : Engine Rows Ans D O W K Err) (value : (k : K) → D → V k) (adm : S → D → Prop)
    (held : List K) (s : S) (o : O) (d : D) : Prop :=
  ∀ d', Agree value (held ++ (E.exec s o d).locks) d d' →
    E.exec s o d' = E.exec s o d ∧ (adm s d → adm s d')

/-- The next statement is `ROLLBACK`. -/
def Prog.Closing : Prog Rows Ans Err α → Prop
  | .control .rollback _ _ => True
  | _ => False

/-- Where a program stands: outside a transaction, inside one that holds some locks, or
    inside one it will not commit any more. -/
inductive Mode (K : Type)
  | free
  | inside (held : List K)
  | doomed

/-- **The discipline.**  `BEGIN` is sent outside a transaction only.  Inside, an answer is
    pinned by the locks, or the program closes the transaction at once; it may close it at
    any time.  After an error it sends nothing but `ROLLBACK`, and again if that fails.
    Questions that leave something behind are asked outside transactions.  `T` says where, and with which results, the program may end. -/
def Prog.OkTo (E : Engine Rows Ans D O W K Err) (value : (k : K) → D → V k) (adm : S → D → Prop)
    (T : Mode K → Except Err α → Prop) : Mode K → Prog Rows Ans Err α → Prop
  | m, .ret a => T m (.ok a)
  | m, .throw e => T m (.error e)
  | .free, .stmt _ ok err => (∀ r, OkTo E value adm T .free (ok r)) ∧
      ∀ e, OkTo E value adm T .free (err e)
  | .free, .ask _ k => ∀ x, OkTo E value adm T .free (k x)
  | .free, .control .beginTx ok err =>
      OkTo E value adm T (.inside []) ok ∧ ∀ e, OkTo E value adm T .free (err e)
  | .free, .control _ ok err =>
      OkTo E value adm T .free ok ∧ ∀ e, OkTo E value adm T .free (err e)
  | .inside held, .stmt s ok err =>
      (∀ o d r ws, (E.exec s o d).result = .ok (r, ws) →
        (Pinned E value adm held s o d ∧
          OkTo E value adm T (.inside (held ++ (E.exec s o d).locks)) (ok r)) ∨
        ((ok r).Closing ∧ OkTo E value adm T .doomed (ok r))) ∧
      ∀ e, OkTo E value adm T .doomed (err e)
  | .inside held, .ask a k => (∀ x, E.note a x = []) ∧ ∀ x, OkTo E value adm T (.inside held) (k x)
  | .inside _, .control .commit ok err =>
      OkTo E value adm T .free ok ∧ ∀ e, OkTo E value adm T .free (err e)
  | .inside _, .control .rollback ok err =>
      OkTo E value adm T .free ok ∧ ∀ e, OkTo E value adm T .doomed (err e)
  | .doomed, .ask a k => (∀ x, E.note a x = []) ∧ ∀ x, OkTo E value adm T .doomed (k x)
  | .doomed, .control .rollback ok err =>
      OkTo E value adm T .free ok ∧ ∀ e, OkTo E value adm T .doomed (err e)
  | _, _ => False

/-- A whole program does not end inside a transaction it could still commit. -/
def Mode.Ended : Mode K → Except Err α → Prop
  | .inside _, _ => False
  | _, _ => True

/-- Whether a program may end somewhere is not a matter of its result. -/
theorem Mode.Ended.congr {β : Type} {m : Mode K} {r : Except Err α} {r' : Except Err β}
    (h : m.Ended r) : m.Ended r' := by
  cases m with
  | free => trivial
  | inside held => exact h
  | doomed => trivial

/-- The program ends outside transactions. -/
def Mode.Outside : Mode K → Except Err α → Prop := fun m _ => m = .free

/-- The program throws, or returns inside a transaction that holds at least `held`. -/
def Mode.Within (held : List K) : Mode K → Except Err α → Prop
  | m, .ok _ => ∃ more, m = .inside (held ++ more)
  | _, .error _ => True

/-- The discipline of a whole program. -/
abbrev Prog.Ok (E : Engine Rows Ans D O W K Err) (value : (k : K) → D → V k) (adm : S → D → Prop)
    (m : Mode K) (p : Prog Rows Ans Err α) : Prop :=
  p.OkTo E value adm Mode.Ended m

section Ok

variable {E : Engine Rows Ans D O W K Err} {value : (k : K) → D → V k} {adm : S → D → Prop}

/-- What closes a transaction still does when something follows it. -/
theorem Prog.Closing.andThen {β : Type} {p : Prog Rows Ans Err α}
    {f : α → Prog Rows Ans Err β} {h : Err → Prog Rows Ans Err β} (hp : p.Closing) :
    (p.andThen f h).Closing := by
  cases p with
  | ret a => exact hp.elim
  | throw e => exact hp.elim
  | stmt s ok err => exact hp.elim
  | ask a k => exact hp.elim
  | control c ok err => cases c <;> exact hp

variable {T T' : Mode K → Except Err α → Prop} {m : Mode K}

@[simp] theorem okTo_ret {a : α} :
    (Prog.ret a : Prog Rows Ans Err α).OkTo E value adm T m ↔ T m (.ok a) := by
  cases m <;> exact Iff.rfl

@[simp] theorem okTo_throw {e : Err} :
    (Prog.throw e : Prog Rows Ans Err α).OkTo E value adm T m ↔ T m (.error e) := by
  cases m <;> exact Iff.rfl

/-- What follows a program starts where the program ends. -/
theorem Prog.OkTo.andThen {β : Type} {p : Prog Rows Ans Err α} {f : α → Prog Rows Ans Err β}
    {h : Err → Prog Rows Ans Err β} {U : Mode K → Except Err β → Prop}
    (hp : p.OkTo E value adm T m)
    (hf : ∀ m a, T m (.ok a) → (f a).OkTo E value adm U m)
    (hh : ∀ m e, T m (.error e) → (h e).OkTo E value adm U m) :
    (p.andThen f h).OkTo E value adm U m := by
  induction p generalizing m with
  | ret a => exact hf m a (okTo_ret.mp hp)
  | throw e => exact hh m e (okTo_throw.mp hp)
  | ask a k ih =>
    cases m with
    | free => exact fun x => ih x (hp x)
    | inside held => exact ⟨hp.1, fun x => ih x (hp.2 x)⟩
    | doomed => exact ⟨hp.1, fun x => ih x (hp.2 x)⟩
  | stmt s ok err ihok iherr =>
    cases m with
    | free => exact ⟨fun r => ihok r (hp.1 r), fun e => iherr e (hp.2 e)⟩
    | inside held =>
      refine ⟨fun o d r ws hx => ?_, fun e => iherr e (hp.2 e)⟩
      rcases hp.1 o d r ws hx with ⟨hpin, hnext⟩ | ⟨hclose, hnext⟩
      · exact Or.inl ⟨hpin, ihok r hnext⟩
      · exact Or.inr ⟨hclose.andThen, ihok r hnext⟩
    | doomed => exact hp
  | control c ok err ihok iherr =>
    cases m with
    | free => cases c <;> exact ⟨ihok hp.1, fun e => iherr e (hp.2 e)⟩
    | inside held =>
      cases c with
      | beginTx => exact hp
      | commit => exact ⟨ihok hp.1, fun e => iherr e (hp.2 e)⟩
      | rollback => exact ⟨ihok hp.1, fun e => iherr e (hp.2 e)⟩
    | doomed =>
      cases c with
      | beginTx => exact hp
      | commit => exact hp
      | rollback => exact ⟨ihok hp.1, fun e => iherr e (hp.2 e)⟩

theorem Prog.OkTo.mono {p : Prog Rows Ans Err α} (hp : p.OkTo E value adm T m)
    (hT : ∀ m r, T m r → T' m r) : p.OkTo E value adm T' m := by
  rw [← Prog.andThen_ret_throw p]
  exact hp.andThen (fun m a h => okTo_ret.mpr (hT m _ h)) fun m e h => okTo_throw.mpr (hT m _ h)

theorem Prog.OkTo.bind {β : Type} {p : Prog Rows Ans Err α} {f : α → Prog Rows Ans Err β}
    {U : Mode K → Except Err β → Prop} (hp : p.OkTo E value adm T m)
    (hf : ∀ m a, T m (.ok a) → (f a).OkTo E value adm U m)
    (hU : ∀ m e, T m (.error e) → U m (.error e)) : (p.bind f).OkTo E value adm U m :=
  hp.andThen hf fun m e h => okTo_throw.mpr (hU m e h)

theorem Prog.OkTo.tryCatch {p : Prog Rows Ans Err α} {h : Err → Prog Rows Ans Err α}
    (hp : p.OkTo E value adm T m) (hT : ∀ m a, T m (.ok a) → T' m (.ok a))
    (hh : ∀ m e, T m (.error e) → (h e).OkTo E value adm T' m) :
    (p.tryCatch h).OkTo E value adm T' m :=
  hp.andThen (fun m a h => okTo_ret.mpr (hT m a h)) hh

/-- A program that never enters a transaction, and what follows it. -/
theorem Prog.OkTo.outside_bind {β : Type} {p : Prog Rows Ans Err α}
    {f : α → Prog Rows Ans Err β} {U : Mode K → Except Err β → Prop}
    (hp : p.OkTo E value adm Mode.Outside .free) (hf : ∀ a, (f a).OkTo E value adm U .free)
    (hU : ∀ e, U .free (.error e)) : (p.bind f).OkTo E value adm U .free := by
  refine hp.bind ?_ ?_
  · rintro m a rfl; exact hf a
  · rintro m e rfl; exact hU e

theorem Prog.OkTo.outside_tryCatch {p : Prog Rows Ans Err α} {h : Err → Prog Rows Ans Err α}
    (hp : p.OkTo E value adm Mode.Outside .free)
    (hh : ∀ e, (h e).OkTo E value adm Mode.Outside .free) :
    (p.tryCatch h).OkTo E value adm Mode.Outside .free := by
  refine hp.tryCatch (fun _ _ hm => hm) ?_
  rintro m e rfl
  exact hh e

/-- A program that opens no transaction stays outside. -/
theorem Prog.Talks.okTo_outside {φ : S → Prop} {ψ : A → Prop} {p : Prog Rows Ans Err α}
    (hp : p.Talks φ ψ) : p.OkTo E value adm Mode.Outside .free := by
  induction p with
  | ret a => exact okTo_ret.mpr rfl
  | throw e => exact okTo_throw.mpr rfl
  | stmt s ok err ihok iherr => exact ⟨fun r => ihok r (hp.2.1 r), fun e => iherr e (hp.2.2 e)⟩
  | control c ok err ihok iherr => exact hp.elim
  | ask a k ih => exact fun x => ih x (hp.2 x)

/-- Inside a transaction: a statement whose answer is pinned. -/
theorem Prog.OkTo.pinned {held : List K} {s : S} {ok : Rows s → Prog Rows Ans Err α}
    {err : Err → Prog Rows Ans Err α} (hpin : ∀ o d, Pinned E value adm held s o d)
    (hok : ∀ o d r, (ok r).OkTo E value adm T (.inside (held ++ (E.exec s o d).locks)))
    (herr : ∀ e, (err e).OkTo E value adm T .doomed) :
    (Prog.stmt s ok err).OkTo E value adm T (.inside held) :=
  ⟨fun o d r _ _ => Or.inl ⟨hpin o d, hok o d r⟩, herr⟩

/-- Locks taken on the way only add to those a transaction holds. -/
theorem Mode.Within.append {held more : List K} {r : Except Err α}
    (h : Mode.Within (held ++ more) m r) : Mode.Within held m r := by
  cases r with
  | ok a =>
    obtain ⟨more', rfl⟩ := h
    exact ⟨more ++ more', by rw [List.append_assoc]⟩
  | error e => trivial

end Ok

end ReadCommitted
