import Mathlib.Data.List.AList
import Mathlib.Tactic.Common

namespace ReadCommitted

/-!
# Programs that talk to a database

A client of a database is a finite tree: it sends one statement, waits for the answer
and goes on with a program that may depend on it.  `Prog` is that tree, with

* `stmt` — a data statement, answered with its rows or with an error;
* `control` — `BEGIN`, `COMMIT` or `ROLLBACK`;
* `ask` — anything else the client waits for (a clock, a queue, another service);
* `ret` / `throw` — the client is done.

An error is an exception of the client program: `bind` passes it on, `tryCatch` and
`tryFinally` are the `try` blocks of the source language.  What a statement does to the
database is not said here (see `Engine`).
-/

/-- The three statements that open and close a transaction. -/
inductive Control
  | beginTx
  | commit
  | rollback
  deriving DecidableEq, Repr

/-- A client program over statements `S` (answered by `Rows s`) and questions `A`
    (answered by `Ans a`), with exceptions in `Err` and results in `α`. -/
inductive Prog {S A : Type} (Rows : S → Type) (Ans : A → Type) (Err α : Type) : Type
  | ret (a : α)
  | throw (e : Err)
  | stmt (s : S) (ok : Rows s → Prog Rows Ans Err α) (err : Err → Prog Rows Ans Err α)
  | control (c : Control) (ok : Prog Rows Ans Err α) (err : Err → Prog Rows Ans Err α)
  | ask (a : A) (k : Ans a → Prog Rows Ans Err α)

namespace Prog

variable {S A : Type} {Rows : S → Type} {Ans : A → Type} {Err α β γ : Type}

/-- Send one statement and return its rows; its error is thrown. -/
def query (s : S) : Prog Rows Ans Err (Rows s) := stmt s ret throw

/-- Send `BEGIN`, `COMMIT` or `ROLLBACK`; its error is thrown. -/
def send (c : Control) : Prog Rows Ans Err Unit := control c (ret ()) throw

/-- Ask one question and return the answer. -/
def call (a : A) : Prog Rows Ans Err (Ans a) := ask a ret

/-- Run `p`, then go on with `f` after a result and with `h` after an exception. -/
def andThen : Prog Rows Ans Err α → (α → Prog Rows Ans Err β) → (Err → Prog Rows Ans Err β) →
    Prog Rows Ans Err β
  | ret a, f, _ => f a
  | throw e, _, h => h e
  | stmt s ok err, f, h => stmt s (fun r => andThen (ok r) f h) (fun e => andThen (err e) f h)
  | control c ok err, f, h => control c (andThen ok f h) (fun e => andThen (err e) f h)
  | ask a k, f, h => ask a (fun x => andThen (k x) f h)

/-- Sequencing; an exception skips the continuation. -/
def bind (p : Prog Rows Ans Err α) (f : α → Prog Rows Ans Err β) : Prog Rows Ans Err β :=
  andThen p f throw

/-- `try p catch (e) { h e }`. -/
def tryCatch (p : Prog Rows Ans Err α) (h : Err → Prog Rows Ans Err α) : Prog Rows Ans Err α :=
  andThen p ret h

/-- `try p finally { fin }`: `fin` runs on both exits, and its own exception wins. -/
def tryFinally (p : Prog Rows Ans Err α) (fin : Prog Rows Ans Err Unit) : Prog Rows Ans Err α :=
  andThen p (fun a => bind fin fun _ => ret a) (fun e => bind fin fun _ => throw e)

instance : Monad (Prog Rows Ans Err) where
  pure := ret
  bind := bind

/-! ### Computation rules -/

@[simp] theorem pure_eq (a : α) : (pure a : Prog Rows Ans Err α) = ret a := rfl
@[simp] theorem bind_eq (p : Prog Rows Ans Err α) (f : α → Prog Rows Ans Err β) :
    p >>= f = bind p f := rfl

@[simp] theorem bind_ret (a : α) (f : α → Prog Rows Ans Err β) : bind (ret a) f = f a := rfl
@[simp] theorem bind_throw (e : Err) (f : α → Prog Rows Ans Err β) :
    bind (throw e) f = throw e := rfl
@[simp] theorem bind_stmt (s : S) (ok : Rows s → Prog Rows Ans Err α)
    (err : Err → Prog Rows Ans Err α) (f : α → Prog Rows Ans Err β) :
    bind (stmt s ok err) f = stmt s (fun r => bind (ok r) f) (fun e => bind (err e) f) := rfl
@[simp] theorem bind_control (c : Control) (ok : Prog Rows Ans Err α)
    (err : Err → Prog Rows Ans Err α) (f : α → Prog Rows Ans Err β) :
    bind (control c ok err) f = control c (bind ok f) (fun e => bind (err e) f) := rfl
@[simp] theorem bind_ask (a : A) (k : Ans a → Prog Rows Ans Err α)
    (f : α → Prog Rows Ans Err β) : bind (ask a k) f = ask a (fun x => bind (k x) f) := rfl

@[simp] theorem bind_query (s : S) (f : Rows s → Prog Rows Ans Err β) :
    bind (query s) f = stmt s f throw := rfl
@[simp] theorem bind_send (c : Control) (f : Unit → Prog Rows Ans Err β) :
    bind (send c) f = control c (f ()) throw := rfl
@[simp] theorem bind_call (a : A) (f : Ans a → Prog Rows Ans Err β) :
    bind (call a) f = ask a f := rfl

@[simp] theorem tryCatch_ret (a : α) (h : Err → Prog Rows Ans Err α) :
    tryCatch (ret a) h = ret a := rfl
@[simp] theorem tryCatch_throw (e : Err) (h : Err → Prog Rows Ans Err α) :
    tryCatch (throw e) h = h e := rfl
@[simp] theorem tryCatch_stmt (s : S) (ok : Rows s → Prog Rows Ans Err α)
    (err : Err → Prog Rows Ans Err α) (h : Err → Prog Rows Ans Err α) :
    tryCatch (stmt s ok err) h
      = stmt s (fun r => tryCatch (ok r) h) (fun e => tryCatch (err e) h) := rfl
@[simp] theorem tryCatch_control (c : Control) (ok : Prog Rows Ans Err α)
    (err : Err → Prog Rows Ans Err α) (h : Err → Prog Rows Ans Err α) :
    tryCatch (control c ok err) h
      = control c (tryCatch ok h) (fun e => tryCatch (err e) h) := rfl
@[simp] theorem tryCatch_ask (a : A) (k : Ans a → Prog Rows Ans Err α)
    (h : Err → Prog Rows Ans Err α) :
    tryCatch (ask a k) h = ask a (fun x => tryCatch (k x) h) := rfl

@[simp] theorem tryFinally_ret (a : α) (fin : Prog Rows Ans Err Unit) :
    tryFinally (ret a) fin = bind fin (fun _ => ret a) := rfl
@[simp] theorem tryFinally_throw (e : Err) (fin : Prog Rows Ans Err Unit) :
    tryFinally (throw e : Prog Rows Ans Err α) fin = bind fin (fun _ => throw e) := rfl
@[simp] theorem tryFinally_stmt (s : S) (ok : Rows s → Prog Rows Ans Err α)
    (err : Err → Prog Rows Ans Err α) (fin : Prog Rows Ans Err Unit) :
    tryFinally (stmt s ok err) fin
      = stmt s (fun r => tryFinally (ok r) fin) (fun e => tryFinally (err e) fin) := rfl
@[simp] theorem tryFinally_control (c : Control) (ok : Prog Rows Ans Err α)
    (err : Err → Prog Rows Ans Err α) (fin : Prog Rows Ans Err Unit) :
    tryFinally (control c ok err) fin
      = control c (tryFinally ok fin) (fun e => tryFinally (err e) fin) := rfl
@[simp] theorem tryFinally_ask (a : A) (k : Ans a → Prog Rows Ans Err α)
    (fin : Prog Rows Ans Err Unit) :
    tryFinally (ask a k) fin = ask a (fun x => tryFinally (k x) fin) := rfl

@[simp] theorem andThen_ret_throw (p : Prog Rows Ans Err α) : andThen p ret throw = p := by
  induction p with
  | ret a => rfl
  | throw e => rfl
  | stmt s ok err ihok iherr => simp only [andThen, ihok, iherr]
  | control c ok err ihok iherr => simp only [andThen, ihok, iherr]
  | ask a k ih => simp only [andThen, ih]

/-- `bind` is associative, so a tail of a program can be read off a nested block. -/
theorem bind_assoc (p : Prog Rows Ans Err α) (f : α → Prog Rows Ans Err β)
    (g : β → Prog Rows Ans Err γ) : bind (bind p f) g = bind p (fun a => bind (f a) g) := by
  induction p with
  | ret a => rfl
  | throw e => rfl
  | stmt s ok err ihok iherr => simp only [bind_stmt, ihok, iherr]
  | control c ok err ihok iherr => simp only [bind_control, ihok, iherr]
  | ask a k ih => simp only [bind_ask, ih]

/-! ### Finished programs -/

/-- The program has returned or thrown. -/
def Done : Prog Rows Ans Err α → Prop
  | ret _ => True
  | throw _ => True
  | _ => False

instance : DecidablePred (Done : Prog Rows Ans Err α → Prop)
  | ret _ => isTrue trivial
  | throw _ => isTrue trivial
  | stmt .. => isFalse id
  | control .. => isFalse id
  | ask .. => isFalse id

/-- How the program ended, if it has. -/
def result : Prog Rows Ans Err α → Option (Except Err α)
  | ret a => some (.ok a)
  | throw e => some (.error e)
  | _ => none

@[simp] theorem result_ret (a : α) : (ret a : Prog Rows Ans Err α).result = some (.ok a) := rfl
@[simp] theorem result_throw (e : Err) :
    (throw e : Prog Rows Ans Err α).result = some (.error e) := rfl

theorem result_eq_some {p : Prog Rows Ans Err α} {r : Except Err α} (h : p.result = some r) :
    (∃ a, p = ret a ∧ r = .ok a) ∨ ∃ e, p = throw e ∧ r = .error e := by
  cases p with
  | ret a => exact Or.inl ⟨a, rfl, by simpa using h.symm⟩
  | throw e => exact Or.inr ⟨e, rfl, by simpa using h.symm⟩
  | stmt s ok err => cases h
  | control c ok err => cases h
  | ask a k => cases h

theorem result_of_done {p : Prog Rows Ans Err α} (h : p.Done) : ∃ r, p.result = some r := by
  cases p with
  | ret a => exact ⟨_, rfl⟩
  | throw e => exact ⟨_, rfl⟩
  | stmt s ok err => exact h.elim
  | control c ok err => exact h.elim
  | ask a k => exact h.elim

/-! ### Programs without transactions -/

/-- The program opens no transaction, what it sends satisfies `φ`, and what it asks `ψ`. -/
def Talks (φ : S → Prop) (ψ : A → Prop) : Prog Rows Ans Err α → Prop
  | .ret _ => True
  | .throw _ => True
  | .stmt s ok err => φ s ∧ (∀ r, Talks φ ψ (ok r)) ∧ ∀ e, Talks φ ψ (err e)
  | .control .. => False
  | .ask a k => ψ a ∧ ∀ x, Talks φ ψ (k x)

section Talks

variable {φ : S → Prop} {ψ : A → Prop}

theorem Talks.andThen {p : Prog Rows Ans Err α} {f : α → Prog Rows Ans Err β}
    {h : Err → Prog Rows Ans Err β} (hp : p.Talks φ ψ) (hf : ∀ a, (f a).Talks φ ψ)
    (hh : ∀ e, (h e).Talks φ ψ) : (p.andThen f h).Talks φ ψ := by
  induction p with
  | ret a => exact hf a
  | throw e => exact hh e
  | stmt s ok err ihok iherr =>
    exact ⟨hp.1, fun r => ihok r (hp.2.1 r), fun e => iherr e (hp.2.2 e)⟩
  | control c ok err ihok iherr => exact hp.elim
  | ask a k ih => exact ⟨hp.1, fun x => ih x (hp.2 x)⟩

theorem Talks.mono {φ' : S → Prop} {ψ' : A → Prop} {p : Prog Rows Ans Err α}
    (hp : p.Talks φ ψ) (hφ : ∀ s, φ s → φ' s) (hψ : ∀ a, ψ a → ψ' a) : p.Talks φ' ψ' := by
  induction p with
  | ret a => trivial
  | throw e => trivial
  | stmt s ok err ihok iherr =>
    exact ⟨hφ s hp.1, fun r => ihok r (hp.2.1 r), fun e => iherr e (hp.2.2 e)⟩
  | control c ok err ihok iherr => exact hp.elim
  | ask a k ih => exact ⟨hψ a hp.1, fun x => ih x (hp.2 x)⟩

theorem Talks.bind {p : Prog Rows Ans Err α} {f : α → Prog Rows Ans Err β} (hp : p.Talks φ ψ)
    (hf : ∀ a, (f a).Talks φ ψ) : (p.bind f).Talks φ ψ :=
  hp.andThen hf fun _ => trivial

theorem Talks.tryCatch {p : Prog Rows Ans Err α} {h : Err → Prog Rows Ans Err α}
    (hp : p.Talks φ ψ) (hh : ∀ e, (h e).Talks φ ψ) : (p.tryCatch h).Talks φ ψ :=
  hp.andThen (fun _ => trivial) hh

end Talks

end Prog

end ReadCommitted
