import Chronos.Locality
import Chronos.Requests
import Chronos.ReadCommitted.Contract

namespace Chronos

open ReadCommitted ReadCommitted.Prog

/-!
# Rules for the booking core's programs

The rules of `ReadCommitted.Contract` and `ReadCommitted.Discipline` at the statements of
this database, and at the idioms the source repeats: a transaction with a `catch` block that
rolls back, and a `finally` block that releases a client.

* `Quietly`, `Reading`, `Writing` — how a part of a program ends: after work that can only
  touch reminder rows, after reading, and inside a transaction it has written in.
* `Catchable`, `keeps_catch` — what the `catch` block does wherever it takes over.
-/

/-- `await db.query('ROLLBACK').catch(() => {})`. -/
def rollbackQuietly : Program Unit := tryCatch (send .rollback) fun _ => pure ()

/-! ### The discipline -/

section Ok

variable {cat : Catalog} {adm : Stmt → Database → Prop}

theorem ok_perform {m : Mode Lock} {e : Effect} {T : Mode Lock → Except JsError Unit → Prop}
    (he : ∀ x, noted (.effect e) x = []) (hT : ∀ r, T m r) :
    (perform e).OkTo (chronos cat) value adm T m := by
  have h : ∀ x, (ofExcept x).OkTo (chronos cat) value adm T m := by
    intro x
    cases x with
    | ok a => exact okTo_ret.mpr (hT _)
    | error err => exact okTo_throw.mpr (hT _)
  cases m with
  | free => exact h
  | inside held => exact ⟨he, h⟩
  | doomed => exact ⟨he, h⟩

/-- The `catch` block closes whatever it finds. -/
theorem ok_rollbackQuietly {α : Type} {r : Except JsError α} {m : Mode Lock} :
    (rollbackQuietly.bind fun _ => ofExcept r).OkTo (chronos cat) value adm Mode.Ended m := by
  cases r with
  | ok a => cases m <;> exact ⟨trivial, fun _ => trivial⟩
  | error e => cases m <;> exact ⟨trivial, fun _ => trivial⟩

/-- Where a `catch` block may take over: results have to be given outside transactions. -/
def Mode.Caught {α : Type} : Mode Lock → Except JsError α → Prop
  | m, .ok a => Mode.Ended m (.ok a : Except JsError α)
  | _, .error _ => True

theorem OkTo.caught {α : Type} {p : Program α} (f : JsError → Except JsError α)
    (hp : p.OkTo (chronos cat) value adm Mode.Caught .free) :
    (p.tryCatch fun e => rollbackQuietly.bind fun _ => ofExcept (f e)).OkTo (chronos cat) value adm
      Mode.Ended .free :=
  hp.tryCatch (fun _ _ h => h) fun _ _ _ => ok_rollbackQuietly

/-- A `finally` block that releases a client. -/
theorem ok_finallyRelease {α : Type} {p : Program α} {which : PoolClient}
    (hp : p.OkTo (chronos cat) value adm Mode.Ended .free) :
    (p.tryFinally (perform (.release which))).OkTo (chronos cat) value adm Mode.Ended .free := by
  refine hp.andThen (fun m a h => ?_) fun m err h => ?_
  · refine (ok_perform (T := fun m' _ => m' = m) (fun _ => rfl) fun _ => rfl).bind ?_ ?_
    · rintro m' - rfl; exact okTo_ret.mpr h
    · rintro m' err rfl; exact h.congr
  · refine (ok_perform (T := fun m' _ => m' = m) (fun _ => rfl) fun _ => rfl).bind ?_ ?_
    · rintro m' - rfl; exact okTo_throw.mpr h
    · rintro m' err' rfl; exact h.congr

end Ok

/-! ### Statement rules -/

section Rules

variable {cat : Catalog} {α γ : Type}
variable {c : Contract Ask.Answer Stmt Database Write Nat JsError γ}
variable {Q : Stage Database Write → γ → Except JsError α → Prop} {g : γ}

/-- Nothing goes wrong around the program: no statement fails from outside, and everything
    outside the database succeeds. -/
def Calm (env : Env Nat JsError Ask.Answer) : Prop :=
  env.fault = none ∧ (∀ e, env.answer (.effect e) = .ok ()) ∧
    ∀ b offset now delayMs, ∃ timestamp,
      env.answer (.queueAdd b offset now delayMs) = .ok timestamp

/-- A `SELECT` outside a transaction. -/
theorem keeps_read {s : Stmt} {f : Database → s.Rows} (hs : ∀ o d, exec cat s o d = read (f d))
    {ok : s.Rows → Program α} {err : JsError → Program α}
    (hstay : ∀ d, c.know g d → c.move g d [] g)
    (hok : ∀ d env, c.env g d env → c.know g d → (ok (f d)).Keeps (chronos cat) c Q .free g)
    (herr : ∀ d env e, c.env g d env → env.fault = some e →
      (err e).Keeps (chronos cat) c Q .free g) :
    (Prog.stmt s ok err).Keeps (chronos cat) c Q .free g := by
  intro d env he hk
  refine ⟨fun e hf => ⟨g, hstay d hk, herr d env e he hf⟩, fun hf => ⟨fun r ws hx => ?_, fun e hx => ?_⟩⟩
  · change (exec cat s env.fresh d).result = _ at hx
    rw [hs] at hx
    obtain ⟨rfl, rfl⟩ := read_ok hx
    exact ⟨g, hstay d hk, hok d env he hk⟩
  · change (exec cat s env.fresh d).result = _ at hx
    rw [hs] at hx
    cases hx

/-- A statement outside a transaction that at most settles reminder rows of booking `b`. -/
theorem keeps_reminders {s : Stmt} {b : BookingId} {φ : γ → Prop}
    (hs : ∀ o d e, (exec cat s o d).result ≠ .error e)
    (hws : ∀ o d r ws, (exec cat s o d).result = .ok (r, ws) → ∀ w ∈ ws, w.Settles b)
    (hpost : ∀ g d ws, φ g → c.know g d → (∀ w ∈ ws, w.Settles b) → c.Next g d ws φ)
    {ok : s.Rows → Program α} {err : JsError → Program α} (hg : φ g)
    (hok : ∀ r g, φ g → (ok r).Keeps (chronos cat) c Q .free g)
    (herr : ∀ d env e g g', φ g → c.env g d env → env.fault = some e → φ g' →
      (err e).Keeps (chronos cat) c Q .free g') :
    (Prog.stmt s ok err).Keeps (chronos cat) c Q .free g := by
  intro d env he hk
  refine ⟨fun e hf => ?_, fun hf => ⟨fun r ws hx => ?_, fun e hx => absurd hx (hs _ _ e)⟩⟩
  · exact (hpost g d [] hg hk (by simp)).mono fun g' hg' => herr d env e g g' hg he hf hg'
  · exact (hpost g d ws hg hk (hws _ _ _ _ hx)).mono fun g' hg' => hok r g' hg'

end Rules

section Inside

variable {cat : Catalog} {α γ : Type}
variable {c : Contract Ask.Answer Stmt Database Write Nat JsError γ}
variable {Q : Stage Database Write → γ → Except JsError α → Prop} {g : γ}

/-- A statement inside a transaction; its error is one the database or the surroundings
    report, and is not told apart. -/
theorem keeps_inside {s : Stmt} {d : Database} {ws : List Write} (hsend : c.send g d ws s)
    (hgiveUp : c.move g d [] g) {ok : s.Rows → Program α} {err : JsError → Program α}
    (hok : ∀ o r ws', (exec cat s o ((chronos cat).apply ws d)).result = .ok (r, ws') →
      (ok r).Keeps (chronos cat) c Q (.inside d (ws ++ ws')) g)
    (herr : ∀ e, (err e).Keeps (chronos cat) c Q .doomed g) :
    (Prog.stmt s ok err).Keeps (chronos cat) c Q (.inside d ws) g :=
  ⟨hsend, fun _ o r ws' hx => hok o r ws' hx, fun _ e _ _ => ⟨g, hgiveUp, herr e⟩⟩

/-- `ROLLBACK` inside a transaction, at a ghost that stays. -/
theorem keeps_rollback {d : Database} {ws : List Write} {ok : Program α}
    {err : JsError → Program α} (hstay : ∀ d, c.know g d → c.move g d [] g)
    (hgiveUp : c.move g d [] g) (hok : ok.Keeps (chronos cat) c Q .free g)
    (herr : ∀ e, (err e).Keeps (chronos cat) c Q .doomed g) :
    (Prog.control .rollback ok err).Keeps (chronos cat) c Q (.inside d ws) g :=
  ⟨fun _ _ => ⟨fun _ => ⟨g, hgiveUp, hok⟩, fun e _ => ⟨g, hgiveUp, herr e⟩⟩, g, hgiveUp,
    fun d' _ _ hk' => ⟨fun _ => ⟨g, hstay d' hk', hok⟩, fun e _ => ⟨g, hstay d' hk', herr e⟩⟩⟩

end Inside

/-! ### How a part of a program ends -/

section Ends

variable {cat : Catalog} {γ : Type}
variable {c : Contract Ask.Answer Stmt Database Write Nat JsError γ} {g g₀ : γ} {φ : γ → Prop}
variable {d : Database}

/-- `nowUtc || clock.now()`. -/
def EffectiveNow (c : Contract Ask.Answer Stmt Database Write Nat JsError γ) (g : γ)
    (nowUtc : Option Instant) (now : Instant) : Prop :=
  (∀ t, nowUtc = some t → now = t) ∧
    (nowUtc = none → ∃ d env, c.env g d env ∧ env.answer .now = now)

/-- Nothing goes wrong around the program while its ghost satisfies `φ`. -/
def CalmAt (c : Contract Ask.Answer Stmt Database Write Nat JsError γ) (φ : γ → Prop) : Prop :=
  ∀ g d env, φ g → c.env g d env → Calm env

/-- Outside a transaction, at a ghost with `φ`; and without an exception if nothing goes
    wrong around the program. -/
def Quietly {α : Type} (c : Contract Ask.Answer Stmt Database Write Nat JsError γ)
    (φ : γ → Prop) : Stage Database Write → γ → Except JsError α → Prop :=
  fun st g r => st = .free ∧ φ g ∧ (CalmAt c φ → ∃ a, r = .ok a)

/-- A program that comes to a fault or a refusal is not calm. -/
theorem quietly_error {α : Type} {d : Database} {env : Env Nat JsError Ask.Answer} {e : JsError}
    {g₁ : γ} (hg₁ : φ g₁) (he : c.env g₁ d env) (hg : φ g)
    (hbad : env.fault = some e ∨ (∃ eff, env.answer (.effect eff) = .error e) ∨
      ∃ b offset now delayMs, env.answer (.queueAdd b offset now delayMs) = .error e) :
    Quietly c φ .free g (.error e : Except JsError α) := by
  refine ⟨rfl, hg, fun hcalm => ?_⟩
  obtain ⟨hfault, heff, hadd⟩ := hcalm g₁ d env hg₁ he
  rcases hbad with h | ⟨eff, h⟩ | ⟨b, offset, now, delayMs, h⟩
  · rw [hfault] at h; cases h
  · rw [heff eff] at h; cases h
  · obtain ⟨timestamp, hadded⟩ := hadd b offset now delayMs
    rw [hadded] at h
    cases h

/-- Outside a transaction, at a ghost with `φ`, and without an exception. -/
def Safely {α : Type} (φ : γ → Prop) : Stage Database Write → γ → Except JsError α → Prop :=
  fun st g r => st = .free ∧ φ g ∧ ∃ a, r = .ok a

/-- `try { … } catch {}`. -/
theorem keeps_safely {p : Program Unit} (hp : p.Keeps (chronos cat) c (Quietly c φ) .free g) :
    (p.tryCatch fun _ => ret ()).Keeps (chronos cat) c (Safely φ) .free g := by
  refine Keeps.tryCatch _ hp (fun st g a h => ⟨h.1, h.2.1, a, rfl⟩) ?_
  rintro st g e ⟨rfl, hg, -⟩
  exact keeps_ret.mpr ⟨rfl, hg, (), rfl⟩

/-- A client that only reads, at a ghost that stays. -/
def Reading {α : Type} (g₀ : γ) (T : Except JsError α → Prop) :
    Stage Database Write → γ → Except JsError α → Prop :=
  fun st g r => st = .free ∧ g = g₀ ∧ T r

/-- A part of the transaction on `d`: it returns with further writes that satisfy `T`, or
    throws inside the transaction, which an error may have aborted. -/
def Writing {α : Type} (d : Database) (ws : List Write) (g₀ : γ) (T : α → List Write → Prop) :
    Stage Database Write → γ → Except JsError α → Prop
  | st, g, .ok a => g = g₀ ∧ ∃ ws', st = .inside d (ws ++ ws') ∧ T a ws'
  | st, g, .error _ => g = g₀ ∧ (st = .doomed ∨ ∃ ws', st = .inside d ws')

/-- Ghosts a client stays at while it commits nothing. -/
def StaysAt (c : Contract Ask.Answer Stmt Database Write Nat JsError γ) (φ : γ → Prop) : Prop :=
  ∀ g d, φ g → c.know g d → c.Next g d [] φ

theorem staysAt_eq (hstay : ∀ d, c.know g₀ d → c.move g₀ d [] g₀) : StaysAt c (· = g₀) := by
  rintro g d rfl hk
  exact ⟨g, hstay d hk, rfl⟩

/-- Where a `catch` block takes over: outside a transaction, or inside one. -/
def Catchable (c : Contract Ask.Answer Stmt Database Write Nat JsError γ) (g : γ)
    (st : Stage Database Write) : Prop :=
  st = .free ∨ st = .doomed ∨ ∃ d ws, st = .inside d ws ∧ c.know g d

theorem catchable_of_writing {g : γ} {st : Stage Database Write} (hk : c.know g d)
    (h : st = .doomed ∨ ∃ ws', st = .inside d ws') : Catchable c g st := by
  rcases h with rfl | ⟨ws', rfl⟩
  · exact Or.inr (Or.inl rfl)
  · exact Or.inr (Or.inr ⟨d, ws', rfl, hk⟩)

/-- The `catch` block. -/
theorem keeps_catch {α : Type} {R : γ → Except JsError α → Prop} {φ : γ → Prop}
    {st : Stage Database Write} {g : γ} {r : Except JsError α} (hst : Catchable c g st)
    (hφ : StaysAt c φ) (hg : φ g) (hR : ∀ g, φ g → R g r) :
    (rollbackQuietly.bind fun _ => ofExcept r).Keeps (chronos cat) c (c.post R) st g := by
  have hend : ∀ st g, st = .free ∨ st = .doomed → φ g →
      (ofExcept r).Keeps (chronos cat) c (c.post R) st g := by
    rintro st g (rfl | rfl) hg <;> cases r <;> first
      | exact keeps_ret.mpr (hR g hg)
      | exact keeps_throw.mpr (hR g hg)
  have hmove : ∀ g d, φ g → c.know g d →
      (c.Next g d [] fun g' => (ofExcept r).Keeps (chronos cat) c (c.post R) .free g') ∧
      c.Next g d [] fun g' => (ofExcept r).Keeps (chronos cat) c (c.post R) .doomed g' :=
    fun g d hg hk => ⟨(hφ g d hg hk).mono fun g' => hend .free g' (Or.inl rfl),
      (hφ g d hg hk).mono fun g' => hend .doomed g' (Or.inr rfl)⟩
  rcases hst with rfl | rfl | ⟨d, ws, rfl, hk⟩
  · exact fun d env _ hk => ⟨fun _ => (hmove g d hg hk).1, fun _ _ => (hmove g d hg hk).1⟩
  · exact fun d env _ hk => ⟨fun _ => (hmove g d hg hk).1, fun _ _ => (hmove g d hg hk).2⟩
  · refine ⟨fun env _ => ⟨fun _ => (hmove g d hg hk).1, fun _ _ => (hmove g d hg hk).2⟩, ?_⟩
    exact (hφ g d hg hk).mono fun g' hg' d' env _ hk' =>
      ⟨fun _ => (hmove g' d' hg' hk').1, fun _ _ => (hmove g' d' hg' hk').2⟩

/-! ### Clients of a pool -/

/-- Postconditions a released client does not disturb. -/
structure Releasable {α : Type} (c : Contract Ask.Answer Stmt Database Write Nat JsError γ)
    (R : γ → Except JsError α → Prop) : Prop where
  stays : ∀ g d r, R g r → c.know g d → c.Next g d [] fun g' => R g' r
  throws : ∀ g r e, R g r → R g (.error e)

/-- A `finally` block that releases a client. -/
theorem keeps_finallyRelease {α : Type} {p : Program α} {R : γ → Except JsError α → Prop}
    {which : PoolClient} {st : Stage Database Write} {g : γ} (hR : Releasable c R)
    (hp : p.Keeps (chronos cat) c (c.post R) st g) :
    (p.tryFinally (perform (.release which))).Keeps (chronos cat) c (c.post R) st g := by
  have hend : ∀ st g r (k : Unit → Program α), c.post R st g r →
      (∀ st g, c.post R st g r → (k ()).Keeps (chronos cat) c (c.post R) st g) →
      ((perform (.release which)).bind k).Keeps (chronos cat) c (c.post R) st g := by
    intro st g r k h hk
    have hanswer : ∀ st g, c.post R st g r → ∀ x : Except JsError Unit,
        ((ofExcept x).bind k).Keeps (chronos cat) c (c.post R) st g := by
      rintro st g h (e | u)
      · refine keeps_throw.mpr ?_
        cases st with
        | free => exact hR.throws g r e h
        | inside d ws => exact Contract.Next.mono h fun g' h' => hR.throws g' r e h'
        | doomed => exact hR.throws g r e h
      · exact hk st g h
    cases st with
    | free => exact fun d env _ hknow => (hR.stays g d r h hknow).mono fun g' h' => hanswer .free g' h' _
    | inside d ws => exact ⟨fun _ => rfl, fun x => hanswer _ g h x⟩
    | doomed =>
      exact ⟨fun _ => rfl, fun d env _ hknow =>
        (hR.stays g d r h hknow).mono fun g' h' => hanswer .doomed g' h' _⟩
  exact hp.andThen (fun st g a h => hend st g _ _ h fun _ _ h' => keeps_ret.mpr h')
    fun st g e h => hend st g _ _ h fun _ _ h' => keeps_throw.mpr h'

end Ends

end Chronos
