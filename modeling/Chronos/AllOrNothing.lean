import Chronos.Operations
import Chronos.ReadCommitted.Solitary

namespace Chronos

open ReadCommitted ReadCommitted.Prog

/-!
# `createBooking` after its `COMMIT`

Up to its `COMMIT` a `createBooking` that answers with a refusal has changed nothing.  The reminder
queue is filled after the `COMMIT`, inside the same `try`: what fails there is answered like a
failed booking, and the booking is there.

`all_or_nothing_iff` says which calls are all or nothing: those in which nothing fails after the
`COMMIT`.
-/

/-- What a call meets after its `COMMIT`. -/
def afterCommit : List (Event Stmt Ask.Answer JsError) → List (Event Stmt Ask.Answer JsError)
  | [] => []
  | .controlled .commit :: tr => tr
  | _ :: tr => afterCommit tr

/-- A statement that fails from outside, or a service that fails. -/
def Failing : Event Stmt Ask.Answer JsError → Prop
  | .disturbed _ => True
  | .answered (.effect _) x => ∃ e, x = .error e
  | .answered (.queueAdd ..) x => ∃ e, x = .error e
  | _ => False

/-- Every table is the same. -/
structure SameTables (d d' : Database) : Prop where
  slots : d'.slots = d.slots
  bookings : d'.bookings = d.bookings
  reminderJobs : d'.reminderJobs = d.reminderJobs
  idempotencyKeys : d'.idempotencyKeys = d.idempotencyKeys

/-- **All or nothing**: an answer with another status than 201 leaves every table as it was. -/
def AllOrNothing (d d' : Database) (r : Except JsError Reply) : Prop :=
  ∀ reply, r = .ok reply → reply.status ≠ 201 → SameTables d d'

theorem SameTables.refl (d : Database) : SameTables d d := ⟨rfl, rfl, rfl, rfl⟩

/-! ### The events around the `COMMIT` -/

section Events

variable {tr : List (Event Stmt Ask.Answer JsError)}

theorem afterCommit_of_not_mem (h : .controlled .commit ∉ tr) : afterCommit tr = [] := by
  induction tr with
  | nil => rfl
  | cons ev tr ih =>
    rw [List.mem_cons, not_or] at h
    have hrest := ih h.2
    unfold afterCommit
    split
    · rfl
    · next heq =>
      obtain ⟨rfl, -⟩ := List.cons.inj heq
      exact absurd rfl h.1
    · next heq =>
      obtain ⟨-, rfl⟩ := List.cons.inj heq
      exact hrest

theorem afterCommit_append (h : .controlled .commit ∈ tr)
    (tr' : List (Event Stmt Ask.Answer JsError)) :
    afterCommit (tr ++ tr') = afterCommit tr ++ tr' := by
  induction tr with
  | nil => exact absurd h List.not_mem_nil
  | cons ev tr ih =>
    by_cases hev : ev = .controlled .commit
    · subst hev
      rfl
    · have hrest : .controlled .commit ∈ tr := by
        rcases List.mem_cons.mp h with heq | hmem
        · exact absurd heq.symm hev
        · exact hmem
      have hskip : ∀ tr'', afterCommit (ev :: tr'') = afterCommit tr'' := by
        intro tr''
        rw [afterCommit]
        intro heq
        exact hev heq
      rw [List.cons_append, hskip, hskip]
      exact ih hrest

/-- The `COMMIT` itself. -/
theorem afterCommit_commit (h : .controlled .commit ∉ tr) :
    afterCommit (tr ++ [.controlled .commit]) = [] := by
  induction tr with
  | nil => rfl
  | cons ev tr ih =>
    rw [List.mem_cons, not_or] at h
    have hskip : afterCommit (ev :: (tr ++ [.controlled .commit])) =
        afterCommit (tr ++ [.controlled .commit]) := by
      rw [afterCommit]
      intro heq
      exact h.1 heq.symm
    rw [List.cons_append, hskip]
    exact ih h.2

end Events

/-! ### Up to the `COMMIT` -/

section Before

variable {cat : Catalog} {P : Env Nat JsError Ask.Answer → Prop} {d : Database} {α : Type}

/-- So far nothing is committed. -/
def Uncommitted (d : Database) (tr : List (Event Stmt Ask.Answer JsError))
    (st : Place Database Write) : Prop :=
  .controlled .commit ∉ tr ∧ st.db = d

/-- A part that only reads leaves its caller outside a transaction. -/
def OnlyReads (d : Database) (tr : List (Event Stmt Ask.Answer JsError))
    (st : Place Database Write) (_ : Except JsError α) : Prop :=
  .controlled .commit ∉ tr ∧ st = .free d

theorem not_commit_append {tr : List (Event Stmt Ask.Answer JsError)}
    (h : .controlled .commit ∉ tr) (ev : Event Stmt Ask.Answer JsError)
    (hev : ev ≠ .controlled .commit) : .controlled .commit ∉ tr ++ [ev] := by
  rw [List.mem_append, List.mem_singleton, not_or]
  exact ⟨h, fun heq => hev heq.symm⟩

variable {tr : List (Event Stmt Ask.Answer JsError)} {req : BookingRequest}

/-- The checks read. -/
theorem exec_checks {s : Stmt} (hs : s.Checks) :
    ∃ r : s.Rows, ∀ o, (exec cat s o d).result = .ok (r, []) := by
  cases s with
  | selectSlot id => exact ⟨_, fun _ => rfl⟩
  | selectNotice id => exact ⟨_, fun _ => rfl⟩
  | selectEventType id => exact ⟨_, fun _ => rfl⟩
  | selectKey c key => exact ⟨_, fun _ => rfl⟩
  | _ => exact hs.elim

theorem yields_checks {p : Program α} (hp : p.Talks Stmt.Checks fun _ => False)
    (h : .controlled .commit ∉ tr) : p.Yields (chronos cat) P (OnlyReads d) tr (.free d) := by
  induction p generalizing tr with
  | ret a => exact ⟨h, rfl⟩
  | throw e => exact ⟨h, rfl⟩
  | stmt s ok err ihok iherr =>
    obtain ⟨r, hr⟩ := exec_checks hp.1
    exact yields_read hr (ihok r (hp.2.1 r) (not_commit_append h _ (by simp)))
      fun _ e _ _ => iherr e (hp.2.2 e) (not_commit_append h _ (by simp))
  | control c ok err ihok iherr => exact hp.elim
  | ask a k ih => exact hp.1.elim

/-- Booking `id` is among the writes of the transaction. -/
def Adds (cat : Catalog) (d : Database) (id : BookingId) (ws : List Write) : Prop :=
  d.bookings.lookup id = none ∧ (((chronos cat).apply ws d).bookings.lookup id).isSome = true

/-- A part of the transaction that has inserted booking `id`. -/
def StillAdds (cat : Catalog) (d : Database) (id : BookingId)
    (tr : List (Event Stmt Ask.Answer JsError)) (st : Place Database Write) :
    Except JsError α → Prop
  | .ok _ => .controlled .commit ∉ tr ∧ ∃ ws, st = .inside d ws ∧ Adds cat d id ws
  | .error _ => Uncommitted d tr st

variable {id : BookingId} {ws : List Write}

theorem Adds.append {ws' : List Write} (h : Adds cat d id ws)
    (hws : ∀ w ∈ ws', ∀ i row, w ≠ .booking i row) : Adds cat d id (ws ++ ws') := by
  obtain ⟨hnone, hsome⟩ := h
  refine ⟨hnone, ?_⟩
  rw [Engine.apply_append]
  have hsame : ∀ (l : List Write) d', (∀ w ∈ l, ∀ i row, w ≠ .booking i row) →
      ((chronos cat).apply l d').bookings = d'.bookings := by
    intro l
    induction l with
    | nil => exact fun _ _ => rfl
    | cons w l ih =>
      intro d' hl
      rw [Engine.apply_cons, ih _ fun w' hw' => hl w' (List.mem_cons_of_mem _ hw')]
      exact bookings_write w (hl w List.mem_cons_self)
  rw [hsame ws' _ hws]
  exact hsome

/-- An `INSERT` of the transaction into another table than `bookings`. -/
theorem yields_insert {Q : List (Event Stmt Ask.Answer JsError) → Place Database Write →
      Except JsError α → Prop} {s : Stmt} {ok : s.Rows → Program α}
    (hs : ∀ o d' r ws', (exec cat s o d').result = .ok (r, ws') →
      ∀ w ∈ ws', ∀ i row, w ≠ .booking i row)
    (h : .controlled .commit ∉ tr) (hadds : Adds cat d id ws)
    (hok : ∀ r ws', Adds cat d id ws' →
      (ok r).Yields (chronos cat) P Q (tr ++ [.ran s]) (.inside d ws'))
    (herr : ∀ tr st e, Uncommitted d tr st → Q tr st (.error e)) :
    (Prog.stmt s ok throw).Yields (chronos cat) P Q tr (.inside d ws) := by
  refine yields_stmt_inside fun env _ => ⟨fun e _ => ?_, fun _ => ⟨fun r ws' hx => ?_, fun e _ => ?_⟩⟩
  · exact herr _ _ _ ⟨not_commit_append h _ (by simp), rfl⟩
  · exact hok r _ (hadds.append (hs _ _ _ _ hx))
  · exact herr _ _ _ ⟨not_commit_append h _ (by simp), rfl⟩

theorem yields_insertReminders {start : Instant} (offsets : List Nat)
    (h : .controlled .commit ∉ tr) (hadds : Adds cat d id ws) :
    (insertReminders id start offsets).Yields (chronos cat) P (StillAdds cat d id) tr
      (.inside d ws) := by
  induction offsets generalizing tr ws with
  | nil => exact ⟨h, ws, rfl, hadds⟩
  | cons offset offsets ih =>
    intro env _
    have h₁ := not_commit_append h (.answered .now (env.answer .now)) (by simp)
    simp only [andThen]
    split
    · refine yields_insert (fun o d' r ws' hx => ?_) h₁ hadds
        (fun r ws' hadds' => ih (not_commit_append h₁ _ (by simp)) hadds') fun _ _ _ h => h
      obtain ⟨rfl, -⟩ := insertReminder_ok hx
      simp
    · exact ih h₁ hadds

theorem yields_insertIdempotencyKey {c : ClientId} {key : Option String} {hash : JsonText}
    (h : .controlled .commit ∉ tr) (hadds : Adds cat d id ws) :
    (insertIdempotencyKey c key hash id).Yields (chronos cat) P (StillAdds cat d id) tr
      (.inside d ws) := by
  unfold insertIdempotencyKey
  split
  · exact ⟨h, ws, rfl, hadds⟩
  · refine yields_insert (fun o d' r ws' hx => ?_) h hadds
      (fun r ws' hadds' => ⟨not_commit_append h _ (by simp), ws', rfl, hadds'⟩) fun _ _ _ h => h
    obtain ⟨rfl, -⟩ := insertKey_ok hx
    simp

end Before

/-! ### After the `COMMIT` -/

section After

variable {cat : Catalog} {P : Env Nat JsError Ask.Answer → Prop} {id : BookingId} {α : Type}

/-- Booking `id` is committed, and nothing has failed since. -/
structure Smooth (id : BookingId) (tr : List (Event Stmt Ask.Answer JsError))
    (st : Place Database Write) : Prop where
  place : ∃ d, st = .free d ∧ (d.bookings.lookup id).isSome = true
  committed : .controlled .commit ∈ tr
  smooth : ∀ ev ∈ afterCommit tr, ¬ Failing ev

/-- Booking `id` is committed, and something has failed since. -/
structure Broken (id : BookingId) (tr : List (Event Stmt Ask.Answer JsError))
    (st : Place Database Write) : Prop where
  place : ∃ d, st = .free d ∧ (d.bookings.lookup id).isSome = true
  committed : .controlled .commit ∈ tr
  broken : ∃ ev ∈ afterCommit tr, Failing ev

/-- A part after the `COMMIT` throws exactly when something fails. -/
def Late (id : BookingId) (tr : List (Event Stmt Ask.Answer JsError)) (st : Place Database Write) :
    Except JsError α → Prop
  | .ok _ => Smooth id tr st
  | .error _ => Broken id tr st

variable {tr : List (Event Stmt Ask.Answer JsError)} {st : Place Database Write}
variable {ev : Event Stmt Ask.Answer JsError} {d : Database}

theorem Smooth.step (h : Smooth id tr st) (hev : ¬ Failing ev)
    (hd : (d.bookings.lookup id).isSome = true) : Smooth id (tr ++ [ev]) (.free d) where
  place := ⟨d, rfl, hd⟩
  committed := List.mem_append_left _ h.committed
  smooth := by
    rw [afterCommit_append h.committed]
    intro ev' hmem
    rcases List.mem_append.mp hmem with hold | hnew
    · exact h.smooth ev' hold
    · rw [List.mem_singleton.mp hnew]
      exact hev

theorem Smooth.breaks (h : Smooth id tr st) (hev : Failing ev)
    (hd : (d.bookings.lookup id).isSome = true) : Broken id (tr ++ [ev]) (.free d) where
  place := ⟨d, rfl, hd⟩
  committed := List.mem_append_left _ h.committed
  broken := by
    rw [afterCommit_append h.committed]
    exact ⟨ev, List.mem_append_right _ (List.mem_singleton_self ev), hev⟩

theorem Broken.step (h : Broken id tr st) (ev : Event Stmt Ask.Answer JsError)
    (hd : (d.bookings.lookup id).isSome = true) : Broken id (tr ++ [ev]) (.free d) where
  place := ⟨d, rfl, hd⟩
  committed := List.mem_append_left _ h.committed
  broken := by
    obtain ⟨ev', hmem, hfailing⟩ := h.broken
    rw [afterCommit_append h.committed]
    exact ⟨ev', List.mem_append_left _ hmem, hfailing⟩

/-- A statement after the `COMMIT` that no constraint stops, and that writes reminder rows at
    most. -/
theorem yields_late {Q : List (Event Stmt Ask.Answer JsError) → Place Database Write →
      Except JsError α → Prop} {s : Stmt} {ok : s.Rows → Program α}
    (hs : ∀ o d', ∃ r ws, (exec cat s o d').result = .ok (r, ws) ∧ ∀ w ∈ ws, w.OnReminders id)
    (h : Smooth id tr (.free d)) (hok : ∀ r d', Smooth id (tr ++ [.ran s]) (.free d') →
      (ok r).Yields (chronos cat) P Q (tr ++ [.ran s]) (.free d'))
    (herr : ∀ tr st e, Broken id tr st → Q tr st (.error e)) :
    (Prog.stmt s ok throw).Yields (chronos cat) P Q tr (.free d) := by
  obtain ⟨_, heq, hd⟩ := h.place
  obtain rfl := Place.free.inj heq
  refine yields_stmt_free fun env _ => ⟨fun e _ => ?_, fun _ => ⟨fun r ws hx => ?_, fun e hx => ?_⟩⟩
  · exact herr _ _ _ (h.breaks trivial hd)
  · refine hok r _ (h.step (fun hf => hf) ?_)
    obtain ⟨r', ws', hx', hws⟩ := hs env.fresh d
    change (exec cat s env.fresh d).result = _ at hx
    rw [hx', Except.ok.injEq, Prod.mk.injEq] at hx
    obtain ⟨-, rfl⟩ := hx
    rw [(sameBut_apply hws).bookings]
    exact hd
  · obtain ⟨r', ws', hx', -⟩ := hs env.fresh d
    change (exec cat s env.fresh d).result = _ at hx
    rw [hx'] at hx
    cases hx

/-- What the queue manager may write of a booking. -/
theorem skipReminder_total (o : Nat) (d' : Database) (offset : Nat) :
    ∃ r ws, (exec cat (.skipReminder id offset) o d').result = .ok (r, ws) ∧
      ∀ w ∈ ws, w.OnReminders id := by
  simp only [exec]
  split
  · exact ⟨(), [], rfl, by simp⟩
  · next row _ => exact ⟨(), _, rfl, by simp [Write.OnReminders]⟩

theorem bookings_queueAdd {offset : Nat} {now : Instant} {delayMs : Int}
    (x : Except JsError Instant) :
    ((chronos cat).apply ((chronos cat).note (.queueAdd id offset now delayMs) x) d).bookings
      = d.bookings := by
  cases x <;> rfl

theorem yields_enqueueForBooking {start now : Instant} (offsets : List Nat)
    (h : Smooth id tr (.free d)) :
    (enqueueForBooking id start now offsets).Yields (chronos cat) P (Late id) tr (.free d) := by
  induction offsets generalizing tr d with
  | nil => exact h
  | cons offset offsets ih =>
    simp only [enqueueForBooking]
    split
    · exact yields_late (fun o d' => skipReminder_total o d' offset) h (fun r d' h' => ih h')
        fun _ _ _ h => h
    · refine yields_late (fun o d' => ⟨_, [], rfl, by simp⟩) h (fun r d' h' => ?_) fun _ _ _ h => h
      simp only [andThen]
      split
      · intro env _
        obtain ⟨_, heq, hd⟩ := h'.place
        obtain rfl := Place.free.inj heq
        -- The job is added, or the queue fails.
        cases hx : env.answer (.queueAdd id offset now (start - minutesMs offset - now)) with
        | ok timestamp =>
          refine ih (h'.step (fun hf => ?_) (by rw [bookings_queueAdd]; exact hd))
          obtain ⟨e, he⟩ := hf
          cases he
        | error e => exact h'.breaks ⟨e, rfl⟩ (by rw [bookings_queueAdd]; exact hd)
      · exact ih h'

theorem yields_enqueueReminders {slotId : SlotId} {now : Instant} (h : Smooth id tr (.free d)) :
    (enqueueReminders slotId id (pure now)).Yields (chronos cat) P (Late id) tr (.free d) := by
  refine yields_late (fun o d' => ⟨_, [], rfl, by simp⟩) h (fun slot d' h' => ?_) fun _ _ _ h => h
  simp only [andThen]
  split
  · exact h'
  · refine yields_late (fun o d' => ⟨_, [], rfl, by simp⟩) h' (fun offsets d'' h'' => ?_)
      fun _ _ _ h => h
    simp only [andThen]
    split
    · exact yields_enqueueForBooking offsets h''
    · exact h''

end After

/-! ### The whole call -/

section Call

variable {cat : Catalog} {P : Env Nat JsError Ask.Answer → Prop} {d : Database}
variable {tr : List (Event Stmt Ask.Answer JsError)} {st : Place Database Write}

/-- How a call ends: it is all or nothing exactly when nothing fails after its `COMMIT`. -/
def EndsAs (d : Database) (tr : List (Event Stmt Ask.Answer JsError)) (st : Place Database Write)
    (r : Except JsError Reply) : Prop :=
  AllOrNothing d st.db r ↔ ∀ ev ∈ afterCommit tr, ¬ Failing ev

theorem endsAs_uncommitted {r : Except JsError Reply} (h : Uncommitted d tr st) :
    EndsAs d tr st r := by
  obtain ⟨htr, hdb⟩ := h
  refine iff_of_true (fun reply _ _ => ?_) ?_
  · rw [hdb]
    exact SameTables.refl d
  · rw [afterCommit_of_not_mem htr]
    simp

theorem endsAs_smooth {id : BookingId} (h : Smooth id tr st) :
    EndsAs d tr st (.ok (.created id false)) := by
  refine iff_of_true (fun reply hreply hstatus => ?_) h.smooth
  obtain rfl := Except.ok.inj hreply
  exact absurd rfl hstatus

/-- The booking is there, and the answer is a refusal. -/
theorem endsAs_broken {id : BookingId} {e : JsError} (hnone : d.bookings.lookup id = none)
    (h : Broken id tr st) : EndsAs d tr st (.ok e.refusal) := by
  obtain ⟨d', rfl, hsome⟩ := h.place
  obtain ⟨ev, hmem, hfailing⟩ := h.broken
  refine iff_of_false (fun hall => ?_) fun hsmooth => hsmooth ev hmem hfailing
  have hstatus : e.refusal.status ≠ 201 := by
    unfold JsError.refusal
    split <;> simp [Reply.refused]
  have hsame := (hall _ rfl hstatus).bookings
  rw [Place.db_free] at hsame
  rw [hsame, hnone] at hsome
  cases hsome

/-- The `catch` block leaves what is committed. -/
theorem yields_catch {reply : Reply}
    (h : Uncommitted d tr st ∨
      ∃ id e, d.bookings.lookup id = none ∧ Broken id tr st ∧ reply = JsError.refusal e) :
    (rollbackQuietly.bind fun _ => (ret reply : Program Reply)).Yields (chronos cat) P
      (EndsAs d) tr st := by
  intro env _
  rcases h with ⟨htr, hdb⟩ | ⟨id, e, hnone, hbroken, rfl⟩
  · refine ⟨fun e _ => endsAs_uncommitted ⟨not_commit_append htr _ (by simp), hdb⟩,
      fun _ => ⟨fun st' hx => ?_, fun hx => ?_⟩⟩
    · obtain rfl : .free st.db = st' := by cases st <;> simpa [Engine.turn] using hx
      exact endsAs_uncommitted ⟨not_commit_append htr _ (by simp), hdb⟩
    · cases st <;> simp [Engine.turn] at hx
  · obtain ⟨d', rfl, hsome⟩ := hbroken.place
    refine ⟨fun e' _ => endsAs_broken hnone (hbroken.step _ hsome),
      fun _ => ⟨fun st' hx => ?_, fun hx => ?_⟩⟩
    · obtain rfl : .free d' = st' := by simpa [Engine.turn] using hx
      exact endsAs_broken hnone (hbroken.step _ hsome)
    · simp [Engine.turn] at hx

theorem yields_bookSlotInTransaction {req : BookingRequest} {now minStart : Instant} {queue : Bool}
    (htr : .controlled .commit ∉ tr) :
    (bookSlotInTransaction req now minStart queue).Yields (chronos cat) P (EndsAs d) tr
      (.free d) := by
  -- What is thrown is thrown before the `COMMIT`, or because something failed after it.
  refine Yields.tryCatch (Q := fun tr st r => match r with
    | .ok reply => EndsAs d tr st (.ok reply)
    | .error e => Uncommitted d tr st ∨ ∃ id, d.bookings.lookup id = none ∧ Broken id tr st) ?_
    (fun _ _ _ h => h) fun tr st e h => yields_catch (h.imp_right fun ⟨id, hnone, hbroken⟩ =>
      ⟨id, e, hnone, hbroken, rfl⟩)
  intro env _
  refine ⟨fun e _ => Or.inl ⟨not_commit_append htr _ (by simp), rfl⟩, fun _ =>
    ⟨fun st' hturn => ?_, fun hx => by simp [Engine.turn] at hx⟩⟩
  obtain rfl : .inside d [] = st' := by simpa [Engine.turn] using hturn
  have h₁ := not_commit_append htr (.controlled .beginTx) (by simp)
  refine yields_stmt_inside fun env _ => ⟨fun e _ => Or.inl ⟨not_commit_append h₁ _ (by simp), rfl⟩,
    fun _ => ⟨fun slot ws hx => ?_, fun e _ => Or.inl ⟨not_commit_append h₁ _ (by simp), rfl⟩⟩⟩
  have h₂ := not_commit_append h₁ (.ran (.bookSlot req.slotId now minStart)) (by simp)
  change (updateSlotWhere _ _ _ _).result = _ at hx
  simp only [andThen]
  rcases updateSlotWhere_ok hx with ⟨rfl, rfl, -⟩ | ⟨row, hrow, -, rfl, rfl, -⟩
  · -- The slot is not to be had.
    intro env _
    refine ⟨fun e _ => Or.inl ⟨not_commit_append h₂ _ (by simp), rfl⟩, fun _ =>
      ⟨fun st' hturn => ?_, fun hx => by simp [Engine.turn] at hx⟩⟩
    obtain rfl : .free d = st' := by simpa [Engine.turn] using hturn
    exact endsAs_uncommitted ⟨not_commit_append h₂ _ (by simp), rfl⟩
  · refine yields_stmt_inside fun env _ => ⟨fun e _ => Or.inl ⟨not_commit_append h₂ _ (by simp), rfl⟩,
      fun _ => ⟨fun id ws hx => ?_, fun e _ => Or.inl ⟨not_commit_append h₂ _ (by simp), rfl⟩⟩⟩
    have h₃ := not_commit_append h₂ (.ran (.insertBooking req.booking)) (by simp)
    obtain ⟨rfl, rfl, hnone, -⟩ := insertBooking_ok hx
    have hadds : Adds cat d env.fresh ([.slot req.slotId { row with status := .booked }] ++
        [.booking env.fresh req.booking]) :=
      ⟨hnone, by simp⟩
    refine (yields_insertReminders reminderOffsets h₃ hadds).bind ?_ fun _ _ _ h => Or.inl h
    rintro tr₄ _ - ⟨h₄, ws₄, rfl, hadds₄⟩
    refine (yields_insertIdempotencyKey h₄ hadds₄).bind ?_ fun _ _ _ h => Or.inl h
    rintro tr₅ _ - ⟨h₅, ws₅, rfl, hadds₅⟩
    intro env' _
    refine ⟨fun e _ => Or.inl ⟨not_commit_append h₅ _ (by simp), rfl⟩, fun _ =>
      ⟨fun st' hturn => ?_, fun hx => by simp [Engine.turn] at hx⟩⟩
    obtain rfl : .free ((chronos cat).apply ws₅ d) = st' := by simpa [Engine.turn] using hturn
    have hsmooth : Smooth env.fresh (tr₅ ++ [.controlled .commit])
        (.free ((chronos cat).apply ws₅ d)) :=
      { place := ⟨_, rfl, hadds₅.2⟩
        committed := List.mem_append_right _ (List.mem_singleton_self _)
        smooth := by rw [afterCommit_commit h₅]; simp }
    cases queue with
    | false => exact endsAs_smooth hsmooth
    | true =>
      exact (yields_enqueueReminders hsmooth).bind (fun _ _ _ h => endsAs_smooth h)
        fun _ _ _ h => Or.inr ⟨env.fresh, hnone, h⟩

theorem yields_createBookingAt {req : BookingRequest} {now : Instant} {queue : Bool}
    (htr : .controlled .commit ∉ tr) :
    (createBookingAt req now queue).Yields (chronos cat) P (EndsAs d) tr (.free d) := by
  have hthrow : ∀ (tr : List (Event Stmt Ask.Answer JsError)) (st : Place Database Write) e,
      .controlled .commit ∉ tr ∧ st = .free d → EndsAs d tr st (.error e) := by
    rintro tr _ e ⟨htr, rfl⟩
    exact endsAs_uncommitted ⟨htr, rfl⟩
  refine (yields_checks (talks_configuredNoticeHours req) htr).bind ?_ hthrow
  rintro tr₁ _ hours ⟨h₁, rfl⟩
  refine (yields_checks (talks_validateEventType req) h₁).bind ?_ hthrow
  rintro tr₂ _ refusal ⟨h₂, rfl⟩
  cases refusal with
  | some refusal => exact endsAs_uncommitted ⟨h₂, rfl⟩
  | none =>
    refine (yields_checks (talks_checkIdempotencyKey req) h₂).bind ?_ hthrow
    rintro tr₃ _ answer ⟨h₃, rfl⟩
    cases answer with
    | some answer => exact endsAs_uncommitted ⟨h₃, rfl⟩
    | none => exact yields_bookSlotInTransaction h₃

/-- **A call of `createBooking` is all or nothing** exactly when nothing fails after its
    `COMMIT`. -/
theorem all_or_nothing_iff (cat : Catalog) (d d' : Database) (req : BookingRequest)
    (nowUtc : Option Instant) (queue : Bool) (tr : List (Event Stmt Ask.Answer JsError))
    (r : Except JsError Reply)
    (h : Performs (chronos cat) .idle d (createBooking req nowUtc queue) tr d' r) :
    AllOrNothing d d' r ↔ ∀ ev ∈ afterCommit tr, ¬ Failing ev := by
  have hyields : (createBooking req nowUtc queue).Yields (chronos cat) (fun _ => True) (EndsAs d) []
      (.free d) := by
    cases nowUtc with
    | some now => exact yields_createBookingAt (by simp)
    | none => exact fun env _ => yields_createBookingAt (by simp)
  obtain ⟨st, rfl, hends⟩ := hyields.performs (performs_iff_performsIn.mp h)
  rw [List.nil_append] at hends
  exact hends

end Call

/-- Client `5` books slot `1` at the epoch, and the reminder queue takes its jobs. -/
theorem sample_all_or_nothing :
    ∃ tr d' r, Performs (chronos sampleCatalog) .idle sampleDb
        (createBooking sampleRequest (some 0) true) tr d' r ∧
      (AllOrNothing sampleDb d' r ↔ ∀ ev ∈ afterCommit tr, ¬ Failing ev) := by
  obtain ⟨tr, d', r, h⟩ := performsIn_total (E := chronos sampleCatalog) (P := fun _ => True)
    ⟨calmEnv 1 0, trivial⟩ (createBooking sampleRequest (some 0) true) .idle sampleDb
  have hrun := performs_iff_performsIn.mpr h
  exact ⟨tr, d', r, hrun, all_or_nothing_iff sampleCatalog sampleDb d' sampleRequest (some 0) true
    tr r hrun⟩

/-- Like `calmEnv`, but the reminder queue cannot be reached. -/
def queueDown (fresh : Nat) (now : Instant) : Env Nat JsError Ask.Answer :=
  ⟨fresh, none, fun a => match a with
    | .now => now
    | .effect _ => .error ⟨none, "Connection is closed."⟩
    | .queueAdd .. => .error ⟨none, "Connection is closed."⟩
    | .selectClient _ => .ok none
    | .sendEmail .. => .sent none⟩

/-- The client is told that the booking failed, and it is there. -/
theorem refused_booking_committed :
    ∃ tr d' r, Performs (chronos sampleCatalog) .idle sampleDb
        (createBooking sampleRequest (some 0) true) tr d' r ∧
      r = .ok (.refused 400 "Connection is closed.") ∧ ¬ AllOrNothing sampleDb d' r := by
  have hrun : runAlone (chronos sampleCatalog) (List.replicate 15 (queueDown 1 0)) .idle sampleDb
      (createBooking sampleRequest (some 0) true) =
        some (.idle, sampleBooked .booked .booked 1, ret (.refused 400 "Connection is closed.")) := by
    with_unfolding_all rfl
  obtain ⟨tr, h⟩ := performs_of_runAlone hrun rfl
  refine ⟨tr, _, _, h, rfl, fun hall => ?_⟩
  have hsame := (hall _ rfl (by decide)).bookings
  have hlookup : (sampleBooked .booked .booked 1).bookings.lookup 1 = none := by
    rw [hsame]
    rfl
  cases hlookup

end Chronos
