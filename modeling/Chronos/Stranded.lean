import Chronos.Worker
import Chronos.Operations
import Chronos.ReadCommitted.Trace

namespace Chronos

open ReadCommitted ReadCommitted.Prog

/-!
# Reminders without attempts left

BullMQ calls `process` for a job up to five times, until a call is not rejected.  An attempt
that fails for a passing reason throws and leaves its reminder `sending`, for the next attempt
to find; there is no next one after the fifth.

`settled_iff` says which sequences of attempts bring a reminder to a final status: those with
an attempt that `GetsThrough`.
-/

/-- `sent`, `failed`, `cancelled` and `skipped`; `suppressed` is no status of the table. -/
def ReminderJobStatus.terminal : ReminderJobStatus → Bool
  | .scheduled => false
  | .sending => false
  | _ => true

/-- The reminder has come to a final status. -/
def Settled (id : ReminderId) (d : Database) : Prop :=
  ∃ row, d.reminderJobs.lookup id = some row ∧ row.status.terminal = true

/-- The reminder is still to be sent. -/
def Unsettled (id : ReminderId) (d : Database) : Prop :=
  ∃ row, d.reminderJobs.lookup id = some row ∧ row.status.terminal = false

/-- What a move of an attempt should meet: no statement fails from outside, a client that is
    read has an e-mail address, and the provider does not fail for a passing reason. -/
def Fine : Event Stmt Ask.Answer JsError → Prop
  | .disturbed _ => False
  | .answered (.selectClient _) x => ∃ client, x = .ok client ∧ (clientEmail client).isSome = true
  | .answered (.sendEmail _ _) x => x.transient = false
  | _ => True

/-- The client an attempt reads first. -/
def firstClient (tr : List (Event Stmt Ask.Answer JsError)) :
    Option (Except JsError (Option Client)) :=
  tr.findSome? fun ev => match ev with
    | .answered (.selectClient _) x => some x
    | _ => none

/-- **An attempt that gets through.**  Everything it meets is fine, and the client has not
    opted out of reminders when the attempt first looks. -/
def GetsThrough (tr : List (Event Stmt Ask.Answer JsError)) : Prop :=
  (∀ ev ∈ tr, Fine ev) ∧
    ∀ client, firstClient tr = some (.ok client) → client.any Client.remindersOptOut = false

/-- The attempts BullMQ makes for the job of a reminder, at most `n`, each with what it met.
    Between two attempts anything may happen but to the reminder. -/
inductive Attempts (cat : Catalog) (isConfigured : Bool) (id : ReminderId) :
    Nat → Database → List (List (Event Stmt Ask.Answer JsError)) → Database → Prop
  | spent {d} : Attempts cat isConfigured id 0 d [] d
  | completed {n d tr d'} :
      Performs (chronos cat) .idle d (process isConfigured (some id)) tr d' (.ok ()) →
      Attempts cat isConfigured id (n + 1) d [tr] d'
  | rejected {n d tr d₁ e d₂ trs d'} :
      Performs (chronos cat) .idle d (process isConfigured (some id)) tr d₁ (.error e) →
      d₂.reminderJobs.lookup id = d₁.reminderJobs.lookup id →
      Attempts cat isConfigured id n d₂ trs d' →
      Attempts cat isConfigured id (n + 1) d (tr :: trs) d'

/-- `attempts: 5`. -/
def jobAttempts : Nat := 5

/-! ### One attempt -/

section Attempt

variable {cat : Catalog} {isConfigured : Bool} {id : ReminderId} {d d' : Database}
variable {tr : List (Event Stmt Ask.Answer JsError)} {r : Except JsError Unit}

theorem not_settled_of_unsettled (h : Unsettled id d) : ¬ Settled id d := by
  rintro ⟨row, hrow, hterminal⟩
  obtain ⟨row', hrow', hopen⟩ := h
  rw [hrow', Option.some.injEq] at hrow
  subst hrow
  rw [hopen] at hterminal
  cases hterminal

theorem settled_congr (h : d'.reminderJobs.lookup id = d.reminderJobs.lookup id) :
    Settled id d' ↔ Settled id d := by
  unfold Settled
  rw [h]

theorem unsettled_congr (h : d'.reminderJobs.lookup id = d.reminderJobs.lookup id) :
    Unsettled id d' ↔ Unsettled id d := by
  unfold Unsettled
  rw [h]

/-- The e-mail provider keeps no reminder rows. -/
theorem lookup_noted_sendEmail {receiver : String} {k : ReminderId} {x : ResendReply} :
    ((chronos cat).apply (noted (.sendEmail receiver k) x) d).reminderJobs.lookup id
      = d.reminderJobs.lookup id := by
  cases x <;> rfl

theorem fine_disturbed {e : JsError} : ¬ ∀ ev ∈ (.disturbed e :: tr), Fine ev :=
  fun h => h _ List.mem_cons_self

theorem fine_cons {ev : Event Stmt Ask.Answer JsError} (hev : Fine ev) :
    (∀ ev' ∈ ev :: tr, Fine ev') ↔ ∀ ev' ∈ tr, Fine ev' := by
  simp [hev]

theorem fine_ran (s : Stmt) : Fine (.ran s) := trivial

/-- Where no client is read, nobody has opted out. -/
theorem getsThrough_iff (h : firstClient tr = none) : GetsThrough tr ↔ ∀ ev ∈ tr, Fine ev := by
  refine ⟨fun hthrough => hthrough.1, fun hfine => ⟨hfine, fun client hclient => ?_⟩⟩
  rw [h] at hclient
  cases hclient

theorem not_getsThrough_disturbed {e : JsError} : ¬ GetsThrough (.disturbed e :: tr) :=
  fun h => fine_disturbed h.1

theorem getsThrough_ran (s : Stmt) : GetsThrough (.ran s :: tr) ↔ GetsThrough tr := by
  unfold GetsThrough
  rw [fine_cons (fine_ran s)]
  rfl

theorem getsThrough_now (now : Instant) : GetsThrough (.answered .now now :: tr) ↔ GetsThrough tr := by
  have hnow : Fine (.answered .now now) := trivial
  unfold GetsThrough
  rw [fine_cons hnow]
  rfl

/-- An attempt that reads a client first: it has to have an e-mail address, and not to have
    opted out. -/
theorem getsThrough_client (clientId : ClientId) (x : Except JsError (Option Client)) :
    GetsThrough (.answered (.selectClient clientId) x :: tr) ↔
      (∃ client, x = .ok client ∧ (clientEmail client).isSome = true ∧
        client.any Client.remindersOptOut = false) ∧ ∀ ev ∈ tr, Fine ev := by
  constructor
  · rintro ⟨hfine, hfirst⟩
    obtain ⟨client, rfl, hemail⟩ := hfine _ List.mem_cons_self
    exact ⟨⟨client, rfl, hemail, hfirst client rfl⟩, fun ev hev => hfine ev (List.mem_cons_of_mem _ hev)⟩
  · rintro ⟨⟨client, rfl, hemail, hin⟩, hfine⟩
    have hread : Fine (.answered (.selectClient clientId) (.ok client)) := ⟨client, rfl, hemail⟩
    refine ⟨(fine_cons hread).mpr hfine, fun client' hclient => ?_⟩
    obtain rfl := Except.ok.inj (Option.some.inj hclient)
    exact hin

/-- A status is recorded, and the attempt ends. -/
theorem mark_settled {text : String} {s : ReminderJobStatus} {x : Except JsError Unit}
    (htext : ReminderJobStatus.ofText? text = some s) (hterminal : s.terminal = true)
    (hopen : Unsettled id d)
    (h : Performs (chronos cat) .idle d
      ((dbQuery (.setReminderStatus id text)).bind fun _ => ofExcept x) tr d' r) :
    (Settled id d' ↔ ∀ ev ∈ tr, Fine ev) ∧ firstClient tr = none := by
  have hend : ∀ {d₁ : Database} {tr'}, Performs (chronos cat) .idle d₁ (ofExcept x) tr' d' r →
      tr' = [] ∧ d' = d₁ := by
    intro d₁ tr' h
    cases x with
    | ok u => exact ⟨(performs_ret_cases h).1, (performs_ret_cases h).2.1⟩
    | error e => exact ⟨(performs_throw_cases h).1, (performs_throw_cases h).2.1⟩
  rcases performs_stmt_cases h with ⟨e, tr', rfl, hrest⟩ | ⟨o, rows, ws, tr', hx, rfl, hrest⟩ |
    ⟨o, e, tr', hx, -, -⟩
  · obtain ⟨rfl, rfl, -⟩ := performs_throw_cases hrest
    exact ⟨iff_of_false (not_settled_of_unsettled hopen) fine_disturbed, rfl⟩
  · obtain ⟨rfl, rfl⟩ := hend hrest
    obtain ⟨row₀, hrow₀, -⟩ := hopen
    change (exec cat (.setReminderStatus id text) o d).result = _ at hx
    rcases setReminderStatus_ok hx with ⟨-, hnone⟩ | ⟨row, status', -, htext', rfl, -⟩
    · rw [hrow₀] at hnone
      cases hnone
    · obtain rfl : s = status' := Option.some.inj (htext.symm.trans htext')
      refine ⟨iff_of_true ⟨_, AList.lookup_insert _, hterminal⟩ ?_, rfl⟩
      intro ev hev
      rw [List.mem_singleton.mp hev]
      trivial
  · -- The `CHECK` admits the status.
    change (exec cat (.setReminderStatus id text) o d).result = _ at hx
    simp only [exec] at hx
    split at hx
    · cases hx
    · rw [htext] at hx
      cases hx

/-- The `CHECK` refuses `suppressed`. -/
theorem markSuppressed_unsettled (hopen : Unsettled id d)
    (h : Performs (chronos cat) .idle d (markSuppressed id) tr d' r) :
    ¬ Settled id d' ∧ firstClient tr = none := by
  rcases performs_stmt_cases h with ⟨e, tr', rfl, hrest⟩ | ⟨o, rows, ws, tr', hx, -, -⟩ |
    ⟨o, e, tr', -, rfl, hrest⟩
  · obtain ⟨rfl, rfl, -⟩ := performs_throw_cases hrest
    exact ⟨not_settled_of_unsettled hopen, rfl⟩
  · change (exec cat (.setReminderStatus id "suppressed") o d).result = _ at hx
    obtain ⟨row, hrow, -⟩ := hopen
    rcases setReminderStatus_ok hx with ⟨-, hnone⟩ | ⟨_, status, -, htext, -⟩
    · rw [hrow] at hnone
      cases hnone
    · have hnone : ReminderJobStatus.ofText? "suppressed" = none := by decide
      rw [hnone] at htext
      cases htext
  · obtain ⟨rfl, rfl, -⟩ := performs_throw_cases hrest
    exact ⟨not_settled_of_unsettled hopen, rfl⟩

/-- What `sendWithProvider` ends with after the answer of the Resend client. -/
theorem sendReminder_answered {x : ResendReply} (hopen : Unsettled id d)
    (h : Performs (chronos cat) .idle d
      (match (sendResult x).mapError EmailError.sendError with
        | .ok _ => markSent id
        | .error (.network message) => throw (reminderError message "TRANSIENT")
        | .error (.provider _) => markFailed id) tr d' r) :
    Settled id d' ↔ x.transient = false ∧ ∀ ev ∈ tr, Fine ev := by
  have hmarked : ∀ {s : ReminderJobStatus} {text : String},
      ReminderJobStatus.ofText? text = some s → s.terminal = true → x.transient = false →
      Performs (chronos cat) .idle d (dbQuery (.setReminderStatus id text)) tr d' r →
      (Settled id d' ↔ x.transient = false ∧ ∀ ev ∈ tr, Fine ev) := by
    intro s text htext hterminal hx h
    rw [(mark_settled (x := .ok ()) htext hterminal hopen h).1, hx]
    simp
  rcases sendResult_cases x with ⟨⟨messageId, hresult⟩, hx⟩ | ⟨⟨message, hresult⟩, hx⟩ |
    ⟨⟨message, hresult⟩, hx⟩
  · simp only [hresult] at h
    exact hmarked (s := .sent) (by decide) rfl hx h
  · simp only [hresult] at h
    obtain ⟨-, rfl, -⟩ := performs_throw_cases h
    rw [hx]
    simp [not_settled_of_unsettled hopen]
  · simp only [hresult] at h
    exact hmarked (s := .failed) (by decide) rfl hx h

/-- `sendReminder` settles its reminder exactly when it meets nothing but what is fine. -/
theorem sendReminder_settled {booking : Booking} (hopen : Unsettled id d)
    (h : Performs (chronos cat) .idle d (sendReminder isConfigured id booking) tr d' r) :
    Settled id d' ↔ ∀ ev ∈ tr, Fine ev := by
  obtain ⟨x, tr₁, rfl, hread⟩ := performs_ask_cases h
  cases x with
  | error e =>
    obtain ⟨-, rfl, -⟩ := performs_throw_cases hread
    refine iff_of_false (not_settled_of_unsettled hopen) fun hfine => ?_
    obtain ⟨client, hclient, -⟩ := hfine _ List.mem_cons_self
    cases hclient
  | ok client =>
    cases hemail : clientEmail client with
    | none =>
      simp only [andThen, ofExcept, hemail] at hread
      obtain ⟨rfl, rfl, -⟩ := performs_throw_cases hread
      refine iff_of_false (not_settled_of_unsettled hopen) fun hfine => ?_
      obtain ⟨client', hclient, hsome⟩ := hfine _ List.mem_cons_self
      obtain rfl := Except.ok.inj hclient
      rw [hemail] at hsome
      cases hsome
    | some email =>
      have hfirst : Fine (.answered (.selectClient booking.clientId) (.ok client)) :=
        ⟨client, rfl, by rw [hemail]; rfl⟩
      rw [fine_cons hfirst]
      simp only [andThen, ofExcept, hemail] at hread
      -- The provider is looked up without an id, and not found.
      rcases performs_stmt_cases hread with ⟨e, tr₂, rfl, hsend⟩ | ⟨o, rows, ws, tr₂, hx, rfl, hsend⟩ |
        ⟨o, e, tr₂, hx, -, -⟩
      · obtain ⟨rfl, rfl, -⟩ := performs_throw_cases hsend
        exact iff_of_false (not_settled_of_unsettled hopen) fine_disturbed
      · obtain ⟨rfl, rfl⟩ := read_ok hx
        rw [fine_cons (fine_ran _)]
        cases isConfigured with
        | false =>
          exact (mark_settled (x := .ok ()) (s := .failed) (by decide) rfl hopen hsend).1
        | true =>
          obtain ⟨x, tr₃, rfl, hanswered⟩ := performs_ask_cases hsend
          have hsame : ((chronos cat).apply (noted (.sendEmail email id) x) d).reminderJobs.lookup id
              = d.reminderJobs.lookup id := lookup_noted_sendEmail
          rw [sendReminder_answered ((unsettled_congr hsame).mpr hopen) hanswered]
          simp only [List.mem_cons, forall_eq_or_imp]
          exact Iff.rfl
      · cases hx

/-- `remindClient` settles its reminder exactly when it gets through. -/
theorem remindClient_settled {reminder : ReminderJob} {booking : Booking} (hopen : Unsettled id d)
    (h : Performs (chronos cat) .idle d (remindClient isConfigured id reminder booking) tr d' r) :
    Settled id d' ↔ GetsThrough tr := by
  obtain ⟨now, tr₁, rfl, hnow⟩ := performs_ask_cases h
  rw [getsThrough_now]
  simp only [andThen] at hnow
  split at hnow
  · obtain ⟨hsettled, hfirst⟩ := mark_settled (x := .error _) (s := .failed) (by decide) rfl
      hopen hnow
    rw [getsThrough_iff hfirst]
    exact hsettled
  · obtain ⟨x, tr₂, rfl, hread⟩ := performs_ask_cases hnow
    rw [getsThrough_client]
    cases x with
    | error e =>
      obtain ⟨-, rfl, -⟩ := performs_throw_cases hread
      exact iff_of_false (not_settled_of_unsettled hopen) (by simp)
    | ok client =>
      cases hemail : clientEmail client with
      | none =>
        simp only [andThen, ofExcept, hemail] at hread
        obtain ⟨-, rfl, -⟩ := performs_throw_cases hread
        exact iff_of_false (not_settled_of_unsettled hopen) (by simp [hemail])
      | some email =>
        simp only [andThen, ofExcept, hemail] at hread
        split at hread
        · next hout =>
          obtain ⟨hopen', -⟩ := markSuppressed_unsettled hopen hread
          exact iff_of_false hopen' (by simp [hout])
        · next hin =>
          rw [sendReminder_settled hopen hread]
          simp [hemail, Bool.eq_false_iff.mpr hin]

/-- `processReminder` settles a reminder that is `sending` exactly when it gets through. -/
theorem processReminder_settled {row : ReminderJob} (hrow : d.reminderJobs.lookup id = some row)
    (hsending : row.status = .sending)
    (h : Performs (chronos cat) .idle d (processReminder isConfigured id) tr d' r) :
    Settled id d' ↔ GetsThrough tr := by
  have hopen : Unsettled id d := ⟨row, hrow, by rw [hsending]; rfl⟩
  rcases performs_stmt_cases h with ⟨e, tr₁, rfl, hrest⟩ | ⟨o, rows, ws, tr₁, hx, rfl, hrest⟩ |
    ⟨o, e, tr₁, hx, -, -⟩
  · obtain ⟨rfl, rfl, -⟩ := performs_throw_cases hrest
    exact iff_of_false (not_settled_of_unsettled hopen) not_getsThrough_disturbed
  · rw [getsThrough_ran]
    obtain ⟨rfl, rfl⟩ := read_ok hx
    simp only [andThen, hrow, hsending, ne_eq, not_true_eq_false, if_false] at hrest
    rcases performs_stmt_cases hrest with ⟨e, tr₂, rfl, hbooking⟩ |
      ⟨o, rows, ws, tr₂, hx, rfl, hbooking⟩ | ⟨o, e, tr₂, hx, -, -⟩
    · obtain ⟨rfl, rfl, -⟩ := performs_throw_cases hbooking
      exact iff_of_false (not_settled_of_unsettled hopen) not_getsThrough_disturbed
    · rw [getsThrough_ran]
      obtain ⟨rfl, rfl⟩ := read_ok hx
      -- Nothing is sent: one status is recorded, and the attempt ends.
      have hmarked : ∀ {s : ReminderJobStatus} {text : String} {x : Except JsError Unit},
          ReminderJobStatus.ofText? text = some s → s.terminal = true →
          Performs (chronos cat) .idle d
            ((dbQuery (.setReminderStatus id text)).bind fun _ => ofExcept x) tr₂ d' r →
          (Settled id d' ↔ GetsThrough tr₂) := by
        intro s text x htext hterminal h
        obtain ⟨hsettled, hfirst⟩ := mark_settled htext hterminal hopen h
        rw [hsettled, getsThrough_iff hfirst]
      cases hb : d.bookings.lookup id.1 with
      | none =>
        simp only [Engine.apply_nil, andThen, hb] at hbooking
        exact hmarked (x := .error _) (s := .failed) (by decide) rfl hbooking
      | some booking =>
        simp only [Engine.apply_nil, andThen, hb] at hbooking
        split at hbooking
        · exact hmarked (x := .ok ()) (s := .cancelled) (by decide) rfl hbooking
        · exact remindClient_settled hopen hbooking
    · cases hx
  · cases hx

/-- **One attempt** settles a reminder that is still to be sent exactly when it gets through. -/
theorem process_settled (hopen : Unsettled id d)
    (h : Performs (chronos cat) .idle d (process isConfigured (some id)) tr d' r) :
    Settled id d' ↔ GetsThrough tr := by
  have hstuck : ¬ Settled id d := not_settled_of_unsettled hopen
  obtain ⟨now, tr₁, rfl, hclaim⟩ := performs_plain_ask_cases (fun _ => rfl) h
  rw [getsThrough_now]
  rcases performs_stmt_cases hclaim with ⟨e, tr₂, rfl, hrest⟩ | ⟨o, rows, ws, tr₂, hx, rfl, hrest⟩ |
    ⟨o, e, tr₂, hx, -, -⟩
  · obtain ⟨rfl, rfl, -⟩ := performs_throw_cases hrest
    exact iff_of_false hstuck not_getsThrough_disturbed
  · rw [getsThrough_ran]
    rcases updateReminderWhere_ok hx with ⟨rfl, rfl, hnone⟩ | ⟨row', hrow', hscheduled, rfl, rfl, -⟩
    · -- The row is not `scheduled`, so it is `sending`.
      obtain ⟨row, hrow, hterminal⟩ := hopen
      have hnot : row.status ≠ .scheduled := by
        simpa [hrow, ReminderJob.scheduled] using hnone
      have hsending : row.status = .sending := by
        cases hs : row.status <;> simp_all [ReminderJobStatus.terminal]
      rcases performs_stmt_cases hrest with ⟨e, tr₃, rfl, hcheck⟩ |
        ⟨o, rows, ws, tr₃, hx, rfl, hcheck⟩ | ⟨o, e, tr₃, hx, -, -⟩
      · obtain ⟨rfl, rfl, -⟩ := performs_throw_cases hcheck
        exact iff_of_false hstuck not_getsThrough_disturbed
      · rw [getsThrough_ran]
        obtain ⟨rfl, rfl⟩ := read_ok hx
        simp only [Engine.apply_nil, andThen, hrow, Option.any_some, hsending, decide_true,
          if_true] at hcheck
        exact processReminder_settled hrow hsending hcheck
      · cases hx
    · exact processReminder_settled (AList.lookup_insert _) rfl hrest
  · change (exec cat (.claimReminder id (now + lockDurationMs)) o d).result = _ at hx
    simp only [exec, updateReminderWhere] at hx
    split at hx <;> cases hx

/-- An attempt leaves a settled reminder alone. -/
theorem process_keeps_settled (hsettled : Settled id d)
    (h : Performs (chronos cat) .idle d (process isConfigured (some id)) tr d' r) :
    Settled id d' := by
  obtain ⟨row, hrow, hterminal⟩ := hsettled
  have hsettled : Settled id d := ⟨row, hrow, hterminal⟩
  have hidle : row.status ≠ .scheduled ∧ row.status ≠ .sending := by
    cases hs : row.status <;> simp_all [ReminderJobStatus.terminal]
  obtain ⟨now, tr₁, rfl, hclaim⟩ := performs_plain_ask_cases (fun _ => rfl) h
  rcases performs_stmt_cases hclaim with ⟨e, tr₂, rfl, hrest⟩ | ⟨o, rows, ws, tr₂, hx, rfl, hrest⟩ |
    ⟨o, e, tr₂, hx, -, hrest⟩
  · obtain ⟨-, rfl, -⟩ := performs_throw_cases hrest
    exact hsettled
  · rcases updateReminderWhere_ok hx with ⟨rfl, rfl, -⟩ | ⟨row', hrow', hscheduled, rfl, rfl, -⟩
    · rcases performs_stmt_cases hrest with ⟨e, tr₃, rfl, hcheck⟩ |
        ⟨o, rows, ws, tr₃, hx, rfl, hcheck⟩ | ⟨o, e, tr₃, hx, -, -⟩
      · obtain ⟨-, rfl, -⟩ := performs_throw_cases hcheck
        exact hsettled
      · obtain ⟨rfl, rfl⟩ := read_ok hx
        simp only [Engine.apply_nil, andThen, hrow, Option.any_some, hidle.2, decide_false,
          Bool.false_eq_true, if_false] at hcheck
        obtain ⟨-, rfl, -⟩ := performs_ret_cases hcheck
        exact hsettled
      · cases hx
    · rw [hrow, Option.some.injEq] at hrow'
      subst hrow'
      exact absurd (by simpa [ReminderJob.scheduled] using hscheduled) hidle.1
  · obtain ⟨-, rfl, -⟩ := performs_throw_cases hrest
    exact hsettled

/-- No write loses a reminder. -/
theorem isSome_reminder_write (w : Write) (d : Database)
    (h : (d.reminderJobs.lookup id).isSome = true) :
    (((chronos cat).write w d).reminderJobs.lookup id).isSome = true := by
  cases w with
  | reminder b offset row =>
    show ((d.reminderJobs.insert (b, offset) row).lookup id).isSome = true
    by_cases hid : id = (b, offset)
    · rw [hid, AList.lookup_insert]
      rfl
    · rw [AList.lookup_insert_ne hid]
      exact h
  | cancelReminders b =>
    show ((updateWhere _ _ d.reminderJobs).lookup id).isSome = true
    rw [lookup_updateWhere, Option.isSome_map]
    exact h
  | cancelPendingReminders b =>
    show ((updateWhere _ _ d.reminderJobs).lookup id).isSome = true
    rw [lookup_updateWhere, Option.isSome_map]
    exact h
  | _ => exact h

/-- A reminder is settled or it is not. -/
theorem settled_or_unsettled (h : (d.reminderJobs.lookup id).isSome = true) :
    Settled id d ∨ Unsettled id d := by
  obtain ⟨row, hrow⟩ := Option.isSome_iff_exists.mp h
  cases hterminal : row.status.terminal with
  | true => exact Or.inl ⟨row, hrow, hterminal⟩
  | false => exact Or.inr ⟨row, hrow, hterminal⟩

end Attempt

/-! ### All attempts -/

section Attempts

variable {cat : Catalog} {isConfigured : Bool} {id : ReminderId} {n : Nat} {d d' : Database}
variable {trs : List (List (Event Stmt Ask.Answer JsError))}

/-- **Which reminders are settled.**  When a job has no attempts left, its reminder has come to
    a final status exactly if it had one before, or one of the attempts got through. -/
theorem settled_iff (hexists : (d.reminderJobs.lookup id).isSome = true)
    (h : Attempts cat isConfigured id jobAttempts d trs d') :
    Settled id d' ↔ Settled id d ∨ ∃ tr ∈ trs, GetsThrough tr := by
  generalize jobAttempts = n at h
  induction h with
  | spent => simp
  | @completed _ d tr d' hperforms =>
    rcases settled_or_unsettled hexists with hsettled | hopen
    · exact iff_of_true (process_keeps_settled hsettled hperforms) (Or.inl hsettled)
    · rw [process_settled hopen hperforms]
      simp [not_settled_of_unsettled hopen]
  | @rejected _ d tr d₁ _ d₂ trs d' hperforms hsame hrest ih =>
    have hexists₁ : (d₁.reminderJobs.lookup id).isSome = true :=
      hperforms.preserves (J := fun d => (d.reminderJobs.lookup id).isSome = true)
        isSome_reminder_write hexists
    rw [ih (by rw [hsame]; exact hexists₁), settled_congr hsame]
    rcases settled_or_unsettled hexists with hsettled | hopen
    · exact iff_of_true (Or.inl (process_keeps_settled hsettled hperforms)) (Or.inl hsettled)
    · rw [process_settled hopen hperforms]
      simp [not_settled_of_unsettled hopen]

end Attempts

/-- An hour before the appointment the client has an e-mail address, and the provider answers
    `reply`. -/
def workerEnv (reply : ResendReply) : Env Nat JsError Ask.Answer :=
  ⟨0, none, fun a => match a with
    | .now => hoursMs 99
    | .effect _ => .ok ()
    | .queueAdd .. => .ok (hoursMs 99)
    | .selectClient _ => .ok (some ⟨some "client@example.org", false⟩)
    | .sendEmail .. => reply⟩

/-- `503 Service Unavailable`. -/
def unavailable : ResendReply := .refused ⟨some 503, none, some "Service Unavailable"⟩

/-- What is in a table with one row. -/
theorem lookup_singleton {α : Type} {β : α → Type} [DecidableEq α] {a a' : α} {b : β a}
    {b' : β a'} (h : ((∅ : AList β).insert a b).lookup a' = some b') : a' = a := by
  by_contra hne
  rw [AList.lookup_insert_ne hne] at h
  cases h

/-- The one-hour reminder of booking `1` in a given status. -/
def sampleRemind (status : ReminderJobStatus) (lockedUntil : Option Instant) : Database :=
  { sampleBooked .booked .booked 1 with
    reminderJobs := (∅ : AList fun _ => ReminderJob).insert (1, 60) ⟨hoursMs 99, status, lockedUntil⟩ }

/-- The reminder, claimed an hour before the appointment. -/
def sampleClaimed : Database := sampleRemind .sending (some (hoursMs 99 + lockDurationMs))

/-- An attempt the provider is unavailable for is rejected and leaves the reminder `sending`. -/
theorem sample_unavailable {d : Database} (n : Nat) {e : JsError}
    (hrun : ∃ σ q, runAlone (chronos sampleCatalog) (List.replicate n (workerEnv unavailable))
      .idle d (process true (some (1, 60))) = some (σ, sampleClaimed, q) ∧
        q.result = some (.error e)) :
    ∃ tr, Performs (chronos sampleCatalog) .idle d (process true (some (1, 60))) tr sampleClaimed
      (.error e) := by
  obtain ⟨σ, q, hrun, hq⟩ := hrun
  exact performs_of_runAlone hrun hq

theorem sample_first_unavailable : ∃ tr e, Performs (chronos sampleCatalog) .idle
    (sampleRemind .scheduled none) (process true (some (1, 60))) tr sampleClaimed (.error e) := by
  obtain ⟨tr, htr⟩ := sample_unavailable (d := sampleRemind .scheduled none) 9 ⟨_, _, rfl, rfl⟩
  exact ⟨tr, _, htr⟩

theorem sample_later_unavailable : ∃ tr e, Performs (chronos sampleCatalog) .idle
    sampleClaimed (process true (some (1, 60))) tr sampleClaimed (.error e) := by
  obtain ⟨tr, htr⟩ := sample_unavailable (d := sampleClaimed) 10 ⟨_, _, rfl, rfl⟩
  exact ⟨tr, _, htr⟩

/-- The provider is unavailable once: a later attempt gets through. -/
theorem settled_iff_retried : ∃ trs d', Attempts sampleCatalog true (1, 60) jobAttempts
    (sampleRemind .scheduled none) trs d' ∧ ∃ tr ∈ trs, GetsThrough tr := by
  obtain ⟨tr₁, e₁, h₁⟩ := sample_first_unavailable
  have hrun : ∃ σ q, runAlone (chronos sampleCatalog)
      (List.replicate 11 (workerEnv (.sent (some "re_1")))) .idle sampleClaimed
      (process true (some (1, 60))) =
        some (σ, { sampleRemind .sent (some (hoursMs 99 + lockDurationMs)) with
          emails := [(1, 60)] }, q) ∧ q.result = some (.ok ()) := ⟨_, _, rfl, rfl⟩
  obtain ⟨σ, q, hrun, hq⟩ := hrun
  obtain ⟨tr₂, h₂⟩ := performs_of_runAlone hrun hq
  have hattempts : Attempts sampleCatalog true (1, 60) jobAttempts (sampleRemind .scheduled none)
      [tr₁, tr₂] _ := .rejected h₁ rfl (.completed h₂)
  have hsettled := (settled_iff rfl hattempts).mp ⟨_, rfl, rfl⟩
  exact ⟨_, _, hattempts, hsettled.resolve_left (not_settled_of_unsettled ⟨_, rfl, rfl⟩)⟩

/-- **A stranded reminder.**  The provider is unavailable for all five attempts: the job has no
    attempts left, and the reminder is `sending`. -/
theorem reminder_stranded : ∃ trs d', Attempts sampleCatalog true (1, 60) jobAttempts
    (sampleRemind .scheduled none) trs d' ∧
      ∃ row, d'.reminderJobs.lookup (1, 60) = some row ∧ row.status = .sending := by
  obtain ⟨tr₁, e₁, h₁⟩ := sample_first_unavailable
  obtain ⟨tr₂, e₂, h₂⟩ := sample_later_unavailable
  exact ⟨_, _, .rejected h₁ rfl (.rejected h₂ rfl (.rejected h₂ rfl (.rejected h₂ rfl
    (.rejected h₂ rfl .spent)))), _, rfl, rfl⟩

end Chronos
