import Chronos.PoolClients
import Chronos.Stranded
import Chronos.ReadCommitted.Vetting

namespace Chronos

open ReadCommitted ReadCommitted.Prog

/-!
# How `processReminder` ends

The reminder is `sending` and its booking is `booked` (`AtWork`).

* `opted_out_unrecorded` — a client who has opted out gets no e-mail.  The status the worker wants
  to record is none of the table's: the call is rejected, and the reminder stays `sending` for the
  next attempt.
* `classified_iff` — a failure of the provider ends as its status code says unless it is one of the
  client errors that look like a passing failure (`LooksPassing`).
-/

/-- The text a status has in the table. -/
def ReminderJobStatus.text : ReminderJobStatus → String
  | .scheduled => "scheduled"
  | .sending => "sending"
  | .sent => "sent"
  | .cancelled => "cancelled"
  | .skipped => "skipped"
  | .failed => "failed"

theorem ofText?_text (status : ReminderJobStatus) :
    ReminderJobStatus.ofText? status.text = some status := by
  cases status <;> decide

/-- A reminder the worker is at work on. -/
structure AtWork (d : Database) (id : ReminderId) (row : ReminderJob) (booking : Booking) : Prop where
  stored : d.reminderJobs.lookup id = some row
  sending : row.status = .sending
  ofBooking : d.bookings.lookup id.1 = some booking
  booked : booking.status = .booked

section AtWork

variable {cat : Catalog} {isConfigured : Bool} {id : ReminderId} {d : Database}
variable {row : ReminderJob} {booking : Booking} {P : Env Nat JsError Ask.Answer → Prop}
variable {Q : List (Event Stmt Ask.Answer JsError) → Place Database Write → Except JsError Unit → Prop}
variable {tr : List (Event Stmt Ask.Answer JsError)}

/-- Nothing stands between the worker and the client. -/
theorem AtWork.yields (h : AtWork d id row booking)
    (hremind : (remindClient isConfigured id row booking).Yields (chronos cat) P Q
      (tr ++ [.ran (.selectReminder id)] ++ [.ran (.selectBooking id.1)]) (.free d))
    (hreminder : ∀ env e, P env → env.fault = some e → Q (tr ++ [.disturbed e]) (.free d) (.error e))
    (hbooking : ∀ env e, P env → env.fault = some e →
      Q (tr ++ [.ran (.selectReminder id)] ++ [.disturbed e]) (.free d) (.error e)) :
    (processReminder isConfigured id).Yields (chronos cat) P Q tr (.free d) := by
  refine yields_read (fun _ => rfl) ?_ hreminder
  simp only [andThen, h.stored, h.sending, ne_eq, not_true_eq_false, if_false]
  refine yields_read (fun _ => rfl) ?_ hbooking
  simp only [andThen, h.ofBooking, h.booked, not_true_eq_false, if_false]
  exact hremind

/-- A status of the table is recorded. -/
theorem yields_setReminderStatus (status : ReminderJobStatus)
    (hrow : d.reminderJobs.lookup id = some row)
    (hok : Q (tr ++ [.ran (.setReminderStatus id status.text)])
      (.free { d with reminderJobs := d.reminderJobs.insert id { row with status := status } }) (.ok ()))
    (herr : ∀ env e, P env → env.fault = some e → Q (tr ++ [.disturbed e]) (.free d) (.error e)) :
    (dbQuery (.setReminderStatus id status.text)).Yields (chronos cat) P Q tr (.free d) := by
  have hexec : ∀ o, ((chronos cat).exec (.setReminderStatus id status.text) o d).result =
      .ok ((), [.reminder id.1 id.2 { row with status := status }]) := by
    intro o
    show (exec cat (.setReminderStatus id status.text) o d).result = _
    simp only [exec, hrow, ofText?_text]
  refine yields_stmt_free fun env henv => ⟨fun e hf => herr env e henv hf, fun _ =>
    ⟨fun r ws hx => ?_, fun e hx => ?_⟩⟩
  · rw [hexec, Except.ok.injEq, Prod.mk.injEq] at hx
    obtain ⟨-, rfl⟩ := hx
    exact hok
  · rw [hexec] at hx
    cases hx

end AtWork

/-! ### Clients who have opted out -/

/-- No e-mail is handed to the provider. -/
def Unmailed (tr : List (Event Stmt Ask.Answer JsError)) : Prop :=
  ∀ receiver k x, .answered (.sendEmail receiver k) x ∉ tr

/-- The reminder may still be sent, and its client has an e-mail address but wants no reminders. -/
structure OptedOut (row : ReminderJob) (env : Env Nat JsError Ask.Answer) : Prop where
  inTime : env.answer .now - row.fireAtUtc ≤ retryWindowMs
  client : ∀ c, ∃ client, env.answer (.selectClient c) = .ok (some client) ∧
    (truthy client.email).isSome = true ∧ client.remindersOptOut = true

/-- **Honoured and recorded**: no e-mail, and the reminder is `suppressed`. -/
def Suppressed (id : ReminderId) (tr : List (Event Stmt Ask.Answer JsError)) (d' : Database)
    (r : Except JsError Unit) : Prop :=
  Unmailed tr ∧ r = .ok () ∧
    ∃ row, d'.reminderJobs.lookup id = some row ∧ row.status.text = "suppressed"

/-- **Honoured, and not recorded.** -/
def Unrecorded (d : Database) (tr : List (Event Stmt Ask.Answer JsError)) (d' : Database)
    (r : Except JsError Unit) : Prop :=
  Unmailed tr ∧ d' = d ∧ ∃ e, r = .error e

/-- No status of the table is `suppressed`. -/
theorem text_ne_suppressed (status : ReminderJobStatus) : status.text ≠ "suppressed" := by
  cases status <;> decide

section OptedOut

variable {cat : Catalog} {isConfigured : Bool} {id : ReminderId} {d d' : Database}
variable {row : ReminderJob} {booking : Booking}
variable {tr : List (Event Stmt Ask.Answer JsError)} {r : Except JsError Unit}

/-- The `CHECK` refuses what `markSuppressed` wants to record. -/
theorem yields_markSuppressed {P : Env Nat JsError Ask.Answer → Prop}
    (hrow : d.reminderJobs.lookup id = some row) (htr : Unmailed tr) :
    (markSuppressed id).Yields (chronos cat) P (fun tr st r => Unrecorded d tr st.db r) tr (.free d) := by
  refine yields_stmt_free fun env henv => ⟨fun e hf => ?_, fun _ => ⟨fun r ws hx => ?_, fun e hx => ?_⟩⟩
  · exact ⟨by simpa [Unmailed] using htr, rfl, e, rfl⟩
  · have hrefused : ReminderJobStatus.ofText? "suppressed" = none := by decide
    change (exec cat (.setReminderStatus id "suppressed") env.fresh d).result = _ at hx
    simp only [exec, hrow, hrefused] at hx
    cases hx
  · exact ⟨by simpa [Unmailed] using htr, rfl, e, rfl⟩

theorem yields_remindClient_optedOut (hrow : d.reminderJobs.lookup id = some row) (htr : Unmailed tr) :
    (remindClient isConfigured id row booking).Yields (chronos cat) (OptedOut row)
      (fun tr st r => Unrecorded d tr st.db r) tr (.free d) := by
  intro env henv
  simp only [andThen]
  rw [if_neg (not_lt.mpr henv.inTime)]
  intro env' henv'
  obtain ⟨client, hclient, hemail, hout⟩ := henv'.client booking.clientId
  obtain ⟨email, hemail⟩ := Option.isSome_iff_exists.mp hemail
  have hreads : clientEmail (some client) = some email := hemail
  simp only [hclient, ofExcept, andThen, hreads, Option.any_some, hout, if_true]
  exact yields_markSuppressed hrow (by simpa [Unmailed] using htr)

/-- **Opting out is honoured and never recorded.**  Whatever else happens, the client gets no
    e-mail, the call is rejected, and nothing is written. -/
theorem opted_out_unrecorded (hwork : AtWork d id row booking)
    (h : PerformsIn (chronos cat) (OptedOut row) .idle d (processReminder isConfigured id) tr d' r) :
    ¬ Suppressed id tr d' r ∧ Unrecorded d tr d' r := by
  have hyields : (processReminder isConfigured id).Yields (chronos cat) (OptedOut row)
      (fun tr st r => Unrecorded d tr st.db r) [] (.free d) := by
    refine hwork.yields (yields_remindClient_optedOut hwork.stored ?_) ?_ ?_
    · simp [Unmailed]
    · exact fun env e _ _ => ⟨by simp [Unmailed], rfl, e, rfl⟩
    · exact fun env e _ _ => ⟨by simp [Unmailed], rfl, e, rfl⟩
  obtain ⟨st', hst, hend⟩ := hyields.performs h
  rw [hst] at hend
  refine ⟨fun hsuppressed => ?_, hend⟩
  obtain ⟨-, -, row', -, htext⟩ := hsuppressed
  exact text_ne_suppressed row'.status htext

/-- The one-hour reminder of booking `1`, whose client has opted out. -/
def optedOutEnv : Env Nat JsError Ask.Answer :=
  ⟨0, none, fun a => match a with
    | .now => hoursMs 99
    | .effect _ => .ok ()
    | .queueAdd .. => .ok (hoursMs 99)
    | .selectClient _ => .ok (some ⟨some "client@example.org", true⟩)
    | .sendEmail .. => .sent none⟩

theorem atWork_sampleClaimed : AtWork sampleClaimed (1, 60)
    ⟨hoursMs 99, .sending, some (hoursMs 99 + lockDurationMs)⟩ (sampleBooking .booked 1) where
  stored := rfl
  sending := rfl
  ofBooking := rfl
  booked := rfl

theorem optedOut_optedOutEnv :
    OptedOut ⟨hoursMs 99, .sending, some (hoursMs 99 + lockDurationMs)⟩ optedOutEnv where
  inTime := by decide
  client _ := ⟨⟨some "client@example.org", true⟩, rfl, rfl, rfl⟩

/-- The reminder of a client who has opted out: the call is rejected. -/
theorem sample_optedOut : ∃ tr e, PerformsIn (chronos sampleCatalog)
    (OptedOut ⟨hoursMs 99, .sending, some (hoursMs 99 + lockDurationMs)⟩) .idle sampleClaimed
    (processReminder true (1, 60)) tr sampleClaimed (.error e) := by
  have hrun : ∃ σ q, runAlone (chronos sampleCatalog) (List.replicate 5 optedOutEnv) .idle
      sampleClaimed (processReminder true (1, 60)) = some (σ, sampleClaimed, q) ∧
        q.result = some (.error (checkViolation "reminder_jobs" "reminder_jobs_status_check")) :=
    ⟨_, _, rfl, rfl⟩
  obtain ⟨σ, q, hrun, hq⟩ := hrun
  refine ⟨_, _, performsIn_eventsAlone (fun env henv => ?_) hrun hq⟩
  rw [List.eq_of_mem_replicate henv]
  exact optedOut_optedOutEnv

theorem opted_out_rejected : ∃ tr d' r, PerformsIn (chronos sampleCatalog)
    (OptedOut ⟨hoursMs 99, .sending, some (hoursMs 99 + lockDurationMs)⟩) .idle sampleClaimed
    (processReminder true (1, 60)) tr d' r ∧ ¬ Suppressed (1, 60) tr d' r := by
  obtain ⟨tr, e, h⟩ := sample_optedOut
  refine ⟨tr, _, _, h, fun hsuppressed => ?_⟩
  cases hsuppressed.2.1

theorem opted_out_unrecorded_sample : ∃ tr d' r, PerformsIn (chronos sampleCatalog)
    (OptedOut ⟨hoursMs 99, .sending, some (hoursMs 99 + lockDurationMs)⟩) .idle sampleClaimed
    (processReminder true (1, 60)) tr d' r ∧
      ¬ Suppressed (1, 60) tr d' r ∧ Unrecorded sampleClaimed tr d' r := by
  obtain ⟨tr, e, h⟩ := sample_optedOut
  exact ⟨tr, _, _, h, opted_out_unrecorded atWork_sampleClaimed h⟩

end OptedOut

/-! ### Failures of the provider -/

/-- What the answer says when it is a failure. -/
def ResendReply.error? : ResendReply → Option ResendError
  | .sent _ => none
  | .refused err => some err
  | .raised err => some err

/-- A client error: it will be the same when the e-mail is sent again. -/
def ResendError.IsClientError (err : ResendError) : Prop :=
  ∃ code, err.statusCode = some code ∧ 400 ≤ code ∧ code ≤ 499 ∧ code ≠ 429

/-- A rate limit, a server error, or a network error. -/
def ResendError.IsPassing (err : ResendError) : Prop :=
  (∃ code, err.statusCode = some code ∧ (code = 429 ∨ 500 ≤ code)) ∨
    err.statusCode = none ∧
      ∃ code, err.code = some code ∧ code ∈ ["ECONNREFUSED", "ETIMEDOUT", "ENOTFOUND"]

/-- The code of a network error, or a message that contains a word the gateway takes for the sign
    of a passing failure. -/
def ResendError.LooksPassing (err : ResendError) : Prop :=
  (∃ code, err.code = some code ∧ code ∈ ["ECONNREFUSED", "ETIMEDOUT", "ENOTFOUND"]) ∨
    ∃ word ∈ ["rate limit", "too many requests", "timeout", "network", "503", "502", "504"],
      includes (toLowerCase (err.message.getD "")) word = true

/-- The reminder has this status. -/
def HasStatus (id : ReminderId) (status : ReminderJobStatus) (d : Database) : Prop :=
  ∃ row, d.reminderJobs.lookup id = some row ∧ row.status = status

/-- The reminder is done for. -/
def GivenUp (id : ReminderId) (d' : Database) (r : Except JsError Unit) : Prop :=
  r = .ok () ∧ HasStatus id .failed d'

/-- The queue will try again. -/
def LeftToRetry (id : ReminderId) (d' : Database) (r : Except JsError Unit) : Prop :=
  (∃ e, r = .error e) ∧ HasStatus id .sending d'

/-- **Only transient failures are retried.** -/
structure Classified (id : ReminderId) (err : ResendError) (d' : Database)
    (r : Except JsError Unit) : Prop where
  clientError : err.IsClientError → GivenUp id d' r
  passing : err.IsPassing → LeftToRetry id d' r

/-- What the gateway takes for a passing failure. -/
theorem isTransientError_iff {err : ResendError} : isTransientError err = true ↔
    (∃ code, err.statusCode = some code ∧ (code = 429 ∨ 500 ≤ code)) ∨ err.LooksPassing := by
  simp only [isTransientError, ResendError.LooksPassing, Bool.or_eq_true, Option.any_eq_true,
    decide_eq_true_eq, List.contains_iff_mem, List.any_eq_true, or_assoc]

/-- A client error has none of the status codes of passing failures. -/
theorem ResendError.IsClientError.transient_iff {err : ResendError} (h : err.IsClientError) :
    isTransientError err = true ↔ err.LooksPassing := by
  obtain ⟨code, hcode, hle, hge, hne⟩ := h
  rw [isTransientError_iff]
  refine ⟨fun htransient => htransient.resolve_left ?_, Or.inr⟩
  rintro ⟨code', hcode', hpassing⟩
  obtain rfl : code = code' := Option.some.inj (hcode.symm.trans hcode')
  omega

theorem ResendError.IsPassing.transient {err : ResendError} (h : err.IsPassing) :
    isTransientError err = true := by
  rw [isTransientError_iff]
  rcases h with hstatus | ⟨-, hnetwork⟩
  · exact Or.inl hstatus
  · exact Or.inr (Or.inl hnetwork)

section Failures

variable {cat : Catalog} {isConfigured : Bool} {id : ReminderId} {d d' : Database}
variable {row : ReminderJob} {booking : Booking}
variable {tr : List (Event Stmt Ask.Answer JsError)} {r : Except JsError Unit}

/-- What holds of every answer of the provider among some events. -/
def RepliesAre (S : ResendReply → Prop) (tr : List (Event Stmt Ask.Answer JsError)) : Prop :=
  ∀ receiver k x, .answered (.sendEmail receiver k) x ∈ tr → S x

theorem unmailed_append {ev : Event Stmt Ask.Answer JsError} (h : Unmailed tr)
    (hev : ∀ receiver k x, ev ≠ .answered (.sendEmail receiver k) x) : Unmailed (tr ++ [ev]) := by
  intro receiver k x hmem
  rcases List.mem_append.mp hmem with hmem | hmem
  · exact h receiver k x hmem
  · exact hev receiver k x (List.mem_singleton.mp hmem).symm

/-- No other event is an e-mail's. -/
theorem Unmailed.now (h : Unmailed tr) (t : Instant) : Unmailed (tr ++ [.answered .now t]) := by
  refine unmailed_append h fun _ _ _ heq => ?_
  cases heq

theorem Unmailed.selectClient (h : Unmailed tr) (c : ClientId) (x : Except JsError (Option Client)) :
    Unmailed (tr ++ [.answered (.selectClient c) x]) := by
  refine unmailed_append h fun _ _ _ heq => ?_
  cases heq

theorem Unmailed.ran (h : Unmailed tr) (s : Stmt) : Unmailed (tr ++ [.ran s]) := by
  refine unmailed_append h fun _ _ _ heq => ?_
  cases heq

theorem Unmailed.disturbed (h : Unmailed tr) (e : JsError) : Unmailed (tr ++ [.disturbed e]) := by
  refine unmailed_append h fun _ _ _ heq => ?_
  cases heq

theorem RepliesAre.append {S : ResendReply → Prop} {ev : Event Stmt Ask.Answer JsError}
    (h : RepliesAre S tr) (hev : ∀ receiver k x, .answered (.sendEmail receiver k) x = ev → S x) :
    RepliesAre S (tr ++ [ev]) := by
  intro receiver k x hmem
  rcases List.mem_append.mp hmem with hmem | hmem
  · exact h receiver k x hmem
  · exact hev receiver k x (List.mem_singleton.mp hmem)

/-- How a call ends that has met some failure of the provider: as the gateway classifies it. -/
def EndsAsClassified (id : ReminderId) (tr : List (Event Stmt Ask.Answer JsError))
    (st : Place Database Write) (r : Except JsError Unit) : Prop :=
  RepliesAre (fun x => ∀ err, x.error? = some err →
    (isTransientError err = true → LeftToRetry id st.db r) ∧
      (isTransientError err = false → GivenUp id st.db r)) tr

/-- Where nothing has been sent, nothing has failed. -/
theorem endsAsClassified_unmailed {st : Place Database Write} (h : Unmailed tr) :
    EndsAsClassified id tr st r :=
  fun receiver k x hmem => absurd hmem (h receiver k x)

/-- What `sendWithProvider` makes of a failure. -/
theorem mapError_sendResult {x : ResendReply} {err : ResendError} (h : x.error? = some err) :
    ∃ message, (sendResult x).mapError EmailError.sendError =
      .error (if isTransientError err = true then .network message else .provider message) := by
  cases x with
  | sent messageId => cases h
  | refused err' =>
    obtain rfl := Option.some.inj h
    cases htransient : isTransientError err' with
    | true => exact ⟨_, by simp only [sendResult, htransient]; rfl⟩
    | false => exact ⟨_, by simp only [sendResult, htransient]; rfl⟩
  | raised err' =>
    obtain rfl := Option.some.inj h
    cases htransient : isTransientError err' with
    | true => exact ⟨_, by simp only [sendResult, htransient]; rfl⟩
    | false => exact ⟨_, by simp only [sendResult, htransient]; rfl⟩

/-- The provider has answered. -/
theorem yields_answered {x : ResendReply} (hstored : d.reminderJobs.lookup id = some row)
    (hsending : row.status = .sending) (htr : RepliesAre (· = x) tr) :
    (match (sendResult x).mapError EmailError.sendError with
      | .ok _ => markSent id
      | .error (.network message) => throw (reminderError message "TRANSIENT")
      | .error (.provider _) => markFailed id : Program Unit).Yields (chronos cat) Faultless
        (EndsAsClassified id) tr (.free d) := by
  have hran : ∀ s, RepliesAre (· = x) (tr ++ [.ran s]) :=
    fun s => htr.append fun _ _ _ heq => nomatch heq
  have hcalm : ∀ (env : Env Nat JsError Ask.Answer) {e : JsError}, Faultless env →
      env.fault ≠ some e := by
    intro env e henv hf
    rw [henv] at hf
    cases hf
  cases herr : x.error? with
  | none =>
    -- The e-mail has been taken, so there is no failure to speak of.
    have hfine : ∀ {tr st r}, RepliesAre (· = x) tr → EndsAsClassified id tr st r := by
      intro tr st r htr receiver k y hmem err hy
      rw [htr receiver k y hmem, herr] at hy
      cases hy
    cases x with
    | sent messageId =>
      exact yields_setReminderStatus .sent hstored (hfine (hran _))
        fun env e henv hf => absurd hf (hcalm env henv)
    | refused err => cases herr
    | raised err => cases herr
  | some err =>
    obtain ⟨message, hresult⟩ := mapError_sendResult herr
    -- The one failure the call has met is `err`.
    have hends : ∀ {tr st r}, RepliesAre (· = x) tr →
        ((isTransientError err = true → LeftToRetry id st.db r) ∧
          (isTransientError err = false → GivenUp id st.db r)) → EndsAsClassified id tr st r := by
      intro tr st r htr hend receiver k y hmem err' hy
      rw [htr receiver k y hmem, herr, Option.some.injEq] at hy
      rw [← hy]
      exact hend
    rw [hresult]
    cases htransient : isTransientError err with
    | true =>
      refine hends htr ⟨fun _ => ⟨⟨_, rfl⟩, row, hstored, hsending⟩, fun hfalse => ?_⟩
      rw [htransient] at hfalse
      cases hfalse
    | false =>
      refine yields_setReminderStatus .failed hstored (hends (hran _) ?_)
        fun env e henv hf => absurd hf (hcalm env henv)
      refine ⟨fun htrue => ?_, fun _ => ⟨rfl, _, AList.lookup_insert _, rfl⟩⟩
      rw [htransient] at htrue
      cases htrue

/-- Without an e-mail to the provider, none fails. -/
theorem yields_unsent {p : Program Unit}
    (hp : p.Follows (.asking fun a => ∀ receiver k, a ≠ .sendEmail receiver k))
    (htr : Unmailed tr) : p.Yields (chronos cat) Faultless (EndsAsClassified id) tr (.free d) := by
  refine (hp.yields (fun tr ev hunmailed hev => ?_) htr).mono fun _ _ _ h => endsAsClassified_unmailed h
  exact unmailed_append hunmailed fun receiver k x heq => hev _ x heq receiver k rfl

theorem yields_sendReminder_classified (hstored : d.reminderJobs.lookup id = some row)
    (hsending : row.status = .sending) (htr : Unmailed tr) :
    (sendReminder isConfigured id booking).Yields (chronos cat) Faultless
      (EndsAsClassified id) tr (.free d) := by
  intro env henv
  have hclient : ∀ x, Unmailed (tr ++ [.answered (.selectClient booking.clientId) x]) :=
    fun x => htr.selectClient booking.clientId x
  cases env.answer (.selectClient booking.clientId) with
  | error e => exact endsAsClassified_unmailed (hclient _)
  | ok client =>
    cases hemail : clientEmail client with
    | none =>
      simp only [andThen, ofExcept, hemail]
      exact endsAsClassified_unmailed (hclient _)
    | some email =>
      simp only [andThen, ofExcept, hemail]
      refine yields_read (fun _ => rfl) ?_ fun env' e henv' hf => ?_
      · have hprovider : Unmailed (tr ++ [.answered (.selectClient booking.clientId) (.ok client)] ++
            [.ran (.selectProvider none)]) :=
          (hclient (.ok client)).ran (.selectProvider none)
        cases isConfigured with
        | false => exact yields_unsent ⟨trivial, fun _ _ => trivial, fun _ => trivial⟩ hprovider
        | true =>
          intro env' henv'
          have hstored' : ((chronos cat).apply (noted (.sendEmail email id)
              (env'.answer (.sendEmail email id))) d).reminderJobs.lookup id = some row := by
            rw [lookup_noted_sendEmail]
            exact hstored
          refine yields_answered hstored' hsending (RepliesAre.append
            (fun receiver k x hmem => absurd hmem (hprovider receiver k x)) ?_)
          rintro receiver k x heq
          cases heq
          rfl
      · exact endsAsClassified_unmailed ((hclient _).disturbed _)

theorem yields_remindClient_classified (hstored : d.reminderJobs.lookup id = some row)
    (hsending : row.status = .sending) (htr : Unmailed tr) :
    (remindClient isConfigured id row booking).Yields (chronos cat) Faultless
      (EndsAsClassified id) tr (.free d) := by
  intro env henv
  have hnow : Unmailed (tr ++ [.answered .now (env.answer .now)]) :=
    htr.now (env.answer .now)
  simp only [andThen]
  split
  · exact yields_unsent ⟨trivial, fun _ _ => trivial, fun _ => trivial⟩ hnow
  · intro env' henv'
    have hclient : ∀ x, Unmailed (tr ++ [.answered .now (env.answer .now)] ++
        [.answered (.selectClient booking.clientId) x]) :=
      fun x => hnow.selectClient booking.clientId x
    cases env'.answer (.selectClient booking.clientId) with
    | error e => exact endsAsClassified_unmailed (hclient _)
    | ok client =>
      cases hemail : clientEmail client with
      | none =>
        simp only [andThen, ofExcept, hemail]
        exact endsAsClassified_unmailed (hclient _)
      | some email =>
        simp only [andThen, ofExcept, hemail]
        split
        · exact yields_unsent ⟨trivial, fun _ _ => trivial, fun _ => trivial⟩ (hclient _)
        · exact yields_sendReminder_classified hstored hsending (hclient _)

/-- **How a failed e-mail ends.** -/
theorem processReminder_classified (hwork : AtWork d id row booking)
    (h : PerformsIn (chronos cat) Faultless .idle d (processReminder isConfigured id) tr d' r)
    {receiver : String} {k : ReminderId} {x : ResendReply} {err : ResendError}
    (hsent : .answered (.sendEmail receiver k) x ∈ tr) (herr : x.error? = some err) :
    (isTransientError err = true → LeftToRetry id d' r) ∧
      (isTransientError err = false → GivenUp id d' r) := by
  have hyields : (processReminder isConfigured id).Yields (chronos cat) Faultless
      (EndsAsClassified id) [] (.free d) := by
    refine hwork.yields (yields_remindClient_classified hwork.stored hwork.sending ?_) ?_ ?_
    · simp [Unmailed]
    · exact fun env e _ _ => endsAsClassified_unmailed (by simp [Unmailed])
    · exact fun env e _ _ => endsAsClassified_unmailed (by simp [Unmailed])
  obtain ⟨st', rfl, hend⟩ := hyields.performs h
  exact hend receiver k x hsent err herr

/-- **Which failures end as they should**: all but the client errors that look like a passing
    failure. -/
theorem classified_iff (hwork : AtWork d id row booking)
    (h : PerformsIn (chronos cat) Faultless .idle d (processReminder isConfigured id) tr d' r)
    {receiver : String} {k : ReminderId} {x : ResendReply} {err : ResendError}
    (hsent : .answered (.sendEmail receiver k) x ∈ tr) (herr : x.error? = some err) :
    Classified id err d' r ↔ (err.IsClientError → ¬ err.LooksPassing) := by
  obtain ⟨hretried, hfailed⟩ := processReminder_classified hwork h hsent herr
  constructor
  · intro hclassified hclient hlooks
    obtain ⟨hok, -⟩ := hclassified.clientError hclient
    obtain ⟨⟨e, he⟩, -⟩ := hretried (hclient.transient_iff.mpr hlooks)
    rw [hok] at he
    cases he
  · intro hplain
    refine ⟨fun hclient => hfailed ?_, fun hpassing => hretried hpassing.transient⟩
    rw [Bool.eq_false_iff, ne_eq, hclient.transient_iff]
    exact hplain hclient

/-- The reminder is due, its client wants reminders, and the provider answers `x`. -/
def answerEnv (row : ReminderJob) (x : ResendReply) : Env Nat JsError Ask.Answer :=
  ⟨0, none, fun a => match a with
    | .now => row.fireAtUtc
    | .effect _ => .ok ()
    | .queueAdd .. => .ok row.fireAtUtc
    | .selectClient _ => .ok (some ⟨some "client@example.org", false⟩)
    | .sendEmail .. => x⟩

/-- Every reminder the worker is at work on may be answered in every way. -/
theorem exists_answered (cat : Catalog) (hwork : AtWork d id row booking) (x : ResendReply) :
    ∃ tr d' r, PerformsIn (chronos cat) Faultless .idle d (processReminder true id) tr d' r ∧
      .answered (.sendEmail "client@example.org" id) x ∈ tr := by
  -- Whatever follows the answer, the answer stays among the events.
  have hmem : ∀ {p : Program Unit} {tr : List (Event Stmt Ask.Answer JsError)}
      {st : Place Database Write}, .answered (.sendEmail "client@example.org" id) x ∈ tr →
      p.Yields (chronos cat) (· = answerEnv row x)
        (fun tr _ _ => .answered (.sendEmail "client@example.org" id) x ∈ tr) tr st :=
    fun {p tr st} htr => (p.yields_extends tr st).mono fun _ _ _ hpre => hpre.subset htr
  have hcalm : ∀ env e, env = answerEnv row x → env.fault ≠ some e := by
    rintro _ e rfl hf
    cases hf
  have hyields : (processReminder true id).Yields (chronos cat) (· = answerEnv row x)
      (fun tr _ _ => .answered (.sendEmail "client@example.org" id) x ∈ tr) [] (.free d) := by
    refine hwork.yields ?_ (fun env e henv hf => absurd hf (hcalm env e henv))
      fun env e henv hf => absurd hf (hcalm env e henv)
    rintro _ rfl
    have hintime : ¬ (answerEnv row x).answer .now - row.fireAtUtc > retryWindowMs := by
      show ¬ row.fireAtUtc - row.fireAtUtc > retryWindowMs
      rw [sub_self]
      decide
    simp only [andThen]
    rw [if_neg hintime]
    rintro _ rfl
    rintro _ rfl
    refine yields_read (fun _ => rfl) ?_ fun env e henv hf => absurd hf (hcalm env e henv)
    rintro _ rfl
    exact hmem (List.mem_append_right _ List.mem_cons_self)
  obtain ⟨tr, d', r, h⟩ := performsIn_total (E := chronos cat) (P := (· = answerEnv row x))
    ⟨_, rfl⟩ (processReminder true id) .idle d
  obtain ⟨-, -, hsent⟩ := hyields.performs h
  refine ⟨tr, d', r, h.mono ?_, hsent⟩
  rintro _ rfl
  rfl

/-- An address in a house with the number of a server error. -/
def badAddress : ResendError := ⟨some 422, none, some "Invalid `to` field: 502 High Street"⟩

theorem isClientError_badAddress : badAddress.IsClientError :=
  ⟨422, rfl, by decide, by decide, by decide⟩

theorem looksPassing_badAddress : badAddress.LooksPassing :=
  Or.inr ⟨"502", by simp, by decide +kernel⟩

/-- A refused address is retried. -/
theorem client_error_retried : ∃ tr d' r, PerformsIn (chronos sampleCatalog) Faultless .idle
    sampleClaimed (processReminder true (1, 60)) tr d' r ∧
      .answered (.sendEmail "client@example.org" (1, 60)) (.refused badAddress) ∈ tr ∧
      ¬ Classified (1, 60) badAddress d' r := by
  obtain ⟨tr, d', r, h, hsent⟩ := exists_answered sampleCatalog atWork_sampleClaimed
    (.refused badAddress)
  obtain ⟨hretried, -⟩ := processReminder_classified atWork_sampleClaimed h hsent rfl
  obtain ⟨⟨e, he⟩, -⟩ := hretried (isClientError_badAddress.transient_iff.mpr looksPassing_badAddress)
  refine ⟨tr, d', r, h, hsent, fun hclassified => ?_⟩
  obtain ⟨hok, -⟩ := hclassified.clientError isClientError_badAddress
  rw [hok] at he
  cases he

/-- A refusal that does not look like anything else is final. -/
theorem classified_iff_refused : ∃ tr d' r, PerformsIn (chronos sampleCatalog) Faultless .idle
    sampleClaimed (processReminder true (1, 60)) tr d' r ∧ Classified (1, 60) ⟨some 422, none, none⟩ d' r := by
  obtain ⟨tr, d', r, h, hsent⟩ := exists_answered sampleCatalog atWork_sampleClaimed
    (.refused ⟨some 422, none, none⟩)
  refine ⟨tr, d', r, h, (classified_iff atWork_sampleClaimed h hsent rfl).mpr fun _ hlooks => ?_⟩
  rcases hlooks with ⟨code, hcode, -⟩ | ⟨word, hword, hincluded⟩
  · cases hcode
  · have hnone : ∀ word ∈ ["rate limit", "too many requests", "timeout", "network", "503", "502", "504"],
        includes (toLowerCase "") word = false := by decide +kernel
    rw [show includes (toLowerCase ((none : Option String).getD "")) word = false from
      hnone word hword] at hincluded
    cases hincluded

end Failures

end Chronos
