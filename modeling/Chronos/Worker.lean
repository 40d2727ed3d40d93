import Chronos.Reminders
import Chronos.Lifecycle

namespace Chronos

open ReadCommitted ReadCommitted.Prog

/-!
# The reminder worker

`ReminderWorker` takes a job off the reminder queue, claims the reminder row
(`scheduled` → `sending`), reads booking and client, sends the e-mail and records how that
went.  None of this happens in a transaction.

An `EmailError` is the value `EmailGateway.send` ends with, and what `sendWithProvider` makes
of it the value it ends with itself; every other exception is thrown.
-/

/-! ### `EmailGateway` -/

/-- `EmailError.code`. -/
inductive EmailErrorCode
  | transient
  | permanent
  | configuration
  deriving DecidableEq

structure EmailError where
  message : String
  code : EmailErrorCode
  deriving DecidableEq

/-- `text.toLowerCase()`, as far as it yields ASCII: the Kelvin sign becomes `k`, and the
    dotted capital `I` an `i` with a dot above. -/
def toLowerCase (text : String) : String :=
  String.ofList (text.toList.flatMap fun c =>
    if c.val = 0x212A then ['k'] else if c.val = 0x130 then ['i', '\u0307'] else [c.toLower])

/-- `EmailGateway.isTransientError`: 429 rate limit, 5xx server errors, network errors. -/
def isTransientError (err : ResendError) : Bool :=
  let message := toLowerCase (err.message.getD "")
  err.statusCode.any (fun code => decide (code = 429 ∨ 500 ≤ code)) ||
    err.code.any (fun code => ["ECONNREFUSED", "ETIMEDOUT", "ENOTFOUND"].contains code) ||
    ["rate limit", "too many requests", "timeout", "network", "503", "502", "504"].any
      (includes message)

/-- The text of `${err.message}`. -/
def ResendError.text (err : ResendError) : String := err.message.getD "undefined"

/-- What `send` makes of the answer of the Resend client. -/
def sendResult : ResendReply → Except EmailError String
  | .sent id => .ok (id.getD "unknown")
  | .refused err => .error ⟨"Resend error: " ++ err.text,
      if isTransientError err then .transient else .permanent⟩
  | .raised err =>
      if isTransientError err then .error ⟨"Transient email error: " ++ err.text, .transient⟩
      else .error ⟨"Permanent email error: " ++ err.text, .permanent⟩

/-- `EmailGateway.send`, with the provider's message id. -/
def EmailGateway.send (isConfigured : Bool) (receiver : String) (idempotencyKey : ReminderId) :
    Program (Except EmailError String) :=
  if !isConfigured then
    pure (.error ⟨"Email gateway not configured: EMAIL_API_KEY is missing", .configuration⟩)
  else do
    let result ← call (.sendEmail receiver idempotencyKey)
    pure (sendResult result)

/-! ### `ReminderWorker` -/

/-- `LOCK_DURATION_MS`, two minutes. -/
def lockDurationMs : Int := 2 * 60 * 1000

/-- `RETRY_WINDOW_MS`, just under the provider's 24 hours retention. -/
def retryWindowMs : Int := 24 * 60 * 60 * 1000 - 1

/-- The id as messages print it. -/
def ReminderId.text (id : ReminderId) : String := toString id.1 ++ ":" ++ toString id.2

/-- `new ReminderError(message, code)`. -/
def reminderError (message code : String) : JsError := ⟨some code, message⟩

/-- `ReminderWorker.claimDue`. -/
def claimDue : Program (Option (ReminderId × ReminderJob)) := do
  let now ← clockNow
  let dbNow ← clockNow
  dbQuery (.claimDue dbNow (now + lockDurationMs))

def getReminder (id : ReminderId) : Program (Option ReminderJob) := dbQuery (.selectReminder id)

def getBooking (id : BookingId) : Program (Option Booking) := dbQuery (.selectBooking id)

def getClient (id : ClientId) : Program (Option Client) := do
  let rows ← call (.selectClient id)
  ofExcept rows

def getProvider (id : Option ProviderId) : Program (Option Provider) := dbQuery (.selectProvider id)

def markSent (id : ReminderId) : Program Unit := dbQuery (.setReminderStatus id "sent")

def markSuppressed (id : ReminderId) : Program Unit := dbQuery (.setReminderStatus id "suppressed")

def markFailed (id : ReminderId) : Program Unit := dbQuery (.setReminderStatus id "failed")

def markCancelled (id : ReminderId) : Program Unit := dbQuery (.setReminderStatus id "cancelled")

/-- `client?.email`, unless it is missing or empty. -/
def clientEmail (client : Option Client) : Option String :=
  truthy (client.bind Client.email)

/-- `Client email not available for booking …`. -/
def noEmail (bookingId : BookingId) : JsError :=
  jsError ("Client email not available for booking " ++ toString bookingId)

/-- `renderReminderEmail` reads the client again and answers the receiver; a row of `bookings`
    has no property `providerId`. -/
def renderReminderEmail (bookingId : BookingId) (booking : Booking) : Program String := do
  match clientEmail (← getClient booking.clientId) with
  | none => throw (noEmail bookingId)
  | some email =>
    let _ ← getProvider none
    pure email

/-- What `sendWithProvider` throws instead of an `EmailError`. -/
inductive SendError
  | network (message : String)
  | provider (message : String)
  deriving DecidableEq

def EmailError.sendError (err : EmailError) : SendError :=
  if err.code = .transient then .network err.message else .provider err.message

/-- `ReminderWorker.sendWithProvider`. -/
def sendWithProvider (isConfigured : Bool) (bookingId : BookingId) (booking : Booking)
    (idempotencyKey : ReminderId) : Program (Except SendError String) := do
  let receiver ← renderReminderEmail bookingId booking
  let result ← EmailGateway.send isConfigured receiver idempotencyKey
  pure (result.mapError EmailError.sendError)

/-- Send with the provider idempotency key `reminder/${booking.id}/${reminder.offsetMinutes}`,
    and record the outcome. -/
def sendReminder (isConfigured : Bool) (id : ReminderId) (booking : Booking) : Program Unit := do
  match ← sendWithProvider isConfigured id.1 booking id with
  | .ok _ => markSent id
  | .error (.network message) => throw (reminderError message "TRANSIENT")
  | .error (.provider _) => markFailed id

/-- What `processReminder` does for a booked booking: check the retry window and the client,
    then send. -/
def remindClient (isConfigured : Bool) (id : ReminderId) (reminder : ReminderJob)
    (booking : Booking) : Program Unit := do
  let now ← clockNow
  if now - reminder.fireAtUtc > retryWindowMs then
    markFailed id
    throw (reminderError ("Reminder " ++ id.text ++ " exceeded retry window") "VALIDATION")
  else
    let client ← getClient booking.clientId
    match clientEmail client with
    | none => throw (noEmail id.1)
    | some _ =>
      if client.any Client.remindersOptOut then
        markSuppressed id
      else
        sendReminder isConfigured id booking

/-- `ReminderWorker.processReminder`. -/
def processReminder (isConfigured : Bool) (id : ReminderId) : Program Unit := do
  match ← getReminder id with
  | none => throw (reminderError ("Reminder " ++ id.text ++ " not found") "NOT_FOUND")
  | some reminder =>
    if reminder.status ≠ .sending then
      throw (reminderError ("Reminder " ++ id.text ++ " not in sending state") "VALIDATION")
    else
      match ← getBooking id.1 with
      | none =>
        markFailed id
        throw (reminderError ("Booking " ++ toString id.1 ++ " not found") "NOT_FOUND")
      | some booking =>
        if booking.status ≠ .booked then
          markCancelled id
        else
          remindClient isConfigured id reminder booking

/-- The branch of `process` for a row it could not claim: already claimed, processed or not
    scheduled. -/
def recheckClaim (isConfigured : Bool) (id : ReminderId) : Program Unit := do
  let check ← getReminder id
  if check.any fun row => decide (row.status = .sending) then
    processReminder isConfigured id
  else
    pure ()

/-- Claim exactly this reminder, from `scheduled` to `sending`, and process it. -/
def claimAndProcess (isConfigured : Bool) (id : ReminderId) (lockedUntil : Instant) :
    Program Unit := do
  match ← dbQuery (.claimReminder id lockedUntil) with
  | none => recheckClaim isConfigured id
  | some _ => processReminder isConfigured id

/-- `ReminderWorker.process`; `none` is a payload without a `reminderId`. -/
def process (isConfigured : Bool) (reminderId : Option ReminderId) : Program Unit :=
  match reminderId with
  | none => throw (jsError "Missing reminderId in BullMQ payload")
  | some id => do
    let now ← clockNow
    claimAndProcess isConfigured id (now + lockDurationMs)

/-! ### What an answer of the provider comes to -/

/-- The error the answer stands for is a passing one. -/
def ResendReply.transient : ResendReply → Bool
  | .sent _ => false
  | .refused err => isTransientError err
  | .raised err => isTransientError err

/-- An e-mail is accepted, or refused for a passing reason (`NetworkError`), or for good
    (`ProviderError`). -/
theorem sendResult_cases (x : ResendReply) :
    ((∃ messageId, (sendResult x).mapError EmailError.sendError = .ok messageId) ∧
      x.transient = false) ∨
    ((∃ message, (sendResult x).mapError EmailError.sendError = .error (.network message)) ∧
      x.transient = true) ∨
    ((∃ message, (sendResult x).mapError EmailError.sendError = .error (.provider message)) ∧
      x.transient = false) := by
  cases x with
  | sent id => exact Or.inl ⟨⟨_, rfl⟩, rfl⟩
  | refused err =>
    cases herr : isTransientError err with
    | true => exact Or.inr (Or.inl ⟨⟨_, by simp only [sendResult, herr]; rfl⟩, herr⟩)
    | false => exact Or.inr (Or.inr ⟨⟨_, by simp only [sendResult, herr]; rfl⟩, herr⟩)
  | raised err =>
    cases herr : isTransientError err with
    | true => exact Or.inr (Or.inl ⟨⟨_, by simp only [sendResult, herr]; rfl⟩, herr⟩)
    | false => exact Or.inr (Or.inr ⟨⟨_, by simp only [sendResult, herr]; rfl⟩, herr⟩)

end Chronos
