import Chronos.Worker
import Chronos.ReadCommitted.Outcome
import Chronos.Operations

namespace Chronos

open ReadCommitted ReadCommitted.Prog

/-!
# The reminder e-mail

The worker renders its e-mail from raw rows, as `SELECT *` returns them: a property that is no
column of the table is `undefined`.

* `BookingRow.property` — the properties of a row of `bookings`.
* `renderReminderMail`, `renderReminderEmail` of `ReminderEmailData` — the worker's function and
  the template it fills.
* `outcome_renderReminderEmail` — what the worker's program answers is the receiver of this e-mail.
* `reminder_mail_untrue` — no e-mail is the one its appointment should have: the start of the slot
  and the provider are read from properties that no row of `bookings` has.
-/

/-! ### Rows and their properties -/

/-- A value of JavaScript, as far as rows hold one. -/
inductive JsField
  | undefined
  | null
  | id (n : Nat)
  | text (s : String)
  | number (n : Int)
  | date (t : Instant)
  deriving DecidableEq

/-- A row of `bookings`. -/
structure BookingRow where
  id : BookingId
  booking : Booking
  createdAt : Instant
  cancelledAt : Option Instant

/-- The columns of `002_phase2_full_schema.sql`, and `provider_id`. -/
def BookingRow.columns (b : BookingRow) : List (String × JsField) :=
  [("id", .id b.id), ("slot_id", .id b.booking.slotId), ("client_id", .id b.booking.clientId),
    ("client_timezone", .text b.booking.clientTimezone), ("status", .text b.booking.status.text),
    ("version", .number b.booking.version), ("created_at", .date b.createdAt),
    ("cancelled_at", b.cancelledAt.elim .null .date),
    ("provider_id", b.booking.providerId.elim .null .id)]

/-- `booking.name`. -/
def BookingRow.property (b : BookingRow) (name : String) : JsField :=
  (b.columns.lookup name).getD .undefined

/-- A row of `clients`. -/
structure MailClient where
  id : ClientId
  client : Client
  name : String

/-- A row of `providers`, as far as the e-mail shows it. -/
structure ProviderName where
  name : String

/-- `SELECT * FROM providers WHERE id = $1`; `undefined` is sent as `NULL`, which no id equals. -/
def selectProviderRow (providers : ProviderId → Option ProviderName) : JsField → Option ProviderName
  | .id n => providers n
  | _ => none

/-! ### Dates and links -/

/-- The options `toLocaleString` is called with. -/
inductive DateFormat
  /-- `{ weekday: 'long', month: 'short', day: 'numeric', hour: '2-digit', minute: '2-digit' }` -/
  | short
  /-- `{ weekday: 'long', year: 'numeric', month: 'long', day: 'numeric', … }` -/
  | long

/-- What the e-mail takes from around the program: `date.toLocaleString('en-US', …)` of a valid
    date, `Date.parse`, the signed token of a client, and `CHRONOS_PUBLIC_URL`. -/
structure MailSettings where
  toLocaleString : DateFormat → (timeZone : String) → Instant → String
  parseDate : String → Option Instant
  signToken : ClientId → String
  publicUrl : Option String

/-- Every text of a valid date shows its hour in digits. -/
def MailSettings.ShowsHours (m : MailSettings) : Prop :=
  ∀ format timeZone t, ∃ c ∈ (m.toLocaleString format timeZone t).toList, c.isDigit = true

/-- `new Date(value)`; `none` is an invalid date. -/
def MailSettings.newDate (m : MailSettings) : JsField → Option Instant
  | .undefined => none
  | .null => some 0
  | .id _ => none
  | .text s => m.parseDate s
  | .number n => some n
  | .date t => some t

/-- `new Date(value).toLocaleString('en-US', …)`. -/
def MailSettings.localeString (m : MailSettings) (format : DateFormat) (timeZone : String)
    (value : JsField) : String :=
  match m.newDate value with
  | none => "Invalid Date"
  | some t => m.toLocaleString format timeZone t

/-! ### The template -/

structure ReminderEmailData where
  «to» : String
  clientName : String
  providerName : String
  appointmentDate : JsField
  appointmentTime : String
  clientTimezone : String
  offsetMinutes : Nat
  bookingId : String
  unsubscribeUrl : String

/-- `text.replace(/c/g, by)`. -/
def replaceAll (c : Char) (replacement text : String) : String :=
  String.ofList (text.toList.flatMap fun c' => if c' = c then replacement.toList else [c'])

/-- `escapeHtml`. -/
def escapeHtml (input : String) : String :=
  if input = "" then ""
  else
    replaceAll '\'' "&#39;" (replaceAll '"' "&quot;" (replaceAll '>' "&gt;"
      (replaceAll '<' "&lt;" (replaceAll '&' "&amp;" input))))

/-- The white space `trim` takes off. -/
def isWhiteSpace (c : Char) : Bool :=
  isJsSpace c || c.val == 0x1680 || (0x2000 ≤ c.val && c.val ≤ 0x200A) || c.val == 0x2028 ||
    c.val == 0x2029 || c.val == 0x202F || c.val == 0x205F || c.val == 0x3000

/-- `text.trim()`. -/
def trim (text : String) : String :=
  String.ofList ((text.toList.dropWhile isWhiteSpace).reverse.dropWhile isWhiteSpace).reverse

namespace ReminderEmailData

def timeLabel (data : ReminderEmailData) : String :=
  if data.offsetMinutes = 1440 then "24-hour" else "1-hour"

/-- The HTML before the date. -/
def htmlBefore (data : ReminderEmailData) : String :=
  "\n".intercalate
    ["",
     "    <div style=\"font-family: -apple-system, BlinkMacSystemFont, 'Segoe UI', Roboto, " ++
        "sans-serif; max-width: 600px; margin: 0 auto; padding: 20px;\">",
     "      <div style=\"background: linear-gradient(135deg, #6366f1, #4f46e5); padding: 30px; " ++
        "border-radius: 16px 16px 0 0; color: white;\">",
     "        <h1 style=\"margin: 0; font-size: 24px;\">Appointment Reminder</h1>",
     "        <p style=\"margin: 10px 0 0 0; opacity: 0.9;\">" ++ data.timeLabel ++ " notice</p>",
     "      </div>",
     "",
     "      <div style=\"background: #f8fafc; padding: 30px; border-radius: 0 0 16px 16px; " ++
        "border: 1px solid #e2e8f0;\">",
     "        <p style=\"font-size: 16px; margin-bottom: 20px;\">",
     "          Hi " ++ escapeHtml data.clientName ++ ",",
     "        </p>",
     "",
     "        <p style=\"font-size: 16px; margin-bottom: 20px;\">",
     "          This is a reminder for your upcoming appointment with",
     "          <strong>" ++ escapeHtml data.providerName ++ "</strong>.",
     "        </p>",
     "",
     "        <div style=\"background: white; border: 1px solid #e2e8f0; border-radius: 12px; " ++
        "padding: 20px; margin-bottom: 20px;\">",
     "          <table style=\"width: 100%; border-collapse: collapse;\">",
     "            <tr>",
     "              <td style=\"padding: 8px 0; color: #64748b; font-size: 14px;\">" ++
        "Date &amp; Time</td>",
     "              <td style=\"padding: 8px 0; font-size: 14px; font-weight: 600;\">"]

/-- The HTML after the date. -/
def htmlAfter (data : ReminderEmailData) : String :=
  "\n".intercalate
    ["</td>",
     "            </tr>",
     "            <tr>",
     "              <td style=\"padding: 8px 0; color: #64748b; font-size: 14px;\">Timezone</td>",
     "              <td style=\"padding: 8px 0; font-size: 14px;\">" ++
        escapeHtml data.clientTimezone ++ "</td>",
     "            </tr>",
     "            <tr>",
     "              <td style=\"padding: 8px 0; color: #64748b; font-size: 14px;\">Booking ID</td>",
     "              <td style=\"padding: 8px 0; font-size: 14px; font-family: monospace;\">" ++
        escapeHtml data.bookingId ++ "</td>",
     "            </tr>",
     "          </table>",
     "        </div>",
     "",
     "        <p style=\"font-size: 14px; color: #64748b; margin-bottom: 20px;\">",
     "          If you no longer need this appointment, please cancel at least 24 hours in advance.",
     "        </p>",
     "",
     "        <hr style=\"border: none; border-top: 1px solid #e2e8f0; margin: 20px 0;\" />",
     "",
     "        <p style=\"font-size: 12px; color: #94a3b8; margin-bottom: 10px;\">",
     "          <a href=\"" ++ escapeHtml data.unsubscribeUrl ++
        "\" style=\"color: #6366f1; text-decoration: underline;\">",
     "            Unsubscribe from appointment reminders",
     "          </a>",
     "        </p>",
     "",
     "        <p style=\"font-size: 11px; color: #94a3b8; margin: 0;\">",
     "          This is an automated reminder from Chronos. Please do not reply to this email.",
     "        </p>",
     "      </div>",
     "    </div>",
     "  "]

/-- The HTML around a date. -/
def html (data : ReminderEmailData) (dateTime : String) : String :=
  data.htmlBefore ++ dateTime ++ data.htmlAfter

/-- The plain text around a date. -/
def text (data : ReminderEmailData) (dateTime : String) : String :=
  trim ("\n".intercalate
    ["Reminder: Your appointment with " ++ data.providerName ++ " is in " ++ data.timeLabel,
     "",
     "Date & Time: " ++ dateTime,
     "Timezone: " ++ data.clientTimezone,
     "Booking ID: " ++ data.bookingId,
     "",
     "If you no longer need this appointment, please cancel at least 24 hours in advance.",
     "",
     "Unsubscribe: " ++ data.unsubscribeUrl,
     "",
     "This is an automated reminder from Chronos. Please do not reply to this email."])

/-- `renderReminderEmail` of `email.templates.ts`: the HTML and the plain text. -/
def renderReminderEmail (m : MailSettings) (data : ReminderEmailData) : String × String :=
  let dateTime := m.localeString .long data.clientTimezone data.appointmentDate
  (data.html dateTime, data.text dateTime)

end ReminderEmailData

/-! ### `ReminderWorker.renderReminderEmail` -/

/-- `EmailData`. -/
structure EmailData where
  «to» : String
  subject : String
  html : String
  text : String
  bookingId : BookingId
  clientId : ClientId
  clientTimezone : String
  deriving DecidableEq

/-- The subject of a reminder of an appointment with somebody. -/
def reminderSubject (providerName : String) (offsetMinutes : Nat) : String :=
  "Reminder: Appointment with " ++ providerName ++ " in " ++ toString offsetMinutes ++ " min"

/-- `provider?.name || 'Service Provider'`. -/
def shownProvider (provider : Option ProviderName) : String :=
  (truthy (provider.map ProviderName.name)).getD "Service Provider"

/-- The e-mail that names a provider and shows a date. -/
def reminderMail (m : MailSettings) (b : BookingRow) (client : MailClient) (email : String)
    (offsetMinutes : Nat) (providerName : String) (appointmentDate : JsField) : EmailData :=
  let rendered := ReminderEmailData.renderReminderEmail m {
    «to» := email
    clientName := (truthy (some client.name)).getD email
    providerName := providerName
    appointmentDate := appointmentDate
    appointmentTime := m.localeString .short b.booking.clientTimezone appointmentDate
    clientTimezone := b.booking.clientTimezone
    offsetMinutes := offsetMinutes
    bookingId := toString b.id
    unsubscribeUrl := (truthy m.publicUrl).getD "http://localhost:3001" ++
      "/unsubscribe/reminders?token=" ++ m.signToken client.id }
  { «to» := email
    subject := reminderSubject providerName offsetMinutes
    html := rendered.1
    text := rendered.2
    bookingId := b.id
    clientId := client.id
    clientTimezone := b.booking.clientTimezone }

/-- `ReminderWorker.renderReminderEmail`: the e-mail that is handed to the gateway. -/
def renderReminderMail (m : MailSettings) (clients : ClientId → Option MailClient)
    (providers : ProviderId → Option ProviderName) (b : BookingRow) (offsetMinutes : Nat) :
    Except JsError EmailData :=
  match clients b.booking.clientId with
  | none => .error (noEmail b.id)
  | some client =>
    match clientEmail (some client.client) with
    | none => .error (noEmail b.id)
    | some email =>
      let provider := selectProviderRow providers (b.property "providerId")
      .ok (reminderMail m b client email offsetMinutes (shownProvider provider)
        (b.property "slot_start_utc"))

/-! ### What the e-mail shows -/

section Mail

variable {m : MailSettings} {clients : ClientId → Option MailClient}
variable {providers : ProviderId → Option ProviderName} {b : BookingRow} {offsetMinutes : Nat}
variable {mail : EmailData}

/-- A row of `bookings` has no such property. -/
theorem property_providerId (b : BookingRow) : b.property "providerId" = .undefined := rfl

theorem property_slotStartUtc (b : BookingRow) : b.property "slot_start_utc" = .undefined := rfl

/-- No provider is found, and no date is valid. -/
theorem renderReminderMail_ok (h : renderReminderMail m clients providers b offsetMinutes = .ok mail) :
    ∃ client email, clients b.booking.clientId = some client ∧
      clientEmail (some client.client) = some email ∧
      mail = reminderMail m b client email offsetMinutes "Service Provider" .undefined := by
  unfold renderReminderMail at h
  cases hclient : clients b.booking.clientId with
  | none =>
    rw [hclient] at h
    cases h
  | some client =>
    rw [hclient] at h
    dsimp only at h
    cases hemail : clientEmail (some client.client) with
    | none =>
      rw [hemail] at h
      cases h
    | some email =>
      rw [hemail] at h
      have hmail := (Except.ok.inj h).symm
      rw [property_providerId, property_slotStartUtc] at hmail
      exact ⟨client, email, rfl, hemail, hmail⟩

/-- **An e-mail that tells the truth** about an appointment that starts at `start` with a provider
    of this name: it names the provider in its subject, in its HTML and in its text, and both show
    the start in the client's time zone. -/
structure EmailData.TellsTheTruth (m : MailSettings) (clients : ClientId → Option MailClient)
    (b : BookingRow) (offsetMinutes : Nat) (start : Instant) (providerName : String)
    (mail : EmailData) : Prop where
  subject : mail.subject = reminderSubject providerName offsetMinutes
  shows : ∀ client email, clients b.booking.clientId = some client →
    clientEmail (some client.client) = some email →
      mail.html = (reminderMail m b client email offsetMinutes providerName (.date start)).html ∧
      mail.text = (reminderMail m b client email offsetMinutes providerName (.date start)).text

theorem reminderSubject_injective {providerName providerName' : String}
    (h : reminderSubject providerName offsetMinutes = reminderSubject providerName' offsetMinutes) :
    providerName = providerName' := by
  unfold reminderSubject at h
  rw [String.append_left_inj, String.append_left_inj, String.append_left_inj,
    String.append_right_inj] at h
  exact h

/-- The dates of two e-mails with the same HTML, where all else is the same. -/
theorem html_injective {client : MailClient} {email providerName : String} {date date' : JsField}
    (h : (reminderMail m b client email offsetMinutes providerName date).html =
      (reminderMail m b client email offsetMinutes providerName date').html) :
    m.localeString .long b.booking.clientTimezone date =
      m.localeString .long b.booking.clientTimezone date' := by
  -- The HTML before the date and after it is the same.
  have hmid : ∀ {before shown shown' after : String}, before ++ shown ++ after = before ++ shown' ++ after →
      shown = shown' := by
    intro before shown shown' after h
    rw [String.append_left_inj, String.append_right_inj] at h
    exact h
  exact hmid h

/-- A valid date is not shown like an invalid one. -/
theorem localeString_date_ne (hm : m.ShowsHours) (format : DateFormat) (timeZone : String)
    (t : Instant) : m.localeString format timeZone .undefined ≠
      m.localeString format timeZone (.date t) := by
  intro heq
  have hinvalid : "Invalid Date" = m.toLocaleString format timeZone t := heq
  obtain ⟨c, hc, hdigit⟩ := hm format timeZone t
  rw [← hinvalid] at hc
  have hnone : ("Invalid Date".toList.all fun c => !c.isDigit) = true := by decide +kernel
  have hno := List.all_eq_true.mp hnone c hc
  rw [hdigit] at hno
  cases hno

/-- **No reminder e-mail tells the truth.** -/
theorem reminder_mail_untrue (hm : m.ShowsHours)
    (h : renderReminderMail m clients providers b offsetMinutes = .ok mail) (start : Instant)
    (providerName : String) : ¬ mail.TellsTheTruth m clients b offsetMinutes start providerName := by
  obtain ⟨client, email, hclient, hemail, rfl⟩ := renderReminderMail_ok h
  intro htrue
  obtain rfl := reminderSubject_injective htrue.subject
  obtain ⟨hhtml, -⟩ := htrue.shows client email hclient hemail
  exact localeString_date_ne hm _ _ start (html_injective hhtml)

/-- The worker's program sends this e-mail to its receiver, and looks up no provider. -/
theorem outcome_renderReminderEmail (cat : Catalog) {env : Env Nat JsError Ask.Answer}
    (hf : env.fault = none) (hclient : env.answer (.selectClient b.booking.clientId) =
      .ok ((clients b.booking.clientId).map MailClient.client)) (d : Database) :
    (renderReminderEmail b.id b.booking).outcome (chronos cat) env (.free d) =
      ((renderReminderMail m clients providers b offsetMinutes).map EmailData.to, .free d) := by
  show ((ofExcept (env.answer (.selectClient b.booking.clientId))).bind _).outcome (chronos cat) env
    (.free d) = _
  rw [hclient]
  unfold renderReminderMail
  cases clients b.booking.clientId with
  | none => rfl
  | some client =>
    show ((ofExcept (.ok (some client.client))).bind _).outcome (chronos cat) env (.free d) = _
    simp only [ofExcept, Prog.bind, andThen]
    cases clientEmail (some client.client) with
    | none => rfl
    | some email => exact outcome_read hf rfl

/-! #### One e-mail -/

/-- Four in the morning of Monday, January 5, 1970. -/
def sampleSettings : MailSettings where
  toLocaleString
    | .short, _, _ => "Monday, Jan 5 at 04:00 AM"
    | .long, _, _ => "Monday, January 5, 1970 at 04:00 AM"
  parseDate _ := none
  signToken _ := "token"
  publicUrl := none

theorem showsHours_sampleSettings : sampleSettings.ShowsHours := by
  intro format timeZone t
  cases format with
  | short =>
    have hshown : '5' ∈ "Monday, Jan 5 at 04:00 AM".toList := by decide +kernel
    exact ⟨'5', hshown, by decide⟩
  | long =>
    have hshown : '5' ∈ "Monday, January 5, 1970 at 04:00 AM".toList := by decide +kernel
    exact ⟨'5', hshown, by decide⟩

/-- Booking `1` of slot `1`, whose provider is called Ada. -/
def sampleBookingRow : BookingRow := ⟨1, sampleBooking .booked 1, 0, none⟩

def sampleClients : ClientId → Option MailClient :=
  fun _ => some ⟨5, ⟨some "client@example.org", false⟩, "Grace"⟩

def sampleProviders : ProviderId → Option ProviderName := fun _ => some ⟨"Ada"⟩

/-- The reminder of an appointment with Ada announces one with a service provider. -/
theorem reminder_mail_wrong : ∃ mail,
    renderReminderMail sampleSettings sampleClients sampleProviders sampleBookingRow 60 = .ok mail ∧
      mail.subject = "Reminder: Appointment with Service Provider in 60 min" ∧
      ¬ mail.TellsTheTruth sampleSettings sampleClients sampleBookingRow 60 (hoursMs 100) "Ada" := by
  refine ⟨_, rfl, by decide +kernel, fun htrue => ?_⟩
  have hname : "Service Provider" = "Ada" := reminderSubject_injective htrue.subject
  exact absurd hname (by decide)

theorem reminder_mail_untrue_sample : ∃ mail,
    renderReminderMail sampleSettings sampleClients sampleProviders sampleBookingRow 60 = .ok mail ∧
      ¬ mail.TellsTheTruth sampleSettings sampleClients sampleBookingRow 60 (hoursMs 100) "Ada" := by
  have hrendered : ∃ mail,
      renderReminderMail sampleSettings sampleClients sampleProviders sampleBookingRow 60 = .ok mail :=
    ⟨_, rfl⟩
  obtain ⟨mail, hmail⟩ := hrendered
  exact ⟨mail, hmail, reminder_mail_untrue showsHours_sampleSettings hmail (hoursMs 100) "Ada"⟩

end Mail

end Chronos
