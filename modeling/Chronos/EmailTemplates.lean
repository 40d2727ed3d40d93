import Chronos.ReminderMail
import Chronos.Text.Entities

namespace Chronos

open Text

/-!
# The templates of the e-mails

`renderReminderEmail` stands beside the worker that calls it; here are the two other templates of
`email.templates.ts`, and what a user can do with the texts they show.

* `htmlEntities` — `escapeHtml` replaces characters one after the other, and that is one escape by
  these entities (`toList_escapeHtml`).
* `escapeHtml_faithful` — an escaped text is read back as it was written.
* `markup` — the characters of a text that open or close a tag or an attribute.
* `markup_noninterference` — two e-mails of one template have the same markup.
-/

/-! ### `escapeHtml` -/

/-- The replacements of `escapeHtml`, in their order. -/
def htmlTable : List (Char × List Char) :=
  [('&', "&amp;".toList), ('<', "&lt;".toList), ('>', "&gt;".toList), ('"', "&quot;".toList),
    ('\'', "&#39;".toList)]

def htmlEntities : Entities Char where
  table := htmlTable
  mark := '&'
  marked := by
    have hall : ∀ p ∈ htmlTable, p.2 = '&' :: p.2.tail ∧ '&' ∉ p.2.tail := by decide +kernel
    exact fun p hp => ⟨p.2.tail, hall p hp⟩
  mark_mem := by decide +kernel
  told := by decide +kernel

/-- No entity holds a character that is replaced after it. -/
theorem htmlTable_ordered : htmlTable.Pairwise fun p q => q.1 ∉ p.2 := by decide +kernel

theorem toList_replaceAll (c : Char) (replacement text : String) :
    (replaceAll c replacement text).toList = substitute c replacement.toList text.toList := by
  unfold replaceAll
  rw [String.toList_ofList]
  rfl

/-- The five replacements are one. -/
theorem toList_escapeHtml (input : String) :
    (escapeHtml input).toList = escape htmlTable input.toList := by
  rw [← substituteEach_eq_escape htmlTable_ordered]
  unfold escapeHtml
  by_cases hempty : input = ""
  · -- An empty text is answered before any replacement.
    rw [if_pos hempty, hempty]
    decide +kernel
  · rw [if_neg hempty]
    simp only [toList_replaceAll, substituteEach, htmlTable, List.foldl_cons, List.foldl_nil]

/-- One pass from left to right that replaces the five entities by their characters. -/
def decodeEntities (text : String) : String := String.ofList (unescape htmlTable text.toList)

theorem decodeEntities_escapeHtml (s : String) : decodeEntities (escapeHtml s) = s := by
  unfold decodeEntities
  rw [toList_escapeHtml]
  have hread : unescape htmlTable (escape htmlTable s.toList) = s.toList :=
    htmlEntities.unescape_escape s.toList
  rw [hread, String.ofList_toList]

theorem escapeHtml_append (s t : String) : escapeHtml (s ++ t) = escapeHtml s ++ escapeHtml t := by
  apply String.toList_inj.mp
  simp only [toList_escapeHtml, String.toList_append, escape_append]

/-- The five entities. -/
def entityNames : List String := ["&amp;", "&lt;", "&gt;", "&quot;", "&#39;"]

/-- Every `&` of an escaped text starts an entity. -/
theorem ampersand_starts {s : String} {before after : List Char}
    (h : (escapeHtml s).toList = before ++ '&' :: after) :
    ∃ entity ∈ entityNames, entity.toList <+: '&' :: after := by
  rw [toList_escapeHtml] at h
  obtain ⟨p, hp, hbegins⟩ := htmlEntities.mark_starts h
  have hnames : ∀ p ∈ htmlTable, ∃ entity ∈ entityNames, entity.toList = p.2 := by decide +kernel
  obtain ⟨entity, hentity, hword⟩ := hnames p hp
  exact ⟨entity, hentity, hword ▸ hbegins⟩

/-- **`escapeHtml` is faithful.** -/
theorem escapeHtml_faithful :
    (∀ s, decodeEntities (escapeHtml s) = s) ∧
    Function.Injective escapeHtml ∧
    (∀ s before after, (escapeHtml s).toList = before ++ '&' :: after →
      ∃ entity ∈ entityNames, entity.toList <+: '&' :: after) ∧
    ∀ s t, escapeHtml (s ++ t) = escapeHtml s ++ escapeHtml t := by
  refine ⟨decodeEntities_escapeHtml, ?_, fun s before after h => ampersand_starts h,
    escapeHtml_append⟩
  intro s t h
  rw [← decodeEntities_escapeHtml s, h, decodeEntities_escapeHtml]

example : escapeHtml "a < b && 'c'" = "a &lt; b &amp;&amp; &#39;c&#39;" := by decide +kernel

/-! ### The other two templates -/

structure CancellationEmailData where
  providerName : String
  appointmentDate : JsField
  clientTimezone : String
  bookingId : String

namespace CancellationEmailData

/-- The HTML around a date, which it shows twice. -/
def html (data : CancellationEmailData) (dateTime : String) : String :=
  "\n".intercalate
    ["",
     "    <div style=\"font-family: -apple-system, BlinkMacSystemFont, 'Segoe UI', Roboto, " ++
        "sans-serif; max-width: 600px; margin: 0 auto; padding: 20px;\">",
     "      <div style=\"background: linear-gradient(135deg, #ef4444, #dc2626); padding: " ++
        "30px; border-radius: 16px 16px 0 0; color: white;\">",
     "        <h1 style=\"margin: 0; font-size: 24px;\">Appointment Cancelled</h1>",
     "        <p style=\"margin: 10px 0 0 0; opacity: 0.9;\">Your appointment has been " ++
        "cancelled</p>",
     "      </div>",
     "",
     "      <div style=\"background: #f8fafc; padding: 30px; border-radius: 0 0 16px 16px; " ++
        "border: 1px solid #e2e8f0;\">",
     "        <p style=\"font-size: 16px; margin-bottom: 20px;\">",
     "          Hi, your appointment with <strong>" ++ escapeHtml data.providerName ++
        "</strong> on <strong>" ++ dateTime ++ "</strong> has been cancelled.",
     "        </p>",
     "",
     "        <div style=\"background: white; border: 1px solid #e2e8f0; border-radius: " ++
        "12px; padding: 20px; margin-bottom: 20px;\">",
     "          <table style=\"width: 100%; border-collapse: collapse;\">",
     "            <tr>",
     "              <td style=\"padding: 8px 0; color: #64748b; font-size: 14px;\">Date " ++
        "&amp; Time</td>",
     "              <td style=\"padding: 8px 0; font-size: 14px;\">" ++ dateTime ++ "</td>",
     "            </tr>",
     "            <tr>",
     "              <td style=\"padding: 8px 0; color: #64748b; font-size: 14px;\">Booking " ++
        "ID</td>",
     "              <td style=\"padding: 8px 0; font-size: 14px; font-family: monospace;\">" ++
        escapeHtml data.bookingId ++ "</td>",
     "            </tr>",
     "          </table>",
     "        </div>",
     "",
     "        <p style=\"font-size: 14px; color: #64748b;\">",
     "          If this was a mistake, you can reschedule your appointment.",
     "        </p>",
     "      </div>",
     "    </div>",
     "  "]

def text (data : CancellationEmailData) (dateTime : String) : String :=
  trim ("\n".intercalate
    ["Appointment Cancelled: Your appointment with " ++ data.providerName ++ " on " ++ dateTime ++
        " has been cancelled.",
     "",
     "Booking ID: " ++ data.bookingId,
     "",
     "If this was a mistake, you can reschedule your appointment."])

/-- `renderCancellationEmail`: the HTML and the plain text. -/
def renderCancellationEmail (m : MailSettings) (data : CancellationEmailData) : String × String :=
  let dateTime := m.localeString .long data.clientTimezone data.appointmentDate
  (data.html dateTime, data.text dateTime)

end CancellationEmailData

structure ConfirmationEmailData where
  clientName : String
  providerName : String
  appointmentDate : JsField
  clientTimezone : String
  bookingId : String

namespace ConfirmationEmailData

/-- The HTML around a date. -/
def html (data : ConfirmationEmailData) (dateTime : String) : String :=
  "\n".intercalate
    ["",
     "    <div style=\"font-family: -apple-system, BlinkMacSystemFont, 'Segoe UI', Roboto, " ++
        "sans-serif; max-width: 600px; margin: 0 auto; padding: 20px;\">",
     "      <div style=\"background: linear-gradient(135deg, #10b981, #059669); padding: " ++
        "30px; border-radius: 16px 16px 0 0; color: white;\">",
     "        <h1 style=\"margin: 0; font-size: 24px;\">Appointment Confirmed ✓</h1>",
     "        <p style=\"margin: 10px 0 0 0; opacity: 0.9;\">Your appointment is scheduled</p>",
     "      </div>",
     "",
     "      <div style=\"background: #f8fafc; padding: 30px; border-radius: 0 0 16px 16px; " ++
        "border: 1px solid #e2e8f0;\">",
     "        <p style=\"font-size: 16px; margin-bottom: 20px;\">",
     "          Hi " ++ escapeHtml data.clientName ++ ", your appointment with <strong>" ++
        escapeHtml data.providerName ++ "</strong> is confirmed.",
     "        </p>",
     "",
     "        <div style=\"background: white; border: 1px solid #e2e8f0; border-radius: " ++
        "12px; padding: 20px; margin-bottom: 20px;\">",
     "          <table style=\"width: 100%; border-collapse: collapse;\">",
     "            <tr>",
     "              <td style=\"padding: 8px 0; color: #64748b; font-size: 14px;\">Date " ++
        "&amp; Time</td>",
     "              <td style=\"padding: 8px 0; font-size: 14px; font-weight: 600;\">" ++
        dateTime ++ "</td>",
     "            </tr>",
     "            <tr>",
     "              <td style=\"padding: 8px 0; color: #64748b; font-size: 14px;\">Timezone</td>",
     "              <td style=\"padding: 8px 0; font-size: 14px;\">" ++
        escapeHtml data.clientTimezone ++ "</td>",
     "            </tr>",
     "            <tr>",
     "              <td style=\"padding: 8px 0; color: #64748b; font-size: 14px;\">Booking " ++
        "ID</td>",
     "              <td style=\"padding: 8px 0; font-size: 14px; font-family: monospace;\">" ++
        escapeHtml data.bookingId ++ "</td>",
     "            </tr>",
     "          </table>",
     "        </div>",
     "",
     "        <p style=\"font-size: 14px; color: #64748b;\">",
     "          You'll receive a reminder 1 hour before your appointment.",
     "        </p>",
     "      </div>",
     "    </div>",
     "  "]

def text (data : ConfirmationEmailData) (dateTime : String) : String :=
  trim ("\n".intercalate
    ["Appointment Confirmed: Your appointment with " ++ data.providerName ++ " on " ++ dateTime ++
        " is confirmed.",
     "",
     "Booking ID: " ++ data.bookingId,
     "Timezone: " ++ data.clientTimezone,
     "",
     "You'll receive a reminder 1 hour before your appointment."])

/-- `renderConfirmationEmail`: the HTML and the plain text. -/
def renderConfirmationEmail (m : MailSettings) (data : ConfirmationEmailData) : String × String :=
  let dateTime := m.localeString .long data.clientTimezone data.appointmentDate
  (data.html dateTime, data.text dateTime)

end ConfirmationEmailData

/-! ### Markup -/

/-- The characters that open or close a tag or an attribute. -/
def markupChars : List Char := ['<', '>', '"', '\'']

/-- The markup of a text: these characters, in their order. -/
def markup (text : String) : List Char := text.toList.filter fun c => decide (c ∈ markupChars)

theorem markup_append (s t : String) : markup (s ++ t) = markup s ++ markup t := by
  unfold markup
  rw [String.toList_append, List.filter_append]

/-- Lines are joined without markup. -/
theorem markup_intercalate (lines : List String) :
    markup ("\n".intercalate lines) = (lines.map markup).flatten := by
  have hnewline : markup "\n" = [] := by decide +kernel
  induction lines with
  | nil => decide +kernel
  | cons line lines ih =>
    cases lines with
    | nil => simp [String.intercalate_singleton]
    | cons line' lines =>
      rw [String.intercalate_cons_cons, markup_append, markup_append, hnewline, ih]
      simp

theorem markup_eq_nil {text : String} (h : ∀ c ∈ text.toList, c ∉ markupChars) : markup text = [] := by
  unfold markup
  rw [List.filter_eq_nil_iff]
  intro c hc
  simpa using h c hc

/-- An escaped text has no markup. -/
theorem markup_escapeHtml (s : String) : markup (escapeHtml s) = [] := by
  apply markup_eq_nil
  intro c hc hmarkup
  rw [toList_escapeHtml] at hc
  have hreplaced : (markupChars.all fun c => decide (c ∈ htmlTable.map Prod.fst)) = true := by
    decide +kernel
  have hwords : (htmlTable.all fun p => markupChars.all fun c => decide (c ∉ p.2)) = true := by
    decide +kernel
  -- What is in the output was kept, so it is no markup, or it lies in an entity.
  rcases mem_escape hc with hkept | ⟨p, hp, hword⟩
  · exact hkept (of_decide_eq_true (List.all_eq_true.mp hreplaced c hmarkup))
  · have hfree := List.all_eq_true.mp (List.all_eq_true.mp hwords p hp) c hmarkup
    exact of_decide_eq_true hfree hword

/-- Formatted dates have no markup. -/
def MailSettings.PlainDates (m : MailSettings) : Prop :=
  ∀ format timeZone t, ∀ c ∈ (m.toLocaleString format timeZone t).toList, c ∉ markupChars

theorem markup_localeString {m : MailSettings} (hm : m.PlainDates) (format : DateFormat)
    (timeZone : String) (value : JsField) : markup (m.localeString format timeZone value) = [] := by
  unfold MailSettings.localeString
  cases m.newDate value with
  | none =>
    show markup "Invalid Date" = []
    decide +kernel
  | some t => exact markup_eq_nil (hm format timeZone t)

theorem markup_timeLabel (data : ReminderEmailData) : markup data.timeLabel = [] := by
  unfold ReminderEmailData.timeLabel
  split
  · decide +kernel
  · decide +kernel

section Templates

variable {m : MailSettings}

theorem markup_renderReminderEmail (hm : m.PlainDates) (data data' : ReminderEmailData) :
    markup (data.renderReminderEmail m).1 = markup (data'.renderReminderEmail m).1 := by
  have hbefore : markup data.htmlBefore = markup data'.htmlBefore := by
    unfold ReminderEmailData.htmlBefore
    simp only [markup_intercalate, List.map_cons, markup_append, markup_escapeHtml, markup_timeLabel]
  have hafter : markup data.htmlAfter = markup data'.htmlAfter := by
    unfold ReminderEmailData.htmlAfter
    simp only [markup_intercalate, List.map_cons, markup_append, markup_escapeHtml]
  show markup (data.html _) = markup (data'.html _)
  unfold ReminderEmailData.html
  simp only [markup_append, markup_localeString hm, hbefore, hafter]

theorem markup_renderCancellationEmail (hm : m.PlainDates) (data data' : CancellationEmailData) :
    markup (data.renderCancellationEmail m).1 = markup (data'.renderCancellationEmail m).1 := by
  show markup (data.html _) = markup (data'.html _)
  unfold CancellationEmailData.html
  simp only [markup_intercalate, List.map_cons, markup_append, markup_escapeHtml,
    markup_localeString hm]

theorem markup_renderConfirmationEmail (hm : m.PlainDates) (data data' : ConfirmationEmailData) :
    markup (data.renderConfirmationEmail m).1 = markup (data'.renderConfirmationEmail m).1 := by
  show markup (data.html _) = markup (data'.html _)
  unfold ConfirmationEmailData.html
  simp only [markup_intercalate, List.map_cons, markup_append, markup_escapeHtml,
    markup_localeString hm]

/-- **User data changes no markup**: two e-mails of one template have the same. -/
theorem markup_noninterference (hm : m.PlainDates) :
    (∀ data data' : ReminderEmailData,
      markup (data.renderReminderEmail m).1 = markup (data'.renderReminderEmail m).1) ∧
    (∀ data data' : CancellationEmailData,
      markup (data.renderCancellationEmail m).1 = markup (data'.renderCancellationEmail m).1) ∧
    ∀ data data' : ConfirmationEmailData,
      markup (data.renderConfirmationEmail m).1 = markup (data'.renderConfirmationEmail m).1 :=
  ⟨markup_renderReminderEmail hm, markup_renderCancellationEmail hm,
    markup_renderConfirmationEmail hm⟩

end Templates

theorem plainDates_sampleSettings : sampleSettings.PlainDates := by
  have hshort : ("Monday, Jan 5 at 04:00 AM".toList.all fun c => decide (c ∉ markupChars)) = true := by
    decide +kernel
  have hlong : ("Monday, January 5, 1970 at 04:00 AM".toList.all fun c =>
      decide (c ∉ markupChars)) = true := by decide +kernel
  intro format timeZone t c hc
  cases format with
  | short => simpa using List.all_eq_true.mp hshort c hc
  | long => simpa using List.all_eq_true.mp hlong c hc

/-- A name that is a tag, and one that is none. -/
def sampleReminders : ReminderEmailData × ReminderEmailData :=
  (⟨"client@example.org", "<script>", "\"Ada\"", .number 0, "", "Europe/Berlin", 1440, "'1'", "#"⟩,
    ⟨"client@example.org", "Grace", "Ada", .undefined, "", "UTC", 60, "1", "/\" onclick=\""⟩)

theorem markup_noninterference_sample :
    markup (sampleReminders.1.renderReminderEmail sampleSettings).1 =
      markup (sampleReminders.2.renderReminderEmail sampleSettings).1 :=
  (markup_noninterference plainDates_sampleSettings).1 _ _

end Chronos
