import Chronos.EmailTemplates
import Chronos.OptOut
import Chronos.Text.Search

namespace Chronos

open Text

/-!
# The link in a reminder

`ReminderWorker.renderReminderEmail` signs a token for the client, puts it into an address and this into
the e-mail; whoever follows the link sends the token back to `UnsubscribeController`.

* `firstLink`, `tokenParam` — a mail program reads the first link of an e-mail, and the server the
  token of an address.
* `firstLink_html` — names of clients, providers and time zones do not hide the link.
* `unsubscribe_link_works` — for seven days the link opts out the client who got the e-mail, and nobody
  else.
-/

/-! ### Mail program and server -/

/-- The address of the first link. -/
def firstLink (html : String) : Option String :=
  (afterFirst "<a href=\"".toList html.toList).map fun rest =>
    decodeEntities (String.ofList (rest.takeWhile fun c => decide (c ≠ '"')))

/-- `req.query.token`; `decode` undoes percent-encoding. -/
def tokenParam (decode : List Char → List Char) (url : String) : Option String :=
  let address := url.toList.takeWhile fun c => decide (c ≠ '#')
  let query := (address.dropWhile fun c => decide (c ≠ '?')).drop 1
  (query.splitOn '&').findSome? fun param =>
    if param.takeWhile (fun c => decide (c ≠ '=')) = "token".toList then
      some (String.ofList (decode ((param.dropWhile fun c => decide (c ≠ '=')).drop 1)))
    else none

/-- The characters of a token. -/
def tokenAlphabet : List Char := '.' :: urlAlphabet

/-! ### The link in the HTML -/

/-- Nothing in a text begins a link. -/
def Linkless (text : String) : Prop := clear '<' 'a' text.toList = true

theorem Linkless.append {s t : String} (hs : Linkless s) (ht : Linkless t) : Linkless (s ++ t) := by
  unfold Linkless
  rw [String.toList_append]
  exact clear_append hs ht

/-- A literal is the list of its characters, and this is what is checked. -/
theorem linkless_ofList {text : List Char} (h : clear '<' 'a' text = true) :
    Linkless (String.ofList text) := by
  unfold Linkless
  rw [String.toList_ofList]
  exact h

theorem linkless_escapeHtml (s : String) : Linkless (escapeHtml s) := by
  refine clear_of_notMem fun h => ?_
  have hmarkup : '<' ∈ markup (escapeHtml s) :=
    List.mem_filter.mpr ⟨h, by decide⟩
  rw [markup_escapeHtml] at hmarkup
  cases hmarkup

/-- Lines without links, joined. -/
theorem linkless_intercalate {lines : List String} (h : ∀ line ∈ lines, Linkless line) :
    Linkless ("\n".intercalate lines) := by
  induction lines with
  | nil => rfl
  | cons line lines ih =>
    obtain ⟨hline, hlines⟩ := List.forall_mem_cons.mp h
    cases lines with
    | nil =>
      rw [String.intercalate_singleton]
      exact hline
    | cons line' lines =>
      have hnewline : Linkless "\n" := linkless_ofList rfl
      rw [String.intercalate_cons_cons]
      exact (hline.append hnewline).append (ih hlines)

/-- A line is cut in two. -/
theorem intercalate_cut (lines rest : List String) (s t : String) :
    ∃ tail, "\n".intercalate (lines ++ (s ++ t) :: rest) =
      "\n".intercalate (lines ++ [s]) ++ (t ++ tail) := by
  induction lines with
  | nil =>
    cases rest with
    | nil => exact ⟨"", by simp⟩
    | cons line rest => exact ⟨"\n" ++ "\n".intercalate (line :: rest), by simp [String.append_assoc]⟩
  | cons line lines ih =>
    obtain ⟨tail, htail⟩ := ih
    refine ⟨tail, ?_⟩
    rw [List.cons_append, List.cons_append, String.intercalate_cons_of_ne_nil (by simp),
      String.intercalate_cons_of_ne_nil (by simp), htail, String.append_assoc, String.append_assoc,
      String.append_assoc]

namespace ReminderEmailData

variable (data : ReminderEmailData)

theorem linkless_timeLabel : Linkless data.timeLabel := by
  unfold timeLabel
  split <;> exact linkless_ofList rfl

set_option maxRecDepth 2000 in
theorem linkless_htmlBefore : Linkless data.htmlBefore := by
  unfold htmlBefore
  refine linkless_intercalate ?_
  simp only [List.forall_mem_cons]
  exact
    ⟨linkless_ofList rfl,
      (linkless_ofList rfl).append (linkless_ofList rfl),
      (linkless_ofList rfl).append (linkless_ofList rfl),
      linkless_ofList rfl,
      ((linkless_ofList rfl).append data.linkless_timeLabel).append (linkless_ofList rfl),
      linkless_ofList rfl, linkless_ofList rfl,
      (linkless_ofList rfl).append (linkless_ofList rfl),
      linkless_ofList rfl,
      ((linkless_ofList rfl).append (linkless_escapeHtml _)).append (linkless_ofList rfl),
      linkless_ofList rfl, linkless_ofList rfl, linkless_ofList rfl, linkless_ofList rfl,
      ((linkless_ofList rfl).append (linkless_escapeHtml _)).append (linkless_ofList rfl),
      linkless_ofList rfl, linkless_ofList rfl,
      (linkless_ofList rfl).append (linkless_ofList rfl),
      linkless_ofList rfl, linkless_ofList rfl,
      (linkless_ofList rfl).append (linkless_ofList rfl),
      linkless_ofList rfl, fun _ h => nomatch h⟩

set_option maxRecDepth 2000 in
/-- The HTML after the date, cut where the link begins. -/
theorem htmlAfter_lines : ∃ lines rest style, (∀ line ∈ lines, Linkless line) ∧
    data.htmlAfter = "\n".intercalate (lines ++
      ("          " ++ ("<a href=\"" ++ (escapeHtml data.unsubscribeUrl ++ ("\"" ++ style)))) :: rest) := by
  have hopen : "          <a href=\"" = "          " ++ "<a href=\"" := by decide +kernel
  have hclose : "\" style=\"color: #6366f1; text-decoration: underline;\">" =
      "\"" ++ " style=\"color: #6366f1; text-decoration: underline;\">" := by decide +kernel
  have hline : "          <a href=\"" ++ escapeHtml data.unsubscribeUrl ++
        "\" style=\"color: #6366f1; text-decoration: underline;\">" =
      "          " ++ ("<a href=\"" ++ (escapeHtml data.unsubscribeUrl ++
        ("\"" ++ " style=\"color: #6366f1; text-decoration: underline;\">"))) := by
    rw [hopen, hclose, String.append_assoc, String.append_assoc]
  unfold htmlAfter
  rw [hline]
  -- Twenty lines stand before the link; two of them have a field.
  refine ⟨[_, _, _, _, _, _, _, _, _, _, _, _, _, _, _, _, _, _, _, _], _, _, ?_, rfl⟩
  simp only [List.forall_mem_cons]
  exact
    ⟨linkless_ofList rfl, linkless_ofList rfl, linkless_ofList rfl, linkless_ofList rfl,
      ((linkless_ofList rfl).append (linkless_escapeHtml _)).append (linkless_ofList rfl),
      linkless_ofList rfl, linkless_ofList rfl, linkless_ofList rfl,
      ((linkless_ofList rfl).append (linkless_escapeHtml _)).append (linkless_ofList rfl),
      linkless_ofList rfl, linkless_ofList rfl, linkless_ofList rfl, linkless_ofList rfl,
      linkless_ofList rfl, linkless_ofList rfl, linkless_ofList rfl, linkless_ofList rfl,
      linkless_ofList rfl, linkless_ofList rfl, linkless_ofList rfl, fun _ h => nomatch h⟩

/-- **The first link** is the one to unsubscribe. -/
theorem firstLink_html {dateTime : String} (hdate : Linkless dateTime) :
    firstLink (data.html dateTime) = some data.unsubscribeUrl := by
  obtain ⟨lines, rest, style, hlines, hafter⟩ := data.htmlAfter_lines
  obtain ⟨tail, htail⟩ := intercalate_cut lines rest "          "
    ("<a href=\"" ++ (escapeHtml data.unsubscribeUrl ++ ("\"" ++ style)))
  have hbefore : Linkless
      (data.htmlBefore ++ dateTime ++ "\n".intercalate (lines ++ ["          "])) := by
    refine (data.linkless_htmlBefore.append hdate).append (linkless_intercalate ?_)
    intro line hline
    rcases List.mem_append.mp hline with hline | hline
    · exact hlines line hline
    · rw [List.mem_singleton.mp hline]
      exact linkless_ofList rfl
  have hword : "<a href=\"".toList = '<' :: 'a' :: " href=\"".toList := by decide +kernel
  have hquote : "\"".toList = ['"'] := by decide +kernel
  have hhtml : (data.html dateTime).toList =
      (data.htmlBefore ++ dateTime ++ "\n".intercalate (lines ++ ["          "])).toList ++
        ('<' :: 'a' :: " href=\"".toList ++
          ((escapeHtml data.unsubscribeUrl).toList ++ '"' :: (style ++ tail).toList)) := by
    unfold html
    rw [hafter, htail, ← hword]
    simp only [String.toList_append, List.append_assoc, hquote]
    rfl
  -- The address ends at the first quote, and an escaped text has none.
  have hnone : ∀ x ∈ (escapeHtml data.unsubscribeUrl).toList, decide (x ≠ '"') = true := by
    intro x hx
    refine decide_eq_true fun hquote => ?_
    have hmarkup : x ∈ markup (escapeHtml data.unsubscribeUrl) :=
      List.mem_filter.mpr ⟨hx, by rw [hquote]; decide⟩
    rw [markup_escapeHtml] at hmarkup
    cases hmarkup
  unfold firstLink
  rw [hhtml, hword, afterFirst_clear hbefore, Option.map_some, List.takeWhile_append_of_pos hnone,
    List.takeWhile_cons_of_neg (by decide), List.append_nil, String.ofList_toList,
    decodeEntities_escapeHtml]

end ReminderEmailData

/-! ### The token in the address -/

theorem mem_signToken {c : TokenSettings} {call : SignCall} {x : Char}
    (h : x ∈ (signToken c call).toList) : x ∈ tokenAlphabet := by
  unfold signToken at h
  rw [String.toList_ofList] at h
  rcases List.mem_append.mp h with hpayload | hrest
  · exact List.mem_cons_of_mem _ (mem_toBase64Url hpayload)
  · rcases List.mem_cons.mp hrest with rfl | hsig
    · exact List.mem_cons_self
    · exact List.mem_cons_of_mem _ (mem_toBase64Url hsig)

/-- Nothing in the address of the site begins a query or a fragment. -/
def MailSettings.PlainUrl (m : MailSettings) : Prop :=
  ∀ x ∈ ((truthy m.publicUrl).getD "http://localhost:3001").toList, x ≠ '?' ∧ x ≠ '#'

/-- Nothing in a token is encoded. -/
def KeepsTokens (decode : List Char → List Char) : Prop :=
  ∀ text, (∀ x ∈ text, x ∈ tokenAlphabet) → decode text = text

/-- The server reads the token that was put into the address. -/
theorem tokenParam_address {decode : List Char → List Char} (hdecode : KeepsTokens decode)
    {site token : String} (hsite : ∀ x ∈ site.toList, x ≠ '?' ∧ x ≠ '#')
    (htoken : ∀ x ∈ token.toList, x ∈ tokenAlphabet) :
    tokenParam decode (site ++ "/unsubscribe/reminders?token=" ++ token) = some token := by
  have hpath : "/unsubscribe/reminders?token=".toList =
      "/unsubscribe/reminders".toList ++ '?' :: ("token".toList ++ ['=']) := by decide +kernel
  have hplainPath : ("/unsubscribe/reminders".toList.all fun x => decide (x ≠ '?' ∧ x ≠ '#')) = true := by
    decide +kernel
  have hplainName : ("token".toList.all fun x => decide (x ≠ '&' ∧ x ≠ '#' ∧ x ≠ '=')) = true := by
    decide +kernel
  have halphabet : (tokenAlphabet.all fun x => decide (x ≠ '&' ∧ x ≠ '#')) = true := by decide +kernel
  simp only [List.all_eq_true, decide_eq_true_eq] at hplainPath hplainName halphabet
  have haddress : (site ++ "/unsubscribe/reminders?token=" ++ token).toList =
      (site.toList ++ "/unsubscribe/reminders".toList) ++
        '?' :: ("token".toList ++ '=' :: token.toList) := by
    rw [String.toList_append, String.toList_append, hpath]
    simp only [List.append_assoc, List.cons_append, List.nil_append]
  -- There is no fragment, and one parameter.
  have hfragment : (site ++ "/unsubscribe/reminders?token=" ++ token).toList.takeWhile
      (fun x => decide (x ≠ '#')) = (site ++ "/unsubscribe/reminders?token=" ++ token).toList := by
    rw [List.takeWhile_eq_self_iff, haddress]
    intro x hx
    simp only [List.mem_append, List.mem_cons] at hx
    rcases hx with (hx | hx) | rfl | hx | rfl | hx
    · exact decide_eq_true (hsite x hx).2
    · exact decide_eq_true (hplainPath x hx).2
    · decide
    · exact decide_eq_true (hplainName x hx).2.1
    · decide
    · exact decide_eq_true (halphabet x (htoken x hx)).2
  have hbefore : ∀ x ∈ site.toList ++ "/unsubscribe/reminders".toList, decide (x ≠ '?') = true := by
    intro x hx
    rcases List.mem_append.mp hx with hx | hx
    · exact decide_eq_true (hsite x hx).1
    · exact decide_eq_true (hplainPath x hx).1
  have hparam : '&' ∉ "token".toList ++ '=' :: token.toList := by
    intro h
    rcases List.mem_append.mp h with h | h
    · exact (hplainName _ h).1 rfl
    · rcases List.mem_cons.mp h with h | h
      · exact absurd h (by decide)
      · exact (halphabet _ (htoken _ h)).1 rfl
  have hname : ∀ x ∈ "token".toList, decide (x ≠ '=') = true :=
    fun x hx => decide_eq_true (hplainName x hx).2.2
  unfold tokenParam
  rw [hfragment, haddress]
  dsimp only
  rw [List.dropWhile_append_of_pos hbefore, List.dropWhile_cons_of_neg (by decide), List.drop_one,
    List.tail_cons, List.splitOn_eq_singleton hparam, List.findSome?_singleton,
    List.takeWhile_append_of_pos hname, List.takeWhile_cons_of_neg (by decide), List.append_nil,
    if_pos rfl, List.dropWhile_append_of_pos hname, List.dropWhile_cons_of_neg (by decide),
    List.drop_one, List.tail_cons, hdecode _ htoken, String.ofList_toList]

/-! ### From the e-mail to the table -/

section Link

variable {m : MailSettings} {c : TokenSettings} {uuid : ClientId → String} {now : Instant}
variable {clients : ClientId → Option MailClient} {providers : ProviderId → Option ProviderName}
variable {b : BookingRow} {offsetMinutes : Nat} {mail : EmailData}

/-- `signToken(client.id)`, where the clock shows `now`. -/
def MailSettings.SignsAt (m : MailSettings) (c : TokenSettings) (uuid : ClientId → String)
    (now : Instant) : Prop :=
  ∀ id, m.signToken id = Chronos.signToken c ⟨uuid id, now⟩

theorem truthy_signToken (call : SignCall) : truthy (some (signToken c call)) = some (signToken c call) := by
  unfold truthy
  split
  · next heq =>
    have hsplit := splitOn_signToken c call
    rw [Option.some.inj heq] at hsplit
    have hlength : 1 = 2 := congrArg List.length hsplit
    exact absurd hlength (by decide)
  · rfl

/-- **The address in a reminder** holds the token of its client. -/
theorem firstLink_reminder (hmail : renderReminderMail m clients providers b offsetMinutes = .ok mail) :
    firstLink mail.html = some ((truthy m.publicUrl).getD "http://localhost:3001" ++
      "/unsubscribe/reminders?token=" ++ m.signToken mail.clientId) := by
  obtain ⟨client, email, -, -, rfl⟩ := renderReminderMail_ok hmail
  have hdate : Linkless "Invalid Date" := linkless_ofList rfl
  exact ReminderEmailData.firstLink_html _ hdate

/-- **The link works.**  The first link of a reminder opts out the client the reminder is for, for a
    week, and nobody else. -/
theorem unsubscribe_link_works {decode : List Char → List Char} (hdecode : KeepsTokens decode)
    (hsigns : m.SignsAt c uuid now) (hsite : m.PlainUrl)
    (hjson : c.Inverts ⟨uuid mail.clientId, now⟩) (huuid : uuid mail.clientId ≠ "")
    (hmail : renderReminderMail m clients providers b offsetMinutes = .ok mail) :
    ∃ url token, firstLink mail.html = some url ∧ tokenParam decode url = some token ∧
      ∀ (later : Instant) (table : ClientTable) (id : String),
        (unsubscribeReminders c later (some token) table).2.OptedOut id ↔ table.OptedOut id ∨
          ((table.lookup id).isSome ∧ id = uuid mail.clientId ∧ later / 1000 ≤ now / 1000 + 604800) := by
  have htoken : ∀ x ∈ (m.signToken mail.clientId).toList, x ∈ tokenAlphabet := by
    rw [hsigns]
    exact fun x => mem_signToken
  have haddress : tokenParam decode ((truthy m.publicUrl).getD "http://localhost:3001" ++
      "/unsubscribe/reminders?token=" ++ m.signToken mail.clientId) = some (m.signToken mail.clientId) :=
    tokenParam_address hdecode hsite htoken
  refine ⟨_, m.signToken mail.clientId, firstLink_reminder hmail, haddress, fun later table id => ?_⟩
  have hread := verifyToken_signToken hjson huuid later
  rw [optedOut_unsubscribe_iff, hsigns]
  -- The table matters for who is in it, the clock for whether the token is read.
  refine or_congr_right (and_congr_right fun _ => ?_)
  rw [truthy_signToken]
  constructor
  · rintro ⟨text, htext, hsub⟩
    rw [← Option.some.inj htext, hread] at hsub
    split at hsub
    · next htime => exact ⟨(Option.some.inj hsub).symm, htime⟩
    · cases hsub
  · rintro ⟨rfl, htime⟩
    refine ⟨_, rfl, ?_⟩
    rw [hread, if_pos htime]
    rfl

/-! #### The reminder of one client -/

/-- Client `7` gets the token `sampleToken`. -/
def linkSettings : MailSettings :=
  { sampleSettings with signToken := fun id => signToken sampleTokenSettings ⟨sampleUuid id, 0⟩ }

def linkClient : MailClient := ⟨7, ⟨some "client@example.org", false⟩, "Grace"⟩

def linkMail : EmailData :=
  reminderMail linkSettings sampleBookingRow linkClient "client@example.org" 60 "Service Provider"
    .undefined

theorem renderReminderMail_link :
    renderReminderMail linkSettings (fun _ => some linkClient) sampleProviders sampleBookingRow 60 =
      .ok linkMail := rfl

theorem plainUrl_linkSettings : linkSettings.PlainUrl := by
  have hall : ("http://localhost:3001".toList.all fun x => decide (x ≠ '?' ∧ x ≠ '#')) = true := by
    decide +kernel
  exact fun x hx => of_decide_eq_true (List.all_eq_true.mp hall x hx)

theorem unsubscribe_link_works_sample :
    ∃ url token, firstLink linkMail.html = some url ∧ tokenParam id url = some token ∧
      ∀ (later : Instant) (table : ClientTable) (id : String),
        (unsubscribeReminders sampleTokenSettings later (some token) table).2.OptedOut id ↔
          table.OptedOut id ∨ ((table.lookup id).isSome ∧ id = sampleUuid linkMail.clientId ∧
            later / 1000 ≤ 0 / 1000 + 604800) := by
  have hsigns : linkSettings.SignsAt sampleTokenSettings sampleUuid 0 := fun _ => rfl
  have hjson : sampleTokenSettings.Inverts ⟨sampleUuid linkMail.clientId, 0⟩ := inverts_sampleCall
  have huuid : sampleUuid linkMail.clientId ≠ "" := by decide
  exact unsubscribe_link_works (fun _ _ => rfl) hsigns plainUrl_linkSettings hjson huuid
    renderReminderMail_link

end Link

end Chronos
