import Chronos.Punctual
import Chronos.StatusMachine
import Chronos.UnsubscribeToken

namespace Chronos

open ReadCommitted ReadCommitted.Prog

/-!
# Opting out of reminders

Every reminder carries a link with a token for its client.  `GET /unsubscribe/reminders` checks the
token and sets `reminders_opt_out` in `clients`; deliveries read that table before they mail.

* `unsubscribeReminders` — the handler.
* `MailSystem` — the tasks at work beside the table of clients, with the handler called in between.
* `opt_out_honoured` — once the handler has answered a client's token with success, no delivery
  that begins later mails the client, whatever else is going on.
* `opted_out_by_link` — nobody is opted out but by a spelling of a token that was signed for them.
-/

/-! ### The handler -/

/-- The rows of `clients`, by their ids. -/
abbrev ClientTable := AList fun _ : String => Client

/-- `new HttpException(message, status)`. -/
structure HttpException where
  message : String
  status : Nat
  deriving DecidableEq

/-- `payload.sub`, where it is a text. -/
def JsonValue.sub (payload : JsonValue) : Option String :=
  match payload.property "sub" with
  | some (.string sub) => some sub
  | _ => none

/-- `client` with `reminders_opt_out = true`. -/
def Client.optOut (client : Client) : Client := { client with remindersOptOut := true }

/-- `UnsubscribeController.unsubscribeReminders`; a `token` that is missing or no text is `none`. -/
def unsubscribeReminders (c : TokenSettings) (now : Instant) (token : Option String)
    (clients : ClientTable) : Except HttpException String × ClientTable :=
  match truthy token with
  | none => (.error ⟨"Invalid unsubscribe request.", 400⟩, clients)
  | some token =>
    match (verifyToken c now token).bind JsonValue.sub with
    | none => (.error ⟨"Invalid or expired unsubscribe link.", 400⟩, clients)
    | some sub =>
      match clients.lookup sub with
      | none => (.error ⟨"Client not found.", 404⟩, clients)
      | some client =>
        (.ok "You have been unsubscribed from appointment reminders.", clients.insert sub client.optOut)

/-- The row of client `id` says that it wants no reminders. -/
def ClientTable.OptedOut (clients : ClientTable) (id : String) : Prop :=
  ∃ client, clients.lookup id = some client ∧ client.remindersOptOut = true

section Handler

variable {c : TokenSettings} {now : Instant} {token : Option String} {clients : ClientTable}

/-- The handler answers with an exception and leaves the table, or opts out the client that the
    token is for. -/
theorem unsubscribeReminders_cases (c : TokenSettings) (now : Instant) (token : Option String)
    (clients : ClientTable) :
    (∃ e, unsubscribeReminders c now token clients = (.error e, clients)) ∨
      ∃ text sub client message, truthy token = some text ∧
        (verifyToken c now text).bind JsonValue.sub = some sub ∧ clients.lookup sub = some client ∧
        unsubscribeReminders c now token clients = (.ok message, clients.insert sub client.optOut) := by
  unfold unsubscribeReminders
  split
  · exact Or.inl ⟨_, rfl⟩
  · next text htext =>
    split
    · exact Or.inl ⟨_, rfl⟩
    · next sub hsub =>
      split
      · exact Or.inl ⟨_, rfl⟩
      · next client hclient => exact Or.inr ⟨text, sub, client, _, htext, hsub, hclient, rfl⟩

/-- A token for a client of the table opts that client out. -/
theorem unsubscribeReminders_ok {text sub : String} {client : Client} (htext : truthy token = some text)
    (hsub : (verifyToken c now text).bind JsonValue.sub = some sub)
    (hclient : clients.lookup sub = some client) :
    unsubscribeReminders c now token clients =
      (.ok "You have been unsubscribed from appointment reminders.",
        clients.insert sub client.optOut) := by
  simp only [unsubscribeReminders, htext, hsub, hclient]

/-- Who has opted out stays so. -/
theorem ClientTable.OptedOut.unsubscribe {id : String} (h : clients.OptedOut id) :
    (unsubscribeReminders c now token clients).2.OptedOut id := by
  rcases unsubscribeReminders_cases c now token clients with ⟨e, he⟩ | ⟨_, sub, client, _, _, _, _, hok⟩
  · rw [he]
    exact h
  · rw [hok]
    by_cases hid : id = sub
    · subst hid
      exact ⟨client.optOut, AList.lookup_insert _, rfl⟩
    · obtain ⟨client', hclient', hout⟩ := h
      exact ⟨client', (AList.lookup_insert_ne hid).trans hclient', hout⟩

theorem truthy_some {token text : String} (h : truthy (some token) = some text) : text = token := by
  unfold truthy at h
  split at h
  · cases h
  · exact (Option.some.inj h).symm

/-- The handler opts out the client of a token it accepts. -/
theorem optedOut_of_ok {token message sub : String}
    (hsub : (verifyToken c now token).bind JsonValue.sub = some sub)
    (hok : (unsubscribeReminders c now (some token) clients).1 = .ok message) :
    (unsubscribeReminders c now (some token) clients).2.OptedOut sub := by
  rcases unsubscribeReminders_cases c now (some token) clients with
    ⟨e, he⟩ | ⟨text, sub', client, _, htext, hsub', _, heq⟩
  · rw [he] at hok
    cases hok
  · obtain rfl := truthy_some htext
    obtain rfl := Option.some.inj (hsub.symm.trans hsub')
    rw [heq]
    exact ⟨client.optOut, AList.lookup_insert _, rfl⟩

/-- **Who has opted out after one call.** -/
theorem optedOut_unsubscribe_iff {id : String} :
    (unsubscribeReminders c now token clients).2.OptedOut id ↔ clients.OptedOut id ∨
      ((clients.lookup id).isSome ∧
        ∃ text, truthy token = some text ∧ (verifyToken c now text).bind JsonValue.sub = some id) := by
  constructor
  · intro h
    rcases unsubscribeReminders_cases c now token clients with
      ⟨e, he⟩ | ⟨text, sub, client, message, htext, hsub, hclient, heq⟩
    · rw [he] at h
      exact Or.inl h
    · rw [heq] at h
      by_cases hid : id = sub
      · subst hid
        exact Or.inr ⟨by rw [hclient]; rfl, text, htext, hsub⟩
      · obtain ⟨client', hclient', hout⟩ := h
        exact Or.inl ⟨client', (AList.lookup_insert_ne hid).symm.trans hclient', hout⟩
  · rintro (h | ⟨hsome, text, htext, hsub⟩)
    · exact h.unsubscribe
    · obtain ⟨client, hclient⟩ := Option.isSome_iff_exists.mp hsome
      rw [unsubscribeReminders_ok htext hsub hclient]
      exact ⟨client.optOut, AList.lookup_insert _, rfl⟩

/-- No client comes or goes. -/
theorem isSome_lookup_unsubscribe {id : String} :
    ((unsubscribeReminders c now token clients).2.lookup id).isSome = (clients.lookup id).isSome := by
  rcases unsubscribeReminders_cases c now token clients with
    ⟨e, he⟩ | ⟨_, sub, client, _, _, _, hclient, heq⟩
  · rw [he]
  · rw [heq]
    by_cases hid : id = sub
    · subst hid
      rw [AList.lookup_insert, hclient]
      rfl
    · rw [AList.lookup_insert_ne hid]

end Handler

/-! ### What a delivery does -/

/-- In the dialogue reminder `id` may be delivered: whatever tasks send may be sent, the time and
    clients asked for, and a mail once the booking was read to be booked and its client to want it,
    to the address that was read last. -/
structure AllowsDelivery (δ : Dialogue Stmt.Rows Ask.Answer) (id : ReminderId) : Prop where
  sends : ∀ s, anyFacts.dialogue.sends s → δ.sends s
  now : δ.asks .now
  client : ∀ y, δ.asks (.selectClient y)
  mails : ∀ booking client client' receiver, δ.hears (.selectBooking id.1) (some booking) →
    booking.status = .booked → δ.learns (.selectClient booking.clientId) (.ok (some client)) →
    client.remindersOptOut = false → δ.learns (.selectClient booking.clientId) (.ok (some client')) →
    clientEmail (some client') = some receiver → δ.asks (.sendEmail receiver id)

section Allowed

variable {δ : Dialogue Stmt.Rows Ask.Answer} {id : ReminderId} {isConfigured : Bool}

theorem AllowsDelivery.mark (h : AllowsDelivery δ id) {text : String} (htext : text ∈ recordedStatuses)
    (out : Except JsError Unit) :
    ((dbQuery (.setReminderStatus id text)).bind fun _ => ofExcept out).Follows δ := by
  have hsends : δ.sends (.setReminderStatus id text) := h.sends _ htext
  cases out with
  | ok u => exact ⟨hsends, fun _ _ => trivial, fun _ => trivial⟩
  | error e => exact ⟨hsends, fun _ _ => trivial, fun _ => trivial⟩

/-- What a delivery reads of a client. -/
theorem AllowsDelivery.getClient (h : AllowsDelivery δ id) (y : ClientId) :
    (Chronos.getClient y).Speaks δ fun r => ∀ client, r = .ok (some client) →
      δ.learns (.selectClient y) (.ok (some client)) := by
  refine ⟨h.client y, fun found hfound => ?_⟩
  cases found with
  | error e => exact fun _ h => nomatch h
  | ok client =>
    intro client' heq
    obtain rfl := Except.ok.inj heq
    exact hfound

/-- The receiver is the address that is read of the client. -/
theorem AllowsDelivery.renderReminderEmail (h : AllowsDelivery δ id) (booking : Booking) :
    (Chronos.renderReminderEmail id.1 booking).Speaks δ fun r => ∀ receiver, r = .ok receiver →
      ∃ client, δ.learns (.selectClient booking.clientId) (.ok (some client)) ∧
        clientEmail (some client) = some receiver := by
  refine (h.getClient _).bind (fun found hfound => ?_) fun _ _ _ h => nomatch h
  cases hemail : clientEmail found with
  | none => exact fun _ h => nomatch h
  | some email =>
    cases found with
    | none => cases hemail
    | some client =>
      refine ⟨h.sends _ trivial, fun _ _ => ?_, fun _ _ h => nomatch h⟩
      intro receiver heq
      obtain rfl := Except.ok.inj heq
      exact ⟨client, hfound client rfl, hemail⟩

theorem AllowsDelivery.sendReminder (h : AllowsDelivery δ id) (booking : Booking)
    (hmail : ∀ client receiver, δ.learns (.selectClient booking.clientId) (.ok (some client)) →
      clientEmail (some client) = some receiver → δ.asks (.sendEmail receiver id)) :
    (Chronos.sendReminder isConfigured id booking).Follows δ := by
  have hsend : (sendWithProvider isConfigured id.1 booking id).Follows δ := by
    refine Speaks.bind (h.renderReminderEmail booking) (fun receiver hreceiver => ?_)
      fun _ _ => trivial
    obtain ⟨client, hlearned, hemail⟩ := hreceiver receiver rfl
    cases isConfigured with
    | false => trivial
    | true => exact ⟨hmail client receiver hlearned hemail, fun _ _ => trivial⟩
  refine Follows.bind hsend fun result => ?_
  split
  · exact h.mark (by decide) (.ok ())
  · trivial
  · exact h.mark (by decide) (.ok ())

theorem AllowsDelivery.remindClient (h : AllowsDelivery δ id) {reminder : ReminderJob}
    {booking : Booking} (hheard : δ.hears (.selectBooking id.1) (some booking))
    (hbooked : booking.status = .booked) :
    (Chronos.remindClient isConfigured id reminder booking).Follows δ := by
  refine ⟨h.now, fun now _ => ?_⟩
  simp only [andThen]
  split
  · exact h.mark (by decide) (.error _)
  · refine (h.getClient _).bind (fun found hfound => ?_) fun _ _ => trivial
    cases found with
    | none => trivial
    | some client =>
      split
      · trivial
      · split
        · exact h.mark (by decide) (.ok ())
        · next hwants =>
          exact h.sendReminder booking fun client' receiver => h.mails booking client client' receiver
            hheard hbooked (hfound client rfl) (Bool.eq_false_of_not_eq_true hwants)

theorem AllowsDelivery.processReminder (h : AllowsDelivery δ id) :
    (Chronos.processReminder isConfigured id).Follows δ := by
  refine ⟨h.sends _ trivial, fun found _ => ?_, fun _ => trivial⟩
  cases found with
  | none => trivial
  | some reminder =>
    simp only [andThen]
    split
    · trivial
    · refine ⟨h.sends _ trivial, fun b hb => ?_, fun _ => trivial⟩
      cases b with
      | none => exact h.mark (by decide) (.error _)
      | some booking =>
        simp only [andThen]
        split
        · exact h.mark (by decide) (.ok ())
        · next hbooked => exact h.remindClient hb (not_not.mp hbooked)

/-- **A delivery keeps to every dialogue that allows it.** -/
theorem AllowsDelivery.process (h : AllowsDelivery δ id) :
    (Chronos.process isConfigured (some id)).Follows δ := by
  refine ⟨h.now, fun now _ => ⟨h.sends _ trivial, fun claimed _ => ?_, fun _ => trivial⟩⟩
  cases claimed with
  | some row => exact h.processReminder
  | none =>
    refine ⟨h.sends _ trivial, fun check _ => ?_, fun _ => trivial⟩
    simp only [andThen]
    split
    · exact h.processReminder
    · trivial

end Allowed

/-! ### What a delivery knows of its client -/

section Delivery

variable {owner : BookingId → ClientId} {x : ClientId} {late : Prop}

/-- The row a delivery reads is its booking's. -/
def OwnerRead (owner : BookingId → ClientId) : (s : Stmt) → s.Rows → Prop
  | .selectBooking id, found => ∀ b, found = some b → b.clientId = owner id
  | _, _ => True

/-- A delivery that is `late` has read that client `x` has opted out. -/
def OptOutRead (x : ClientId) (late : Prop) : (a : Ask) → a.Answer → Prop
  | .selectClient y, found => late → y = x → ∀ client, found = .ok (some client) →
      client.remindersOptOut = true
  | _, _ => True

/-- A delivery of reminder `id` mails that reminder, and not to client `x` if it is `late`. -/
def MailsOthers (owner : BookingId → ClientId) (x : ClientId) (late : Prop) (id : ReminderId) :
    Ask → Prop
  | .sendEmail _ k => k = id ∧ (late → owner id.1 ≠ x)
  | _ => True

/-- What a delivery of reminder `id` may send and ask. -/
def optOutDialogue (owner : BookingId → ClientId) (x : ClientId) (late : Prop) (id : ReminderId) :
    Dialogue Stmt.Rows Ask.Answer where
  sends := anyFacts.dialogue.sends
  hears := OwnerRead owner
  asks a := anyFacts.dialogue.asks a ∧ MailsOthers owner x late id a
  learns := OptOutRead x late

variable {id : ReminderId} {isConfigured : Bool}

/-- A late delivery that goes on to its mail has read that its client is another one. -/
theorem optOut_process :
    (process isConfigured (some id)).Follows (optOutDialogue owner x late id) := by
  refine AllowsDelivery.process ⟨fun _ h => h, ⟨trivial, trivial⟩, fun _ => ⟨trivial, trivial⟩, ?_⟩
  intro booking client _ receiver hb _ hc hwants _ _
  refine ⟨trivial, rfl, fun hlate hx => ?_⟩
  have hout : client.remindersOptOut = true := hc hlate ((hb booking rfl).trans hx) client rfl
  rw [hwants] at hout
  cases hout

end Delivery

/-- What a task may send and ask. -/
def optOutTask (owner : BookingId → ClientId) (x : ClientId) (late : Prop) :
    Task → Dialogue Stmt.Rows Ask.Answer
  | .process _ (some id) => optOutDialogue owner x late id
  | _ => anyFacts.dialogue

theorem follows_optOutTask {owner : BookingId → ClientId} {x : ClientId} {late : Prop}
    {fromColumn : Instant → Except JsError Instant} (task : Task) :
    (task.program fromColumn).Follows (optOutTask owner x late task) := by
  cases task with
  | process isConfigured reminderId =>
    cases reminderId with
    | none => exact trivial
    | some id => exact optOut_process
  | _ => exact follows_task (admits_anyFacts _) fun _ _ _ _ _ => trivial

/-! ### Tasks beside the table of clients -/

/-- A task that delivers a reminder. -/
def Task.Delivers (task : Task) : Prop := ∃ isConfigured id, task = .process isConfigured (some id)

/-- Bookings are their owners'. -/
def Database.OwnedBy (owner : BookingId → ClientId) (d : Database) : Prop :=
  ∀ id b, d.bookings.lookup id = some b → b.clientId = owner id

/-- The id an inserted booking gets is one of its client's. -/
def DrawsFor (owner : BookingId → ClientId) : Stmt → Nat → Prop
  | .insertBooking row, fresh => row.clientId = owner fresh
  | _, _ => True

/-- The write leaves bookings with their owners, and is no e-mail of a late delivery to `x`. -/
def Write.Spares (owner : BookingId → ClientId) (x : ClientId) (late : Prop) : Write → Prop
  | .booking id row => row.clientId = owner id
  | .email id => late → owner id.1 ≠ x
  | _ => True

section Vetting

variable {owner : BookingId → ClientId} {x : ClientId} {late : Prop} {d : Database} {cat : Catalog}

theorem Write.Spares.apply {w : Write} (hd : d.OwnedBy owner) (h : w.Spares owner x late) :
    (w.apply d).OwnedBy owner := by
  intro id b hb
  cases w with
  | booking id' row =>
    rw [lookup_booking_write] at hb
    split at hb
    · next hid =>
      obtain rfl := Option.some.inj hb
      exact hid ▸ h
    · exact hd id b hb
  | _ => exact hd id b hb

theorem exec_spares {s : Stmt} {o : Nat} {r : s.Rows} {ws : List Write} (hd : d.OwnedBy owner)
    (hdraws : DrawsFor owner s o) (hx : (exec cat s o d).result = .ok (r, ws)) :
    ∀ w ∈ ws, w.Spares owner x late := by
  rcases exec_written hx with rfl | ⟨w, rfl, hwritten⟩
  · exact fun w hw => nomatch hw
  · intro w' hw'
    obtain rfl := List.mem_singleton.mp hw'
    cases hwritten with
    | @booking id row _ _ hrow => exact (hd id row hrow : row.clientId = owner id)
    | insertBooking hs _ _ =>
      subst hs
      exact hdraws
    | _ => exact trivial

theorem ownerRead_exec {s : Stmt} {o : Nat} {r : s.Rows} {ws : List Write} (hd : d.OwnedBy owner)
    (hx : (exec cat s o d).result = .ok (r, ws)) : OwnerRead owner s r := by
  cases s with
  | selectBooking id =>
    obtain ⟨rfl, -⟩ := read_ok hx
    exact fun b hb => hd id b hb
  | _ => exact trivial

variable {ι : Type}

/-- Whatever deliveries say, as long as the late ones do not mail client `x`: bookings stay with
    their owners. -/
theorem vetting_spares (cat : Catalog) (late : ι → Prop) {δ : ι → Dialogue Stmt.Rows Ask.Answer}
    (hhears : ∀ i s r, OwnerRead owner s r → (δ i).hears s r)
    (hmails : ∀ i receiver id, (δ i).asks (.sendEmail receiver id) → late i → owner id.1 ≠ x) :
    Vetting (chronos cat) δ (fun _ s o _ => DrawsFor owner s o) (Database.OwnedBy owner)
      (fun i _ w => w.Spares owner x (late i)) (fun _ => []) fun _ _ _ => True where
  exec i s o d r ws _ hdraws hd hx := by
    have hexec : (exec cat s o d).result = .ok (r, ws) := hx
    refine ⟨hhears i s r (ownerRead_exec hd hexec), ?_, fun _ _ k hk => nomatch hk⟩
    have hspares : ∀ w ∈ ws, w.Spares owner x (late i) := exec_spares hd hdraws hexec
    rcases exec_written hexec with rfl | ⟨w, rfl, -⟩
    · exact trivial
    · exact ⟨hspares w (List.mem_singleton_self w), trivial⟩
  note i a y d hasks _ _ := by
    change Vets _ _ d ((noted a y).map (i, ·)) ∧ ∀ w ∈ noted a y, ([] : List Lock) = []
    refine ⟨?_, fun _ _ => rfl⟩
    unfold noted
    split
    · exact ⟨trivial, trivial⟩
    · exact ⟨trivial, trivial⟩
    · next receiver id _ _ => exact ⟨hmails i receiver id hasks, trivial⟩
    · exact trivial
  write _ _ _ hd hw := hw.apply hd
  stable _ _ _ _ _ h := h
  sees_refl _ _ := trivial
  sees_trans _ _ _ _ _ _ := trivial
  sees_write _ _ _ _ _ := trivial
  sees_frame _ _ _ _ := trivial

theorem vetting_optOut (cat : Catalog) (owner : BookingId → ClientId) (x : ClientId) (late : ι → Prop)
    (tasks : ι → Task) :
    Vetting (chronos cat) (fun i => optOutTask owner x (late i) (tasks i))
      (fun _ s o _ => DrawsFor owner s o) (Database.OwnedBy owner)
      (fun i _ w => w.Spares owner x (late i ∧ (tasks i).Delivers)) (fun _ => [])
      fun _ _ _ => True := by
  refine vetting_spares cat _ (fun i s r h => ?_) fun i receiver id hasks hdelivers => ?_
  · unfold optOutTask
    split
    · exact h
    · exact hears_anyFacts s r
  · obtain ⟨hlate, isConfigured, id', htask⟩ := hdelivers
    rw [htask] at hasks
    obtain ⟨-, rfl, hother⟩ := hasks
    exact hother hlate

end Vetting

/-- The tasks at work, and the table of clients beside them. -/
structure MailSystem (C ι : Type) where
  world : World Stmt.Rows Ask.Answer JsError Unit Database Write Lock C ι
  clients : ClientTable

section Runs

variable {ι C : Type} [DecidableEq ι] [DecidableEq C]

/-- Runs: steps of tasks, whose reads of clients the table answers unless they fail, and calls of the
    handler, with the times and the tokens of these calls.  Ids of bookings are drawn for their
    owners; only tasks with `may` take steps. -/
inductive MailSystem.Runs (cat : Catalog) (c : TokenSettings) (uuid : ClientId → String)
    (owner : BookingId → ClientId) (may : ι → Prop) :
    MailSystem C ι → List (Instant × Option String) → MailSystem C ι → Prop
  | start {m} : Runs cat c uuid owner may m [] m
  | task {m shown m₁ l world} : Runs cat c uuid owner may m shown m₁ → may l.thread →
      (∀ y found, l.env.answer (.selectClient y) = .ok found → found = m₁.clients.lookup (uuid y)) →
      (∀ s ok err, m₁.world.prog l.thread = .stmt s ok err → l.env.fault = none →
        DrawsFor owner s l.env.fresh) →
      m₁.world.step (chronos cat) l = some world →
      Runs cat c uuid owner may m shown ⟨world, m₁.clients⟩
  | unsubscribe {m shown m₁} (now : Instant) (token : Option String) :
      Runs cat c uuid owner may m shown m₁ →
      Runs cat c uuid owner may m (shown ++ [(now, token)])
        ⟨m₁.world, (unsubscribeReminders c now token m₁.clients).2⟩

variable {cat : Catalog} {c : TokenSettings} {uuid : ClientId → String}
variable {owner : BookingId → ClientId} {may late : ι → Prop} {x : ClientId} {m m' : MailSystem C ι}
variable {shown : List (Instant × Option String)}

/-- Who has opted out stays so. -/
theorem MailSystem.Runs.optedOut {id : String} (h : MailSystem.Runs cat c uuid owner may m shown m')
    (hout : m.clients.OptedOut id) : m'.clients.OptedOut id := by
  induction h with
  | start => exact hout
  | task _ _ _ _ _ ih => exact ih
  | unsubscribe now token _ ih => exact ih.unsubscribe

/-- The steps of tasks of which the late ones read that client `x` has opted out. -/
structure Informs (owner : BookingId → ClientId) (x : ClientId) (late : ι → Prop)
    (w : World Stmt.Rows Ask.Answer JsError Unit Database Write Lock C ι)
    (l : Label Ask.Answer Nat JsError C ι) : Prop where
  draws : ∀ s ok err, w.prog l.thread = .stmt s ok err → l.env.fault = none →
    DrawsFor owner s l.env.fresh
  reads : late l.thread → ∀ client, l.env.answer (.selectClient x) = .ok (some client) →
    client.remindersOptOut = true

/-- A run in which no late task takes a step, or after client `x` has opted out. -/
theorem MailSystem.Runs.informs (h : MailSystem.Runs cat c uuid owner may m shown m')
    (hwhen : (∀ i, may i → ¬ late i) ∨ m.clients.OptedOut (uuid x)) :
    Reaches (chronos cat) (Informs owner x late) m.world m'.world := by
  induction h with
  | start => exact .start
  | unsubscribe now token _ ih => exact ih
  | task hruns hmay hreads hdraws hs ih =>
    refine ih.step ⟨hdraws, fun hlate client hclient => ?_⟩ hs
    rcases hwhen with hearly | hout
    · exact absurd hlate (hearly _ hmay)
    · obtain ⟨client', hclient', hopted⟩ := hruns.optedOut hout
      have hrow := (hreads x _ hclient).trans hclient'
      exact Option.some.inj hrow ▸ hopted

omit [DecidableEq ι] [DecidableEq C] in
theorem allows_of_informs {tasks : ι → Task}
    {w : World Stmt.Rows Ask.Answer JsError Unit Database Write Lock C ι}
    {l : Label Ask.Answer Nat JsError C ι} (h : Informs owner x late w l) :
    w.Allows (chronos cat) (fun i => optOutTask owner x (late i) (tasks i))
      (fun _ s o _ => DrawsFor owner s o) l := by
  refine ⟨fun s ok err hprog hfault _ => h.draws s ok err hprog hfault, fun a k _ => ?_⟩
  unfold optOutTask
  split
  · cases a with
    | selectClient y =>
      rintro hlate rfl client hclient
      exact h.reads hlate client hclient
    | _ => exact trivial
  · exact learns_anyFacts a _

/-- **Opting out is honoured.**  Tasks of all kinds are at work over any connections, with anything
    failing.  Once `GET /unsubscribe/reminders` has answered a token for client `x` with success,
    no delivery that begins later mails a reminder of a booking of theirs. -/
theorem opt_out_honoured {fromColumn : Instant → Except JsError Instant} {tasks : ι → Task}
    {d₀ : Database} {clients : ClientTable} {m₁ m₂ : MailSystem C ι} {now : Instant}
    {shown₁ shown₂ : List (Instant × Option String)} {token message : String}
    (howned : d₀.OwnedBy owner)
    (h₁ : MailSystem.Runs cat c uuid owner (fun i => ¬ late i)
      ⟨World.init d₀ fun i => (tasks i).program fromColumn, clients⟩ shown₁ m₁)
    (htoken : (verifyToken c now token).bind JsonValue.sub = some (uuid x))
    (hok : (unsubscribeReminders c now (some token) m₁.clients).1 = .ok message)
    (h₂ : MailSystem.Runs cat c uuid owner (fun _ => True)
      ⟨m₁.world, (unsubscribeReminders c now (some token) m₁.clients).2⟩ shown₂ m₂)
    {i : ι} (hlate : late i) (hdelivers : (tasks i).Delivers) {id : ReminderId}
    (hmail : (i, Write.email id) ∈ m₂.world.journal) :
    ∀ b, m₂.world.db.bookings.lookup id.1 = some b → b.clientId ≠ x := by
  have hV := vetting_optOut cat owner x late tasks
  have hinit : (World.init d₀ fun i => (tasks i).program fromColumn : World Stmt.Rows Ask.Answer
      JsError Unit Database Write Lock C ι).Vetted (chronos cat)
      (fun i => optOutTask owner x (late i) (tasks i)) (Database.OwnedBy owner)
      (fun i _ w => w.Spares owner x (late i ∧ (tasks i).Delivers)) fun _ => [] :=
    vetted_init howned fun i => follows_optOutTask (tasks i)
  -- Before the answer no late delivery is at work, and after it they read what the handler wrote.
  have hreach : Reaches (chronos cat) (Informs owner x late)
      (World.init d₀ fun i => (tasks i).program fromColumn) m₂.world :=
    (h₁.informs (Or.inl fun _ hi => hi)).trans (h₂.informs (Or.inr (optedOut_of_ok htoken hok)))
  have hallows : ∀ (w : World Stmt.Rows Ask.Answer JsError Unit Database Write Lock C ι) l,
      Informs owner x late w l → w.Allows (chronos cat)
        (fun i => optOutTask owner x (late i) (tasks i)) (fun _ s o _ => DrawsFor owner s o) l :=
    fun _ _ hl => allows_of_informs hl
  obtain ⟨made, hvets, -, hjournal⟩ := World.Vetted.journal hV hallows hinit hreach
  have hempty : (World.init d₀ fun i => (tasks i).program fromColumn : World Stmt.Rows Ask.Answer
      JsError Unit Database Write Lock C ι).journal = [] := rfl
  rw [hjournal, hempty, List.nil_append] at hmail
  obtain ⟨before, rest, hmade⟩ := List.append_of_mem hmail
  rw [hmade] at hvets
  have hspares : late i ∧ (tasks i).Delivers → owner id.1 ≠ x := (vets_mem hvets).2
  intro b hb
  rw [(World.Vetted.reaches hV hallows hinit hreach).db id.1 b hb]
  exact hspares ⟨hlate, hdelivers⟩

/-- Steps of tasks, while nobody calls the handler. -/
theorem MailSystem.runs_of_reaches {clients : ClientTable}
    {w w' : World Stmt.Rows Ask.Answer JsError Unit Database Write Lock C ι}
    (h : Reaches (chronos cat) (fun w l => may l.thread ∧
      (∀ y found, l.env.answer (.selectClient y) = .ok found → found = clients.lookup (uuid y)) ∧
      ∀ s ok err, w.prog l.thread = .stmt s ok err → l.env.fault = none →
        DrawsFor owner s l.env.fresh) w w') :
    MailSystem.Runs cat c uuid owner may ⟨w, clients⟩ [] ⟨w', clients⟩ := by
  induction h with
  | start => exact .start
  | step _ hP hs ih => exact ih.task hP.1 hP.2.1 hP.2.2 hs

/-! ### Who opts out whom -/

/-- The text spells a token that was signed for client `id` and is still in time: its first two parts
    are read as the payload and the signature of the token, and there may be more parts. -/
def SignedFor (c : TokenSettings) (issued : List SignCall) (id : String) (now : Instant)
    (token : String) : Prop :=
  ∃ b64 sig rest, token.toList.splitOn '.' = b64 :: sig :: rest ∧
    Spells c (issued.filter fun call => decide (call.clientId = id)) now b64 sig

omit [DecidableEq ι] [DecidableEq C] in
/-- What the handler takes from a token. -/
theorem verifyToken_sub_iff {issued : List SignCall} {id token : String} {now : Instant}
    (hjson : ∀ call ∈ issued, c.Inverts call) (hforge : c.Unforgeable issued token) :
    (verifyToken c now token).bind JsonValue.sub = some id ↔ SignedFor c issued id now token := by
  constructor
  · intro h
    obtain ⟨data, hdata, hsub⟩ := Option.bind_eq_some_iff.mp h
    have hverified : verifyToken c now token ≠ none := by
      rw [hdata]
      exact nofun
    obtain ⟨b64, sig, rest, hsplit⟩ := exists_parts hverified
    have haccepted := (verifyToken_eq_some_iff hsplit).mp hdata
    obtain ⟨call, hcall, hpayload⟩ := hforge b64 sig rest hsplit haccepted.signature
    have hparsed := haccepted.parsed
    rw [hpayload, hjson call hcall] at hparsed
    obtain rfl := Option.some.inj hparsed
    obtain rfl : call.clientId = id := Option.some.inj hsub
    have hsignature := haccepted.signature
    rw [hpayload] at hsignature
    exact ⟨b64, sig, rest, hsplit, ⟨call, List.mem_filter.mpr ⟨hcall, decide_eq_true rfl⟩,
      (hasSub_data call).mp haccepted.sub, (inTime_data call now).mp haccepted.inTime, hpayload,
      hsignature⟩, haccepted.length⟩
  · rintro ⟨b64, sig, rest, hsplit, ⟨call, hcall, hid, htime, hpayload, hsignature⟩, hlength⟩
    obtain ⟨hmem, hclient⟩ := List.mem_filter.mp hcall
    have haccepted : TokenAccepted c now b64 sig call.data :=
      { present := by
          rintro rfl
          exact payload_ne_empty (hjson call hmem) hpayload.symm
        length := hlength
        signature := by rw [hpayload]; exact hsignature
        parsed := by rw [hpayload]; exact hjson call hmem
        purpose := hasPurpose_data call
        inTime := (inTime_data call now).mpr htime
        sub := (hasSub_data call).mpr hid }
    rw [(verifyToken_eq_some_iff hsplit).mpr haccepted]
    exact congrArg some (of_decide_eq_true hclient)

/-- A text that spells a token is not empty. -/
theorem SignedFor.truthy {issued : List SignCall} {id token : String} {now : Instant}
    (h : SignedFor c issued id now token) : truthy (some token) = some token := by
  obtain ⟨b64, sig, rest, hsplit, -⟩ := h
  unfold Chronos.truthy
  split
  · next heq =>
    obtain rfl := Option.some.inj heq
    cases hsplit
  · rfl

theorem MailSystem.Runs.isSome_lookup {id : String}
    (h : MailSystem.Runs cat c uuid owner may m shown m') :
    (m'.clients.lookup id).isSome = (m.clients.lookup id).isSome := by
  induction h with
  | start => rfl
  | task _ _ _ _ _ ih => exact ih
  | unsubscribe now token _ ih => exact isSome_lookup_unsubscribe.trans ih

/-- **Opted out by their own link.**  After any run a client has opted out just if they had before, or
    if the handler was called with a spelling of a token that was signed for them, and in time.  The
    parts are read by `Text.fromBase64`, which skips what is no digit. -/
theorem opted_out_by_link {issued : List SignCall} {id : String}
    (hjson : ∀ call ∈ issued, c.Inverts call)
    (hforge : ∀ now token, (now, some token) ∈ shown → c.Unforgeable issued token)
    (h : MailSystem.Runs cat c uuid owner may m shown m') :
    m'.clients.OptedOut id ↔ m.clients.OptedOut id ∨ ((m.clients.lookup id).isSome ∧
      ∃ now token, (now, some token) ∈ shown ∧ SignedFor c issued id now token) := by
  induction h with
  | start =>
    refine ⟨Or.inl, fun h => h.resolve_right ?_⟩
    rintro ⟨-, now, token, hmem, -⟩
    cases hmem
  | task _ _ _ _ _ ih => exact ih hforge
  | @unsubscribe shown m₁ now token hruns ih =>
    have hbefore := ih fun now token hmem => hforge now token (List.mem_append_left _ hmem)
    rw [optedOut_unsubscribe_iff, hbefore, hruns.isSome_lookup, or_assoc, ← and_or_left]
    refine or_congr_right (and_congr_right fun _ => ?_)
    constructor
    · rintro (⟨now', token', hmem, hsigned⟩ | ⟨text, htext, hsub⟩)
      · exact ⟨now', token', List.mem_append_left _ hmem, hsigned⟩
      · cases token with
        | none => cases htext
        | some token =>
          obtain rfl := truthy_some htext
          have hlast : (now, some text) ∈ shown ++ [(now, some text)] :=
            List.mem_append_right _ (List.mem_singleton_self _)
          exact ⟨now, text, hlast, (verifyToken_sub_iff hjson (hforge now text hlast)).mp hsub⟩
    · rintro ⟨now', token', hmem, hsigned⟩
      rcases List.mem_append.mp hmem with hold | hnew
      · exact Or.inl ⟨now', token', hold, hsigned⟩
      · obtain ⟨rfl, rfl⟩ := Prod.mk.inj (List.mem_singleton.mp hnew)
        exact Or.inr ⟨token', hsigned.truthy,
          (verifyToken_sub_iff hjson (hforge now' token' hmem)).mpr hsigned⟩

end Runs

/-! #### Two clients, one of whom opts out -/

def sampleUuid (y : ClientId) : String := if y = 7 then "client-123" else "client-5"

/-- Clients `5` and `7`, who both get reminders. -/
def clientsOfTokens : ClientTable :=
  (AList.singleton "client-5" ⟨some "client@example.org", false⟩).insert "client-123"
    ⟨some "other@example.org", false⟩

theorem sub_sampleToken :
    (verifyToken sampleTokenSettings 0 sampleToken).bind JsonValue.sub = some "client-123" := by
  have hsplit := splitOn_signToken sampleTokenSettings sampleCall
  rw [signToken_sampleCall] at hsplit
  have hforge : sampleTokenSettings.Unforgeable [sampleCall] sampleToken := by
    intro b64 sig rest hsplit' _
    obtain ⟨rfl, -⟩ := List.cons.inj (hsplit.symm.trans hsplit')
    exact ⟨sampleCall, List.mem_singleton.mpr rfl, decodeText_toBase64Url _⟩
  rw [verifyToken_sub_iff inverts_sample hforge]
  exact ⟨_, _, _, hsplit, ⟨sampleCall, List.mem_singleton.mpr rfl, by decide, by decide,
    decodeText_toBase64Url _, Text.fromBase64_toBase64Url _⟩, utf16Length_signature _⟩

theorem unsubscribe_sampleToken :
    unsubscribeReminders sampleTokenSettings 0 (some sampleToken) clientsOfTokens =
      (.ok "You have been unsubscribed from appointment reminders.",
        clientsOfTokens.insert "client-123" (Client.optOut ⟨some "other@example.org", false⟩)) := by
  have htruthy : truthy (some sampleToken) = some sampleToken := by decide +kernel
  exact unsubscribeReminders_ok htruthy sub_sampleToken (AList.lookup_insert _)

/-- The clock shows 99 hours, and no client but `5` is read. -/
def readsClient5 : Env Nat JsError Ask.Answer :=
  ⟨0, none, fun a => match a with
    | .now => hoursMs 99
    | .effect _ => .ok ()
    | .queueAdd .. => .ok (hoursMs 99)
    | .selectClient y =>
        if y = 5 then .ok (some ⟨some "client@example.org", false⟩) else .error (jsError "timeout")
    | .sendEmail .. => .sent none⟩

/-- The next statement inserts no booking. -/
def insertsNothing (w : Workers Unit Unit) (_ : Label Ask.Answer Nat JsError Unit Unit) : Bool :=
  match w.prog () with
  | .stmt (.insertBooking _) _ _ => false
  | _ => true

theorem drawsFor_of_check {w : Workers Unit Unit} {l : Label Ask.Answer Nat JsError Unit Unit}
    (h : insertsNothing w l = true) (s : Stmt) (ok : s.Rows → Program Unit) (err : JsError → Program Unit)
    (hs : w.prog l.thread = .stmt s ok err) (_ : l.env.fault = none) :
    DrawsFor (fun _ => 5) s l.env.fresh := by
  unfold insertsNothing at h
  rw [show w.prog () = _ from hs] at h
  cases s with
  | insertBooking row => cases h
  | _ => exact trivial

/-- Booking `1` is client `5`'s. -/
theorem ownedBy_sampleRemind : (sampleRemind .scheduled none).OwnedBy fun _ => 5 := by
  intro id b hb
  obtain rfl := lookup_singleton hb
  obtain rfl := Option.some.inj hb
  rfl

/-- Client `7` has opted out, and client `5` is mailed. -/
theorem opt_out_honoured_sample : ∃ m₂ : MailSystem Unit Unit,
    ((), Write.email (1, 60)) ∈ m₂.world.journal ∧
    ∀ b, m₂.world.db.bookings.lookup 1 = some b → b.clientId ≠ 7 := by
  have hrun : ∃ w : Workers Unit Unit, World.run (chronos sampleCatalog) insertsNothing startDelivery
      (List.replicate 9 ⟨(), (), readsClient5⟩) = some w ∧
      ((), Write.email (1, 60)) ∈ w.journal :=
    ⟨_, rfl, List.mem_append_right _ (List.mem_singleton_self _)⟩
  obtain ⟨w, hw, hmail⟩ := hrun
  have hreads : ∀ y found, readsClient5.answer (.selectClient y) = .ok found →
      found = (unsubscribeReminders sampleTokenSettings 0 (some sampleToken)
        clientsOfTokens).2.lookup (sampleUuid y) := by
    intro y found hfound
    have hanswer : (if y = 5 then .ok (some ⟨some "client@example.org", false⟩)
        else .error (jsError "timeout") : Except JsError (Option Client)) = .ok found := hfound
    split at hanswer
    · next hy =>
      subst hy
      rw [unsubscribe_sampleToken, ← Except.ok.inj hanswer]
      rfl
    · cases hanswer
  have hreach : Reaches (chronos sampleCatalog) (fun w l => True ∧
      (∀ y found, l.env.answer (.selectClient y) = .ok found →
        found = (unsubscribeReminders sampleTokenSettings 0 (some sampleToken)
          clientsOfTokens).2.lookup (sampleUuid y)) ∧
      ∀ s ok err, w.prog l.thread = .stmt s ok err → l.env.fault = none →
        DrawsFor (fun _ => 5) s l.env.fresh) startDelivery w := by
    refine reaches_of_run (fun w l hl hcheck => ?_) hw
    rw [List.eq_of_mem_replicate hl]
    exact ⟨trivial, hreads, drawsFor_of_check hcheck⟩
  have hok : (unsubscribeReminders sampleTokenSettings 0 (some sampleToken) clientsOfTokens).1 =
      .ok "You have been unsubscribed from appointment reminders." := by
    rw [unsubscribe_sampleToken]
  have hstart : MailSystem.Runs sampleCatalog sampleTokenSettings sampleUuid (fun _ => 5)
      (fun _ => ¬ True) ⟨startDelivery, clientsOfTokens⟩ [] ⟨startDelivery, clientsOfTokens⟩ := .start
  exact ⟨⟨w, _⟩, hmail, opt_out_honoured (x := 7) ownedBy_sampleRemind hstart sub_sampleToken hok
    (MailSystem.runs_of_reaches hreach) trivial ⟨true, (1, 60), rfl⟩ hmail⟩

/-- The handler is called with another spelling of the sample token. -/
def afterOtherToken : MailSystem Unit Unit :=
  ⟨startDelivery,
    (unsubscribeReminders sampleTokenSettings 0 (some sampleOtherToken) clientsOfTokens).2⟩

theorem opted_out_by_link_sample :
    afterOtherToken.clients.OptedOut "client-123" ↔ clientsOfTokens.OptedOut "client-123" ∨
      ((clientsOfTokens.lookup "client-123").isSome ∧ ∃ now token,
        (now, some token) ∈ ([(0, some sampleOtherToken)] : List (Instant × Option String)) ∧
        SignedFor sampleTokenSettings [sampleCall] "client-123" now token) := by
  have hruns : MailSystem.Runs sampleCatalog sampleTokenSettings sampleUuid (fun _ => 5)
      (fun _ => True) ⟨startDelivery, clientsOfTokens⟩ [(0, some sampleOtherToken)] afterOtherToken :=
    .unsubscribe 0 (some sampleOtherToken) .start
  have hforge : ∀ now token,
      (now, some token) ∈ ([(0, some sampleOtherToken)] : List (Instant × Option String)) →
      sampleTokenSettings.Unforgeable [sampleCall] token := by
    intro now token hmem
    obtain ⟨-, htoken⟩ := Prod.mk.inj (List.mem_singleton.mp hmem)
    rw [Option.some.inj htoken]
    exact unforgeable_sampleOtherToken
  exact opted_out_by_link inverts_sample hforge hruns

end Chronos
