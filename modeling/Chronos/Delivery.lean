import Chronos.Stranded
import Chronos.ReadCommitted.Autocommit

namespace Chronos

open ReadCommitted ReadCommitted.Prog

/-!
# Deliveries of a reminder

BullMQ may deliver a job more than once, and deliveries may overlap.  The claim of `process`
lets one of them through from `scheduled`; but a delivery that could not claim the row goes on
all the same where it finds the row `sending` (`recheckClaim`), as a retry after a failure has
to.  Whether another delivery is at work on the reminder, or its e-mail has gone out and only
the mark `sent` is missing, it does not look.

`delivered_at_most_once`: an e-mail is accepted at most once, in every interleaving in which no
delivery takes over a reminder that another one is processing or whose e-mail was accepted.
-/

/-- What `processReminder` sends after it has read the row. -/
def Stmt.Records (id : ReminderId) : Stmt → Prop
  | .selectBooking _ => True
  | .selectProvider _ => True
  | .setReminderStatus k text => k = id ∧ text ≠ "scheduled"
  | _ => False

/-- What `processReminder` asks. -/
def Ask.Delivers (id : ReminderId) : Ask → Prop
  | .now => True
  | .selectClient _ => True
  | .sendEmail _ k => k = id
  | .effect _ => False
  | .queueAdd .. => False

/-- The question is a call of the e-mail provider. -/
def Ask.sends : Ask → Prop
  | .sendEmail .. => True
  | _ => False

section Talks

variable {isConfigured : Bool} {id : ReminderId}

theorem talks_mark {text : String} (h : text ≠ "scheduled") (out : Except JsError Unit) :
    ((dbQuery (.setReminderStatus id text)).bind fun _ => ofExcept out).Talks (Stmt.Records id)
      (Ask.Delivers id) := by
  cases out with
  | ok u => exact ⟨⟨rfl, h⟩, fun _ => trivial, fun _ => trivial⟩
  | error e => exact ⟨⟨rfl, h⟩, fun _ => trivial, fun _ => trivial⟩

theorem talks_getClient (clientId : ClientId) :
    (getClient clientId).Talks (Stmt.Records id) (Ask.Delivers id) := by
  refine ⟨trivial, fun x => ?_⟩
  cases x <;> trivial

theorem talks_renderReminderEmail (booking : Booking) :
    (renderReminderEmail id.1 booking).Talks (Stmt.Records id) (Ask.Delivers id) := by
  refine (talks_getClient _).bind fun client => ?_
  split
  · trivial
  · exact ⟨trivial, fun _ => trivial, fun _ => trivial⟩

theorem talks_sendReminder (booking : Booking) :
    (sendReminder isConfigured id booking).Talks (Stmt.Records id) (Ask.Delivers id) := by
  refine Talks.bind ((talks_renderReminderEmail booking).bind fun receiver => ?_) fun result => ?_
  · cases isConfigured with
    | false => trivial
    | true => exact ⟨rfl, fun _ => trivial⟩
  · split
    · exact talks_mark (by decide) (.ok ())
    · trivial
    · exact talks_mark (by decide) (.ok ())

theorem talks_remindClient (reminder : ReminderJob) (booking : Booking) :
    (remindClient isConfigured id reminder booking).Talks (Stmt.Records id) (Ask.Delivers id) := by
  refine ⟨trivial, fun now => ?_⟩
  simp only [Prog.andThen]
  split
  · exact talks_mark (by decide) (.error _)
  · refine (talks_getClient _).bind fun client => ?_
    split
    · trivial
    · split
      · exact talks_mark (by decide) (.ok ())
      · exact talks_sendReminder booking

/-- What is left of `processReminder` when the row has been read. -/
theorem processReminder_eq (isConfigured : Bool) (id : ReminderId) :
    ∃ loaded : Option ReminderJob → Program Unit,
    processReminder isConfigured id = .stmt (.selectReminder id) loaded .throw ∧
      ∀ r, (loaded r).Talks (Stmt.Records id) (Ask.Delivers id) := by
  refine ⟨_, rfl, fun r => ?_⟩
  cases r with
  | none => trivial
  | some reminder =>
    simp only [Prog.andThen]
    split
    · trivial
    · refine ⟨trivial, fun b => ?_, fun _ => trivial⟩
      cases b with
      | none => exact talks_mark (by decide) (.error _)
      | some booking =>
        simp only [Prog.andThen]
        split
        · exact talks_mark (by decide) (.ok ())
        · exact talks_remindClient reminder booking

/-! ### One e-mail for each delivery -/

theorem asks_mark (text : String) (out : Except JsError Unit) :
    ((dbQuery (.setReminderStatus id text)).bind fun _ => ofExcept out).AsksAtMost Ask.sends 0 := by
  cases out with
  | ok u => exact ⟨fun _ => trivial, fun _ => trivial⟩
  | error e => exact ⟨fun _ => trivial, fun _ => trivial⟩

theorem asks_getClient (clientId : ClientId) : (getClient clientId).AsksAtMost Ask.sends 0 := by
  refine Or.inl ⟨id, fun x => ?_⟩
  cases x <;> trivial

theorem asks_renderReminderEmail (booking : Booking) :
    (renderReminderEmail id.1 booking).AsksAtMost Ask.sends 0 := by
  refine (asks_getClient _).bind (m := 0) fun client => ?_
  split
  · trivial
  · exact ⟨fun _ => trivial, fun _ => trivial⟩

theorem asks_sendReminder (booking : Booking) :
    (sendReminder isConfigured id booking).AsksAtMost Ask.sends 1 := by
  refine AsksAtMost.bind (n := 1) (m := 0) ((asks_renderReminderEmail booking).bind (m := 1)
    fun receiver => ?_) fun result => ?_
  · cases isConfigured with
    | false => trivial
    | true => exact Or.inr ⟨trivial, 0, rfl, fun _ => trivial⟩
  · split
    · exact asks_mark _ (.ok ())
    · trivial
    · exact asks_mark _ (.ok ())

theorem asks_remindClient (reminder : ReminderJob) (booking : Booking) :
    (remindClient isConfigured id reminder booking).AsksAtMost Ask.sends 1 := by
  refine Or.inl ⟨fun h => h, fun now => ?_⟩
  simp only [Prog.andThen]
  split
  · exact (asks_mark _ (.error _)).mono (by omega)
  · refine (asks_getClient _).bind (m := 1) fun client => ?_
    split
    · trivial
    · split
      · exact (asks_mark _ (.ok ())).mono (by omega)
      · exact asks_sendReminder booking

/-- **A delivery sends at most one e-mail.** -/
theorem asks_processReminder : (processReminder isConfigured id).AsksAtMost Ask.sends 1 := by
  refine ⟨fun r => ?_, fun _ => trivial⟩
  cases r with
  | none => trivial
  | some reminder =>
    simp only [Prog.andThen]
    split
    · trivial
    · refine ⟨fun b => ?_, fun _ => trivial⟩
      cases b with
      | none => exact (asks_mark _ (.error _)).mono (by omega)
      | some booking =>
        simp only [Prog.andThen]
        split
        · exact (asks_mark _ (.ok ())).mono (by omega)
        · exact asks_remindClient reminder booking

end Talks

/-! ### Where a delivery stands -/

section Stages

variable (isConfigured : Bool) (id : ReminderId)

/-- The delivery is inside `processReminder`, and may still send its e-mail. -/
def Processing (p : Program Unit) : Prop :=
  (processReminder isConfigured id).Leads p ∧ ¬ p.AsksAtMost Ask.sends 0

/-- Where a delivery of the reminder stands. -/
inductive DeliveryStage : Program Unit → Prop
  | start : DeliveryStage (process isConfigured (some id))
  | claim (lockedUntil : Instant) : DeliveryStage (claimAndProcess isConfigured id lockedUntil)
  | recheck : DeliveryStage (recheckClaim isConfigured id)
  | inside {p} : (processReminder isConfigured id).Leads p → DeliveryStage p
  | done {p} : p.Done → DeliveryStage p

/-- The reminder is `scheduled`. -/
def Waiting (d : Database) : Prop :=
  ∃ row, d.reminderJobs.lookup id = some row ∧ row.status = .scheduled

/-- **What a move of a delivery does** to the reminders that wait and the e-mails that were
    accepted: nothing, or it claims its reminder, takes it over, or its e-mail is accepted. -/
inductive DeliveryMove (cat : Catalog) (d : Database) :
    Program Unit → List Write → Program Unit → Prop
  | quiet {p ws p'} : (Processing isConfigured id p' → Processing isConfigured id p) →
      ((chronos cat).apply ws d).emails = d.emails →
      (∀ k, Waiting k ((chronos cat).apply ws d) → Waiting k d) → DeliveryMove cat d p ws p'
  | claim {p ws p'} : Waiting id d → ((chronos cat).apply ws d).emails = d.emails →
      (∀ k, Waiting k ((chronos cat).apply ws d) → Waiting k d ∧ k ≠ id) →
      DeliveryMove cat d p ws p'
  | takeOver {p'} : (∃ row, d.reminderJobs.lookup id = some row ∧ row.status = .sending) →
      DeliveryMove cat d (recheckClaim isConfigured id) [] p'
  | send {p p'} : Processing isConfigured id p → ¬ Processing isConfigured id p' →
      DeliveryMove cat d p [.email id] p'

end Stages

section Moves

variable {cat : Catalog} {isConfigured : Bool} {id : ReminderId} {d : Database}
variable {p p' : Program Unit} {ws : List Write}

/-- Inside `processReminder` the row is still to be read, or it has been. -/
theorem inside_cases (h : (processReminder isConfigured id).Leads p) :
    p = processReminder isConfigured id ∨ p.Talks (Stmt.Records id) (Ask.Delivers id) := by
  obtain ⟨loaded, heq, htalks⟩ := processReminder_eq isConfigured id
  rw [heq] at h ⊢
  rcases h.stmt_cases with hp | ⟨r, hr⟩ | ⟨e, he⟩
  · exact Or.inl hp
  · exact Or.inr (hr.talks (htalks r))
  · have hthrow : (Prog.throw e : Program Unit).Talks (Stmt.Records id) (Ask.Delivers id) := trivial
    exact Or.inr (he.talks hthrow)

theorem not_processing_done (h : p.Done) : ¬ Processing isConfigured id p := by
  rintro ⟨-, hasks⟩
  cases p with
  | ret a => exact hasks trivial
  | throw e => exact hasks trivial
  | stmt s ok err => exact h
  | control c ok err => exact h
  | ask a k => exact h

theorem not_processing_claim (lockedUntil : Instant) :
    ¬ Processing isConfigured id (claimAndProcess isConfigured id lockedUntil) := by
  rintro ⟨hleads, -⟩
  rcases inside_cases hleads with heq | htalks
  · cases heq
  · exact htalks.1

/-- The fallback is not inside `processReminder`: it has a row to read, and then one more. -/
theorem not_processing_recheck : ¬ Processing isConfigured id (recheckClaim isConfigured id) := by
  rintro ⟨hleads, -⟩
  rcases inside_cases hleads with heq | htalks
  · obtain ⟨-, hok, -⟩ := Prog.stmt.inj heq
    have hsending := congrFun (eq_of_heq hok) (some ⟨0, .sending, none⟩)
    cases hsending
  · exact htalks.1

theorem not_processing_start : ¬ Processing isConfigured id (process isConfigured (some id)) := by
  rintro ⟨hleads, -⟩
  rcases inside_cases hleads with heq | htalks
  · cases heq
  · exact htalks.2 0 |>.1

/-- A delivery opens no transaction. -/
theorem talks_process :
    (process isConfigured (some id)).Talks (fun _ => True) fun _ => True := by
  have hinside : (processReminder isConfigured id).Talks (fun _ => True) fun _ => True := by
    obtain ⟨loaded, heq, htalks⟩ := processReminder_eq isConfigured id
    rw [heq]
    exact ⟨trivial, fun r => (htalks r).mono (fun _ _ => trivial) fun _ _ => trivial, fun _ => trivial⟩
  refine ⟨trivial, fun now => ⟨trivial, fun r => ?_, fun _ => trivial⟩⟩
  cases r with
  | some row => exact hinside
  | none =>
    refine ⟨trivial, fun check => ?_, fun _ => trivial⟩
    simp only [Prog.andThen]
    split
    · exact hinside
    · trivial

/-- A status other than `scheduled` is recorded. -/
theorem waiting_reminder {k : ReminderId} {row : ReminderJob} (h : row.status ≠ .scheduled)
    (hk : Waiting k ((chronos cat).apply [.reminder id.1 id.2 row] d)) : Waiting k d ∧ k ≠ id := by
  obtain ⟨row', hrow', hstatus⟩ := hk
  change (d.reminderJobs.insert id row).lookup k = some row' at hrow'
  by_cases hid : k = id
  · rw [hid, AList.lookup_insert, Option.some.injEq] at hrow'
    rw [hrow'] at h
    exact absurd hstatus h
  · rw [AList.lookup_insert_ne hid] at hrow'
    exact ⟨⟨row', hrow', hstatus⟩, hid⟩

theorem ofText?_ne_scheduled {text : String} {status : ReminderJobStatus}
    (h : ReminderJobStatus.ofText? text = some status) (hne : text ≠ "scheduled") :
    status ≠ .scheduled := by
  rintro rfl
  unfold ReminderJobStatus.ofText? at h
  split at h
  · next heq => exact hne heq
  · repeat' split at h
    all_goals cases h

/-- What a recording statement writes leaves e-mails and waiting reminders alone. -/
theorem quiet_records {s : Stmt} {o : Nat} {r : s.Rows} (hs : s.Records id)
    (hx : (exec cat s o d).result = .ok (r, ws)) :
    ((chronos cat).apply ws d).emails = d.emails ∧
      ∀ k, Waiting k ((chronos cat).apply ws d) → Waiting k d := by
  cases s with
  | selectBooking b =>
    obtain ⟨-, rfl⟩ := read_ok hx
    exact ⟨rfl, fun _ h => h⟩
  | selectProvider p =>
    have hws : ws = [] := by cases p <;> exact (read_ok hx).2
    rw [hws]
    exact ⟨rfl, fun _ h => h⟩
  | setReminderStatus k text =>
    obtain ⟨rfl, htext⟩ := hs
    rcases setReminderStatus_ok hx with ⟨rfl, -⟩ | ⟨row, status, -, hstatus, rfl, -⟩
    · exact ⟨rfl, fun _ h => h⟩
    · refine ⟨rfl, fun k' hk' => (waiting_reminder ?_ hk').1⟩
      exact ofText?_ne_scheduled hstatus htext
  | _ => exact hs.elim

/-- A move inside `processReminder`. -/
theorem deliveryMove_inside (hleads : (processReminder isConfigured id).Leads p)
    (h : OneMove (chronos cat) d p ws p') : DeliveryMove isConfigured id cat d p ws p' := by
  have hmono : Processing isConfigured id p' → Processing isConfigured id p :=
    fun hp' => ⟨hleads, fun hp => hp'.2 (h.asksAtMost hp)⟩
  have hidle : ws = [] → DeliveryMove isConfigured id cat d p ws p' := by
    rintro rfl
    exact .quiet hmono rfl fun _ h => h
  have hasks : p.AsksAtMost Ask.sends 1 := hleads.asksAtMost asks_processReminder
  cases h with
  | disturbed e => exact hidle rfl
  | refused o hx => exact hidle rfl
  | @ran s ok err r ws o hx =>
    rcases inside_cases hleads with heq | htalks
    · cases heq
      exact hidle (read_ok hx).2
    · obtain ⟨hemails, hwaiting⟩ := quiet_records htalks.1 hx
      exact .quiet hmono hemails hwaiting
  | @answered a k x =>
    rcases inside_cases hleads with heq | htalks
    · cases heq
    · cases a with
      | now => exact hidle rfl
      | selectClient c => exact hidle rfl
      | effect e => exact htalks.1.elim
      | queueAdd b offset now delayMs => exact htalks.1.elim
      | sendEmail receiver key =>
        obtain rfl : key = id := htalks.1
        cases x with
        | refused err => exact hidle rfl
        | raised err => exact hidle rfl
        | sent messageId =>
          -- This was the one mail, so none is left to send.
          have hlast : (k (.sent messageId)).AsksAtMost Ask.sends 0 := by
            rcases hasks with ⟨hnot, -⟩ | ⟨-, m, hm, hk⟩
            · exact absurd trivial hnot
            · obtain rfl : m = 0 := by omega
              exact hk _
          refine .send ⟨hleads, ?_⟩ fun hp' => hp'.2 hlast
          rintro (⟨hnot, -⟩ | ⟨-, m, hm, -⟩)
          · exact hnot trivial
          · omega

/-- **Moves of a delivery.** -/
theorem deliveryMove (hstage : DeliveryStage isConfigured id p)
    (h : OneMove (chronos cat) d p ws p') :
    DeliveryStage isConfigured id p' ∧ DeliveryMove isConfigured id cat d p ws p' := by
  have hquiet : ∀ {p ws p'}, ws = [] → ¬ Processing isConfigured id p' →
      DeliveryMove isConfigured id cat d p ws p' := by
    rintro p ws p' rfl hp'
    exact .quiet (fun h => absurd h hp') rfl fun _ h => h
  cases hstage with
  | inside hleads => exact ⟨.inside (h.leads hleads), deliveryMove_inside hleads h⟩
  | done hdone => cases h <;> exact hdone.elim
  | start =>
    cases h with
    | answered now => exact ⟨.claim _, hquiet rfl (not_processing_claim _)⟩
  | claim lockedUntil =>
    cases h with
    | disturbed e => exact ⟨.done trivial, hquiet rfl (not_processing_done trivial)⟩
    | refused o hx => exact ⟨.done trivial, hquiet rfl (not_processing_done trivial)⟩
    | ran o hx =>
      rcases updateReminderWhere_ok hx with ⟨rfl, rfl, -⟩ | ⟨row, hrow, hscheduled, rfl, rfl, -⟩
      · exact ⟨.recheck, hquiet rfl not_processing_recheck⟩
      · have hwaiting : Waiting id d := ⟨row, hrow, by simpa [ReminderJob.scheduled] using hscheduled⟩
        refine ⟨.inside .refl, .claim hwaiting rfl fun k hk => waiting_reminder ?_ hk⟩
        simp [ReminderJob.claim]
  | recheck =>
    cases h with
    | disturbed e => exact ⟨.done trivial, hquiet rfl (not_processing_done trivial)⟩
    | refused o hx => exact ⟨.done trivial, hquiet rfl (not_processing_done trivial)⟩
    | ran o hx =>
      obtain ⟨rfl, rfl⟩ := read_ok hx
      simp only [Prog.andThen]
      split
      · next hsending =>
        refine ⟨.inside .refl, .takeOver ?_⟩
        simpa [Option.any_eq_true] using hsending
      · exact ⟨.done trivial, hquiet rfl (not_processing_done trivial)⟩

end Moves

/-! ### Every interleaving -/

/-- Deliveries of reminders, and the database. -/
abbrev Workers (C ι : Type) :=
  World Stmt.Rows Ask.Answer JsError Unit Database Write Lock C ι

/-- Delivery `i` is one of reminder `reminder i`. -/
def Workers.start {C ι : Type} (isConfigured : Bool) (d₀ : Database) (reminder : ι → ReminderId) :
    Workers C ι :=
  .init d₀ fun i => process isConfigured (some (reminder i))

section Interleaving

variable {C ι : Type}

/-- Where the fallback of `process` finds its reminder `sending`, no e-mail for it has been
    accepted, and no other delivery is inside `processReminder` and may still send one. -/
def TakesOverAlone (isConfigured : Bool) (reminder : ι → ReminderId) (w : Workers C ι)
    (l : Label Ask.Answer Nat JsError C ι) : Prop :=
  w.prog l.thread = recheckClaim isConfigured (reminder l.thread) →
  (∃ row, w.db.reminderJobs.lookup (reminder l.thread) = some row ∧ row.status = .sending) →
    reminder l.thread ∉ w.db.emails ∧
      ∀ j, j ≠ l.thread → reminder j = reminder l.thread →
        ¬ Processing isConfigured (reminder j) (w.prog j)

/-- The invariant of the deliveries: at most one of a reminder may still send, none when the
    reminder waits or its e-mail was accepted. -/
structure SentOnce (isConfigured : Bool) (reminder : ι → ReminderId) (w : Workers C ι) : Prop where
  autocommits : w.Autocommits (fun _ => True) (fun _ => True)
  stage : ∀ i, DeliveryStage isConfigured (reminder i) (w.prog i)
  once : ∀ k, w.db.emails.count k ≤ 1
  alone : ∀ i j, reminder i = reminder j → Processing isConfigured (reminder i) (w.prog i) →
    Processing isConfigured (reminder j) (w.prog j) → i = j
  waiting : ∀ i, Waiting (reminder i) w.db →
    reminder i ∉ w.db.emails ∧ ¬ Processing isConfigured (reminder i) (w.prog i)
  accepted : ∀ i, reminder i ∈ w.db.emails → ¬ Processing isConfigured (reminder i) (w.prog i)

variable {cat : Catalog} {isConfigured : Bool} {reminder : ι → ReminderId} {d₀ : Database}
variable [DecidableEq ι] [DecidableEq C] {w w' : Workers C ι}
variable {l : Label Ask.Answer Nat JsError C ι}

/-- **Step lemma.** -/
theorem SentOnce.step (h : SentOnce isConfigured reminder w)
    (hl : TakesOverAlone isConfigured reminder w l) (hs : w.step (chronos cat) l = some w') :
    SentOnce isConfigured reminder w' := by
  obtain ⟨hauto, ws, p', hone, hdb, hprog⟩ := h.autocommits.step hs
  obtain ⟨hstage, hmove⟩ := deliveryMove (h.stage l.thread) hone
  have hself : w'.prog l.thread = p' := by rw [hprog, Function.update_self]
  have hother : ∀ i, i ≠ l.thread → w'.prog i = w.prog i := by
    intro i hi
    rw [hprog, Function.update_of_ne hi]
  have hstages : ∀ i, DeliveryStage isConfigured (reminder i) (w'.prog i) := by
    intro i
    by_cases hi : i = l.thread
    · rw [hi, hself]; exact hstage
    · rw [hother i hi]; exact h.stage i
  have hkept : ∀ i, i ≠ l.thread → Processing isConfigured (reminder i) (w'.prog i) →
      Processing isConfigured (reminder i) (w.prog i) := by
    intro i hi hp
    rwa [hother i hi] at hp
  -- A delivery enters `processReminder` when no other one may send, and none has.
  have henter : ((chronos cat).apply ws w.db).emails = w.db.emails →
      (∀ k, Waiting k ((chronos cat).apply ws w.db) → Waiting k w.db ∧ k ≠ reminder l.thread) →
      reminder l.thread ∉ w.db.emails →
      (∀ j, j ≠ l.thread → reminder j = reminder l.thread →
        ¬ Processing isConfigured (reminder j) (w.prog j)) →
      SentOnce isConfigured reminder w' := by
    intro hemails hwaiting hnone hfree
    rw [← hdb] at hemails hwaiting
    refine ⟨hauto, hstages, fun k => by rw [hemails]; exact h.once k, fun i j hij hi hj => ?_,
      fun i hi => ?_, fun i hi => ?_⟩
    · by_cases hil : i = l.thread
      · by_cases hjl : j = l.thread
        · rw [hil, hjl]
        · exact absurd (hkept j hjl hj) (hfree j hjl (hil ▸ hij.symm))
      · by_cases hjl : j = l.thread
        · exact absurd (hkept i hil hi) (hfree i hil (hjl ▸ hij))
        · exact h.alone i j hij (hkept i hil hi) (hkept j hjl hj)
    · obtain ⟨hbefore, hne⟩ := hwaiting _ hi
      have hil : i ≠ l.thread := by rintro rfl; exact hne rfl
      obtain ⟨hsent, hproc⟩ := h.waiting i hbefore
      exact ⟨by rw [hemails]; exact hsent, fun hp => hproc (hkept i hil hp)⟩
    · rw [hemails] at hi
      have hil : i ≠ l.thread := by rintro rfl; exact hnone hi
      exact fun hp => h.accepted i hi (hkept i hil hp)
  generalize hp : w.prog l.thread = p at hmove
  cases hmove with
  | quiet hmono hemails hwaiting =>
    rw [← hdb] at hemails hwaiting
    have hall : ∀ i, Processing isConfigured (reminder i) (w'.prog i) →
        Processing isConfigured (reminder i) (w.prog i) := by
      intro i hi
      by_cases hil : i = l.thread
      · subst hil
        rw [hself] at hi
        rw [hp]
        exact hmono hi
      · exact hkept i hil hi
    refine ⟨hauto, hstages, fun k => by rw [hemails]; exact h.once k,
      fun i j hij hi hj => h.alone i j hij (hall i hi) (hall j hj), fun i hi => ?_, fun i hi => ?_⟩
    · obtain ⟨hsent, hproc⟩ := h.waiting i (hwaiting _ hi)
      exact ⟨by rw [hemails]; exact hsent, fun hp => hproc (hall i hp)⟩
    · rw [hemails] at hi
      exact fun hp => h.accepted i hi (hall i hp)
  | claim hbefore hemails hwaiting =>
    refine henter hemails hwaiting (h.waiting _ hbefore).1 fun j _ hj => ?_
    exact (h.waiting j (hj ▸ hbefore)).2
  | takeOver hsending =>
    obtain ⟨hnone, hfree⟩ := hl hp hsending
    refine henter rfl (fun k hk => ⟨hk, ?_⟩) hnone hfree
    rintro rfl
    obtain ⟨row, hrow, hstatus⟩ := hsending
    obtain ⟨row', hrow', hstatus'⟩ := hk
    obtain rfl := Option.some.inj (hrow.symm.trans hrow')
    rw [hstatus] at hstatus'
    cases hstatus'
  | send hbefore hafter =>
    rw [← hp] at hbefore
    have hnone : reminder l.thread ∉ w.db.emails := fun hmem => h.accepted _ hmem hbefore
    have hemails : w'.db.emails = w.db.emails ++ [reminder l.thread] := by rw [hdb]; rfl
    have hjobs : ∀ k, Waiting k w'.db ↔ Waiting k w.db := by intro k; rw [hdb]; rfl
    have hne : ∀ i, Processing isConfigured (reminder i) (w'.prog i) → i ≠ l.thread := by
      rintro i hi rfl
      rw [hself] at hi
      exact hafter hi
    refine ⟨hauto, hstages, fun k => ?_, fun i j hij hi hj =>
      h.alone i j hij (hkept i (hne i hi) hi) (hkept j (hne j hj) hj), fun i hi => ?_, fun i hi => ?_⟩
    · have hcount := h.once k
      rw [hemails, List.count_append]
      by_cases hk : k = reminder l.thread
      · have hzero : w.db.emails.count k = 0 := List.count_eq_zero_of_not_mem (hk ▸ hnone)
        rw [hzero, hk]
        simp
      · have hzero : [reminder l.thread].count k = 0 :=
          List.count_eq_zero_of_not_mem (by simpa using hk)
        omega
    · obtain ⟨hsent, hproc⟩ := h.waiting i ((hjobs _).mp hi)
      refine ⟨?_, fun hp => hproc (hkept i (hne i hp) hp)⟩
      rw [hemails, List.mem_append, List.mem_singleton]
      rintro (hmem | hsame)
      · exact hsent hmem
      · exact (h.waiting _ (hsame ▸ (hjobs _).mp hi)).2 hbefore
    · rw [hemails, List.mem_append, List.mem_singleton] at hi
      intro hp
      rcases hi with hmem | hsame
      · exact h.accepted i hmem (hkept i (hne i hp) hp)
      · exact hne i hp (h.alone i l.thread hsame (hkept i (hne i hp) hp) hbefore)

omit [DecidableEq ι] [DecidableEq C] in
theorem sentOnce_start (hnone : d₀.emails = []) :
    SentOnce isConfigured reminder (Workers.start isConfigured d₀ reminder : Workers C ι) where
  autocommits := autocommits_init fun i => talks_process
  stage _ := .start
  once k := by
    show d₀.emails.count k ≤ 1
    simp [hnone]
  alone i _ _ hi _ := absurd hi not_processing_start
  waiting i _ := ⟨by show reminder i ∉ d₀.emails; simp [hnone], not_processing_start⟩
  accepted _ _ := not_processing_start

/-- **A reminder is delivered at most once** in every interleaving of deliveries whose fallbacks
    take over alone, whatever the provider answers and whichever statements fail. -/
theorem delivered_at_most_once (hnone : d₀.emails = [])
    (h : Reaches (chronos cat) (TakesOverAlone isConfigured reminder)
      (Workers.start isConfigured d₀ reminder) w) (k : ReminderId) :
    w.db.emails.count k ≤ 1 := by
  have hinv : SentOnce isConfigured reminder w := by
    induction h with
    | start => exact sentOnce_start hnone
    | step _ hl hs ih => exact ih.step hl hs
  exact hinv.once k

end Interleaving

/-! ### Deliveries of one reminder -/

/-- The next statement of a program records an outcome. -/
def recordsNext : Program Unit → Bool
  | .stmt (.setReminderStatus _ _) _ _ => true
  | _ => false

/-- One delivery on its own: the e-mail is accepted, and accepted once. -/
theorem delivered_at_most_once_sent : ∃ w : Workers Unit Unit,
    (1, 60) ∈ w.db.emails ∧ w.db.emails.count (1, 60) ≤ 1 := by
  have hrun : ∃ w : Workers Unit Unit, World.run (chronos sampleCatalog)
      (fun w _ => decide (w.db.emails = []) || recordsNext (w.prog ()))
      (Workers.start true (sampleRemind .scheduled none) fun _ => (1, 60))
      (List.replicate 10 ⟨(), (), workerEnv (.sent none)⟩) = some w ∧ w.db.emails = [(1, 60)] :=
    ⟨_, rfl, rfl⟩
  obtain ⟨w, hw, hemails⟩ := hrun
  have hreach : Reaches (chronos sampleCatalog) (TakesOverAlone true fun _ => (1, 60))
      (Workers.start true (sampleRemind .scheduled none) fun _ => (1, 60)) w := by
    refine reaches_of_run (fun w l _ hcheck hprog _ => ⟨?_, fun j hj => absurd rfl hj⟩) hw
    change w.prog () = recheckClaim true (1, 60) at hprog
    have hnot : recordsNext (w.prog ()) = false := by rw [hprog]; rfl
    have hempty : w.db.emails = [] := by simpa [hnot] using hcheck
    simp [hempty]
  exact ⟨w, by simp [hemails], delivered_at_most_once rfl hreach (1, 60)⟩

/-- **A reminder is delivered twice.**  One delivery claims the reminder and is about to send
    it; a second one finds it `sending`, takes it over and sends it; then the first one does. -/
theorem delivered_twice : ∃ w : Workers Bool Bool,
    Reaches (chronos sampleCatalog) (fun _ _ => True)
      (Workers.start true (sampleRemind .scheduled none) fun _ => (1, 60)) w ∧
    w.db.emails.count (1, 60) = 2 := by
  have hrun : ∃ w : Workers Bool Bool, World.run (chronos sampleCatalog) (fun _ _ => true)
      (Workers.start true (sampleRemind .scheduled none) fun _ => (1, 60))
      ((List.replicate 8 true ++ List.replicate 11 false ++ [true]).map fun i =>
        ⟨i, i, workerEnv (.sent none)⟩) = some w ∧ w.db.emails = [(1, 60), (1, 60)] :=
    ⟨_, rfl, rfl⟩
  obtain ⟨w, hw, hemails⟩ := hrun
  exact ⟨w, reaches_of_run (fun _ _ _ _ => trivial) hw, by rw [hemails]; rfl⟩

end Chronos
