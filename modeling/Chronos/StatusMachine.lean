import Chronos.Tasks

namespace Chronos

open ReadCommitted ReadCommitted.Prog

/-!
# The statuses of a reminder

A reminder is `scheduled`, then `sending`, and ends `sent`, `failed`, `skipped` or `cancelled`
(`suppressed` is none of the statuses the table admits).  Most statements that set the status ask
for the one they find.  Two do not: what `rescheduleBooking` does to the reminders of the old
booking, and what the worker records.

`status_machine_holds`: as long as these two meet only reminders that may become what they set,
every change of a status is one of the state machine's, and a final status is final.
-/

/-- The statuses that may follow. -/
def ReminderJobStatus.next : ReminderJobStatus → List ReminderJobStatus
  | .scheduled => [.sending, .skipped, .cancelled]
  | .sending => [.sent, .failed, .cancelled]
  | .sent => []
  | .cancelled => []
  | .skipped => []
  | .failed => []

/-- The status stays, or changes as it may. -/
def ReminderJobStatus.Becomes (old new : ReminderJobStatus) : Prop := new = old ∨ new ∈ old.next

instance (old new : ReminderJobStatus) : Decidable (old.Becomes new) :=
  inferInstanceAs (Decidable (new = old ∨ new ∈ old.next))

/-- Nothing follows. -/
def ReminderJobStatus.Final (status : ReminderJobStatus) : Prop := status.next = []

/-- All reminders of `d` are in `d'`, with the status they had or one that may follow. -/
def Database.StatusStep (d d' : Database) : Prop :=
  ∀ k row, d.reminderJobs.lookup k = some row →
    ∃ row', d'.reminderJobs.lookup k = some row' ∧ row.status.Becomes row'.status

/-- A statement that sets statuses whatever they are meets, on `d`, only reminders that may become
    what it sets. -/
def Stmt.Careful (d : Database) : Stmt → Prop
  | .cancelReminders b => ∀ offset row, d.reminderJobs.lookup (b, offset) = some row →
      row.status.Becomes .cancelled
  | .setReminderStatus id text => ∀ row status, d.reminderJobs.lookup id = some row →
      ReminderJobStatus.ofText? text = some status → row.status.Becomes status
  | _ => True

/-- The write to `d` changes statuses as they may. -/
def Write.KeepsMachine (d : Database) : Write → Prop
  | .reminder b offset row => ∀ old, d.reminderJobs.lookup (b, offset) = some old →
      old.status.Becomes row.status
  | .cancelReminders b => ∀ offset row, d.reminderJobs.lookup (b, offset) = some row →
      row.status.Becomes .cancelled
  | _ => True

/-- The lock on the reminders a write changes. -/
def Write.reminderLock : Write → List Lock
  | .reminder b _ _ => [.reminders b]
  | .cancelReminders b => [.reminders b]
  | .cancelPendingReminders b => [.reminders b]
  | _ => []

/-- The reminders under the locks are the same. -/
def Database.SameReminders (ks : List Lock) (d d' : Database) : Prop :=
  ∀ b, .reminders b ∈ ks → ∀ offset,
    d.reminderJobs.lookup (b, offset) = d'.reminderJobs.lookup (b, offset)

section Writes

variable {cat : Catalog} {d d' : Database} {w : Write}

/-- A pending reminder may be cancelled. -/
theorem becomes_cancel {row : ReminderJob} (h : row.pending = true) :
    row.status.Becomes row.cancel.status := by
  unfold ReminderJob.pending at h
  rcases of_decide_eq_true h with hs | hs
  · rw [hs]
    show ReminderJobStatus.Becomes .scheduled .cancelled
    decide
  · rw [hs]
    show ReminderJobStatus.Becomes .sending .cancelled
    decide

/-- A due reminder may be claimed, and claimed again. -/
theorem becomes_claim {row : ReminderJob} {now lockedUntil : Instant} (h : row.due now = true) :
    row.status.Becomes (row.claim lockedUntil).status := by
  unfold ReminderJob.due ReminderJob.pending at h
  rw [Bool.and_eq_true] at h
  rcases of_decide_eq_true h.1 with hs | hs
  · rw [hs]
    show ReminderJobStatus.Becomes .scheduled .sending
    decide
  · rw [hs]
    exact .inl rfl

/-- What a write makes of a reminder. -/
theorem Write.KeepsMachine.statusStep (hw : w.KeepsMachine d) : d.StatusStep (w.apply d) := by
  -- Writes to other tables.
  have hstays : ∀ d' : Database, d'.reminderJobs = d.reminderJobs → d.StatusStep d' := by
    intro d' hsame k row hrow
    exact ⟨row, by rw [hsame, hrow], .inl rfl⟩
  cases w with
  | reminder b offset new =>
    intro k row hrow
    rw [lookup_reminder_write]
    by_cases hk : k = (b, offset)
    · rw [if_pos hk]
      rw [hk] at hrow
      exact ⟨new, rfl, hw row hrow⟩
    · rw [if_neg hk]
      exact ⟨row, hrow, .inl rfl⟩
  | cancelReminders b =>
    intro k row hrow
    have hlookup : ((Write.cancelReminders b).apply d).reminderJobs.lookup k =
        (d.reminderJobs.lookup k).map fun r => if decide (k.1 = b) then r.cancel else r :=
      lookup_updateWhere _ _ _ _
    rw [hlookup, hrow]
    refine ⟨_, rfl, ?_⟩
    dsimp only
    split
    · next hb =>
      obtain rfl : k.1 = b := of_decide_eq_true hb
      exact hw k.2 row hrow
    · exact .inl rfl
  | cancelPendingReminders b =>
    intro k row hrow
    have hlookup : ((Write.cancelPendingReminders b).apply d).reminderJobs.lookup k =
        (d.reminderJobs.lookup k).map fun r =>
          if decide (k.1 = b) && r.pending then r.cancel else r := lookup_updateWhere _ _ _ _
    rw [hlookup, hrow]
    refine ⟨_, rfl, ?_⟩
    dsimp only
    split
    · next hcond =>
      rw [Bool.and_eq_true] at hcond
      exact becomes_cancel hcond.2
    · exact .inl rfl
  | _ => exact hstays _ rfl

theorem Write.KeepsMachine.congr (hsame : Database.SameReminders w.reminderLock d d')
    (hw : w.KeepsMachine d) : w.KeepsMachine d' := by
  cases w with
  | reminder b offset row =>
    intro old hold
    rw [← hsame b (List.mem_singleton_self _)] at hold
    exact hw old hold
  | cancelReminders b =>
    intro offset row hrow
    rw [← hsame b (List.mem_singleton_self _)] at hrow
    exact hw offset row hrow
  | _ => exact trivial

/-- A write changes no reminders but those under its lock. -/
theorem sameReminders_write {ks : List Lock} (h : ∀ k ∈ ks, k ∉ w.reminderLock) :
    Database.SameReminders ks d (w.apply d) := by
  intro b hb offset
  have hnot := h _ hb
  cases w with
  | reminder b' offset' row =>
    have hne : (b, offset) ≠ (b', offset') := by
      rintro heq
      obtain ⟨rfl, -⟩ := Prod.mk.inj heq
      exact hnot (List.mem_singleton_self _)
    rw [lookup_reminder_write, if_neg hne]
  | cancelReminders b' =>
    have hne : b ≠ b' := by
      rintro rfl
      exact hnot (List.mem_singleton_self _)
    have hlookup := lookup_updateWhere (fun k _ => decide (k.1 = b')) ReminderJob.cancel
      d.reminderJobs (b, offset)
    change _ = (updateWhere _ _ _).lookup _
    rw [hlookup]
    simp [hne]
  | cancelPendingReminders b' =>
    have hne : b ≠ b' := by
      rintro rfl
      exact hnot (List.mem_singleton_self _)
    have hlookup := lookup_updateWhere (fun k r => decide (k.1 = b') && r.pending)
      ReminderJob.cancel d.reminderJobs (b, offset)
    change _ = (updateWhere _ _ _).lookup _
    rw [hlookup]
    simp [hne]
  | _ => rfl

/-- Where the reminders are the same, a write leaves them the same. -/
theorem Database.SameReminders.write {ks : List Lock} (h : Database.SameReminders ks d d')
    (w : Write) : Database.SameReminders ks (w.apply d) (w.apply d') := by
  intro b hb offset
  have hsame := h b hb offset
  cases w with
  | reminder b' offset' row => rw [lookup_reminder_write, lookup_reminder_write, hsame]
  | cancelReminders b' =>
    change (updateWhere _ _ _).lookup _ = (updateWhere _ _ _).lookup _
    rw [lookup_updateWhere, lookup_updateWhere, hsame]
  | cancelPendingReminders b' =>
    change (updateWhere _ _ _).lookup _ = (updateWhere _ _ _).lookup _
    rw [lookup_updateWhere, lookup_updateWhere, hsame]
  | _ => exact hsame

/-! ### The statements -/

/-- What the statements write keeps the state machine. -/
theorem Written.keepsMachine {s : Stmt} {o : Nat} (h : Written s o d w) (hs : s.Careful d) :
    w.KeepsMachine d := by
  cases h with
  | insertReminder hinsert hnone hbooking =>
    intro old hold
    rw [hnone] at hold
    cases hold
  | cancelReminders hcancel =>
    subst hcancel
    exact hs
  | @skipReminder b offset row hskip hrow hscheduled =>
    intro old hold
    rw [hrow, Option.some.injEq] at hold
    subst hold
    rw [hscheduled]
    show ReminderJobStatus.Becomes .scheduled .skipped
    decide
  | @cancelPendingReminder id row hcancel hrow hpending =>
    intro old hold
    rw [hrow, Option.some.injEq] at hold
    exact hold ▸ becomes_cancel hpending
  | @claimReminder id row lockedUntil hclaim hrow hscheduled =>
    intro old hold
    rw [hrow, Option.some.injEq] at hold
    subst hold
    rw [hscheduled]
    show ReminderJobStatus.Becomes .scheduled .sending
    decide
  | @claimDue id row now lockedUntil hclaim hrow hdue =>
    intro old hold
    rw [hrow, Option.some.injEq] at hold
    exact hold ▸ becomes_claim hdue
  | @setReminderStatus id row text status hset hrow htext =>
    subst hset
    intro old hold
    rw [hrow, Option.some.injEq] at hold
    exact hold ▸ hs row status hrow htext
  | _ => exact trivial

/-- A statement locks the reminders it changes. -/
theorem reminderLock_exec {s : Stmt} {o : Nat} {r : s.Rows} {ws : List Write}
    (hx : (exec cat s o d).result = .ok (r, ws)) (hw : w ∈ ws) :
    ∀ k ∈ w.reminderLock, k ∈ (exec cat s o d).locks := by
  have hlocks := exec_locks hx w hw
  cases w with
  | reminder b offset row => exact hlocks
  | cancelReminders b => exact hlocks
  | cancelPendingReminders b => exact hlocks
  | _ => exact fun k hk => nomatch hk

end Writes

/-! ### Every run -/

/-- Facts that say nothing. -/
def anyFacts : Facts := ⟨fun _ _ => True, fun _ _ => True, fun _ => True⟩

theorem hears_anyFacts (s : Stmt) (r : s.Rows) : anyFacts.dialogue.hears s r := by
  cases s with
  | selectSlot id => exact fun _ _ => trivial
  | bookSlot id now minStart => exact fun _ _ => trivial
  | takeSlot id now => exact fun _ _ => trivial
  | selectScheduledReminders => exact fun _ _ => ⟨0, trivial, trivial⟩
  | _ => exact trivial

theorem learns_anyFacts (a : Ask) (x : a.Answer) : anyFacts.dialogue.learns a x := by
  cases a <;> exact trivial

theorem admits_anyFacts (task : Task) : anyFacts.Admits task := by
  cases task with
  | operation op =>
    cases op with
    | createBooking req nowUtc queue => exact fun _ _ => trivial
    | _ => exact trivial
  | enqueueForBooking b start offsets now => exact ⟨⟨0, trivial, trivial⟩, trivial⟩
  | _ => exact trivial

theorem vetting_statusMachine (cat : Catalog) (ι : Type) :
    Vetting (chronos cat) (fun _ : ι => anyFacts.dialogue) (fun _ s _ d => s.Careful d)
      (fun _ => True) (fun _ d w => w.KeepsMachine d) Write.reminderLock
      Database.SameReminders where
  exec i s o d r ws _ hcareful _ hx := by
    have hexec : (exec cat s o d).result = .ok (r, ws) := hx
    refine ⟨hears_anyFacts s r, ?_, fun w hw => reminderLock_exec hexec hw⟩
    rcases exec_written hexec with rfl | ⟨w, rfl, hwritten⟩
    · exact trivial
    · exact ⟨hwritten.keepsMachine hcareful, trivial⟩
  note i a x d _ _ _ := by
    change Vets _ _ d ((noted a x).map (i, ·)) ∧ ∀ w ∈ noted a x, w.reminderLock = []
    unfold noted
    split
    · exact ⟨⟨trivial, trivial⟩, fun w hw => by rw [List.mem_singleton.mp hw]; rfl⟩
    · exact ⟨⟨trivial, trivial⟩, fun w hw => by rw [List.mem_singleton.mp hw]; rfl⟩
    · exact ⟨⟨trivial, trivial⟩, fun w hw => by rw [List.mem_singleton.mp hw]; rfl⟩
    · exact ⟨trivial, fun _ hw => nomatch hw⟩
  write _ _ _ _ _ := trivial
  stable i d d' w hsame hw := hw.congr hsame
  sees_refl ks d := fun _ _ _ => rfl
  sees_trans ks d d' d'' h h' := fun b hb offset => (h b hb offset).trans (h' b hb offset)
  sees_write ks d d' w h := h.write w
  sees_frame ks d w h := sameReminders_write h

section Runs

variable {ι C : Type} {cat : Catalog} {fromColumn : Instant → Except JsError Instant}
variable {tasks : ι → Task} {d₀ : Database}

/-- The statement of the step is careful about what it sees. -/
def CarefulStep (cat : Catalog)
    (w : World Stmt.Rows Ask.Answer JsError Unit Database Write Lock C ι)
    (l : Label Ask.Answer Nat JsError C ι) : Prop :=
  ∀ s ok err, w.prog l.thread = .stmt s ok err → l.env.fault = none →
    s.Careful ((w.session l.conn).view (chronos cat) w.db)

/-- Statuses change as they may while writes are made that keep the machine. -/
theorem final_of_vets {d : Database} {made : List (ι × Write)}
    (h : Vets (chronos cat) (fun _ d w => w.KeepsMachine d) d made) {k : ReminderId}
    {row : ReminderJob} (hrow : d.reminderJobs.lookup k = some row) (hfinal : row.status.Final) :
    ∃ row', ((chronos cat).apply (made.map Prod.snd) d).reminderJobs.lookup k = some row' ∧
      row'.status = row.status := by
  induction made generalizing d row with
  | nil => exact ⟨row, hrow, rfl⟩
  | cons e made ih =>
    obtain ⟨row₁, hrow₁, hstep⟩ := h.1.statusStep k row hrow
    have hsame : row₁.status = row.status := by
      rcases hstep with heq | hnext
      · exact heq
      · have hnone : row.status.next = [] := hfinal
        rw [hnone] at hnext
        cases hnext
    have hfinal₁ : row₁.status.Final := hsame ▸ hfinal
    obtain ⟨row', hrow', hstatus⟩ := ih h.2 hrow₁ hfinal₁
    exact ⟨row', hrow', hstatus.trans hsame⟩

variable [DecidableEq ι] [DecidableEq C]

/-- **The state machine of a reminder.**  Any number of tasks run over any connections, with
    anything failing.  If no step that sets statuses whatever they are meets one that may not
    change so, every write of the run changes statuses as they may, and a final status stays. -/
theorem status_machine_holds
    {w w' : World Stmt.Rows Ask.Answer JsError Unit Database Write Lock C ι}
    (h : Reaches (chronos cat) (CarefulStep cat)
      (World.init d₀ fun i => (tasks i).program fromColumn) w)
    (h' : Reaches (chronos cat) (CarefulStep cat) w w') :
    w.db = (chronos cat).apply (w.journal.map Prod.snd) d₀ ∧
      (∀ made entry rest, w.journal = made ++ entry :: rest →
        ((chronos cat).apply (made.map Prod.snd) d₀).StatusStep
          (entry.2.apply ((chronos cat).apply (made.map Prod.snd) d₀))) ∧
      ∀ k row, w.db.reminderJobs.lookup k = some row → row.status.Final →
        ∃ row', w'.db.reminderJobs.lookup k = some row' ∧ row'.status = row.status := by
  have hV := vetting_statusMachine cat ι
  have hinit : (World.init d₀ fun i => (tasks i).program fromColumn : World Stmt.Rows Ask.Answer
      JsError Unit Database Write Lock C ι).Vetted (chronos cat) (fun _ => anyFacts.dialogue)
      (fun _ => True) (fun _ d w => w.KeepsMachine d) Write.reminderLock :=
    vetted_init trivial fun i => follows_task (admits_anyFacts (tasks i)) fun _ _ _ _ _ => trivial
  have hallows : ∀ (w : World Stmt.Rows Ask.Answer JsError Unit Database Write Lock C ι) l,
      CarefulStep cat w l → w.Allows (chronos cat) (fun _ => anyFacts.dialogue)
        (fun _ s _ d => s.Careful d) l :=
    fun _ _ hl => ⟨fun s ok err hprog hfault _ => hl s ok err hprog hfault,
      fun a _ _ => learns_anyFacts a _⟩
  obtain ⟨written, hvets, hdb, hjournal⟩ := World.Vetted.journal hV hallows hinit h
  obtain rfl : w.journal = written := by simpa [World.init] using hjournal
  refine ⟨hdb, fun made entry rest heq => ?_, fun k row hrow hfinal => ?_⟩
  · rw [heq] at hvets
    exact (vets_mem hvets).2.statusStep
  · obtain ⟨more, hmore, hdb', -⟩ :=
      World.Vetted.journal hV hallows (World.Vetted.reaches hV hallows hinit h) h'
    rw [hdb']
    exact final_of_vets hmore hrow hfinal

end Runs

/-! ### Moving a booking -/

/-- Client `5` moves its booking `1` from slot `1` to slot `2`, at the epoch. -/
def sampleMoving : Task :=
  .operation (.rescheduleBooking ⟨1, .printed, 2, none, .number (.rat 1), .number (.rat 1), .undefined⟩
    (some 0) false)

/-- Booking `1` is on slot `1`, its reminder of the day before has a status, and slot `2` is open. -/
def sampleMovable (status : ReminderJobStatus) : Database :=
  { sampleBooked .booked .booked 1 with
    slots := (sampleBooked .booked .booked 1).slots.insert 2 (sampleSlot .«open»)
    reminderJobs := (sampleBooked .booked .booked 1).reminderJobs.insert (1, 1440)
      (sampleReminder 1440 status) }

/-- The next statement sets no status whatever it is, or cancels reminders that may be cancelled. -/
def cancelsPending (w : World Stmt.Rows Ask.Answer JsError Unit Database Write Lock Unit Unit)
    (_ : Label Ask.Answer Nat JsError Unit Unit) : Bool :=
  match w.prog () with
  | .stmt (.cancelReminders b) _ _ =>
    ((w.session ()).view (chronos sampleCatalog) w.db).reminderJobs.entries.all fun e =>
      decide (e.1.1 = b → e.2.status.Becomes .cancelled)
  | .stmt (.setReminderStatus ..) _ _ => false
  | _ => true

theorem carefulStep_of_check
    {w : World Stmt.Rows Ask.Answer JsError Unit Database Write Lock Unit Unit}
    {l : Label Ask.Answer Nat JsError Unit Unit} (h : cancelsPending w l = true) :
    CarefulStep sampleCatalog w l := by
  intro s ok err hprog _
  change w.prog () = _ at hprog
  unfold cancelsPending at h
  rw [hprog] at h
  cases s with
  | cancelReminders b =>
    intro offset row hrow
    exact of_decide_eq_true (List.all_eq_true.mp h _ (AList.mem_lookup_iff.mp hrow)) rfl
  | setReminderStatus id text => cases h
  | _ => exact trivial

/-- A booking whose reminders are scheduled is moved, and they are cancelled. -/
theorem sample_reminders_cancelled :
    ∃ w : World Stmt.Rows Ask.Answer JsError Unit Database Write Lock Unit Unit,
      w.db.reminderJobs.lookup (1, 1440) = some (sampleReminder 1440 .cancelled) ∧
      w.db = (chronos sampleCatalog).apply (w.journal.map Prod.snd) (sampleMovable .scheduled) := by
  have hrun : ∃ w : World Stmt.Rows Ask.Answer JsError Unit Database Write Lock Unit Unit,
      World.run (chronos sampleCatalog) cancelsPending
        (World.init (sampleMovable .scheduled) fun _ => sampleMoving.program .ok)
        (List.replicate 17 ⟨(), (), calmEnv 2 0⟩) = some w ∧
      w.db.reminderJobs.lookup (1, 1440) = some (sampleReminder 1440 .cancelled) :=
    ⟨_, by with_unfolding_all rfl, rfl⟩
  obtain ⟨w, hw, hrow⟩ := hrun
  have hreach := reaches_of_run (fun _ _ _ hcheck => carefulStep_of_check hcheck) hw
  exact ⟨w, hrow, (status_machine_holds hreach .start).1⟩

/-- **The record of a reminder that was sent is lost.**  The client was reminded of booking `1`;
    when the booking is moved, its reminder becomes `cancelled`. -/
theorem sent_reminder_cancelled :
    ∃ w : World Stmt.Rows Ask.Answer JsError Unit Database Write Lock Unit Unit,
      Reaches (chronos sampleCatalog) (fun _ _ => True)
        (World.init (sampleMovable .sent) fun _ => sampleMoving.program .ok) w ∧
      (sampleMovable .sent).reminderJobs.lookup (1, 1440) = some (sampleReminder 1440 .sent) ∧
      w.db.reminderJobs.lookup (1, 1440) = some (sampleReminder 1440 .cancelled) ∧
      ¬ReminderJobStatus.Becomes .sent .cancelled := by
  have hrun : ∃ w : World Stmt.Rows Ask.Answer JsError Unit Database Write Lock Unit Unit,
      World.run (chronos sampleCatalog) (fun _ _ => true)
        (World.init (sampleMovable .sent) fun _ => sampleMoving.program .ok)
        (List.replicate 17 ⟨(), (), calmEnv 2 0⟩) = some w ∧
      w.db.reminderJobs.lookup (1, 1440) = some (sampleReminder 1440 .cancelled) :=
    ⟨_, by with_unfolding_all rfl, rfl⟩
  obtain ⟨w, hw, hrow⟩ := hrun
  exact ⟨w, reaches_of_run (fun _ _ _ _ => trivial) hw, rfl, hrow, by decide⟩

end Chronos
