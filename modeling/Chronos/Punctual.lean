import Chronos.FireTimes
import Chronos.Delivery

namespace Chronos

open ReadCommitted ReadCommitted.Prog

/-!
# When reminders are mailed

`processReminder` compares the clock with the fire time of the reminder once, and only to give up
when more than `RETRY_WINDOW_MS` have passed.  It does not ask whether the reminder is due, and it
never looks at the slot.  So a delivery that runs early mails early, and one that runs late mails a
reminder of an appointment that has begun (`mailed_early_and_late`).

`reminders_mailed_on_time` says which deliveries are enough: those that start when the reminder is
due and are over before the slot starts, or start when the retry window is over.

* `Facts.delivery` — what a delivery of one reminder may ask, with what it was told.
* `Shift` — the time a delivery is at work.
-/

/-! ### What a delivery knows -/

/-- The row a delivery reads fires when the reminder does. -/
def Facts.Tells (F : Facts) : (s : Stmt) → s.Rows → Prop
  | .selectReminder id, found => ∀ row, found = some row → F.FiresAt id.1 id.2 row.fireAtUtc
  | _, _ => True

/-- A delivery of reminder `id` mails that reminder, and has seen that the retry window is open. -/
def Facts.Mails (F : Facts) (id : ReminderId) : Ask → Prop
  | .sendEmail _ k => k = id ∧ ∃ fire now, F.FiresAt id.1 id.2 fire ∧ F.given now ∧
      now - fire ≤ retryWindowMs
  | _ => True

/-- What a delivery of reminder `id` may send and ask. -/
def Facts.delivery (F : Facts) (id : ReminderId) : Dialogue Stmt.Rows Ask.Answer where
  sends := F.dialogue.sends
  hears s r := F.dialogue.hears s r ∧ F.Tells s r
  asks a := F.dialogue.asks a ∧ F.Mails id a
  learns := F.dialogue.learns

/-- What a task may send and ask. -/
def Facts.taskDialogue (F : Facts) : Task → Dialogue Stmt.Rows Ask.Answer
  | .process _ (some id) => F.delivery id
  | _ => F.dialogue

section Delivery

variable {F : Facts} {id : ReminderId} {isConfigured : Bool}

theorem delivery_mark {text : String} (htext : text ∈ recordedStatuses) (out : Except JsError Unit) :
    ((dbQuery (.setReminderStatus id text)).bind fun _ => ofExcept out).Follows (F.delivery id) := by
  cases out with
  | ok u => exact ⟨htext, fun _ _ => trivial, fun _ => trivial⟩
  | error e => exact ⟨htext, fun _ _ => trivial, fun _ => trivial⟩

theorem delivery_getClient (c : ClientId) : (getClient c).Follows (F.delivery id) := by
  refine ⟨⟨trivial, trivial⟩, fun x _ => ?_⟩
  cases x <;> trivial

/-- The e-mail is sent by a delivery that has seen the retry window open. -/
theorem delivery_sendReminder {fire now : Instant} (booking : Booking)
    (hfire : F.FiresAt id.1 id.2 fire) (hnow : F.given now) (hopen : now - fire ≤ retryWindowMs) :
    (sendReminder isConfigured id booking).Follows (F.delivery id) := by
  have hrender : (renderReminderEmail id.1 booking).Follows (F.delivery id) := by
    refine (delivery_getClient _).bind fun client => ?_
    split
    · trivial
    · exact ⟨trivial, fun _ _ => trivial, fun _ => trivial⟩
  refine Follows.bind (hrender.bind fun receiver => ?_) fun result => ?_
  · cases isConfigured with
    | false => trivial
    | true => exact ⟨⟨trivial, rfl, fire, now, hfire, hnow, hopen⟩, fun _ _ => trivial⟩
  · split
    · exact delivery_mark (by decide) (.ok ())
    · trivial
    · exact delivery_mark (by decide) (.ok ())

theorem delivery_remindClient {reminder : ReminderJob}
    (hfire : F.FiresAt id.1 id.2 reminder.fireAtUtc) (booking : Booking) :
    (remindClient isConfigured id reminder booking).Follows (F.delivery id) := by
  refine ⟨⟨trivial, trivial⟩, fun now hnow => ?_⟩
  simp only [andThen]
  split
  · exact delivery_mark (by decide) (.error _)
  · next hopen =>
    refine (delivery_getClient _).bind fun client => ?_
    split
    · trivial
    · split
      · exact delivery_mark (by decide) (.ok ())
      · exact delivery_sendReminder booking hfire hnow (not_lt.mp hopen)

theorem delivery_processReminder : (processReminder isConfigured id).Follows (F.delivery id) := by
  refine ⟨trivial, fun found hfound => ?_, fun _ => trivial⟩
  cases found with
  | none => trivial
  | some reminder =>
    have hfire : F.FiresAt id.1 id.2 reminder.fireAtUtc := hfound.2 reminder rfl
    simp only [andThen]
    split
    · trivial
    · refine ⟨trivial, fun b _ => ?_, fun _ => trivial⟩
      cases b with
      | none => exact delivery_mark (by decide) (.error _)
      | some booking =>
        simp only [andThen]
        split
        · exact delivery_mark (by decide) (.ok ())
        · exact delivery_remindClient hfire booking

theorem delivery_process : (process isConfigured (some id)).Follows (F.delivery id) := by
  refine ⟨⟨trivial, trivial⟩, fun now _ => ⟨trivial, fun claimed _ => ?_, fun _ => trivial⟩⟩
  cases claimed with
  | some row => exact delivery_processReminder
  | none =>
    refine ⟨trivial, fun check _ => ?_, fun _ => trivial⟩
    simp only [andThen]
    split
    · exact delivery_processReminder
    · trivial

/-- **Every task keeps to its dialogue.** -/
theorem follows_taskDialogue {fromColumn : Instant → Except JsError Instant} {task : Task}
    (htask : F.Admits task)
    (hcolumn : ∀ s x y, F.startsAt s x → fromColumn x = .ok y → F.startsAt s y) :
    (task.program fromColumn).Follows (F.taskDialogue task) := by
  cases task with
  | process isConfigured reminderId =>
    cases reminderId with
    | none => exact trivial
    | some id => exact delivery_process
  | _ => exact follows_task htask hcolumn

theorem sends_taskDialogue {task : Task} {s : Stmt} (h : (F.taskDialogue task).sends s) :
    F.dialogue.sends s := by
  unfold Facts.taskDialogue at h
  split at h <;> exact h

theorem hears_taskDialogue {task : Task} {s : Stmt} {r : s.Rows} (h : F.dialogue.hears s r)
    (htells : F.Tells s r) : (F.taskDialogue task).hears s r := by
  unfold Facts.taskDialogue
  split
  · exact ⟨h, htells⟩
  · exact h

theorem asks_taskDialogue {task : Task} {a : Ask} (h : (F.taskDialogue task).asks a) :
    F.dialogue.asks a := by
  unfold Facts.taskDialogue at h
  split at h
  · exact h.1
  · exact h

theorem learns_taskDialogue {task : Task} {a : Ask} {x : a.Answer} :
    (F.taskDialogue task).learns a x ↔ F.dialogue.learns a x := by
  unfold Facts.taskDialogue
  split <;> exact Iff.rfl

end Delivery

/-! ### Every run -/

section Runs

variable {ι C : Type} {cat : Catalog} {fromColumn : Instant → Except JsError Instant}
variable {ids : Ids} {given : ι → Instant → Prop} {tasks : ι → Task} {d₀ : Database}

/-- The row a statement reads fires when the reminder does. -/
theorem tells_exec {given : Instant → Prop} {s : Stmt} {o : Nat} {d : Database} {r : s.Rows}
    {ws : List Write} (hd : ids.Consistent d₀ d) (hx : (exec cat s o d).result = .ok (r, ws)) :
    (ids.facts d₀ given).Tells s r := by
  cases s with
  | selectReminder id =>
    obtain ⟨rfl, -⟩ := read_ok hx
    exact fun row hrow => (hd.reminders id.1 id.2 row hrow).2
  | _ => exact trivial

theorem vetting_deliveries (cat : Catalog) (ids : Ids) (given : ι → Instant → Prop)
    (tasks : ι → Task) (d₀ : Database) :
    Vetting (chronos cat) (fun i => (ids.facts d₀ (given i)).taskDialogue (tasks i))
      (fun _ s o _ => ids.Draws s o) (ids.Consistent d₀) (fun i => ids.Vouches d₀ (given i))
      (fun _ => []) fun _ => Database.SubRows :=
  let hV := vetting_fireTimes cat ids given d₀
  { hV with
    exec := fun i s o d r ws hs hdraw hd hx => by
      obtain ⟨hhears, hwrites⟩ := hV.exec i s o d r ws (sends_taskDialogue hs) hdraw hd hx
      exact ⟨hears_taskDialogue hhears (tells_exec hd hx), hwrites⟩
    note := fun i a x d hasks hlearns hd =>
      hV.note i a x d (asks_taskDialogue hasks) (learns_taskDialogue.mp hlearns) hd }

/-- The time a task is at work. -/
structure Shift where
  start : Instant
  finish : Instant

/-- A delivery that is at work in `shift` is punctual for a reminder of a slot: it starts when the
    reminder is due, and is over before the slot starts or starts when the retry window is over. -/
def Shift.Punctual (shift : Shift) (reminder : ReminderJob) (slot : Slot) : Prop :=
  reminder.fireAtUtc ≤ shift.start ∧
    (shift.finish < slot.slotStartUtc ∨ reminder.fireAtUtc + retryWindowMs < shift.start)

/-- The times the clock may show to a task: a delivery reads it while it is at work. -/
def shown (tasks : ι → Task) (shift : ι → Shift) (i : ι) (now : Instant) : Prop :=
  ∀ isConfigured id, tasks i = .process isConfigured (some id) →
    (shift i).start ≤ now ∧ now ≤ (shift i).finish

/-- A step on the clock: ids are drawn for their rows, and deliveries take place while they are
    at work. -/
structure Clocked (ids : Ids) (tasks : ι → Task) (shift : ι → Shift)
    (w : World Stmt.Rows Ask.Answer JsError Unit Database Write Lock C ι)
    (l : Label Ask.Answer Nat JsError C ι) : Prop where
  draws : ∀ s ok err, w.prog l.thread = .stmt s ok err → l.env.fault = none →
    ids.Draws s l.env.fresh
  shown : shown tasks shift l.thread (l.env.answer .now)

/-- The step's delivery is punctual for its reminder. -/
def PunctualStep (tasks : ι → Task) (shift : ι → Shift)
    (w : World Stmt.Rows Ask.Answer JsError Unit Database Write Lock C ι)
    (l : Label Ask.Answer Nat JsError C ι) : Prop :=
  ∀ isConfigured id reminder booking slot, tasks l.thread = .process isConfigured (some id) →
    w.db.reminderJobs.lookup id = some reminder → w.db.bookings.lookup id.1 = some booking →
    w.db.slots.lookup booking.slotId = some slot → (shift l.thread).Punctual reminder slot

/-- **On time**: an e-mail the step sends for a reminder goes out when the reminder is due and the
    slot of its booking has not begun. -/
def MailsOnTime (w : World Stmt.Rows Ask.Answer JsError Unit Database Write Lock C ι)
    (l : Label Ask.Answer Nat JsError C ι) : Prop :=
  ∀ receiver id k reminder booking slot, w.prog l.thread = .ask (.sendEmail receiver id) k →
    w.db.reminderJobs.lookup id = some reminder → w.db.bookings.lookup id.1 = some booking →
    w.db.slots.lookup booking.slotId = some slot →
    reminder.fireAtUtc ≤ l.env.answer .now ∧ l.env.answer .now < slot.slotStartUtc

variable [DecidableEq ι] [DecidableEq C]

/-- **Reminders are mailed on time.**  Any number of tasks run over any connections, with anything
    failing, from consistent tables.  If every delivery is punctual for its reminder, every e-mail
    that `processReminder` sends is on time. -/
theorem reminders_mailed_on_time {shift : ι → Shift}
    {w : World Stmt.Rows Ask.Answer JsError Unit Database Write Lock C ι}
    {l : Label Ask.Answer Nat JsError C ι}
    (hcolumn : ∀ x y, fromColumn x = .ok y → y = x) (hstart : ids.Consistent d₀ d₀)
    (htasks : ∀ i, (ids.facts d₀ (shown tasks shift i)).Admits (tasks i))
    (h : Reaches (chronos cat) (fun w l => Clocked ids tasks shift w l ∧ PunctualStep tasks shift w l)
      (World.init d₀ fun i => (tasks i).program fromColumn) w)
    (hl : Clocked ids tasks shift w l ∧ PunctualStep tasks shift w l) {isConfigured : Bool}
    {id : ReminderId} (hprocess : tasks l.thread = .process isConfigured (some id)) :
    MailsOnTime w l := by
  have hV := vetting_deliveries cat ids (shown tasks shift) tasks d₀
  have hinit : (World.init d₀ fun i => (tasks i).program fromColumn : World Stmt.Rows Ask.Answer
      JsError Unit Database Write Lock C ι).Vetted (chronos cat)
      (fun i => (ids.facts d₀ (shown tasks shift i)).taskDialogue (tasks i)) (ids.Consistent d₀)
      (fun i => ids.Vouches d₀ (shown tasks shift i)) fun _ => [] :=
    vetted_init hstart fun i => follows_taskDialogue (htasks i) fun s x y hs hy => by
      rw [hcolumn x y hy]
      exact hs
  have hallows : ∀ (w : World Stmt.Rows Ask.Answer JsError Unit Database Write Lock C ι) l,
      Clocked ids tasks shift w l ∧ PunctualStep tasks shift w l → w.Allows (chronos cat)
        (fun i => (ids.facts d₀ (shown tasks shift i)).taskDialogue (tasks i))
        (fun _ s o _ => ids.Draws s o) l := by
    intro w l hP
    have hgoverns : ids.Governs (shown tasks shift) w l := ⟨fun _ _ => hP.1.shown, hP.1.draws⟩
    have hbase : w.Allows (chronos cat) (fun i => (ids.facts d₀ (shown tasks shift i)).dialogue)
      (fun _ s o _ => ids.Draws s o) l := hgoverns.allows
    exact ⟨hbase.statement, fun a k hprog => learns_taskDialogue.mpr (hbase.answer a k hprog)⟩
  have hvetted := World.Vetted.reaches hV hallows hinit h
  intro receiver id' k reminder booking slot hprog hreminder hbooking hslot
  have hspeaks := hvetted.prog l.thread
  rw [hprog, hprocess] at hspeaks
  -- The delivery has seen the retry window open, at a time of its shift.
  obtain ⟨⟨-, rfl, fire, now, hfire, hnow, hopen⟩, -⟩ := hspeaks
  have hfires : (ids.facts d₀ (shown tasks shift l.thread)).FiresAt id'.1 id'.2
      reminder.fireAtUtc := (hvetted.db.reminders id'.1 id'.2 reminder hreminder).2
  obtain rfl := firesAt_unique hfires hfire
  obtain ⟨hearly, hlate⟩ := hl.2 isConfigured id' reminder booking slot hprocess hreminder hbooking
    hslot
  have hseen := hnow isConfigured id' hprocess
  have hsent := hl.1.shown isConfigured id' hprocess
  constructor
  · exact hearly.trans hsent.1
  · rcases hlate with hbefore | hover
    · exact lt_of_le_of_lt hsent.2 hbefore
    · -- It has seen the window open, and would have started when it was over.
      have hinside : now ≤ reminder.fireAtUtc + retryWindowMs := sub_le_iff_le_add'.mp hopen
      exact absurd hover (not_lt.mpr (hseen.1.trans hinside))

end Runs

/-- `RETRY_WINDOW_MS` is right for a reminder a day ahead: a delivery that takes no time is punctual
    for it unless it is early. -/
theorem punctual_of_day {shift : Shift} {reminder : ReminderJob} {slot : Slot} {offset : Nat}
    (hoffset : 1440 ≤ offset)
    (hfire : reminder.fireAtUtc = slot.slotStartUtc - minutesMs offset)
    (hinstant : shift.finish = shift.start) :
    shift.Punctual reminder slot ↔ reminder.fireAtUtc ≤ shift.start := by
  refine ⟨fun h => h.1, fun h => ⟨h, ?_⟩⟩
  have hwindow : retryWindowMs < minutesMs offset := by
    have hday : (1440 : Int) ≤ offset := by exact_mod_cast hoffset
    unfold retryWindowMs minutesMs
    linarith
  rw [hinstant]
  by_cases hbefore : shift.start < slot.slotStartUtc
  · exact Or.inl hbefore
  · refine Or.inr ?_
    rw [hfire]
    linarith

/-! #### A delivery in time, one that is early, and one that is late -/

/-- The clock shows `now`, the client has an e-mail address, and the provider accepts. -/
def mailEnv (now : Instant) : Env Nat JsError Ask.Answer :=
  ⟨0, none, fun a => match a with
    | .now => now
    | .effect _ => .ok ()
    | .queueAdd .. => .ok now
    | .selectClient _ => .ok (some ⟨some "client@example.org", false⟩)
    | .sendEmail .. => .sent none⟩

/-- One delivery of the one-hour reminder of booking `1`, whose slot starts 100 hours after the
    epoch. -/
def oneDelivery : Unit → Task := fun _ => .process true (some (1, 60))

/-- The delivery at its start. -/
def startDelivery : Workers Unit Unit :=
  World.init (sampleRemind .scheduled none) fun i => (oneDelivery i).program .ok

/-- The delivery comes to its e-mail for the reminder at 99 hours, of the slot at 100 hours. -/
structure AtEmail (w : Workers Unit Unit) : Prop where
  asks : ∃ receiver k, w.prog () = .ask (.sendEmail receiver (1, 60)) k
  row : (w.db.reminderJobs.lookup (1, 60)).map ReminderJob.fireAtUtc = some (hoursMs 99)
  booking : ∃ booking, w.db.bookings.lookup 1 = some booking ∧
    w.db.slots.lookup booking.slotId = some (sampleSlot .booked)

/-- An e-mail before 99 hours is early, and one from 100 hours on is late. -/
theorem AtEmail.not_onTime {w : Workers Unit Unit} (h : AtEmail w) {now : Instant}
    (hnow : now < hoursMs 99 ∨ hoursMs 100 ≤ now) : ¬ MailsOnTime w ⟨(), (), mailEnv now⟩ := by
  intro hmails
  obtain ⟨receiver, k, hprog⟩ := h.asks
  obtain ⟨reminder, hreminder, hfire⟩ := Option.map_eq_some_iff.mp h.row
  obtain ⟨booking, hbooking, hslot⟩ := h.booking
  obtain ⟨hdue, hbefore⟩ := hmails receiver (1, 60) k reminder booking _ hprog hreminder hbooking
    hslot
  have hdue' : hoursMs 99 ≤ now := hfire ▸ hdue
  have hbefore' : now < hoursMs 100 := hbefore
  rcases hnow with hearly | hlate
  · exact absurd hdue' (not_le.mpr hearly)
  · exact absurd hbefore' (not_lt.mpr hlate)

theorem consistent_sampleRemind (status : ReminderJobStatus) (lockedUntil : Option Instant) :
    sampleIds.Consistent (sampleRemind status lockedUntil) (sampleRemind status lockedUntil) := by
  refine ⟨fun s row hrow => ?_, fun s hs => hs, fun b row hrow => ?_, fun b offset row hrow => ?_⟩
  · unfold Ids.StartsAt
    rw [hrow]
  · obtain rfl := lookup_singleton hrow
    obtain rfl := Option.some.inj hrow
    exact ⟨rfl, rfl⟩
  · obtain ⟨rfl, rfl⟩ := Prod.mk.inj (lookup_singleton hrow)
    obtain rfl := Option.some.inj hrow
    exact ⟨rfl, 1, hoursMs 100, rfl, rfl, rfl⟩

/-- The delivery at 99 hours is punctual, and sends no statement that draws an id; decided. -/
def timely (w : Workers Unit Unit) (_ : Label Ask.Answer Nat JsError Unit Unit) : Bool :=
  (match w.prog () with
    | .stmt (.insertBooking _) _ _ => false
    | .stmt (.insertSlot ..) _ _ => false
    | _ => true) &&
  (w.db.reminderJobs.lookup (1, 60)).all (fun row => decide (row.fireAtUtc = hoursMs 99)) &&
  (w.db.bookings.lookup 1).all fun booking =>
    (w.db.slots.lookup booking.slotId).all fun slot => decide (slot.slotStartUtc = hoursMs 100)

theorem clocked_of_timely {w : Workers Unit Unit} {l : Label Ask.Answer Nat JsError Unit Unit}
    (henv : l.env = mailEnv (hoursMs 99)) (h : timely w l = true) :
    Clocked sampleIds oneDelivery (fun _ => ⟨hoursMs 99, hoursMs 99⟩) w l ∧
      PunctualStep oneDelivery (fun _ => ⟨hoursMs 99, hoursMs 99⟩) w l := by
  unfold timely at h
  simp only [Bool.and_eq_true, Option.all_eq_true, decide_eq_true_eq] at h
  obtain ⟨⟨hprog, hrow⟩, hslot⟩ := h
  refine ⟨⟨fun s ok err hs _ => ?_, fun _ _ _ => by rw [henv]; exact ⟨le_refl _, le_refl _⟩⟩, ?_⟩
  · change w.prog () = _ at hs
    rw [hs] at hprog
    cases s with
    | insertBooking row => cases hprog
    | insertSlot p start finish => cases hprog
    | _ => exact trivial
  · intro isConfigured id reminder booking slot htask hreminder hbooking hfound
    obtain ⟨-, hid⟩ := Task.process.inj htask
    obtain rfl := Option.some.inj hid
    refine ⟨(hrow reminder hreminder).le, Or.inl ?_⟩
    show hoursMs 99 < slot.slotStartUtc
    rw [hslot booking hbooking slot hfound]
    decide

/-- The delivery is run when the reminder is due. -/
theorem sample_mailed_on_time : ∃ w : Workers Unit Unit, AtEmail w ∧
    MailsOnTime w ⟨(), (), mailEnv (hoursMs 99)⟩ := by
  have hrun : ∃ w : Workers Unit Unit, World.run (chronos sampleCatalog) timely startDelivery
      (List.replicate 8 ⟨(), (), mailEnv (hoursMs 99)⟩) = some w ∧ AtEmail w ∧
        timely w ⟨(), (), mailEnv (hoursMs 99)⟩ = true :=
    ⟨_, rfl, ⟨⟨_, _, rfl⟩, rfl, _, rfl, rfl⟩, rfl⟩
  obtain ⟨w, hw, hat, htimely⟩ := hrun
  have hreach : Reaches (chronos sampleCatalog) (fun w l =>
      Clocked sampleIds oneDelivery (fun _ => ⟨hoursMs 99, hoursMs 99⟩) w l ∧
        PunctualStep oneDelivery (fun _ => ⟨hoursMs 99, hoursMs 99⟩) w l) startDelivery w :=
    reaches_of_run (fun w l hl hcheck => clocked_of_timely (by rw [List.eq_of_mem_replicate hl])
      hcheck) hw
  have hadmits : ∀ i, (sampleIds.facts (sampleRemind .scheduled none)
      (shown oneDelivery (fun _ => ⟨hoursMs 99, hoursMs 99⟩) i)).Admits (oneDelivery i) :=
    fun _ => trivial
  exact ⟨w, hat, reminders_mailed_on_time (fun _ _ h => (Except.ok.inj h).symm)
    (consistent_sampleRemind .scheduled none) hadmits hreach
    (clocked_of_timely rfl htimely) rfl⟩

/-- **An early and a late e-mail.**  The delivery is run at the epoch, 99 hours before the reminder
    is due, and two hours after that, when the appointment has begun. -/
theorem mailed_early_and_late :
    (∃ w : Workers Unit Unit, Reaches (chronos sampleCatalog) (fun _ l => l.env = mailEnv 0)
      startDelivery w ∧ AtEmail w ∧ ¬ MailsOnTime w ⟨(), (), mailEnv 0⟩) ∧
    ∃ w : Workers Unit Unit, Reaches (chronos sampleCatalog)
      (fun _ l => l.env = mailEnv (hoursMs 101)) startDelivery w ∧ AtEmail w ∧
        ¬ MailsOnTime w ⟨(), (), mailEnv (hoursMs 101)⟩ := by
  have hearly : ∃ w : Workers Unit Unit, World.run (chronos sampleCatalog) (fun _ _ => true)
      startDelivery (List.replicate 8 ⟨(), (), mailEnv 0⟩) = some w ∧ AtEmail w :=
    ⟨_, rfl, ⟨⟨_, _, rfl⟩, rfl, _, rfl, rfl⟩⟩
  have hlate : ∃ w : Workers Unit Unit, World.run (chronos sampleCatalog) (fun _ _ => true)
      startDelivery (List.replicate 8 ⟨(), (), mailEnv (hoursMs 101)⟩) = some w ∧ AtEmail w :=
    ⟨_, rfl, ⟨⟨_, _, rfl⟩, rfl, _, rfl, rfl⟩⟩
  obtain ⟨w, hw, hat⟩ := hearly
  obtain ⟨w', hw', hat'⟩ := hlate
  refine ⟨⟨w, reaches_of_run (fun _ l hl _ => ?_) hw, hat, hat.not_onTime (Or.inl (by decide))⟩,
    w', reaches_of_run (fun _ l hl _ => ?_) hw', hat', hat'.not_onTime (Or.inr (by decide))⟩
  · rw [List.eq_of_mem_replicate hl]
  · rw [List.eq_of_mem_replicate hl]

end Chronos
