import Chronos.OptOut
import Chronos.Permanence

namespace Chronos

open ReadCommitted ReadCommitted.Prog

/-!
# No reminders of appointments that are over

A cancelled booking may keep reminders that are still scheduled, and their jobs in the queue.
Nobody is mailed because of them: a delivery reads the booking before it mails, and what is no
longer booked does not become so again, unless somebody sets its status to `booked`.

* `vetting_unbooked` — in no transaction, committed or not, is a booking brought back.
* `vetting_silent` — a delivery that reads only that the booking is over does not mail.
* `silent_once_over` — deliveries that begin after the booking is over mail no reminder of it.
-/

/-- The booking is there, and completed, cancelled or missed. -/
def Database.Unbooked (x : BookingId) (d : Database) : Prop :=
  ∃ b, d.bookings.lookup x = some b ∧ b.status ≠ .booked

/-- The step sends no statement that sets the booking's status back to `booked`. -/
def Unrevived {C ι : Type} (x : BookingId) (w : Workers C ι) (l : Label Ask.Answer Nat JsError C ι) :
    Prop :=
  ∀ s ok err, w.prog l.thread = .stmt s ok err → ¬ s.SetsBooking x .booked

/-! ### What is over stays over -/

/-- The write leaves the booking as it is, or makes a booked one of a booked one. -/
def Write.Unrevives (x : BookingId) (d : Database) : Write → Prop
  | .booking id row => id = x → row.status = .booked →
      ∀ old, d.bookings.lookup x = some old → old.status = .booked
  | _ => True

def Write.bookingLock : Write → List Lock
  | .booking id _ => [.booking id]
  | _ => []

/-- The locked bookings are the same. -/
def Database.SameBookings (ks : List Lock) (d d' : Database) : Prop :=
  ∀ id, .booking id ∈ ks → d.bookings.lookup id = d'.bookings.lookup id

section Unbooked

variable {cat : Catalog} {x : BookingId} {d d' : Database} {w : Write}

theorem Write.Unrevives.apply (hd : d.Unbooked x) (h : w.Unrevives x d) : (w.apply d).Unbooked x := by
  cases w with
  | booking id row =>
    obtain ⟨b, hb, hover⟩ := hd
    unfold Database.Unbooked
    rw [lookup_booking_write]
    by_cases hid : x = id
    · rw [if_pos hid]
      exact ⟨row, rfl, fun hbooked => hover (h hid.symm hbooked b hb)⟩
    · rw [if_neg hid]
      exact ⟨b, hb, hover⟩
  | _ => exact hd

theorem exec_unrevives {s : Stmt} {o : Nat} {r : s.Rows} {ws : List Write}
    (hs : ¬ s.SetsBooking x .booked) (hx : (exec cat s o d).result = .ok (r, ws)) (hw : w ∈ ws) :
    w.Unrevives x d := by
  cases w with
  | booking id row =>
    rintro rfl hbooked old hold
    rcases exec_writesBooking hx hw with ⟨-, -, hnone⟩ | ⟨hsets, -⟩
    · rw [hnone] at hold
      cases hold
    · exact absurd (hbooked ▸ hsets) hs
  | _ => exact trivial

theorem Write.Unrevives.congr (h : w.Unrevives x d) (hsame : Database.SameBookings w.bookingLock d d') :
    w.Unrevives x d' := by
  cases w with
  | booking id row =>
    rintro rfl hbooked old hold
    rw [← hsame id (List.mem_singleton_self _)] at hold
    exact h rfl hbooked old hold
  | _ => exact trivial

theorem Database.SameBookings.write {ks : List Lock} (h : Database.SameBookings ks d d') (w : Write) :
    Database.SameBookings ks (w.apply d) (w.apply d') := by
  intro i hi
  cases w with
  | booking id row => rw [lookup_booking_write, lookup_booking_write, h i hi]
  | _ => exact h i hi

theorem sameBookings_write {ks : List Lock} (h : ∀ k ∈ ks, k ∉ w.bookingLock) :
    Database.SameBookings ks d (w.apply d) := by
  intro i hi
  cases w with
  | booking id row =>
    have hne : i ≠ id := by
      rintro rfl
      exact h _ hi (List.mem_singleton_self _)
    rw [lookup_booking_write, if_neg hne]
  | _ => rfl

/-- `ended` tells whether the booking was over when the run began. -/
theorem vetting_unbooked (cat : Catalog) (ι : Type) (x : BookingId) (ended : Prop) :
    Vetting (chronos cat) (fun _ : ι => anyFacts.dialogue) (fun _ s _ _ => ¬ s.SetsBooking x .booked)
      (fun d => ended → d.Unbooked x) (fun _ d w => w.Unrevives x d) Write.bookingLock
      Database.SameBookings where
  exec i s o d r ws _ hs _ hx := by
    have hexec : (exec cat s o d).result = .ok (r, ws) := hx
    refine ⟨hears_anyFacts s r, ?_, fun w hw => ?_⟩
    · rcases exec_written hexec with rfl | ⟨w, rfl, -⟩
      · exact trivial
      · exact ⟨exec_unrevives hs hexec (List.mem_singleton_self w), trivial⟩
    · have hlocks := exec_locks hexec w hw
      cases w with
      | booking id row => exact hlocks
      | _ => exact fun k hk => nomatch hk
  note i a x d _ _ _ := by
    change Vets _ _ d ((noted a x).map (i, ·)) ∧ ∀ w ∈ noted a x, w.bookingLock = []
    unfold noted
    split
    · exact ⟨⟨trivial, trivial⟩, fun w hw => by rw [List.mem_singleton.mp hw]; rfl⟩
    · exact ⟨⟨trivial, trivial⟩, fun w hw => by rw [List.mem_singleton.mp hw]; rfl⟩
    · exact ⟨⟨trivial, trivial⟩, fun w hw => by rw [List.mem_singleton.mp hw]; rfl⟩
    · exact ⟨trivial, fun _ hw => nomatch hw⟩
  write _ _ _ hd hw hover := hw.apply (hd hover)
  stable i d d' w hsame hw := hw.congr hsame
  sees_refl _ _ _ _ := rfl
  sees_trans _ _ _ _ h h' id hid := (h id hid).trans (h' id hid)
  sees_write _ _ _ w h := h.write w
  sees_frame _ _ _ h := sameBookings_write h

end Unbooked

/-! ### A delivery that reads that the booking is over -/

section Delivery

variable {x : BookingId} {late : Prop} {id : ReminderId} {isConfigured : Bool}

/-- A delivery that is `late` reads that booking `x` is over. -/
def OverRead (x : BookingId) (late : Prop) : (s : Stmt) → s.Rows → Prop
  | .selectBooking b, found => late → b = x → ∀ row, found = some row → row.status ≠ .booked
  | _, _ => True

/-- A delivery of reminder `id` mails that reminder, and none of booking `x` if it is `late`. -/
def MailsOther (x : BookingId) (late : Prop) (id : ReminderId) : Ask → Prop
  | .sendEmail _ k => k = id ∧ (late → id.1 ≠ x)
  | _ => True

/-- What a delivery of reminder `id` may send and ask. -/
def silentDialogue (x : BookingId) (late : Prop) (id : ReminderId) : Dialogue Stmt.Rows Ask.Answer where
  sends := anyFacts.dialogue.sends
  hears := OverRead x late
  asks a := anyFacts.dialogue.asks a ∧ MailsOther x late id a
  learns _ _ := True

theorem silent_process :
    (process isConfigured (some id)).Follows (silentDialogue x late id) := by
  refine AllowsDelivery.process ⟨fun _ h => h, ⟨trivial, trivial⟩, fun _ => ⟨trivial, trivial⟩, ?_⟩
  intro booking _ _ receiver hb hbooked _ _ _ _
  exact ⟨trivial, rfl, fun hlate hx => hb hlate hx booking rfl hbooked⟩

end Delivery

/-- What a task may send and ask. -/
def silentTask (x : BookingId) (late : Prop) : Task → Dialogue Stmt.Rows Ask.Answer
  | .process _ (some id) => silentDialogue x late id
  | _ => anyFacts.dialogue

theorem follows_silentTask {x : BookingId} {late : Prop}
    {fromColumn : Instant → Except JsError Instant} (task : Task) :
    (task.program fromColumn).Follows (silentTask x late task) := by
  cases task with
  | process isConfigured reminderId =>
    cases reminderId with
    | none => exact trivial
    | some id => exact silent_process
  | _ => exact follows_task (admits_anyFacts _) fun _ _ _ _ _ => trivial

/-- The write is no mail of a late delivery about booking `x`. -/
def Write.Silent (x : BookingId) (late : Prop) : Write → Prop
  | .email id => late → id.1 ≠ x
  | _ => True

theorem overRead_exec {cat : Catalog} {x : BookingId} {late : Prop} {d : Database} {s : Stmt} {o : Nat}
    {r : s.Rows} {ws : List Write} (hd : late → d.Unbooked x)
    (hx : (exec cat s o d).result = .ok (r, ws)) : OverRead x late s r := by
  cases s with
  | selectBooking id =>
    obtain ⟨rfl, -⟩ := read_ok hx
    rintro hlate rfl row hrow
    obtain ⟨b, hb, hover⟩ := hd hlate
    exact Option.some.inj (hb.symm.trans hrow) ▸ hover
  | _ => exact trivial

theorem vetting_silent {ι : Type} (cat : Catalog) (x : BookingId) (late : ι → Prop)
    (tasks : ι → Task) :
    Vetting (chronos cat) (fun i => silentTask x (late i) (tasks i))
      (fun i _ _ d => late i → d.Unbooked x) (fun _ => True)
      (fun i _ w => w.Silent x (late i ∧ (tasks i).Delivers)) (fun _ => []) fun _ _ _ => True where
  exec i s o d r ws _ hover _ hx := by
    have hexec : (exec cat s o d).result = .ok (r, ws) := hx
    refine ⟨?_, ?_, fun _ _ k hk => nomatch hk⟩
    · unfold silentTask
      split
      · exact overRead_exec hover hexec
      · exact hears_anyFacts s r
    · rcases exec_written hexec with rfl | ⟨w, rfl, hwritten⟩
      · exact trivial
      · refine ⟨?_, trivial⟩
        cases hwritten <;> exact trivial
  note i a y d hasks _ _ := by
    change Vets _ _ d ((noted a y).map (i, ·)) ∧ ∀ w ∈ noted a y, ([] : List Lock) = []
    refine ⟨?_, fun _ _ => rfl⟩
    unfold noted
    split
    · exact ⟨trivial, trivial⟩
    · exact ⟨trivial, trivial⟩
    · next receiver id message =>
      refine ⟨?_, trivial⟩
      rintro ⟨hlate, isConfigured, id', htask⟩
      rw [htask] at hasks
      obtain ⟨-, rfl, hother⟩ := hasks
      exact hother hlate
    · exact trivial
  write _ _ _ hd _ := hd
  stable _ _ _ _ _ h := h
  sees_refl _ _ := trivial
  sees_trans _ _ _ _ _ _ := trivial
  sees_write _ _ _ _ _ := trivial
  sees_frame _ _ _ _ := trivial

/-! ### Every run -/

section Runs

variable {C ι : Type} [DecidableEq C] [DecidableEq ι] {cat : Catalog}
variable {fromColumn : Instant → Except JsError Instant} {tasks : ι → Task} {d₀ : Database}
variable {x : BookingId} {late : ι → Prop} {w w₁ w₂ : Workers C ι}

/-- Steps of which the late ones see that the booking is over. -/
def SeesOver (x : BookingId) (late : ι → Prop) (cat : Catalog) (w : Workers C ι)
    (l : Label Ask.Answer Nat JsError C ι) : Prop :=
  late l.thread → ((w.session l.conn).view (chronos cat) w.db).Unbooked x

/-- Nobody brings a booking back, whether it is over or not. -/
theorem unbooked_reaches {ended : Prop} {P : Workers C ι → Label Ask.Answer Nat JsError C ι → Prop}
    (hP : ∀ w l, P w l → Unrevived x w l)
    (h₁ : w₁.Vetted (chronos cat) (fun _ => anyFacts.dialogue) (fun d => ended → d.Unbooked x)
      (fun _ d w => w.Unrevives x d) Write.bookingLock)
    (h : Reaches (chronos cat) P w₁ w) :
    w.Vetted (chronos cat) (fun _ => anyFacts.dialogue) (fun d => ended → d.Unbooked x)
      (fun _ d w => w.Unrevives x d) Write.bookingLock :=
  World.Vetted.reaches (vetting_unbooked cat ι x ended)
    (fun w l hl => ⟨fun s ok err hprog _ _ => hP w l hl s ok err hprog,
      fun a _ _ => learns_anyFacts a _⟩) h₁ h

omit [DecidableEq C] [DecidableEq ι] in
/-- Inside a transaction the booking is over, too. -/
theorem unbooked_view (h : w.Vetted (chronos cat) (fun _ => anyFacts.dialogue)
      (fun d => True → d.Unbooked x) (fun _ d w => w.Unrevives x d) Write.bookingLock) (c : C) :
    ((w.session c).view (chronos cat) w.db).Unbooked x := by
  cases hsession : w.session c with
  | idle => exact h.db trivial
  | failed i => exact h.db trivial
  | active i pending =>
    exact (vetting_unbooked cat ι x True).apply h.db (h.session c i pending hsession).1 trivial

/-- **A run goes on to see what is over.** -/
theorem reaches_seesOver (h₁ : w₁.Vetted (chronos cat) (fun _ => anyFacts.dialogue)
      (fun d => True → d.Unbooked x) (fun _ d w => w.Unrevives x d) Write.bookingLock)
    (h : Reaches (chronos cat) (Unrevived x) w₁ w₂) :
    Reaches (chronos cat) (SeesOver x late cat) w₁ w₂ := by
  induction h with
  | start => exact .start
  | step hr hl hs ih =>
    exact ih.step (fun _ => unbooked_view (unbooked_reaches (fun _ _ h => h) h₁ hr) _) hs

omit [DecidableEq C] [DecidableEq ι] in
theorem allows_of_seesOver {l : Label Ask.Answer Nat JsError C ι} (h : SeesOver x late cat w l) :
    w.Allows (chronos cat) (fun i => silentTask x (late i) (tasks i))
      (fun i _ _ d => late i → d.Unbooked x) l := by
  refine ⟨fun _ _ _ _ _ _ => h, fun a k _ => ?_⟩
  unfold silentTask
  split
  · exact trivial
  · exact learns_anyFacts a _

/-- **No reminders of what is over.**  Once a booking is not `booked` any more, no delivery that begins
    later mails a reminder of it: whatever else is going on, in whatever order, over whichever
    connections, with anything failing.  Nobody sets the booking to `booked` in the whole run; an
    `UPDATE` that was sent before it was over might be committed after that. -/
theorem silent_once_over (late : ι → Prop)
    (h₁ : Reaches (chronos cat) (fun w l => Unrevived x w l ∧ ¬ late l.thread)
      (World.init d₀ fun i => (tasks i).program fromColumn) w₁)
    (hover : w₁.db.Unbooked x) (h₂ : Reaches (chronos cat) (Unrevived x) w₁ w₂) {i : ι}
    (hlate : late i) (hdelivers : (tasks i).Delivers) (offset : Nat) :
    (i, Write.email (x, offset)) ∉ w₂.journal := by
  have hbefore : w₁.Vetted (chronos cat) (fun _ => anyFacts.dialogue) (fun d => False → d.Unbooked x)
      (fun _ d w => w.Unrevives x d) Write.bookingLock :=
    unbooked_reaches (fun _ _ h => h.1)
      (vetted_init False.elim fun i => follows_task (admits_anyFacts (tasks i))
        fun _ _ _ _ _ => trivial) h₁
  have hreach : Reaches (chronos cat) (SeesOver x late cat)
      (World.init d₀ fun i => (tasks i).program fromColumn) w₂ :=
    (h₁.mono fun _ _ h hlate => absurd hlate h.2).trans
      (reaches_seesOver ⟨fun _ => hover, hbefore.session, hbefore.prog⟩ h₂)
  have hinit : (World.init d₀ fun i => (tasks i).program fromColumn : Workers C ι).Vetted (chronos cat)
      (fun i => silentTask x (late i) (tasks i)) (fun _ => True)
      (fun i _ w => w.Silent x (late i ∧ (tasks i).Delivers)) fun _ => [] :=
    vetted_init trivial fun i => follows_silentTask (tasks i)
  have hallows : ∀ (w : Workers C ι) l, SeesOver x late cat w l → w.Allows (chronos cat)
      (fun i => silentTask x (late i) (tasks i)) (fun i _ _ d => late i → d.Unbooked x) l :=
    fun _ _ hl => allows_of_seesOver hl
  obtain ⟨made, hvets, -, hjournal⟩ :=
    World.Vetted.journal (vetting_silent cat x late tasks) hallows hinit hreach
  intro hmail
  have hempty : (World.init d₀ fun i => (tasks i).program fromColumn : Workers C ι).journal = [] := rfl
  rw [hjournal, hempty, List.nil_append] at hmail
  obtain ⟨before, rest, hmade⟩ := List.append_of_mem hmail
  rw [hmade] at hvets
  have hsilent : late i ∧ (tasks i).Delivers → x ≠ x := (vets_mem hvets).2
  exact hsilent ⟨hlate, hdelivers⟩ rfl

/-! #### A declined appointment -/

/-- The client declines, and the reminder of their booking is delivered. -/
def declineAndDeliver : Bool → Task
  | false => .operation (.declineBooking 1 (some 5) false .printed)
  | true => .process true (some (1, 60))

def startDeclined : Workers Bool Bool :=
  World.init (sampleRemind .scheduled none) fun i => (declineAndDeliver i).program .ok

/-- No statement of a sample sets a status to `booked`. -/
def setsNothingBooked (w : Workers Bool Bool) (l : Label Ask.Answer Nat JsError Bool Bool) : Bool :=
  match w.prog l.thread with
  | .stmt (.setBookingStatus _ text) _ _ => decide (BookingStatus.ofText? text ≠ some .booked)
  | .stmt (.updateBooking ..) _ _ => false
  | _ => true

theorem unrevived_of_check {w : Workers Bool Bool} {l : Label Ask.Answer Nat JsError Bool Bool}
    (h : setsNothingBooked w l = true) : Unrevived x w l := by
  intro s ok err hprog hsets
  unfold setsNothingBooked at h
  rw [hprog] at h
  cases s with
  | setBookingStatus b text => exact of_decide_eq_true h hsets.2
  | updateBooking => cases h
  | cancelBookingRow => cases hsets.2
  | _ => exact hsets

/-- The reminder ends `cancelled`, and nobody is mailed. -/
theorem silent_once_over_declined : ∃ w : Workers Bool Bool,
    (w.db.reminderJobs.lookup (1, 60)).map ReminderJob.status = some .cancelled ∧
    ∀ offset, (true, Write.email (1, offset)) ∉ w.journal := by
  have hdeclined : ∃ w₁ : Workers Bool Bool, World.run (chronos sampleCatalog) setsNothingBooked
      startDeclined (List.replicate 6 ⟨false, false, mailEnv (hoursMs 99)⟩) = some w₁ ∧
      w₁.db.bookings.lookup 1 = some (sampleBooking .cancelled 2) ∧
      ∃ w₂ : Workers Bool Bool, World.run (chronos sampleCatalog) setsNothingBooked w₁
        (List.replicate 5 ⟨true, true, mailEnv (hoursMs 99)⟩) = some w₂ ∧
        (w₂.db.reminderJobs.lookup (1, 60)).map ReminderJob.status = some .cancelled :=
    ⟨_, rfl, rfl, _, rfl, rfl⟩
  obtain ⟨w₁, hw₁, hcancelled, w₂, hw₂, hended⟩ := hdeclined
  have hover : w₁.db.Unbooked 1 := ⟨_, hcancelled, nofun⟩
  have hbefore : Reaches (chronos sampleCatalog)
      (fun w l => Unrevived 1 w l ∧ ¬ l.thread = true) startDeclined w₁ :=
    reaches_of_run (fun _ l hl hcheck => ⟨unrevived_of_check hcheck, by
      rw [List.eq_of_mem_replicate hl]
      decide⟩) hw₁
  have hdelivers : (declineAndDeliver true).Delivers := ⟨true, (1, 60), rfl⟩
  exact ⟨w₂, hended, silent_once_over (fun i => i = true) hbefore hover
    (reaches_of_run (fun _ _ _ hcheck => unrevived_of_check hcheck) hw₂) rfl hdelivers⟩

end Runs

end Chronos
