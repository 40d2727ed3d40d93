import Chronos.Operations
import Chronos.ReadCommitted.Solitary

namespace Chronos

open ReadCommitted ReadCommitted.Prog

/-!
# What a reconciliation comes to

`reconcileScheduledReminders` runs alone, no statement fails and the queue takes every job.

* `reconcileRow` — what one turn of its loop does to the tables and to the queue.
* `Reconciled` — what the whole loop comes to: the scheduled reminders of booked bookings are
  skipped or queued (`reconciled`), and nothing else changes.
* `reconcile_converges` — the call returns, its effect is `Reconciled`, and a second call at the
  same time changes nothing.
-/

/-- No statement fails, it is `now`, and the queue takes every job, at the time it is `added`. -/
structure Works (now : Instant) (added : ReminderId → Instant) (env : Env Nat JsError Ask.Answer) :
    Prop where
  calm : Calm env
  clock : env.answer .now = now
  dated : ∀ b offset t delayMs, env.answer (.queueAdd b offset t delayMs) = .ok (added (b, offset))

/-! ### One turn of the loop -/

/-- A row of the join: the booking, the start of its slot, and the offset of the reminder. -/
abbrev ReconcileRow := BookingId × Instant × Nat

namespace ReconcileRow

def reminderId (r : ReconcileRow) : ReminderId := (r.1, r.2.2)

def fireTime (r : ReconcileRow) : Instant := r.2.1 - minutesMs r.2.2

end ReconcileRow

def ReminderJob.skip (row : ReminderJob) : ReminderJob := { row with status := .skipped }

/-- What `enqueueForBooking` does to a single reminder, if its job is `added` then. -/
def reconcileRow (now added : Instant) (d : Database) (r : ReconcileRow) : Database :=
  match (d.reminderJobs.lookup r.reminderId).filter ReminderJob.scheduled with
  | none => d
  | some row =>
      if r.fireTime ≤ now then
        { d with reminderJobs := d.reminderJobs.insert r.reminderId row.skip }
      else
        { d with jobs := addIfAbsent r.reminderId ⟨added, r.fireTime - now⟩ d.jobs }

/-- All turns of a loop over such rows. -/
def reconcileAll (now : Instant) (added : ReminderId → Instant) (rows : List ReconcileRow)
    (d : Database) : Database :=
  rows.foldl (fun d r => reconcileRow now (added r.reminderId) d r) d

/-- Nothing fails from outside. -/
theorem Calm.fault_ne {env : Env Nat JsError Ask.Answer} (h : Calm env) (e : JsError) :
    env.fault ≠ some e := by
  rw [h.1]
  exact nofun

section Row

variable {cat : Catalog} {now : Instant} {d : Database} {P : Env Nat JsError Ask.Answer → Prop}
variable {Q : List (Event Stmt Ask.Answer JsError) → Place Database Write → Except JsError Unit → Prop}
variable {tr : List (Event Stmt Ask.Answer JsError)}

/-- A turn of the loop does what `reconcileRow` says, with a job that is dated by a time in `T`. -/
theorem yields_enqueueTurn {T : Instant → Prop} {b : BookingId} {start : Instant} {offset : Nat}
    {offsets : List Nat} (hP : ∀ env, P env → Calm env) (hT : ∃ added, T added)
    (hdated : ∀ env, P env → ∀ delayMs added,
      env.answer (.queueAdd b offset now delayMs) = .ok added → T added)
    (h : ∀ added tr, T added → (enqueueForBooking b start now offsets).Yields (chronos cat) P Q tr
      (.free (reconcileRow now added d (b, start, offset)))) :
    (enqueueForBooking b start now (offset :: offsets)).Yields (chronos cat) P Q tr (.free d) := by
  have hfault : ∀ {env : Env Nat JsError Ask.Answer} {e}, P env → env.fault ≠ some e :=
    fun {env e} henv => (hP env henv).fault_ne e
  obtain ⟨any, hany⟩ := hT
  simp only [enqueueForBooking]
  cases hrow : (d.reminderJobs.lookup (b, offset)).filter ReminderJob.scheduled with
  | none =>
    -- The reminder is not scheduled, and left alone.
    have hsame : ∀ added, reconcileRow now added d (b, start, offset) = d := by
      intro added
      simp only [reconcileRow, ReconcileRow.reminderId, hrow]
    have hnext := fun tr => h any tr hany
    rw [hsame] at hnext
    split
    · refine yields_read (r := ()) (fun o => ?_) (hnext _) fun env e henv hf => absurd hf (hfault henv)
      show (exec cat (.skipReminder b offset) o d).result = _
      simp only [exec, hrow]
      rfl
    · refine yields_read (r := false) (fun o => ?_) (hnext _) fun env e henv hf =>
        absurd hf (hfault henv)
      show (exec cat (.selectScheduledReminder b offset) o d).result = _
      simp only [exec, hrow]
      rfl
  | some row =>
    split
    · next hpast =>
      have hskips : reconcileRow now any d (b, start, offset) =
          { d with reminderJobs := d.reminderJobs.insert (b, offset) row.skip } := by
        simp only [reconcileRow, ReconcileRow.reminderId, hrow]
        exact if_pos hpast
      have hnext := fun tr => h any tr hany
      rw [hskips] at hnext
      refine yields_stmt_free fun env henv => ⟨fun e hf => absurd hf (hfault henv), fun _ =>
        ⟨fun x ws hx => ?_, fun e hx => ?_⟩⟩
      · change (exec cat (.skipReminder b offset) env.fresh d).result = _ at hx
        simp only [exec, hrow, Except.ok.injEq, Prod.mk.injEq, true_and] at hx
        subst hx
        exact hnext _
      · change (exec cat (.skipReminder b offset) env.fresh d).result = _ at hx
        simp only [exec, hrow] at hx
        cases hx
    · next hahead =>
      have hqueues : ∀ added, reconcileRow now added d (b, start, offset) =
          { d with jobs := addIfAbsent (b, offset) ⟨added, start - minutesMs offset - now⟩ d.jobs } := by
        intro added
        simp only [reconcileRow, ReconcileRow.reminderId, hrow]
        exact if_neg hahead
      refine yields_read (r := true) (fun o => ?_) ?_ fun env e henv hf => absurd hf (hfault henv)
      · show (exec cat (.selectScheduledReminder b offset) o d).result = _
        simp only [exec, hrow]
        rfl
      · intro env henv
        obtain ⟨added, hadded⟩ := (hP env henv).2.2 b offset now (start - minutesMs offset - now)
        have hnext := fun tr => h added tr (hdated env henv _ added hadded)
        rw [hqueues] at hnext
        rw [hadded]
        exact hnext _

/-- The turns of the loop, where the queue dates the jobs by the times they are `added`. -/
theorem yields_enqueueDated {added : ReminderId → Instant} (hP : ∀ env, P env → Works now added env)
    (b : BookingId) (start : Instant) (offsets : List Nat)
    (h : ∀ tr, Q tr (.free (reconcileAll now added (offsets.map fun o => (b, start, o)) d)) (.ok ())) :
    (enqueueForBooking b start now offsets).Yields (chronos cat) P Q tr (.free d) := by
  induction offsets generalizing d tr with
  | nil => exact h tr
  | cons offset offsets ih =>
    refine yields_enqueueTurn (T := (· = added (b, offset))) (fun env henv => (hP env henv).calm)
      ⟨_, rfl⟩ (fun env henv delayMs date hdate => ?_) fun date tr hdate => ?_
    · rw [(hP env henv).dated, Except.ok.injEq] at hdate
      exact hdate.symm
    · subst hdate
      exact ih h

end Row

/-! ### The loop -/

section Loop

variable {cat : Catalog} {now date : Instant} {added : ReminderId → Instant} {d : Database}
variable {r : ReconcileRow} {id : ReminderId}

theorem yields_reconcileRows
    {Q : List (Event Stmt Ask.Answer JsError) → Place Database Write → Except JsError Unit → Prop}
    (rows : List ReconcileRow) {tr : List (Event Stmt Ask.Answer JsError)}
    (h : ∀ tr, Q tr (.free (reconcileAll now added rows d)) (.ok ())) :
    (reconcileRows now rows).Yields (chronos cat) (Works now added) Q tr (.free d) := by
  induction rows generalizing d tr with
  | nil => exact h tr
  | cons r rows ih =>
    have hrow : (enqueueForBooking r.1 r.2.1 now [r.2.2]).Yields (chronos cat) (Works now added)
        (fun _ st x => st = .free (reconcileRow now (added r.reminderId) d r) ∧ x = .ok ()) tr
        (.free d) :=
      yields_enqueueDated (fun _ henv => henv) r.1 r.2.1 [r.2.2] fun _ => ⟨rfl, rfl⟩
    have hturn : (tryCatch (enqueueForBooking r.1 r.2.1 now [r.2.2]) fun _ => pure ()).Yields
        (chronos cat) (Works now added)
        (fun _ st x => st = .free (reconcileRow now (added r.reminderId) d r) ∧ x = .ok ()) tr
        (.free d) := by
      refine hrow.tryCatch (fun _ _ _ h => h) ?_
      rintro tr st e ⟨-, herr⟩
      cases herr
    refine hturn.bind ?_ ?_
    · rintro tr st - ⟨rfl, -⟩
      exact ih h
    · rintro tr st e ⟨-, herr⟩
      cases herr

theorem yields_reconcileScheduledReminders
    {Q : List (Event Stmt Ask.Answer JsError) → Place Database Write → Except JsError Unit → Prop}
    {tr : List (Event Stmt Ask.Answer JsError)}
    (h : ∀ tr, Q tr (.free (reconcileAll now added d.scheduledReminders d)) (.ok ())) :
    reconcileScheduledReminders.Yields (chronos cat) (Works now added) Q tr (.free d) := by
  refine yields_read (fun _ => rfl) ?_ fun env e henv hf => ?_
  · intro env henv
    simp only [andThen]
    rw [henv.clock]
    exact yields_reconcileRows _ h
  · exact absurd hf (henv.calm.fault_ne e)

/-! #### Rows and jobs of other reminders -/

theorem reminderJobs_reconcileRow (hne : id ≠ r.reminderId) :
    (reconcileRow now date d r).reminderJobs.lookup id = d.reminderJobs.lookup id := by
  unfold reconcileRow
  split
  · rfl
  · split
    · exact AList.lookup_insert_ne hne
    · rfl

theorem lookup_addIfAbsent (k : ReminderId) (job : QueueJob) (jobs : AList fun _ : ReminderId => QueueJob) :
    (addIfAbsent k job jobs).lookup id =
      if id = k then some ((jobs.lookup k).getD job) else jobs.lookup id := by
  unfold addIfAbsent
  by_cases hid : id = k
  · subst hid
    cases hjob : jobs.lookup id with
    | none => simp
    | some job' => simp [hjob]
  · rw [if_neg hid]
    split
    · exact AList.lookup_insert_ne hid
    · rfl

theorem jobs_reconcileRow (hne : id ≠ r.reminderId) :
    (reconcileRow now date d r).jobs.lookup id = d.jobs.lookup id := by
  unfold reconcileRow
  split
  · rfl
  · split
    · rfl
    · show (addIfAbsent r.reminderId _ d.jobs).lookup id = _
      rw [lookup_addIfAbsent, if_neg hne]

/-- The tables and the e-mails a reconciliation does not write. -/
structure SameBookings (d d' : Database) : Prop where
  slots : d'.slots = d.slots
  bookings : d'.bookings = d.bookings
  idempotencyKeys : d'.idempotencyKeys = d.idempotencyKeys
  emails : d'.emails = d.emails

theorem SameBookings.trans {d' d'' : Database} (h : SameBookings d d') (h' : SameBookings d' d'') :
    SameBookings d d'' :=
  ⟨h'.slots.trans h.slots, h'.bookings.trans h.bookings,
    h'.idempotencyKeys.trans h.idempotencyKeys, h'.emails.trans h.emails⟩

theorem sameBookings_reconcileRow : SameBookings d (reconcileRow now date d r) := by
  unfold reconcileRow
  split
  · exact ⟨rfl, rfl, rfl, rfl⟩
  · split
    · exact ⟨rfl, rfl, rfl, rfl⟩
    · exact ⟨rfl, rfl, rfl, rfl⟩

theorem sameBookings_reconcileAll (rows : List ReconcileRow) :
    SameBookings d (reconcileAll now added rows d) := by
  induction rows generalizing d with
  | nil => exact ⟨rfl, rfl, rfl, rfl⟩
  | cons r rows ih =>
    have hrow : SameBookings d (reconcileRow now (added r.reminderId) d r) :=
      sameBookings_reconcileRow
    have hrest : SameBookings (reconcileRow now (added r.reminderId) d r)
        (reconcileAll now added (r :: rows) d) := ih
    exact hrow.trans hrest

/-- Only reminders and jobs have changed, and no reminder has been added. -/
structure Requeued (d d' : Database) : Prop where
  tables : SameBookings d d'
  rows : ∀ id, d.reminderJobs.lookup id = none → d'.reminderJobs.lookup id = none

theorem Requeued.refl (d : Database) : Requeued d d := ⟨⟨rfl, rfl, rfl, rfl⟩, fun _ h => h⟩

/-- A reminder that is not among the rows keeps its row and its job. -/
theorem lookup_reconcileAll_of_not_mem {rows : List ReconcileRow}
    (h : ∀ r ∈ rows, id ≠ r.reminderId) :
    (reconcileAll now added rows d).reminderJobs.lookup id = d.reminderJobs.lookup id ∧
      (reconcileAll now added rows d).jobs.lookup id = d.jobs.lookup id := by
  induction rows generalizing d with
  | nil => exact ⟨rfl, rfl⟩
  | cons r rows ih =>
    have hne := h r List.mem_cons_self
    obtain ⟨hrows, hjobs⟩ := ih (d := reconcileRow now (added r.reminderId) d r) fun r' hr' =>
      h r' (List.mem_cons_of_mem r hr')
    exact ⟨hrows.trans (reminderJobs_reconcileRow hne), hjobs.trans (jobs_reconcileRow hne)⟩

/-- No reminder is added. -/
theorem lookup_reconcileRow_eq_none (h : d.reminderJobs.lookup id = none) :
    (reconcileRow now date d r).reminderJobs.lookup id = none := by
  by_cases hid : id = r.reminderId
  · have hsame : reconcileRow now date d r = d := by
      unfold reconcileRow
      rw [← hid, h]
      rfl
    rw [hsame]
    exact h
  · rw [reminderJobs_reconcileRow hid]
    exact h

/-- **Where nothing fails**, the loop of `enqueueForBooking` ends, and changes reminders and jobs
    only, whenever the jobs are added. -/
theorem yields_enqueueCalmly {P : Env Nat JsError Ask.Answer → Prop}
    {tr : List (Event Stmt Ask.Answer JsError)} (hP : ∀ env, P env → Calm env) (b : BookingId)
    (start : Instant) (offsets : List Nat) :
    (enqueueForBooking b start now offsets).Yields (chronos cat) P
      (fun _ st r => r = .ok () ∧ ∃ d', st = .free d' ∧ Requeued d d') tr (.free d) := by
  induction offsets generalizing d tr with
  | nil => exact ⟨rfl, d, rfl, Requeued.refl d⟩
  | cons offset offsets ih =>
    refine yields_enqueueTurn (T := fun _ => True) hP ⟨now, trivial⟩ (fun _ _ _ _ _ => trivial)
      fun date tr _ => ih.mono ?_
    rintro tr' _ r ⟨rfl, d', rfl, hrest⟩
    refine ⟨rfl, d', rfl, sameBookings_reconcileRow.trans hrest.tables, fun id hid => ?_⟩
    exact hrest.rows id (lookup_reconcileRow_eq_none hid)

/-- What a reminder comes to whose row is `row`, if its job is added at `date`. -/
structure Handled (now date : Instant) (r : ReconcileRow) (row : ReminderJob) (d d' : Database) :
    Prop where
  past : r.fireTime ≤ now → d'.reminderJobs.lookup r.reminderId = some row.skip ∧
    d'.jobs.lookup r.reminderId = d.jobs.lookup r.reminderId
  ahead : now < r.fireTime → d'.reminderJobs.lookup r.reminderId = some row ∧
    d'.jobs.lookup r.reminderId =
      some ((d.jobs.lookup r.reminderId).getD ⟨date, r.fireTime - now⟩)

theorem handled_reconcileRow {row : ReminderJob}
    (hrow : d.reminderJobs.lookup r.reminderId = some row) (hscheduled : row.status = .scheduled) :
    Handled now date r row d (reconcileRow now date d r) := by
  have hfound : (d.reminderJobs.lookup r.reminderId).filter ReminderJob.scheduled = some row := by
    rw [hrow]
    simp [ReminderJob.scheduled, hscheduled]
  unfold reconcileRow
  rw [hfound]
  dsimp only
  refine ⟨fun hpast => ?_, fun hahead => ?_⟩
  · rw [if_pos hpast]
    exact ⟨AList.lookup_insert _, rfl⟩
  · rw [if_neg (Int.not_le.mpr hahead)]
    refine ⟨hrow, ?_⟩
    show (addIfAbsent r.reminderId _ d.jobs).lookup r.reminderId = _
    rw [lookup_addIfAbsent, if_pos rfl]

/-- **Every row is handled.**  The rows are of different reminders, each of them scheduled. -/
theorem handled_reconcileAll {rows : List ReconcileRow}
    (hnodup : (rows.map ReconcileRow.reminderId).Nodup) {row : ReminderJob} (hr : r ∈ rows)
    (hrow : d.reminderJobs.lookup r.reminderId = some row) (hscheduled : row.status = .scheduled) :
    Handled now (added r.reminderId) r row d (reconcileAll now added rows d) := by
  induction rows generalizing d with
  | nil => exact absurd hr List.not_mem_nil
  | cons r' rows ih =>
    obtain ⟨hnot, hnodup⟩ := List.nodup_cons.mp hnodup
    have hothers : ∀ r'' ∈ rows, r'.reminderId ≠ r''.reminderId := by
      intro r'' hr'' heq
      exact hnot (heq ▸ List.mem_map_of_mem hr'')
    rcases List.mem_cons.mp hr with rfl | hr
    · -- What is handled now is left alone afterwards.
      have hnow : Handled now (added r.reminderId) r row d
          (reconcileRow now (added r.reminderId) d r) := handled_reconcileRow hrow hscheduled
      obtain ⟨hrows, hjobs⟩ : (reconcileAll now added rows _).reminderJobs.lookup r.reminderId =
            (reconcileRow now (added r.reminderId) d r).reminderJobs.lookup r.reminderId ∧
          (reconcileAll now added rows _).jobs.lookup r.reminderId =
            (reconcileRow now (added r.reminderId) d r).jobs.lookup r.reminderId :=
        lookup_reconcileAll_of_not_mem hothers
      refine ⟨fun hpast => ?_, fun hahead => ?_⟩
      · exact ⟨hrows.trans (hnow.past hpast).1, hjobs.trans (hnow.past hpast).2⟩
      · exact ⟨hrows.trans (hnow.ahead hahead).1, hjobs.trans (hnow.ahead hahead).2⟩
    · have hne : r.reminderId ≠ r'.reminderId := (hothers r hr).symm
      have hlater : Handled now (added r.reminderId) r row
          (reconcileRow now (added r'.reminderId) d r') (reconcileAll now added rows _) :=
        ih hnodup hr (by rw [reminderJobs_reconcileRow hne]; exact hrow)
      refine ⟨fun hpast => ?_, fun hahead => ?_⟩
      · obtain ⟨hrows, hjobs⟩ := hlater.past hpast
        exact ⟨hrows, hjobs.trans (jobs_reconcileRow hne)⟩
      · obtain ⟨hrows, hjobs⟩ := hlater.ahead hahead
        rw [jobs_reconcileRow hne] at hjobs
        exact ⟨hrows, hjobs⟩

/-- A row that is handled already. -/
theorem reconcileRow_self (hjob : r.fireTime ≤ now → ∀ row,
      d.reminderJobs.lookup r.reminderId = some row → row.status ≠ .scheduled)
    (hqueued : now < r.fireTime → (d.jobs.lookup r.reminderId).isSome = true) :
    reconcileRow now date d r = d := by
  unfold reconcileRow
  split
  · rfl
  · next row hrow =>
    obtain ⟨hrow, hscheduled⟩ := Option.filter_eq_some_iff.mp hrow
    split
    · next hpast => exact absurd (of_decide_eq_true hscheduled) (hjob hpast row hrow)
    · next hahead =>
      obtain ⟨job, hjob⟩ := Option.isSome_iff_exists.mp (hqueued (Int.not_le.mp hahead))
      have hsame : addIfAbsent r.reminderId ⟨date, r.fireTime - now⟩ d.jobs = d.jobs := by
        unfold addIfAbsent
        rw [hjob]
      rw [hsame]

theorem reconcileAll_self {rows : List ReconcileRow}
    (h : ∀ r ∈ rows, ∀ date, reconcileRow now date d r = d) : reconcileAll now added rows d = d := by
  induction rows with
  | nil => rfl
  | cons r rows ih =>
    show reconcileAll now added rows (reconcileRow now (added r.reminderId) d r) = d
    rw [h r List.mem_cons_self]
    exact ih fun r' hr' => h r' (List.mem_cons_of_mem r hr')

end Loop

/-! ### The join -/

/-- **A scheduled reminder of a booked booking**, with the start of the booking's slot; every booking
    has its slot, by a foreign key. -/
def Database.Awaits (d : Database) (id : ReminderId) (start : Instant) : Prop :=
  ∃ row b slot, d.reminderJobs.lookup id = some row ∧ row.status = .scheduled ∧
    d.bookings.lookup id.1 = some b ∧ b.status = .booked ∧
    d.slots.lookup b.slotId = some slot ∧ slot.slotStartUtc = start

section Join

variable {d : Database} {id : ReminderId} {start : Instant}

theorem Database.Awaits.row (h : d.Awaits id start) :
    ∃ row, d.reminderJobs.lookup id = some row ∧ row.status = .scheduled := by
  obtain ⟨row, -, -, hrow, hscheduled, -⟩ := h
  exact ⟨row, hrow, hscheduled⟩

theorem Database.Awaits.start_eq (h : d.Awaits id start) {b : Booking} {slot : Slot}
    (hb : d.bookings.lookup id.1 = some b) (hslot : d.slots.lookup b.slotId = some slot) :
    slot.slotStartUtc = start := by
  obtain ⟨-, b', slot', -, -, hb', -, hslot', rfl⟩ := h
  obtain rfl := Option.some.inj (hb.symm.trans hb')
  obtain rfl := Option.some.inj (hslot.symm.trans hslot')
  rfl

/-- What the join says of one reminder. -/
def Database.joined (d : Database) (e : Sigma fun _ : ReminderId => ReminderJob) :
    Option ReconcileRow :=
  ((d.bookings.lookup e.1.1).filter fun b => e.2.scheduled && decide (b.status = .booked)).bind
    fun b => (d.slots.lookup b.slotId).map fun slot => (e.1.1, slot.slotStartUtc, e.1.2)

theorem joined_eq_some {e : Sigma fun _ : ReminderId => ReminderJob} {r : ReconcileRow} :
    d.joined e = some r ↔ ∃ b slot, e.2.status = .scheduled ∧ d.bookings.lookup e.1.1 = some b ∧
      b.status = .booked ∧ d.slots.lookup b.slotId = some slot ∧
      (e.1.1, slot.slotStartUtc, e.1.2) = r := by
  simp only [Database.joined, Option.bind_eq_some_iff, Option.filter_eq_some_iff, Bool.and_eq_true,
    decide_eq_true_eq, ReminderJob.scheduled, Option.map_eq_some_iff]
  constructor
  · rintro ⟨b, ⟨hb, hscheduled, hbooked⟩, slot, hslot, hr⟩
    exact ⟨b, slot, hscheduled, hb, hbooked, hslot, hr⟩
  · rintro ⟨b, slot, hscheduled, hb, hbooked, hslot, hr⟩
    exact ⟨b, ⟨hb, hscheduled, hbooked⟩, slot, hslot, hr⟩

/-- **The join finds the reminders to reconcile.** -/
theorem mem_scheduledReminders {r : ReconcileRow} :
    r ∈ d.scheduledReminders ↔ d.Awaits r.reminderId r.2.1 := by
  unfold Database.scheduledReminders
  rw [List.mem_mergeSort, List.mem_filterMap]
  constructor
  · rintro ⟨e, he, hr⟩
    obtain ⟨b, slot, hscheduled, hb, hbooked, hslot, rfl⟩ := joined_eq_some.mp hr
    exact ⟨e.2, b, slot, AList.mem_lookup_iff.mpr he, hscheduled, hb, hbooked, hslot, rfl⟩
  · rintro ⟨row, b, slot, hrow, hscheduled, hb, hbooked, hslot, hstart⟩
    refine ⟨⟨r.reminderId, row⟩, AList.mem_lookup_iff.mp hrow, joined_eq_some.mpr
      ⟨b, slot, hscheduled, hb, hbooked, hslot, ?_⟩⟩
    rw [hstart]
    rfl

/-- There is one row for each booking and offset. -/
theorem nodup_scheduledReminders (d : Database) :
    (d.scheduledReminders.map ReconcileRow.reminderId).Nodup := by
  have hkey : ∀ {e r}, d.joined e = some r → r.reminderId = e.1 := by
    intro e r hr
    obtain ⟨b, slot, -, -, -, -, rfl⟩ := joined_eq_some.mp hr
    rfl
  have hkeys : (d.reminderJobs.entries.map Sigma.fst).Nodup := d.reminderJobs.nodupKeys
  have hjoined : ((d.reminderJobs.entries.filterMap d.joined).map ReconcileRow.reminderId).Nodup := by
    rw [List.Nodup, List.pairwise_map] at hkeys ⊢
    rw [List.pairwise_filterMap]
    refine hkeys.imp fun hne r hr r' hr' => ?_
    rw [hkey hr, hkey hr']
    exact hne
  unfold Database.scheduledReminders
  exact (((List.mergeSort_perm _ _).map _).nodup_iff).mpr hjoined

end Join

/-! ### The whole call -/

/-- **What a reconciliation at `now` comes to.** -/
structure Reconciled (now : Instant) (added : ReminderId → Instant) (d d' : Database) : Prop where
  skipped : ∀ id start row, d.Awaits id start → d.reminderJobs.lookup id = some row →
    start - minutesMs id.2 ≤ now → d'.reminderJobs.lookup id = some { row with status := .skipped }
  queued : ∀ id start row, d.Awaits id start → d.reminderJobs.lookup id = some row →
    now < start - minutesMs id.2 → d'.reminderJobs.lookup id = some row ∧
      d'.jobs.lookup id = some ((d.jobs.lookup id).getD ⟨added id, start - minutesMs id.2 - now⟩)
  rows : ∀ id, (∀ start, ¬ d.Awaits id start) →
    d'.reminderJobs.lookup id = d.reminderJobs.lookup id
  jobs : ∀ id, (∀ start, d.Awaits id start → start - minutesMs id.2 ≤ now) →
    d'.jobs.lookup id = d.jobs.lookup id
  tables : SameBookings d d'

section Call

variable {now : Instant} {added : ReminderId → Instant} {d d' : Database}

/-- The reminders that are waited for are handled. -/
theorem handled_of_awaits {id : ReminderId} {start : Instant} {row : ReminderJob}
    (hawaits : d.Awaits id start) (hrow : d.reminderJobs.lookup id = some row) :
    Handled now (added id) (id.1, start, id.2) row d
      (reconcileAll now added d.scheduledReminders d) := by
  have hmem : (id.1, start, id.2) ∈ d.scheduledReminders := mem_scheduledReminders.mpr hawaits
  obtain ⟨row', b, slot, hrow', hscheduled, -⟩ := hawaits
  obtain rfl := Option.some.inj (hrow'.symm.trans hrow)
  exact handled_reconcileAll (nodup_scheduledReminders d) hmem hrow hscheduled

theorem reconciled_reconcileAll (now : Instant) (added : ReminderId → Instant) (d : Database) :
    Reconciled now added d (reconcileAll now added d.scheduledReminders d) := by
  -- A reminder that is not waited for is not among the rows of the loop.
  have hothers : ∀ {id}, (∀ start, ¬ d.Awaits id start) →
      ∀ r : ReconcileRow, r ∈ d.scheduledReminders → id ≠ r.reminderId := by
    rintro id hnot r hr rfl
    exact hnot r.2.1 (mem_scheduledReminders.mp hr)
  constructor
  case skipped => exact fun id start row hawaits hrow hpast =>
    ((handled_of_awaits hawaits hrow).past hpast).1
  case queued => exact fun id start row hawaits hrow hahead =>
    (handled_of_awaits hawaits hrow).ahead hahead
  case rows => exact fun id hnot => (lookup_reconcileAll_of_not_mem (hothers hnot)).1
  case jobs =>
    intro id hpast
    by_cases hawaits : ∃ start, d.Awaits id start
    · obtain ⟨start, hawaits⟩ := hawaits
      obtain ⟨row, hrow, -⟩ := hawaits.row
      exact ((handled_of_awaits hawaits hrow).past (hpast start hawaits)).2
    · rw [not_exists] at hawaits
      exact (lookup_reconcileAll_of_not_mem (hothers hawaits)).2
  case tables => exact sameBookings_reconcileAll _

/-- What is still waited for afterwards was waited for before, and has its job. -/
theorem Reconciled.awaits (h : Reconciled now added d d') {id : ReminderId} {start : Instant}
    (hawaits : d'.Awaits id start) :
    now < start - minutesMs id.2 ∧ (d'.jobs.lookup id).isSome = true := by
  obtain ⟨row, b, slot, hrow, hscheduled, hb, hbooked, hslot, hstart⟩ := hawaits
  rw [h.tables.bookings] at hb
  rw [h.tables.slots] at hslot
  have hbefore : d.Awaits id start := by
    by_contra hnot
    -- Its row would have been left alone, and it would have been waited for.
    have hsame : d'.reminderJobs.lookup id = d.reminderJobs.lookup id := by
      refine h.rows id fun start' hawaits => ?_
      obtain rfl := hawaits.start_eq hb hslot
      exact hnot (hstart ▸ hawaits)
    exact hnot ⟨row, b, slot, hsame ▸ hrow, hscheduled, hb, hbooked, hslot, hstart⟩
  obtain ⟨row₀, hrow₀, -⟩ := hbefore.row
  rcases Int.lt_or_le now (start - minutesMs id.2) with hahead | hpast
  · refine ⟨hahead, ?_⟩
    rw [(h.queued id start row₀ hbefore hrow₀ hahead).2]
    rfl
  · rw [h.skipped id start row₀ hbefore hrow₀ hpast, Option.some.injEq] at hrow
    rw [← hrow] at hscheduled
    cases hscheduled

/-- After a reconciliation there is nothing to reconcile. -/
theorem Reconciled.reconcileAll_self (h : Reconciled now added d d')
    {addedAgain : ReminderId → Instant} :
    reconcileAll now addedAgain d'.scheduledReminders d' = d' := by
  refine Chronos.reconcileAll_self fun r hr date => ?_
  obtain ⟨hahead, hjob⟩ := h.awaits (mem_scheduledReminders.mp hr)
  exact reconcileRow_self (fun hpast => absurd hahead (Int.not_lt.mpr hpast)) fun _ => hjob

/-- It is `now`, and the jobs are dated by the times they are `added`. -/
def queueEnv (now : Instant) (added : ReminderId → Instant) : Env Nat JsError Ask.Answer :=
  ⟨0, none, fun a => match a with
    | .now => now
    | .effect _ => .ok ()
    | .queueAdd b offset .. => .ok (added (b, offset))
    | .selectClient _ => .ok none
    | .sendEmail .. => .sent none⟩

/-- A call that runs alone at `now` ends as its loop does. -/
theorem alone_reconcileScheduledReminders (cat : Catalog) {r : Except JsError Unit} :
    Alone (chronos cat) (Works now added) d reconcileScheduledReminders d' r ↔
      d' = reconcileAll now added d.scheduledReminders d ∧ r = .ok () := by
  have hends : ∀ {d' r}, Alone (chronos cat) (Works now added) d reconcileScheduledReminders d' r →
      d' = reconcileAll now added d.scheduledReminders d ∧ r = .ok () := by
    intro d' r h
    obtain ⟨tr, hrun⟩ := alone_iff_performsIn.mp h
    have hyields : reconcileScheduledReminders.Yields (chronos cat) (Works now added)
        (fun _ st r => st.db = reconcileAll now added d.scheduledReminders d ∧ r = .ok ()) []
        (.free d) :=
      yields_reconcileScheduledReminders fun _ => ⟨rfl, rfl⟩
    obtain ⟨st, rfl, hend⟩ := hyields.performs hrun
    exact hend
  refine ⟨hends, ?_⟩
  rintro ⟨rfl, rfl⟩
  have hworks : Works now added (queueEnv now added) :=
    ⟨⟨rfl, fun _ => rfl, fun _ _ _ _ => ⟨_, rfl⟩⟩, rfl, fun _ _ _ _ => rfl⟩
  obtain ⟨tr, d', r, hrun⟩ := performsIn_total (E := chronos cat) ⟨_, hworks⟩
    reconcileScheduledReminders .idle d
  have halone := alone_iff_performsIn.mpr ⟨tr, hrun⟩
  obtain ⟨rfl, rfl⟩ := hends halone
  exact halone

/-- **Reconciliation converges.**  A call that runs alone returns and does what it should, whatever
    times its jobs are dated by, and a second call at the same time changes neither the tables nor
    the queue. -/
theorem reconcile_converges (cat : Catalog) (now : Instant) (added : ReminderId → Instant)
    (d : Database) :
    ∃ d', Reconciled now added d d' ∧
      (∀ d₁ r, Alone (chronos cat) (Works now added) d reconcileScheduledReminders d₁ r ↔
        d₁ = d' ∧ r = .ok ()) ∧
      ∀ addedAgain d₂ r,
        Alone (chronos cat) (Works now addedAgain) d' reconcileScheduledReminders d₂ r ↔
          d₂ = d' ∧ r = .ok () := by
  have hreconciled := reconciled_reconcileAll now added d
  refine ⟨_, hreconciled, fun d₁ r => alone_reconcileScheduledReminders cat,
    fun addedAgain d₂ r => ?_⟩
  rw [alone_reconcileScheduledReminders, hreconciled.reconcileAll_self]

end Call

end Chronos
