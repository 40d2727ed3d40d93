import Chronos.QueueRows

namespace Chronos

open ReadCommitted ReadCommitted.Prog

/-!
# The queue and the database agree

`createBooking` and `rescheduleBooking` write reminder rows in their transaction and add the jobs
after its `COMMIT`; `declineBooking` removes the jobs of the rows it then cancels.
`rescheduleBooking` cancels the rows of the old booking in its transaction, so `cancelForBooking`
finds no pending row after the `COMMIT` and removes no job (`keeps_cancelForBooking_idle`).

`queue_in_sync`: requests served one after the other keep the two sides in step, if nothing fails
after a commit and no booking is moved while one of its jobs waits.  `declineBooking` makes the
ids of the jobs it removes of the text its path has for the booking, so a booking with a job that
waits may not be declined under another spelling of its id either.
-/

/-! ### A request that is served alone -/

/-- The tables as a request knows them, and whether it has committed. -/
structure Told where
  db : Database
  committed : Prop

/-- The reminder queue adds and removes what it is asked to.  It dates a job by the time it is added,
    which is up to `late` after the time the job's delay was computed from. -/
structure QueueWorks (late : ReminderId → Int) (env : Env Nat JsError Ask.Answer) : Prop where
  add : ∀ b offset now delayMs, ∃ timestamp,
    env.answer (.queueAdd b offset now delayMs) = .ok timestamp ∧
      now ≤ timestamp ∧ timestamp ≤ now + late (b, offset)
  remove : ∀ b spelling offset, env.answer (.effect (.queueRemove b spelling offset)) = .ok ()

/-- What a request relies on while it is served alone, at times in `T`: the queue works, and no
    statement fails after the commit of a request that `tells` the queue. -/
def toldContract (cat : Catalog) (T : Instant → Prop) (late : ReminderId → Int) (tells : Prop) :
    Contract Ask.Answer Stmt Database Write Nat JsError Told where
  adm _ _ := True
  env g _ env := T (env.answer .now) ∧ QueueWorks late env ∧ (g.committed → env.fault = none)
  know g d := d = g.db
  move g _ ws g' := g'.db = (chronos cat).apply ws g.db ∧
    (g'.committed → g.committed ∨ ws ≠ [] ∧ tells)
  send _ _ _ _ := True

/-- The sides are in step from time `t` on, and the `quiet` bookings have no scheduled reminder. -/
def Told.Settled (late : ReminderId → Int) (t : Instant) (quiet : BookingId → Prop) (g : Told) :
    Prop :=
  g.db.InSync late t ∧ ∀ b, quiet b → g.db.Unscheduled b

section Alone

variable {cat : Catalog} {T : Instant → Prop} {late : ReminderId → Int} {tells : Prop} {g : Told}
variable {t : Instant} {α : Type}
variable {Q : Stage Database Write → Told → Except JsError α → Prop} {quiet : BookingId → Prop}
variable {id b : BookingId} {spelling : Spelling} {start : Instant} {offsets : List Nat}

theorem stays_told (d : Database) (_ : (toldContract cat T late tells).know g d) :
    (toldContract cat T late tells).move g d [] g := ⟨rfl, .inl⟩

theorem rests_told (φ : Told → Prop) : StaysAt (toldContract cat T late tells) φ :=
  fun g _ hg _ => ⟨g, ⟨rfl, .inl⟩, hg⟩

/-- A statement after the commit does what the tables make it do. -/
theorem keeps_told {s : Stmt} (r : s.Rows) (ws : List Write) (hg : g.committed)
    (hx : ∀ fresh, (exec cat s fresh g.db).result = .ok (r, ws))
    {ok : s.Rows → Program α} {err : JsError → Program α}
    (hok : (ok r).Keeps (chronos cat) (toldContract cat T late tells) Q .free
      ⟨(chronos cat).apply ws g.db, g.committed⟩) :
    (Prog.stmt s ok err).Keeps (chronos cat) (toldContract cat T late tells) Q .free g := by
  rintro d env ⟨-, -, hcalm⟩ rfl
  have hfault : env.fault = none := hcalm hg
  refine ⟨fun e hf => ?_, fun _ => ⟨fun r' ws' hx' => ?_, fun e hx' => ?_⟩⟩
  · rw [hfault] at hf
    cases hf
  · obtain ⟨rfl, rfl⟩ := Prod.mk.inj (Except.ok.inj ((hx env.fresh).symm.trans hx'))
    exact ⟨⟨(chronos cat).apply ws g.db, g.committed⟩, ⟨rfl, .inl⟩, hok⟩
  · have hbad := (hx env.fresh).symm.trans hx'
    cases hbad

/-- What the queue is asked for is done. -/
theorem keeps_told_queue {a : Ask} {P : a.Answer → Prop}
    (hP : ∀ env, QueueWorks late env → P (env.answer a)) {k : a.Answer → Program α}
    (hk : ∀ x, P x → (k x).Keeps (chronos cat) (toldContract cat T late tells) Q .free
      ⟨(chronos cat).apply (noted a x) g.db, g.committed⟩) :
    (Prog.ask a k).Keeps (chronos cat) (toldContract cat T late tells) Q .free g := by
  rintro d env ⟨-, hqueue, -⟩ rfl
  exact ⟨⟨(chronos cat).apply (noted a (env.answer a)) g.db, g.committed⟩, ⟨rfl, .inl⟩,
    hk _ (hP env hqueue)⟩

/-- **The jobs of a new booking are added**: afterwards the two sides are in step. -/
theorem keeps_enqueueForBooking_told {now : Instant} (hg : g.committed)
    (h : g.db.Enlists late t id start offsets) (hnodup : offsets.Nodup)
    (hquiet : ∀ b, quiet b → g.db.Unscheduled b) :
    (enqueueForBooking id start now offsets).Keeps (chronos cat) (toldContract cat T late tells)
      (Quietly (toldContract cat T late tells) (Told.Settled late t quiet)) .free g := by
  induction offsets generalizing g with
  | nil => exact keeps_ret.mpr ⟨rfl, ⟨h.inSync, hquiet⟩, fun _ => ⟨(), rfl⟩⟩
  | cons offset offsets ih =>
    obtain ⟨hnot, hnodup'⟩ := List.nodup_cons.mp hnodup
    obtain ⟨row, hrow, hstatus, -⟩ := h.row offset List.mem_cons_self
    have hfilter : (g.db.reminderJobs.lookup (id, offset)).filter ReminderJob.scheduled =
        some row := by
      rw [hrow]
      simp [Option.filter, ReminderJob.scheduled, hstatus]
    simp only [enqueueForBooking]
    split
    -- The reminder is past.
    · refine keeps_told () [.reminder id offset { row with status := .skipped }] hg
        (fun _ => by simp only [exec, hfilter]) (ih hg (h.skip hnot row) hnodup' fun b hb => ?_)
      intro o row' hrow' hscheduled
      change ((Write.reminder id offset { row with status := .skipped }).apply
        g.db).reminderJobs.lookup (b, o) = some row' at hrow'
      rw [lookup_reminder_write] at hrow'
      split at hrow'
      · rw [← Option.some.inj hrow'] at hscheduled
        cases hscheduled
      · exact hquiet b hb o row' hrow' hscheduled
    · refine keeps_told true [] hg
        (fun _ => by simp only [exec, read, hfilter, Option.isSome_some]) ?_
      refine keeps_told_queue (P := fun x : Except JsError Instant => ∃ timestamp,
        x = .ok timestamp ∧ now ≤ timestamp ∧ timestamp ≤ now + late (id, offset))
        (fun env hqueue => hqueue.add id offset now _) ?_
      rintro _ ⟨timestamp, rfl, hafter, hsoon⟩
      exact ih hg (h.add hnot hafter hsoon) hnodup' hquiet

/-- The jobs that may wait are removed, if the id is spelled as in their ids. -/
theorem keeps_removeJobs_told (hg : g.committed) {left : List Nat}
    (hleft : left = if spelling = .printed then offsets else []) (h : g.db.Prunes late t b left) :
    ((removeJobs (some b) spelling offsets).bind fun _ =>
      dbQuery (.cancelPendingReminders (some b))).Keeps (chronos cat) (toldContract cat T late tells)
      (Quietly (toldContract cat T late tells) (Told.Settled late t fun _ => False)) .free g := by
  induction offsets generalizing g left with
  | nil =>
    obtain rfl : left = [] := by rw [hleft, ite_self]
    exact keeps_told () [.cancelPendingReminders b] hg (fun _ => rfl)
      (keeps_ret.mpr ⟨rfl, ⟨h.cancel, fun b hb => hb.elim⟩, fun _ => ⟨(), rfl⟩⟩)
  | cons offset offsets ih =>
    refine keeps_told_queue (P := fun x : Except JsError Unit => x = .ok ())
      (fun env hqueue => hqueue.remove (some b) spelling offset) ?_
    rintro _ rfl
    cases spelling with
    | printed =>
      rw [if_pos rfl] at hleft
      subst hleft
      exact ih hg (if_pos rfl).symm h.remove
    | other text =>
      rw [if_neg (by simp)] at hleft
      subst hleft
      exact ih hg (by rw [if_neg (by simp)]) h

/-- **The jobs of a booking are removed**, then its pending reminders are cancelled. -/
theorem keeps_cancelForBooking_told (hg : g.committed) (h : g.db.InSync late t)
    (hspelled : spelling ≠ .printed → ∀ offset, (b, offset) ∉ g.db.waiting t) :
    (cancelForBooking (some b) spelling).Keeps (chronos cat) (toldContract cat T late tells)
      (Quietly (toldContract cat T late tells) (Told.Settled late t fun _ => False)) .free g := by
  refine keeps_told (g.db.reminderOffsets b ReminderJob.pending) [] hg (fun _ => rfl)
    (keeps_removeJobs_told hg rfl ?_)
  have hprunes := h.prunes b
  split
  · exact hprunes
  · next hother =>
    refine ⟨hprunes.ofBookings, hprunes.tracks, fun offset job hjob hfires => ?_⟩
    exact absurd ⟨job, hjob, hfires⟩ (hspelled hother offset)

/-- **Where no reminder of the booking is pending, no job is removed.** -/
theorem keeps_cancelForBooking_idle {φ : Told → Prop} (hg : g.committed) (hφ : φ g)
    (hidle : ∀ offset row, g.db.reminderJobs.lookup (b, offset) = some row → row.pending = false) :
    (cancelForBooking (some b) spelling).Keeps (chronos cat) (toldContract cat T late tells)
      (Quietly (toldContract cat T late tells) φ) .free g := by
  have hnone : g.db.reminderOffsets b ReminderJob.pending = [] := by
    refine List.eq_nil_iff_forall_not_mem.mpr fun offset hmem => ?_
    obtain ⟨row, hrow, hpending⟩ := mem_reminderOffsets.mp hmem
    rw [hidle offset row hrow] at hpending
    cases hpending
  have hsame : (Write.cancelPendingReminders b).apply g.db = g.db := by
    have hrows : updateWhere (fun k r => decide (k.1 = b) && r.pending) ReminderJob.cancel
        g.db.reminderJobs = g.db.reminderJobs := by
      refine updateWhere_eq_self fun e he => ?_
      by_cases hb : e.1.1 = b
      · subst hb
        simp [hidle e.1.2 e.2 (AList.mem_lookup_iff.mpr he)]
      · simp [hb]
    simp only [Write.apply, hrows]
  refine keeps_told [] [] hg (fun _ => by simp only [exec, read, hnone]) ?_
  refine keeps_told () [.cancelPendingReminders b] hg (fun _ => rfl) ?_
  have hback : (⟨(chronos cat).apply [.cancelPendingReminders b] g.db, g.committed⟩ : Told) = g := by
    show (⟨(Write.cancelPendingReminders b).apply g.db, g.committed⟩ : Told) = g
    rw [hsame]
  rw [hback]
  exact keeps_ret.mpr ⟨rfl, hφ, fun _ => ⟨(), rfl⟩⟩

/-- Asked about no booking, the queue removes no job and no row changes. -/
theorem keeps_cancelForBooking_none {φ : Told → Prop} (hφ : φ g) :
    (cancelForBooking none spelling).Keeps (chronos cat) (toldContract cat T late tells)
      (Quietly (toldContract cat T late tells) φ) .free g := by
  have hfail : ∀ (d : Database) env (e : JsError), (toldContract cat T late tells).env g d env →
      env.fault = some e → Quietly (α := Unit) (toldContract cat T late tells) φ .free g (.error e) :=
    fun d env e he hf => quietly_error hφ he hφ (Or.inl hf)
  refine keeps_read (f := fun _ => []) (fun _ _ => rfl) stays_told (fun d env he hk => ?_)
    fun d env e he hf => keeps_throw.mpr (hfail d env e he hf)
  exact keeps_read (f := fun _ => ()) (fun _ _ => rfl) stays_told
    (fun d env he hk => keeps_ret.mpr ⟨rfl, hφ, fun _ => ⟨(), rfl⟩⟩)
    fun d env e he hf => keeps_throw.mpr (hfail d env e he hf)

end Alone

/-! ### The requests -/

/-- The request has a reminder queue. -/
def Request.HasQueue : Request → Prop
  | .createBooking _ _ queue => queue = true
  | .cancelBooking _ _ _ queue => queue = true
  | .confirmBooking .. => True
  | .declineBooking _ _ queue _ => queue = true
  | .rescheduleBooking _ _ queue => queue = true

/-- The request goes on to tell the queue after its commit. -/
def Request.Tells : Request → Prop
  | .createBooking .. => True
  | .declineBooking .. => True
  | .rescheduleBooking .. => True
  | _ => False

/-- The booking a request moves away from. -/
def Request.Leaves : Request → BookingId → Prop
  | .rescheduleBooking req .., b => b = req.bookingId
  | _, _ => False

/-- If a move is carried out on `d`, at a time in `T`, or a booking is declined under another
    spelling of its id, no job of the booking waits at `t`. -/
def Request.Vacates (cat : Catalog) (T : Instant → Prop) (d : Database) (t : Instant) :
    Request → Prop
  | .rescheduleBooking req nowUtc _ => ∀ now old slot,
      (∀ u, nowUtc = some u → now = u) → (nowUtc = none → T now) →
      req.windowExpired (d.slots.lookup old.slotId) now = false →
      MoveGuard cat .ok req now d old slot → ∀ offset, (req.bookingId, offset) ∉ d.waiting t
  | .declineBooking id session _ spelling => spelling ≠ .printed → ∀ row,
      d.bookings.lookup id = some row → session = some row.clientId → row.status = .booked →
      ∀ offset, (id, offset) ∉ d.waiting t
  | _ => True

section Requests

variable {cat : Catalog} {T : Instant → Prop} {late : ReminderId → Int} {tells : Prop}
variable {d : Database} {g : Told} {t : Instant} {quiet : BookingId → Prop}

/-- The jobs of an announced booking are added. -/
theorem keeps_enqueueReminders_told {s : SlotId} {slot : Slot} {id : BookingId}
    {now : Program Instant} (hg : g.committed) (hslot : g.db.slots.lookup s = some slot)
    (h : g.db.Announces late t id slot.slotStartUtc) (hquiet : ∀ b, quiet b → g.db.Unscheduled b)
    (hnow : now.Keeps (chronos cat) (toldContract cat T late tells) (Safely (· = g)) .free g) :
    (enqueueReminders s id now).Keeps (chronos cat) (toldContract cat T late tells)
      (Quietly (toldContract cat T late tells) (Told.Settled late t quiet)) .free g := by
  refine keeps_told (some slot) [] hg
    (fun _ => by simp only [exec, read, hslot]) ?_
  refine keeps_told (g.db.reminderOffsets id ReminderJob.scheduled) [] hg
    (fun _ => rfl) ?_
  simp only [andThen]
  split
  · refine hnow.bind ?_ ?_
    · rintro st g' now ⟨rfl, rfl, -⟩
      exact keeps_enqueueForBooking_told hg h.enlists (nodup_reminderOffsets _) hquiet
    · rintro st g' e ⟨-, -, u, hu⟩
      cases hu
  · next hnone =>
    have hnil : g.db.reminderOffsets id ReminderJob.scheduled = [] := not_not.mp hnone
    have hlist := h.enlists
    rw [hnil] at hlist
    exact keeps_ret.mpr ⟨rfl, ⟨hlist.inSync, hquiet⟩, fun _ => ⟨(), rfl⟩⟩

/-- A commit that leaves both sides alone keeps them in step. -/
theorem inSync_apply {ws : List Write} (h : d.InSync late t)
    (hrows : ((chronos cat).apply ws d).reminderJobs = d.reminderJobs)
    (hqueue : ∀ w ∈ ws, ¬ w.OnQueue)
    (hbookings : ∀ b, ((chronos cat).apply ws d).bookings.lookup b = none →
      d.bookings.lookup b = none) : ((chronos cat).apply ws d).InSync late t :=
  h.congr hrows (jobs_apply hqueue) hbookings

theorem OwnerUpdate.not_onQueue {id : BookingId} {session : Option ClientId}
    {check : Booking → Option Reply} {text : String} {row : Booking} {status : BookingStatus}
    {ws : List Write} (h : OwnerUpdate id session check text d row status ws) :
    ∀ w ∈ ws, ¬ w.OnQueue := by
  intro w hw
  rw [h.writes] at hw
  rw [List.mem_singleton.mp hw]
  exact not_false

/-- A change of a booking by its owner leaves both sides alone. -/
theorem OwnerUpdate.inSync {id : BookingId} {session : Option ClientId}
    {check : Booking → Option Reply} {text : String} {row : Booking} {status : BookingStatus}
    {ws : List Write} (h : OwnerUpdate id session check text d row status ws)
    (hsync : d.InSync late t) :
    ((chronos cat).apply ws d).InSync late t := by
  have hws : ws = [.booking id { row with status := status, version := row.version + 1 }] :=
    h.writes
  refine inSync_apply hsync (by rw [hws]; rfl) h.not_onQueue fun b hb => ?_
  rw [h.writes, lookup_booking_statusWrites] at hb
  split at hb
  · cases hb
  · exact hb

/-- `cancelBooking` leaves both sides alone. -/
theorem inSync_cancelWrites {id : BookingId} {slotId : SlotId} (hsync : d.InSync late t) :
    ((chronos cat).apply (cancelWrites d id slotId) d).InSync late t := by
  refine inSync_apply hsync ?_ (fun w hw => ?_) fun b hb => ?_
  · unfold cancelWrites openSlotWrites
    split <;> split <;> rfl
  · unfold cancelWrites at hw
    rcases List.mem_append.mp hw with hw | hw
    · split at hw
      · cases hw
      · rw [List.mem_singleton.mp hw]
        exact not_false
    · exact not_onQueue_openSlotWrites w hw
  · rw [lookup_booking_cancelWrites] at hb
    split at hb
    · next hid =>
      rw [hid]
      exact Option.map_eq_none_iff.mp hb
    · exact hb

/-- What follows the commit of a move. -/
theorem keeps_afterMove_told {req : RescheduleRequest} {now : Instant} {old : Booking} {slot : Slot}
    {reminders ws : List Write} {id : BookingId}
    (hmove : GuardedMove cat .ok req now d old slot reminders id ws) (hg : g.committed)
    (hdb : g.db = (chronos cat).apply ws d) (hsync : d.InSync late t)
    (hvacated : ∀ offset, (req.bookingId, offset) ∉ d.waiting t) :
    (afterMove req id true).Keeps (chronos cat) (toldContract cat T late tells)
      (Safely (Told.Settled late t (· = req.bookingId))) .free g := by
  have hpending : ∀ offset row, g.db.reminderJobs.lookup (req.bookingId, offset) = some row →
      row.pending = false := by
    rw [hdb]
    exact hmove.old_not_pending
  have hunscheduled : g.db.Unscheduled req.bookingId := by
    intro offset row hrow hstatus
    have hnot := hpending offset row hrow
    rw [scheduled_pending hstatus] at hnot
    cases hnot
  obtain ⟨slot', hslot, hstart⟩ : ∃ slot', g.db.slots.lookup req.newSlotId = some slot' ∧
      slot'.slotStartUtc = slot.slotStartUtc := by
    rw [hdb, hmove.slots, lookup_slot_vacated]
    split
    · next hown => exact ⟨{ slot with status := .«open» }, by rw [if_pos hown.symm], rfl⟩
    · exact ⟨_, if_pos rfl, rfl⟩
  have hannounces : g.db.Announces late t id slot'.slotStartUtc := by
    rw [hdb, hstart]
    exact hmove.announces hsync hvacated
  unfold afterMove
  rw [if_pos rfl, if_pos rfl]
  refine (keeps_safely (keeps_cancelForBooking_idle (φ := (· = g)) hg rfl hpending)).bind ?_ ?_
  · rintro st g' u ⟨rfl, rfl, -⟩
    -- Whether the event is recorded does not matter.
    rintro d env - rfl
    refine ⟨g', ⟨?_, .inl⟩, keeps_safely (keeps_enqueueReminders_told hg hslot hannounces ?_ ?_)⟩
    · cases env.answer (.effect (.recordReschedule id)) <;> rfl
    · rintro b rfl
      exact hunscheduled
    · rintro d env - rfl
      exact ⟨g', ⟨rfl, .inl⟩, keeps_ret.mpr ⟨rfl, rfl, _, rfl⟩⟩
  · rintro st g' e ⟨-, -, u, hu⟩
    cases hu

/-- Nothing is committed yet. -/
def Told.start (d : Database) : Told := ⟨d, False⟩

/-- The writes of a request lead from its start to a state that satisfies `φ`. -/
theorem next_told {ws : List Write} {φ : Told → Prop} {d' : Database} (committed : Prop)
    (hd : (toldContract cat T late tells).know (.start d) d') (hws : committed → ws ≠ [] ∧ tells)
    (hφ : φ ⟨(chronos cat).apply ws d', committed⟩) :
    (toldContract cat T late tells).Next (.start d) d' ws φ := by
  obtain rfl : d' = d := hd
  exact ⟨_, ⟨rfl, fun h => .inr (hws h)⟩, hφ⟩

/-- How a request ends: the tables are as they were, or the two sides are in step. -/
def Told.Ends (d : Database) (late : ReminderId → Int) (t : Instant) (quiet : BookingId → Prop)
    (g : Told) : Prop := g.db = d ∨ g.Settled late t quiet

theorem keeps_createBooking_told {req : BookingRequest} {nowUtc : Option Instant}
    (hsync : d.InSync late t) : (createBooking req nowUtc true).Keeps (chronos cat)
      (toldContract cat T late True)
      (Contract.post (toldContract cat T late True) fun g _ => g.Ends d late t fun _ => False) .free
      (.start d) := by
  have hcommit : ∀ now hours d' row reminders id ws,
      (toldContract cat T late True).know (.start d) d' →
      NewBooking cat req now (now + hoursMs hours) d' row reminders id ws →
      (toldContract cat T late True).Next (.start d) d' ws fun g => g.committed ∧
        ∃ slot, g.db.slots.lookup req.slotId = some slot ∧
          g.db.Announces late t id slot.slotStartUtc := by
    intro now hours d' row reminders id ws hd hnew
    have hslot : ((chronos cat).apply ws d').slots.lookup req.slotId =
        some { row with status := .booked } := by rw [hnew.slots, if_pos rfl]
    refine next_told True hd (fun _ => ⟨?_, trivial⟩) ⟨trivial, _, hslot, ?_⟩
    · rw [hnew.writes]
      exact List.cons_ne_nil _ _
    · obtain rfl : d' = d := hd
      exact hnew.announces hsync
  have hafter : ∀ now, Enqueued cat (toldContract cat T late True) req.slotId now true
      (fun id g => g.committed ∧ ∃ slot, g.db.slots.lookup req.slotId = some slot ∧
        g.db.Announces late t id slot.slotStartUtc)
      fun _ => Told.Settled late t fun _ => False := by
    refine fun now => ⟨?_, (fun _ _ _ hqueue => nomatch hqueue), fun id => rests_told _⟩
    rintro id g ⟨hg, slot, hslot, hannounces⟩ -
    exact keeps_enqueueReminders_told hg hslot hannounces (fun b hb => hb.elim)
      (keeps_ret.mpr ⟨rfl, rfl, now, rfl⟩)
  refine (keeps_createBooking_enqueued stays_told (fun _ _ _ _ => trivial)
    (fun now hours d' row reminders id ws _ _ => hcommit now hours d' row reminders id ws)
    hafter).mono ?_
  refine fun st g r => Contract.post_mono fun g hg => ?_
  rcases hg with ⟨rfl, -⟩ | ⟨id, hend, -⟩
  · exact .inl rfl
  · exact .inr hend

theorem keeps_cancelBooking_told {id : BookingId} {ifMatch : Option String}
    {session : Option ClientId} {queue : Bool} (hsync : d.InSync late t) :
    (cancelBooking id ifMatch session queue).Keeps (chronos cat) (toldContract cat T late tells)
      (Contract.post (toldContract cat T late tells) fun g _ => g.Ends d late t fun _ => False) .free
      (.start d) := by
  have harm : ∀ d' (_ : Booking), (toldContract cat T late tells).know (.start d) d' →
      (toldContract cat T late tells).Next (.start d) d' [] (· = .start d) :=
    fun d' _ hd => ⟨_, stays_told d' hd, rfl⟩
  have hcommit : ∀ (b : Booking) g d', g = .start d → (toldContract cat T late tells).know g d' →
      (toldContract cat T late tells).Next g d' (cancelWrites d' id b.slotId)
        (Told.Settled late t fun _ => False) := by
    rintro b g d' rfl hd
    refine next_told False hd (fun h => h.elim) ⟨?_, fun b hb => hb.elim⟩
    obtain rfl : d' = d := hd
    exact inSync_cancelWrites hsync
  have hafter : ∀ g : Told, g.Settled late t (fun _ => False) →
      (cancelReminderJobs none (.other "undefined") queue).Keeps (chronos cat)
        (toldContract cat T late tells) (Safely (Told.Settled late t fun _ => False)) .free g := by
    intro g hg
    refine keeps_safely ?_
    cases queue with
    | false => exact keeps_ret.mpr ⟨rfl, hg, fun _ => ⟨(), rfl⟩⟩
    | true => exact keeps_cancelForBooking_none hg
  refine (keeps_cancelBooking_after stays_told (fun d' b hd _ => harm d' b hd)
    (fun b g d' _ hd => stays_told d' hd) (fun _ _ _ _ _ => trivial)
    (fun _ _ _ _ _ _ _ => trivial) (fun b g d' hg hd _ _ => hcommit b g d' hg hd) hafter).mono ?_
  refine fun st g r => Contract.post_mono fun g hg => ?_
  rcases hg with ⟨rfl | ⟨b, rfl⟩, -⟩ | hend
  · exact .inl rfl
  · exact .inl rfl
  · exact .inr hend

theorem keeps_confirmBooking_told {id : BookingId} {session : Option ClientId}
    (hsync : d.InSync late t) : (confirmBooking id session).Keeps (chronos cat)
      (toldContract cat T late tells)
      (Contract.post (toldContract cat T late tells) fun g _ => g.Ends d late t fun _ => False) .free
      (.start d) := by
  have hcommit : ∀ d' row status ws, (toldContract cat T late tells).know (.start d) d' →
      OwnerUpdate id session checkBooked "completed" d' row status ws →
      (toldContract cat T late tells).Next (.start d) d' ws (Told.Settled late t fun _ => False) := by
    intro d' row status ws hd hupdate
    refine next_told False hd (fun h => h.elim) ⟨?_, fun b hb => hb.elim⟩
    obtain rfl : d' = d := hd
    exact hupdate.inSync hsync
  refine (keeps_confirmBooking stays_told (fun _ _ _ _ => trivial) hcommit
    fun g d' hg hd => rests_told _ g d' hg hd).mono ?_
  refine fun st g r => Contract.post_mono fun g hg => ?_
  rcases hg with ⟨rfl, -⟩ | hend
  · exact .inl rfl
  · exact .inr hend

theorem keeps_declineBooking_told {id : BookingId} {session : Option ClientId} {spelling : Spelling}
    (hsync : d.InSync late t)
    (hvacates : (Request.declineBooking id session true spelling).Vacates cat T d t) :
    (declineBooking id session true spelling).Keeps (chronos cat) (toldContract cat T late True)
      (Contract.post (toldContract cat T late True) fun g _ => g.Ends d late t fun _ => False) .free
      (.start d) := by
  have hcommit : ∀ d' row status ws, (toldContract cat T late True).know (.start d) d' →
      OwnerUpdate id session checkBooked "cancelled" d' row status ws →
      (toldContract cat T late True).Next (.start d) d' ws fun g => g.committed ∧
        g.db.InSync late t ∧ (spelling ≠ .printed → ∀ offset, (id, offset) ∉ g.db.waiting t) := by
    intro d' row status ws hd hupdate
    obtain rfl : d' = d := hd
    refine next_told True rfl (fun _ => ⟨?_, trivial⟩)
      ⟨trivial, hupdate.inSync hsync, fun hother offset => ?_⟩
    · rw [hupdate.writes]
      exact List.cons_ne_nil _ _
    -- The commit has changed no job.
    · have hjobs : ((chronos cat).apply ws d').jobs = d'.jobs := jobs_apply hupdate.not_onQueue
      have hnone := hvacates hother row hupdate.booking hupdate.owner
        (checkBooked_none hupdate.checked) offset
      rintro ⟨job, hjob, hfires⟩
      exact hnone ⟨job, hjobs ▸ hjob, hfires⟩
  have hafter : ∀ g : Told, (g.committed ∧ g.db.InSync late t ∧
        (spelling ≠ .printed → ∀ offset, (id, offset) ∉ g.db.waiting t)) →
      (cancelReminderJobs (some id) spelling true).Keeps (chronos cat) (toldContract cat T late True)
        (Safely (Told.Settled late t fun _ => False)) .free g :=
    fun g hg => keeps_safely (keeps_cancelForBooking_told hg.1 hg.2.1 hg.2.2)
  refine (keeps_updateAsOwner checkBooked_some stays_told (fun _ _ _ _ => trivial) hcommit
    (rests_told _) hafter).mono ?_
  refine fun st g r => Contract.post_mono fun g hg => ?_
  rcases hg with ⟨rfl, -⟩ | hend
  · exact .inl rfl
  · exact .inr hend

theorem keeps_rescheduleBooking_told {req : RescheduleRequest} {nowUtc : Option Instant}
    (hsync : d.InSync late t)
    (hvacates : (Request.rescheduleBooking req nowUtc true).Vacates cat T d t) :
    (rescheduleBooking .ok req nowUtc true).Keeps (chronos cat) (toldContract cat T late True)
      (Contract.post (toldContract cat T late True) fun g _ => g.Ends d late t (· = req.bookingId)) .free
      (.start d) := by
  -- A move that is committed has found the old booking without a job that waits.
  have hcommit : ∀ now d' old slot reminders id ws,
      EffectiveNow (toldContract cat T late True) (.start d) nowUtc now →
      req.WindowSeen now ((toldContract cat T late True).know (.start d)) →
      (toldContract cat T late True).know (.start d) d' →
      GuardedMove cat .ok req now d' old slot reminders id ws →
      (toldContract cat T late True).Next (.start d) d' ws fun g => g.committed ∧
        ∃ now old slot reminders ws, GuardedMove cat .ok req now d old slot reminders id ws ∧
          g.db = (chronos cat).apply ws d ∧ ∀ offset, (req.bookingId, offset) ∉ d.waiting t := by
    intro now d' old slot reminders id ws hnow hseen hd hmove
    have hclock : nowUtc = none → T now := by
      intro hnone
      obtain ⟨_, env, henv, rfl⟩ := hnow.2 hnone
      exact henv.1
    obtain ⟨d₁, d₂, b, hd₁, hd₂, hb, hwindow⟩ := hseen
    obtain rfl : d₁ = d := hd₁
    obtain rfl : d₂ = d₁ := hd₂
    obtain rfl : d' = d₂ := hd
    obtain rfl : b = old := Option.some.inj (hb.symm.trans hmove.booking)
    have hvacated := hvacates now b slot hnow.1 hclock hwindow hmove.toMoveGuard
    refine next_told True rfl (fun _ => ⟨?_, trivial⟩)
      ⟨trivial, now, b, slot, reminders, ws, hmove, rfl, hvacated⟩
    rw [hmove.writes]
    simp
  have hafter : MovedOn cat (toldContract cat T late True) req true
      (fun id g => g.committed ∧ ∃ now old slot reminders ws,
        GuardedMove cat .ok req now d old slot reminders id ws ∧
          g.db = (chronos cat).apply ws d ∧ ∀ offset, (req.bookingId, offset) ∉ d.waiting t)
      fun _ => Told.Settled late t (· = req.bookingId) := by
    refine ⟨?_, fun id => rests_told _⟩
    rintro id g ⟨hg, now, old, slot, reminders, ws, hmove, hdb, hvacated⟩
    exact keeps_afterMove_told hmove hg hdb hsync hvacated
  refine (keeps_rescheduleBooking_movedOn stays_told (fun _ _ _ _ => trivial) hcommit
    hafter).mono ?_
  refine fun st g r => Contract.post_mono fun g hg => ?_
  rcases hg with ⟨rfl, -⟩ | ⟨id, hend, -⟩
  · exact .inl rfl
  · exact .inr hend

/-- **A request keeps the two sides in step**, or leaves the tables as they are. -/
theorem keeps_request_told (req : Request) (hsync : d.InSync late t) (hqueue : req.HasQueue)
    (hvacates : req.Vacates cat T d t) :
    (req.program .ok).Keeps (chronos cat) (toldContract cat T late req.Tells)
      (Contract.post (toldContract cat T late req.Tells) fun g _ => g.Ends d late t req.Leaves) .free
      (.start d) := by
  cases req with
  | createBooking req nowUtc queue =>
    obtain rfl : queue = true := hqueue
    exact keeps_createBooking_told hsync
  | cancelBooking id ifMatch session queue => exact keeps_cancelBooking_told hsync
  | confirmBooking id session => exact keeps_confirmBooking_told hsync
  | declineBooking id session queue spelling =>
    obtain rfl : queue = true := hqueue
    exact keeps_declineBooking_told hsync hvacates
  | rescheduleBooking req nowUtc queue =>
    obtain rfl : queue = true := hqueue
    exact keeps_rescheduleBooking_told hsync hvacates

end Requests

/-! ### One request after the other -/

section Runs

variable {C : Type} [DecidableEq C] {cat : Catalog} {T : Instant → Prop} {late : ReminderId → Int}
variable {req : Request} {d d' : Database} {t : Instant}

/-- The clock shows a time in `T`, the queue works, and after the commit of a request that tells
    the queue no statement fails. -/
structure Steady (T : Instant → Prop) (late : ReminderId → Int) (req : Request) (w : Service C Unit)
    (l : Label Ask.Answer Nat JsError C Unit) : Prop where
  clock : T (l.env.answer .now)
  queue : QueueWorks late l.env
  calm : req.Tells → w.journal ≠ [] → l.env.fault = none

variable (C) in
/-- The request is served alone, from beginning to end, its transactions each on one
    connection. -/
def Request.Served (cat : Catalog) (T : Instant → Prop) (late : ReminderId → Int) (d : Database)
    (req : Request) (d' : Database) : Prop :=
  ∃ w : Service C Unit, Reaches (chronos cat) (fun w l => Steady T late req w l ∧ Exclusive w l)
    (World.init d fun _ => req.program .ok) w ∧ (w.prog ()).Done ∧ w.db = d'

/-- The request knows the tables, and whether it has committed. -/
def Knows (tells : Prop) (d : Database) (j : List (Unit × Write)) (G : Unit → Told) : Prop :=
  (G ()).db = d ∧ ((G ()).committed → j ≠ [] ∧ tells)

theorem preserved_knows (tells : Prop) :
    Preserved (chronos cat) (fun _ : Unit => toldContract cat T late tells) (Knows tells) where
  know _ _ _ _ h := h.1.symm
  move d j G i ws g' h hmove := by
    obtain ⟨rfl, hcommitted⟩ := h
    obtain ⟨hdb, hnew⟩ := hmove
    refine ⟨hdb, fun hg => ?_⟩
    rcases hnew hg with hold | ⟨hws, htells⟩
    · obtain ⟨hj, htells⟩ := hcommitted hold
      exact ⟨by simp [hj], htells⟩
    · exact ⟨by simp [hws], htells⟩

/-- **One request.**  Served alone, it keeps the two sides in step, or leaves the tables as they
    are. -/
theorem Request.Served.ends (h : req.Served C cat T late d d') (hsync : d.InSync late t)
    (hqueue : req.HasQueue) (hvacates : req.Vacates cat T d t) :
    d' = d ∨ d'.InSync late t ∧ ∀ b, req.Leaves b → d'.Unscheduled b := by
  obtain ⟨w, hreach, hdone, rfl⟩ := h
  have hrelied : ∀ (w : Service C Unit) l, Steady T late req w l ∧ Exclusive w l →
      Relied (chronos cat) (fun _ : Unit => toldContract cat T late req.Tells) (Knows req.Tells) w
        l := by
    rintro w l ⟨hsteady, hexclusive⟩
    refine ⟨hexclusive, fun _ _ _ _ _ _ _ => trivial, fun G hG => ?_⟩
    refine ⟨hsteady.clock, hsteady.queue, fun hcommitted => ?_⟩
    obtain ⟨hj, htells⟩ := hG.2 hcommitted
    exact hsteady.calm htells hj
  have hstart : Modular (chronos cat) value (fun _ : Unit => toldContract cat T late req.Tells)
      (fun _ g _ => g.Ends d late t req.Leaves) (Knows req.Tells)
      (World.init d fun _ => req.program .ok : Service C Unit)
      (fun _ => (.free, req.program .ok)) fun _ => .start d :=
    modular_init (fun _ => ok_request (localTo_true cat) req)
      (fun _ => keeps_request_told req hsync hqueue hvacates) ⟨rfl, fun h => h.elim⟩
  obtain ⟨ts, G, hmod⟩ := Modular.reaches (lawful cat) (preserved_knows req.Tells) hrelied hstart
    hreach
  obtain ⟨r, hr⟩ := result_of_done hdone
  have hends : (G ()).Ends d late t req.Leaves := hmod.result hr
  have hdb : (G ()).db = w.db := hmod.inv.1
  rw [← hdb]
  exact hends

variable (C) in
/-- A request is served between two times, with a reminder queue, and moves no booking that has a
    job left. -/
structure Serves (cat : Catalog) (late : ReminderId → Int) (before : Database × Instant)
    (req : Request) (after : Database × Instant) : Prop where
  later : before.2 ≤ after.2
  queue : req.HasQueue
  vacates : req.Vacates cat (fun u => before.2 ≤ u ∧ u ≤ after.2) before.1 after.2
  served : req.Served C cat (fun u => before.2 ≤ u ∧ u ≤ after.2) late before.1 after.1

theorem Serves.inSync {before after : Database × Instant} (h : Serves C cat late before req after)
    (hsync : before.1.InSync late before.2) : after.1.InSync late after.2 := by
  have hlater := hsync.mono h.later
  rcases h.served.ends hlater h.queue h.vacates with heq | ⟨hend, -⟩
  · rw [heq]
    exact hlater
  · exact hend

/-- **The queue and the reminder rows agree.**  Requests are served one after the other, with a
    reminder queue that never fails.  If nothing fails after a commit and no booking is moved, or
    declined under another spelling of its id, while one of its jobs waits, then from the end of
    every request on, whenever no job may be late, the jobs that wait are the reminders scheduled
    for the future; and no job of a booking that was moved waits. -/
theorem queue_in_sync {x₀ x : Database × Instant} {tr : List (Call (Database × Instant) Request)}
    (h₀ : x₀.1.InSync late x₀.2) (h : Calls (Serves C cat late) x₀ tr x) :
    (∀ t, x.2 ≤ t → x.1.NoneLate late t → x.1.waiting t = x.1.upcoming t) ∧
      ∀ c ∈ tr, c.after.1 ≠ c.before.1 → ∀ b, c.call.Leaves b →
        ∀ offset, (b, offset) ∉ c.after.1.waiting c.after.2 := by
  have hsync : ∀ {tr} {x : Database × Instant}, Calls (Serves C cat late) x₀ tr x →
      x.1.InSync late x.2 :=
    fun hcalls => hcalls.invariant (J := fun x => x.1.InSync late x.2) h₀
      fun _ _ _ hsync hserves => hserves.inSync hsync
  refine ⟨fun t ht hlate => ((hsync h).mono ht).waiting_eq hlate, ?_⟩
  induction h with
  | start =>
    intro c hc
    cases hc
  | @call tr x req x' hcalls hserves ih =>
    intro c hc hchanged b hb offset
    rcases List.mem_append.mp hc with hc | hc
    · exact ih c hc hchanged b hb offset
    · obtain rfl := List.mem_singleton.mp hc
      have hbefore := (hsync hcalls).mono hserves.later
      rcases hserves.served.ends hbefore hserves.queue hserves.vacates with heq | ⟨hend, hunscheduled⟩
      · exact absurd heq hchanged
      · exact hend.not_waiting (hunscheduled b hb) offset

end Runs

/-! ### A booking that is made and moved -/

/-- Slots `1` and `2` are open, and nobody has booked. -/
def sampleOpenSlots : Database :=
  { sampleDb with slots := sampleDb.slots.insert 2 (sampleSlot .«open») }

/-- `sampleOpenSlots` after client `5` has booked slot `1`, with the jobs of both reminders. -/
def sampleEnlisted : Database where
  slots := sampleOpenSlots.slots.insert 1 (sampleSlot .booked)
  bookings := (∅ : AList fun _ => Booking).insert 1 (sampleBooking .booked 1)
  reminderJobs := ((∅ : AList fun _ => ReminderJob).insert (1, 1440)
    (sampleReminder 1440 .scheduled)).insert (1, 60) (sampleReminder 60 .scheduled)
  idempotencyKeys := ∅
  jobs := ((∅ : AList fun _ => QueueJob).insert (1, 60) ⟨250, hoursMs 99⟩).insert (1, 1440)
    ⟨250, hoursMs 76⟩

/-- Client `5` books slot `1`. -/
def sampleCreate : Request := .createBooking sampleRequest (some 0) true

/-- Booking `1` is moved to slot `2`. -/
def sampleSwitch : Request :=
  .rescheduleBooking ⟨1, .printed, 2, none, .number (.rat 1), .number (.rat 1), .undefined⟩ (some 0)
    true

/-- It is the epoch, nothing fails, and a job is added a quarter of a second after its `now`. -/
structure SlowQueue (env : Env Nat JsError Ask.Answer) : Prop where
  calm : Calm env
  clock : env.answer .now = (0 : Instant)
  dated : ∀ b offset now delayMs, env.answer (.queueAdd b offset now delayMs) = .ok (now + 250)

/-- The server draws id `fresh`. -/
def slowQueueEnv (fresh : Nat) : Env Nat JsError Ask.Answer where
  fresh := fresh
  fault := none
  answer
    | .queueAdd _ _ now _ => .ok (now + 250)
    | a => (calmEnv fresh 0).answer a

theorem slowQueue_slowQueueEnv (fresh : Nat) : SlowQueue (slowQueueEnv fresh) :=
  ⟨⟨rfl, fun _ => rfl, fun _ _ _ _ => ⟨_, rfl⟩⟩, rfl, fun _ _ _ _ => rfl⟩

/-- The request is served at the epoch, and nothing fails. -/
def Request.ServedCalmly (d : Database) (req : Request) (d' : Database) : Prop :=
  ∃ w : Service Unit Unit, Reaches (chronos sampleCatalog)
    (fun w l => SlowQueue l.env ∧ Exclusive w l) (World.init d fun _ => req.program .ok) w ∧
    (w.prog ()).Done ∧ w.db = d'

theorem servedCalmly_of_run {d d' : Database} {req : Request} (fresh n : Nat)
    (h : ∃ w : Service Unit Unit, World.run (chronos sampleCatalog) (fun _ _ => true)
      (World.init d fun _ => req.program .ok) (List.replicate n ⟨(), (), slowQueueEnv fresh⟩) =
        some w ∧ (w.prog ()).Done ∧ w.db = d') : req.ServedCalmly d d' := by
  obtain ⟨w, hw, hdone, hdb⟩ := h
  refine ⟨w, exclusive_of_dedicated Function.injective_id (reaches_of_run
    (P := fun _ l => SlowQueue l.env ∧ Dedicated id l) (fun w l hl _ => ?_) hw), hdone, hdb⟩
  obtain rfl := List.eq_of_mem_replicate hl
  exact ⟨slowQueue_slowQueueEnv fresh, rfl⟩

theorem sampleCreate_served : sampleCreate.ServedCalmly sampleOpenSlots sampleEnlisted :=
  servedCalmly_of_run 1 16 ⟨_, by with_unfolding_all rfl, by trivial, by rfl⟩

theorem sampleOpenSlots_inSync (late : ReminderId → Int) : sampleOpenSlots.InSync late 0 := by
  have hrows : ∀ k, sampleOpenSlots.reminderJobs.lookup k = none := fun _ => rfl
  have hjobs : ∀ k, sampleOpenSlots.jobs.lookup k = none := fun _ => rfl
  refine ⟨fun k _ => ⟨hrows k, hjobs k⟩, fun k => ⟨fun job hjob => ?_, fun row hrow => ?_⟩⟩
  · rw [hjobs k] at hjob
    cases hjob
  · rw [hrows k] at hrow
    cases hrow

theorem SlowQueue.queueWorks {env : Env Nat JsError Ask.Answer} (h : SlowQueue env) :
    QueueWorks (fun _ => 250) env :=
  ⟨fun b offset now delayMs => ⟨now + 250, h.dated b offset now delayMs, by simp, le_rfl⟩,
    fun _ _ _ => h.calm.2.1 _⟩

theorem Request.ServedCalmly.served {d d' : Database} {req : Request} {T : Instant → Prop}
    (h : req.ServedCalmly d d') (hT : T 0) :
    req.Served Unit sampleCatalog T (fun _ => 250) d d' := by
  obtain ⟨w, hreach, hdone, hdb⟩ := h
  refine ⟨w, hreach.mono fun w l hl => ⟨?_, hl.2⟩, hdone, hdb⟩
  exact ⟨hl.1.clock ▸ hT, hl.1.queueWorks, fun _ _ => hl.1.calm.1⟩

/-- A quarter of a second after a booking is made, its reminders wait. -/
theorem created_booking_in_sync : sampleEnlisted.waiting 250 = sampleEnlisted.upcoming 250 := by
  have hserves : Serves Unit sampleCatalog (fun _ => 250) (sampleOpenSlots, 0) sampleCreate
      (sampleEnlisted, 250) :=
    ⟨by decide, rfl, trivial, sampleCreate_served.served ⟨le_rfl, by decide⟩⟩
  have hcalls : Calls (Serves Unit sampleCatalog fun _ => 250) (sampleOpenSlots, 0)
      ([] ++ [⟨(sampleOpenSlots, 0), sampleCreate, (sampleEnlisted, 250)⟩]) (sampleEnlisted, 250) :=
    Calls.start.call hserves
  have hnone : sampleEnlisted.NoneLate (fun _ => 250) 250 := by
    intro k row hrow _ hdue
    have hmem : ∀ e ∈ sampleEnlisted.reminderJobs.entries, 250 < e.2.fireAtUtc := by decide
    exact absurd hdue (not_le.mpr (hmem _ (AList.mem_lookup_iff.mp hrow)))
  exact (queue_in_sync (sampleOpenSlots_inSync _) hcalls).1 250 le_rfl hnone

/-- **`rescheduleBooking` leaves the jobs of the old booking in the queue.**  Nothing fails; the old
    booking is cancelled with its reminders, and its jobs wait on. -/
theorem moved_booking_keeps_jobs : ∃ d : Database,
    sampleCreate.ServedCalmly sampleOpenSlots sampleEnlisted ∧
    sampleSwitch.ServedCalmly sampleEnlisted d ∧
    d.bookings.lookup 1 = some (sampleBooking .cancelled 1) ∧
    (1, 60) ∈ d.waiting 500 ∧ d.waiting 500 ≠ d.upcoming 500 := by
  have hrun : ∃ w : Service Unit Unit, (World.run (chronos sampleCatalog) (fun _ _ => true)
      (World.init sampleEnlisted fun _ => sampleSwitch.program .ok)
      (List.replicate 29 ⟨(), (), slowQueueEnv 2⟩) = some w ∧ (w.prog ()).Done) ∧
      w.db.bookings.lookup 1 = some (sampleBooking .cancelled 1) ∧
      w.db.jobs.lookup (1, 60) = some ⟨250, hoursMs 99⟩ ∧
      w.db.reminderJobs.lookup (1, 60) = some (sampleReminder 60 .cancelled) :=
    ⟨_, ⟨by with_unfolding_all rfl, by trivial⟩, by rfl, by rfl, by rfl⟩
  obtain ⟨w, ⟨hw, hdone⟩, hbooking, hjob, hrow⟩ := hrun
  have hwaits : (1, 60) ∈ w.db.waiting 500 := ⟨_, hjob, by decide⟩
  refine ⟨w.db, sampleCreate_served, servedCalmly_of_run 2 29 ⟨w, hw, hdone, rfl⟩, hbooking, hwaits,
    fun heq => ?_⟩
  obtain ⟨row, hrow', hstatus, -⟩ := heq ▸ hwaits
  obtain rfl := Option.some.inj (hrow.symm.trans hrow')
  cases hstatus

end Chronos
