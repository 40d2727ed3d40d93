import Chronos.Clients

namespace Chronos

open ReadCommitted ReadCommitted.Prog

/-!
# The reminder queue and the reminder rows

The jobs that wait in the queue (`Database.waiting`) and the reminders that are scheduled for the
future (`Database.upcoming`) should be the same.  A job waits from the moment it is added, for a time
that was computed before: it is due when its reminder is, or a little later.  `late` says how
much later that may be.

* `Database.InSync` — every job that waits is that of a scheduled row, and the other way round.
* `Database.Enlists` — some reminders of a booking still have to get their jobs.
* `Database.Prunes` — some jobs of a booking still have to be removed.
* `Database.Announces` — a commit has written the rows of a booking, and no job.
-/

/-! ### The two sides -/

/-- When the job is due. -/
def QueueJob.fires (job : QueueJob) : Instant := job.timestamp + job.delay

/-- The jobs that wait in the queue at time `t`. -/
def Database.waiting (d : Database) (t : Instant) : Set ReminderId :=
  {k | ∃ job, d.jobs.lookup k = some job ∧ t < job.fires}

/-- The reminders that are scheduled for a time after `t`. -/
def Database.upcoming (d : Database) (t : Instant) : Set ReminderId :=
  {k | ∃ row, d.reminderJobs.lookup k = some row ∧ row.status = .scheduled ∧ t < row.fireAtUtc}

/-- The job is due when the reminder is, or up to `late` later. -/
structure QueueJob.Fits (job : QueueJob) (late : Int) (row : ReminderJob) : Prop where
  notEarly : row.fireAtUtc ≤ job.fires
  notLater : job.fires ≤ row.fireAtUtc + late

/-- What is added soon after the time its delay was computed from is due soon after its reminder. -/
theorem QueueJob.fits_of_added {row : ReminderJob} {fire now timestamp : Instant} {late : Int}
    (hfire : row.fireAtUtc = fire) (hafter : now ≤ timestamp) (hsoon : timestamp ≤ now + late) :
    (⟨timestamp, fire - now⟩ : QueueJob).Fits late row := by
  have hfires : (⟨timestamp, fire - now⟩ : QueueJob).fires = fire + (timestamp - now) := by
    show timestamp + (fire - now) = fire + (timestamp - now)
    linarith
  constructor
  · rw [hfire, hfires]
    linarith
  · rw [hfire, hfires]
    linarith

/-- From time `t` on, a reminder has a job that waits as long as it is scheduled. -/
structure Database.Tracks (d : Database) (late : ReminderId → Int) (t : Instant) (k : ReminderId) :
    Prop where
  row : ∀ job, d.jobs.lookup k = some job → t < job.fires →
    ∃ row, d.reminderJobs.lookup k = some row ∧ row.status = .scheduled ∧ job.Fits (late k) row
  job : ∀ row, d.reminderJobs.lookup k = some row → row.status = .scheduled → t < row.fireAtUtc →
    ∃ job, d.jobs.lookup k = some job ∧ job.Fits (late k) row

/-- At time `t` no scheduled reminder is due whose job may still wait. -/
def Database.NoneLate (d : Database) (late : ReminderId → Int) (t : Instant) : Prop :=
  ∀ k row, d.reminderJobs.lookup k = some row → row.status = .scheduled → row.fireAtUtc ≤ t →
    row.fireAtUtc + late k ≤ t

/-- Reminder rows and jobs are those of bookings. -/
def Database.OfBookings (d : Database) : Prop :=
  ∀ k, d.bookings.lookup k.1 = none → d.reminderJobs.lookup k = none ∧ d.jobs.lookup k = none

/-- The queue and the reminder rows agree from time `t` on. -/
structure Database.InSync (d : Database) (late : ReminderId → Int) (t : Instant) : Prop where
  ofBookings : d.OfBookings
  tracks : ∀ k, d.Tracks late t k

/-- No reminder of booking `b` is scheduled. -/
def Database.Unscheduled (d : Database) (b : BookingId) : Prop :=
  ∀ offset row, d.reminderJobs.lookup (b, offset) = some row → row.status ≠ .scheduled

section Sides

variable {d d' : Database} {late : ReminderId → Int} {t t' : Instant} {k : ReminderId}
variable {b : BookingId}

theorem Database.Tracks.mono (h : d.Tracks late t k) (ht : t ≤ t') : d.Tracks late t' k := by
  refine ⟨fun job hjob hfires => h.row job hjob (lt_of_le_of_lt ht hfires), ?_⟩
  exact fun row hrow hstatus hfire => h.job row hrow hstatus (lt_of_le_of_lt ht hfire)

/-- The sides stay in step while time passes. -/
theorem Database.InSync.mono (h : d.InSync late t) (ht : t ≤ t') : d.InSync late t' :=
  ⟨h.ofBookings, fun k => (h.tracks k).mono ht⟩

theorem Database.Tracks.congr (h : d.Tracks late t k)
    (hrow : d'.reminderJobs.lookup k = d.reminderJobs.lookup k)
    (hjob : d'.jobs.lookup k = d.jobs.lookup k) : d'.Tracks late t k := by
  refine ⟨fun job => ?_, fun row => ?_⟩
  · rw [hrow, hjob]
    exact h.row job
  · rw [hrow, hjob]
    exact h.job row

/-- **Agreement.**  In step, the jobs that wait are the reminders that are still to come. -/
theorem Database.InSync.waiting_eq (h : d.InSync late t) (hlate : d.NoneLate late t) :
    d.waiting t = d.upcoming t := by
  ext k
  constructor
  · rintro ⟨job, hjob, hfires⟩
    obtain ⟨row, hrow, hstatus, hfits⟩ := (h.tracks k).row job hjob hfires
    refine ⟨row, hrow, hstatus, lt_of_not_ge fun hdue => ?_⟩
    have hover : job.fires ≤ t := hfits.notLater.trans (hlate k row hrow hstatus hdue)
    exact absurd hfires (not_lt.mpr hover)
  · rintro ⟨row, hrow, hstatus, hfire⟩
    obtain ⟨job, hjob, hfits⟩ := (h.tracks k).job row hrow hstatus hfire
    exact ⟨job, hjob, lt_of_lt_of_le hfire hfits.notEarly⟩

/-- In step, a booking without scheduled reminders has no job that waits. -/
theorem Database.InSync.not_waiting (h : d.InSync late t) (hb : d.Unscheduled b) (offset : Nat) :
    (b, offset) ∉ d.waiting t := by
  rintro ⟨job, hjob, hfires⟩
  obtain ⟨row, hrow, hstatus, -⟩ := (h.tracks _).row job hjob hfires
  exact hb offset row hrow hstatus

/-- Changes of neither side keep them in step, as long as no booking disappears. -/
theorem Database.InSync.congr (h : d.InSync late t) (hrows : d'.reminderJobs = d.reminderJobs)
    (hjobs : d'.jobs = d.jobs)
    (hbookings : ∀ b, d'.bookings.lookup b = none → d.bookings.lookup b = none) :
    d'.InSync late t := by
  refine ⟨fun k hk => ?_, fun k => (h.tracks k).congr (by rw [hrows]) (by rw [hjobs])⟩
  rw [hrows, hjobs]
  exact h.ofBookings k (hbookings _ hk)

end Sides

/-! ### Writes to the queue -/

/-- The write adds or removes a job. -/
def Write.OnQueue : Write → Prop
  | .addJob .. => True
  | .removeJob .. => True
  | _ => False

section Writes

variable {cat : Catalog} {d : Database} {b : BookingId} {offset : Nat} {k : ReminderId}

theorem jobs_apply {ws : List Write} (h : ∀ w ∈ ws, ¬ w.OnQueue) :
    ((chronos cat).apply ws d).jobs = d.jobs := by
  induction ws generalizing d with
  | nil => rfl
  | cons w ws ih =>
    have hw := h w List.mem_cons_self
    rw [Engine.apply_cons, ih fun w' hw' => h w' (List.mem_cons_of_mem _ hw')]
    cases w with
    | addJob b offset now job => exact absurd trivial hw
    | removeJob b offset => exact absurd trivial hw
    | _ => rfl

/-- A job is added where there is none. -/
theorem lookup_addJob_write {now : Instant} {job : QueueJob} (hnone : d.jobs.lookup (b, offset) = none) :
    ((Write.addJob b offset now job).apply d).jobs.lookup k =
      if k = (b, offset) then some job else d.jobs.lookup k := by
  show (addIfAbsent (b, offset) job d.jobs).lookup k = _
  unfold addIfAbsent
  rw [hnone]
  by_cases hk : k = (b, offset)
  · subst hk
    simp
  · simp [hk, AList.lookup_insert_ne hk]

theorem lookup_removeJob_write :
    ((Write.removeJob b offset).apply d).jobs.lookup k =
      if k = (b, offset) then none else d.jobs.lookup k := by
  show (d.jobs.erase (b, offset)).lookup k = _
  by_cases hk : k = (b, offset)
  · subst hk
    simp
  · simp [hk, AList.lookup_erase_ne hk]

theorem not_onQueue_keyWrites {c : ClientId} {key : Option String} {hash : JsonText} :
    ∀ w ∈ keyWrites c key hash b, ¬ w.OnQueue := by
  unfold keyWrites
  split
  · simp
  · intro w hw
    rw [List.mem_singleton.mp hw]
    exact not_false

theorem not_onQueue_reminderWrites {start : Instant} {offsets : List Nat} :
    ∀ w ∈ reminderWrites b start offsets, ¬ w.OnQueue := by
  intro w hw
  obtain ⟨offset, -, rfl⟩ := List.mem_map.mp hw
  exact not_false

theorem not_onQueue_openSlotWrites {slotId : SlotId} :
    ∀ w ∈ openSlotWrites d slotId, ¬ w.OnQueue := by
  unfold openSlotWrites
  split
  · simp
  · intro w hw
    rw [List.mem_singleton.mp hw]
    exact not_false

end Writes

/-! ### While jobs are added and removed -/

/-- Booking `id` is there, and at the given offsets it has scheduled reminders before `start`
    whose jobs are still to be added; every other reminder is in step. -/
structure Database.Enlists (d : Database) (late : ReminderId → Int) (t : Instant) (id : BookingId)
    (start : Instant) (offsets : List Nat) : Prop where
  ofBookings : d.OfBookings
  booking : d.bookings.lookup id ≠ none
  tracks : ∀ k, (k.1 = id → k.2 ∉ offsets) → d.Tracks late t k
  job : ∀ offset ∈ offsets, d.jobs.lookup (id, offset) = none
  row : ∀ offset ∈ offsets, ∃ row, d.reminderJobs.lookup (id, offset) = some row ∧
    row.status = .scheduled ∧ row.fireAtUtc = start - minutesMs offset

/-- Booking `b` has jobs that wait at the given offsets only; the reminders of every other
    booking are in step. -/
structure Database.Prunes (d : Database) (late : ReminderId → Int) (t : Instant) (b : BookingId)
    (offsets : List Nat) : Prop where
  ofBookings : d.OfBookings
  tracks : ∀ k, k.1 ≠ b → d.Tracks late t k
  waiting : ∀ offset job, d.jobs.lookup (b, offset) = some job → t < job.fires → offset ∈ offsets

section Steps

variable {cat : Catalog} {d : Database} {late : ReminderId → Int} {t now start : Instant}
variable {id b : BookingId} {offset : Nat} {offsets : List Nat}

theorem Database.Enlists.inSync (h : d.Enlists late t id start []) : d.InSync late t :=
  ⟨h.ofBookings, fun k => h.tracks k fun _ => List.not_mem_nil⟩

/-- What is left of the offsets after one of them is in step, by a change of its reminder only. -/
theorem Database.Enlists.tail {d' : Database} (h : d.Enlists late t id start (offset :: offsets))
    (hnodup : offset ∉ offsets) (hbookings : d'.bookings = d.bookings)
    (hrows : ∀ k, k ≠ (id, offset) → d'.reminderJobs.lookup k = d.reminderJobs.lookup k)
    (hjobs : ∀ k, k ≠ (id, offset) → d'.jobs.lookup k = d.jobs.lookup k)
    (htracks : d'.Tracks late t (id, offset)) : d'.Enlists late t id start offsets := by
  have hne : ∀ o ∈ offsets, ((id, o) : ReminderId) ≠ (id, offset) := by
    rintro o ho heq
    obtain ⟨-, rfl⟩ := Prod.mk.inj heq
    exact hnodup ho
  refine ⟨fun k hk => ?_, by rw [hbookings]; exact h.booking, fun k hk => ?_, fun o ho => ?_,
    fun o ho => ?_⟩
  · rw [hbookings] at hk
    have hother : k ≠ (id, offset) := by
      rintro rfl
      exact h.booking hk
    rw [hrows k hother, hjobs k hother]
    exact h.ofBookings k hk
  · by_cases hself : k = (id, offset)
    · rw [hself]
      exact htracks
    · refine (h.tracks k fun hid hmem => ?_).congr (hrows k hself) (hjobs k hself)
      rcases List.mem_cons.mp hmem with ho | ho
      · exact hself (Prod.ext hid ho)
      · exact hk hid ho
  · rw [hjobs _ (hne o ho)]
    exact h.job o (List.mem_cons_of_mem _ ho)
  · rw [hrows _ (hne o ho)]
    exact h.row o (List.mem_cons_of_mem _ ho)

/-- A reminder that is past is skipped, and gets no job. -/
theorem Database.Enlists.skip (h : d.Enlists late t id start (offset :: offsets))
    (hnodup : offset ∉ offsets) (row : ReminderJob) :
    ((Write.reminder id offset { row with status := .skipped }).apply d).Enlists late t id start
      offsets := by
  refine h.tail hnodup rfl (fun k hk => ?_) (fun _ _ => rfl) ⟨fun job hjob => ?_, fun row' hrow => ?_⟩
  · simp [hk]
  · have hnone : d.jobs.lookup (id, offset) = none := h.job offset List.mem_cons_self
    change d.jobs.lookup (id, offset) = some job at hjob
    rw [hnone] at hjob
    cases hjob
  · simp only [lookup_reminder_write, if_pos, Option.some.injEq] at hrow
    intro hstatus
    rw [← hrow] at hstatus
    cases hstatus

/-- The job that is added waits until the reminder is due, or a little longer. -/
theorem Database.Enlists.add {timestamp : Instant}
    (h : d.Enlists late t id start (offset :: offsets)) (hnodup : offset ∉ offsets)
    (hafter : now ≤ timestamp) (hsoon : timestamp ≤ now + late (id, offset)) :
    ((Write.addJob id offset now ⟨timestamp, start - minutesMs offset - now⟩).apply d).Enlists late t
      id start offsets := by
  have hnone : d.jobs.lookup (id, offset) = none := h.job offset List.mem_cons_self
  obtain ⟨row, hrow, hstatus, hfire⟩ := h.row offset List.mem_cons_self
  have hfits : (⟨timestamp, start - minutesMs offset - now⟩ : QueueJob).Fits (late (id, offset))
      row := QueueJob.fits_of_added hfire hafter hsoon
  refine h.tail hnodup rfl (fun _ _ => rfl) (fun k hk => ?_) ⟨fun job hjob _ => ?_, fun row' hrow' _ _ => ?_⟩
  · rw [lookup_addJob_write hnone, if_neg hk]
  · rw [lookup_addJob_write hnone, if_pos rfl] at hjob
    obtain rfl := Option.some.inj hjob
    exact ⟨row, hrow, hstatus, hfits⟩
  · obtain rfl : row = row' := Option.some.inj (hrow.symm.trans hrow')
    exact ⟨_, by rw [lookup_addJob_write hnone, if_pos rfl], hfits⟩

/-- One job less to remove. -/
theorem Database.Prunes.remove (h : d.Prunes late t b (offset :: offsets)) :
    ((Write.removeJob b offset).apply d).Prunes late t b offsets := by
  refine ⟨fun k hk => ?_, fun k hk => ?_, fun o job hjob hfires => ?_⟩
  · obtain ⟨hrow, hjob⟩ := h.ofBookings k hk
    refine ⟨hrow, ?_⟩
    rw [lookup_removeJob_write, hjob]
    simp
  · refine (h.tracks k hk).congr rfl ?_
    rw [lookup_removeJob_write, if_neg]
    rintro rfl
    exact hk rfl
  · rw [lookup_removeJob_write] at hjob
    split at hjob
    · cases hjob
    · next hne =>
      rcases List.mem_cons.mp (h.waiting o job hjob hfires) with rfl | ho
      · exact absurd rfl hne
      · exact ho

theorem scheduled_pending {row : ReminderJob} (h : row.status = .scheduled) :
    row.pending = true := by simp [ReminderJob.pending, h]

/-- Once no job of the booking waits, its pending reminders may be cancelled. -/
theorem Database.Prunes.cancel (h : d.Prunes late t b []) :
    ((Write.cancelPendingReminders b).apply d).InSync late t := by
  refine ⟨fun k hk => ?_, fun k => ?_⟩
  · obtain ⟨hrow, hjob⟩ := h.ofBookings k hk
    exact ⟨by simp [hrow], hjob⟩
  · by_cases hk : k.1 = b
    · subst hk
      refine ⟨fun job hjob hfires => ?_, fun row hrow hstatus _ => ?_⟩
      · exact absurd (h.waiting k.2 job hjob hfires) List.not_mem_nil
      -- A row that is scheduled was pending, and is cancelled now.
      · rw [lookup_cancelPendingReminders_write] at hrow
        obtain ⟨old, -, rfl⟩ := Option.map_eq_some_iff.mp hrow
        split at hstatus
        · cases hstatus
        · next hnot => exact absurd ⟨rfl, scheduled_pending hstatus⟩ hnot
    · refine (h.tracks k hk).congr ?_ rfl
      rw [lookup_cancelPendingReminders_write]
      simp [hk]

/-- `UPDATE … WHERE` that meets no row. -/
theorem updateWhere_eq_self {κ ρ : Type} [DecidableEq κ] {p : κ → ρ → Bool} {f : ρ → ρ}
    {rows : AList fun _ : κ => ρ} (h : ∀ e ∈ rows.entries, p e.1 e.2 = false) :
    updateWhere p f rows = rows := by
  refine AList.ext ?_
  show (rows.entries.map fun e => (⟨e.1, if p e.1 e.2 then f e.2 else e.2⟩ : Sigma fun _ : κ => ρ)) =
    rows.entries
  conv_rhs => rw [← List.map_id rows.entries]
  exact List.map_congr_left fun e he => by simp [h e he]

/-- The offsets at which booking `b` has a row that satisfies `p`. -/
theorem mem_reminderOffsets {p : ReminderJob → Bool} :
    offset ∈ d.reminderOffsets b p ↔
      ∃ row, d.reminderJobs.lookup (b, offset) = some row ∧ p row = true := by
  simp only [Database.reminderOffsets, List.mem_map, List.mem_filter, Bool.and_eq_true,
    decide_eq_true_eq]
  constructor
  · rintro ⟨⟨⟨b', o⟩, row⟩, ⟨hmem, hb, hp⟩, ho⟩
    obtain rfl : b' = b := hb
    obtain rfl : o = offset := ho
    exact ⟨row, AList.mem_lookup_iff.mpr hmem, hp⟩
  · rintro ⟨row, hrow, hp⟩
    exact ⟨⟨(b, offset), row⟩, ⟨AList.mem_lookup_iff.mp hrow, rfl, hp⟩, rfl⟩

theorem nodup_reminderOffsets (p : ReminderJob → Bool) : (d.reminderOffsets b p).Nodup := by
  have hkeys : (d.reminderJobs.entries.map Sigma.fst).Nodup := d.reminderJobs.nodupKeys
  have hentries : d.reminderJobs.entries.Pairwise fun e e' => e.1 ≠ e'.1 :=
    List.pairwise_map.mp hkeys
  refine List.pairwise_map.mpr (List.Pairwise.imp_of_mem ?_ (hentries.filter _))
  intro e e' he he' hne ho
  have hb : ∀ x ∈ d.reminderJobs.entries.filter fun e => decide (e.1.1 = b) && p e.2,
      x.1.1 = b := by
    intro x hx
    have hx' := (List.mem_filter.mp hx).2
    simp only [Bool.and_eq_true, decide_eq_true_eq] at hx'
    exact hx'.1
  exact hne (Prod.ext ((hb e he).trans (hb e' he').symm) ho)

/-- In step, the jobs that wait for a booking are those of its pending reminders. -/
theorem Database.InSync.prunes (h : d.InSync late t) (b : BookingId) :
    d.Prunes late t b (d.reminderOffsets b ReminderJob.pending) := by
  refine ⟨h.ofBookings, fun k _ => h.tracks k, fun offset job hjob hfires => ?_⟩
  obtain ⟨row, hrow, hstatus, -⟩ := (h.tracks _).row job hjob hfires
  exact mem_reminderOffsets.mpr ⟨row, hrow, scheduled_pending hstatus⟩

end Steps

/-! ### What the commits announce -/

/-- Booking `id` has no job, and its scheduled reminders are before `start`; the reminders of
    every other booking are in step. -/
structure Database.Announces (d : Database) (late : ReminderId → Int) (t : Instant)
    (id : BookingId) (start : Instant) : Prop where
  ofBookings : d.OfBookings
  booking : d.bookings.lookup id ≠ none
  tracks : ∀ k, k.1 ≠ id → d.Tracks late t k
  job : ∀ offset, d.jobs.lookup (id, offset) = none
  row : ∀ offset row, d.reminderJobs.lookup (id, offset) = some row → row.status = .scheduled →
    row.fireAtUtc = start - minutesMs offset

section Announces

variable {cat : Catalog} {d : Database} {late : ReminderId → Int} {t start : Instant}
variable {id : BookingId} {ws : List Write}

/-- The scheduled reminders of an announced booking are enlisted. -/
theorem Database.Announces.enlists (h : d.Announces late t id start) :
    d.Enlists late t id start (d.reminderOffsets id ReminderJob.scheduled) := by
  refine ⟨h.ofBookings, h.booking, fun k hk => ?_, fun offset _ => h.job offset, fun offset ho => ?_⟩
  · by_cases hid : k.1 = id
    · subst hid
      refine ⟨fun job hjob => ?_, fun row hrow hstatus _ => ?_⟩
      · rw [h.job k.2] at hjob
        cases hjob
      · have hscheduled : row.scheduled = true := by simp [ReminderJob.scheduled, hstatus]
        exact absurd (mem_reminderOffsets.mpr ⟨row, hrow, hscheduled⟩) (hk rfl)
    · exact h.tracks k hid
  · obtain ⟨row, hrow, hscheduled⟩ := mem_reminderOffsets.mp ho
    have hstatus : row.status = .scheduled := by simpa [ReminderJob.scheduled] using hscheduled
    exact ⟨row, hrow, hstatus, h.row offset row hrow hstatus⟩

/-- A new booking is announced. -/
theorem NewBooking.announces {req : BookingRequest} {now minStart : Instant} {row : Slot}
    {reminders : List Write} (h : NewBooking cat req now minStart d row reminders id ws)
    (hsync : d.InSync late t) : ((chronos cat).apply ws d).Announces late t id row.slotStartUtc := by
  have hjobs : ((chronos cat).apply ws d).jobs = d.jobs := by
    obtain ⟨offsets, -, hreminders, -⟩ := h.reminderJobs
    refine jobs_apply fun w hw => ?_
    rw [h.writes, hreminders] at hw
    simp only [List.mem_cons, List.mem_append] at hw
    rcases hw with rfl | rfl | hw | hw
    · exact not_false
    · exact not_false
    · exact not_onQueue_reminderWrites w hw
    · exact not_onQueue_keyWrites w hw
  obtain ⟨offsets, -, -, hrows⟩ := h.reminderJobs
  have hnew := hsync.ofBookings
  refine ⟨fun k hk => ?_, by rw [h.bookings]; simp, fun k hk => ?_, fun offset => ?_,
    fun offset job hjob hstatus => ?_⟩
  · rw [h.bookings] at hk
    split at hk
    · cases hk
    · next hne =>
      rw [hrows, hjobs, if_neg fun hid => hne hid.1]
      exact hnew k hk
  · refine (hsync.tracks k).congr ?_ (by rw [hjobs])
    rw [hrows, if_neg fun hid => hk hid.1]
  · rw [hjobs]
    exact (hnew (id, offset) h.fresh).2
  · rw [hrows] at hjob
    split at hjob
    · rw [← Option.some.inj hjob]
    · rw [(hnew (id, offset) h.fresh).1] at hjob
      cases hjob

/-- A moved booking is announced, if the old one has no job that waits. -/
theorem GuardedMove.announces {req : RescheduleRequest} {now : Instant} {old : Booking}
    {slot : Slot} {reminders : List Write}
    (h : GuardedMove cat .ok req now d old slot reminders id ws) (hsync : d.InSync late t)
    (hvacated : ∀ offset, (req.bookingId, offset) ∉ d.waiting t) :
    ((chronos cat).apply ws d).Announces late t id slot.slotStartUtc := by
  have hjobs : ((chronos cat).apply ws d).jobs = d.jobs := by
    obtain ⟨start, -, hreminders⟩ := h.scheduled
    refine jobs_apply fun w hw => ?_
    rw [h.writes, hreminders] at hw
    simp only [List.mem_cons, List.mem_append, List.not_mem_nil, or_false] at hw
    rcases hw with (((((rfl | rfl) | hw) | rfl | rfl) | hw) | hw)
    · exact not_false
    · exact not_false
    · exact not_onQueue_openSlotWrites w hw
    · exact not_false
    · exact not_false
    · exact not_onQueue_reminderWrites w hw
    · exact not_onQueue_keyWrites w hw
  obtain ⟨start, hstart, hrows⟩ := h.reminderJobs
  obtain rfl : slot.slotStartUtc = start := Except.ok.inj hstart
  have hnew := hsync.ofBookings
  refine ⟨fun k hk => ?_, by rw [h.bookings]; simp, fun k hk => ?_, fun offset => ?_,
    fun offset job hjob hstatus => ?_⟩
  · rw [h.bookings] at hk
    split at hk
    · cases hk
    · next hne =>
      split at hk
      · cases hk
      · next hold =>
        rw [hrows, hjobs, if_neg fun hid => hne hid.1, if_neg hold]
        exact hnew k hk
  · by_cases hold : k.1 = req.bookingId
    -- The rows of the old booking are cancelled, and no job of it waits.
    · refine ⟨fun job hjob hfires => ?_, fun row hrow hstatus _ => ?_⟩
      · rw [hjobs] at hjob
        have hwaits : (req.bookingId, k.2) ∈ d.waiting t := ⟨job, hold ▸ hjob, hfires⟩
        exact absurd hwaits (hvacated k.2)
      · rw [hrows, if_neg fun hid => hk hid.1, if_pos hold] at hrow
        obtain ⟨row', -, rfl⟩ := Option.map_eq_some_iff.mp hrow
        cases hstatus
    · refine (hsync.tracks k).congr ?_ (by rw [hjobs])
      rw [hrows, if_neg fun hid => hk hid.1, if_neg hold]
  · rw [hjobs]
    exact (hnew (id, offset) h.fresh).2
  · rw [hrows] at hjob
    split at hjob
    · rw [← Option.some.inj hjob]
    · rw [(hnew (id, offset) h.fresh).1] at hjob
      split at hjob <;> cases hjob

/-- A move leaves the old booking no pending reminder. -/
theorem GuardedMove.old_not_pending {fromColumn : Instant → Except JsError Instant}
    {req : RescheduleRequest} {now : Instant} {old : Booking} {slot : Slot}
    {reminders : List Write}
    (h : GuardedMove cat fromColumn req now d old slot reminders id ws) (offset : Nat)
    (row : ReminderJob)
    (hrow : ((chronos cat).apply ws d).reminderJobs.lookup (req.bookingId, offset) = some row) :
    row.pending = false := by
  obtain ⟨start, -, hrows⟩ := h.reminderJobs
  rw [hrows, if_neg fun hid => h.newId_ne hid.1, if_pos rfl] at hrow
  obtain ⟨row', -, rfl⟩ := Option.map_eq_some_iff.mp hrow
  rfl

end Announces

end Chronos
