import Chronos.Tasks

namespace Chronos

open ReadCommitted ReadCommitted.Prog

/-!
# Reminders fire at the right time

A reminder row and its job in the queue say when the reminder fires.  `createBooking`,
`rescheduleBooking` and `enqueueForBooking` compute that time one by one, from the start of a slot
they have read; that all of them agree with the slot the booking is on is an invariant of the
tables, which every write of every task preserves, over whatever connection it is sent: no
booking ever moves to another slot, and no slot to another time
(`reminders_fire_on_time`).
-/

/-! ### On time -/

/-- Every reminder row belongs to a booking on a slot, and fires its offset before the slot
    starts. -/
def Database.OnTime (d : Database) : Prop :=
  ∀ b offset row, d.reminderJobs.lookup (b, offset) = some row →
    ∃ booking slot, d.bookings.lookup b = some booking ∧
      d.slots.lookup booking.slotId = some slot ∧
      row.fireAtUtc = slot.slotStartUtc - minutesMs offset

/-- What a client that was given the times `given` writes on `d`: a job for a reminder that is
    ahead waits until the reminder fires, and a reminder that is skipped has passed. -/
def Write.OnTime (given : Instant → Prop) (d : Database) : Write → Prop
  | .addJob b offset now job => given now ∧
      ∀ row, d.reminderJobs.lookup (b, offset) = some row →
        now < row.fireAtUtc ∧ job.delay = row.fireAtUtc - now
  | .reminder _ _ row => row.status = .skipped → ∃ now, given now ∧ row.fireAtUtc ≤ now
  | _ => True

/-! ### Ids -/

/-- What an id that PostgreSQL draws is drawn for: the slot of the booking, or the start of the
    slot, that gets it.  No id is drawn for two. -/
structure Ids where
  bookingSlot : BookingId → SlotId
  slotStart : SlotId → Instant

/-- The id a statement draws is one that is drawn for its row. -/
def Ids.Draws (ids : Ids) : Stmt → Nat → Prop
  | .insertBooking row, fresh => ids.bookingSlot fresh = row.slotId
  | .insertSlot _ slotStartUtc _, fresh => ids.slotStart fresh = slotStartUtc
  | _, _ => True

/-- The start of a slot that was there, or is to come. -/
def Ids.StartsAt (ids : Ids) (d₀ : Database) (s : SlotId) (start : Instant) : Prop :=
  match d₀.slots.lookup s with
  | some row => start = row.slotStartUtc
  | none => start = ids.slotStart s

/-- What holds for good of bookings and slots. -/
def Ids.facts (ids : Ids) (d₀ : Database) (given : Instant → Prop) : Facts where
  onSlot b s := ids.bookingSlot b = s
  startsAt := ids.StartsAt d₀
  given := given

section Facts

variable {ids : Ids} {d₀ : Database} {given : Instant → Prop}

theorem startsAt_unique {s : SlotId} {start start' : Instant} (h : ids.StartsAt d₀ s start)
    (h' : ids.StartsAt d₀ s start') : start = start' := by
  unfold Ids.StartsAt at h h'
  split at h
  · next row hrow =>
    rw [hrow] at h'
    exact h.trans h'.symm
  · next hnone =>
    rw [hnone] at h'
    exact h.trans h'.symm

theorem firesAt_unique {b : BookingId} {offset : Nat} {fire fire' : Instant}
    (h : (ids.facts d₀ given).FiresAt b offset fire)
    (h' : (ids.facts d₀ given).FiresAt b offset fire') : fire = fire' := by
  obtain ⟨s, start, hs, hstart, rfl⟩ := h
  obtain ⟨s', start', hs', hstart', rfl⟩ := h'
  obtain rfl : s = s' := hs.symm.trans hs'
  rw [startsAt_unique hstart hstart']

/-! ### The invariant -/

/-- Slots and bookings are as the ids say, no row gets lost, and reminders fire on time. -/
structure Ids.Consistent (ids : Ids) (d₀ d : Database) : Prop where
  slots : ∀ s row, d.slots.lookup s = some row → ids.StartsAt d₀ s row.slotStartUtc
  kept : ∀ s, (d₀.slots.lookup s).isSome → (d.slots.lookup s).isSome
  bookings : ∀ b row, d.bookings.lookup b = some row →
    ids.bookingSlot b = row.slotId ∧ (d.slots.lookup row.slotId).isSome
  reminders : ∀ b offset row, d.reminderJobs.lookup (b, offset) = some row →
    (d.bookings.lookup b).isSome ∧
      (ids.facts d₀ fun _ => True).FiresAt b offset row.fireAtUtc

theorem Ids.Consistent.onTime {d : Database} (h : ids.Consistent d₀ d) : d.OnTime := by
  intro b offset row hrow
  obtain ⟨hbooking, s, start, hs, hstart, hfire⟩ := h.reminders b offset row hrow
  obtain ⟨booking, hbooking⟩ := Option.isSome_iff_exists.mp hbooking
  obtain ⟨hslotId, hslot⟩ := h.bookings b booking hbooking
  obtain ⟨slot, hslot⟩ := Option.isSome_iff_exists.mp hslot
  obtain rfl : booking.slotId = s := hslotId.symm.trans hs
  refine ⟨booking, slot, hbooking, hslot, ?_⟩
  rw [hfire, startsAt_unique hstart (h.slots _ slot hslot)]

/-- How a client that was given the times `given` may write on `d`. -/
def Ids.Vouches (ids : Ids) (d₀ : Database) (given : Instant → Prop) (d : Database) : Write → Prop
  | .slot s row => ids.StartsAt d₀ s row.slotStartUtc
  | .booking b row => ids.bookingSlot b = row.slotId ∧ (d.slots.lookup row.slotId).isSome
  | .reminder b offset row => (d.bookings.lookup b).isSome ∧
      (ids.facts d₀ fun _ => True).FiresAt b offset row.fireAtUtc ∧
      (row.status = .skipped → ∃ now, given now ∧ row.fireAtUtc ≤ now)
  | .addJob b offset now job => ∃ fire, (ids.facts d₀ fun _ => True).FiresAt b offset fire ∧
      given now ∧ now < fire ∧ job.delay = fire - now
  | _ => True

/-- The slots and bookings of `d` are also in `d'`. -/
def Database.SubRows (d d' : Database) : Prop :=
  (∀ s, (d.slots.lookup s).isSome → (d'.slots.lookup s).isSome) ∧
    ∀ b, (d.bookings.lookup b).isSome → (d'.bookings.lookup b).isSome

theorem isSome_slots_write (w : Write) (d : Database) (s : SlotId) :
    ((w.apply d).slots.lookup s).isSome ↔
      (d.slots.lookup s).isSome ∨ ∃ row, w = .slot s row := by
  by_cases hw : ∃ id row, w = .slot id row
  · obtain ⟨id, row, rfl⟩ := hw
    change ((d.slots.insert id row).lookup s).isSome ↔ _
    by_cases hs : s = id
    · subst hs
      simp
    · rw [AList.lookup_insert_ne hs]
      simp [Ne.symm hs]
  · rw [slots_write w fun id row heq => hw ⟨id, row, heq⟩]
    constructor
    · exact Or.inl
    · rintro (h | ⟨row, heq⟩)
      · exact h
      · exact absurd ⟨s, row, heq⟩ hw

theorem isSome_bookings_write (w : Write) (d : Database) (b : BookingId) :
    ((w.apply d).bookings.lookup b).isSome ↔
      (d.bookings.lookup b).isSome ∨ ∃ row, w = .booking b row := by
  by_cases hw : ∃ id row, w = .booking id row
  · obtain ⟨id, row, rfl⟩ := hw
    change ((d.bookings.insert id row).lookup b).isSome ↔ _
    by_cases hb : b = id
    · subst hb
      simp
    · rw [AList.lookup_insert_ne hb]
      simp [Ne.symm hb]
  · rw [bookings_write w fun id row heq => hw ⟨id, row, heq⟩]
    constructor
    · exact Or.inl
    · rintro (h | ⟨row, heq⟩)
      · exact h
      · exact absurd ⟨b, row, heq⟩ hw

theorem subRows_write (w : Write) (d : Database) : d.SubRows (w.apply d) :=
  ⟨fun s hs => (isSome_slots_write w d s).mpr (.inl hs),
    fun b hb => (isSome_bookings_write w d b).mpr (.inl hb)⟩

/-- A reminder row is the one that is written, or keeps its time. -/
theorem reminder_of_write {w : Write} {d : Database} {b : BookingId} {offset : Nat}
    {row : ReminderJob} (h : (w.apply d).reminderJobs.lookup (b, offset) = some row) :
    w = .reminder b offset row ∨
      ∃ old, d.reminderJobs.lookup (b, offset) = some old ∧ row.fireAtUtc = old.fireAtUtc := by
  have hcancelled : ∀ p : ReminderId → ReminderJob → Bool,
      (updateWhere p ReminderJob.cancel d.reminderJobs).lookup (b, offset) = some row →
      ∃ old, d.reminderJobs.lookup (b, offset) = some old ∧ row.fireAtUtc = old.fireAtUtc := by
    intro p hp
    rw [lookup_updateWhere] at hp
    obtain ⟨old, hold, rfl⟩ := Option.map_eq_some_iff.mp hp
    refine ⟨old, hold, ?_⟩
    split <;> rfl
  cases w with
  | reminder b' offset' row' =>
    change (d.reminderJobs.insert (b', offset') row').lookup (b, offset) = some row at h
    by_cases hkey : (b, offset) = (b', offset')
    · obtain ⟨rfl, rfl⟩ := Prod.mk.inj hkey
      rw [AList.lookup_insert, Option.some.injEq] at h
      exact .inl (by rw [h])
    · rw [AList.lookup_insert_ne hkey] at h
      exact .inr ⟨row, h, rfl⟩
  | cancelReminders b' => exact .inr (hcancelled _ h)
  | cancelPendingReminders b' => exact .inr (hcancelled _ h)
  | slot s row' => exact .inr ⟨row, h, rfl⟩
  | booking b' row' => exact .inr ⟨row, h, rfl⟩
  | key c k row' => exact .inr ⟨row, h, rfl⟩
  | addJob b' offset' now job => exact .inr ⟨row, h, rfl⟩
  | removeJob b' offset' => exact .inr ⟨row, h, rfl⟩
  | email id => exact .inr ⟨row, h, rfl⟩

/-- A write that is vouched for keeps the tables consistent. -/
theorem Ids.Consistent.write {d : Database} {w : Write} (h : ids.Consistent d₀ d)
    (hw : ids.Vouches d₀ given d w) : ids.Consistent d₀ (w.apply d) := by
  have hsub := subRows_write w d
  refine ⟨fun s row hrow => ?_, fun s hs => hsub.1 s (h.kept s hs), fun b row hrow => ?_,
    fun b offset row hrow => ?_⟩
  · by_cases hslot : ∃ s' row', w = .slot s' row'
    · obtain ⟨s', row', rfl⟩ := hslot
      change (d.slots.insert s' row').lookup s = some row at hrow
      by_cases hs : s = s'
      · subst hs
        rw [AList.lookup_insert, Option.some.injEq] at hrow
        exact hrow ▸ hw
      · rw [AList.lookup_insert_ne hs] at hrow
        exact h.slots s row hrow
    · rw [slots_write w fun s' row' heq => hslot ⟨s', row', heq⟩] at hrow
      exact h.slots s row hrow
  · by_cases hbooking : ∃ b' row', w = .booking b' row'
    · obtain ⟨b', row', rfl⟩ := hbooking
      change (d.bookings.insert b' row').lookup b = some row at hrow
      by_cases hb : b = b'
      · subst hb
        rw [AList.lookup_insert, Option.some.injEq] at hrow
        subst hrow
        exact hw
      · rw [AList.lookup_insert_ne hb] at hrow
        exact h.bookings b row hrow
    · rw [bookings_write w fun b' row' heq => hbooking ⟨b', row', heq⟩] at hrow
      obtain ⟨hslotId, hslot⟩ := h.bookings b row hrow
      exact ⟨hslotId, hsub.1 _ hslot⟩
  · rcases reminder_of_write hrow with rfl | ⟨old, hold, hfire⟩
    · exact ⟨hsub.2 _ hw.1, hw.2.1⟩
    · obtain ⟨hbooking, hfires⟩ := h.reminders b offset old hold
      exact ⟨hsub.2 _ hbooking, hfire ▸ hfires⟩

theorem Ids.Vouches.mono {d d' : Database} {w : Write} (hsub : d.SubRows d')
    (hw : ids.Vouches d₀ given d w) : ids.Vouches d₀ given d' w := by
  cases w with
  | booking b row => exact ⟨hw.1, hsub.1 _ hw.2⟩
  | reminder b offset row => exact ⟨hsub.2 _ hw.1, hw.2⟩
  | slot s row => exact hw
  | addJob b offset now job => exact hw
  | cancelReminders b => exact trivial
  | cancelPendingReminders b => exact trivial
  | key c k row => exact trivial
  | removeJob b offset => exact trivial
  | email id => exact trivial

theorem Database.SubRows.write {d d' : Database} (h : d.SubRows d') (w : Write) :
    (w.apply d).SubRows (w.apply d') := by
  refine ⟨fun s hs => ?_, fun b hb => ?_⟩
  · rw [isSome_slots_write] at hs ⊢
    exact hs.imp_left (h.1 s)
  · rw [isSome_bookings_write] at hb ⊢
    exact hb.imp_left (h.2 b)

/-! ### The statements -/

/-- The status that is recorded is never `skipped`. -/
theorem ofText?_ne_skipped {text : String} {status : ReminderJobStatus}
    (htext : text ∈ recordedStatuses) (h : ReminderJobStatus.ofText? text = some status) :
    status ≠ .skipped := by
  simp only [recordedStatuses, List.mem_cons, List.not_mem_nil, or_false] at htext
  rcases htext with rfl | rfl | rfl | rfl <;> (revert h; cases status <;> decide)

/-- What a statement writes is vouched for, if the statement keeps to the dialogue. -/
theorem Written.vouched {s : Stmt} {o : Nat} {d : Database} {w : Write} (h : Written s o d w)
    (hs : (ids.facts d₀ given).dialogue.sends s) (hdraw : ids.Draws s o)
    (hd : ids.Consistent d₀ d) : ids.Vouches d₀ given d w := by
  have hkept : ∀ {id : ReminderId} {row : ReminderJob} {status : ReminderJobStatus}
      {lockedUntil : Option Instant}, d.reminderJobs.lookup id = some row → status ≠ .skipped →
      ids.Vouches d₀ given d (.reminder id.1 id.2 ⟨row.fireAtUtc, status, lockedUntil⟩) := by
    intro id row status lockedUntil hrow hstatus
    obtain ⟨hbooking, hfires⟩ := hd.reminders id.1 id.2 row hrow
    exact ⟨hbooking, hfires, fun h => absurd h hstatus⟩
  cases h with
  | @slot id row status hrow => exact hd.slots id row hrow
  | @insertSlot p start finish hinsert hnone =>
    subst hinsert
    -- Slots stay, so one that is new now has not been there at the start.
    have hfresh : d₀.slots.lookup o = none := by
      by_contra hsome
      have hkept := hd.kept o (Option.isSome_iff_ne_none.mpr hsome)
      rw [hnone] at hkept
      cases hkept
    show ids.StartsAt d₀ o start
    unfold Ids.StartsAt
    rw [hfresh]
    exact hdraw.symm
  | @booking id row status version hrow => exact hd.bookings id row hrow
  | insertBooking hinsert hnone hslot =>
    subst hinsert
    exact ⟨hdraw, hslot⟩
  | insertReminder hinsert hnone hbooking =>
    subst hinsert
    exact ⟨hbooking, hs, fun h => nomatch h⟩
  | @skipReminder b offset row hskip hrow hscheduled =>
    subst hskip
    obtain ⟨hbooking, hfires⟩ := hd.reminders b offset row hrow
    obtain ⟨fire, now, hfire, hgiven, hpast⟩ := hs
    refine ⟨hbooking, hfires, fun _ => ⟨now, hgiven, ?_⟩⟩
    -- A reminder has one time to fire at.
    rw [show row.fireAtUtc = fire from firesAt_unique hfires hfire]
    exact hpast
  | cancelReminders hcancel => exact trivial
  | cancelPendingReminders hcancel => exact trivial
  | cancelPendingReminder hcancel hrow hpending => exact hkept hrow (by decide)
  | claimReminder hclaim hrow hscheduled => exact hkept hrow (by decide)
  | claimDue hclaim hrow hdue => exact hkept hrow (by decide)
  | setReminderStatus hset hrow htext =>
    subst hset
    exact hkept hrow (ofText?_ne_skipped hs htext)
  | key hkey => exact trivial

/-- What an `UPDATE slots … RETURNING` answers keeps the start of the slot. -/
theorem startsAt_updated {s : SlotId} {p : Slot → Bool} {status : SlotStatus}
    {d : Database} {found : Option Slot} {ws : List Write} (hd : ids.Consistent d₀ d)
    (h : (updateSlotWhere s p status d).result = .ok (found, ws)) :
    ∀ slot, found = some slot → ids.StartsAt d₀ s slot.slotStartUtc := by
  intro slot hslot
  rcases updateSlotWhere_ok h with ⟨hnone, -⟩ | ⟨row, hrow, -, hsome, -⟩
  · rw [hnone] at hslot
    cases hslot
  · obtain rfl := Option.some.inj (hslot.symm.trans hsome)
    exact hd.slots s row hrow

/-- The rows of the reconciliation have the starts of their bookings' slots. -/
theorem startsAt_scheduledReminders {d : Database} (hd : ids.Consistent d₀ d) :
    ∀ r ∈ d.scheduledReminders, ∃ s, ids.bookingSlot r.1 = s ∧ ids.StartsAt d₀ s r.2.1 := by
  intro r hr
  unfold Database.scheduledReminders at hr
  rw [List.mem_mergeSort] at hr
  obtain ⟨e, -, he⟩ := List.mem_filterMap.mp hr
  obtain ⟨b, hb, hslot⟩ := Option.bind_eq_some_iff.mp he
  obtain ⟨hrow, -⟩ := Option.filter_eq_some_iff.mp hb
  obtain ⟨slot, hlookup, rfl⟩ := Option.map_eq_some_iff.mp hslot
  exact ⟨b.slotId, (hd.bookings _ b hrow).1, hd.slots _ slot hlookup⟩

/-- What a statement answers is a fact. -/
theorem hears_exec {cat : Catalog} {s : Stmt} {o : Nat} {d : Database} {r : s.Rows}
    {ws : List Write} (hdraw : ids.Draws s o) (hd : ids.Consistent d₀ d)
    (hx : (exec cat s o d).result = .ok (r, ws)) :
    (ids.facts d₀ given).dialogue.hears s r := by
  cases s with
  | selectSlot id =>
    obtain ⟨rfl, -⟩ := read_ok hx
    exact fun slot hslot => hd.slots id slot hslot
  | bookSlot id now minStart => exact startsAt_updated hd hx
  | takeSlot id now => exact startsAt_updated hd hx
  | insertBooking row =>
    obtain ⟨rfl, -⟩ := insertBooking_ok hx
    exact hdraw
  | selectScheduledReminders =>
    obtain ⟨rfl, -⟩ := read_ok hx
    exact startsAt_scheduledReminders hd
  | _ => exact trivial

end Facts

/-! ### Every run -/

section Runs

variable {ι C : Type} {cat : Catalog} {fromColumn : Instant → Except JsError Instant}
variable {ids : Ids} {given : ι → Instant → Prop} {tasks : ι → Task} {d₀ : Database}

theorem vetting_fireTimes (cat : Catalog) (ids : Ids) (given : ι → Instant → Prop) (d₀ : Database) :
    Vetting (chronos cat) (fun i => (ids.facts d₀ (given i)).dialogue)
      (fun _ s o _ => ids.Draws s o) (ids.Consistent d₀) (fun i => ids.Vouches d₀ (given i))
      (fun _ => []) fun _ => Database.SubRows where
  exec i s o d r ws hs hdraw hd hx := by
    have hexec : (exec cat s o d).result = .ok (r, ws) := hx
    refine ⟨hears_exec hdraw hd hexec, ?_, fun _ _ _ hk => nomatch hk⟩
    rcases exec_written hexec with rfl | ⟨w, rfl, hw⟩
    · exact trivial
    · exact ⟨hw.vouched hs hdraw hd, trivial⟩
  note i a x d hask hlearn hd := by
    refine ⟨?_, fun _ _ => rfl⟩
    change Vets _ _ d ((noted a x).map (i, ·))
    unfold noted
    split
    · obtain ⟨fire, hfires, hgiven, hahead, hdelay⟩ := hask
      exact ⟨⟨fire, hfires, hgiven, hahead, hdelay⟩, trivial⟩
    · exact ⟨trivial, trivial⟩
    · exact ⟨trivial, trivial⟩
    · exact trivial
  write i d w hd hw := hd.write hw
  stable i d d' w hsub hw := hw.mono hsub
  sees_refl ks d := ⟨fun _ h => h, fun _ h => h⟩
  sees_trans ks d d' d'' h h' := ⟨fun s hs => h'.1 s (h.1 s hs), fun b hb => h'.2 b (h.2 b hb)⟩
  sees_write ks d d' w h := h.write w
  sees_frame ks d w _ := subRows_write w d

/-- The client that makes the step is told only times it was `given`, and its statement draws an id
    that is drawn for its row. -/
def Ids.Governs (ids : Ids) (given : ι → Instant → Prop)
    (w : World Stmt.Rows Ask.Answer JsError Unit Database Write Lock C ι)
    (l : Label Ask.Answer Nat JsError C ι) : Prop :=
  (∀ k, w.prog l.thread = .ask .now k → given l.thread (l.env.answer .now)) ∧
    ∀ s ok err, w.prog l.thread = .stmt s ok err → l.env.fault = none → ids.Draws s l.env.fresh

theorem Ids.Governs.allows {w : World Stmt.Rows Ask.Answer JsError Unit Database Write Lock C ι}
    {l : Label Ask.Answer Nat JsError C ι} (h : ids.Governs given w l) :
    w.Allows (chronos cat) (fun i => (ids.facts d₀ (given i)).dialogue)
      (fun _ s o _ => ids.Draws s o) l where
  statement s ok err hprog hfault _ := h.2 s ok err hprog hfault
  answer a k hprog := by
    cases a with
    | now => exact h.1 k hprog
    | effect e => exact trivial
    | queueAdd b offset now delayMs => exact trivial
    | selectClient c => exact trivial
    | sendEmail receiver key => exact trivial

/-- A write that is vouched for on consistent tables is on time. -/
theorem Ids.Vouches.onTime {given : Instant → Prop} {d : Database} {w : Write}
    (hd : ids.Consistent d₀ d) (hw : ids.Vouches d₀ given d w) : w.OnTime given d := by
  cases w with
  | addJob b offset now job =>
    obtain ⟨fire, hfires, hgiven, hahead, hdelay⟩ := hw
    refine ⟨hgiven, fun row hrow => ?_⟩
    rw [firesAt_unique (hd.reminders b offset row hrow).2 hfires]
    exact ⟨hahead, hdelay⟩
  | reminder b offset row => exact hw.2.2
  | _ => exact trivial

variable [DecidableEq ι] [DecidableEq C]

/-- **Reminders fire on time.**  Any number of tasks run over any connections, with anything
    failing; a start read from a column is that instant (or an exception).  Then every reminder
    row fires its offset before the slot of its booking, there is one for each booking and offset,
    the jobs in the queue wait until their rows fire, and only rows that are past are skipped. -/
theorem reminders_fire_on_time {w : World Stmt.Rows Ask.Answer JsError Unit Database Write Lock C ι}
    (hcolumn : ∀ x y, fromColumn x = .ok y → y = x)
    (hbookings : ∀ b, d₀.bookings.lookup b = none)
    (hreminders : ∀ k, d₀.reminderJobs.lookup k = none)
    (htasks : ∀ i, (ids.facts d₀ (given i)).Admits (tasks i))
    (h : Reaches (chronos cat) (ids.Governs given)
      (World.init d₀ fun i => (tasks i).program fromColumn) w) :
    w.db.OnTime ∧ w.db.reminderJobs.keys.Nodup ∧
      ∀ made entry rest, w.journal = made ++ entry :: rest →
        entry.2.OnTime (given entry.1) ((chronos cat).apply (made.map Prod.snd) d₀) := by
  have hV := vetting_fireTimes cat ids given d₀
  have hstart : ids.Consistent d₀ d₀ := by
    refine ⟨fun s row hrow => ?_, fun s hs => hs, fun b row hrow => ?_, fun b offset row hrow => ?_⟩
    · unfold Ids.StartsAt
      rw [hrow]
    · rw [hbookings] at hrow
      cases hrow
    · rw [hreminders] at hrow
      cases hrow
  have hinit : (World.init d₀ fun i => (tasks i).program fromColumn : World Stmt.Rows Ask.Answer
      JsError Unit Database Write Lock C ι).Vetted (chronos cat)
      (fun i => (ids.facts d₀ (given i)).dialogue) (ids.Consistent d₀)
      (fun i => ids.Vouches d₀ (given i)) fun _ => [] :=
    vetted_init hstart fun i => follows_task (htasks i) fun s x y hs hy => by
      rw [hcolumn x y hy]
      exact hs
  have hallows : ∀ (w : World Stmt.Rows Ask.Answer JsError Unit Database Write Lock C ι) l,
      ids.Governs given w l → w.Allows (chronos cat)
        (fun i => (ids.facts d₀ (given i)).dialogue) (fun _ s o _ => ids.Draws s o) l :=
    fun _ _ hl => hl.allows
  obtain ⟨written, hvets, -, hjournal⟩ := World.Vetted.journal hV hallows hinit h
  refine ⟨(World.Vetted.reaches hV hallows hinit h).db.onTime, w.db.reminderJobs.keys_nodup,
    fun made entry rest heq => ?_⟩
  obtain rfl : written = made ++ entry :: rest := by simpa [World.init, heq] using hjournal.symm
  obtain ⟨hmade, hentry⟩ := vets_mem hvets
  exact hentry.onTime (hV.apply hstart hmade)

end Runs

/-- Id `1` is drawn for a booking on slot `1`, and no slot is inserted. -/
def sampleIds : Ids := ⟨fun _ => 1, fun _ => 0⟩

/-- The step draws no id but for a booking on slot `1`. -/
def drawsSample (w : World Stmt.Rows Ask.Answer JsError Unit Database Write Lock Unit Unit)
    (_ : Label Ask.Answer Nat JsError Unit Unit) : Bool :=
  match w.prog () with
  | .stmt (.insertBooking row) _ _ => decide (row.slotId = 1)
  | .stmt (.insertSlot ..) _ _ => false
  | _ => true

/-- Client `5` books slot `1` at the epoch, and both reminders are queued. -/
theorem sample_booking_on_time :
    ∃ w : World Stmt.Rows Ask.Answer JsError Unit Database Write Lock Unit Unit,
      w.db.reminderJobs.lookup (1, 60) = some (sampleReminder 60 .scheduled) ∧
      w.db.jobs.lookup (1, 60) = some ⟨0, hoursMs 100 - minutesMs 60⟩ ∧ w.db.OnTime := by
  have hrun : ∃ w : World Stmt.Rows Ask.Answer JsError Unit Database Write Lock Unit Unit,
      World.run (chronos sampleCatalog) drawsSample
        (World.init sampleDb fun _ =>
          (Task.operation (.createBooking sampleRequest (some 0) true)).program .ok)
        (List.replicate 16 ⟨(), (), calmEnv 1 0⟩) = some w ∧
      w.db.reminderJobs.lookup (1, 60) = some (sampleReminder 60 .scheduled) ∧
      w.db.jobs.lookup (1, 60) = some ⟨0, hoursMs 100 - minutesMs 60⟩ :=
    ⟨_, rfl, rfl, rfl⟩
  obtain ⟨w, hw, hrow, hjob⟩ := hrun
  have hgoverns : ∀ (w : World Stmt.Rows Ask.Answer JsError Unit Database Write Lock Unit Unit),
      ∀ l ∈ List.replicate 16 ⟨(), (), calmEnv 1 0⟩, drawsSample w l = true →
        sampleIds.Governs (fun _ now => now = 0) w l := by
    intro w l hl hcheck
    obtain rfl := List.eq_of_mem_replicate hl
    refine ⟨fun _ _ => rfl, fun s ok err hprog _ => ?_⟩
    unfold drawsSample at hcheck
    change w.prog () = _ at hprog
    rw [hprog] at hcheck
    cases s with
    | insertBooking row => exact (of_decide_eq_true hcheck).symm
    | insertSlot p start finish => cases hcheck
    | _ => exact trivial
  have hadmits : ∀ _ : Unit, (sampleIds.facts sampleDb fun now => now = 0).Admits
      (.operation (.createBooking sampleRequest (some 0) true)) :=
    fun _ now hnow => (Option.some.inj hnow).symm
  exact ⟨w, hrow, hjob, (reminders_fire_on_time (fun _ _ h => (Except.ok.inj h).symm)
    (fun _ => rfl) (fun _ => rfl) hadmits (reaches_of_run hgoverns hw)).1⟩

end Chronos
