import Chronos.Delivery
import Chronos.StatusMachine

namespace Chronos

open ReadCommitted ReadCommitted.Prog

/-!
# What the tables never lose

No module of the source deletes a row of `slots`, `bookings`, `reminder_jobs` or
`idempotency_keys`, and an `UPDATE` sets a few columns only.

* `Database.Keeps` — what a later state of the tables has in common with an earlier one.
* `Database.Sound` — the constraints of the schema that span rows.
* `Write.Sound` — a write that keeps both, judged by the locks in `Write.soundLock`.
* `nothing_lost` — both hold in every run of all tasks, whatever fails.
-/

/-! ### What stays -/

/-- Rows stay where they are.  A slot changes its status only; a booking keeps its slot, its client,
    its provider and event type, its time zone and its notes; a reminder never changes its time, a
    key nothing; mails stay sent. -/
structure Database.Keeps (d d' : Database) : Prop where
  slots : ∀ id row, d.slots.lookup id = some row →
    ∃ status, d'.slots.lookup id = some { row with status := status }
  bookings : ∀ id row, d.bookings.lookup id = some row →
    ∃ status version, d'.bookings.lookup id = some { row with status := status, version := version }
  reminders : ∀ id row, d.reminderJobs.lookup id = some row →
    ∃ row', d'.reminderJobs.lookup id = some row' ∧ row'.fireAtUtc = row.fireAtUtc
  keys : ∀ k row, d.idempotencyKeys.lookup k = some row → d'.idempotencyKeys.lookup k = some row
  emails : d.emails <+: d'.emails

/-- `slots_end_after_start`, the foreign keys, and `bookings_one_live_per_slot`. -/
structure Database.Sound (cat : Catalog) (d : Database) : Prop where
  slots : ∀ id row, d.slots.lookup id = some row →
    row.slotStartUtc < row.slotEndUtc ∧ (cat.providers row.providerId).isSome
  bookings : ∀ id row, d.bookings.lookup id = some row →
    (d.slots.lookup row.slotId).isSome ∧ cat.clients row.clientId = true
  reminders : ∀ id row, d.reminderJobs.lookup id = some row → (d.bookings.lookup id.1).isSome
  keys : ∀ k row, d.idempotencyKeys.lookup k = some row → cat.clients k.1 = true
  oneLive : d.OneLive

/-- The write to `d` replaces no more than it may, refers to rows that are there, and makes no
    second booking of a slot live. -/
def Write.Sound (cat : Catalog) (d : Database) : Write → Prop
  | .slot id row => (∀ old, d.slots.lookup id = some old → row = { old with status := row.status }) ∧
      row.slotStartUtc < row.slotEndUtc ∧ (cat.providers row.providerId).isSome
  | .booking id row => (∀ old, d.bookings.lookup id = some old →
        row = { old with status := row.status, version := row.version }) ∧
      (row.live = true → ∀ j, j ≠ id → ¬ d.LiveOn row.slotId j) ∧
      (d.slots.lookup row.slotId).isSome ∧ cat.clients row.clientId = true
  | .reminder b offset row => (∀ old, d.reminderJobs.lookup (b, offset) = some old →
        row.fireAtUtc = old.fireAtUtc) ∧ (d.bookings.lookup b).isSome
  | .key c k _ => d.idempotencyKeys.lookup (c, k) = none ∧ cat.clients c = true
  | _ => True

/-- The locks a write is judged by. -/
def Write.soundLock : Write → List Lock
  | .slot id _ => [.slot id]
  | .booking id row => .booking id :: if row.live then [.live row.slotId] else []
  | .reminder b _ _ => [.reminders b]
  | .cancelReminders b => [.reminders b]
  | .cancelPendingReminders b => [.reminders b]
  | .key c k _ => [.key c k]
  | _ => []

/-- What the lock protects is the same; of the live bookings of a slot, that there are no new
    ones. -/
def Lock.Preserved (d d' : Database) : Lock → Prop
  | .live s => ∀ j, d'.LiveOn s j → d.LiveOn s j
  | k => value k d = value k d'

/-- What is locked is preserved, and no row of `slots` or `bookings` is missing. -/
structure Database.Preserves (ks : List Lock) (d d' : Database) : Prop where
  locked : ∀ k ∈ ks, k.Preserved d d'
  slots : ∀ id, (d.slots.lookup id).isSome → (d'.slots.lookup id).isSome
  bookings : ∀ id, (d.bookings.lookup id).isSome → (d'.bookings.lookup id).isSome

section Permanence

variable {cat : Catalog} {d d' d₀ : Database} {w : Write}

theorem Database.Keeps.refl (d : Database) : d.Keeps d where
  slots _ row h := ⟨row.status, h⟩
  bookings _ row h := ⟨row.status, row.version, h⟩
  reminders _ row h := ⟨row, h, rfl⟩
  keys _ _ h := h
  emails := List.prefix_rfl

/-! #### One write -/

theorem isSome_slot_write (w : Write) {s : SlotId} (h : (d.slots.lookup s).isSome) :
    ((w.apply d).slots.lookup s).isSome := by
  cases w with
  | slot id row =>
    rw [lookup_slot_write]
    split
    · rfl
    · exact h
  | _ => exact h

theorem isSome_booking_write (w : Write) {b : BookingId} (h : (d.bookings.lookup b).isSome) :
    ((w.apply d).bookings.lookup b).isSome := by
  cases w with
  | booking id row =>
    rw [lookup_booking_write]
    split
    · rfl
    · exact h
  | _ => exact h

/-- Rows of reminders that are cancelled together keep their times. -/
theorem fireAtUtc_ite_cancel (p : Prop) [Decidable p] (r : ReminderJob) :
    (if p then r.cancel else r).fireAtUtc = r.fireAtUtc := by
  split <;> rfl

theorem emails_write (w : Write) (d : Database) : d.emails <+: (w.apply d).emails := by
  cases w with
  | email r => exact List.prefix_append _ _
  | _ => exact List.prefix_rfl

/-- **A sound write loses nothing.** -/
theorem Write.Sound.keeps (hd : d₀.Keeps d) (h : w.Sound cat d) : d₀.Keeps (w.apply d) where
  slots id row hrow := by
    obtain ⟨status, hstatus⟩ := hd.slots id row hrow
    cases w with
    | slot id' new =>
      rw [lookup_slot_write]
      by_cases hid : id = id'
      · subst hid
        rw [if_pos rfl]
        have hnew := h.1 _ hstatus
        exact ⟨new.status, congrArg some hnew⟩
      · rw [if_neg hid]
        exact ⟨status, hstatus⟩
    | _ => exact ⟨status, hstatus⟩
  bookings id row hrow := by
    obtain ⟨status, version, hkept⟩ := hd.bookings id row hrow
    cases w with
    | booking id' new =>
      rw [lookup_booking_write]
      by_cases hid : id = id'
      · subst hid
        rw [if_pos rfl]
        have hnew := h.1 _ hkept
        exact ⟨new.status, new.version, congrArg some hnew⟩
      · rw [if_neg hid]
        exact ⟨status, version, hkept⟩
    | _ => exact ⟨status, version, hkept⟩
  reminders id row hrow := by
    obtain ⟨row', hrow', hfire⟩ := hd.reminders id row hrow
    cases w with
    | reminder b offset new =>
      rw [lookup_reminder_write]
      by_cases hid : id = (b, offset)
      · rw [if_pos hid]
        rw [hid] at hrow'
        exact ⟨new, rfl, (h.1 row' hrow').trans hfire⟩
      · rw [if_neg hid]
        exact ⟨row', hrow', hfire⟩
    | cancelReminders b =>
      rw [lookup_cancelReminders_write, hrow']
      exact ⟨_, rfl, (fireAtUtc_ite_cancel _ row').trans hfire⟩
    | cancelPendingReminders b =>
      rw [lookup_cancelPendingReminders_write, hrow']
      exact ⟨_, rfl, (fireAtUtc_ite_cancel _ row').trans hfire⟩
    | _ => exact ⟨row', hrow', hfire⟩
  keys k row hrow := by
    have hkept := hd.keys k row hrow
    cases w with
    | key c key new =>
      rw [lookup_key_write]
      have hne : k ≠ (c, key) := by
        rintro rfl
        rw [h.1] at hkept
        cases hkept
      rw [if_neg hne]
      exact hkept
    | _ => exact hkept
  emails := hd.emails.trans (emails_write w d)

/-- Live bookings after a sound write: no slot has a second one. -/
theorem Write.Sound.oneLive (hd : d.OneLive) (h : w.Sound cat d) : (w.apply d).OneLive := by
  intro s i j hi hj
  cases w with
  | booking id row =>
    rw [liveOn_booking_write] at hi hj
    rcases hi with ⟨rfl, hlive, rfl⟩ | ⟨hne, hi⟩
    · rcases hj with ⟨rfl, -, -⟩ | ⟨hne, hj⟩
      · rfl
      · exact absurd hj (h.2.1 hlive j hne)
    · rcases hj with ⟨rfl, hlive, rfl⟩ | ⟨-, hj⟩
      · exact absurd hi (h.2.1 hlive i hne)
      · exact hd s i j hi hj
  | _ => exact hd s i j hi hj

/-- Every reminder after a write to `d` was there before, or was written. -/
theorem lookup_reminder_after {id : ReminderId} {row : ReminderJob}
    (h : (w.apply d).reminderJobs.lookup id = some row) :
    (d.reminderJobs.lookup id).isSome ∨ w = .reminder id.1 id.2 row := by
  cases w with
  | reminder b offset new =>
    rw [lookup_reminder_write] at h
    split at h
    · next hid =>
      subst hid
      exact Or.inr (by rw [Option.some.inj h])
    · exact Or.inl (by rw [h]; rfl)
  | cancelReminders b =>
    rw [lookup_cancelReminders_write] at h
    obtain ⟨old, hold, -⟩ := Option.map_eq_some_iff.mp h
    exact Or.inl (by rw [hold]; rfl)
  | cancelPendingReminders b =>
    rw [lookup_cancelPendingReminders_write] at h
    obtain ⟨old, hold, -⟩ := Option.map_eq_some_iff.mp h
    exact Or.inl (by rw [hold]; rfl)
  | _ => exact Or.inl (by rw [show d.reminderJobs.lookup id = some row from h]; rfl)

/-- **A sound write keeps the constraints.** -/
theorem Write.Sound.sound (hd : d.Sound cat) (h : w.Sound cat d) : (w.apply d).Sound cat where
  slots id row hrow := by
    cases w with
    | slot id' new =>
      rw [lookup_slot_write] at hrow
      split at hrow
      · exact Option.some.inj hrow ▸ h.2
      · exact hd.slots id row hrow
    | _ => exact hd.slots id row hrow
  bookings id row hrow := by
    have hbefore : ∀ row, d.bookings.lookup id = some row →
        ((w.apply d).slots.lookup row.slotId).isSome ∧ cat.clients row.clientId = true :=
      fun row hrow => (hd.bookings id row hrow).imp_left (isSome_slot_write w)
    cases w with
    | booking id' new =>
      rw [lookup_booking_write] at hrow
      split at hrow
      · exact Option.some.inj hrow ▸ h.2.2
      · exact hbefore row hrow
    | _ => exact hbefore row hrow
  reminders id row hrow := by
    rcases lookup_reminder_after hrow with hbefore | rfl
    · obtain ⟨old, hold⟩ := Option.isSome_iff_exists.mp hbefore
      exact isSome_booking_write w (hd.reminders id old hold)
    · exact h.2
  keys k row hrow := by
    cases w with
    | key c key new =>
      rw [lookup_key_write] at hrow
      split at hrow
      · next hk => exact hk ▸ h.2
      · exact hd.keys k row hrow
    | _ => exact hd.keys k row hrow
  oneLive := h.oneLive hd.oneLive

/-! #### What writes are judged by -/

theorem Write.Sound.congr (h : w.Sound cat d) (hsame : Database.Preserves w.soundLock d d') :
    w.Sound cat d' := by
  cases w with
  | slot id row =>
    refine ⟨fun old hold => h.1 old ?_, h.2⟩
    have hkept : d.slots.lookup id = d'.slots.lookup id :=
      hsame.locked (.slot id) (List.mem_singleton_self _)
    rw [hkept]
    exact hold
  | booking id row =>
    refine ⟨fun old hold => h.1 old ?_, fun hlive j hj hother => ?_, hsame.slots _ h.2.2.1, h.2.2.2⟩
    · have hkept : d.bookings.lookup id = d'.bookings.lookup id :=
        hsame.locked (.booking id) List.mem_cons_self
      rw [hkept]
      exact hold
    · have hmem : Lock.live row.slotId ∈ (Write.booking id row).soundLock := by
        simp [Write.soundLock, hlive]
      exact h.2.1 hlive j hj (hsame.locked _ hmem j hother)
  | reminder b offset row =>
    refine ⟨fun old hold => h.1 old ?_, hsame.bookings b h.2⟩
    have hkept : (fun offset => d.reminderJobs.lookup (b, offset)) =
        fun offset => d'.reminderJobs.lookup (b, offset) :=
      hsame.locked (.reminders b) (List.mem_singleton_self _)
    exact (congrFun hkept offset).trans hold
  | key c k row =>
    refine ⟨?_, h.2⟩
    have hkept : d.idempotencyKeys.lookup (c, k) = d'.idempotencyKeys.lookup (c, k) :=
      hsame.locked (.key c k) (List.mem_singleton_self _)
    rw [← hkept]
    exact h.1
  | _ => exact trivial

theorem Database.Preserves.write {ks : List Lock} (h : Database.Preserves ks d d') (w : Write) :
    Database.Preserves ks (w.apply d) (w.apply d') where
  locked k hk := by
    have hkept := h.locked k hk
    cases k with
    | live s =>
      intro j hj
      cases w with
      | booking id row =>
        rw [liveOn_booking_write] at hj ⊢
        exact hj.imp_right fun hother => ⟨hother.1, hkept j hother.2⟩
      | _ => exact hkept j hj
    | slot s => exact value_write_congr w (.slot s) hkept
    | booking b => exact value_write_congr w (.booking b) hkept
    | reminders b => exact value_write_congr w (.reminders b) hkept
    | key c key => exact value_write_congr w (.key c key) hkept
  slots id hid := by
    cases w with
    | slot s row =>
      rw [lookup_slot_write] at hid ⊢
      split
      · rfl
      · next hne =>
        rw [if_neg hne] at hid
        exact h.slots id hid
    | _ => exact h.slots id hid
  bookings id hid := by
    cases w with
    | booking b row =>
      rw [lookup_booking_write] at hid ⊢
      split
      · rfl
      · next hne =>
        rw [if_neg hne] at hid
        exact h.bookings id hid
    | _ => exact h.bookings id hid

/-- A write that is judged by other locks preserves what is locked. -/
theorem preserves_write {ks : List Lock} (h : ∀ k ∈ ks, k ∉ w.soundLock) :
    Database.Preserves ks d (w.apply d) where
  locked k hk := by
    have hnot := h k hk
    cases k with
    | live s =>
      intro j hj
      cases w with
      | booking id row =>
        rw [liveOn_booking_write] at hj
        rcases hj with ⟨-, hlive, rfl⟩ | ⟨-, hj⟩
        · exact absurd (by simp [Write.soundLock, hlive]) hnot
        · exact hj
      | _ => exact hj
    | slot s =>
      cases w with
      | slot id row => exact (value_slot_write fun heq => hnot (by simp [Write.soundLock, heq])).symm
      | _ => rfl
    | booking b =>
      cases w with
      | booking id row =>
        have hne : b ≠ id := by
          rintro rfl
          exact hnot List.mem_cons_self
        show d.bookings.lookup b = ((Write.booking id row).apply d).bookings.lookup b
        rw [lookup_booking_write, if_neg hne]
      | _ => rfl
    | reminders b =>
      refine (value_write_of_ne w (.reminders b) (fun _ _ _ => nofun)
        (fun _ _ _ => ⟨nofun, fun _ => nofun, fun _ _ _ => nofun⟩) (fun b' hw heq => ?_)
        fun _ _ _ _ => nofun).symm
      refine hnot (heq ▸ ?_)
      rcases hw with ⟨offset, row, rfl⟩ | rfl | rfl <;> exact List.mem_singleton_self _
    | key c key =>
      cases w with
      | key c' key' row =>
        exact (value_key_write fun heq => hnot (by simp [Write.soundLock, heq])).symm
      | _ => rfl
  slots _ := isSome_slot_write w
  bookings _ := isSome_booking_write w

/-! #### What the statements write -/

/-- The statement gives booking `id` the status. -/
def Stmt.SetsBooking (id : BookingId) (status : BookingStatus) : Stmt → Prop
  | .cancelBookingRow b => b = id ∧ status = .cancelled
  | .setBookingStatus b text => b = id ∧ BookingStatus.ofText? text = some status
  | .updateBooking b status' _ => b = id ∧ status' = status
  | _ => False

/-- A statement that writes a booking inserts it, or gives it a status: in a new version that is
    live only where no other live booking is, and that locks the entry of the slot. -/
theorem exec_writesBooking {s : Stmt} {o : Nat} {r : s.Rows} {ws : List Write} {id : BookingId}
    {row : Booking} (hx : (exec cat s o d).result = .ok (r, ws)) (hw : .booking id row ∈ ws) :
    (s = .insertBooking row ∧ id = o ∧ d.bookings.lookup id = none) ∨
      s.SetsBooking id row.status ∧ ∃ old, d.bookings.lookup id = some old ∧
        row = { old with status := row.status, version := row.version } ∧
        (exec cat s o d).locks = .booking id :: old.entries row ∧
        (old.live = false → row.live = true → d.otherLive row.slotId (some id) = false) := by
  have hnil : ws ≠ [] := List.ne_nil_of_mem hw
  have hone : ∀ {w'}, ws = [w'] → Write.booking id row = w' := fun h => List.mem_singleton.mp (h ▸ hw)
  cases s with
  | insertBooking row' =>
    obtain ⟨-, hws, hnone, -⟩ := insertBooking_ok hx
    obtain ⟨rfl, rfl⟩ := Write.booking.inj (hone hws)
    exact Or.inl ⟨rfl, rfl, hnone⟩
  | cancelBookingRow b =>
    refine Or.inr ?_
    simp only [exec] at hx ⊢
    split at hx
    · exact absurd (Prod.mk.inj (Except.ok.inj hx)).2.symm hnil
    · next old hold =>
      obtain ⟨-, hws, hother⟩ := writeBooking_ok hx
      obtain ⟨rfl, rfl⟩ := Write.booking.inj (hone hws)
      exact ⟨⟨rfl, rfl⟩, old, hold, rfl, rfl, hother⟩
  | setBookingStatus b text =>
    refine Or.inr ?_
    simp only [exec] at hx ⊢
    split at hx
    · exact absurd (Prod.mk.inj (Except.ok.inj hx)).2.symm hnil
    · next old hold =>
      split at hx
      · cases hx
      · next status hstatus =>
        obtain ⟨-, hws, hother⟩ := writeBooking_ok hx
        obtain ⟨rfl, rfl⟩ := Write.booking.inj (hone hws)
        exact ⟨⟨rfl, hstatus⟩, old, hold, rfl, rfl, hother⟩
  | updateBooking b status version =>
    refine Or.inr ?_
    simp only [exec] at hx ⊢
    split at hx
    · cases hx
    · next old hold =>
      obtain ⟨-, hws, hother⟩ := writeBooking_ok hx
      obtain ⟨rfl, rfl⟩ := Write.booking.inj (hone hws)
      exact ⟨⟨rfl, rfl⟩, old, hold, rfl, rfl, hother⟩
  -- The other statements write to other tables.
  | bookSlot =>
    rcases updateSlotWhere_ok hx with ⟨-, hws, -⟩ | ⟨_, -, -, -, hws, -⟩
    · exact absurd hws hnil
    · cases hone hws
  | takeSlot =>
    rcases updateSlotWhere_ok hx with ⟨-, hws, -⟩ | ⟨_, -, -, -, hws, -⟩
    · exact absurd hws hnil
    · cases hone hws
  | openSlot =>
    have hws := openSlot_ok hx
    unfold openSlotWrites at hws
    split at hws
    · exact absurd hws hnil
    · cases hone hws
  | updateSlot =>
    obtain ⟨_, -, hws⟩ := updateSlot_ok hx
    cases hone hws
  | insertSlot =>
    rcases insertSlot_ok hx with hws | ⟨-, hws⟩
    · exact absurd hws hnil
    · cases hone hws
  | insertSlotBatch => cases hx
  | insertReminder => cases hone (insertReminder_ok hx).1
  | cancelReminders => cases hone (Prod.mk.inj (Except.ok.inj hx)).2.symm
  | skipReminder =>
    rcases skipReminder_ok hx with hws | ⟨_, -, -, hws⟩
    · exact absurd hws hnil
    · cases hone hws
  | cancelPendingReminders b =>
    cases b with
    | none => exact absurd (read_ok hx).2 hnil
    | some b => cases hone (Prod.mk.inj (Except.ok.inj hx)).2.symm
  | cancelPendingReminder =>
    rcases updateReminderWhere_ok hx with ⟨-, hws, -⟩ | ⟨_, -, -, -, hws, -⟩
    · exact absurd hws hnil
    · cases hone hws
  | claimReminder =>
    rcases updateReminderWhere_ok hx with ⟨-, hws, -⟩ | ⟨_, -, -, -, hws, -⟩
    · exact absurd hws hnil
    · cases hone hws
  | claimDue =>
    rcases claimDue_ok hx with ⟨-, hws⟩ | ⟨_, _, -, -, -, hws, -⟩
    · exact absurd hws hnil
    · cases hone hws
  | setReminderStatus =>
    rcases setReminderStatus_ok hx with ⟨hws, -⟩ | ⟨_, _, -, -, hws, -⟩
    · exact absurd hws hnil
    · cases hone hws
  | insertKey => cases hone (insertKey_ok hx).1
  | selectBookingForUpdate => exact absurd (selectBookingForUpdate_ok hx).2 hnil
  | selectPendingReminders b =>
    cases b with
    | none => exact absurd (read_ok hx).2 hnil
    | some b => exact absurd (read_ok hx).2 hnil
  | selectProvider id =>
    cases id with
    | none => exact absurd (read_ok hx).2 hnil
    | some id => exact absurd (read_ok hx).2 hnil
  | _ => exact absurd (read_ok hx).2 hnil

/-- A slot is inserted only where no slot of the provider conflicts with it. -/
theorem insertSlot_free {p : ProviderId} {start finish : Instant} {o : Nat} {r : Unit}
    {ws : List Write} (hx : (exec cat (.insertSlot p start finish) o d).result = .ok (r, ws))
    (hw : w ∈ ws) :
    start < finish ∧ d.slotConflict p start finish = false ∧ (cat.providers p).isSome := by
  have hnil : ws ≠ [] := List.ne_nil_of_mem hw
  simp only [exec] at hx
  split at hx
  · cases hx
  · next hordered =>
    split at hx
    · exact absurd (Prod.mk.inj (Except.ok.inj hx)).2.symm hnil
    · next hfree =>
      split at hx
      · cases hx
      · next hprovider =>
        simp only [Bool.or_eq_true, not_or, Bool.not_eq_true] at hfree
        exact ⟨Int.not_le.mp hordered, hfree.2,
          Option.isSome_iff_ne_none.mpr (by simpa using hprovider)⟩

/-- Whoever makes a booking live on a slot finds no other live booking there, and locks the entry
    of the slot. -/
theorem exec_live {s : Stmt} {o : Nat} {r : s.Rows} {ws : List Write} {id : BookingId}
    {row : Booking} (hone : d.OneLive) (hx : (exec cat s o d).result = .ok (r, ws))
    (hw : .booking id row ∈ ws) (hlive : row.live = true) :
    (∀ j, j ≠ id → ¬ d.LiveOn row.slotId j) ∧ .live row.slotId ∈ (exec cat s o d).locks := by
  rcases exec_writesBooking hx hw with ⟨rfl, -⟩ | ⟨-, old, hold, hrow, hlocks, hother⟩
  · obtain ⟨-, -, -, hfree, -⟩ := insertBooking_ok hx
    refine ⟨fun j _ hj => ?_, by simp [exec]⟩
    have htaken := (otherLive_iff d row.slotId none).mpr ⟨j, nofun, hj⟩
    rw [hfree hlive] at htaken
    cases htaken
  · have hslot : row.slotId = old.slotId := by rw [hrow]
    refine ⟨fun j hj hlivej => ?_, by simp [hlocks, Booking.entries, hlive, hslot]⟩
    cases holdlive : old.live with
    | true =>
      -- The booking held the slot before, and nobody else did.
      exact hj (hone _ j id hlivej ⟨old, hold, holdlive, hslot.symm⟩)
    | false =>
      have htaken := (otherLive_iff d row.slotId (some id)).mpr ⟨j, by simpa using hj, hlivej⟩
      rw [hother holdlive hlive] at htaken
      cases htaken

/-- A new version of a reminder that fires when the old one did. -/
theorem sound_reminder {id : ReminderId} {row new : ReminderJob} (hd : d.Sound cat)
    (hrow : d.reminderJobs.lookup id = some row) (hfire : new.fireAtUtc = row.fireAtUtc) :
    (Write.reminder id.1 id.2 new).Sound cat d := by
  refine ⟨fun old hold => ?_, hd.reminders id row hrow⟩
  obtain rfl := Option.some.inj (hrow.symm.trans hold)
  exact hfire

/-- **The statements write soundly.** -/
theorem exec_sound {s : Stmt} {o : Nat} {r : s.Rows} {ws : List Write} (hd : d.Sound cat)
    (hx : (exec cat s o d).result = .ok (r, ws)) (hw : w ∈ ws) : w.Sound cat d := by
  rcases exec_written hx with rfl | ⟨w', rfl, hwritten⟩
  · cases hw
  obtain rfl := List.mem_singleton.mp hw
  cases hwritten with
  | @slot id row status hrow =>
    refine ⟨fun old hold => ?_, hd.slots id row hrow⟩
    obtain rfl := Option.some.inj (hrow.symm.trans hold)
    rfl
  | @insertSlot p start finish hinsert hnone =>
    subst hinsert
    obtain ⟨hordered, -, hprovider⟩ := insertSlot_free hx hw
    refine ⟨fun old hold => ?_, hordered, hprovider⟩
    rw [hnone] at hold
    cases hold
  | @booking id row status version hrow =>
    refine ⟨fun old hold => ?_, fun hlive => (exec_live hd.oneLive hx hw hlive).1,
      hd.bookings id row hrow⟩
    obtain rfl := Option.some.inj (hrow.symm.trans hold)
    rfl
  | @insertBooking row hinsert hnone hslot =>
    subst hinsert
    obtain ⟨-, -, -, -, -, hclient⟩ := insertBooking_ok hx
    refine ⟨fun old hold => ?_, fun hlive => (exec_live hd.oneLive hx hw hlive).1, hslot, hclient⟩
    rw [hnone] at hold
    cases hold
  | @insertReminder b offset fireAt hinsert hnone hbooking =>
    refine ⟨fun old hold => ?_, hbooking⟩
    rw [hnone] at hold
    cases hold
  | key hinsert =>
    subst hinsert
    exact (insertKey_ok hx).2
  | skipReminder hskip hrow hscheduled => exact sound_reminder hd hrow rfl
  | cancelPendingReminder hcancel hrow hpending => exact sound_reminder hd hrow rfl
  | claimReminder hclaim hrow hscheduled => exact sound_reminder hd hrow rfl
  | claimDue hclaim hrow hdue => exact sound_reminder hd hrow rfl
  | setReminderStatus hset hrow htext => exact sound_reminder hd hrow rfl
  | cancelReminders hcancel => exact trivial
  | cancelPendingReminders hcancel => exact trivial

/-- A statement locks what its writes are judged by. -/
theorem soundLock_exec {s : Stmt} {o : Nat} {r : s.Rows} {ws : List Write} (hd : d.Sound cat)
    (hx : (exec cat s o d).result = .ok (r, ws)) (hw : w ∈ ws) :
    ∀ k ∈ w.soundLock, k ∈ (exec cat s o d).locks := by
  have hlocks := exec_locks hx w hw
  cases w with
  | booking id row =>
    intro k hk
    rcases List.mem_cons.mp hk with rfl | hk
    · exact hlocks _ (List.mem_singleton_self _)
    · split at hk
      · next hlive =>
        obtain rfl := List.mem_singleton.mp hk
        exact (exec_live hd.oneLive hx hw hlive).2
      · cases hk
  | slot id row => exact hlocks
  | reminder b offset row => exact hlocks
  | cancelReminders b => exact hlocks
  | cancelPendingReminders b => exact hlocks
  | key c k row => exact hlocks
  | _ => exact fun k hk => nomatch hk

theorem vetting_sound (cat : Catalog) (ι : Type) (d₀ : Database) :
    Vetting (chronos cat) (fun _ : ι => anyFacts.dialogue) (fun _ _ _ _ => True)
      (fun d => d₀.Keeps d ∧ d.Sound cat) (fun _ d w => w.Sound cat d) Write.soundLock
      Database.Preserves where
  exec i s o d r ws _ _ hd hx := by
    have hexec : (exec cat s o d).result = .ok (r, ws) := hx
    refine ⟨hears_anyFacts s r, ?_, fun w hw => soundLock_exec hd.2 hexec hw⟩
    rcases exec_written hexec with rfl | ⟨w, rfl, -⟩
    · exact trivial
    · exact ⟨exec_sound hd.2 hexec (List.mem_singleton_self w), trivial⟩
  note i a x d _ _ _ := by
    change Vets _ _ d ((noted a x).map (i, ·)) ∧ ∀ w ∈ noted a x, w.soundLock = []
    unfold noted
    split
    · exact ⟨⟨trivial, trivial⟩, fun w hw => by rw [List.mem_singleton.mp hw]; rfl⟩
    · exact ⟨⟨trivial, trivial⟩, fun w hw => by rw [List.mem_singleton.mp hw]; rfl⟩
    · exact ⟨⟨trivial, trivial⟩, fun w hw => by rw [List.mem_singleton.mp hw]; rfl⟩
    · exact ⟨trivial, fun _ hw => nomatch hw⟩
  write _ _ _ hd hw := ⟨hw.keeps hd.1, hw.sound hd.2⟩
  stable i d d' w hsame hw := hw.congr hsame
  sees_refl ks d := ⟨fun k _ => by cases k <;> first | rfl | exact fun _ h => h,
    fun _ h => h, fun _ h => h⟩
  sees_trans ks d d' d'' h h' := by
    refine ⟨fun k hk => ?_, fun id hid => h'.slots id (h.slots id hid),
      fun id hid => h'.bookings id (h.bookings id hid)⟩
    have hfirst := h.locked k hk
    have hsecond := h'.locked k hk
    cases k with
    | live s => exact fun j hj => hfirst j (hsecond j hj)
    | slot id => exact Eq.trans hfirst hsecond
    | booking id => exact Eq.trans hfirst hsecond
    | reminders b => exact Eq.trans hfirst hsecond
    | key c key => exact Eq.trans hfirst hsecond
  sees_write ks d d' w h := h.write w
  sees_frame ks d w h := preserves_write h

end Permanence

/-! ### Every run -/

section Runs

variable {C ι : Type} [DecidableEq C] [DecidableEq ι] {cat : Catalog}
variable {fromColumn : Instant → Except JsError Instant} {tasks : ι → Task} {d₀ : Database}

/-- The worlds of a run are vetted, whichever of its databases the later ones are compared with. -/
theorem sound_of_reaches {P : Workers C ι → Label Ask.Answer Nat JsError C ι → Prop}
    {w : Workers C ι} (hsound : d₀.Sound cat)
    (h : Reaches (chronos cat) P (World.init d₀ fun i => (tasks i).program fromColumn) w) :
    w.Vetted (chronos cat) (fun _ => anyFacts.dialogue) (fun d => d₀.Keeps d ∧ d.Sound cat)
      (fun _ d w => w.Sound cat d) Write.soundLock :=
  World.Vetted.reaches (vetting_sound cat ι d₀)
    (fun _ _ _ => ⟨fun _ _ _ _ _ _ => trivial, fun a _ _ => learns_anyFacts a _⟩)
    (vetted_init ⟨.refl d₀, hsound⟩ fun i => follows_task (admits_anyFacts (tasks i))
      fun _ _ _ _ _ => trivial) h

/-- **Nothing is lost.**  Whatever tasks run, over whichever connections, with anything failing:
    between any two moments no row disappears, slots keep all columns but their status, bookings what
    they are for, reminders their times, and keys their answers; and all references resolve. -/
theorem nothing_lost {P : Workers C ι → Label Ask.Answer Nat JsError C ι → Prop}
    {w w' : Workers C ι} (hsound : d₀.Sound cat)
    (h : Reaches (chronos cat) P (World.init d₀ fun i => (tasks i).program fromColumn) w)
    (h' : Reaches (chronos cat) P w w') : w.db.Keeps w'.db ∧ w'.db.Sound cat := by
  obtain ⟨hdb, hsession, hprog⟩ := sound_of_reaches hsound h
  exact (World.Vetted.reaches (vetting_sound cat ι w.db)
    (fun _ _ _ => ⟨fun _ _ _ _ _ _ => trivial, fun a _ _ => learns_anyFacts a _⟩)
    ⟨⟨.refl w.db, hdb.2⟩, hsession, hprog⟩ h').db

/-! #### A provider's first slot, and its booking -/

/-- A database without rows. -/
def newDb : Database where
  slots := ∅
  bookings := ∅
  reminderJobs := ∅
  idempotencyKeys := ∅

theorem sound_newDb (cat : Catalog) : newDb.Sound cat where
  slots _ _ h := nomatch h
  bookings _ _ h := nomatch h
  reminders _ _ h := nomatch h
  keys _ _ h := nomatch h
  oneLive _ _ _ h := by
    obtain ⟨b, hb, -⟩ := h
    cases hb

/-- The slot of the provider is made, and booked. -/
def fillAndBook : Bool → Task
  | false => .materializeProvider 7 [(hoursMs 100, hoursMs 101)]
  | true => .operation (.createBooking sampleRequest (some 0) false)

def startFillAndBook : Workers Bool Bool :=
  World.init newDb fun i => (fillAndBook i).program .ok

/-- The booking of client `5` leaves the slot where it was. -/
theorem nothing_lost_booked : ∃ w w' : Workers Bool Bool,
    (w.db.slots.lookup 1).map Slot.status = some .«open» ∧
    (w'.db.slots.lookup 1).map Slot.status = some .booked ∧
    w.db.Keeps w'.db ∧ w'.db.Sound sampleCatalog := by
  have hfilled : ∃ w : Workers Bool Bool, World.run (chronos sampleCatalog) (fun _ _ => true)
      startFillAndBook [⟨false, false, calmEnv 1 0⟩] = some w ∧
      (w.db.slots.lookup 1).map Slot.status = some .«open» ∧
      ∃ w' : Workers Bool Bool, World.run (chronos sampleCatalog) (fun _ _ => true) w
        (List.replicate 10 ⟨true, true, calmEnv 1 0⟩) = some w' ∧
        (w'.db.slots.lookup 1).map Slot.status = some .booked :=
    ⟨_, rfl, rfl, _, rfl, rfl⟩
  obtain ⟨w, hw, hopen, w', hw', hbooked⟩ := hfilled
  exact ⟨w, w', hopen, hbooked, nothing_lost (sound_newDb sampleCatalog)
    (reaches_of_run (fun _ _ _ _ => trivial) hw) (reaches_of_run (fun _ _ _ _ => trivial) hw')⟩

end Runs

end Chronos
