import Chronos.Statements
import Chronos.ReadCommitted.Discipline

namespace Chronos

open ReadCommitted

/-!
# What the statements depend on and what they change

`lawful` is the law of the engine: a statement changes only what it locks.  The `pinned_…`
lemmas say of each statement that is sent inside a transaction which locks its answer
depends on; together they let every transaction of the booking core be replayed.
-/

variable {cat : Catalog} {d d' : Database}

/-! ### Tables after a write -/

@[simp] theorem apply_chronos (w : Write) (d : Database) :
    (chronos cat).write w d = w.apply d := rfl

@[simp] theorem lookup_slot_write (id : SlotId) (row : Slot) (s : SlotId) :
    ((Write.slot id row).apply d).slots.lookup s = if s = id then some row else d.slots.lookup s := by
  by_cases h : s = id
  · subst h; simp [Write.apply]
  · simp [Write.apply, h, AList.lookup_insert_ne h]

@[simp] theorem lookup_booking_write (id : BookingId) (row : Booking) (b : BookingId) :
    ((Write.booking id row).apply d).bookings.lookup b =
      if b = id then some row else d.bookings.lookup b := by
  by_cases h : b = id
  · subst h; simp [Write.apply]
  · simp [Write.apply, h, AList.lookup_insert_ne h]

@[simp] theorem lookup_reminder_write (b : BookingId) (offset : Nat) (row : ReminderJob)
    (k : BookingId × Nat) :
    ((Write.reminder b offset row).apply d).reminderJobs.lookup k =
      if k = (b, offset) then some row else d.reminderJobs.lookup k := by
  by_cases h : k = (b, offset)
  · subst h; simp [Write.apply]
  · simp [Write.apply, h, AList.lookup_insert_ne h]

@[simp] theorem lookup_key_write (c : ClientId) (key : String) (row : IdempotencyKey)
    (k : ClientId × String) :
    ((Write.key c key row).apply d).idempotencyKeys.lookup k =
      if k = (c, key) then some row else d.idempotencyKeys.lookup k := by
  by_cases h : k = (c, key)
  · subst h; simp [Write.apply]
  · simp [Write.apply, h, AList.lookup_insert_ne h]

@[simp] theorem lookup_cancelReminders_write (b : BookingId) (k : BookingId × Nat) :
    ((Write.cancelReminders b).apply d).reminderJobs.lookup k =
      (d.reminderJobs.lookup k).map fun r => if k.1 = b then r.cancel else r := by
  simp [Write.apply, lookup_updateWhere]

@[simp] theorem lookup_cancelPendingReminders_write (b : BookingId) (k : BookingId × Nat) :
    ((Write.cancelPendingReminders b).apply d).reminderJobs.lookup k =
      (d.reminderJobs.lookup k).map fun r => if k.1 = b ∧ r.pending then r.cancel else r := by
  simp [Write.apply, lookup_updateWhere]

/-- The tables a write is not about stay as they are. -/
theorem slots_write (w : Write) (h : ∀ id row, w ≠ .slot id row) : (w.apply d).slots = d.slots := by
  cases w with
  | slot id row => exact absurd rfl (h id row)
  | _ => rfl

theorem bookings_write (w : Write) (h : ∀ id row, w ≠ .booking id row) :
    (w.apply d).bookings = d.bookings := by
  cases w with
  | booking id row => exact absurd rfl (h id row)
  | _ => rfl

theorem idempotencyKeys_write (w : Write) (h : ∀ c k row, w ≠ .key c k row) :
    (w.apply d).idempotencyKeys = d.idempotencyKeys := by
  cases w with
  | key c k row => exact absurd rfl (h c k row)
  | _ => rfl

/-- What a list of writes to reminder rows leaves alone. -/
structure SameBut (d d' : Database) : Prop where
  slots : d'.slots = d.slots
  bookings : d'.bookings = d.bookings
  idempotencyKeys : d'.idempotencyKeys = d.idempotencyKeys

theorem sameBut_apply {b : BookingId} {ws : List Write} (h : ∀ w ∈ ws, w.OnReminders b) :
    SameBut d ((chronos cat).apply ws d) := by
  induction ws generalizing d with
  | nil => exact ⟨rfl, rfl, rfl⟩
  | cons w ws ih =>
    obtain ⟨hs, hb, hk⟩ := ih (d := w.apply d) fun w' hw' => h w' (List.mem_cons_of_mem _ hw')
    have hw := h w List.mem_cons_self
    refine ⟨hs.trans (slots_write w ?_), hb.trans (bookings_write w ?_),
      hk.trans (idempotencyKeys_write w ?_)⟩
    · rintro id row rfl; exact hw
    · rintro id row rfl; exact hw
    · rintro c key row rfl; exact hw

theorem bookings_openSlotWrites (d d' : Database) (id : SlotId) :
    ((chronos cat).apply (openSlotWrites d id) d').bookings = d'.bookings := by
  unfold openSlotWrites
  split <;> rfl

theorem idempotencyKeys_openSlotWrites (d d' : Database) (id : SlotId) :
    ((chronos cat).apply (openSlotWrites d id) d').idempotencyKeys = d'.idempotencyKeys := by
  unfold openSlotWrites
  split <;> rfl

/-- The slots after `UPDATE slots SET status = 'open' WHERE id = $1`. -/
theorem lookup_slot_openSlotWrites (h : d'.slots = d.slots) (s id : SlotId) :
    ((chronos cat).apply (openSlotWrites d id) d').slots.lookup s =
      if s = id then (d.slots.lookup id).map fun slot => { slot with status := .«open» }
      else d.slots.lookup s := by
  unfold openSlotWrites
  cases hid : d.slots.lookup id with
  | none =>
    by_cases hs : s = id
    · subst hs; simp [h, hid]
    · simp [hs, h]
  | some slot =>
    change ((Write.slot id { slot with status := .«open» }).apply d').slots.lookup s = _
    rw [lookup_slot_write, h]
    rfl

/-- Live bookings after a booking row is written. -/
theorem liveOn_booking_write (id : BookingId) (row : Booking) (s : SlotId) (i : BookingId) :
    ((Write.booking id row).apply d).LiveOn s i ↔
      (i = id ∧ row.live = true ∧ row.slotId = s) ∨ (i ≠ id ∧ d.LiveOn s i) := by
  simp only [Database.LiveOn, lookup_booking_write]
  by_cases h : i = id
  · subst h; simp
  · simp [h]

theorem liveOn_of_bookings (h : d'.bookings = d.bookings) (s : SlotId) (i : BookingId) :
    d'.LiveOn s i ↔ d.LiveOn s i := by
  simp only [Database.LiveOn, h]

theorem liveOn_write (w : Write) (h : ∀ id row, w ≠ .booking id row) (s : SlotId) :
    (w.apply d).LiveOn s = d.LiveOn s := by
  funext i
  simp only [Database.LiveOn, bookings_write w h]

/-! ### The law of the engine -/

/-- A write of something else leaves what a lock protects as it is. -/
theorem value_write_of_ne (w : Write) (k : Lock)
    (hslot : ∀ id row, w = .slot id row → k ≠ .slot id)
    (hbooking : ∀ id row, w = .booking id row → k ≠ .booking id ∧
      (row.live = true → k ≠ .live row.slotId) ∧
      ∀ old, d.bookings.lookup id = some old → old.live = true → k ≠ .live old.slotId)
    (hreminder : ∀ b, (∃ offset row, w = .reminder b offset row) ∨ w = .cancelReminders b ∨
      w = .cancelPendingReminders b → k ≠ .reminders b)
    (hkey : ∀ c key row, w = .key c key row → k ≠ .key c key) :
    value k (w.apply d) = value k d := by
  cases k with
  | slot s =>
    simp only [value]
    by_cases h : ∃ id row, w = .slot id row
    · obtain ⟨id, row, rfl⟩ := h
      have hne : s ≠ id := fun h => hslot id row rfl (by rw [h])
      simp [hne]
    · rw [slots_write w fun id row hw => h ⟨id, row, hw⟩]
  | booking b =>
    simp only [value]
    by_cases h : ∃ id row, w = .booking id row
    · obtain ⟨id, row, rfl⟩ := h
      have hne : b ≠ id := fun h => (hbooking id row rfl).1 (by rw [h])
      simp [hne]
    · rw [bookings_write w fun id row hw => h ⟨id, row, hw⟩]
  | live s =>
    simp only [value]
    by_cases h : ∃ id row, w = .booking id row
    · obtain ⟨id, row, rfl⟩ := h
      -- The entry changes only with a booking that is live on the slot, before or after.
      obtain ⟨-, hnew, hold⟩ := hbooking id row rfl
      funext i
      rw [liveOn_booking_write, eq_iff_iff]
      constructor
      · rintro (⟨-, hl, hs⟩ | ⟨-, hi⟩)
        · exact absurd (by rw [hs]) (hnew hl)
        · exact hi
      · intro hi
        refine Or.inr ⟨?_, hi⟩
        rintro rfl
        obtain ⟨old, ho, hl, hs⟩ := hi
        exact hold old ho hl (by rw [hs])
    · rw [liveOn_write w fun id row hw => h ⟨id, row, hw⟩]
  | reminders b =>
    simp only [value]
    funext offset
    cases w with
    | reminder b' offset' row =>
      have hne : b ≠ b' := fun h => hreminder b' (Or.inl ⟨_, _, rfl⟩) (by rw [h])
      simp [hne]
    | cancelReminders b' =>
      have hne : b ≠ b' := fun h => hreminder b' (Or.inr (Or.inl rfl)) (by rw [h])
      simp [hne]
    | cancelPendingReminders b' =>
      have hne : b ≠ b' := fun h => hreminder b' (Or.inr (Or.inr rfl)) (by rw [h])
      simp [hne]
    | _ => rfl
  | key c key =>
    simp only [value]
    by_cases h : ∃ c' key' row, w = .key c' key' row
    · obtain ⟨c', key', row, rfl⟩ := h
      have hne : ¬(c = c' ∧ key = key') := by
        rintro ⟨rfl, rfl⟩
        exact hkey _ _ row rfl rfl
      simp [hne]
    · rw [idempotencyKeys_write w fun c' key' row hw => h ⟨c', key', row, hw⟩]

/-- A write changes what a lock protects in a way that depends on nothing else. -/
theorem value_write_congr (w : Write) (k : Lock) (h : value k d = value k d') :
    value k (w.apply d) = value k (w.apply d') := by
  cases k with
  | slot s =>
    simp only [value] at h ⊢
    cases w with
    | slot id row => simp only [lookup_slot_write, h]
    | _ => exact h
  | booking b =>
    simp only [value] at h ⊢
    cases w with
    | booking id row => simp only [lookup_booking_write, h]
    | _ => exact h
  | live s =>
    simp only [value] at h ⊢
    cases w with
    | booking id row =>
      funext i
      rw [liveOn_booking_write, liveOn_booking_write, h]
    | _ => exact h
  | reminders b =>
    simp only [value] at h ⊢
    funext offset
    have ho := congrFun h offset
    cases w with
    | reminder b' offset' row => simp only [lookup_reminder_write, ho]
    | cancelReminders b' => simp only [lookup_cancelReminders_write, ho]
    | cancelPendingReminders b' => simp only [lookup_cancelPendingReminders_write, ho]
    | _ => exact ho
  | key c key =>
    simp only [value] at h ⊢
    cases w with
    | key c' key' row => simp only [lookup_key_write, h]
    | _ => exact h

/-! #### Writes whose locks are known -/

theorem value_slot_write {id : SlotId} {row : Slot} {k : Lock} (h : k ≠ .slot id) :
    value k ((Write.slot id row).apply d) = value k d :=
  value_write_of_ne _ k (fun _ _ hw => by cases hw; exact h) (fun _ _ hw => by cases hw)
    (fun _ hw => by simp at hw) (fun _ _ _ hw => by cases hw)

theorem value_booking_write {id : BookingId} {row : Booking} {k : Lock} (h : k ≠ .booking id)
    (hnew : row.live = true → k ≠ .live row.slotId)
    (hold : ∀ old, d.bookings.lookup id = some old → old.live = true → k ≠ .live old.slotId) :
    value k ((Write.booking id row).apply d) = value k d :=
  value_write_of_ne _ k (fun _ _ hw => by cases hw)
    (fun _ _ hw => by cases hw; exact ⟨h, hnew, hold⟩)
    (fun _ hw => by simp at hw) (fun _ _ _ hw => by cases hw)

theorem value_reminders_write {b : BookingId} {w : Write} {k : Lock} (h : k ≠ .reminders b)
    (hw : w.OnReminders b) : value k ((chronos cat).apply [w] d) = value k d := by
  change value k (w.apply d) = value k d
  refine value_write_of_ne _ k ?_ ?_ ?_ ?_
  · rintro id row rfl; exact hw.elim
  · rintro id row rfl; exact hw.elim
  · intro b' hb'
    have hb : b' = b := by
      rcases hb' with ⟨o, r, rfl⟩ | rfl | rfl <;> exact hw
    exact hb ▸ h
  · rintro c key row rfl; exact hw.elim

theorem value_key_write {c : ClientId} {key : String} {row : IdempotencyKey} {k : Lock}
    (h : k ≠ .key c key) : value k ((Write.key c key row).apply d) = value k d :=
  value_write_of_ne _ k (fun _ _ hw => by cases hw) (fun _ _ hw => by cases hw)
    (fun _ hw => by simp at hw) (fun _ _ _ hw => by cases hw; exact h)

/-! ### What the statements answer and write -/

theorem read_ok {R : Type} {r₀ r : R} {ws : List Write}
    (h : (read r₀).result = .ok (r, ws)) : r = r₀ ∧ ws = [] := by
  simp only [read, Except.ok.injEq, Prod.mk.injEq] at h
  exact ⟨h.1.symm, h.2.symm⟩

/-- `SELECT … FOR UPDATE` reads what `SELECT` reads. -/
theorem exec_selectBookingForUpdate (id : BookingId) (o : Nat) :
    (exec cat (.selectBookingForUpdate id) o d).result = .ok (d.bookings.lookup id, []) := by
  cases hrow : d.bookings.lookup id <;> simp [exec, hrow, read]

/-- `UPDATE slots … WHERE … RETURNING`: no row, or the row it found, changed and locked. -/
theorem updateSlotWhere_ok {id : SlotId} {p : Slot → Bool} {status : SlotStatus}
    {r : Option Slot} {ws : List Write}
    (h : (updateSlotWhere id p status d).result = .ok (r, ws)) :
    (r = none ∧ ws = [] ∧ (d.slots.lookup id).filter p = none) ∨
      ∃ row, d.slots.lookup id = some row ∧ p row = true ∧
        r = some { row with status := status } ∧
        ws = [.slot id { row with status := status }] ∧
        (updateSlotWhere id p status d).locks = [.slot id] := by
  unfold updateSlotWhere at h ⊢
  cases hf : (d.slots.lookup id).filter p with
  | none =>
    rw [hf] at h
    obtain ⟨hr, hws⟩ := read_ok h
    exact Or.inl ⟨hr, hws, rfl⟩
  | some row =>
    rw [hf] at h
    simp only [Except.ok.injEq, Prod.mk.injEq] at h
    obtain ⟨hrow, hp⟩ := Option.filter_eq_some_iff.mp hf
    exact Or.inr ⟨row, hrow, hp, h.1.symm, h.2.symm, rfl⟩

/-- A new version of a booking is refused where another live booking is on the slot. -/
theorem writeBooking_ok {R : Type} {id : BookingId} {old new : Booking} {r₀ r : R}
    {ws : List Write} (h : (writeBooking id old new r₀ d).result = .ok (r, ws)) :
    r = r₀ ∧ ws = [.booking id new] ∧
      (old.live = false → new.live = true → d.otherLive new.slotId (some id) = false) := by
  simp only [writeBooking] at h
  split at h
  · cases h
  · next hc =>
    simp only [Except.ok.injEq, Prod.mk.injEq] at h
    refine ⟨h.1.symm, h.2.symm, fun ho hn => ?_⟩
    simpa [ho, hn] using hc

section
-- Generates the equations of `exec` here, once; else each proof below waits for another to do it.
attribute [local simp] exec
end

theorem insertBooking_ok {row : Booking} {fresh : Nat} {r : BookingId} {ws : List Write}
    (h : (exec cat (.insertBooking row) fresh d).result = .ok (r, ws)) :
    r = fresh ∧ ws = [.booking fresh row] ∧ d.bookings.lookup fresh = none ∧
      (row.live = true → d.otherLive row.slotId none = false) ∧
      (d.slots.lookup row.slotId).isSome ∧ cat.clients row.clientId = true := by
  simp only [exec] at h
  split at h
  · cases h
  · next h1 =>
    split at h
    · cases h
    · next h2 =>
      split at h
      · cases h
      · next h3 =>
        split at h
        · cases h
        · next h4 =>
          simp only [Except.ok.injEq, Prod.mk.injEq] at h
          refine ⟨h.1.symm, h.2.symm, by simpa using h1, fun hl => by simpa [hl] using h2, ?_, ?_⟩
          · exact Option.isSome_iff_ne_none.mpr (by simpa using h3)
          · simpa using h4

theorem insertReminder_ok {b : BookingId} {offset : Nat} {fireAt : Instant} {fresh : Nat}
    {r : Unit} {ws : List Write}
    (h : (exec cat (.insertReminder b offset fireAt) fresh d).result = .ok (r, ws)) :
    ws = [.reminder b offset ⟨fireAt, .scheduled, none⟩] ∧
      d.reminderJobs.lookup (b, offset) = none ∧ (d.bookings.lookup b).isSome := by
  simp only [exec] at h
  split at h
  · cases h
  · next h1 =>
    split at h
    · cases h
    · next h2 =>
      simp only [Except.ok.injEq, Prod.mk.injEq] at h
      exact ⟨h.2.symm, by simpa using h1, Option.isSome_iff_ne_none.mpr (by simpa using h2)⟩

theorem insertKey_ok {c : ClientId} {key : String} {row : IdempotencyKey} {fresh : Nat}
    {r : Unit} {ws : List Write}
    (h : (exec cat (.insertKey c key row) fresh d).result = .ok (r, ws)) :
    ws = [.key c key row] ∧ d.idempotencyKeys.lookup (c, key) = none ∧
      cat.clients c = true := by
  simp only [exec] at h
  split at h
  · cases h
  · next h1 =>
    split at h
    · cases h
    · next h2 =>
      simp only [Except.ok.injEq, Prod.mk.injEq] at h
      exact ⟨h.2.symm, by simpa using h1, by simpa using h2⟩

theorem selectBookingForUpdate_ok {id : BookingId} {fresh : Nat} {r : Option Booking}
    {ws : List Write}
    (h : (exec cat (.selectBookingForUpdate id) fresh d).result = .ok (r, ws)) :
    r = d.bookings.lookup id ∧ ws = [] := by
  simp only [exec] at h
  split at h
  · next hl =>
    obtain ⟨hr, hws⟩ := read_ok h
    exact ⟨by rw [hr, hl], hws⟩
  · next row hl =>
    simp only [Except.ok.injEq, Prod.mk.injEq] at h
    exact ⟨by rw [← h.1, hl], h.2.symm⟩

theorem openSlot_ok {id : SlotId} {fresh : Nat} {r : Unit} {ws : List Write}
    (h : (exec cat (.openSlot id) fresh d).result = .ok (r, ws)) : ws = openSlotWrites d id := by
  simp only [exec, Except.ok.injEq, Prod.mk.injEq] at h
  exact h.2.symm

theorem value_openSlotWrites {id : SlotId} {k : Lock} (h : k ≠ .slot id) :
    value k ((chronos cat).apply (openSlotWrites d id) d) = value k d := by
  unfold openSlotWrites
  split
  · rfl
  · exact value_slot_write h

theorem cancelBookingRow_ok {id : BookingId} {fresh : Nat} {r : Unit} {ws : List Write}
    (h : (exec cat (.cancelBookingRow id) fresh d).result = .ok (r, ws)) :
    (ws = [] ∧ d.bookings.lookup id = none) ∨
      ∃ row, d.bookings.lookup id = some row ∧
        ws = [.booking id { row with status := .cancelled }] := by
  simp only [exec] at h
  split at h
  · next hl =>
    simp only [Except.ok.injEq, Prod.mk.injEq] at h
    exact Or.inl ⟨h.2.symm, hl⟩
  · next row hl => exact Or.inr ⟨row, hl, (writeBooking_ok h).2.1⟩

theorem setBookingStatus_ok {id : BookingId} {text : String} {fresh : Nat} {r : Unit}
    {ws : List Write}
    (h : (exec cat (.setBookingStatus id text) fresh d).result = .ok (r, ws)) :
    (ws = [] ∧ d.bookings.lookup id = none) ∨
      ∃ row status, d.bookings.lookup id = some row ∧ BookingStatus.ofText? text = some status ∧
        ws = [.booking id { row with status := status, version := row.version + 1 }] ∧
        (row.live = false → status ≠ .cancelled → d.otherLive row.slotId (some id) = false) := by
  simp only [exec] at h
  split at h
  · next hl =>
    simp only [Except.ok.injEq, Prod.mk.injEq] at h
    exact Or.inl ⟨h.2.symm, hl⟩
  · next row hl =>
    split at h
    · cases h
    · next status hs =>
      obtain ⟨-, hws, hother⟩ := writeBooking_ok h
      exact Or.inr ⟨row, status, hl, hs, hws, fun ho hn => hother ho (by simpa [Booking.live] using hn)⟩

theorem updateBooking_ok {id : BookingId} {status : BookingStatus} {version : Int} {fresh : Nat}
    {r : Booking} {ws : List Write}
    (h : (exec cat (.updateBooking id status version) fresh d).result = .ok (r, ws)) :
    ∃ row, d.bookings.lookup id = some row ∧
      ws = [.booking id { row with status := status, version := version }] := by
  simp only [exec] at h
  split at h
  · cases h
  · next row hl => exact ⟨row, hl, (writeBooking_ok h).2.1⟩

theorem updateSlot_ok {id : SlotId} {status : SlotStatus} {fresh : Nat} {r : Unit}
    {ws : List Write}
    (h : (exec cat (.updateSlot id status) fresh d).result = .ok (r, ws)) :
    ∃ row, d.slots.lookup id = some row ∧ ws = [.slot id { row with status := status }] := by
  simp only [exec] at h
  split at h
  · cases h
  · next row hl =>
    simp only [Except.ok.injEq, Prod.mk.injEq] at h
    exact ⟨row, hl, h.2.symm⟩

/-- The `UPDATE`s of single reminder rows outside transactions. -/
theorem skipReminder_ok {b : BookingId} {offset : Nat} {fresh : Nat} {r : Unit}
    {ws : List Write}
    (h : (exec cat (.skipReminder b offset) fresh d).result = .ok (r, ws)) :
    ws = [] ∨ ∃ row, d.reminderJobs.lookup (b, offset) = some row ∧ row.status = .scheduled ∧
      ws = [.reminder b offset { row with status := .skipped }] := by
  simp only [exec] at h
  split at h
  · exact Or.inl (read_ok h).2
  · next row hl =>
    simp only [Except.ok.injEq, Prod.mk.injEq] at h
    obtain ⟨hrow, hp⟩ := Option.filter_eq_some_iff.mp hl
    exact Or.inr ⟨row, hrow, by simpa [ReminderJob.scheduled] using hp, h.2.symm⟩

/-- `UPDATE reminder_jobs … WHERE id = $1 AND p`: no row, or the row it found, changed. -/
theorem updateReminderWhere_ok {R : Type} {id : ReminderId} {p : ReminderJob → Bool}
    {f : ReminderJob → ReminderJob} {answer : Option ReminderJob → R} {r : R} {ws : List Write}
    (h : (updateReminderWhere id p f answer d).result = .ok (r, ws)) :
    (r = answer none ∧ ws = [] ∧ (d.reminderJobs.lookup id).filter p = none) ∨
      ∃ row, d.reminderJobs.lookup id = some row ∧ p row = true ∧ r = answer (some (f row)) ∧
        ws = [.reminder id.1 id.2 (f row)] ∧
        (updateReminderWhere id p f answer d).locks = [.reminders id.1] := by
  unfold updateReminderWhere at h ⊢
  cases hf : (d.reminderJobs.lookup id).filter p with
  | none =>
    rw [hf] at h
    obtain ⟨hr, hws⟩ := read_ok h
    exact Or.inl ⟨hr, hws, rfl⟩
  | some row =>
    rw [hf] at h
    simp only [Except.ok.injEq, Prod.mk.injEq] at h
    obtain ⟨hrow, hp⟩ := Option.filter_eq_some_iff.mp hf
    exact Or.inr ⟨row, hrow, hp, h.1.symm, h.2.symm, rfl⟩

theorem mem_dueReminders {now : Instant} {e : Sigma fun _ : ReminderId => ReminderJob} :
    e ∈ d.dueReminders now ↔ d.reminderJobs.lookup e.1 = some e.2 ∧ e.2.due now = true := by
  obtain ⟨id, row⟩ := e
  have hmem : ⟨id, row⟩ ∈ d.reminderJobs.entries ↔ d.reminderJobs.lookup id = some row :=
    AList.mem_lookup_iff.symm
  simp only [Database.dueReminders, List.mem_mergeSort, List.mem_filter, hmem]

/-- `claimDue` claims a due reminder, if it claims one. -/
theorem claimDue_ok {now lockedUntil : Instant} {skipped : Nat}
    {r : Option (ReminderId × ReminderJob)} {ws : List Write}
    (h : (exec cat (.claimDue now lockedUntil) skipped d).result = .ok (r, ws)) :
    (r = none ∧ ws = []) ∨
      ∃ id row, d.reminderJobs.lookup id = some row ∧ row.due now = true ∧
        r = some (id, row.claim lockedUntil) ∧
        ws = [.reminder id.1 id.2 (row.claim lockedUntil)] ∧
        (exec cat (.claimDue now lockedUntil) skipped d).locks = [.reminders id.1] := by
  simp only [exec] at h ⊢
  cases he : (d.dueReminders now)[skipped]? with
  | none =>
    rw [he] at h
    exact Or.inl (read_ok h)
  | some e =>
    rw [he] at h
    simp only [Except.ok.injEq, Prod.mk.injEq] at h
    obtain ⟨hrow, hdue⟩ := mem_dueReminders.mp (List.mem_of_getElem? he)
    exact Or.inr ⟨e.1, e.2, hrow, hdue, h.1.symm, h.2.symm, rfl⟩

/-- `UPDATE reminder_jobs SET status = … WHERE id = $1`: no row, or the row with a status that
    the `CHECK` admits. -/
theorem setReminderStatus_ok {id : ReminderId} {text : String} {fresh : Nat} {r : Unit}
    {ws : List Write}
    (h : (exec cat (.setReminderStatus id text) fresh d).result = .ok (r, ws)) :
    (ws = [] ∧ d.reminderJobs.lookup id = none) ∨
      ∃ row status, d.reminderJobs.lookup id = some row ∧
        ReminderJobStatus.ofText? text = some status ∧
        ws = [.reminder id.1 id.2 { row with status := status }] ∧
        (exec cat (.setReminderStatus id text) fresh d).locks = [.reminders id.1] := by
  simp only [exec] at h ⊢
  cases hrow : d.reminderJobs.lookup id with
  | none =>
    rw [hrow] at h
    exact Or.inl ⟨(read_ok h).2, rfl⟩
  | some row =>
    rw [hrow] at h
    cases hs : ReminderJobStatus.ofText? text with
    | none => rw [hs] at h; cases h
    | some status =>
      rw [hs] at h
      simp only [Except.ok.injEq, Prod.mk.injEq] at h
      exact Or.inr ⟨row, status, rfl, rfl, h.2.symm, rfl⟩

/-- `INSERT INTO slots … ON CONFLICT DO NOTHING`: nothing, or a new open slot. -/
theorem insertSlot_ok {p : ProviderId} {start finish : Instant} {fresh : Nat} {r : Unit}
    {ws : List Write}
    (h : (exec cat (.insertSlot p start finish) fresh d).result = .ok (r, ws)) :
    ws = [] ∨ d.slots.lookup fresh = none ∧ ws = [.slot fresh ⟨p, start, finish, .«open»⟩] := by
  simp only [exec] at h
  split at h
  · cases h
  · split at h
    · simp only [Except.ok.injEq, Prod.mk.injEq] at h
      exact Or.inl h.2.symm
    · next hconflict =>
      split at h
      · cases h
      · simp only [Except.ok.injEq, Prod.mk.injEq] at h
        simp only [Bool.or_eq_true, not_or] at hconflict
        exact Or.inr ⟨by simpa using hconflict.1, h.2.symm⟩

/-- What a statement may write on `d`: every write is the new version of a row it has found
    there, a new row, or a change of all reminder rows of a booking. -/
inductive Written (s : Stmt) (fresh : Nat) (d : Database) : Write → Prop
  | slot {id row status} : d.slots.lookup id = some row →
      Written s fresh d (.slot id { row with status := status })
  | insertSlot {p start finish} : s = .insertSlot p start finish → d.slots.lookup fresh = none →
      Written s fresh d (.slot fresh ⟨p, start, finish, .«open»⟩)
  | booking {id row status version} : d.bookings.lookup id = some row →
      Written s fresh d (.booking id { row with status := status, version := version })
  | insertBooking {row} : s = .insertBooking row → d.bookings.lookup fresh = none →
      (d.slots.lookup row.slotId).isSome → Written s fresh d (.booking fresh row)
  | insertReminder {b offset fireAt} : s = .insertReminder b offset fireAt →
      d.reminderJobs.lookup (b, offset) = none → (d.bookings.lookup b).isSome →
      Written s fresh d (.reminder b offset ⟨fireAt, .scheduled, none⟩)
  | cancelReminders {b} : s = .cancelReminders b → Written s fresh d (.cancelReminders b)
  | cancelPendingReminders {b} : s = .cancelPendingReminders (some b) →
      Written s fresh d (.cancelPendingReminders b)
  | skipReminder {b offset row} : s = .skipReminder b offset →
      d.reminderJobs.lookup (b, offset) = some row → row.status = .scheduled →
      Written s fresh d (.reminder b offset { row with status := .skipped })
  | cancelPendingReminder {id row} : s = .cancelPendingReminder id →
      d.reminderJobs.lookup id = some row → row.pending = true →
      Written s fresh d (.reminder id.1 id.2 row.cancel)
  | claimReminder {id row lockedUntil} : s = .claimReminder id lockedUntil →
      d.reminderJobs.lookup id = some row → row.status = .scheduled →
      Written s fresh d (.reminder id.1 id.2 (row.claim lockedUntil))
  | claimDue {id row now lockedUntil} : s = .claimDue now lockedUntil →
      d.reminderJobs.lookup id = some row → row.due now = true →
      Written s fresh d (.reminder id.1 id.2 (row.claim lockedUntil))
  | setReminderStatus {id row text status} : s = .setReminderStatus id text →
      d.reminderJobs.lookup id = some row → ReminderJobStatus.ofText? text = some status →
      Written s fresh d (.reminder id.1 id.2 { row with status := status })
  | key {c key row} : s = .insertKey c key row → Written s fresh d (.key c key row)

theorem written_updateSlotWhere {s : Stmt} {o : Nat} {id : SlotId} {p : Slot → Bool}
    {status : SlotStatus} {r : Option Slot} {ws : List Write}
    (h : (updateSlotWhere id p status d).result = .ok (r, ws)) :
    ws = [] ∨ ∃ w, ws = [w] ∧ Written s o d w := by
  rcases updateSlotWhere_ok h with ⟨-, hws, -⟩ | ⟨row, hrow, -, -, hws, -⟩
  · exact Or.inl hws
  · exact Or.inr ⟨_, hws, .slot hrow⟩

/-- **What the statements write**: at most one thing each. -/
theorem exec_written {s : Stmt} {o : Nat} {r : s.Rows} {ws : List Write}
    (h : (exec cat s o d).result = .ok (r, ws)) :
    ws = [] ∨ ∃ w, ws = [w] ∧ Written s o d w := by
  have hread : ∀ r₀, (read r₀ : Outcome s.Rows Write Lock JsError).result = .ok (r, ws) →
      ws = [] ∨ ∃ w, ws = [w] ∧ Written s o d w := fun r₀ hr => Or.inl (read_ok hr).2
  cases s with
  | bookSlot id now minStart => exact written_updateSlotWhere h
  | takeSlot id now => exact written_updateSlotWhere h
  | openSlot id =>
    have hws := openSlot_ok h
    unfold openSlotWrites at hws
    split at hws
    · exact Or.inl hws
    · next row hrow => exact Or.inr ⟨_, hws, .slot hrow⟩
  | updateSlot id status =>
    obtain ⟨row, hrow, hws⟩ := updateSlot_ok h
    exact Or.inr ⟨_, hws, .slot hrow⟩
  | insertBooking row =>
    obtain ⟨-, hws, hfresh, -, hslot, -⟩ := insertBooking_ok h
    exact Or.inr ⟨_, hws, .insertBooking rfl hfresh hslot⟩
  | cancelBookingRow id =>
    rcases cancelBookingRow_ok h with ⟨hws, -⟩ | ⟨row, hrow, hws⟩
    · exact Or.inl hws
    · exact Or.inr ⟨_, hws, .booking hrow⟩
  | setBookingStatus id text =>
    rcases setBookingStatus_ok h with ⟨hws, -⟩ | ⟨row, status, hrow, -, hws, -⟩
    · exact Or.inl hws
    · exact Or.inr ⟨_, hws, .booking hrow⟩
  | updateBooking id status version =>
    obtain ⟨row, hrow, hws⟩ := updateBooking_ok h
    exact Or.inr ⟨_, hws, .booking hrow⟩
  | insertReminder b offset fireAt =>
    obtain ⟨hws, hnone, hbooking⟩ := insertReminder_ok h
    exact Or.inr ⟨_, hws, .insertReminder rfl hnone hbooking⟩
  | cancelReminders b =>
    simp only [exec, Except.ok.injEq, Prod.mk.injEq] at h
    exact Or.inr ⟨_, h.2.symm, .cancelReminders rfl⟩
  | skipReminder b offset =>
    rcases skipReminder_ok h with hws | ⟨row, hrow, hs, hws⟩
    · exact Or.inl hws
    · exact Or.inr ⟨_, hws, .skipReminder rfl hrow hs⟩
  | cancelPendingReminders b =>
    cases b with
    | none => exact hread _ h
    | some b =>
      simp only [exec, Except.ok.injEq, Prod.mk.injEq] at h
      exact Or.inr ⟨_, h.2.symm, .cancelPendingReminders rfl⟩
  | insertKey c key row =>
    obtain ⟨hws, -⟩ := insertKey_ok h
    exact Or.inr ⟨_, hws, .key rfl⟩
  | selectBookingForUpdate id => exact Or.inl (selectBookingForUpdate_ok h).2
  | cancelPendingReminder id =>
    rcases updateReminderWhere_ok h with ⟨-, hws, -⟩ | ⟨row, hrow, hp, -, hws, -⟩
    · exact Or.inl hws
    · exact Or.inr ⟨_, hws, .cancelPendingReminder rfl hrow hp⟩
  | claimReminder id lockedUntil =>
    rcases updateReminderWhere_ok h with ⟨-, hws, -⟩ | ⟨row, hrow, hp, -, hws, -⟩
    · exact Or.inl hws
    · have hs : row.status = .scheduled := by simpa [ReminderJob.scheduled] using hp
      exact Or.inr ⟨_, hws, .claimReminder rfl hrow hs⟩
  | claimDue now lockedUntil =>
    rcases claimDue_ok h with ⟨-, hws⟩ | ⟨id, row, hrow, hdue, -, hws, -⟩
    · exact Or.inl hws
    · exact Or.inr ⟨_, hws, .claimDue rfl hrow hdue⟩
  | setReminderStatus id text =>
    rcases setReminderStatus_ok h with ⟨hws, -⟩ | ⟨row, status, hrow, htext, hws, -⟩
    · exact Or.inl hws
    · exact Or.inr ⟨_, hws, .setReminderStatus rfl hrow htext⟩
  | insertSlot p start finish =>
    rcases insertSlot_ok h with hws | ⟨hfresh, hws⟩
    · exact Or.inl hws
    · exact Or.inr ⟨_, hws, .insertSlot rfl hfresh⟩
  | insertSlotBatch p slots => cases h
  -- A query writes nothing, and neither does one whose parameter is missing.
  | selectPendingReminders b => cases b <;> exact hread _ h
  | selectProvider id => cases id <;> exact hread _ h
  | _ => exact hread _ h

/-- The row a write changes, or the reminder rows of a booking. -/
def Write.rowLock : Write → List Lock
  | .slot id _ => [.slot id]
  | .booking id _ => [.booking id]
  | .reminder b _ _ => [.reminders b]
  | .cancelReminders b => [.reminders b]
  | .cancelPendingReminders b => [.reminders b]
  | .key c k _ => [.key c k]
  | _ => []

/-- The locks are those of the rows that are written. -/
theorem locks_of_row {ws : List Write} {locks : List Lock} {w : Write} (hws : ws = [w])
    (hlocks : ∀ k ∈ w.rowLock, k ∈ locks) : ∀ w ∈ ws, ∀ k ∈ w.rowLock, k ∈ locks := by
  subst hws
  intro w' hw'
  rw [List.mem_singleton.mp hw']
  exact hlocks

/-- **Statements lock the rows they write.** -/
theorem exec_locks {s : Stmt} {o : Nat} {r : s.Rows} {ws : List Write}
    (h : (exec cat s o d).result = .ok (r, ws)) :
    ∀ w ∈ ws, ∀ k ∈ w.rowLock, k ∈ (exec cat s o d).locks := by
  have hnone : ws = [] → ∀ w ∈ ws, ∀ k ∈ w.rowLock, k ∈ (exec cat s o d).locks := by
    rintro rfl w hw
    cases hw
  cases s with
  | bookSlot id now minStart =>
    rcases updateSlotWhere_ok h with ⟨-, hws, -⟩ | ⟨row, -, -, -, hws, hlocks⟩
    · exact hnone hws
    · exact locks_of_row hws fun k hk => hlocks ▸ hk
  | takeSlot id now =>
    rcases updateSlotWhere_ok h with ⟨-, hws, -⟩ | ⟨row, -, -, -, hws, hlocks⟩
    · exact hnone hws
    · exact locks_of_row hws fun k hk => hlocks ▸ hk
  | openSlot id =>
    have hws := openSlot_ok h
    unfold openSlotWrites at hws
    split at hws
    · exact hnone hws
    · exact locks_of_row hws fun k hk => hk
  | updateSlot id status =>
    obtain ⟨row, -, hws⟩ := updateSlot_ok h
    exact locks_of_row hws fun k hk => hk
  | insertBooking row =>
    obtain ⟨-, hws, -⟩ := insertBooking_ok h
    exact locks_of_row hws fun k hk => List.mem_cons.mpr (.inl (List.mem_singleton.mp hk))
  | cancelBookingRow id =>
    rcases cancelBookingRow_ok h with ⟨hws, -⟩ | ⟨row, hrow, hws⟩
    · exact hnone hws
    · exact locks_of_row hws (by simp [Write.rowLock, exec, hrow, writeBooking])
  | setBookingStatus id text =>
    rcases setBookingStatus_ok h with ⟨hws, -⟩ | ⟨row, status, hrow, htext, hws, -⟩
    · exact hnone hws
    · exact locks_of_row hws (by simp [Write.rowLock, exec, hrow, htext, writeBooking])
  | updateBooking id status version =>
    obtain ⟨row, hrow, hws⟩ := updateBooking_ok h
    exact locks_of_row hws (by simp [Write.rowLock, exec, hrow, writeBooking])
  | insertReminder b offset fireAt => exact locks_of_row (insertReminder_ok h).1 fun k hk => hk
  | cancelReminders b =>
    simp only [exec, Except.ok.injEq, Prod.mk.injEq] at h
    exact locks_of_row h.2.symm fun k hk => hk
  | skipReminder b offset =>
    rcases skipReminder_ok h with hws | ⟨row, hrow, hs, hws⟩
    · exact hnone hws
    · -- The statement looks for the row among the scheduled ones.
      have hfound : (d.reminderJobs.lookup (b, offset)).filter ReminderJob.scheduled = some row := by
        simp [hrow, ReminderJob.scheduled, hs]
      exact locks_of_row hws (by simp [Write.rowLock, exec, hfound])
  | cancelPendingReminders b =>
    cases b with
    | none => exact hnone (read_ok h).2
    | some b =>
      simp only [exec, Except.ok.injEq, Prod.mk.injEq] at h
      exact locks_of_row h.2.symm fun k hk => hk
  | insertKey c key row => exact locks_of_row (insertKey_ok h).1 fun k hk => hk
  | selectBookingForUpdate id => exact hnone (selectBookingForUpdate_ok h).2
  | cancelPendingReminder id =>
    rcases updateReminderWhere_ok h with ⟨-, hws, -⟩ | ⟨row, -, -, -, hws, hlocks⟩
    · exact hnone hws
    · exact locks_of_row hws fun k hk => hlocks ▸ hk
  | claimReminder id lockedUntil =>
    rcases updateReminderWhere_ok h with ⟨-, hws, -⟩ | ⟨row, -, -, -, hws, hlocks⟩
    · exact hnone hws
    · exact locks_of_row hws fun k hk => hlocks ▸ hk
  | claimDue now lockedUntil =>
    rcases claimDue_ok h with ⟨-, hws⟩ | ⟨id, row, -, -, -, hws, hlocks⟩
    · exact hnone hws
    · exact locks_of_row hws fun k hk => hlocks ▸ hk
  | setReminderStatus id text =>
    rcases setReminderStatus_ok h with ⟨hws, -⟩ | ⟨row, status, -, -, hws, hlocks⟩
    · exact hnone hws
    · exact locks_of_row hws fun k hk => hlocks ▸ hk
  | insertSlot p start finish =>
    rcases insertSlot_ok h with hws | ⟨-, hws⟩
    · exact hnone hws
    · exact locks_of_row hws fun k hk => hk
  | insertSlotBatch p slots => cases h
  | selectPendingReminders b =>
    cases b with
    | none => exact hnone (read_ok h).2
    | some b => exact hnone (read_ok h).2
  | selectProvider id =>
    cases id with
    | none => exact hnone (read_ok h).2
    | some id => exact hnone (read_ok h).2
  | _ => exact hnone (read_ok h).2

/-! ### Statements change what they lock -/

theorem frame_updateSlotWhere {id : SlotId} {p : Slot → Bool} {status : SlotStatus}
    {r : Option Slot} {ws : List Write}
    (h : (updateSlotWhere id p status d).result = .ok (r, ws)) {k : Lock}
    (hk : k ∉ (updateSlotWhere id p status d).locks) :
    value k ((chronos cat).apply ws d) = value k d := by
  rcases updateSlotWhere_ok h with ⟨-, rfl, -⟩ | ⟨row, -, -, -, rfl, hlocks⟩
  · rfl
  · rw [hlocks, List.mem_singleton] at hk
    exact value_slot_write hk

theorem frame_updateReminderWhere {R : Type} {id : ReminderId} {p : ReminderJob → Bool}
    {f : ReminderJob → ReminderJob} {answer : Option ReminderJob → R} {r : R} {ws : List Write}
    (h : (updateReminderWhere id p f answer d).result = .ok (r, ws)) {k : Lock}
    (hk : k ∉ (updateReminderWhere id p f answer d).locks) :
    value k ((chronos cat).apply ws d) = value k d := by
  rcases updateReminderWhere_ok h with ⟨-, rfl, -⟩ | ⟨row, -, -, -, rfl, hlocks⟩
  · rfl
  · rw [hlocks, List.mem_singleton] at hk
    exact value_reminders_write hk rfl

theorem frame_writeBooking {R : Type} {id : BookingId} {old new : Booking} {r₀ r : R}
    {ws : List Write} (hold : d.bookings.lookup id = some old) (hslot : new.slotId = old.slotId)
    (h : (writeBooking id old new r₀ d).result = .ok (r, ws)) {k : Lock}
    (hk : k ∉ (writeBooking id old new r₀ d).locks) :
    value k ((chronos cat).apply ws d) = value k d := by
  obtain ⟨-, rfl, -⟩ := writeBooking_ok h
  simp only [writeBooking, List.mem_cons, not_or] at hk
  obtain ⟨hid, hentries⟩ := hk
  refine value_booking_write hid (fun hl => ?_) (fun row hrow hl => ?_)
  · rw [hslot]
    rintro rfl
    simp [Booking.entries, hl] at hentries
  · rw [hold, Option.some.injEq] at hrow
    subst hrow
    rintro rfl
    simp [Booking.entries, hl] at hentries

/-- What other services keep is protected by no lock. -/
theorem value_noted (a : Ask) (x : a.Answer) (k : Lock) :
    value k ((chronos cat).apply (noted a x) d) = value k d := by
  unfold noted
  split <;> cases k <;> rfl

theorem frame_nil {ws : List Write} (hws : ws = []) {k : Lock} :
    value k ((chronos cat).apply ws d) = value k d := by
  rw [hws]
  rfl

/-- **Statements change what they lock and nothing else.** -/
theorem exec_frame {s : Stmt} {o : Nat} {r : s.Rows} {ws : List Write}
    (h : (exec cat s o d).result = .ok (r, ws)) {k : Lock} (hk : k ∉ (exec cat s o d).locks) :
    value k ((chronos cat).apply ws d) = value k d := by
  cases s with
  | bookSlot id now minStart => exact frame_updateSlotWhere h hk
  | takeSlot id now => exact frame_updateSlotWhere h hk
  | openSlot id =>
    simp only [exec, List.mem_singleton] at hk
    rw [openSlot_ok h]
    exact value_openSlotWrites hk
  | updateSlot id status =>
    simp only [exec, List.mem_singleton] at hk
    obtain ⟨row, -, rfl⟩ := updateSlot_ok h
    exact value_slot_write hk
  | insertBooking row =>
    simp only [exec, List.mem_cons, List.not_mem_nil, or_false, not_or] at hk
    obtain ⟨-, rfl, hfresh, -⟩ := insertBooking_ok h
    exact value_booking_write hk.1 (fun _ => hk.2) fun old ho => by rw [hfresh] at ho; cases ho
  -- A booking whose status changes keeps its slot, and with it its index entry.
  | cancelBookingRow id =>
    simp only [exec] at h hk
    split at h
    · next hl =>
      simp only [Except.ok.injEq, Prod.mk.injEq] at h
      rw [← h.2]
      rfl
    · next row hl =>
      rw [hl] at hk
      exact frame_writeBooking hl (by rfl) h hk
  | setBookingStatus id text =>
    simp only [exec] at h hk
    split at h
    · next hl =>
      simp only [Except.ok.injEq, Prod.mk.injEq] at h
      rw [← h.2]
      rfl
    · next row hl =>
      rw [hl] at hk
      split at h
      · cases h
      · next status hs =>
        simp only [hs] at hk
        exact frame_writeBooking hl (by rfl) h hk
  | updateBooking id status version =>
    simp only [exec] at h hk
    split at h
    · cases h
    · next row hl =>
      rw [hl] at hk
      exact frame_writeBooking hl (by rfl) h hk
  | insertReminder b offset fireAt =>
    simp only [exec, List.mem_singleton] at hk
    obtain ⟨rfl, -⟩ := insertReminder_ok h
    exact value_reminders_write hk rfl
  | cancelReminders b =>
    simp only [exec, List.mem_singleton, Except.ok.injEq, Prod.mk.injEq] at h hk
    rw [← h.2]
    exact value_reminders_write hk rfl
  | skipReminder b offset =>
    simp only [exec] at h hk
    split at h
    · rw [(read_ok h).2]
      rfl
    · next row hl =>
      simp only [hl, List.mem_singleton] at hk
      simp only [Except.ok.injEq, Prod.mk.injEq] at h
      rw [← h.2]
      exact value_reminders_write hk rfl
  | cancelPendingReminders b =>
    cases b with
    | none => exact frame_nil (read_ok h).2
    | some b =>
      simp only [exec, List.mem_singleton, Except.ok.injEq, Prod.mk.injEq] at h hk
      rw [← h.2]
      exact value_reminders_write hk rfl
  | insertKey c key row =>
    simp only [exec, List.mem_singleton] at hk
    obtain ⟨rfl, -⟩ := insertKey_ok h
    exact value_key_write hk
  | selectBookingForUpdate id => exact frame_nil (selectBookingForUpdate_ok h).2
  | cancelPendingReminder id => exact frame_updateReminderWhere h hk
  | claimReminder id lockedUntil => exact frame_updateReminderWhere h hk
  | claimDue now lockedUntil =>
    rcases claimDue_ok h with ⟨-, rfl⟩ | ⟨id, row, -, -, -, rfl, hlocks⟩
    · rfl
    · rw [hlocks, List.mem_singleton] at hk
      exact value_reminders_write hk rfl
  | setReminderStatus id text =>
    rcases setReminderStatus_ok h with ⟨rfl, -⟩ | ⟨row, status, -, -, rfl, hlocks⟩
    · rfl
    · rw [hlocks, List.mem_singleton] at hk
      exact value_reminders_write hk rfl
  | insertSlot p start finish =>
    simp only [exec, List.mem_singleton] at hk
    rcases insertSlot_ok h with rfl | ⟨-, rfl⟩
    · rfl
    · exact value_slot_write hk
  | insertSlotBatch p slots => cases h
  | selectPendingReminders b =>
    cases b with
    | none => exact frame_nil (read_ok h).2
    | some b => exact frame_nil (read_ok h).2
  | selectProvider id =>
    cases id with
    | none => exact frame_nil (read_ok h).2
    | some id => exact frame_nil (read_ok h).2
  | _ => exact frame_nil (read_ok h).2

/-- The engine abides by its locks. -/
theorem lawful (cat : Catalog) : Lawful (chronos cat) value where
  congr w k _ _ h := value_write_congr w k h
  note a x k _ := value_noted a x k
  frame _ _ _ _ _ h _ hk := exec_frame h hk

/-! ### Answers that are pinned by locks -/

/-- A condition on statements that what they lock decides. -/
def LocalTo (cat : Catalog) (adm : Stmt → Database → Prop) : Prop :=
  ∀ s o d d', Agree value (exec cat s o d).locks d d' → adm s d → adm s d'

theorem localTo_true (cat : Catalog) : LocalTo cat fun _ _ => True := fun _ _ _ _ _ _ => trivial

section Pinned

variable {adm : Stmt → Database → Prop} {held : List Lock} {o : Nat}

theorem pinned_of_exec (hadm : LocalTo cat adm) {s : Stmt}
    (h : ∀ d', Agree value (held ++ (exec cat s o d).locks) d d' →
      exec cat s o d' = exec cat s o d) : Pinned (chronos cat) value adm held s o d :=
  fun d' ha => ⟨h d' ha, hadm s o d d' fun k hk => ha k (List.mem_append_right _ hk)⟩

theorem updateSlotWhere_congr {id : SlotId} {p : Slot → Bool} {status : SlotStatus}
    (h : d.slots.lookup id = d'.slots.lookup id) :
    updateSlotWhere id p status d' = updateSlotWhere id p status d := by
  unfold updateSlotWhere
  rw [h]

theorem pinned_bookSlot (hadm : LocalTo cat adm) {id : SlotId} {now minStart : Instant}
    (h : .slot id ∈ (exec cat (.bookSlot id now minStart) o d).locks) :
    Pinned (chronos cat) value adm held (.bookSlot id now minStart) o d :=
  pinned_of_exec hadm fun _ ha => updateSlotWhere_congr (ha _ (List.mem_append_right _ h))

theorem pinned_takeSlot (hadm : LocalTo cat adm) {id : SlotId} {now : Instant}
    (h : .slot id ∈ (exec cat (.takeSlot id now) o d).locks) :
    Pinned (chronos cat) value adm held (.takeSlot id now) o d :=
  pinned_of_exec hadm fun _ ha => updateSlotWhere_congr (ha _ (List.mem_append_right _ h))

theorem pinned_openSlot (hadm : LocalTo cat adm) {id : SlotId} :
    Pinned (chronos cat) value adm held (.openSlot id) o d := by
  refine pinned_of_exec hadm fun d' ha => ?_
  have hid : d.slots.lookup id = d'.slots.lookup id := ha (.slot id) (by simp [exec])
  simp only [exec, openSlotWrites, hid]

theorem pinned_selectBookingForUpdate (hadm : LocalTo cat adm) {id : BookingId} {row : Booking}
    (h : d.bookings.lookup id = some row) :
    Pinned (chronos cat) value adm held (.selectBookingForUpdate id) o d := by
  refine pinned_of_exec hadm fun d' ha => ?_
  have hid : d.bookings.lookup id = d'.bookings.lookup id := ha (.booking id) (by simp [exec, h])
  simp only [exec, ← hid]

/-- Agreement on who is live on a slot decides whether somebody is. -/
theorem otherLive_congr {s : SlotId} {except : Option BookingId}
    (h : d.LiveOn s = d'.LiveOn s) : d'.otherLive s except = d.otherLive s except := by
  rw [Bool.eq_iff_iff, otherLive_iff, otherLive_iff, h]

theorem pinned_insertBooking (hadm : LocalTo cat adm) {row : Booking}
    (h : .slot row.slotId ∈ held) :
    Pinned (chronos cat) value adm held (.insertBooking row) o d := by
  refine pinned_of_exec hadm fun d' ha => ?_
  have hid : d.bookings.lookup o = d'.bookings.lookup o := ha (.booking o) (by simp [exec])
  have hlive : d.LiveOn row.slotId = d'.LiveOn row.slotId := ha (.live row.slotId) (by simp [exec])
  have hslot : d.slots.lookup row.slotId = d'.slots.lookup row.slotId :=
    ha (.slot row.slotId) (List.mem_append_left _ h)
  simp only [exec, ← hid, ← hslot, otherLive_congr hlive]

theorem pinned_cancelBookingRow (hadm : LocalTo cat adm) {id : BookingId} :
    Pinned (chronos cat) value adm held (.cancelBookingRow id) o d := by
  refine pinned_of_exec hadm fun d' ha => ?_
  have hid : d.bookings.lookup id = d'.bookings.lookup id := by
    refine ha (.booking id) (List.mem_append_right _ ?_)
    simp only [exec]
    split <;> simp [writeBooking]
  simp only [exec, ← hid]
  cases d.bookings.lookup id with
  | none => rfl
  | some row => simp [writeBooking, Booking.live]

theorem pinned_setBookingStatus (hadm : LocalTo cat adm) {id : BookingId} {text : String} :
    Pinned (chronos cat) value adm held (.setBookingStatus id text) o d := by
  refine pinned_of_exec hadm fun d' ha => ?_
  have hid : d.bookings.lookup id = d'.bookings.lookup id := by
    refine ha (.booking id) (List.mem_append_right _ ?_)
    simp only [exec]
    split
    · simp
    · split <;> simp [writeBooking]
  simp only [exec, ← hid]
  cases hl : d.bookings.lookup id with
  | none => rfl
  | some row =>
    cases hs : BookingStatus.ofText? text with
    | none => rfl
    | some status =>
      -- The index is read only where the booking enters it, and then it is locked.
      simp only [writeBooking]
      by_cases hnew : (decide (status ≠ .cancelled)) = true
      · have hlive : d.LiveOn row.slotId = d'.LiveOn row.slotId := by
          refine ha (.live row.slotId) (List.mem_append_right _ ?_)
          simp only [exec, hl, hs, writeBooking, Booking.entries]
          simp [Booking.live, hnew]
        simp only [otherLive_congr hlive]
      · simp [Booking.live, hnew]

theorem pinned_insertReminder (hadm : LocalTo cat adm) {b : BookingId} {offset : Nat}
    {fireAt : Instant} (h : .booking b ∈ held) :
    Pinned (chronos cat) value adm held (.insertReminder b offset fireAt) o d := by
  refine pinned_of_exec hadm fun d' ha => ?_
  have hrem : value (.reminders b) d = value (.reminders b) d' := ha (.reminders b) (by simp [exec])
  have hoff : d.reminderJobs.lookup (b, offset) = d'.reminderJobs.lookup (b, offset) :=
    congrFun hrem offset
  have hid : d.bookings.lookup b = d'.bookings.lookup b :=
    ha (.booking b) (List.mem_append_left _ h)
  simp only [exec, ← hoff, ← hid]

theorem pinned_cancelReminders (hadm : LocalTo cat adm) {b : BookingId} :
    Pinned (chronos cat) value adm held (.cancelReminders b) o d :=
  pinned_of_exec hadm fun _ _ => rfl

theorem pinned_insertKey (hadm : LocalTo cat adm) {c : ClientId} {key : String}
    {row : IdempotencyKey} : Pinned (chronos cat) value adm held (.insertKey c key row) o d := by
  refine pinned_of_exec hadm fun d' ha => ?_
  have hk : d.idempotencyKeys.lookup (c, key) = d'.idempotencyKeys.lookup (c, key) :=
    ha (.key c key) (by simp [exec])
  simp only [exec, ← hk]

end Pinned

end Chronos
