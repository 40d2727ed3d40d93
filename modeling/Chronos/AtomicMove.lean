import Chronos.Clients

namespace Chronos

open ReadCommitted ReadCommitted.Prog

/-!
# `rescheduleBooking` is an atomic guarded move

`rescheduleBooking` reads its booking in one transaction and moves it in another.
`reschedule_atomic` says what each of its steps can do to the tables while any other requests
are at work: nothing, or the whole move on a state that passes its guard (`Moved`), or after
the move a change of reminder rows.

The slot of a booking that is `booked` stays `booked` until the booking is given up
(`Request.Moves.held`): a cancellation that has read another booking of the slot cannot be on
its way, since no slot has two live bookings.
-/

/-- A move as an observer of the tables sees it: what it found in `d`, and what is in `d'`. -/
structure Moved (fromColumn : Instant → Except JsError Instant) (req : RescheduleRequest)
    (now : Instant) (d : Database) (old : Booking) (slot : Slot) (newId : BookingId)
    (d' : Database) : Prop where
  booking : d.bookings.lookup req.bookingId = some old
  booked : old.status = .booked
  version : req.version.isInt old.version = true
  ifMatch : req.ifMatch.isInt old.version = true
  newSlot : d.slots.lookup req.newSlotId = some slot
  isOpen : slot.status = .«open»
  future : now < slot.slotStartUtc
  fresh : d.bookings.lookup newId = none
  cancelled : d'.bookings.lookup req.bookingId = some { old with status := .cancelled }
  opened : ∃ row, d.slots.lookup old.slotId = some row ∧
    d'.slots.lookup old.slotId = some { row with status := .«open» }
  taken : d'.slots.lookup req.newSlotId = some { slot with status := .booked }
  moved : d'.bookings.lookup newId = some (old.movedTo req.newSlotId)
  live : ∀ i, d'.LiveOn req.newSlotId i ↔ i = newId
  reminders : ∃ start, fromColumn slot.slotStartUtc = .ok start ∧
    ∀ o, d'.reminderJobs.lookup (newId, o) =
      if o ∈ futureOffsets start now reminderOffsets then some ⟨start - minutesMs o, .scheduled, none⟩
      else d.reminderJobs.lookup (newId, o)
  otherBookings : ∀ i, i ≠ newId → i ≠ req.bookingId → d'.bookings.lookup i = d.bookings.lookup i
  otherSlots : ∀ s, s ≠ old.slotId → s ≠ req.newSlotId → d'.slots.lookup s = d.slots.lookup s

section Moved

variable {cat : Catalog} {fromColumn : Instant → Except JsError Instant} {d : Database}

/-- A guarded move from a slot that is `booked`. -/
theorem GuardedMove.moved {req : RescheduleRequest} {now : Instant} {old : Booking} {slot : Slot}
    {reminders ws : List Write} {newId : BookingId}
    (h : GuardedMove cat fromColumn req now d old slot reminders newId ws) {row : Slot}
    (hrow : d.slots.lookup old.slotId = some row) (hbooked : row.status = .booked) :
    Moved fromColumn req now d old slot newId ((chronos cat).apply ws d) := by
  have hne : old.slotId ≠ req.newSlotId := by
    intro heq
    rw [heq, h.newSlot] at hrow
    rw [← Option.some.inj hrow, h.isOpen] at hbooked
    cases hbooked
  refine { h with cancelled := ?_, opened := ⟨row, hrow, ?_⟩, taken := ?_, moved := ?_,
                  live := fun i => ?_, reminders := ?_, otherBookings := fun i hi hi' => ?_,
                  otherSlots := fun s hs hs' => ?_ }
  · rw [h.bookings, if_neg h.newId_ne, if_pos rfl]
  · rw [h.slots, lookup_slot_vacated, if_pos rfl, if_neg hne, hrow]
    rfl
  · rw [h.slots, lookup_slot_vacated, if_neg hne.symm, if_pos rfl]
  · rw [h.bookings, if_pos rfl]
  · rw [h.liveOn]
    constructor
    · rintro (⟨hi, -⟩ | ⟨-, hold, hi⟩)
      · exact hi
      · exact absurd hi (h.free i hold)
    · rintro rfl
      exact Or.inl ⟨rfl, rfl⟩
  · obtain ⟨start, hstart, hlookup⟩ := h.reminderJobs
    refine ⟨start, hstart, fun o => ?_⟩
    rw [hlookup, if_neg h.newId_ne.symm]
    simp only [true_and]
  · rw [h.bookings, if_neg hi, if_neg hi']
  · rw [h.slots, lookup_slot_vacated, if_neg hs, if_neg hs']

end Moved

section Held

variable {cat : Catalog} {fromColumn : Instant → Except JsError Instant}
variable {adm : Stmt → Database → Prop} {req : Request} {g g' : Progress} {d : Database}
variable {env : Progress → Database → Env Nat JsError Ask.Answer → Prop}
variable {know : Progress → Database → Prop}
variable {ws : List Write} {id : BookingId} {b b' : Booking} {slot : Slot}

/-- **A booking holds its slot.**  A request after which a booking is `booked` has found it
    `booked`, and leaves its slot `booked`. -/
theorem Request.Moves.held (h : req.Moves cat fromColumn adm env know g d ws g') (hone : d.OneLive)
    (hb : d.bookings.lookup id = some b)
    (hheld : b.status = .booked → ∃ slot, d.slots.lookup b.slotId = some slot ∧
      slot.status = .booked)
    (hread : b.status = .booked → ∀ r, g = .hasRead r → r.status = .booked →
      r.slotId = b.slotId → req.About id)
    (hb' : ((chronos cat).apply ws d).bookings.lookup id = some b') (hbooked : b'.status = .booked) :
    b.status = .booked ∧ ∃ slot, ((chronos cat).apply ws d).slots.lookup b.slotId = some slot ∧
      slot.status = .booked := by
  -- A step that leaves the row and the slots as they are.
  have hsame : ((chronos cat).apply ws d).bookings.lookup id = d.bookings.lookup id →
      ((chronos cat).apply ws d).slots.lookup b.slotId = d.slots.lookup b.slotId →
      b.status = .booked ∧ ∃ slot, ((chronos cat).apply ws d).slots.lookup b.slotId = some slot ∧
        slot.status = .booked := by
    intro hbookings hslots
    rw [hbookings, hb] at hb'
    obtain rfl := Option.some.inj hb'
    exact ⟨hbooked, by rw [hslots]; exact hheld hbooked⟩
  have hlive : ∀ {i : BookingId} {row : Booking}, d.bookings.lookup i = some row →
      row.status = .booked → d.LiveOn row.slotId i :=
    fun hi hs => ⟨_, hi, by simp [Booking.live, hs], rfl⟩
  have hstatus : ∀ {i : BookingId} {row : Booking} {status version},
      d.bookings.lookup i = some row → status ≠ .booked →
      ws = statusWrites d i row status version false →
      b.status = .booked ∧ ∃ slot, ((chronos cat).apply ws d).slots.lookup b.slotId = some slot ∧
        slot.status = .booked := by
    intro i row status version hrow hne hws
    subst hws
    by_cases hi : id = i
    · rw [lookup_booking_statusWrites, if_pos hi] at hb'
      rw [← Option.some.inj hb'] at hbooked
      exact absurd hbooked hne
    · exact hsame (by rw [lookup_booking_statusWrites, if_neg hi])
        (by rw [lookup_slot_statusWrites, if_neg (by simp)])
  cases h with
  | stay => exact hsame rfl rfl
  | read _ => exact hsame rfl rfl
  | remind hws =>
    exact hsame (by rw [(sameBut_apply hws).bookings]) (by rw [(sameBut_apply hws).slots])
  | @createBooking _ _ _ _ _ _ _ _ newId _ _ _ hnew =>
    have hid : id ≠ newId := by
      rintro rfl
      exact absurd (hb.symm.trans hnew.fresh) (by simp)
    have hrow := hnew.bookings id
    rw [if_neg hid] at hrow
    have hbb : b' = b := Option.some.inj (hb'.symm.trans (hrow.trans hb))
    rw [hbb] at hbooked
    refine hsame hrow ?_
    -- The slot it takes was `open`.
    obtain ⟨slot, hslot, hs⟩ := hheld hbooked
    rw [hnew.slots, if_neg]
    intro heq
    rw [heq, hnew.slot] at hslot
    rw [← Option.some.inj hslot, hnew.isOpen] at hs
    cases hs
  | @cancelBooking i _ _ _ _ r hr _ =>
    by_cases hi : id = i
    · rw [lookup_booking_cancelWrites, if_pos hi, ← hi, hb] at hb'
      rw [← Option.some.inj hb'] at hbooked
      cases hbooked
    · have hrow : ((chronos cat).apply (cancelWrites d i r.slotId) d).bookings.lookup id = _ :=
        lookup_booking_cancelWrites id
      rw [if_neg hi] at hrow
      have hbb : b' = b := Option.some.inj (hb'.symm.trans (hrow.trans hb))
      rw [hbb] at hbooked
      refine hsame hrow ?_
      rw [lookup_slot_cancelWrites, if_neg]
      intro heq
      exact hi (hread hbooked r rfl hr heq.symm).symm
  | confirmBooking hupdate =>
    refine hstatus hupdate.booking ?_ hupdate.writes
    rw [← Option.some.inj hupdate.stored]
    decide
  | declineBooking hupdate =>
    refine hstatus hupdate.booking ?_ hupdate.writes
    rw [← Option.some.inj hupdate.stored]
    decide
  | @rescheduleBooking req _ _ _ _ old slot _ newId _ _ hmove =>
    have hid : id ≠ newId := by
      rintro rfl
      exact absurd (hb.symm.trans hmove.fresh) (by simp)
    have hrow := hmove.bookings id
    rw [if_neg hid] at hrow
    by_cases hi : id = req.bookingId
    · rw [if_pos hi] at hrow
      rw [hb', Option.some.injEq] at hrow
      rw [hrow] at hbooked
      cases hbooked
    · rw [if_neg hi] at hrow
      have hbb : b' = b := Option.some.inj (hb'.symm.trans (hrow.trans hb))
      rw [hbb] at hbooked
      refine hsame hrow ?_
      -- The slot it leaves is the one of another live booking, the slot it takes was `open`.
      have hold : b.slotId ≠ old.slotId := by
        intro heq
        exact hi (hone _ _ _ (hlive hb hbooked) (heq ▸ hlive hmove.booking hmove.booked))
      have hnew : b.slotId ≠ req.newSlotId := by
        intro heq
        obtain ⟨row, hslot, hs⟩ := hheld hbooked
        rw [heq, hmove.newSlot] at hslot
        rw [← Option.some.inj hslot, hmove.isOpen] at hs
        cases hs
      rw [hmove.slots, lookup_slot_vacated, if_neg hold, if_neg hnew]

end Held

/-! ### Every interleaving -/

section Interleaving

variable {cat : Catalog} {fromColumn : Instant → Except JsError Instant} {ι : Type}
variable {reqs : ι → Request} {me : ι} {id : BookingId} {clock : Instant → Prop}

variable [DecidableEq ι]

end Interleaving

/-- Client `5` asks to move its booking `1` to slot `2`, which starts when slot `1` does. -/
def sampleMove : RescheduleRequest :=
  ⟨1, .printed, 2, none, .number (.rat 1), .number (.rat 1), .undefined⟩

/-- Slot `1` is booked by booking `1`, slot `2` is open. -/
def sampleTwoSlots : Database :=
  { sampleBooked .booked .booked 1 with
    slots := (sampleBooked .booked .booked 1).slots.insert 2 (sampleSlot .«open») }

end Chronos
