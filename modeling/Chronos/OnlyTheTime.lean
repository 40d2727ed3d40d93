import Chronos.AtomicMove

namespace Chronos

open ReadCommitted ReadCommitted.Prog

/-!
# What a moved booking keeps

`rescheduleBooking` inserts a new row for a moved booking, from the columns its second
`SELECT … FOR UPDATE` has read (`Booking.movedTo`), and takes any open slot.

`move_keeps_iff` says which moves change only the time.
-/

/-- What two rows say about who meets whom, and about what. -/
structure Booking.SameMeeting (old new : Booking) : Prop where
  clientId : new.clientId = old.clientId
  clientTimezone : new.clientTimezone = old.clientTimezone
  providerId : new.providerId = old.providerId
  eventTypeId : new.eventTypeId = old.eventTypeId
  notes : new.notes = old.notes
  clientNotes : new.clientNotes = old.clientNotes

/-- Two slots of one provider. -/
def Database.SameProvider (d : Database) (s s' : SlotId) : Prop :=
  ∃ row row', d.slots.lookup s = some row ∧ d.slots.lookup s' = some row' ∧
    row'.providerId = row.providerId

/-- The columns the new row does not get are `NULL`, and the time zone is one. -/
structure Booking.Bare (b : Booking) : Prop where
  clientTimezone : b.clientTimezone ≠ ""
  providerId : b.providerId = none
  eventTypeId : b.eventTypeId = none
  notes : b.notes = none
  clientNotes : b.clientNotes = none

theorem sameMeeting_movedTo (b : Booking) (s : SlotId) : b.SameMeeting (b.movedTo s) ↔ b.Bare := by
  constructor
  · intro h
    refine ⟨fun hempty => ?_, h.providerId.symm, h.eventTypeId.symm, h.notes.symm,
      h.clientNotes.symm⟩
    -- An empty time zone becomes `UTC`.
    have htz := h.clientTimezone
    simp [Booking.movedTo, hempty] at htz
  · intro h
    exact ⟨rfl, by simp [Booking.movedTo, h.clientTimezone], h.providerId.symm, h.eventTypeId.symm,
      h.notes.symm, h.clientNotes.symm⟩

/-- The booking a call has added: the one that was not there. -/
structure Added (d d' : Database) (id : BookingId) (row : Booking) : Prop where
  absent : d.bookings.lookup id = none
  present : d'.bookings.lookup id = some row
  only : ∀ i, i ≠ id → d.bookings.lookup i = none → d'.bookings.lookup i = none

section Move

variable {cat : Catalog} {fromColumn : Instant → Except JsError Instant} {req : RescheduleRequest}
variable {now : Instant} {d : Database} {old : Booking} {slot : Slot} {reminders ws : List Write}
variable {newId : BookingId}

theorem GuardedMove.added (h : GuardedMove cat fromColumn req now d old slot reminders newId ws) :
    Added d ((chronos cat).apply ws d) newId (old.movedTo req.newSlotId) where
  absent := h.fresh
  present := by rw [h.bookings, if_pos rfl]
  only := by
    intro i hi hnone
    have hne : i ≠ req.bookingId := by
      rintro rfl
      rw [h.booking] at hnone
      cases hnone
    rw [h.bookings, if_neg hi, if_neg hne]
    exact hnone

/-- A call that commits adds the old booking, moved. -/
theorem alone_moves {nowUtc : Option Instant} {queue : Bool} {d' : Database}
    {r : Except JsError Reply}
    (h : Alone (chronos cat) (fun _ => True) d (rescheduleBooking fromColumn req nowUtc queue) d' r)
    (hcommits : d'.bookings ≠ d.bookings) : ∃ old id, d.bookings.lookup req.bookingId = some old ∧
      Added d d' id (old.movedTo req.newSlotId) := by
  rcases alone_rescheduleBooking (T := fun _ => True) h with rfl | ⟨ws, hws, hsame⟩
  · exact absurd rfl hcommits
  · cases hws with
    | @rescheduleBooking _ _ _ now old slot reminders id _ _ _ _ hmove =>
      have hadded := hmove.added
      -- Nothing but reminder rows changes after the commit.
      refine ⟨old, id, hmove.booking, hadded.absent, ?_, fun i hi hnone => ?_⟩
      · rw [hsame.bookings]
        exact hadded.present
      · rw [hsame.bookings]
        exact hadded.only i hi hnone

end Move

/-- **Which moves change only the time.**  A call of `rescheduleBooking` that commits adds one
    booking; it is the old one at another time exactly when the columns that are not copied are
    `NULL`, the time zone is not empty, and the two slots have one provider. -/
theorem move_keeps_iff (cat : Catalog) (fromColumn : Instant → Except JsError Instant)
    (req : RescheduleRequest) (nowUtc : Option Instant) (queue : Bool) (d d' : Database)
    (r : Except JsError Reply)
    (h : Alone (chronos cat) (fun _ => True) d (rescheduleBooking fromColumn req nowUtc queue) d' r)
    (hcommits : d'.bookings ≠ d.bookings) :
    ∃ old id new, d.bookings.lookup req.bookingId = some old ∧ Added d d' id new ∧
      (old.SameMeeting new ∧ d.SameProvider old.slotId new.slotId ↔
        old.Bare ∧ d.SameProvider old.slotId req.newSlotId) := by
  obtain ⟨old, id, hold, hadded⟩ := alone_moves h hcommits
  refine ⟨old, id, _, hold, hadded, ?_⟩
  rw [sameMeeting_movedTo]
  rfl

/-- The sample call has booked `2`, which was no booking before. -/
theorem alone_of_sampleMove {d d' : Database}
    (hrun : runAlone (chronos sampleCatalog) (List.replicate 20 (calmEnv 2 0)) .idle d
      (rescheduleBooking .ok sampleMove (some 0) false) = some (.idle, d', ret (.created 2 false)))
    (hnone : d.bookings.lookup 2 = none) (hnew : (d'.bookings.lookup 2).isSome = true) :
    Alone (chronos sampleCatalog) (fun _ => True) d
      (rescheduleBooking .ok sampleMove (some 0) false) d' (.ok (.created 2 false)) ∧
      d'.bookings ≠ d.bookings := by
  refine ⟨⟨_, _, _, fun _ _ => trivial, hrun, rfl⟩, fun heq => ?_⟩
  rw [heq, hnone] at hnew
  cases hnew

/-- Client `5` moves booking `1` from slot `1` to slot `2` of the same provider. -/
theorem sample_move_keeps : ∃ d' r, Alone (chronos sampleCatalog) (fun _ => True) sampleTwoSlots
      (rescheduleBooking .ok sampleMove (some 0) false) d' r ∧ d'.bookings ≠ sampleTwoSlots.bookings ∧
    ∃ old id new, sampleTwoSlots.bookings.lookup sampleMove.bookingId = some old ∧
      Added sampleTwoSlots d' id new ∧
      (old.SameMeeting new ∧ sampleTwoSlots.SameProvider old.slotId new.slotId ↔
        old.Bare ∧ sampleTwoSlots.SameProvider old.slotId sampleMove.newSlotId) := by
  have hrun : ∃ d', runAlone (chronos sampleCatalog) (List.replicate 20 (calmEnv 2 0)) .idle
      sampleTwoSlots (rescheduleBooking .ok sampleMove (some 0) false) =
        some (.idle, d', ret (.created 2 false)) ∧ (d'.bookings.lookup 2).isSome = true :=
    ⟨_, by with_unfolding_all rfl, rfl⟩
  obtain ⟨d', hd', hnew⟩ := hrun
  obtain ⟨halone, hne⟩ := alone_of_sampleMove hd' rfl hnew
  exact ⟨d', _, halone, hne, move_keeps_iff sampleCatalog .ok sampleMove (some 0) false
    sampleTwoSlots d' _ halone hne⟩

/-- `sampleTwoSlots`, with what client `5` has written to its provider `7`. -/
def sampleNoted : Database :=
  { sampleTwoSlots with
    bookings := (∅ : AList fun _ => Booking).insert 1
      { sampleBooking .booked 1 with providerId := some 7, clientNotes := some "first visit" } }

/-- The moved booking has lost its provider and its notes. -/
theorem moved_booking_loses_notes : ∃ d' r old id new,
    Alone (chronos sampleCatalog) (fun _ => True) sampleNoted
      (rescheduleBooking .ok sampleMove (some 0) false) d' r ∧
    sampleNoted.bookings.lookup sampleMove.bookingId = some old ∧ Added sampleNoted d' id new ∧
    ¬ (old.SameMeeting new ∧ sampleNoted.SameProvider old.slotId new.slotId) := by
  have hrun : ∃ d', runAlone (chronos sampleCatalog) (List.replicate 20 (calmEnv 2 0)) .idle
      sampleNoted (rescheduleBooking .ok sampleMove (some 0) false) =
        some (.idle, d', ret (.created 2 false)) ∧ (d'.bookings.lookup 2).isSome = true :=
    ⟨_, by with_unfolding_all rfl, rfl⟩
  obtain ⟨d', hd', hnew⟩ := hrun
  obtain ⟨halone, hne⟩ := alone_of_sampleMove hd' rfl hnew
  obtain ⟨old, id, hold, hadded⟩ := alone_moves halone hne
  refine ⟨d', _, old, id, _, halone, hold, hadded, fun hsame => ?_⟩
  have hbare := (sameMeeting_movedTo _ _).mp hsame.1
  obtain rfl := Option.some.inj hold
  cases hbare.clientNotes

end Chronos
