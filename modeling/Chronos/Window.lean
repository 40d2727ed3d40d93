import Chronos.Transitions

namespace Chronos

open ReadCommitted ReadCommitted.Prog

/-!
# The cancellation window on the client's paths

A client may give up a booking until `cancellation_window_hours` of its provider before its
slot starts.  Four endpoints of `BookingsController` move a booking from `booked` to
`cancelled`, and only `POST :id/cancel` reads the provider's window:

* `POST :id/decline` and `PATCH :id/status` look at no window;
* `POST :id/reschedule` takes the window from the body of the request.

`Operation.KeepsWindow` excludes the requests that get through after the deadline, and
`cancelled_in_time` says that all others keep it.
-/

/-- A request to `BookingsController`. -/
def Operation.ClientRequest : Operation → Prop
  | .rescheduleBooking .. => False
  | .transition .. => False
  | .cancel .. => False
  | _ => True

/-- The deadline of booking `b` has not passed at time `t`: the window is the one of the
    provider of its slot. -/
def Database.InTime (cat : Catalog) (d : Database) (b : Booking) (t : Instant) : Prop :=
  ∀ slot p, d.slots.lookup b.slotId = some slot → cat.providers slot.providerId = some p →
    t ≤ slot.slotStartUtc - hoursMs p.cancellationWindowHours

/-- A window of a request body that is no shorter than the provider's. -/
def JsNumber.Covers (windowHours : JsNumber) (hours : Nat) : Prop :=
  match windowHours with
  | .nan => False
  | .infinity negative => negative = false
  | .rat q => (hours : ℚ) ≤ q

/-- No late request that gets through: no `declineBooking` and no `updateStatus` to
    `cancelled` of the owner's `booked` booking after its deadline, and no accepted
    `rescheduleBooking` after the deadline whose body has a shorter window than the provider. -/
def Operation.KeepsWindow (cat : Catalog) (fromColumn : Instant → Except JsError Instant)
    (d : Database) (t : Instant) : Operation → Prop
  | .declineBooking id session _ _ => ∀ b, d.bookings.lookup id = some b →
      session = some b.clientId → b.status = .booked → d.InTime cat b t
  | .updateStatus id text session _ _ => ∀ b, text = "cancelled" → d.bookings.lookup id = some b →
      session = some b.clientId → b.status = .booked → d.InTime cat b t
  | .rescheduleEndpoint id body session _ => ∀ b slot, session = some b.clientId →
      (body.request id).windowExpired (d.slots.lookup b.slotId) t = false →
      MoveGuard cat fromColumn (body.request id) t d b slot →
      d.InTime cat b t ∨ ∀ row p, d.slots.lookup b.slotId = some row →
        cat.providers row.providerId = some p →
        body.windowHours.orTwentyFour.Covers p.cancellationWindowHours
  | _ => True

/-! ### The check of a window -/

theorem hoursMs_cast (hours : Nat) : ((hoursMs hours : Int) : ℚ) = hours * 60 * 60 * 1000 := by
  simp only [hoursMs]
  push_cast
  rfl

/-- A check that passes with a window that covers the provider's keeps the deadline. -/
theorem JsNumber.Covers.inTime {windowHours : JsNumber} {hours : Nat} {start now : Instant}
    (hcovers : windowHours.Covers hours) (h : windowHours.windowExpired start now = false) :
    now ≤ start - hoursMs hours := by
  cases windowHours with
  | nan => exact hcovers.elim
  | infinity negative =>
    -- A window without end has expired at any time.
    have hneg : negative = false := hcovers
    rw [hneg] at h
    cases h
  | rat q =>
    have hq : (hours : ℚ) ≤ q := hcovers
    have hnow : (now : ℚ) ≤ start - q * 60 * 60 * 1000 := by
      simpa [JsNumber.windowExpired] using h
    have hcast : (now : ℚ) ≤ ((start - hoursMs hours : Int) : ℚ) := by
      push_cast [hoursMs_cast]
      linarith
    exact_mod_cast hcast

theorem covers_rat (hours : Nat) : (JsNumber.rat hours).Covers hours := by
  show (hours : ℚ) ≤ hours
  exact le_refl _

/-- Only the text `cancelled` sets the status `cancelled`. -/
theorem text_of_cancelled {text : String} (h : BookingStatus.ofText? text = some .cancelled) :
    text = "cancelled" := by
  unfold BookingStatus.ofText? at h
  split at h
  · cases h
  · split at h
    · cases h
    · split at h
      · next htext => exact htext
      · split at h <;> cases h

section Paths

variable {cat : Catalog} {fromColumn : Instant → Except JsError Instant} {d d' : Database}
variable {t : Instant} {b : Booking}

/-- `evaluateCancellation` reads the window of the slot's provider. -/
theorem inTime_of_cancelRequest {ifMatch : Option String}
    (h : (cancelRequestOn cat d b ifMatch t).allowed = true) : d.InTime cat b t := by
  intro slot p hslot hp
  obtain ⟨-, -, hwindow⟩ := evaluateCancellation_allowed.mp h
  rw [hslot] at hwindow
  have hwindow' : (JsNumber.rat p.cancellationWindowHours).windowExpired slot.slotStartUtc t =
      false := by
    simpa [hp] using hwindow
  exact (covers_rat _).inTime hwindow'

/-- The body's window counts from the start of the booking's slot. -/
theorem inTime_of_windowExpired {id : BookingId} {body : RescheduleBody}
    (hcovers : ∀ row p, d.slots.lookup b.slotId = some row →
      cat.providers row.providerId = some p →
      body.windowHours.orTwentyFour.Covers p.cancellationWindowHours)
    (h : (body.request id).windowExpired (d.slots.lookup b.slotId) t = false) :
    d.InTime cat b t := by
  intro slot p hslot hp
  rw [hslot] at h
  exact (hcovers slot p hslot hp).inTime h

/-- **One case for each endpoint.**  A client's request that keeps the window cancels a
    `booked` booking by its deadline. -/
theorem Operation.Sets.inTime {op : Operation} {status : BookingStatus} {version : Int}
    (h : op.Sets cat fromColumn (· = t) d b status version) (hclient : op.ClientRequest)
    (hwindow : op.KeepsWindow cat fromColumn d t) (hb : b.status = .booked)
    (hstatus : status = .cancelled) : d.InTime cat b t := by
  cases h with
  | cancelBooking _ hT hok =>
    subst hT
    exact inTime_of_cancelRequest hok
  | confirmBooking _ => cases hstatus
  | declineBooking hread howner _ => exact hwindow b hread howner hb
  | updateStatus hupdate =>
    have hstored := hupdate.stored
    rw [hstatus] at hstored
    exact hwindow b (text_of_cancelled hstored) hupdate.booking hupdate.owner hb
  | rescheduleBooking _ _ _ _ => exact hclient.elim
  | rescheduleEndpoint howner hT hbody hguard =>
    subst hT
    rcases hwindow b _ howner hbody hguard with hin | hcovers
    · exact hin
    · exact inTime_of_windowExpired hcovers hbody
  | transition _ _ => exact hclient.elim
  | cancel _ => exact hclient.elim

/-- **The window is kept.**  In every run of client requests none of which gets through
    late, a booking goes from `booked` to `cancelled` only by its deadline. -/
theorem cancelled_in_time {d₀ : Database} {tr : List (Call Database (Operation × Instant))}
    (h : Calls (fun d op d' => op.1.ClientRequest ∧ op.1.KeepsWindow cat fromColumn d op.2 ∧
      op.1.RunsAt cat fromColumn d op.2 d') d₀ tr d) :
    ∀ x ∈ tr, ∀ i b b', x.before.bookings.lookup i = some b → b.status = .booked →
      x.after.bookings.lookup i = some b' → b'.status = .cancelled →
      ∀ slot p, x.before.slots.lookup b.slotId = some slot →
        cat.providers slot.providerId = some p →
        x.call.2 ≤ slot.slotStartUtc - hoursMs p.cancellationWindowHours := by
  intro x hx i b b' hb hbooked hb' hcancelled
  obtain ⟨hclient, hwindow, r, halone⟩ := h.mem_step x hx
  obtain ⟨b₁, hb₁, hchange⟩ := Operation.row_alone halone hb
  obtain rfl : b₁ = b' := Option.some.inj (hb₁.symm.trans hb')
  have hin : x.before.InTime cat b x.call.2 := by
    rcases hchange with rfl | ⟨status, version, hsets, rfl⟩
    · rw [hbooked] at hcancelled
      cases hcancelled
    · exact hsets.inTime hclient hwindow hbooked hcancelled
  exact hin

end Paths

/-- A cancellation long before the deadline. -/
theorem cancelled_in_time_early :
    0 ≤ (sampleSlot .booked).slotStartUtc - hoursMs 24 := by
  have hrun : Calls (fun d (op : Operation × Instant) d' => op.1.ClientRequest ∧
      op.1.KeepsWindow sampleCatalog .ok d op.2 ∧ op.1.RunsAt sampleCatalog .ok d op.2 d')
      (sampleBooked .booked .booked 1)
      [⟨_, (.cancelBooking 1 none (some 5) false, 0), sampleBooked .«open» .cancelled 1⟩] _ :=
    Calls.start.call ⟨trivial, trivial, sample_cancelled_at⟩
  exact cancelled_in_time hrun
    ⟨_, (.cancelBooking 1 none (some 5) false, 0), _⟩ (List.mem_singleton_self _)
    1 (sampleBooking .booked 1) (sampleBooking .cancelled 1) rfl rfl rfl rfl
    (sampleSlot .booked) ⟨24, none⟩ rfl rfl

/-- **A booking is declined after its deadline.**  One hour before the slot starts, with a
    window of 24 hours, `POST :id/decline` cancels the booking. -/
theorem declined_after_deadline :
    ∃ tr d, Calls (fun d (op : Operation × Instant) d' => op.1.ClientRequest ∧
        op.1.RunsAt sampleCatalog .ok d op.2 d') (sampleBooked .booked .booked 1) tr d ∧
      ∃ x ∈ tr, ∃ b b', x.before.bookings.lookup 1 = some b ∧ b.status = .booked ∧
        x.after.bookings.lookup 1 = some b' ∧ b'.status = .cancelled ∧
        ∃ slot p, x.before.slots.lookup b.slotId = some slot ∧
          sampleCatalog.providers slot.providerId = some p ∧
          ¬ x.call.2 ≤ slot.slotStartUtc - hoursMs p.cancellationWindowHours := by
  have hclient : Operation.ClientRequest (.declineBooking 1 (some 5) false .printed) := trivial
  refine ⟨_, _, Calls.start.call (l := (.declineBooking 1 (some 5) false .printed, hoursMs 99))
    ⟨hclient, sample_declined_at (hoursMs 99)⟩,
    ⟨_, (.declineBooking 1 (some 5) false .printed, hoursMs 99), _⟩, List.mem_singleton_self _, ?_⟩
  exact ⟨sampleBooking .booked 1, sampleBooking .cancelled 2, rfl, rfl, rfl, rfl,
    sampleSlot .booked, ⟨24, none⟩, rfl, rfl, by decide⟩

end Chronos
