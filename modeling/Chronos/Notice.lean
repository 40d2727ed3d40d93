import Chronos.AtomicMove
import Chronos.IdempotencyKey

namespace Chronos

open ReadCommitted ReadCommitted.Prog

/-!
# The minimum booking notice

A provider configures how many hours ahead of its start a slot can be booked.
`createBooking` reads the notice and compares it with the start of the slot in its `UPDATE`;
the `UPDATE` of `rescheduleBooking` compares the start with the time of the request only.

`Request.KeepsNotice` excludes the moves to a slot inside the notice.  `booked_in_notice` says
that all other bookings are made in time, whatever the interleaving.
-/

/-- The notice of a provider in hours, 4 where it is `NULL` or 0. -/
def Catalog.notice (cat : Catalog) (providerId : ProviderId) : Int :=
  match (cat.providers providerId).bind Provider.minimumBookingNotice with
  | none => 4
  | some hours => orFour hours

/-- The slot starts at least its provider's notice after `now`. -/
def Slot.InNotice (cat : Catalog) (slot : Slot) (now : Instant) : Prop :=
  now + hoursMs (cat.notice slot.providerId) ≤ slot.slotStartUtc

/-- The time of a request whose clock shows times in `clock`. -/
def Request.At (clock : Instant → Prop) : Request → Instant → Prop
  | .createBooking _ nowUtc _, now =>
      (∀ t, nowUtc = some t → now = t) ∧ (nowUtc = none → clock now)
  | .rescheduleBooking _ nowUtc _, now =>
      (∀ t, nowUtc = some t → now = t) ∧ (nowUtc = none → clock now)
  | _, now => clock now

/-- A booking that the request can move on `d` is moved to a slot that starts at least the
    notice of its provider later. -/
def Request.KeepsNotice (cat : Catalog) (fromColumn : Instant → Except JsError Instant)
    (clock : Instant → Prop) (d : Database) (request : Request) : Prop :=
  match request with
  | .rescheduleBooking req _ _ => ∀ now old slot, request.At clock now →
      MoveGuard cat fromColumn req now d old slot → slot.InNotice cat now
  | _ => True

section Notice

variable {cat : Catalog} {d₀ d : Database}

/-- What `createBooking` reads is the notice of the provider of its slot. -/
theorem noticeHours_eq {req : BookingRequest} {slot : Slot}
    (hslot : d.slots.lookup req.slotId = some slot) :
    req.noticeHours cat d = cat.notice slot.providerId := by
  have hread : req.noticeHours cat d = (((cat.providers slot.providerId).map fun p =>
      p.minimumBookingNotice.getD 4).map orFour).getD 4 := by
    simp [BookingRequest.noticeHours, hslot]
  rw [hread, Catalog.notice]
  cases cat.providers slot.providerId with
  | none => rfl
  | some provider =>
    show orFour (provider.minimumBookingNotice.getD 4) = match provider.minimumBookingNotice with
      | none => 4
      | some hours => orFour hours
    cases provider.minimumBookingNotice with
    | none => decide
    | some hours => rfl

/-- A notice that was read without a fault is the notice of now. -/
theorem BookingRequest.NoticeSeen.eq {req : BookingRequest} {hours : Int}
    {env : Database → Env Nat JsError Ask.Answer → Prop}
    (h : req.NoticeSeen cat env (SameProviders d₀) hours) (hcalm : ∀ d e, env d e → e.fault = none)
    (hd : SameProviders d₀ d) {slot : Slot} (hslot : d.slots.lookup req.slotId = some slot) :
    hours = cat.notice slot.providerId := by
  rcases h with ⟨d', hd', rfl⟩ | ⟨d', e, he, hfault⟩
  · have hsame : req.noticeHours cat d' = req.noticeHours cat d := by
      rw [noticeHours_congr hd', noticeHours_congr hd]
    rw [hsame, noticeHours_eq hslot]
  · rw [hcalm d' e he] at hfault
    cases hfault

end Notice

/-! ### Who inserts a booking -/

section Moves

variable {cat : Catalog} {fromColumn : Instant → Except JsError Instant}
variable {adm : Stmt → Database → Prop} {request : Request} {g g' : Progress} {d₀ d : Database}
variable {env : Progress → Database → Env Nat JsError Ask.Answer → Prop} {ws : List Write}

/-- **A new booking is made in time**, unless it is a move into the notice. -/
theorem Request.Moves.inNotice {clock : Instant → Prop}
    (h : request.Moves cat fromColumn adm env (fun _ => SameProviders d₀) g d ws g')
    (hd : SameProviders d₀ d)
    (henv : ∀ g d e, env g d e → e.fault = none ∧ clock (e.answer .now))
    (hkeeps : request.KeepsNotice cat fromColumn clock d) {id : BookingId} {b : Booking}
    (hnone : d.bookings.lookup id = none)
    (hb : ((chronos cat).apply ws d).bookings.lookup id = some b) :
    ∃ now slot, request.At clock now ∧ d.slots.lookup b.slotId = some slot ∧
      slot.InNotice cat now := by
  -- A request that leaves the bookings that exist inserts none.
  have hsame : ((chronos cat).apply ws d).bookings.lookup id ≠ d.bookings.lookup id := by
    rw [hb, hnone]
    simp
  have hat : ∀ {nowUtc : Option Instant} {now : Instant}, Progress.EffectiveNow env nowUtc now →
      (∀ t, nowUtc = some t → now = t) ∧ (nowUtc = none → clock now) := by
    intro nowUtc now hnow
    refine ⟨hnow.1, fun hclock => ?_⟩
    obtain ⟨d', e, he, rfl⟩ := hnow.2 hclock
    exact (henv _ _ _ he).2
  have hupdate : ∀ {i : BookingId} {row : Booking} {status version reopen},
      d.bookings.lookup i = some row → ws = statusWrites d i row status version reopen → False := by
    intro i row status version reopen hrow hws
    have hi : id ≠ i := by
      rintro rfl
      rw [hnone] at hrow
      cases hrow
    exact hsame (by rw [hws, lookup_booking_statusWrites, if_neg hi])
  cases h with
  | stay => exact absurd rfl hsame
  | read _ => exact absurd rfl hsame
  | remind hws => exact absurd (by rw [(sameBut_apply hws).bookings]) hsame
  | cancelBooking _ _ =>
    rw [lookup_booking_cancelWrites] at hsame
    split at hsame
    · next i _ _ _ _ _ _ hi => rw [← hi, hnone] at hsame; exact absurd rfl hsame
    · exact absurd rfl hsame
  | confirmBooking hown => exact (hupdate hown.booking hown.writes).elim
  | declineBooking hown => exact (hupdate hown.booking hown.writes).elim
  | @createBooking req nowUtc _ now hours _ row _ newId _ hnow hchecked hnew =>
    rw [hnew.bookings] at hb
    split at hb
    · obtain rfl := Option.some.inj hb
      have hhours : hours = cat.notice row.providerId :=
        hchecked.notice.eq (fun d e he => (henv _ d e he).1) hd hnew.slot
      refine ⟨now, row, hat hnow, hnew.slot, ?_⟩
      show now + hoursMs (cat.notice row.providerId) ≤ row.slotStartUtc
      rw [← hhours]
      exact hnew.notice
    · rw [hnone] at hb
      cases hb
  | @rescheduleBooking req nowUtc _ now _ old slot _ newId _ hnow hmove =>
    rw [hmove.bookings] at hb
    split at hb
    · obtain rfl := Option.some.inj hb
      exact ⟨now, slot, hat hnow, hmove.newSlot, hkeeps now old slot (hat hnow) hmove.toMoveGuard⟩
    · split at hb
      · next hid =>
        rw [hid, hmove.booking] at hnone
        cases hnone
      · rw [hnone] at hb
        cases hb

end Moves

/-! ### Every interleaving -/

section Interleaving

variable {cat : Catalog} {fromColumn : Instant → Except JsError Instant} {ι C : Type}
variable [DecidableEq ι] [DecidableEq C] {own : ι → C} {reqs : ι → Request} {d₀ : Database}

/-- No statement fails from outside, and the clock of every request shows one of its times. -/
def OnTime (clock : ι → Instant → Prop) (l : Label Ask.Answer Nat JsError C ι) : Prop :=
  l.env.fault = none ∧ clock l.thread (l.env.answer .now)

theorem preserved_sameProviders {adm : ι → Stmt → Database → Prop}
    {env : ι → Progress → Database → Env Nat JsError Ask.Answer → Prop} :
    Preserved (chronos cat) (contracts cat fromColumn adm env (knowsProviders d₀) reqs)
      fun d _ _ => SameProviders d₀ d where
  know _ _ _ _ h := h
  move _ _ G i _ _ h hm := by
    have hmoves : (reqs i).Moves cat fromColumn (adm i) (env i) (knowsProviders d₀ i) (G i) _ _ _ :=
      hm
    exact hmoves.providers h

/-- **The minimum notice.**  Requests are at work on connections of their own and no query
    fails.  In whatever state a step inserts a booking, the slot of the booking starts at least
    the notice of its provider after the request, provided that the request is no move into the
    notice. -/
theorem booked_in_notice (hown : Function.Injective own) {clock : ι → Instant → Prop}
    {w w' : Service C ι} {l : Label Ask.Answer Nat JsError C ι}
    (h : Reaches (chronos cat) (fun _ l => OnTime clock l ∧ Dedicated own l)
      (Service.start fromColumn d₀ reqs) w)
    (hl : OnTime clock l) (hconn : Dedicated own l)
    (hkeeps : (reqs l.thread).KeepsNotice cat fromColumn (clock l.thread) w.db)
    (hs : w.step (chronos cat) l = some w') {id : BookingId} {b : Booking}
    (hnone : w.db.bookings.lookup id = none) (hb : w'.db.bookings.lookup id = some b) :
    ∃ now slot, (reqs l.thread).At (clock l.thread) now ∧
      w.db.slots.lookup b.slotId = some slot ∧ slot.InNotice cat now := by
  let surroundings : ι → Progress → Database → Env Nat JsError Ask.Answer → Prop :=
    fun i _ _ e => e.fault = none ∧ clock i (e.answer .now)
  let c := contracts cat fromColumn (fun _ _ _ => True) surroundings (knowsProviders d₀) reqs
  have hpreserved : Preserved (chronos cat) c fun d _ _ => SameProviders d₀ d :=
    preserved_sameProviders
  have hrelied : ∀ (w : Service C ι) (l : Label Ask.Answer Nat JsError C ι),
      OnTime clock l ∧ Exclusive w l →
        Relied (chronos cat) c (fun d _ _ => SameProviders d₀ d) w l :=
    fun w l hP => ⟨hP.2, fun _ _ _ _ _ _ _ => trivial, fun _ _ => hP.1⟩
  have h₀ : SameProviders d₀ d₀ := fun _ => rfl
  obtain ⟨ts, G, hmod⟩ := Modular.reaches (lawful cat) hpreserved hrelied
    (modular_start (fun _ => localTo_true cat) h₀) (exclusive_of_dedicated hown h)
  have hexclusive : Exclusive w l :=
    (ownTransactions_of_dedicated ownTransactions_init h).exclusive hown hconn
  obtain ⟨_, g', ws, -, hdb, -, hmove⟩ := hmod.step (lawful cat) hpreserved
    (hrelied w l ⟨hl, hexclusive⟩) hs
  rw [hdb] at hb
  rcases hmove with ⟨rfl, -⟩ | hmove
  · rw [Engine.apply_nil, hnone] at hb
    cases hb
  · have hmoves : (reqs l.thread).Moves cat fromColumn (fun _ _ => True) (surroundings l.thread)
        (fun _ => SameProviders d₀) (G l.thread) w.db ws g' := hmove
    exact hmoves.inNotice hmod.inv (fun _ _ _ he => he) hkeeps hnone hb

end Interleaving

/-- Booking `1` is on slot `1`; slot `2` is open and starts `hours` after the epoch. -/
def sampleSlotIn (hours : Int) : Database :=
  { sampleBooked .booked .booked 1 with
    slots := (sampleBooked .booked .booked 1).slots.insert 2 ⟨7, hoursMs hours, hoursMs (hours + 1), .«open»⟩ }

/-- Slot `2` starts a hundred hours later: the move to it is made in time. -/
theorem booked_in_notice_moved : ∃ w w' : Service Unit Unit, ∃ b,
    w.db.bookings.lookup 2 = none ∧ w'.db.bookings.lookup 2 = some b ∧ ∃ now slot,
      Request.At (fun t => t = 0) (.rescheduleBooking sampleMove (some 0) false) now ∧
        w.db.slots.lookup b.slotId = some slot ∧ slot.InNotice sampleCatalog now := by
  have hrun : ∃ w : Service Unit Unit, World.run (chronos sampleCatalog) (fun _ _ => true)
      (Service.start .ok (sampleSlotIn 100) fun _ => .rescheduleBooking sampleMove (some 0) false)
      (ownSteps (fun _ => calmEnv 2 0) (List.replicate 16 ())) = some w ∧
      w.db.bookings.lookup 2 = none ∧
      (w.db.slots.lookup 2).map Slot.slotStartUtc = some (hoursMs 100) ∧
      (w.db.slots.lookup 2).map Slot.providerId = some 7 ∧
      ∃ w' b, w.step (chronos sampleCatalog) ⟨(), (), calmEnv 2 0⟩ = some w' ∧
        w'.db.bookings.lookup 2 = some b :=
    ⟨_, by with_unfolding_all rfl, rfl, rfl, rfl, _, _, by with_unfolding_all rfl, rfl⟩
  obtain ⟨w, hw, hnone, hstart, hprovider, w', b, hs, hb⟩ := hrun
  have hreach : Reaches (chronos sampleCatalog)
      (fun _ l => OnTime (fun _ t => t = 0) l ∧ Dedicated id l) _ w :=
    reaches_of_run (fun w l hl _ => by
      obtain ⟨i, -, rfl⟩ := List.mem_map.mp hl
      exact ⟨⟨rfl, rfl⟩, rfl⟩) hw
  have hkeeps : Request.KeepsNotice sampleCatalog .ok (fun t => t = 0) w.db
      (.rescheduleBooking sampleMove (some 0) false) := by
    intro now old slot hnow hguard
    obtain rfl := hnow.1 0 rfl
    rw [show w.db.slots.lookup 2 = some slot from hguard.newSlot] at hstart hprovider
    have hslot : slot.slotStartUtc = hoursMs 100 := Option.some.inj hstart
    have hid : slot.providerId = 7 := Option.some.inj hprovider
    show 0 + hoursMs (sampleCatalog.notice slot.providerId) ≤ slot.slotStartUtc
    rw [hslot, hid]
    decide
  exact ⟨w, w', b, hnone, hb, booked_in_notice Function.injective_id hreach ⟨rfl, rfl⟩ rfl hkeeps hs
    hnone hb⟩

/-- **A booking is moved into the notice.**  At the epoch booking `1` is moved to a slot of the
    same provider that starts one hour later; the notice of the provider is four hours. -/
theorem moved_into_notice : ∃ (w w' : Service Unit Unit) (b : Booking) (slot : Slot),
    Reaches (chronos sampleCatalog) (fun _ l => OnTime (fun _ t => t = 0) l ∧ Dedicated id l)
      (Service.start .ok (sampleSlotIn 1) fun _ => .rescheduleBooking sampleMove (some 0) false)
      w ∧
    w.step (chronos sampleCatalog) ⟨(), (), calmEnv 2 0⟩ = some w' ∧
    w.db.bookings.lookup 2 = none ∧ w'.db.bookings.lookup 2 = some b ∧ b.status = .booked ∧
    w.db.slots.lookup b.slotId = some slot ∧ sampleCatalog.notice slot.providerId = 4 ∧
    ¬ slot.InNotice sampleCatalog 0 := by
  have hrun : ∃ w : Service Unit Unit, World.run (chronos sampleCatalog) (fun _ _ => true)
      (Service.start .ok (sampleSlotIn 1) fun _ => .rescheduleBooking sampleMove (some 0) false)
      (ownSteps (fun _ => calmEnv 2 0) (List.replicate 14 ())) = some w ∧
      w.db.bookings.lookup 2 = none ∧
      w.db.slots.lookup 2 = some ⟨7, hoursMs 1, hoursMs 2, .«open»⟩ ∧
      ∃ w' b, w.step (chronos sampleCatalog) ⟨(), (), calmEnv 2 0⟩ = some w' ∧
        w'.db.bookings.lookup 2 = some b ∧ b.status = .booked ∧ b.slotId = 2 :=
    ⟨_, by with_unfolding_all rfl, rfl, rfl, _, _, by with_unfolding_all rfl, rfl, rfl, rfl⟩
  obtain ⟨w, hw, hnone, hslot, w', b, hs, hb, hbooked, hid⟩ := hrun
  have hreach : Reaches (chronos sampleCatalog)
      (fun _ l => OnTime (fun _ t => t = 0) l ∧ Dedicated id l) _ w :=
    reaches_of_run (fun w l hl _ => by
      obtain ⟨i, -, rfl⟩ := List.mem_map.mp hl
      exact ⟨⟨rfl, rfl⟩, rfl⟩) hw
  refine ⟨w, w', b, _, hreach, hs, hnone, hb, hbooked, by rw [hid]; exact hslot, by decide, ?_⟩
  show ¬ (0 + hoursMs (sampleCatalog.notice 7) ≤ hoursMs 1)
  decide

end Chronos
