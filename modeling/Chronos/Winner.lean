import Chronos.Clients

namespace Chronos

open ReadCommitted ReadCommitted.Prog

/-!
# Races for one booking

`POST :id/confirm`, `POST :id/decline` and `rescheduleBooking` read their booking
`FOR UPDATE` inside the transaction that changes it; `POST :id/cancel` reads it before its
`BEGIN`, and its `UPDATE` has no condition on the status.  So of all requests for one
booking at most one takes effect (`one_winner`), provided a cancellation that comes to its
`UPDATE` still finds the booking `booked` (`StillBooked`) — which `stale_cancel_wins_too`
shows is not always so.
-/

/-- `cancelBooking` cancels a booking that is `booked`. -/
def StillBooked : Stmt → Database → Prop
  | .cancelBookingRow id, d => ∃ b, d.bookings.lookup id = some b ∧ b.status = .booked
  | _, _ => True

/-- The `UPDATE` locks the row the condition is about. -/
theorem localTo_stillBooked (cat : Catalog) : LocalTo cat StillBooked := by
  intro s o d d' ha h
  cases s with
  | cancelBookingRow id =>
    obtain ⟨b, hb, hbooked⟩ := h
    refine ⟨b, ?_, hbooked⟩
    have hlock : Lock.booking id ∈ (exec cat (.cancelBookingRow id) o d).locks := by
      simp [exec, hb, writeBooking]
    exact (ha _ hlock).symm.trans hb
  | _ => trivial

/-- The status a request gives its booking. -/
def Request.target : Request → BookingStatus
  | .confirmBooking .. => .completed
  | _ => .cancelled

/-- The answer of a request that has taken effect. -/
def Request.Succeeded : Request → Except JsError Reply → Prop
  | .createBooking .., r => ∃ id, r = .ok (.created id false)
  | .cancelBooking .., r => ∃ reply, r = .ok reply ∧ reply.status = 204
  | .confirmBooking .., r => ∃ reply, r = .ok reply ∧ reply.status = 200
  | .declineBooking .., r => ∃ reply, r = .ok reply ∧ reply.status = 200
  | .rescheduleBooking .., r => ∃ id, r = .ok (.created id false)

/-- Call `i` has taken effect on booking `id`: it has committed a new version of the row, or
    answers that it has. -/
def Took {C ι : Type} (reqs : ι → Request) (id : BookingId) (w : Service C ι) (i : ι) : Prop :=
  (∃ row, (i, Write.booking id row) ∈ w.journal) ∨
    ∃ r, (w.prog i).result = some r ∧ (reqs i).Succeeded r

section Winner

variable {cat : Catalog} {fromColumn : Instant → Except JsError Instant}

/-- A call that answers with success has committed. -/
theorem Request.Ends.done {c : Contract Ask.Answer Stmt Database Write Nat JsError Progress}
    {req : Request} {g : Progress} {r : Except JsError Reply} (h : req.Ends c g r)
    (hr : req.Succeeded r) : ∃ x, g = .done x := by
  cases req with
  | createBooking req nowUtc queue =>
    obtain ⟨id, hid⟩ := hr
    rcases h with ⟨-, hnot⟩ | ⟨id', hg, -⟩
    · exact absurd hid (hnot id)
    · exact ⟨_, hg⟩
  | cancelBooking id ifMatch session queue =>
    obtain ⟨reply, hreply, hstatus⟩ := hr
    rcases h with ⟨-, hnot⟩ | hg
    · exact absurd hstatus (hnot reply hreply)
    · exact ⟨_, hg⟩
  | confirmBooking id session =>
    obtain ⟨reply, hreply, hstatus⟩ := hr
    rcases h with ⟨-, hnot⟩ | hg
    · exact absurd hstatus (hnot reply hreply)
    · exact ⟨_, hg⟩
  | declineBooking id session queue spelling =>
    obtain ⟨reply, hreply, hstatus⟩ := hr
    rcases h with ⟨-, hnot⟩ | hg
    · exact absurd hstatus (hnot reply hreply)
    · exact ⟨_, hg⟩
  | rescheduleBooking req nowUtc queue =>
    obtain ⟨id, hid⟩ := hr
    rcases h with ⟨-, hnot⟩ | ⟨id', hg, -⟩
    · exact absurd hid (hnot id)
    · exact ⟨_, hg⟩

variable {d : Database} {id : BookingId} {req : Request} {g g' : Progress} {ws : List Write}
variable {env : Progress → Database → Env Nat JsError Ask.Answer → Prop}
variable {know : Progress → Database → Prop}

/-- **What a commit finds and does**: the booking was `booked`, and gets the status of the
    request. -/
theorem Request.Moves.acts (h : req.Moves cat fromColumn StillBooked env know g d ws g')
    (habout : req.About id) (hg : g.Open) (hg' : ¬ g'.Open) :
    ∃ b b', d.bookings.lookup id = some b ∧ b.status = .booked ∧
      ((chronos cat).apply ws d).bookings.lookup id = some b' ∧ b'.status = req.target := by
  cases h with
  | stay => exact absurd hg hg'
  | read _ => exact absurd (fun x hx => nomatch hx) hg'
  | createBooking _ _ _ => exact habout.elim
  | cancelBooking _ hadm =>
    obtain rfl : _ = id := habout
    obtain ⟨b, hb, hbooked⟩ := hadm
    exact ⟨b, _, hb, hbooked, by rw [lookup_booking_cancelWrites, if_pos rfl, hb]; rfl, rfl⟩
  | confirmBooking hupdate =>
    obtain rfl : _ = id := habout
    have hstatus : _ = BookingStatus.completed := (Option.some.inj hupdate.stored).symm
    have hws := hupdate.writes
    subst hws
    exact ⟨_, _, hupdate.booking, checkBooked_none hupdate.checked,
      (lookup_booking_statusWrites _).trans (if_pos rfl), hstatus⟩
  | declineBooking hupdate =>
    obtain rfl : _ = id := habout
    have hstatus : _ = BookingStatus.cancelled := (Option.some.inj hupdate.stored).symm
    have hws := hupdate.writes
    subst hws
    exact ⟨_, _, hupdate.booking, checkBooked_none hupdate.checked,
      (lookup_booking_statusWrites _).trans (if_pos rfl), hstatus⟩
  | rescheduleBooking _ hmove =>
    obtain rfl : _ = id := habout
    exact ⟨_, _, hmove.booking, hmove.booked,
      ((hmove.bookings _).trans (if_neg hmove.newId_ne)).trans (if_pos rfl), rfl⟩
  | remind _ => exact absurd rfl (hg _)

/-- Whatever else a request does leaves all bookings alone. -/
theorem Request.Moves.bookings_of_quiet (h : req.Moves cat fromColumn StillBooked env know g d ws g')
    (hg : g.Open → g'.Open) : ((chronos cat).apply ws d).bookings = d.bookings := by
  cases h with
  | stay => rfl
  | read _ => rfl
  | createBooking _ _ _ => exact absurd rfl (hg (fun x hx => nomatch hx) _)
  | cancelBooking _ _ => exact absurd rfl (hg (fun x hx => nomatch hx) _)
  | confirmBooking _ => exact absurd rfl (hg (fun x hx => nomatch hx) _)
  | declineBooking _ => exact absurd rfl (hg (fun x hx => nomatch hx) _)
  | rescheduleBooking _ _ => exact absurd rfl (hg (fun x hx => nomatch hx) _)
  | remind hws => exact (sameBut_apply hws).bookings

variable {ι : Type} {reqs : ι → Request}

/-- The invariant: nobody has committed and the booking is `booked`, or one call has, and the
    booking has its status. -/
structure OneWinner (reqs : ι → Request) (id : BookingId) (d : Database) (j : List (ι × Write))
    (G : ι → Progress) : Prop where
  quiet : Quiet j G
  state : ∃ b, d.bookings.lookup id = some b ∧
    ((b.status = .booked ∧ ∀ i, (G i).Open) ∨
      ∃ k, b.status = (reqs k).target ∧ ∀ i, i ≠ k → (G i).Open)

variable [DecidableEq ι]

theorem target_ne_booked (req : Request) : req.target ≠ .booked := by
  cases req <;> simp [Request.target]

/-- **Step lemma.** -/
theorem preserved_oneWinner (habout : ∀ i, (reqs i).About id) :
    Preserved (chronos cat) (contracts cat fromColumn (fun _ => StillBooked)
      (fun _ _ _ _ => True) (fun _ _ _ => True) reqs) (OneWinner reqs id) where
  know _ _ _ _ _ := trivial
  move := by
    intro d j G i ws g' h hm
    have hmoves : (reqs i).Moves cat fromColumn StillBooked _ _ (G i) d ws g' := hm
    refine ⟨h.quiet.move hmoves, ?_⟩
    obtain ⟨b, hb, hcase⟩ := h.state
    by_cases hquiet : (G i).Open → g'.Open
    · -- Nothing happens to the booking, and nobody's progress matters more than before.
      have hopen : ∀ k, (G k).Open → (Function.update G i g' k).Open := by
        intro k hk
        by_cases hki : k = i
        · subst hki
          rw [Function.update_self]
          exact hquiet hk
        · rw [Function.update_of_ne hki]
          exact hk
      refine ⟨b, by rw [hmoves.bookings_of_quiet hquiet]; exact hb, ?_⟩
      rcases hcase with ⟨hbooked, hall⟩ | ⟨k, hstatus, hothers⟩
      · exact Or.inl ⟨hbooked, fun k => hopen k (hall k)⟩
      · exact Or.inr ⟨k, hstatus, fun k' hk' => hopen k' (hothers k' hk')⟩
    · obtain ⟨hg, hg'⟩ : (G i).Open ∧ ¬ g'.Open := by simpa using hquiet
      obtain ⟨b₀, b', hb₀, hbooked, hb', hstatus⟩ := hmoves.acts (habout i) hg hg'
      obtain rfl : b₀ = b := Option.some.inj (hb₀.symm.trans hb)
      -- The booking was `booked`, so nobody has won before.
      have hall : ∀ k, (G k).Open := by
        rcases hcase with ⟨-, hall⟩ | ⟨k, htarget, -⟩
        · exact hall
        · exact absurd (htarget.symm.trans hbooked) (target_ne_booked _)
      refine ⟨b', hb', Or.inr ⟨i, hstatus, fun k hk => ?_⟩⟩
      rw [Function.update_of_ne hk]
      exact hall k

variable {C : Type} [DecidableEq C]

/-- **One winner.**  In every run of exclusive steps in which a cancellation comes to its
    `UPDATE` only while the booking is `booked`, at most one of all requests for a `booked`
    booking takes effect on it, and the booking has the status of that request. -/
theorem one_winner {d₀ : Database} {b₀ : Booking} {w : Service C ι}
    (hb₀ : d₀.bookings.lookup id = some b₀) (hbooked : b₀.status = .booked)
    (habout : ∀ i, (reqs i).About id)
    (h : Reaches (chronos cat) (fun w l => Exclusive w l ∧
      Admits (chronos cat) (fun _ => StillBooked) w l) (Service.start fromColumn d₀ reqs) w) :
    (∀ i k, Took reqs id w i → Took reqs id w k → i = k) ∧
      ∀ i, Took reqs id w i →
        ∃ b, w.db.bookings.lookup id = some b ∧ b.status = (reqs i).target := by
  have h₀ : OneWinner reqs id d₀ [] fun _ : ι => Progress.begun :=
    { quiet := fun _ _ e he => absurd he List.not_mem_nil
      state := ⟨b₀, hb₀, Or.inl ⟨hbooked, fun _ _ hx => nomatch hx⟩⟩ }
  obtain ⟨ts, G, hmod⟩ := Modular.reaches (lawful cat) (preserved_oneWinner habout)
    (fun w l hP => ⟨hP.1, hP.2, fun _ _ => trivial⟩)
    (modular_start (fun _ => localTo_stillBooked cat) h₀) h
  have hdone : ∀ i, Took reqs id w i → ¬ (G i).Open := by
    rintro i (⟨row, hrow⟩ | ⟨r, hr, hsuccess⟩) hopen
    · exact hmod.inv.quiet i hopen _ hrow rfl
    · obtain ⟨x, hx⟩ := Request.Ends.done (hmod.result hr) hsuccess
      exact hopen x hx
  obtain ⟨b, hb, ⟨-, hall⟩ | ⟨k, hstatus, hothers⟩⟩ := hmod.inv.state
  · exact ⟨fun i _ hi => absurd (hall i) (hdone i hi), fun i hi => absurd (hall i) (hdone i hi)⟩
  · have hwinner : ∀ i, Took reqs id w i → i = k := by
      intro i hi
      by_contra hne
      exact hdone i hi (hothers i hne)
    refine ⟨fun i i' hi hi' => (hwinner i hi).trans (hwinner i' hi').symm, fun i hi => ?_⟩
    exact ⟨b, hb, (hwinner i hi).symm ▸ hstatus⟩

end Winner

/-! #### A race that is run fairly, and one that is not -/

/-- The condition of `one_winner`, decided. -/
def stillBooked {C ι : Type} (cat : Catalog) (w : Service C ι)
    (l : Label Ask.Answer Nat JsError C ι) : Bool :=
  match w.prog l.thread, w.session l.conn with
  | .stmt (.cancelBookingRow id) _ _, .active _ pending =>
      (((chronos cat).apply (pending.map Prod.snd) w.db).bookings.lookup id).any
        fun b => decide (b.status = .booked)
  | _, _ => true

theorem admits_of_stillBooked {C ι : Type} {cat : Catalog} (w : Service C ι)
    (l : Label Ask.Answer Nat JsError C ι) (h : stillBooked cat w l = true) :
    Admits (chronos cat) (fun _ => StillBooked) w l := by
  intro s ok err i pending hprog hsess
  cases s with
  | cancelBookingRow id =>
    simp only [stillBooked, hprog, hsess, Option.any_eq_true, decide_eq_true_eq] at h
    exact h
  | _ => trivial

/-- Client `5` cancels (`false`) and confirms (`true`) booking `1`. -/
def cancelOrConfirm : Bool → Request
  | false => .cancelBooking 1 none (some 5) false
  | true => .confirmBooking 1 (some 5)

theorem cancelOrConfirm_about (i : Bool) : (cancelOrConfirm i).About 1 := by
  cases i <;> rfl

/-- The confirmation comes after the cancellation, and is refused. -/
theorem one_winner_in_turn : ∃ w : Service Bool Bool, Took cancelOrConfirm 1 w false ∧
    (∀ i k, Took cancelOrConfirm 1 w i → Took cancelOrConfirm 1 w k → i = k) ∧
    ∀ i, Took cancelOrConfirm 1 w i →
      ∃ b, w.db.bookings.lookup 1 = some b ∧ b.status = (cancelOrConfirm i).target := by
  have hrun : ∃ w : Service Bool Bool, World.run (chronos sampleCatalog) (stillBooked sampleCatalog)
      (World.init (sampleBooked .booked .booked 1) fun i => (cancelOrConfirm i).program .ok)
      (ownSteps (fun _ => calmEnv 2 0) (List.replicate 8 false ++ List.replicate 5 true)) =
        some w ∧ (w.prog false).result = some (.ok .noContent) :=
    ⟨_, by with_unfolding_all rfl, rfl⟩
  obtain ⟨w, hw, hr⟩ := hrun
  have hreach := (reaches_ownSteps (fun _ => calm_calmEnv 2 0) admits_of_stillBooked hw).mono
    (Q := fun w l => Exclusive w l ∧ Admits (chronos sampleCatalog) (fun _ => StillBooked) w l)
    fun w l hP => ⟨hP.2, hP.1.1⟩
  have hbooked : (sampleBooked .booked .booked 1).bookings.lookup 1 =
      some (sampleBooking .booked 1) := rfl
  have hwinner := one_winner hbooked rfl cancelOrConfirm_about hreach
  exact ⟨w, Or.inr ⟨_, hr, _, rfl, rfl⟩, hwinner⟩

/-- **Two winners.**  `cancelBooking` reads the booking, the confirmation runs from `BEGIN` to
    its answer `200`, and the cancellation goes on to its answer `204`. -/
theorem stale_cancel_wins_too : ∃ w : Service Bool Bool,
    Reaches (chronos sampleCatalog) Exclusive
      (Service.start .ok (sampleBooked .booked .booked 1) cancelOrConfirm) w ∧
    Took cancelOrConfirm 1 w false ∧ Took cancelOrConfirm 1 w true ∧
    ∃ b, w.db.bookings.lookup 1 = some b ∧ b.status ≠ (cancelOrConfirm true).target := by
  have hrun : ∃ w : Service Bool Bool, World.run (chronos sampleCatalog) (fun _ _ => true)
      (World.init (sampleBooked .booked .booked 1) fun i => (cancelOrConfirm i).program .ok)
      (ownSteps (fun _ => calmEnv 2 0)
        (List.replicate 4 false ++ List.replicate 6 true ++ List.replicate 4 false)) = some w ∧
      (w.prog false).result = some (.ok .noContent) ∧
      (w.prog true).result = some (.ok (.updated 1 "completed" 2)) ∧
      (w.db.bookings.lookup 1).map Booking.status = some .cancelled :=
    ⟨_, by with_unfolding_all rfl, rfl, rfl, rfl⟩
  obtain ⟨w, hw, hcancel, hconfirm, hstatus⟩ := hrun
  have hreach := (reaches_ownSteps (P := fun _ _ => True) (fun _ => calm_calmEnv 2 0)
    (fun _ _ _ => trivial) hw).mono (Q := Exclusive) fun w l hP => hP.2
  obtain ⟨b, hb, hcancelled⟩ := Option.map_eq_some_iff.mp hstatus
  refine ⟨w, hreach, Or.inr ⟨_, hcancel, _, rfl, rfl⟩, Or.inr ⟨_, hconfirm, _, rfl, rfl⟩, b, hb, ?_⟩
  rw [hcancelled]
  decide

end Chronos
