import Chronos.Agreement

namespace Chronos

open ReadCommitted ReadCommitted.Prog

/-!
# Statuses and versions of a booking over its life

A booking should leave `booked` once and for good, and carry a new version whenever its
status changes.

* `status_changes_once` — every operation but `updateStatus` leaves a finished booking alone;
  `Operation.FromBooked` excludes the requests of `updateStatus` that do not.
* `version_grows` — every operation but `cancelBooking` and the two forms of
  `rescheduleBooking` bumps the version with the status; `Operation.BumpsVersion` excludes
  the requests of these three that change a status.

Both rest on one step lemma: an operation changes nothing of a booking that was there but
its status and its version (`Operation.Commits.row`).
-/

/-- What may become of a booking row: the row itself, or the row with a status and a
    version that `Q` admits. -/
def RowChange (Q : Booking → BookingStatus → Int → Prop) (old new : Booking) : Prop :=
  new = old ∨ ∃ status version, Q old status version ∧
    new = { old with status := status, version := version }

section Rows

variable {cat : Catalog} {fromColumn : Instant → Except JsError Instant} {T : Instant → Prop}
variable {d d' : Database} {i : BookingId} {b : Booking}
variable {Q : Booking → BookingStatus → Int → Prop}

/-- Booking `i`, which is `b` in `d`, is still there in `d'`, changed as `Q` admits. -/
def RowKept (Q : Booking → BookingStatus → Int → Prop) (d' : Database) (i : BookingId)
    (b : Booking) : Prop :=
  ∃ b', d'.bookings.lookup i = some b' ∧ RowChange Q b b'

theorem RowKept.sameBut {d'' : Database} (h : RowKept Q d' i b) (hs : SameBut d' d'') :
    RowKept Q d'' i b := by
  obtain ⟨b', hb', hchange⟩ := h
  exact ⟨b', by rw [hs.bookings]; exact hb', hchange⟩

theorem rowKept_refl (hb : d.bookings.lookup i = some b) : RowKept Q d i b := ⟨b, hb, Or.inl rfl⟩

/-- A booking that is there is not the one a commit inserts. -/
theorem ne_of_fresh {newId : BookingId} (hb : d.bookings.lookup i = some b)
    (hfresh : d.bookings.lookup newId = none) : i ≠ newId := by
  rintro rfl
  rw [hfresh] at hb
  cases hb

theorem rowKept_statusWrites {id : BookingId} {row : Booking} {status : BookingStatus}
    {version : Int} {reopen : Bool} (hrow : d.bookings.lookup id = some row)
    (hb : d.bookings.lookup i = some b) (hQ : Q row status version) :
    RowKept Q ((chronos cat).apply (statusWrites d id row status version reopen) d) i b := by
  by_cases hi : i = id
  · subst hi
    obtain rfl : row = b := Option.some.inj (hrow.symm.trans hb)
    exact ⟨_, by rw [lookup_booking_statusWrites, if_pos rfl], Or.inr ⟨status, version, hQ, rfl⟩⟩
  · exact ⟨b, by rw [lookup_booking_statusWrites, if_neg hi]; exact hb, Or.inl rfl⟩

theorem NewBooking.rowKept {req : BookingRequest} {now minStart : Instant} {row : Slot}
    {reminders ws : List Write} {id : BookingId}
    (h : NewBooking cat req now minStart d row reminders id ws)
    (hb : d.bookings.lookup i = some b) : RowKept Q ((chronos cat).apply ws d) i b :=
  ⟨b, by rw [h.bookings, if_neg (ne_of_fresh hb h.fresh)]; exact hb, Or.inl rfl⟩

/-- A move cancels the old booking and keeps its version. -/
theorem GuardedMove.rowKept {req : RescheduleRequest} {now : Instant} {old : Booking} {slot : Slot}
    {reminders ws : List Write} {newId : BookingId}
    (h : GuardedMove cat fromColumn req now d old slot reminders newId ws)
    (hb : d.bookings.lookup i = some b) (hQ : Q old .cancelled old.version) :
    RowKept Q ((chronos cat).apply ws d) i b := by
  have hlookup := h.bookings i
  rw [if_neg (ne_of_fresh hb h.fresh)] at hlookup
  by_cases hi : i = req.bookingId
  · subst hi
    obtain rfl : old = b := Option.some.inj (h.booking.symm.trans hb)
    rw [if_pos rfl] at hlookup
    exact ⟨_, hlookup, Or.inr ⟨.cancelled, old.version, hQ, rfl⟩⟩
  · rw [if_neg hi] at hlookup
    exact ⟨b, hlookup.trans hb, Or.inl rfl⟩

/-- What operation `op` does to the row of a booking, when it does anything. -/
inductive Operation.Sets (cat : Catalog) (fromColumn : Instant → Except JsError Instant)
    (T : Instant → Prop) (d : Database) : Operation → Booking → BookingStatus → Int → Prop
  | cancelBooking {id ifMatch session queue b now} : CancelRead id ifMatch session d b → T now →
      (cancelRequestOn cat d b ifMatch now).allowed = true →
      Sets cat fromColumn T d (.cancelBooking id ifMatch session queue) b .cancelled b.version
  | confirmBooking {id session b} : b.status = .booked →
      Sets cat fromColumn T d (.confirmBooking id session) b .completed (b.version + 1)
  | declineBooking {id session queue spelling b} : d.bookings.lookup id = some b →
      session = some b.clientId → b.status = .booked →
      Sets cat fromColumn T d (.declineBooking id session queue spelling) b .cancelled (b.version + 1)
  | updateStatus {id text session queue spelling b status ws} :
      OwnerUpdate id session (checkStatus text) text d b status ws →
      Sets cat fromColumn T d (.updateStatus id text session queue spelling) b status (b.version + 1)
  | rescheduleBooking {req nowUtc queue now b slot} :
      (∀ t, nowUtc = some t → now = t) → (nowUtc = none → T now) →
      req.windowExpired (d.slots.lookup b.slotId) now = false →
      MoveGuard cat fromColumn req now d b slot →
      Sets cat fromColumn T d (.rescheduleBooking req nowUtc queue) b .cancelled b.version
  | rescheduleEndpoint {id body session queue now b slot} :
      session = some b.clientId → T now →
      (body.request id).windowExpired (d.slots.lookup b.slotId) now = false →
      MoveGuard cat fromColumn (body.request id) now d b slot →
      Sets cat fromColumn T d (.rescheduleEndpoint id body session queue) b .cancelled b.version
  | transition {id toStatus expectedVersion b} : b.status = .booked → toStatus ≠ .booked →
      Sets cat fromColumn T d (.transition id toStatus expectedVersion) b toStatus (b.version + 1)
  | cancel {id hours b} : b.status = .booked →
      Sets cat fromColumn T d (.cancel id hours) b .cancelled (b.version + 1)

/-- **Step lemma.**  One case for each operation: the bookings that are there stay, and
    change at most as `Operation.Sets` says. -/
theorem Operation.Commits.row {op : Operation} {ws : List Write}
    (hc : op.Commits cat fromColumn T d ws) (hb : d.bookings.lookup i = some b) :
    RowKept (op.Sets cat fromColumn T d) ((chronos cat).apply ws d) i b := by
  cases hc with
  | createBooking hnew => exact hnew.rowKept hb
  | cancelBooking hread hT hok =>
    exact rowKept_statusWrites hread.booking hb (.cancelBooking hread hT hok)
  | confirmBooking hupdate =>
    obtain rfl := ofText_completed hupdate.stored
    rw [hupdate.writes]
    exact rowKept_statusWrites hupdate.booking hb
      (.confirmBooking (checkBooked_none hupdate.checked))
  | declineBooking hupdate =>
    obtain rfl := ofText_cancelled hupdate.stored
    rw [hupdate.writes]
    exact rowKept_statusWrites hupdate.booking hb
      (.declineBooking hupdate.booking hupdate.owner (checkBooked_none hupdate.checked))
  | updateStatus hupdate =>
    have hwrites := hupdate.writes
    rw [hwrites]
    exact rowKept_statusWrites hupdate.booking hb (.updateStatus hupdate)
  | rescheduleBooking hnow hclock hwindow hmove =>
    exact hmove.rowKept hb (.rescheduleBooking hnow hclock hwindow hmove.toMoveGuard)
  | rescheduleEndpoint howner hT hwindow hmove =>
    exact hmove.rowKept hb (.rescheduleEndpoint howner hT hwindow hmove.toMoveGuard)
  | transition htransition =>
    obtain ⟨hbooked, hto⟩ := allowedTransitions_booked htransition.allowed
    rw [htransition.writes]
    exact rowKept_statusWrites htransition.booking hb (.transition hbooked hto)
  | cancel hcancel =>
    rw [hcancel.writes]
    exact rowKept_statusWrites hcancel.booking hb (.cancel hcancel.booked)

/-- The same of an operation that runs alone. -/
theorem Operation.row_alone {op : Operation} {r : Except JsError op.Result}
    (h : Alone (chronos cat) (ClockIn T) d (op.program fromColumn) d' r)
    (hb : d.bookings.lookup i = some b) : RowKept (op.Sets cat fromColumn T d) d' i b := by
  rcases alone_commits h with rfl | ⟨ws, hc, hsame⟩
  · exact rowKept_refl hb
  · exact (hc.row hb).sameBut hsame

end Rows

/-! ### Statuses -/

/-- No `updateStatus` of an owner that gives a finished booking another status, unless the
    unique index refuses to revive the booking. -/
def Operation.FromBooked (d : Database) : Operation → Prop
  | .updateStatus id text session _ _ => ∀ row status, d.bookings.lookup id = some row →
      session = some row.clientId → allowedStatuses.contains text = true →
      BookingStatus.ofText? text = some status →
      row.status = .booked ∨ status = row.status ∨
        (row.status = .cancelled ∧ d.otherLive row.slotId (some id) = true)
  | _ => True

section Status

variable {cat : Catalog} {fromColumn : Instant → Except JsError Instant} {T : Instant → Prop}
variable {d : Database}

/-- A status is set only of a booking that is `booked`, or once more. -/
theorem Operation.Sets.fromBooked {op : Operation} {b : Booking} {status : BookingStatus}
    {version : Int} (h : op.Sets cat fromColumn T d b status version) (hfrom : op.FromBooked d) :
    b.status = .booked ∨ status = b.status := by
  cases h with
  | cancelBooking _ _ hok => exact Or.inl (evaluateCancellation_allowed.mp hok).1
  | confirmBooking hbooked => exact Or.inl hbooked
  | declineBooking _ _ hbooked => exact Or.inl hbooked
  | rescheduleBooking _ _ _ hguard => exact Or.inl hguard.booked
  | rescheduleEndpoint _ _ _ hguard => exact Or.inl hguard.booked
  | transition hbooked _ => exact Or.inl hbooked
  | cancel hbooked => exact Or.inl hbooked
  | updateStatus hupdate =>
    have hallowed := checkStatus_none hupdate.checked
    rcases hfrom b status hupdate.booking hupdate.owner hallowed hupdate.stored with
      hbooked | hsame | ⟨hcancelled, hother⟩
    · exact Or.inl hbooked
    · exact Or.inr hsame
    · -- The index has let the status through, so it is `cancelled` again.
      refine Or.inr ?_
      by_contra hne
      have hdead : b.live = false := by simp [Booking.live, hcancelled]
      rw [hupdate.index hdead (hcancelled ▸ hne)] at hother
      cases hother

theorem RowKept.status {op : Operation} {d' : Database} {i : BookingId} {b : Booking}
    (h : RowKept (op.Sets cat fromColumn T d) d' i b) (hfrom : op.FromBooked d) :
    ∃ b', d'.bookings.lookup i = some b' ∧ (b.status = .booked ∨ b'.status = b.status) := by
  obtain ⟨b', hb', rfl | ⟨status, version, hsets, rfl⟩⟩ := h
  · exact ⟨b', hb', Or.inr rfl⟩
  · exact ⟨_, hb', hsets.fromBooked hfrom⟩

/-- **Statuses change once.**  In every run whose `updateStatus` requests keep to `booked`
    bookings, every change of a status is from `booked` to another status, and what is not
    `booked` keeps its status to the end. -/
theorem status_changes_once {d₀ : Database} {tr : List (Call Database Operation)}
    (h : Calls (fun d op d' => op.FromBooked d ∧ op.Runs cat fromColumn d d') d₀ tr d) :
    ∀ x ∈ tr, ∀ i b, x.before.bookings.lookup i = some b →
      (∃ b', x.after.bookings.lookup i = some b' ∧
        (b'.status ≠ b.status → b.status = .booked ∧ b'.status ≠ .booked)) ∧
      (b.status ≠ .booked → ∃ b', d.bookings.lookup i = some b' ∧ b'.status = b.status) := by
  intro x hx i b hb
  obtain ⟨hfrom, r, halone⟩ := h.mem_step x hx
  obtain ⟨b', hb', hstatus⟩ := (Operation.row_alone (T := fun _ => True) halone hb).status hfrom
  refine ⟨⟨b', hb', fun hne => ?_⟩, fun hfinished => ?_⟩
  · have hbooked := hstatus.resolve_right hne
    exact ⟨hbooked, fun h' => hne (h'.trans hbooked.symm)⟩
  · -- From here on every step keeps the status.
    refine h.since (J := fun d => ∃ b', d.bookings.lookup i = some b' ∧ b'.status = b.status)
      (fun d op d' ⟨b₁, hb₁, hs₁⟩ ⟨hfrom, r, halone⟩ => ?_) x hx
      ⟨b', hb', hstatus.resolve_left hfinished⟩
    obtain ⟨b₂, hb₂, hs₂⟩ := (Operation.row_alone (T := fun _ => True) halone hb₁).status hfrom
    refine ⟨b₂, hb₂, (hs₂.resolve_left ?_).trans hs₁⟩
    rw [hs₁]
    exact hfinished

end Status

/-- A cancelled booking is not confirmed: the request is refused. -/
theorem sample_refused : Operation.Runs sampleCatalog .ok (sampleBooked .«open» .cancelled 1)
    (.confirmBooking 1 (some 5)) (sampleBooked .«open» .cancelled 1) :=
  ⟨_, List.replicate 5 (calmEnv 2 0), _, _, fun _ _ => trivial, rfl, rfl⟩

/-- A cancelled booking is patched to `booked`, while its slot stays `open`. -/
theorem sample_revived : Operation.Runs sampleCatalog .ok (sampleBooked .«open» .cancelled 1)
    (.updateStatus 1 "booked" (some 5) false .printed) (sampleBooked .«open» .booked 2) :=
  ⟨_, List.replicate 6 (calmEnv 2 0), _, _, fun _ _ => trivial, rfl, rfl⟩

/-- A booking that has been cancelled is still cancelled after a confirmation. -/
theorem status_changes_once_refused :
    ∃ b', (sampleBooked .«open» .cancelled 1).bookings.lookup 1 = some b' ∧
      b'.status = .cancelled := by
  have hrun : Calls (fun d op d' => Operation.FromBooked d op ∧
      Operation.Runs sampleCatalog .ok d op d') (sampleBooked .booked .booked 1)
      [⟨_, .cancelBooking 1 none (some 5) false, sampleBooked .«open» .cancelled 1⟩,
        ⟨_, .confirmBooking 1 (some 5), sampleBooked .«open» .cancelled 1⟩] _ :=
    (Calls.start.call ⟨trivial, sample_cancelled⟩).call ⟨trivial, sample_refused⟩
  have hlast := status_changes_once hrun
    ⟨_, .confirmBooking 1 (some 5), _⟩ (List.mem_cons_of_mem _ (List.mem_singleton_self _))
    1 (sampleBooking .cancelled 1) rfl
  exact hlast.2 (by decide)

/-- **A finished booking is revived.**  After a cancellation, a `PATCH` sets the booking from
    `cancelled` to `booked`. -/
theorem cancelled_booking_revived :
    ∃ tr d, Calls (Operation.Runs sampleCatalog .ok) (sampleBooked .booked .booked 1) tr d ∧
      ∃ x ∈ tr, ∃ b b', x.before.bookings.lookup 1 = some b ∧ x.after.bookings.lookup 1 = some b' ∧
        b'.status ≠ b.status ∧ b.status = .cancelled ∧ b'.status = .booked := by
  refine ⟨_, _, (Calls.start.call sample_cancelled).call sample_revived,
    ⟨_, .updateStatus 1 "booked" (some 5) false .printed, _⟩,
    List.mem_append_right _ (List.mem_singleton_self _), ?_⟩
  exact ⟨sampleBooking .cancelled 1, sampleBooking .booked 2, rfl, rfl, by decide, rfl, rfl⟩

/-! ### Versions -/

/-- No request at time `t` that changes a status and keeps the version: no `cancelBooking`
    that passes its checks, and no `rescheduleBooking` that passes its own. -/
def Operation.BumpsVersion (cat : Catalog) (fromColumn : Instant → Except JsError Instant)
    (d : Database) (t : Instant) : Operation → Prop
  | .cancelBooking id ifMatch session _ => ¬ ∃ b, CancelRead id ifMatch session d b ∧
      (cancelRequestOn cat d b ifMatch t).allowed = true
  | .rescheduleBooking req nowUtc _ => ¬ ∃ b slot,
      req.windowExpired (d.slots.lookup b.slotId) (nowUtc.getD t) = false ∧
        MoveGuard cat fromColumn req (nowUtc.getD t) d b slot
  | .rescheduleEndpoint id body session _ => ¬ ∃ b slot, session = some b.clientId ∧
      (body.request id).windowExpired (d.slots.lookup b.slotId) t = false ∧
        MoveGuard cat fromColumn (body.request id) t d b slot
  | _ => True

/-- One operation, run alone at one time. -/
def Operation.RunsAt (cat : Catalog) (fromColumn : Instant → Except JsError Instant)
    (d : Database) (op : Operation) (t : Instant) (d' : Database) : Prop :=
  ∃ r, Alone (chronos cat) (ClockIn (· = t)) d (op.program fromColumn) d' r

section Version

variable {cat : Catalog} {fromColumn : Instant → Except JsError Instant} {d : Database}
variable {t : Instant}

theorem Operation.Sets.bumps {op : Operation} {b : Booking} {status : BookingStatus}
    {version : Int} (h : op.Sets cat fromColumn (· = t) d b status version)
    (hbumps : op.BumpsVersion cat fromColumn d t) : b.version < version := by
  cases h with
  | cancelBooking hread hT hok =>
    subst hT
    exact absurd ⟨b, hread, hok⟩ hbumps
  | rescheduleBooking hnow hclock hwindow hguard =>
    rename_i req nowUtc queue now slot
    obtain rfl : now = nowUtc.getD t := by
      cases nowUtc with
      | none => exact hclock rfl
      | some n => exact hnow n rfl
    exact absurd ⟨b, slot, hwindow, hguard⟩ hbumps
  | rescheduleEndpoint howner hT hwindow hguard =>
    subst hT
    exact absurd ⟨b, _, howner, hwindow, hguard⟩ hbumps
  | confirmBooking _ => omega
  | declineBooking _ _ _ => omega
  | updateStatus _ => omega
  | transition _ _ => omega
  | cancel _ => omega

theorem RowKept.version {op : Operation} {d' : Database} {i : BookingId} {b : Booking}
    (h : RowKept (op.Sets cat fromColumn (· = t) d) d' i b)
    (hbumps : op.BumpsVersion cat fromColumn d t) :
    ∃ b', d'.bookings.lookup i = some b' ∧ (b' = b ∨ b.version < b'.version) := by
  obtain ⟨b', hb', rfl | ⟨status, version, hsets, rfl⟩⟩ := h
  · exact ⟨b', hb', Or.inl rfl⟩
  · exact ⟨_, hb', Or.inr (hsets.bumps hbumps)⟩

/-- **Versions grow.**  In every run without an accepted `cancelBooking` or `rescheduleBooking`,
    every change of a status increases the version, and a row that still has the version a
    request has read is the row it has read. -/
theorem version_grows {d₀ : Database} {tr : List (Call Database (Operation × Instant))}
    (h : Calls (fun d op d' => op.1.BumpsVersion cat fromColumn d op.2 ∧
      op.1.RunsAt cat fromColumn d op.2 d') d₀ tr d) :
    ∀ x ∈ tr, ∀ i b, x.before.bookings.lookup i = some b →
      (∃ b', x.after.bookings.lookup i = some b' ∧
        (b'.status ≠ b.status → b.version < b'.version)) ∧
      ∃ b', d.bookings.lookup i = some b' ∧ (b'.version = b.version → b' = b) := by
  intro x hx i b hb
  obtain ⟨hbumps, r, halone⟩ := h.mem_step x hx
  obtain ⟨b', hb', hversion⟩ := (Operation.row_alone halone hb).version hbumps
  refine ⟨⟨b', hb', fun hne => hversion.resolve_left fun h' => hne (h' ▸ rfl)⟩, ?_⟩
  have hkept : ∃ b', d.bookings.lookup i = some b' ∧ (b' = b ∨ b.version < b'.version) := by
    refine h.since (J := fun d => ∃ b', d.bookings.lookup i = some b' ∧
      (b' = b ∨ b.version < b'.version)) (fun d op d' ⟨b₁, hb₁, hv₁⟩ ⟨hbumps, r, halone⟩ => ?_)
      x hx ⟨b', hb', hversion⟩
    obtain ⟨b₂, hb₂, hv₂⟩ := (Operation.row_alone halone hb₁).version hbumps
    refine ⟨b₂, hb₂, ?_⟩
    rcases hv₁ with rfl | hv₁
    · exact hv₂
    · rcases hv₂ with rfl | hv₂
      · exact Or.inr hv₁
      · exact Or.inr (by omega)
  obtain ⟨b₂, hb₂, rfl | hv⟩ := hkept
  · exact ⟨b₂, hb₂, fun _ => rfl⟩
  · exact ⟨b₂, hb₂, fun heq => by omega⟩

end Version

theorem clockIn_calmEnv {n fresh : Nat} {now : Instant} :
    ∀ env ∈ List.replicate n (calmEnv fresh now), ClockIn (· = now) env := by
  intro env henv
  rw [List.eq_of_mem_replicate henv]
  rfl

theorem sample_cancelled_at : Operation.RunsAt sampleCatalog .ok (sampleBooked .booked .booked 1)
    (.cancelBooking 1 none (some 5) false) 0 (sampleBooked .«open» .cancelled 1) :=
  ⟨_, List.replicate 8 (calmEnv 2 0), .idle, .ret .noContent, clockIn_calmEnv,
    by with_unfolding_all rfl, rfl⟩

theorem sample_declined_at (t : Instant) : Operation.RunsAt sampleCatalog .ok
    (sampleBooked .booked .booked 1) (.declineBooking 1 (some 5) false .printed) t
    (sampleBooked .booked .cancelled 2) :=
  ⟨_, List.replicate 6 (calmEnv 2 t), _, _, clockIn_calmEnv, rfl, rfl⟩

/-- A booking that is declined carries the next version. -/
theorem version_grows_declined :
    (∃ b', (sampleBooked .booked .cancelled 2).bookings.lookup 1 = some b' ∧
      (b'.status ≠ .booked → 1 < b'.version)) ∧
    ∃ b', (sampleBooked .booked .cancelled 2).bookings.lookup 1 = some b' ∧
      (b'.version = 1 → b' = sampleBooking .booked 1) := by
  have hrun : Calls (fun d (op : Operation × Instant) d' =>
      op.1.BumpsVersion sampleCatalog .ok d op.2 ∧ op.1.RunsAt sampleCatalog .ok d op.2 d')
      (sampleBooked .booked .booked 1)
      [⟨_, (.declineBooking 1 (some 5) false .printed, 0), sampleBooked .booked .cancelled 2⟩] _ :=
    Calls.start.call ⟨trivial, sample_declined_at 0⟩
  exact version_grows hrun
    ⟨_, (.declineBooking 1 (some 5) false .printed, 0), _⟩ (List.mem_singleton_self _)
    1 (sampleBooking .booked 1) rfl

/-- **A cancelled booking keeps its version.**  `POST :id/cancel` changes the status from
    `booked` to `cancelled`, and the version is still `1`. -/
theorem cancelled_booking_keeps_version :
    ∃ tr d, Calls (fun d (op : Operation × Instant) d' => op.1.RunsAt sampleCatalog .ok d op.2 d')
        (sampleBooked .booked .booked 1) tr d ∧
      ∃ x ∈ tr, ∃ b b', x.before.bookings.lookup 1 = some b ∧ x.after.bookings.lookup 1 = some b' ∧
        b'.status ≠ b.status ∧ ¬ b.version < b'.version := by
  refine ⟨_, _, Calls.start.call (l := (.cancelBooking 1 none (some 5) false, 0)) sample_cancelled_at,
    ⟨_, (.cancelBooking 1 none (some 5) false, 0), _⟩, List.mem_singleton_self _, ?_⟩
  exact ⟨sampleBooking .booked 1, sampleBooking .cancelled 1, rfl, rfl, by decide, by decide⟩

end Chronos
