import Chronos.AtomicMove
import Chronos.AllOrNothing
import Chronos.StatusMachine

namespace Chronos

open ReadCommitted ReadCommitted.Prog

/-!
# `rescheduleBooking` under an idempotency key

`rescheduleBooking` inserts the row of its key at the end of the move, and looks nothing up: no
call replays an answer, and none compares the request with the one the key was used for.

* `Later.keepsRecords` — whatever is done to the tables, the row of a key stays, and a booking keeps
  its client.
* `answered_rescheduleBooking` — what the function can answer; `422` is no status of it.
* `reschedule_ignores_key` — after a move under a key, the same request is never answered `201`
  again.
-/

/-! ### What stays -/

/-- The rows of `idempotency_keys` stay as they are, and bookings keep their clients. -/
structure Database.KeepsRecords (d d' : Database) : Prop where
  keys : ∀ k row, d.idempotencyKeys.lookup k = some row → d'.idempotencyKeys.lookup k = some row
  clients : ∀ i b, d.bookings.lookup i = some b →
    ∃ b', d'.bookings.lookup i = some b' ∧ b'.clientId = b.clientId

/-- The write to `d` replaces no row of a key and gives no booking to another client. -/
def Write.KeepsRecords (d : Database) : Write → Prop
  | .key c k _ => d.idempotencyKeys.lookup (c, k) = none
  | .booking id row => ∀ b, d.bookings.lookup id = some b → row.clientId = b.clientId
  | _ => True

/-- The lock on the record a write changes. -/
def Write.recordLock : Write → List Lock
  | .key c k _ => [.key c k]
  | .booking id _ => [.booking id]
  | _ => []

/-- The records under the locks are the same. -/
structure Database.SameRecords (ks : List Lock) (d d' : Database) : Prop where
  keys : ∀ c k, .key c k ∈ ks → d.idempotencyKeys.lookup (c, k) = d'.idempotencyKeys.lookup (c, k)
  bookings : ∀ id, .booking id ∈ ks → d.bookings.lookup id = d'.bookings.lookup id

section Records

variable {cat : Catalog} {d d' d₀ : Database} {w : Write}

theorem Database.KeepsRecords.refl (d : Database) : d.KeepsRecords d :=
  ⟨fun _ _ h => h, fun _ b h => ⟨b, h, rfl⟩⟩

theorem Database.KeepsRecords.sameBut (hd : d₀.KeepsRecords d) (h : SameBut d d') :
    d₀.KeepsRecords d' :=
  ⟨fun k row hk => by rw [h.idempotencyKeys]; exact hd.keys k row hk,
    fun i b hb => by rw [h.bookings]; exact hd.clients i b hb⟩

theorem Write.KeepsRecords.apply (hd : d₀.KeepsRecords d) (h : w.KeepsRecords d) :
    d₀.KeepsRecords (w.apply d) := by
  cases w with
  | key c k row =>
    refine ⟨fun k' row' hk' => ?_, hd.clients⟩
    have hrow := hd.keys k' row' hk'
    have hne : k' ≠ (c, k) := by
      rintro rfl
      have hnone : d.idempotencyKeys.lookup (c, k) = none := h
      rw [hnone] at hrow
      cases hrow
    show (d.idempotencyKeys.insert (c, k) row).lookup k' = some row'
    rw [AList.lookup_insert_ne hne]
    exact hrow
  | booking id row =>
    refine ⟨hd.keys, fun i b hb => ?_⟩
    obtain ⟨b', hb', hclient⟩ := hd.clients i b hb
    rw [lookup_booking_write]
    split
    · next hi =>
      subst hi
      exact ⟨row, rfl, (h b' hb').trans hclient⟩
    · exact ⟨b', hb', hclient⟩
  | _ => exact ⟨hd.keys, hd.clients⟩

theorem Write.KeepsRecords.congr (hsame : Database.SameRecords w.recordLock d d')
    (h : w.KeepsRecords d) : w.KeepsRecords d' := by
  cases w with
  | key c k row =>
    show d'.idempotencyKeys.lookup (c, k) = none
    rw [← hsame.keys c k (List.mem_singleton_self _)]
    exact h
  | booking id row =>
    intro b hb
    rw [← hsame.bookings id (List.mem_singleton_self _)] at hb
    exact h b hb
  | _ => exact trivial

theorem Database.SameRecords.write {ks : List Lock} (h : Database.SameRecords ks d d') (w : Write) :
    Database.SameRecords ks (w.apply d) (w.apply d') := by
  cases w with
  | key c k row =>
    refine ⟨fun c' k' hmem => ?_, h.bookings⟩
    show (d.idempotencyKeys.insert _ _).lookup _ = (d'.idempotencyKeys.insert _ _).lookup _
    by_cases hk : (c', k') = (c, k)
    · rw [hk, AList.lookup_insert, AList.lookup_insert]
    · rw [AList.lookup_insert_ne hk, AList.lookup_insert_ne hk]
      exact h.keys c' k' hmem
  | booking id row =>
    refine ⟨h.keys, fun i hmem => ?_⟩
    rw [lookup_booking_write, lookup_booking_write, h.bookings i hmem]
  | _ => exact ⟨h.keys, h.bookings⟩

theorem sameRecords_write {ks : List Lock} (h : ∀ k ∈ ks, k ∉ w.recordLock) :
    Database.SameRecords ks d (w.apply d) := by
  cases w with
  | key c k row =>
    refine ⟨fun c' k' hmem => ?_, fun _ _ => rfl⟩
    have hne : (c', k') ≠ (c, k) := by
      intro heq
      obtain ⟨rfl, rfl⟩ := Prod.mk.inj heq
      exact h _ hmem (List.mem_singleton_self _)
    show _ = (d.idempotencyKeys.insert _ _).lookup _
    rw [AList.lookup_insert_ne hne]
  | booking id row =>
    refine ⟨fun _ _ _ => rfl, fun i hmem => ?_⟩
    have hne : i ≠ id := by
      rintro rfl
      exact h _ hmem (List.mem_singleton_self _)
    rw [lookup_booking_write, if_neg hne]
  | _ => exact ⟨fun _ _ _ => rfl, fun _ _ => rfl⟩

/-- What the statements write keeps the records. -/
theorem exec_keepsRecords {s : Stmt} {o : Nat} {r : s.Rows} {ws : List Write}
    (hx : (exec cat s o d).result = .ok (r, ws)) (hw : w ∈ ws) : w.KeepsRecords d := by
  rcases exec_written hx with rfl | ⟨w', rfl, hwritten⟩
  · cases hw
  obtain rfl := List.mem_singleton.mp hw
  cases hwritten with
  | @booking id row status version hrow =>
    intro b hb
    obtain rfl := Option.some.inj (hrow.symm.trans hb)
    rfl
  | @insertBooking row hinsert hnone =>
    intro b hb
    rw [hnone] at hb
    cases hb
  | @key c key row hinsert =>
    subst hinsert
    exact (insertKey_ok hx).2.1
  | _ => exact trivial

theorem recordLock_exec {s : Stmt} {o : Nat} {r : s.Rows} {ws : List Write}
    (hx : (exec cat s o d).result = .ok (r, ws)) (hw : w ∈ ws) :
    ∀ k ∈ w.recordLock, k ∈ (exec cat s o d).locks := by
  have hlocks := exec_locks hx w hw
  cases w with
  | key c k row => exact hlocks
  | booking id row => exact hlocks
  | _ => exact fun k hk => nomatch hk

theorem vetting_records (cat : Catalog) (ι : Type) (d₀ : Database) :
    Vetting (chronos cat) (fun _ : ι => anyFacts.dialogue) (fun _ _ _ _ => True)
      d₀.KeepsRecords (fun _ d w => w.KeepsRecords d) Write.recordLock Database.SameRecords where
  exec i s o d r ws _ _ _ hx := by
    have hexec : (exec cat s o d).result = .ok (r, ws) := hx
    refine ⟨hears_anyFacts s r, ?_, fun w hw => recordLock_exec hexec hw⟩
    rcases exec_written hexec with rfl | ⟨w, rfl, -⟩
    · exact trivial
    · exact ⟨exec_keepsRecords hexec (List.mem_singleton_self w), trivial⟩
  note i a x d _ _ _ := by
    change Vets _ _ d ((noted a x).map (i, ·)) ∧ ∀ w ∈ noted a x, w.recordLock = []
    unfold noted
    split
    · exact ⟨⟨trivial, trivial⟩, fun w hw => by rw [List.mem_singleton.mp hw]; rfl⟩
    · exact ⟨⟨trivial, trivial⟩, fun w hw => by rw [List.mem_singleton.mp hw]; rfl⟩
    · exact ⟨⟨trivial, trivial⟩, fun w hw => by rw [List.mem_singleton.mp hw]; rfl⟩
    · exact ⟨trivial, fun _ hw => nomatch hw⟩
  write _ _ _ hd hw := hw.apply hd
  stable i d d' w hsame hw := hw.congr hsame
  sees_refl ks d := ⟨fun _ _ _ => rfl, fun _ _ => rfl⟩
  sees_trans ks d d' d'' h h' := ⟨fun c k hk => (h.keys c k hk).trans (h'.keys c k hk),
    fun id hid => (h.bookings id hid).trans (h'.bookings id hid)⟩
  sees_write ks d d' w h := h.write w
  sees_frame ks d w h := sameRecords_write h

end Records

/-- `d'` is a later state of the tables: any number of tasks have run since, in any order, over
    any connections, with anything failing. -/
def Later (cat : Catalog) (fromColumn : Instant → Except JsError Instant) (d d' : Database) :
    Prop :=
  ∃ (ι C : Type) (_ : DecidableEq ι) (_ : DecidableEq C) (tasks : ι → Task)
    (w : World Stmt.Rows Ask.Answer JsError Unit Database Write Lock C ι),
    Reaches (chronos cat) (fun _ _ => True) (World.init d fun i => (tasks i).program fromColumn) w ∧
      w.db = d'

/-- **Run lemma.**  Later, the records are still there. -/
theorem Later.keepsRecords {cat : Catalog} {fromColumn : Instant → Except JsError Instant}
    {d d' : Database} (h : Later cat fromColumn d d') : d.KeepsRecords d' := by
  obtain ⟨ι, C, _, _, tasks, w, hreach, rfl⟩ := h
  have hinit : (World.init d fun i => (tasks i).program fromColumn : World Stmt.Rows Ask.Answer
      JsError Unit Database Write Lock C ι).Vetted (chronos cat) (fun _ => anyFacts.dialogue)
      d.KeepsRecords (fun _ d w => w.KeepsRecords d) Write.recordLock :=
    vetted_init (.refl d) fun i => follows_task (admits_anyFacts (tasks i)) fun _ _ _ _ _ => trivial
  exact (World.Vetted.reaches (vetting_records cat ι d)
    (fun _ _ _ => ⟨fun _ _ _ _ _ _ => trivial, fun a _ _ => learns_anyFacts a _⟩) hinit hreach).db

/-! ### What is answered -/

/-- What `rescheduleBooking` can answer. -/
def Reply.OfReschedule (reply : Reply) : Prop :=
  (∃ id, reply = .created id false) ∨ ∃ status error, reply = .refused status error ∧
    (status = 400 ∨ status = 404 ∨ status = 409 ∨ status = 412)

/-- An answer is one of those. -/
def Answered (_ : List (Event Stmt Ask.Answer JsError)) (_ : Place Database Write)
    (r : Except JsError Reply) : Prop :=
  ∀ reply, r = .ok reply → reply.OfReschedule

section Answered

variable {cat : Catalog} {P : Env Nat JsError Ask.Answer → Prop} {req : RescheduleRequest}
variable {fromColumn : Instant → Except JsError Instant} {queue : Bool} {now : Instant}
variable {tr : List (Event Stmt Ask.Answer JsError)} {st : Place Database Write}

theorem ofReschedule_refused {status : Nat} {error : String}
    (h : status = 400 ∨ status = 404 ∨ status = 409 ∨ status = 412) :
    (Reply.refused status error).OfReschedule :=
  .inr ⟨status, error, rfl, h⟩

theorem ofReschedule_check {b : Option Booking} {refusal : Reply}
    (h : req.check b = .error refusal) : refusal.OfReschedule := by
  unfold RescheduleRequest.check at h
  split at h
  · rw [← Except.error.inj h]
    exact ofReschedule_refused (by decide)
  · split at h
    · rw [← Except.error.inj h]
      exact ofReschedule_refused (by decide)
    · split at h
      · rw [← Except.error.inj h]
        exact ofReschedule_refused (by decide)
      · cases h

theorem ofReschedule_refusal (e : JsError) : e.refusal.OfReschedule := by
  unfold JsError.refusal
  split
  · exact ofReschedule_refused (by decide)
  · exact ofReschedule_refused (by decide)

theorem answered_ok {reply : Reply} (h : reply.OfReschedule) : Answered tr st (.ok reply) := by
  intro reply' heq
  obtain rfl := Except.ok.inj heq
  exact h

theorem answered_error (tr : List (Event Stmt Ask.Answer JsError)) (st : Place Database Write)
    (e : JsError) : Answered tr st (.error e) := by
  intro reply h
  cases h

/-- After a part that may end in any way, when exceptions are fine. -/
theorem yields_after {α β : Type} {p : Program α} {f : α → Program β}
    {Q : List (Event Stmt Ask.Answer JsError) → Place Database Write → Except JsError β → Prop}
    (hthrow : ∀ tr st e, Q tr st (.error e)) (hf : ∀ tr st a, (f a).Yields (chronos cat) P Q tr st) :
    (p.bind f).Yields (chronos cat) P Q tr st := by
  have hp : p.Yields (chronos cat) P (fun _ _ _ => True) tr st :=
    (yields_extends p tr st).mono fun _ _ _ _ => trivial
  exact hp.bind (fun tr st a _ => hf tr st a) fun tr st e _ => hthrow tr st e

theorem yields_release {which : PoolClient} {r : Except JsError Reply} (h : Answered tr st r) :
    (perform (.release which)).Yields (chronos cat) P
      (fun tr st x => Answered tr st (afterFinally r x)) tr st := by
  refine (yields_extends _ tr st).mono fun tr' st' x _ => ?_
  cases x with
  | ok u => exact h
  | error e => exact answered_error tr' st' e

theorem answered_moveTransaction :
    (moveTransaction fromColumn req now queue).Yields (chronos cat) P Answered tr st := by
  refine Yields.tryCatch (Q := Answered) ?_ (fun _ _ _ h => h) fun tr st e _ =>
    yields_after answered_error fun tr st _ => answered_ok (ofReschedule_refusal e)
  refine yields_after answered_error fun tr st _ => yields_after answered_error fun tr st b => ?_
  split
  · next refusal hcheck => exact yields_after answered_error fun tr st _ => answered_ok (ofReschedule_check hcheck)
  · refine yields_after answered_error fun tr st slot => ?_
    split
    · exact yields_after answered_error fun tr st _ => answered_ok (ofReschedule_refused (by decide))
    · refine yields_after answered_error fun tr st _ => yields_after answered_error fun tr st _ => yields_after answered_error fun tr st id => ?_
      refine yields_after answered_error fun tr st _ => yields_after answered_error fun tr st _ => yields_after answered_error fun tr st _ => ?_
      exact yields_after answered_error fun tr st _ => yields_after answered_error fun tr st _ => answered_ok (.inl ⟨id, rfl⟩)

theorem answered_moveBooking {b : Booking} :
    (moveBooking fromColumn req now queue b).Yields (chronos cat) P Answered tr st := by
  refine yields_after answered_error fun tr st slot => ?_
  split
  · exact answered_ok (ofReschedule_refused (by decide))
  · exact yields_after answered_error fun tr st _ => answered_moveTransaction.tryFinally fun _ _ _ h =>
      yields_release h

/-- The refusal of a booking that is not loaded. -/
def LoadAnswered (_ : List (Event Stmt Ask.Answer JsError)) (_ : Place Database Write)
    (r : Except JsError (Except Reply Booking)) : Prop :=
  ∀ refusal, r = .ok (.error refusal) → refusal.OfReschedule

theorem answered_loadBooking :
    (loadBooking req).Yields (chronos cat) P LoadAnswered tr st := by
  have hthrow : ∀ (tr : List (Event Stmt Ask.Answer JsError)) (st : Place Database Write)
      (e : JsError), LoadAnswered tr st (.error e) := by
    intro tr st e refusal h
    cases h
  refine yields_after hthrow fun tr st _ => yields_after hthrow fun tr st b => ?_
  split
  · next refusal hcheck =>
    refine yields_after hthrow fun tr st _ => yields_after hthrow fun tr st _ => ?_
    intro refusal' heq
    obtain rfl := Except.error.inj (Except.ok.inj heq)
    exact ofReschedule_check hcheck
  · refine yields_after hthrow fun tr st _ => yields_after hthrow fun tr st _ => ?_
    intro refusal' heq
    cases heq

theorem answered_rescheduleBooking {nowUtc : Option Instant} :
    (rescheduleBooking fromColumn req nowUtc queue).Yields (chronos cat) P Answered tr st := by
  have hAt : ∀ (now : Instant) (tr : List (Event Stmt Ask.Answer JsError))
      (st : Place Database Write), (rescheduleBookingAt fromColumn req now queue).Yields
        (chronos cat) P Answered tr st := by
    intro now tr st
    refine yields_after answered_error fun tr st _ => ?_
    refine Yields.tryFinally (Q := Answered) ?_ fun _ _ _ h => yields_release h
    refine answered_loadBooking.bind ?_ fun tr st e _ => answered_error tr st e
    rintro tr st (refusal | b) h
    · exact answered_ok (h refusal rfl)
    · exact answered_moveBooking
  cases nowUtc with
  | some now => exact hAt now tr st
  | none => exact fun env _ => hAt _ _ _

end Answered

/-! ### No replay -/

section Replay

variable {cat : Catalog} {fromColumn : Instant → Except JsError Instant} {req : RescheduleRequest}
variable {d d' : Database} {nowUtc : Option Instant} {queue : Bool} {r : Except JsError Reply}

theorem alone_answers
    (h : Alone (chronos cat) (fun _ => True) d (rescheduleBooking fromColumn req nowUtc queue) d' r)
    {reply : Reply} (hr : r = .ok reply) : reply.OfReschedule := by
  obtain ⟨tr, hrun⟩ := alone_iff.mp h
  have hyields : (rescheduleBooking fromColumn req nowUtc queue).Yields (chronos cat)
      (fun _ => True) Answered [] (.free d) := answered_rescheduleBooking
  obtain ⟨st, -, hanswered⟩ := hyields.performs (performs_iff_performsIn.mp hrun)
  exact hanswered reply hr

/-- A call that is answered `201` has committed a move. -/
theorem alone_created {id : BookingId}
    (h : Alone (chronos cat) (fun _ => True) d (rescheduleBooking fromColumn req nowUtc queue) d'
      (.ok (.created id false))) :
    ∃ now old slot reminders ws, GuardedMove cat fromColumn req now d old slot reminders id ws ∧
      SameBut ((chronos cat).apply ws d) d' := by
  have hends := keeps_alone (P := fun _ => True) (R := RescheduleEnds d fun id g =>
      ∃ now old slot reminders ws, GuardedMove cat fromColumn req now d old slot reminders id ws ∧
        SameBut ((chronos cat).apply ws d) g)
    (keeps_rescheduleBooking solo_stays (fun _ _ _ _ => trivial)
    (fun now d₁ old slot reminders id ws _ _ hd hmove => ?_)
    (fun id g d₁ ws hg hd hws => ?_)) h
  · rcases hends with ⟨-, hnot⟩ | ⟨id', hmove, hr | ⟨e, he⟩⟩
    · exact absurd rfl (hnot id)
    · obtain rfl : id = id' := by simpa [Reply.created] using hr
      exact hmove
    · cases he
  · obtain rfl : d₁ = d := hd
    exact solo_next ⟨now, old, slot, reminders, ws, hmove, .refl _⟩
  · obtain ⟨now, old, slot, reminders, ws₀, hmove, hsame⟩ := hg
    obtain rfl : d₁ = g := hd
    refine solo_next ⟨now, old, slot, reminders, ws₀, hmove, hsame.trans ?_⟩
    exact hws.elim sameBut_apply sameBut_apply

/-- The key of a move is recorded, under the client of the booking. -/
theorem GuardedMove.recorded {now : Instant} {old : Booking} {slot : Slot}
    {reminders ws : List Write} {id : BookingId} {key : String}
    (h : GuardedMove cat fromColumn req now d old slot reminders id ws)
    (hkey : truthy req.idempotencyKey = some key) :
    ((chronos cat).apply ws d).idempotencyKeys.lookup (old.clientId, key) =
        some ⟨req.json, 201, id⟩ ∧
      ((chronos cat).apply ws d).bookings.lookup req.bookingId =
        some { old with status := .cancelled } := by
  constructor
  · rw [h.keys, if_pos ⟨rfl, hkey⟩]
  · rw [h.bookings, if_neg h.newId_ne, if_pos rfl]

/-- **A key is used once.**  Where the client of the booking has used the key, the request commits
    no move. -/
theorem not_created_of_used {key : String} {b : Booking} {row : IdempotencyKey} {id : BookingId}
    (hkey : truthy req.idempotencyKey = some key) (hb : d.bookings.lookup req.bookingId = some b)
    (hrow : d.idempotencyKeys.lookup (b.clientId, key) = some row) :
    ¬ Alone (chronos cat) (fun _ => True) d (rescheduleBooking fromColumn req nowUtc queue) d'
      (.ok (.created id false)) := by
  intro h
  obtain ⟨now, old, slot, reminders, ws, hmove, -⟩ := alone_created h
  obtain rfl := Option.some.inj (hmove.booking.symm.trans hb)
  have hunused := hmove.unused key hkey
  rw [hrow] at hunused
  cases hunused

/-- What a call that was answered `201` promises: later, the same request is answered with the
    same booking, and changes no table. -/
def Replayed (cat : Catalog) (fromColumn : Instant → Except JsError Instant)
    (req : RescheduleRequest) (id : BookingId) (d : Database) : Prop :=
  ∀ d₁, Later cat fromColumn d d₁ → ∀ nowUtc queue d₂ r,
    Alone (chronos cat) (fun _ => True) d₁ (rescheduleBooking fromColumn req nowUtc queue) d₂ r →
      (∃ replay, r = .ok (.created id replay)) ∧ SameTables d₁ d₂

theorem Later.refl (cat : Catalog) (fromColumn : Instant → Except JsError Instant) (d : Database) :
    Later cat fromColumn d d :=
  ⟨Unit, Unit, inferInstance, inferInstance, fun _ => .claimDue, _, .start, rfl⟩

end Replay

/-- **`rescheduleBooking` ignores the key it was given.**  A move has been committed under a key and
    answered `201`.  However much later the same request is made, it is not answered `201` again;
    and no request is ever answered `422`. -/
theorem reschedule_ignores_key (cat : Catalog) (fromColumn : Instant → Except JsError Instant)
    (req : RescheduleRequest) (key : String) (hkey : truthy req.idempotencyKey = some key)
    (nowUtc : Option Instant) (queue : Bool) (d d₁ : Database) (id : BookingId)
    (h : Alone (chronos cat) (fun _ => True) d (rescheduleBooking fromColumn req nowUtc queue) d₁
      (.ok (.created id false))) :
    (∀ d₂, Later cat fromColumn d₁ d₂ → ∀ nowUtc queue d₃ r,
      Alone (chronos cat) (fun _ => True) d₂ (rescheduleBooking fromColumn req nowUtc queue) d₃ r →
        ∀ reply, r = .ok reply → reply.status ≠ 201) ∧
    ¬ Replayed cat fromColumn req id d₁ ∧
    ∀ req' nowUtc queue d₂ d₃ reply, Alone (chronos cat) (fun _ => True) d₂
      (rescheduleBooking fromColumn req' nowUtc queue) d₃ (.ok reply) → reply.status ≠ 422 := by
  have hagain : ∀ d₂, Later cat fromColumn d₁ d₂ → ∀ nowUtc queue d₃ r, Alone (chronos cat)
      (fun _ => True) d₂ (rescheduleBooking fromColumn req nowUtc queue) d₃ r →
        ∀ reply, r = .ok reply → reply.status ≠ 201 := by
    intro d₂ hlater nowUtc' queue' d₃ r h₂ reply hr
    obtain ⟨now, old, slot, reminders, ws, hmove, hsame⟩ := alone_created h
    obtain ⟨hrow, hold⟩ := hmove.recorded hkey
    -- The row of the key and the client of the booking are still there.
    rw [← hsame.idempotencyKeys] at hrow
    rw [← hsame.bookings] at hold
    have hrow₂ := hlater.keepsRecords.keys _ _ hrow
    obtain ⟨b, hb, hclient⟩ := hlater.keepsRecords.clients _ _ hold
    rw [← hclient] at hrow₂
    rcases alone_answers h₂ hr with ⟨id', rfl⟩ | ⟨status, error, rfl, hstatus⟩
    · rw [hr] at h₂
      exact absurd h₂ (not_created_of_used hkey hb hrow₂)
    · show status ≠ 201
      omega
  refine ⟨hagain, fun hreplayed => ?_, ?_⟩
  · obtain ⟨tr, d₂, r, hrun⟩ := performsIn_total (E := chronos cat) (P := fun _ => True)
      ⟨calmEnv 0 0, trivial⟩ (rescheduleBooking fromColumn req nowUtc queue) .idle d₁
    have halone := alone_iff.mpr ⟨tr, performs_iff_performsIn.mpr hrun⟩
    obtain ⟨⟨replay, hr⟩, -⟩ := hreplayed d₁ (.refl cat fromColumn d₁) nowUtc queue d₂ r halone
    exact hagain d₁ (.refl cat fromColumn d₁) nowUtc queue d₂ r halone _ hr rfl
  · intro req' nowUtc' queue' d₂ d₃ reply h₂
    rcases alone_answers h₂ rfl with ⟨id', rfl⟩ | ⟨status, error, rfl, hstatus⟩
    · show 201 ≠ 422
      decide
    · show status ≠ 422
      omega

/-- `sampleMove` under a key. -/
def sampleKeyedMove : RescheduleRequest := { sampleMove with idempotencyKey := some "k" }

/-- `sampleTwoSlots` after `sampleKeyedMove`. -/
theorem sample_keyed_move : ∃ d₁, Alone (chronos sampleCatalog) (fun _ => True) sampleTwoSlots
      (rescheduleBooking .ok sampleKeyedMove (some 0) false) d₁ (.ok (.created 2 false)) ∧
    ∃ d₂, Alone (chronos sampleCatalog) (fun _ => True) d₁
      (rescheduleBooking .ok sampleKeyedMove (some 0) false) d₂
        (.ok (.refused 409 "invalid_transition")) := by
  have hrun : ∃ d₁, runAlone (chronos sampleCatalog) (List.replicate 21 (calmEnv 2 0)) .idle
      sampleTwoSlots (rescheduleBooking .ok sampleKeyedMove (some 0) false) =
        some (.idle, d₁, ret (.created 2 false)) ∧ ∃ d₂,
    runAlone (chronos sampleCatalog) (List.replicate 6 (calmEnv 2 0)) .idle d₁
      (rescheduleBooking .ok sampleKeyedMove (some 0) false) =
        some (.idle, d₂, ret (.refused 409 "invalid_transition")) :=
    ⟨_, by with_unfolding_all rfl, _, by with_unfolding_all rfl⟩
  obtain ⟨d₁, h₁, d₂, h₂⟩ := hrun
  exact ⟨d₁, ⟨_, _, _, fun _ _ => trivial, h₁, rfl⟩, d₂, _, _, _, fun _ _ => trivial, h₂, rfl⟩

theorem sample_ignores_key : ∃ d₁ id, ¬ Replayed sampleCatalog .ok sampleKeyedMove id d₁ := by
  obtain ⟨d₁, h₁, -⟩ := sample_keyed_move
  exact ⟨d₁, 2, (reschedule_ignores_key sampleCatalog .ok sampleKeyedMove "k" rfl (some 0) false
    sampleTwoSlots d₁ 2 h₁).2.1⟩

/-- The move is answered `201`, and the same request, right after it, `409`. -/
theorem second_move_refused : ∃ d₁ d₂, Alone (chronos sampleCatalog) (fun _ => True) sampleTwoSlots
      (rescheduleBooking .ok sampleKeyedMove (some 0) false) d₁ (.ok (.created 2 false)) ∧
    Alone (chronos sampleCatalog) (fun _ => True) d₁
      (rescheduleBooking .ok sampleKeyedMove (some 0) false) d₂
        (.ok (.refused 409 "invalid_transition")) ∧
    ¬ Replayed sampleCatalog .ok sampleKeyedMove 2 d₁ := by
  obtain ⟨d₁, h₁, d₂, h₂⟩ := sample_keyed_move
  refine ⟨d₁, d₂, h₁, h₂, fun hreplayed => ?_⟩
  obtain ⟨⟨replay, hr⟩, -⟩ := hreplayed d₁ (.refl _ _ d₁) (some 0) false d₂ _ h₂
  simp [Reply.created, Reply.refused] at hr

end Chronos
