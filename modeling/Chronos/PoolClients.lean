import Chronos.AtomicMove
import Chronos.ReadCommitted.Solitary

namespace Chronos

open ReadCommitted ReadCommitted.Prog

/-!
# The pool clients of `rescheduleBooking`

`loadBooking` releases `clientPre` on each of its paths, and the outer `finally` of
`rescheduleBooking` releases it once more.  A pool that does not take a client twice
(`poolKept`, as node-postgres does) throws there, and the exception of a `finally` is the
result of the call.

`reschedule_never_answers` says so of every call: in such a pool it rejects, also where it has
committed the move.
-/

/-- node-postgres: a client can be released once, and not again.  `released` are the clients
    that have been released so far. -/
def poolKept (released : List PoolClient) : List (Event Stmt Ask.Answer JsError) → Bool
  | [] => true
  | .answered (.effect (.release which)) x :: tr =>
      (x.isOk == !released.contains which) && poolKept (which :: released) tr
  | _ :: tr => poolKept released tr

/-- How many times a client is released. -/
def releases (which : PoolClient) (tr : List (Event Stmt Ask.Answer JsError)) : Nat :=
  tr.countP fun
    | .answered (.effect (.release which')) _ => decide (which' = which)
    | _ => false

/-- `nowUtc || clock.now()`; the clock is the first thing a call asks. -/
def effectiveNow (nowUtc : Option Instant) (tr : List (Event Stmt Ask.Answer JsError)) : Instant :=
  match nowUtc, tr with
  | some now, _ => now
  | none, .answered .now now :: _ => now
  | none, _ => 0

/-- The booking may be moved at time `now`. -/
def RescheduleRequest.Allowed (req : RescheduleRequest) (d : Database) (now : Instant) : Prop :=
  ∃ b slot, d.bookings.lookup req.bookingId = some b ∧ b.status = .booked ∧
    req.version.isInt b.version = true ∧ req.ifMatch.isInt b.version = true ∧
    req.windowExpired (d.slots.lookup b.slotId) now = false ∧
    d.slots.lookup req.newSlotId = some slot ∧ slot.status = .«open» ∧ now < slot.slotStartUtc

/-- The move has been committed: the old booking is cancelled, and there is a new one on the
    new slot. -/
def RescheduleRequest.MovedIn (req : RescheduleRequest) (d d' : Database) : Prop :=
  ∃ old id row, d'.bookings.lookup req.bookingId = some old ∧ old.status = .cancelled ∧
    d.bookings.lookup id = none ∧ d'.bookings.lookup id = some row ∧ row.slotId = req.newSlotId

/-- **What a call of `rescheduleBooking` promises**: it resolves, each client it has checked out
    is released once, and its answer is `201` exactly when the move was allowed and has been
    committed. -/
structure Answers (req : RescheduleRequest) (nowUtc : Option Instant) (d d' : Database)
    (tr : List (Event Stmt Ask.Answer JsError)) (r : Except JsError Reply) : Prop where
  resolves : ∃ reply, r = .ok reply
  released : ∀ which, .answered (.effect (.connect which)) (.ok ()) ∈ tr → releases which tr = 1
  created : ∀ reply, r = .ok reply → (reply.status = 201 ↔
    req.Allowed d (effectiveNow nowUtc tr) ∧ req.MovedIn d d')

/-- No query fails from outside. -/
def Faultless (env : Env Nat JsError Ask.Answer) : Prop := env.fault = none

/-! ### Released twice -/

section Pool

variable {tr : List (Event Stmt Ask.Answer JsError)} {released : List PoolClient}

/-- The client has been released. -/
def Released (which : PoolClient) (tr : List (Event Stmt Ask.Answer JsError)) : Prop :=
  ∃ x, .answered (.effect (.release which)) x ∈ tr

theorem Released.mono {which : PoolClient} {tr' : List (Event Stmt Ask.Answer JsError)}
    (h : Released which tr) (htr : tr <+: tr') : Released which tr' := by
  obtain ⟨x, hx⟩ := h
  exact ⟨x, htr.subset hx⟩

/-- **The second release throws.** -/
theorem poolKept_again {which : PoolClient} {x : Except JsError Unit}
    (hpool : poolKept released (tr ++ [.answered (.effect (.release which)) x]) = true)
    (h : which ∈ released ∨ Released which tr) : ∃ e, x = .error e := by
  induction tr generalizing released with
  | nil =>
    have hmem : which ∈ released := by
      rcases h with hmem | ⟨y, hy⟩
      · exact hmem
      · simp at hy
    cases x with
    | error e => exact ⟨e, rfl⟩
    | ok u => simp [poolKept, Except.isOk, Except.toBool, hmem] at hpool
  | cons ev tr ih =>
    rw [List.cons_append] at hpool
    unfold poolKept at hpool
    split at hpool
    · next heq => cases heq
    · next which' y tr' heq =>
      obtain ⟨rfl, rfl⟩ := List.cons.inj heq
      rw [Bool.and_eq_true] at hpool
      refine ih hpool.2 ?_
      rcases h with hmem | ⟨z, hz⟩
      · exact Or.inl (List.mem_cons_of_mem _ hmem)
      · rcases List.mem_cons.mp hz with hhead | htail
        · cases hhead
          exact Or.inl List.mem_cons_self
        · exact Or.inr ⟨z, htail⟩
    · next ev' tr' hother heq =>
      obtain ⟨rfl, rfl⟩ := List.cons.inj heq
      refine ih hpool ?_
      rcases h with hmem | ⟨z, hz⟩
      · exact Or.inl hmem
      · rcases List.mem_cons.mp hz with hhead | htail
        · exact absurd hhead.symm (hother which z)
        · exact Or.inr ⟨z, htail⟩

end Pool

section Call

variable {cat : Catalog} {P : Env Nat JsError Ask.Answer → Prop} {req : RescheduleRequest}
variable {fromColumn : Instant → Except JsError Instant} {queue : Bool} {now : Instant}
variable {tr : List (Event Stmt Ask.Answer JsError)} {st : Place Database Write}

/-- Where the `finally` of `rescheduleBooking` begins: after a `return`, `clientPre` has been
    released. -/
def PreReleased {α : Type} (tr : List (Event Stmt Ask.Answer JsError)) (_ : Place Database Write) :
    Except JsError α → Prop
  | .ok _ => Released .clientPre tr
  | .error _ => True

theorem yields_loadBooking :
    (loadBooking req).Yields (chronos cat) P PreReleased tr st := by
  have hrelease : ∀ (x : Except Reply Booking) (tr : List (Event Stmt Ask.Answer JsError))
      (st : Place Database Write), ((perform (.release .clientPre)).bind fun _ => ret x).Yields
        (chronos cat) P PreReleased tr st := by
    intro x tr st env _
    cases hx : env.answer (.effect (.release .clientPre)) with
    | error e => exact trivial
    | ok u =>
      show Released .clientPre (tr ++ [_])
      exact ⟨_, List.mem_append_right _ (List.mem_singleton_self _)⟩
  intro env _
  refine ⟨fun e _ => trivial, fun _ => ⟨fun st₁ _ env₁ _ => ?_, fun _ => trivial⟩⟩
  refine ⟨fun e _ => trivial, fun _ => ⟨fun b st₂ _ => ?_, fun e st₂ _ => trivial⟩⟩
  simp only [andThen]
  -- Every path of the first transaction ends it and releases `clientPre`.
  cases req.check b with
  | error refusal =>
    intro env₂ _
    exact ⟨fun e _ => trivial, fun _ => ⟨fun st₃ _ => hrelease _ _ _, fun _ => trivial⟩⟩
  | ok row =>
    intro env₂ _
    exact ⟨fun e _ => trivial, fun _ => ⟨fun st₃ _ => hrelease _ _ _, fun _ => trivial⟩⟩

/-- Where a call ends: in a pool that is kept, with an exception. -/
def Rejects (tr : List (Event Stmt Ask.Answer JsError)) (_ : Place Database Write)
    (r : Except JsError Reply) : Prop :=
  poolKept [] tr = true → ∃ e, r = .error e

/-- **Step lemma.**  The `finally` releases what has been released. -/
theorem yields_finallyRelease {r : Except JsError Reply} (h : PreReleased tr st r) :
    (perform (.release .clientPre)).Yields (chronos cat) P
      (fun tr st x => Rejects tr st (afterFinally r x)) tr st := by
  intro env _
  cases hx : env.answer (.effect (.release .clientPre)) with
  | error e => exact fun _ => ⟨e, rfl⟩
  | ok u =>
    intro hpool
    cases r with
    | error e => exact ⟨e, rfl⟩
    | ok reply =>
      obtain ⟨e, he⟩ := poolKept_again hpool (Or.inr h)
      cases he

theorem yields_rescheduleBookingAt :
    (rescheduleBookingAt fromColumn req now queue).Yields (chronos cat) P Rejects tr st := by
  intro env _
  cases hx : env.answer (.effect (.connect .clientPre)) with
  | error e => exact fun _ => ⟨e, rfl⟩
  | ok u =>
    refine Yields.tryFinally (Q := PreReleased) ?_ fun _ _ _ h => yields_finallyRelease h
    refine yields_loadBooking.bind ?_ fun _ _ _ _ => trivial
    rintro tr₁ st₁ (refusal | b) h
    · exact h
    · -- Whatever follows only adds to the events.
      refine (yields_extends _ tr₁ st₁).mono fun tr₂ st₂ r hpre => ?_
      cases r with
      | error e => trivial
      | ok reply => exact h.mono hpre

theorem rescheduleBooking_rejects (d d' : Database) (nowUtc : Option Instant)
    (r : Except JsError Reply)
    (h : Performs (chronos cat) .idle d (rescheduleBooking fromColumn req nowUtc queue) tr d' r)
    (hpool : poolKept [] tr = true) : ∃ e, r = .error e := by
  have hyields : (rescheduleBooking fromColumn req nowUtc queue).Yields (chronos cat)
      (fun _ => True) Rejects [] (.free d) := by
    cases nowUtc with
    | some now => exact yields_rescheduleBookingAt
    | none => exact fun env _ => yields_rescheduleBookingAt
  obtain ⟨st, -, hrejects⟩ := hyields.performs (performs_iff_performsIn.mp h)
  exact hrejects hpool

end Call

/-! ### Every call has a run -/

/-- node-postgres, when these clients have been released. -/
def pooled (released : List PoolClient) : Env Nat JsError Ask.Answer :=
  ⟨0, none, fun a => match a with
    | .now => 0
    | .effect (.release which) =>
        if which ∈ released then
          .error ⟨none, "Release called on client which has already been released to the pool."⟩
        else .ok ()
    | .effect _ => .ok ()
    | .queueAdd .. => .ok 0
    | .selectClient _ => .ok none
    | .sendEmail .. => .sent none⟩

/-- The clients that are released after an event. -/
def releasedBy (released : List PoolClient) : Event Stmt Ask.Answer JsError → List PoolClient
  | .answered (.effect (.release which)) _ => which :: released
  | _ => released

theorem poolKept_of_guided {released : List PoolClient}
    {tr : List (Event Stmt Ask.Answer JsError)} (h : Guided pooled releasedBy released tr) :
    poolKept released tr = true := by
  induction tr generalizing released with
  | nil => rfl
  | cons ev tr ih =>
    obtain ⟨hev, htr⟩ := h
    have hrest := ih htr
    unfold poolKept
    split
    · rfl
    · next which x tr' heq =>
      obtain ⟨rfl, rfl⟩ := List.cons.inj heq
      rw [Bool.and_eq_true]
      refine ⟨?_, hrest⟩
      rw [hev _ _ rfl]
      by_cases hmem : which ∈ released
      · simp [pooled, hmem, Except.isOk, Except.toBool]
      · simp [pooled, hmem, Except.isOk, Except.toBool]
    · next ev' tr' hother heq =>
      obtain ⟨rfl, rfl⟩ := List.cons.inj heq
      have hsame : releasedBy released ev = released := by
        unfold releasedBy
        split
        · next which x => exact absurd rfl (hother which x)
        · rfl
      rwa [hsame] at hrest

/-- **`rescheduleBooking` never answers.**  In a pool that is kept, every call has a run in which
    no query fails, and every run of every call rejects. -/
theorem reschedule_never_answers (cat : Catalog) (fromColumn : Instant → Except JsError Instant)
    (req : RescheduleRequest) (nowUtc : Option Instant) (queue : Bool) (d : Database) :
    (∃ tr d' r, PerformsIn (chronos cat) Faultless .idle d
        (rescheduleBooking fromColumn req nowUtc queue) tr d' r ∧ poolKept [] tr = true) ∧
    ∀ tr d' r, Performs (chronos cat) .idle d (rescheduleBooking fromColumn req nowUtc queue) tr
        d' r → poolKept [] tr = true → (∃ e, r = .error e) ∧ ¬ Answers req nowUtc d d' tr r := by
  constructor
  · obtain ⟨tr, d', r, h, hguided⟩ := performsIn_guided (E := chronos cat) (P := Faultless) pooled
      releasedBy (fun _ => rfl) (rescheduleBooking fromColumn req nowUtc queue) [] .idle d
    exact ⟨tr, d', r, h, poolKept_of_guided hguided⟩
  · intro tr d' r h hpool
    obtain ⟨e, rfl⟩ := rescheduleBooking_rejects d d' nowUtc r h hpool
    refine ⟨⟨e, rfl⟩, fun hans => ?_⟩
    obtain ⟨reply, hreply⟩ := hans.resolves
    cases hreply

/-- `Temporal.Instant.from` of the `Date` the driver returns for a `timestamptz` column. -/
def dateColumn (_ : Instant) : Except JsError Instant := .error ⟨none, "invalid ISO 8601 string"⟩

/-- A move that is allowed, and a call that throws away its answer: the reminder times cannot be
    computed, so it gives up the transaction, and then its result. -/
theorem released_twice :
    ∃ tr d' r, PerformsIn (chronos sampleCatalog) Faultless .idle sampleTwoSlots
        (rescheduleBooking dateColumn sampleMove (some 0) false) tr d' r ∧
      poolKept [] tr = true ∧ ¬ Answers sampleMove (some 0) sampleTwoSlots d' tr r := by
  have hrun : runAlone (chronos sampleCatalog)
      (List.replicate 16 (pooled []) ++ [pooled [.clientPre]]) .idle sampleTwoSlots
      (rescheduleBooking dateColumn sampleMove (some 0) false) =
        some (.idle, sampleTwoSlots, Prog.throw ⟨none,
          "Release called on client which has already been released to the pool."⟩) := by
    with_unfolding_all rfl
  refine ⟨_, _, _, performsIn_eventsAlone (P := Faultless) ?_ hrun rfl, ?_, ?_⟩
  · intro env henv
    rcases List.mem_append.mp henv with hmem | hmem
    · rw [List.eq_of_mem_replicate hmem]
      rfl
    · rw [List.mem_singleton.mp hmem]
      rfl
  · with_unfolding_all rfl
  · intro hans
    obtain ⟨reply, hreply⟩ := hans.resolves
    cases hreply

end Chronos
