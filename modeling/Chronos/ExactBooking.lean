import Chronos.CalmBooking
import Chronos.ReadCommitted.Solitary

namespace Chronos

open ReadCommitted ReadCommitted.Prog

/-!
# The exact effect of `createBooking`

A `createBooking` that runs alone, without a queue and with no statement failing but for a
violated constraint, books its slot exactly when the request is one to accept (`Accepts`), and
what it changes is `BooksExactly`.

The start of the slot is compared with the time of the call as well as with the end of the
provider's notice, so a negative notice lets nobody book the past.

* `booking_exact` — both, for every request and every clock.
-/

/-- **A request to accept.** -/
structure Accepts (cat : Catalog) (d : Database) (req : BookingRequest) (now : Instant) : Prop where
  slot : ∃ row, d.slots.lookup req.slotId = some row ∧ row.status = .«open» ∧
    now ≤ row.slotStartUtc ∧ now + hoursMs (req.noticeHours cat d) ≤ row.slotStartUtc
  fits : ∀ e, req.eventTypeId = some e → EventTypeFits cat e req.slotId d
  client : cat.clients req.clientId = true
  free : ∀ i, ¬ d.LiveOn req.slotId i
  unused : ∀ key, truthy req.idempotencyKey = some key →
    d.idempotencyKeys.lookup (req.clientId, key) = none

/-- The offsets whose reminder is still to come, each by its own reading of the clock. -/
def dueOffsets (slotStartUtc : Instant) (clocks : List (Nat × Instant)) : List Nat :=
  (clocks.filter fun x => decide (x.2 < slotStartUtc - minutesMs x.1)).map Prod.fst

/-- **What an accepted request changes**: its slot is booked, booking `id` is added, the reminders
    that are still to come are scheduled, and the key is kept, if there is one. -/
structure BooksExactly (d d' : Database) (req : BookingRequest) (id : BookingId) (row : Slot)
    (clocks : List Instant) : Prop where
  slot : d.slots.lookup req.slotId = some row
  fresh : d.bookings.lookup id = none
  slots : ∀ s, d'.slots.lookup s =
    if s = req.slotId then some { row with status := .booked } else d.slots.lookup s
  bookings : ∀ i, d'.bookings.lookup i =
    if i = id then some req.booking else d.bookings.lookup i
  reminderJobs : ∀ k, d'.reminderJobs.lookup k =
    if k.1 = id ∧ k.2 ∈ dueOffsets row.slotStartUtc (reminderOffsets.zip clocks) then
      some ⟨row.slotStartUtc - minutesMs k.2, .scheduled, none⟩
    else d.reminderJobs.lookup k
  idempotencyKeys : ∀ k, d'.idempotencyKeys.lookup k =
    if k.1 = req.clientId ∧ truthy req.idempotencyKey = some k.2 then some ⟨req.json, 201, id⟩
    else d.idempotencyKeys.lookup k

/-- The readings of the clock among some events. -/
def readings (tr : List (Event Stmt Ask.Answer JsError)) : List Instant :=
  tr.filterMap fun ev => match ev with
    | .answered .now x => some x
    | _ => none

@[simp] theorem readings_append (tr tr' : List (Event Stmt Ask.Answer JsError)) :
    readings (tr ++ tr') = readings tr ++ readings tr' := List.filterMap_append

@[simp] theorem readings_nil : readings [] = [] := rfl
@[simp] theorem readings_ran (s : Stmt) (tr : List (Event Stmt Ask.Answer JsError)) :
    readings (.ran s :: tr) = readings tr := rfl
@[simp] theorem readings_controlled (c : Control) (tr : List (Event Stmt Ask.Answer JsError)) :
    readings (.controlled c :: tr) = readings tr := rfl
@[simp] theorem readings_now (now : Instant) (tr : List (Event Stmt Ask.Answer JsError)) :
    readings (.answered .now now :: tr) = now :: readings tr := rfl

@[simp] theorem dueOffsets_nil (start : Instant) : dueOffsets start [] = [] := rfl

theorem dueOffsets_cons (start : Instant) (offset : Nat) (now : Instant)
    (clocks : List (Nat × Instant)) :
    dueOffsets start ((offset, now) :: clocks) =
      if now < start - minutesMs offset then offset :: dueOffsets start clocks
      else dueOffsets start clocks := by
  unfold dueOffsets
  by_cases h : now < start - minutesMs offset
  · simp [h]
  · simp [h]

theorem mem_of_mem_dueOffsets {start : Instant} {clocks : List (Nat × Instant)} {offset : Nat}
    (h : offset ∈ dueOffsets start clocks) : ∃ now, (offset, now) ∈ clocks := by
  obtain ⟨⟨offset', now⟩, hmem, heq⟩ := List.mem_map.mp h
  obtain rfl : offset' = offset := heq
  exact ⟨now, (List.mem_filter.mp hmem).1⟩

theorem newReminders_dueOffsets (id : BookingId) (start : Instant) (clocks : List Instant) :
    NewReminders id start
      (reminderWrites id start (dueOffsets start (reminderOffsets.zip clocks))) := by
  intro w hw
  obtain ⟨offset, hoffset, rfl⟩ := List.mem_map.mp hw
  obtain ⟨now, hmem⟩ := mem_of_mem_dueOffsets hoffset
  exact ⟨offset, (List.of_mem_zip hmem).1, rfl⟩

/-- The writes of a booking whose reminders are those still to come. -/
theorem NewBooking.exactly {cat : Catalog} {req : BookingRequest} {now minStart : Instant}
    {d : Database} {row : Slot} {id : BookingId} {clocks : List Instant} {reminders ws : List Write}
    (h : NewBooking cat req now minStart d row reminders id ws)
    (hreminders : reminders = reminderWrites id row.slotStartUtc
      (dueOffsets row.slotStartUtc (reminderOffsets.zip clocks))) :
    BooksExactly d ((chronos cat).apply ws d) req id row clocks where
  slot := h.slot
  fresh := h.fresh
  slots := h.slots
  bookings := h.bookings
  reminderJobs k := by
    rw [h.apply, bookings_keyWrites.2.2, hreminders, lookup_reminderWrites]
    rfl
  idempotencyKeys := h.keys

/-! ### The reads before the transaction -/

section Reads

variable {cat : Catalog} {d : Database} {req : BookingRequest}
variable {tr : List (Event Stmt Ask.Answer JsError)} {α : Type}

theorem refused_ne_created (status : Nat) (error : String) (id : BookingId) :
    some (Reply.refused status error) ≠ some (.created id false) := by
  simp [Reply.refused, Reply.created]

/-- A part that has read the clock no more, and ends with `a`. -/
def ReadsTo (d : Database) (tr : List (Event Stmt Ask.Answer JsError)) (a : α)
    (tr' : List (Event Stmt Ask.Answer JsError)) (st : Place Database Write)
    (r : Except JsError α) : Prop :=
  readings tr' = readings tr ∧ st = .free d ∧ r = .ok a

theorem undisturbed_fault {env : Env Nat JsError Ask.Answer} {e : JsError} (h : Undisturbed d env)
    (hf : env.fault = some e) : False := by
  rw [h.1] at hf
  cases hf

theorem yields_notice :
    (configuredNoticeHours req).Yields (chronos cat) (Undisturbed d)
      (ReadsTo d tr (req.noticeHours cat d)) tr (.free d) := by
  refine Yields.tryCatch (Q := ReadsTo d tr (req.noticeHours cat d)) ?_ (fun _ _ _ h => h)
    fun _ _ _ h => by simp [ReadsTo] at h
  refine yields_read (fun _ => rfl) ?_ fun _ _ henv hf => (undisturbed_fault henv hf).elim
  simp only [andThen, BookingRequest.noticeHours]
  generalize ((d.slots.lookup req.slotId).map Slot.providerId).or req.providerId = providerId
  cases providerId with
  | none => exact ⟨by simp, rfl, rfl⟩
  | some providerId =>
    exact yields_read (fun _ => rfl) ⟨by simp, rfl, rfl⟩
      fun _ _ henv hf => (undisturbed_fault henv hf).elim

/-- The event type is refused unless it fits. -/
theorem yields_eventType :
    (validateEventType req).Yields (chronos cat) (Undisturbed d)
      (fun tr' st r => ∃ refusal, ReadsTo d tr refusal tr' st r ∧
        (refusal = none ↔ ∀ e, req.eventTypeId = some e → EventTypeFits cat e req.slotId d) ∧
        ∀ id, refusal ≠ some (.created id false)) tr (.free d) := by
  unfold validateEventType
  split
  · next hnone => exact ⟨none, ⟨rfl, rfl, rfl⟩, by simp [hnone], by simp⟩
  · next e he =>
    have hiff : (∀ e', req.eventTypeId = some e' → EventTypeFits cat e' req.slotId d) ↔
        EventTypeFits cat e req.slotId d := by simp [he]
    refine Yields.tryCatch (Q := fun tr' st r => ∃ refusal, ReadsTo d tr refusal tr' st r ∧
      (refusal = none ↔ ∀ e, req.eventTypeId = some e → EventTypeFits cat e req.slotId d) ∧
      ∀ id, refusal ≠ some (.created id false)) ?_
      (fun _ _ _ h => h) fun _ _ _ h => by
        obtain ⟨refusal, ⟨-, -, hr⟩, -⟩ := h
        cases hr
    refine yields_read (fun _ => rfl) ?_ fun _ _ henv hf => (undisturbed_fault henv hf).elim
    simp only [andThen]
    cases het : cat.eventTypes e with
    | none =>
      refine ⟨some (.refused 400 "invalid_event_type_not_found"), ⟨by simp, rfl, rfl⟩, ?_,
        fun id => refused_ne_created _ _ id⟩
      rw [hiff]
      simp [EventTypeFits, het]
    | some et =>
      refine yields_read (fun _ => rfl) ?_ fun _ _ henv hf => (undisturbed_fault henv hf).elim
      simp only [andThen]
      split
      · next hwrong =>
        -- The event type belongs to another provider than the slot.
        refine ⟨some (.refused 400 "event_type_wrong_provider"), ⟨by simp, rfl, rfl⟩, ?_,
          fun id => refused_ne_created _ _ id⟩
        rw [hiff]
        refine iff_of_false (by simp) ?_
        rintro ⟨et', het', howner⟩
        rw [het, Option.some.injEq] at het'
        subst het'
        exact hwrong.2 (howner hwrong.1)
      · next hfits =>
        refine ⟨none, ⟨by simp, rfl, rfl⟩, ?_, by simp⟩
        rw [hiff]
        refine iff_of_true rfl ⟨et, het, fun hsome => ?_⟩
        by_contra hne
        exact hfits ⟨hsome, hne⟩

/-- A key that is used is answered by the check. -/
theorem yields_key :
    (checkIdempotencyKey req).Yields (chronos cat) (Undisturbed d)
      (fun tr' st r => ∃ answer, ReadsTo d tr answer tr' st r ∧
        (answer = none ↔ ∀ key, truthy req.idempotencyKey = some key →
          d.idempotencyKeys.lookup (req.clientId, key) = none) ∧
        ∀ id, answer ≠ some (.created id false)) tr (.free d) := by
  unfold checkIdempotencyKey
  split
  · next hnone => exact ⟨none, ⟨rfl, rfl, rfl⟩, by simp [hnone], by simp⟩
  · next key hkey =>
    refine yields_read (fun _ => rfl) ?_ fun _ _ henv hf => (undisturbed_fault henv hf).elim
    simp only [andThen]
    cases hrow : d.idempotencyKeys.lookup (req.clientId, key) with
    | none => exact ⟨none, ⟨by simp, rfl, rfl⟩, by simp [hkey, hrow], by simp⟩
    | some row =>
      have hused : ¬ ∀ key, truthy req.idempotencyKey = some key →
          d.idempotencyKeys.lookup (req.clientId, key) = none := by
        intro hunused
        have := hunused key hkey
        rw [hrow] at this
        cases this
      dsimp only
      split
      · exact ⟨some (.refused 422 "idempotency_key_reuse"), ⟨by simp, rfl, rfl⟩,
          iff_of_false (by simp) hused, fun id => refused_ne_created _ _ id⟩
      · exact ⟨some (.created row.responseBody true), ⟨by simp, rfl, rfl⟩,
          iff_of_false (by simp) hused, fun id heq => by simp [Reply.created] at heq⟩

end Reads

/-! ### The transaction -/

section Transaction

variable {cat : Catalog} {d : Database} {req : BookingRequest} {ws : List Write}
variable {tr : List (Event Stmt Ask.Answer JsError)}

/-- A statement inside the transaction that no constraint stops. -/
theorem yields_sure {α : Type} {Q : List (Event Stmt Ask.Answer JsError) → Place Database Write →
      Except JsError α → Prop} {s : Stmt} {ok : s.Rows → Program α} {err : JsError → Program α}
    {P : Env Nat JsError Ask.Answer → Prop} (hP : ∀ env, P env → Undisturbed d env)
    (r : s.Rows) (ws' : List Write)
    (hs : ∀ o, (exec cat s o ((chronos cat).apply ws d)).result = .ok (r, ws'))
    (hok : (ok r).Yields (chronos cat) P Q (tr ++ [.ran s]) (.inside d (ws ++ ws'))) :
    (Prog.stmt s ok err).Yields (chronos cat) P Q tr (.inside d ws) := by
  refine yields_stmt_inside fun env henv => ⟨fun e hf => (undisturbed_fault (hP env henv) hf).elim, fun _ =>
    ⟨fun r' ws'' hx => ?_, fun e hx => ?_⟩⟩
  · change (exec cat s env.fresh ((chronos cat).apply ws d)).result = _ at hx
    rw [hs, Except.ok.injEq, Prod.mk.injEq] at hx
    obtain ⟨rfl, rfl⟩ := hx
    exact hok
  · change (exec cat s env.fresh ((chronos cat).apply ws d)).result = _ at hx
    rw [hs] at hx
    cases hx

/-- The reminders of a booking that has none, each by its own reading of the clock. -/
theorem yields_reminders {b : BookingId} {start : Instant} (offsets : List Nat)
    (hnodup : offsets.Nodup) (hbooking : (((chronos cat).apply ws d).bookings.lookup b).isSome)
    (hnone : ∀ o ∈ offsets, ((chronos cat).apply ws d).reminderJobs.lookup (b, o) = none) :
    (insertReminders b start offsets).Yields (chronos cat) (Undisturbed d)
      (fun tr' st r => ∃ clocks, clocks.length = offsets.length ∧
        readings tr' = readings tr ++ clocks ∧ r = .ok () ∧
        st = .inside d (ws ++ reminderWrites b start (dueOffsets start (offsets.zip clocks))))
      tr (.inside d ws) := by
  induction offsets generalizing ws tr with
  | nil => exact ⟨[], rfl, by simp, rfl, by simp [reminderWrites]⟩
  | cons offset offsets ih =>
    obtain ⟨hoffset, hnodup'⟩ := List.nodup_cons.mp hnodup
    intro env _
    simp only [andThen]
    split
    · next hdue =>
      refine yields_sure (fun _ h => h) _ _ (fun _ => insertReminder_sure (hnone offset List.mem_cons_self) hbooking) ?_
      have hrest : (insertReminders b start offsets).Yields (chronos cat) (Undisturbed d) _
          (tr ++ [.answered .now (env.answer .now)] ++
            [.ran (.insertReminder b offset (start - minutesMs offset))])
          (.inside d (ws ++ [.reminder b offset ⟨start - minutesMs offset, .scheduled, none⟩])) :=
        ih hnodup' (by rw [Engine.apply_append]; exact hbooking) ?_
      · refine hrest.mono fun tr' st r h => ?_
        obtain ⟨clocks, hlength, hreadings, hr, hst⟩ := h
        refine ⟨env.answer .now :: clocks, by simp [hlength], ?_, hr, ?_⟩
        · rw [hreadings]
          simp
        · rw [hst, List.zip_cons_cons, dueOffsets_cons, if_pos hdue]
          simp [reminderWrites]
      · -- The row just inserted is at another offset.
        intro o ho
        rw [Engine.apply_append]
        refine (lookup_reminder_write _ _ _ _).trans ?_
        rw [if_neg, hnone o (List.mem_cons_of_mem _ ho)]
        intro heq
        exact hoffset ((Prod.mk.inj heq).2 ▸ ho)
    · next hpast =>
      have hrest : (insertReminders b start offsets).Yields (chronos cat) (Undisturbed d) _
          (tr ++ [.answered .now (env.answer .now)]) (.inside d ws) :=
        ih hnodup' hbooking fun o ho => hnone o (List.mem_cons_of_mem _ ho)
      refine hrest.mono fun tr' st r h => ?_
      obtain ⟨clocks, hlength, hreadings, hr, hst⟩ := h
      refine ⟨env.answer .now :: clocks, by simp [hlength], ?_, hr, ?_⟩
      · rw [hreadings]
        simp
      · rw [hst, List.zip_cons_cons, dueOffsets_cons, if_neg hpast]

/-- The key of a booking, where it is unused. -/
theorem yields_insertKey {c : ClientId} {key : Option String} {hash : JsonText} {b : BookingId}
    (hclient : cat.clients c = true)
    (hnone : ∀ k, truthy key = some k →
      ((chronos cat).apply ws d).idempotencyKeys.lookup (c, k) = none) :
    (insertIdempotencyKey c key hash b).Yields (chronos cat) (Undisturbed d)
      (fun tr' st r => readings tr' = readings tr ∧ r = .ok () ∧
        st = .inside d (ws ++ keyWrites c key hash b)) tr (.inside d ws) := by
  unfold insertIdempotencyKey keyWrites
  cases hkey : truthy key with
  | none => exact ⟨rfl, rfl, by simp⟩
  | some text =>
    exact yields_sure (fun _ h => h) _ _ (fun _ => insertKey_sure (hnone text hkey) hclient) ⟨by simp, rfl, rfl⟩

/-- How a call ends whose transaction begins after the readings `clocks₀`. -/
def EndsExactly (cat : Catalog) (d : Database) (req : BookingRequest) (now : Instant)
    (clocks₀ : List Instant) (tr : List (Event Stmt Ask.Answer JsError))
    (st : Place Database Write) (r : Except JsError Reply) : Prop :=
  ∃ clocks, readings tr = clocks₀ ++ clocks ∧
    ((∃ id, r = .ok (.created id false)) ↔ Accepts cat d req now) ∧
    ∀ id, r = .ok (.created id false) → ∃ row, clocks.length = reminderOffsets.length ∧
      BooksExactly d st.db req id row clocks

theorem endsExactly_refused {now : Instant} {clocks₀ : List Instant}
    {st : Place Database Write} {reply : Reply} (hreadings : readings tr = clocks₀)
    (hreply : ∀ id, some reply ≠ some (.created id false)) (hno : ¬ Accepts cat d req now) :
    EndsExactly cat d req now clocks₀ tr st (.ok reply) := by
  have hne : ∀ id, (.ok reply : Except JsError Reply) ≠ .ok (.created id false) := by
    intro id heq
    exact hreply id (congrArg some (Except.ok.inj heq))
  refine ⟨[], by simp [hreadings], iff_of_false ?_ hno, fun id heq => absurd heq (hne id)⟩
  rintro ⟨id, heq⟩
  exact hne id heq

/-- **The transaction**, in surroundings in which nothing fails: the request is refused, and the
    call is back where it began; or it is accepted, its booking is committed, and the queue is
    filled. -/
theorem yields_transaction {P : Env Nat JsError Ask.Answer → Prop}
    (hP : ∀ env, P env → Undisturbed d env)
    {Q : List (Event Stmt Ask.Answer JsError) → Place Database Write → Except JsError Reply → Prop}
    {now minStart : Instant} {queue : Bool}
    (hminStart : minStart = now + hoursMs (req.noticeHours cat d))
    (hforeign : ∀ k, d.bookings.lookup k.1 = none → d.reminderJobs.lookup k = none)
    (hfits : ∀ e, req.eventTypeId = some e → EventTypeFits cat e req.slotId d)
    (hunused : ∀ key, truthy req.idempotencyKey = some key →
      d.idempotencyKeys.lookup (req.clientId, key) = none)
    (hrefused : ∀ tr' reply, readings tr' = readings tr →
      (∀ id, some reply ≠ some (.created id false)) → ¬ Accepts cat d req now →
      Q tr' (.free d) (.ok reply))
    (hbooked : ∀ tr' clocks id row ws, Accepts cat d req now →
      clocks.length = reminderOffsets.length → readings tr' = readings tr ++ clocks →
      NewBooking cat req now minStart d row (reminderWrites id row.slotStartUtc
        (dueOffsets row.slotStartUtc (reminderOffsets.zip clocks))) id ws →
      (if queue then enqueueReminders req.slotId id (pure now) else pure () : Program Unit).Yields
        (chronos cat) P (fun tr'' st r => r = .ok () ∧ Q tr'' st (.ok (.created id false))) tr'
        (.free ((chronos cat).apply ws d))) :
    (bookSlotInTransaction req now minStart queue).Yields (chronos cat) P Q tr (.free d) := by
  have hcalm : ∀ {env : Env Nat JsError Ask.Answer} {e}, P env → env.fault = some e → False :=
    fun {env e} henv hf => undisturbed_fault (hP env henv) hf
  -- What is thrown is a violated constraint, and the request was not one to accept.
  refine Yields.tryCatch (Q := fun tr' st r => match r with
    | .ok reply => Q tr' st (.ok reply)
    | .error _ => readings tr' = readings tr ∧ st.db = d ∧ ¬ Accepts cat d req now) ?_
    (fun _ _ _ h => h) fun tr' st e h => ?_
  · intro env henv
    refine ⟨fun e hf => (hcalm henv hf).elim, fun _ =>
      ⟨fun st' hturn => ?_, fun hx => by simp [Engine.turn] at hx⟩⟩
    obtain rfl : .inside d [] = st' := by simpa [Engine.turn] using hturn
    cases hrow : (d.slots.lookup req.slotId).filter fun row => decide (row.status = .«open» ∧
        now ≤ row.slotStartUtc ∧ minStart ≤ row.slotStartUtc) with
    | none =>
      have hno : ¬ Accepts cat d req now := by
        rintro ⟨⟨row, hslot, hopen, hpast, hnotice⟩, -⟩
        rw [hslot, Option.filter_some, if_pos] at hrow
        · cases hrow
        · rw [decide_eq_true_eq, hminStart]
          exact ⟨hopen, hpast, hnotice⟩
      refine yields_sure hP none [] (fun o => ?_) ?_
      · simp only [exec, updateSlotWhere, Engine.apply_nil, hrow]
        rfl
      · -- The slot is not to be had.
        intro env henv
        refine ⟨fun e hf => (hcalm henv hf).elim, fun _ =>
          ⟨fun st' hturn => ?_, fun hx => by simp [Engine.turn] at hx⟩⟩
        obtain rfl : .free d = st' := by simpa [Engine.turn] using hturn
        exact hrefused _ _ (by simp) (refused_ne_created _ _) hno
    | some row =>
      obtain ⟨hslot, hp⟩ := Option.filter_eq_some_iff.mp hrow
      obtain ⟨hopen, hpast, hnotice⟩ := of_decide_eq_true hp
      refine yields_sure hP (some { row with status := .booked })
        [.slot req.slotId { row with status := .booked }] (fun o => ?_) ?_
      · simp only [exec, updateSlotWhere, Engine.apply_nil, hrow]
      · simp only [andThen]
        refine yields_stmt_inside fun env henv => ⟨fun e hf => (hcalm henv hf).elim,
          fun _ => ⟨fun id ws hx => ?_, fun e hx => ⟨by simp, rfl, fun haccepts => ?_⟩⟩⟩
        · obtain ⟨rfl, rfl, hfresh, hlive, -, hclient⟩ := insertBooking_ok hx
          have hfresh : d.bookings.lookup env.fresh = none := hfresh
          have hclient : cat.clients req.clientId = true := hclient
          have hfree : ∀ i, ¬ d.LiveOn req.slotId i := by
            intro i hi
            have hother : d.otherLive req.slotId none = false := hlive rfl
            rw [(otherLive_iff d req.slotId none).mpr ⟨i, by simp, hi⟩] at hother
            cases hother
          have haccepts : Accepts cat d req now :=
            ⟨⟨row, hslot, hopen, hpast, hminStart ▸ hnotice⟩, hfits, hclient, hfree, hunused⟩
          refine ((yields_reminders reminderOffsets (by decide) (by simp)
            fun o _ => hforeign (env.fresh, o) hfresh).anti hP).bind ?_ fun _ _ _ h => by simp at h
          rintro tr₃ _ - ⟨clocks, hlength, hclocks, -, rfl⟩
          have hnew : NewBooking cat req now minStart d row (reminderWrites env.fresh row.slotStartUtc
              (dueOffsets row.slotStartUtc (reminderOffsets.zip clocks))) env.fresh _ :=
            ⟨hslot, hopen, hpast, hnotice, hfresh, hfree, hclient, hunused,
              newReminders_dueOffsets _ _ _, rfl⟩
          refine ((yields_insertKey hclient fun key hkey => ?_).anti hP).bind ?_
            fun _ _ _ h => by simp at h
          · rw [Engine.apply_append, (sameBut_apply onReminders_reminderWrites).idempotencyKeys]
            exact hunused key hkey
          · rintro tr₄ _ - ⟨hreadings, -, rfl⟩
            intro env' henv'
            refine ⟨fun e hf => (hcalm henv' hf).elim, fun _ =>
              ⟨fun st' hturn => ?_, fun hx => by simp [Engine.turn] at hx⟩⟩
            obtain rfl := Option.some.inj hturn
            have hqueued := hbooked (tr₄ ++ [.controlled .commit]) clocks env.fresh row _ haccepts
              hlength (by simp [hreadings, hclocks]) hnew
            simp only [List.append_assoc] at hqueued ⊢
            cases queue with
            | false => exact hqueued.2
            | true =>
              refine hqueued.bind (fun _ _ _ h => h.2) fun _ _ _ h => ?_
              cases h.1
        · -- No constraint stops the booking of a request to accept.
          have hsure : (exec cat (.insertBooking req.booking) env.fresh ((chronos cat).apply
              ([] ++ [.slot req.slotId { row with status := .booked }]) d)).result =
                .ok (env.fresh, [.booking env.fresh req.booking]) := by
            refine insertBooking_sure ?_ ?_ ?_ haccepts.client
            · exact (hP env henv).2
            · exact haccepts.free
            · simp [BookingRequest.booking]
          change (exec cat (.insertBooking req.booking) _ _).result = _ at hx
          rw [hsure] at hx
          cases hx
  · obtain ⟨hreadings, hdb, hno⟩ := h
    intro env henv
    refine ⟨fun e' hf => (hcalm henv hf).elim, fun _ => ⟨fun st' hturn => ?_, fun hx => ?_⟩⟩
    · obtain rfl : .free d = st' := by
        rw [← hdb]
        simpa [Engine.turn] using hturn
      refine hrefused _ _ (by simp [hreadings]) (fun id heq => ?_) hno
      unfold JsError.refusal at heq
      split at heq
      · exact refused_ne_created _ _ id heq
      · exact refused_ne_created _ _ id heq
    · cases st <;> simp [Engine.turn] at hx

end Transaction

/-! ### The whole call -/

/-- **The whole call**, in surroundings in which nothing fails. -/
theorem yields_createBookingCalmly (cat : Catalog) {d : Database} {req : BookingRequest}
    {P : Env Nat JsError Ask.Answer → Prop} (hP : ∀ env, P env → Undisturbed d env)
    {Q : List (Event Stmt Ask.Answer JsError) → Place Database Write → Except JsError Reply → Prop}
    (now : Instant) (queue : Bool) (tr : List (Event Stmt Ask.Answer JsError))
    (hforeign : ∀ k, d.bookings.lookup k.1 = none → d.reminderJobs.lookup k = none)
    (hrefused : ∀ tr' reply, readings tr' = readings tr →
      (∀ id, some reply ≠ some (.created id false)) → ¬ Accepts cat d req now →
      Q tr' (.free d) (.ok reply))
    (hbooked : ∀ tr' clocks id row ws, Accepts cat d req now →
      clocks.length = reminderOffsets.length → readings tr' = readings tr ++ clocks →
      NewBooking cat req now (now + hoursMs (req.noticeHours cat d)) d row
        (reminderWrites id row.slotStartUtc
          (dueOffsets row.slotStartUtc (reminderOffsets.zip clocks))) id ws →
      (if queue then enqueueReminders req.slotId id (pure now) else pure () : Program Unit).Yields
        (chronos cat) P (fun tr'' st r => r = .ok () ∧ Q tr'' st (.ok (.created id false))) tr'
        (.free ((chronos cat).apply ws d))) :
    (createBookingAt req now queue).Yields (chronos cat) P Q tr (.free d) := by
  have hthrow : ∀ {α : Type} {tr' : List (Event Stmt Ask.Answer JsError)}
      {st : Place Database Write} {e : JsError} {a : α}, ¬ ReadsTo d tr a tr' st (.error e) := by
    rintro α tr' st e a ⟨-, -, hr⟩
    cases hr
  refine (yields_notice.anti hP).bind ?_ fun _ _ _ h => (hthrow h).elim
  rintro tr₁ _ hours ⟨h₁, rfl, hr⟩
  obtain rfl := Except.ok.inj hr
  rw [← h₁] at hrefused hbooked
  refine (yields_eventType.anti hP).bind ?_ ?_
  · rintro tr₂ _ refusal ⟨_, ⟨h₂, rfl, hr⟩, hfits, hreply⟩
    obtain rfl := Except.ok.inj hr
    rw [← h₂] at hrefused hbooked
    cases refusal with
    | some reply =>
      refine hrefused tr₂ reply rfl hreply fun haccepts => ?_
      have hnone := hfits.mpr haccepts.fits
      cases hnone
    | none =>
      refine (yields_key.anti hP).bind ?_ ?_
      · rintro tr₃ _ answer ⟨_, ⟨h₃, rfl, hr⟩, hunused, hreply⟩
        obtain rfl := Except.ok.inj hr
        rw [← h₃] at hrefused hbooked
        cases answer with
        | some reply =>
          refine hrefused tr₃ reply rfl hreply fun haccepts => ?_
          have hnone := hunused.mpr haccepts.unused
          cases hnone
        | none =>
          exact yields_transaction hP rfl hforeign (hfits.mp rfl) (hunused.mp rfl) hrefused hbooked
      · rintro tr₃ _ e ⟨answer, ⟨-, -, hr⟩, -⟩
        cases hr
  · rintro tr₂ _ e ⟨refusal, ⟨-, -, hr⟩, -⟩
    cases hr

theorem yields_exactly (cat : Catalog) (d : Database) (req : BookingRequest) (now : Instant)
    (tr : List (Event Stmt Ask.Answer JsError))
    (hforeign : ∀ k, d.bookings.lookup k.1 = none → d.reminderJobs.lookup k = none) :
    (createBookingAt req now false).Yields (chronos cat) (Undisturbed d)
      (EndsExactly cat d req now (readings tr)) tr (.free d) := by
  refine yields_createBookingCalmly cat (fun _ h => h) now false tr hforeign
    (fun tr' reply hreadings hreply hno => endsExactly_refused hreadings hreply hno) ?_
  intro tr' clocks id row ws haccepts hlength hreadings hnew
  refine ⟨rfl, clocks, hreadings, iff_of_true ⟨id, rfl⟩ haccepts, fun id' hid => ?_⟩
  obtain rfl : id = id' := by simpa [Reply.created] using hid
  exact ⟨row, hlength, hnew.exactly rfl⟩

/-- **The exact effect of a booking.**  Run alone without a queue, with nothing failing but for
    violated constraints, a call comes to an end; it books its slot exactly when the request is one
    to accept at the time of the call, and then changes exactly what it should.  The time of the
    call is `nowUtc`, or the first reading of the clock. -/
theorem booking_exact (cat : Catalog) (d : Database) (req : BookingRequest)
    (nowUtc : Option Instant)
    (hforeign : ∀ k, d.bookings.lookup k.1 = none → d.reminderJobs.lookup k = none) :
    (∃ tr d' r, PerformsIn (chronos cat) (Undisturbed d) .idle d (createBooking req nowUtc false)
      tr d' r) ∧
    ∀ tr d' r, PerformsIn (chronos cat) (Undisturbed d) .idle d (createBooking req nowUtc false)
        tr d' r →
      ∃ now clocks, nowUtc.toList ++ readings tr = now :: clocks ∧
        ((∃ id, r = .ok (.created id false)) ↔ Accepts cat d req now) ∧
        ∀ id, r = .ok (.created id false) → ∃ row, clocks.length = reminderOffsets.length ∧
          BooksExactly d d' req id row clocks := by
  constructor
  · exact performsIn_total (exists_undisturbed d) _ _ _
  · intro tr d' r h
    cases nowUtc with
    | some now =>
      obtain ⟨st, rfl, clocks, hclocks, hends⟩ :=
        (yields_exactly cat d req now [] hforeign).performs h
      exact ⟨now, clocks, by simpa using hclocks, hends⟩
    | none =>
      have hyields : (createBooking req none false).Yields (chronos cat) (Undisturbed d)
          (fun tr st r => ∃ now, EndsExactly cat d req now [now] tr st r) [] (.free d) :=
        fun env _ => (yields_exactly cat d req _ [.answered .now (env.answer .now)] hforeign).mono
          fun _ _ _ h => ⟨_, h⟩
      obtain ⟨st, rfl, now, clocks, hclocks, hends⟩ := Prog.Yields.performs hyields h
      exact ⟨now, clocks, by simpa using hclocks, hends⟩

/-- Client `5` asks for slot `1` at the epoch. -/
theorem sample_booking_exact :
    (∃ tr d' r, PerformsIn (chronos sampleCatalog) (Undisturbed sampleDb) .idle sampleDb
      (createBooking sampleRequest (some 0) false) tr d' r) ∧
    ∀ tr d' r, PerformsIn (chronos sampleCatalog) (Undisturbed sampleDb) .idle sampleDb
        (createBooking sampleRequest (some 0) false) tr d' r →
      ∃ now clocks, (some (0 : Instant)).toList ++ readings tr = now :: clocks ∧
        ((∃ id, r = .ok (.created id false)) ↔ Accepts sampleCatalog sampleDb sampleRequest now) ∧
        ∀ id, r = .ok (.created id false) → ∃ row, clocks.length = reminderOffsets.length ∧
          BooksExactly sampleDb d' sampleRequest id row clocks :=
  booking_exact sampleCatalog sampleDb sampleRequest (some 0) fun _ _ => rfl

/-- A provider with a notice of minus five hours. -/
def lenientCatalog : Catalog where
  providers _ := some ⟨24, some (-5)⟩
  clients _ := true
  eventTypes _ := none

/-- Slot `1` began an hour ago, four hours after the notice ended, and is not to be had. -/
theorem lenient_notice_refused :
    (∃ row, sampleDb.slots.lookup sampleRequest.slotId = some row ∧ row.status = .«open» ∧
      hoursMs 101 + hoursMs (sampleRequest.noticeHours lenientCatalog sampleDb) ≤
        row.slotStartUtc) ∧
    sampleRequest.eventTypeId = none ∧ sampleRequest.idempotencyKey = none ∧
    lenientCatalog.clients sampleRequest.clientId = true ∧
    (∀ i, sampleDb.bookings.lookup i = none) ∧ (∀ k, sampleDb.reminderJobs.lookup k = none) ∧
    ∃ tr, PerformsIn (chronos lenientCatalog) (Undisturbed sampleDb) .idle sampleDb
      (createBooking sampleRequest (some (hoursMs 101)) false) tr sampleDb
      (.ok (.refused 409 "slot_unavailable")) := by
  refine ⟨⟨sampleSlot .«open», rfl, rfl, by decide⟩, rfl, rfl, rfl, fun _ => rfl, fun _ => rfl, ?_⟩
  have hrun : runAlone (chronos lenientCatalog) (List.replicate 5 (calmEnv 1 (hoursMs 101))) .idle
      sampleDb (createBooking sampleRequest (some (hoursMs 101)) false) =
        some (.idle, sampleDb, ret (.refused 409 "slot_unavailable")) := by
    with_unfolding_all rfl
  refine performsIn_of_runAlone (fun env henv => ?_) hrun rfl
  rw [List.eq_of_mem_replicate henv]
  exact ⟨rfl, rfl⟩

end Chronos
