import Chronos.Operations
import Chronos.Worker
import Chronos.ReadCommitted.Vetting

namespace Chronos

open ReadCommitted ReadCommitted.Prog

/-!
# Everything that touches reminders

The functions of the source that write reminder rows, talk to the reminder queue, or insert slots:
the booking operations, the methods of the queue manager and of the worker, and the two
materializers (`Task`).

What they say about fire times rests on what they were told before: a slot they have read starts
at some time, a booking they have inserted is on some slot, the time they were given is now.
`Facts` is such knowledge, and `Facts.dialogue` what a program may send and ask with it.  Every
task keeps to it (`follows_task`).
-/

/-! ### The materializers -/

/-- The loop of `materializeProvider` over the slots that `generateSlots` has returned. -/
def materializeProvider (providerId : ProviderId) : List (Instant × Instant) → Program Unit
  | [] => pure ()
  | (slotStartUtc, slotEndUtc) :: slots => do
    dbQuery (.insertSlot providerId slotStartUtc slotEndUtc)
    materializeProvider providerId slots

/-- The loop of `MaterializerService.materialize` over the providers, each with its batch. -/
def materialize : List (ProviderId × List (Instant × Instant)) → Program Unit
  | [] => pure ()
  | (providerId, batch) :: providers => do
    tryCatch (dbQuery (.insertSlotBatch providerId batch)) fun _ => pure ()
    materialize providers

/-! ### The tasks -/

inductive Task
  | operation (op : Operation)
  | enqueueForBooking (bookingId : BookingId) (slotStartUtc : Instant) (offsets : List Nat)
      (now : Instant)
  | reconcileScheduledReminders
  | cancelForBooking (bookingId : Option BookingId) (spelling : Spelling)
  | cancelReminderJob (reminderId : ReminderId) (bookingId : BookingId) (spelling : Spelling)
      (offset : Nat)
  | process (isConfigured : Bool) (reminderId : Option ReminderId)
  | claimDue
  | materializeProvider (providerId : ProviderId) (slots : List (Instant × Instant))
  | materialize (providers : List (ProviderId × List (Instant × Instant)))

/-- The program of a task; what it returns does not matter. -/
def Task.program (fromColumn : Instant → Except JsError Instant) : Task → Program Unit
  | .operation op => (op.program fromColumn).bind fun _ => ret ()
  | .enqueueForBooking bookingId slotStartUtc offsets now =>
      Chronos.enqueueForBooking bookingId slotStartUtc now offsets
  | .reconcileScheduledReminders => Chronos.reconcileScheduledReminders
  | .cancelForBooking bookingId spelling => Chronos.cancelForBooking bookingId spelling
  | .cancelReminderJob reminderId bookingId spelling offset =>
      Chronos.cancelReminderJob reminderId bookingId spelling offset
  | .process isConfigured reminderId => Chronos.process isConfigured reminderId
  | .claimDue => Chronos.claimDue.bind fun _ => ret ()
  | .materializeProvider providerId slots => Chronos.materializeProvider providerId slots
  | .materialize providers => Chronos.materialize providers

/-! ### What tasks know -/

/-- What a client may know: which slot a booking is on, when a slot starts, and what times it was
    given as the current time. -/
structure Facts where
  onSlot : BookingId → SlotId → Prop
  startsAt : SlotId → Instant → Prop
  given : Instant → Prop

/-- The reminder of the booking at the offset fires at `fire`. -/
def Facts.FiresAt (F : Facts) (b : BookingId) (offset : Nat) (fire : Instant) : Prop :=
  ∃ s start, F.onSlot b s ∧ F.startsAt s start ∧ fire = start - minutesMs offset

/-- The statuses the worker records. -/
def recordedStatuses : List String := ["sent", "suppressed", "failed", "cancelled"]

/-- What a client that knows `F` may send and ask, and what it learns from the answers. -/
def Facts.dialogue (F : Facts) : Dialogue Stmt.Rows Ask.Answer where
  sends
    | .insertReminder b offset fireAt => F.FiresAt b offset fireAt
    | .skipReminder b offset => ∃ fire now, F.FiresAt b offset fire ∧ F.given now ∧ fire ≤ now
    | .setReminderStatus _ text => text ∈ recordedStatuses
    | _ => True
  hears
    | .selectSlot s, found => ∀ slot, found = some slot → F.startsAt s slot.slotStartUtc
    | .bookSlot s _ _, found => ∀ slot, found = some slot → F.startsAt s slot.slotStartUtc
    | .takeSlot s _, found => ∀ slot, found = some slot → F.startsAt s slot.slotStartUtc
    | .insertBooking row, b => F.onSlot b row.slotId
    | .selectScheduledReminders, rows => ∀ r ∈ rows, ∃ s, F.onSlot r.1 s ∧ F.startsAt s r.2.1
    | _, _ => True
  asks
    | .queueAdd b offset now delayMs =>
        ∃ fire, F.FiresAt b offset fire ∧ F.given now ∧ now < fire ∧ delayMs = fire - now
    | _ => True
  learns
    | .now, now => F.given now
    | _, _ => True

/-- The arguments of a task are facts. -/
def Facts.Admits (F : Facts) : Task → Prop
  | .operation (.createBooking _ nowUtc _) => ∀ now, nowUtc = some now → F.given now
  | .enqueueForBooking b start _ now =>
      (∃ s, F.onSlot b s ∧ F.startsAt s start) ∧ F.given now
  | _ => True

/-! ### Tasks keep to the dialogue -/

section Follows

variable {F : Facts}

theorem follows_perform {e : Effect} (he : F.dialogue.asks (.effect e)) :
    (perform e).Follows F.dialogue := by
  refine ⟨he, fun x _ => ?_⟩
  cases x with
  | ok u => exact trivial
  | error e => exact trivial

theorem follows_queueAdd {b : BookingId} {offset : Nat} {now : Instant} {delayMs : Int}
    (ha : F.dialogue.asks (.queueAdd b offset now delayMs)) :
    (queueAdd b offset now delayMs).Follows F.dialogue := by
  refine ⟨ha, fun x _ => ?_⟩
  cases x with
  | ok timestamp => exact trivial
  | error e => exact trivial

theorem follows_connect (which : PoolClient) : (perform (.connect which)).Follows F.dialogue :=
  follows_perform (e := .connect which) trivial

theorem follows_release (which : PoolClient) : (perform (.release which)).Follows F.dialogue :=
  follows_perform (e := .release which) trivial

theorem follows_rollbackQuietly : rollbackQuietly.Follows F.dialogue :=
  ⟨trivial, fun _ => trivial⟩

theorem follows_enqueueForBooking {b : BookingId} {s : SlotId} {start now : Instant}
    (hb : F.onSlot b s) (hs : F.startsAt s start) (hnow : F.given now) (offsets : List Nat) :
    (enqueueForBooking b start now offsets).Follows F.dialogue := by
  induction offsets with
  | nil => exact trivial
  | cons offset offsets ih =>
    have hfire : F.FiresAt b offset (start - minutesMs offset) := ⟨s, start, hb, hs, rfl⟩
    simp only [enqueueForBooking]
    split
    · next hpast => exact ⟨⟨_, now, hfire, hnow, hpast⟩, fun _ _ => ih, fun _ => trivial⟩
    · next hahead =>
      refine ⟨trivial, fun found _ => ?_, fun _ => trivial⟩
      cases found with
      | false => exact ih
      | true =>
        have hadd : F.dialogue.asks (.queueAdd b offset now (start - minutesMs offset - now)) :=
          ⟨_, hfire, hnow, lt_of_not_ge hahead, rfl⟩
        exact (follows_queueAdd hadd).bind fun _ => ih

theorem follows_removeJobs {b : Option BookingId} {spelling : Spelling} (offsets : List Nat) :
    (removeJobs b spelling offsets).Follows F.dialogue := by
  induction offsets with
  | nil => exact trivial
  | cons offset offsets ih => exact ⟨trivial, fun _ _ => ih⟩

theorem follows_cancelForBooking {b : Option BookingId} {spelling : Spelling} :
    (cancelForBooking b spelling).Follows F.dialogue := by
  refine ⟨trivial, fun offsets _ => ?_, fun _ => trivial⟩
  exact (follows_removeJobs offsets).bind fun _ => follows_query trivial

theorem follows_reconcileRows {now : Instant} (hnow : F.given now)
    {rows : List (BookingId × Instant × Nat)}
    (hrows : ∀ r ∈ rows, ∃ s, F.onSlot r.1 s ∧ F.startsAt s r.2.1) :
    (reconcileRows now rows).Follows F.dialogue := by
  induction rows with
  | nil => exact trivial
  | cons r rows ih =>
    obtain ⟨b, start, offset⟩ := r
    obtain ⟨s, hb, hs⟩ := hrows _ List.mem_cons_self
    have hfirst : (tryCatch (enqueueForBooking b start now [offset]) fun _ => pure ()).Follows
        F.dialogue := (follows_enqueueForBooking hb hs hnow [offset]).tryCatch fun _ => trivial
    exact hfirst.bind fun _ => ih fun r hr => hrows r (List.mem_cons_of_mem _ hr)

theorem follows_reconcileScheduledReminders :
    reconcileScheduledReminders.Follows F.dialogue :=
  ⟨trivial, fun _ hrows => ⟨trivial, fun _ hnow => follows_reconcileRows hnow hrows⟩,
    fun _ => trivial⟩

theorem follows_enqueueReminders {s : SlotId} {b : BookingId} {now : Program Instant}
    (hb : F.onSlot b s)
    (hnow : now.Speaks F.dialogue fun r => ∀ now, r = .ok now → F.given now) :
    (enqueueReminders s b now).Follows F.dialogue := by
  refine ⟨trivial, fun found hfound => ?_, fun _ => trivial⟩
  cases found with
  | none => exact trivial
  | some slot =>
    have hs : F.startsAt s slot.slotStartUtc := hfound slot rfl
    refine ⟨trivial, fun offsets _ => ?_, fun _ => trivial⟩
    simp only [andThen]
    split
    · exact hnow.bind (fun now hgiven => follows_enqueueForBooking hb hs (hgiven now rfl) offsets)
        fun _ _ => trivial
    · exact trivial

/-! #### Bookings -/

theorem follows_insertReminders {b : BookingId} {s : SlotId} {start : Instant}
    (hb : F.onSlot b s) (hs : F.startsAt s start) (offsets : List Nat) :
    (insertReminders b start offsets).Follows F.dialogue := by
  induction offsets with
  | nil => exact trivial
  | cons offset offsets ih =>
    refine ⟨trivial, fun nowMs _ => ?_⟩
    simp only [andThen]
    split
    · exact ⟨⟨s, start, hb, hs, rfl⟩, fun _ _ => ih, fun _ => trivial⟩
    · exact ih

theorem follows_insertIdempotencyKey {c : ClientId} {key : Option String} {hash : JsonText}
    {b : BookingId} : (insertIdempotencyKey c key hash b).Follows F.dialogue := by
  unfold insertIdempotencyKey
  split
  · exact trivial
  · exact follows_query trivial

theorem follows_bookSlotInTransaction {req : BookingRequest} {now minStart : Instant}
    {queue : Bool} (hnow : F.given now) :
    (bookSlotInTransaction req now minStart queue).Follows F.dialogue := by
  refine Follows.tryCatch ⟨⟨trivial, fun found hfound => ?_, fun _ => trivial⟩, fun _ => trivial⟩
    fun e => follows_rollbackQuietly.bind fun _ => trivial
  cases found with
  | none => exact ⟨trivial, fun _ => trivial⟩
  | some slot =>
    have hs : F.startsAt req.slotId slot.slotStartUtc := hfound slot rfl
    refine ⟨trivial, fun b hb => ?_, fun _ => trivial⟩
    refine (follows_insertReminders hb hs reminderOffsets).bind fun _ => ?_
    refine follows_insertIdempotencyKey.bind fun _ => ⟨?_, fun _ => trivial⟩
    simp only [andThen]
    split
    · have hret : (ret now : Program Instant).Speaks F.dialogue
          fun r => ∀ now, r = .ok now → F.given now := by
        intro now' heq
        obtain rfl := Except.ok.inj heq
        exact hnow
      exact (follows_enqueueReminders hb hret).bind fun _ => trivial
    · exact trivial

theorem sends_of_checks (s : Stmt) (hs : s.Checks) : F.dialogue.sends s := by
  cases s with
  | insertReminder b offset fireAt => exact hs.elim
  | skipReminder b offset => exact hs.elim
  | setReminderStatus id text => exact hs.elim
  | _ => exact trivial

theorem follows_createBookingAt {req : BookingRequest} {now : Instant} {queue : Bool}
    (hnow : F.given now) : (createBookingAt req now queue).Follows F.dialogue := by
  refine ((talks_configuredNoticeHours req).follows sends_of_checks fun _ h => h.elim).bind fun hours => ?_
  refine ((talks_validateEventType req).follows sends_of_checks fun _ h => h.elim).bind fun refusal => ?_
  cases refusal with
  | some refusal => exact trivial
  | none =>
    refine ((talks_checkIdempotencyKey req).follows sends_of_checks fun _ h => h.elim).bind fun answer => ?_
    cases answer with
    | some answer => exact trivial
    | none => exact follows_bookSlotInTransaction hnow

theorem follows_createBooking {req : BookingRequest} {nowUtc : Option Instant} {queue : Bool}
    (hnow : ∀ now, nowUtc = some now → F.given now) :
    (createBooking req nowUtc queue).Follows F.dialogue := by
  cases nowUtc with
  | some now => exact follows_createBookingAt (hnow now rfl)
  | none => exact ⟨trivial, fun now hgiven => follows_createBookingAt hgiven⟩

theorem follows_cancelReminderJobs {b : Option BookingId} {spelling : Spelling} {queue : Bool} :
    (cancelReminderJobs b spelling queue).Follows F.dialogue := by
  cases queue with
  | false => exact trivial
  | true => exact follows_cancelForBooking.tryCatch fun _ => trivial

theorem follows_updateAsOwner {id : BookingId} {session : Option ClientId}
    {check : Booking → Option Reply} {status : String} {afterCommit : Program Unit}
    (hafter : afterCommit.Follows F.dialogue) :
    (updateAsOwner id session check status afterCommit).Follows F.dialogue := by
  cases session with
  | none => exact trivial
  | some client =>
    refine (follows_connect _).bind fun _ => Follows.tryFinally ?_ (follows_release _)
    refine Follows.tryCatch ⟨⟨trivial, fun row _ => ?_, fun _ => trivial⟩, fun _ => trivial⟩
      fun e => follows_rollbackQuietly.bind fun _ => trivial
    cases row with
    | none => exact ⟨trivial, fun _ => trivial⟩
    | some b =>
      simp only [andThen]
      split
      · exact ⟨trivial, fun _ => trivial⟩
      · split
        · exact ⟨trivial, fun _ => trivial⟩
        · exact ⟨trivial, fun _ _ => ⟨hafter.bind fun _ => trivial, fun _ => trivial⟩,
            fun _ => trivial⟩

theorem follows_cancelBooking {id : BookingId} {ifMatch : Option String}
    {session : Option ClientId} {queue : Bool} :
    (cancelBooking id ifMatch session queue).Follows F.dialogue := by
  cases session with
  | none => exact trivial
  | some client =>
    refine ⟨trivial, fun row _ => ?_, fun _ => trivial⟩
    cases row with
    | none => exact trivial
    | some b =>
      simp only [andThen]
      split
      · exact trivial
      · split
        · exact trivial
        · refine ⟨trivial, fun slot _ => ⟨trivial, fun provider _ => ⟨trivial, fun now _ => ?_⟩,
            fun _ => trivial⟩, fun _ => trivial⟩
          simp only [andThen]
          split
          · exact trivial
          · refine ⟨⟨trivial, fun _ _ => ⟨trivial, fun _ _ => ⟨?_, fun _ => trivial⟩,
              fun _ => trivial⟩, fun _ => trivial⟩, fun _ => trivial⟩
            exact follows_cancelReminderJobs.bind fun _ => trivial

/-! #### Moves -/

variable {fromColumn : Instant → Except JsError Instant}

theorem follows_insertMovedReminders {b : BookingId} {s : SlotId} {start now : Instant}
    (hcolumn : ∀ x y, F.startsAt s x → fromColumn x = .ok y → F.startsAt s y)
    (hb : F.onSlot b s) (hs : F.startsAt s start) (offsets : List Nat) :
    (insertMovedReminders fromColumn b start now offsets).Follows F.dialogue := by
  induction offsets with
  | nil => exact trivial
  | cons offset offsets ih =>
    simp only [insertMovedReminders]
    split
    · exact trivial
    · next y hy =>
      simp only [bind_eq]
      split
      · exact ⟨⟨s, y, hb, hcolumn _ _ hs hy, rfl⟩, fun _ _ => ih, fun _ => trivial⟩
      · exact ih

theorem follows_afterMove {req : RescheduleRequest} {b : BookingId} {queue : Bool}
    (hb : F.onSlot b req.newSlotId) : (afterMove req b queue).Follows F.dialogue := by
  cases queue with
  | false => exact ⟨trivial, fun _ _ => trivial⟩
  | true =>
    have hclock : clockNow.Speaks F.dialogue fun r => ∀ now, r = .ok now → F.given now := by
      refine ⟨trivial, fun now hnow now' heq => ?_⟩
      obtain rfl := Except.ok.inj heq
      exact hnow
    have hcancel :
        (tryCatch (cancelForBooking (some req.bookingId) req.spelling) fun _ => pure ()).Follows
        F.dialogue := follows_cancelForBooking.tryCatch fun _ => trivial
    have henqueue : (tryCatch (enqueueReminders req.newSlotId b clockNow) fun _ => pure ()).Follows
        F.dialogue := (follows_enqueueReminders hb hclock).tryCatch fun _ => trivial
    exact hcancel.bind fun _ => ⟨trivial, fun _ _ => henqueue⟩

theorem follows_moveTransaction {req : RescheduleRequest} {now : Instant} {queue : Bool}
    (hcolumn : ∀ s x y, F.startsAt s x → fromColumn x = .ok y → F.startsAt s y) :
    (moveTransaction fromColumn req now queue).Follows F.dialogue := by
  refine Follows.tryCatch ⟨⟨trivial, fun row _ => ?_, fun _ => trivial⟩, fun _ => trivial⟩
    fun e => follows_rollbackQuietly.bind fun _ => trivial
  simp only [andThen]
  cases req.check row with
  | error refusal => exact ⟨trivial, fun _ => trivial⟩
  | ok b =>
    refine ⟨trivial, fun found hfound => ?_, fun _ => trivial⟩
    cases found with
    | none => exact ⟨trivial, fun _ => trivial⟩
    | some slot =>
      have hs : F.startsAt req.newSlotId slot.slotStartUtc := hfound slot rfl
      refine ⟨trivial, fun _ _ => ⟨trivial, fun _ _ => ⟨trivial, fun newId hnew => ⟨trivial,
        fun _ _ => ?_, fun _ => trivial⟩, fun _ => trivial⟩, fun _ => trivial⟩, fun _ => trivial⟩
      refine (follows_insertMovedReminders (hcolumn _) hnew hs reminderOffsets).bind fun _ => ?_
      refine follows_insertIdempotencyKey.bind fun _ => ⟨?_, fun _ => trivial⟩
      exact (follows_afterMove hnew).bind fun _ => trivial

theorem follows_rescheduleBooking {req : RescheduleRequest} {nowUtc : Option Instant}
    {queue : Bool} (hcolumn : ∀ s x y, F.startsAt s x → fromColumn x = .ok y → F.startsAt s y) :
    (rescheduleBooking fromColumn req nowUtc queue).Follows F.dialogue := by
  have hat : ∀ now, (rescheduleBookingAt fromColumn req now queue).Follows F.dialogue := by
    intro now
    refine (follows_connect _).bind fun _ => Follows.tryFinally ?_ (follows_release _)
    have hload : (loadBooking req).Follows F.dialogue := by
      refine ⟨⟨trivial, fun row _ => ?_, fun _ => trivial⟩, fun _ => trivial⟩
      simp only [andThen]
      cases req.check row with
      | error refusal => exact ⟨(follows_release _).bind fun _ => trivial, fun _ => trivial⟩
      | ok b => exact ⟨(follows_release _).bind fun _ => trivial, fun _ => trivial⟩
    refine hload.bind fun loaded => ?_
    cases loaded with
    | error refusal => exact trivial
    | ok b =>
      refine ⟨trivial, fun slot _ => ?_, fun _ => trivial⟩
      simp only [andThen]
      split
      · exact trivial
      · exact (follows_connect _).bind fun _ =>
          Follows.tryFinally (follows_moveTransaction hcolumn) (follows_release _)
  cases nowUtc with
  | some now => exact hat now
  | none => exact ⟨trivial, fun now _ => hat now⟩

theorem follows_rescheduleEndpoint {id : BookingId} {body : RescheduleBody}
    {session : Option ClientId} {queue : Bool}
    (hcolumn : ∀ s x y, F.startsAt s x → fromColumn x = .ok y → F.startsAt s y) :
    (rescheduleEndpoint fromColumn id body session queue).Follows F.dialogue := by
  cases session with
  | none => exact trivial
  | some client =>
    refine ⟨trivial, fun row _ => ?_, fun _ => trivial⟩
    cases row with
    | none => exact trivial
    | some b =>
      simp only [andThen]
      split
      · exact trivial
      · have hmove : ∀ now, (rescheduleBooking fromColumn (body.request id) (some now) queue).Follows
            F.dialogue := fun now => follows_rescheduleBooking hcolumn
        exact ⟨trivial, fun now _ => hmove now⟩

/-! #### `LifecycleService`, the worker and the materializers -/

theorem follows_prismaTransaction {α : Type} {body : Program α} (hbody : body.Follows F.dialogue) :
    (prismaTransaction body).Follows F.dialogue := by
  have hcaught : (tryCatch body fun e => do
      rollbackQuietly
      throw e).Follows F.dialogue :=
    hbody.tryCatch fun e => follows_rollbackQuietly.bind fun _ => trivial
  exact ⟨hcaught.bind fun a => ⟨trivial, fun _ => trivial⟩, fun _ => trivial⟩

theorem follows_transition {id : BookingId} {toStatus : BookingStatus} {expectedVersion : JsValue} :
    (transition id toStatus expectedVersion).Follows F.dialogue := by
  refine follows_prismaTransaction ⟨trivial, fun row _ => ?_, fun _ => trivial⟩
  cases row with
  | none => exact trivial
  | some b =>
    simp only [andThen]
    split
    · exact trivial
    · split
      · exact trivial
      · refine ⟨trivial, fun updated _ => ?_, fun _ => trivial⟩
        simp only [andThen]
        split
        · exact ⟨trivial, fun _ _ => trivial, fun _ => trivial⟩
        · exact trivial

theorem follows_cancel {id : BookingId} {hours : JsNumber} :
    (cancel id hours).Follows F.dialogue := by
  refine follows_prismaTransaction ⟨trivial, fun row _ => ?_, fun _ => trivial⟩
  cases row with
  | none => exact trivial
  | some b =>
    refine ⟨trivial, fun slot _ => ?_, fun _ => trivial⟩
    simp only [andThen]
    split
    · exact trivial
    · refine ⟨trivial, fun now _ => ?_⟩
      cases slot with
      | none => exact trivial
      | some slot =>
        simp only [andThen]
        split
        · exact trivial
        · exact ⟨trivial, fun _ _ => ⟨trivial, fun _ _ => trivial, fun _ => trivial⟩,
            fun _ => trivial⟩

theorem follows_mark {id : ReminderId} {text : String} (htext : text ∈ recordedStatuses)
    (out : Except JsError Unit) :
    ((dbQuery (.setReminderStatus id text)).bind fun _ => ofExcept out).Follows F.dialogue := by
  cases out with
  | ok u => exact ⟨htext, fun _ _ => trivial, fun _ => trivial⟩
  | error e => exact ⟨htext, fun _ _ => trivial, fun _ => trivial⟩

theorem follows_getClient (c : ClientId) : (getClient c).Follows F.dialogue := by
  refine ⟨trivial, fun x _ => ?_⟩
  cases x <;> trivial

theorem follows_sendReminder {isConfigured : Bool} {id : ReminderId} (booking : Booking) :
    (sendReminder isConfigured id booking).Follows F.dialogue := by
  have hrender : (renderReminderEmail id.1 booking).Follows F.dialogue := by
    refine (follows_getClient _).bind fun client => ?_
    split
    · trivial
    · exact ⟨trivial, fun _ _ => trivial, fun _ => trivial⟩
  refine Follows.bind (hrender.bind fun receiver => ?_) fun result => ?_
  · cases isConfigured with
    | false => trivial
    | true => exact ⟨trivial, fun _ _ => trivial⟩
  · split
    · exact follows_mark (by decide) (.ok ())
    · trivial
    · exact follows_mark (by decide) (.ok ())

theorem follows_remindClient {isConfigured : Bool} {id : ReminderId} (reminder : ReminderJob)
    (booking : Booking) : (remindClient isConfigured id reminder booking).Follows F.dialogue := by
  refine ⟨trivial, fun now _ => ?_⟩
  simp only [andThen]
  split
  · exact follows_mark (by decide) (.error _)
  · refine (follows_getClient _).bind fun client => ?_
    split
    · trivial
    · split
      · exact follows_mark (by decide) (.ok ())
      · exact follows_sendReminder booking

theorem follows_processReminder {isConfigured : Bool} {id : ReminderId} :
    (processReminder isConfigured id).Follows F.dialogue := by
  refine ⟨trivial, fun found _ => ?_, fun _ => trivial⟩
  cases found with
  | none => trivial
  | some reminder =>
    simp only [andThen]
    split
    · trivial
    · refine ⟨trivial, fun b _ => ?_, fun _ => trivial⟩
      cases b with
      | none => exact follows_mark (by decide) (.error _)
      | some booking =>
        simp only [andThen]
        split
        · exact follows_mark (by decide) (.ok ())
        · exact follows_remindClient reminder booking

theorem follows_process {isConfigured : Bool} {reminderId : Option ReminderId} :
    (process isConfigured reminderId).Follows F.dialogue := by
  cases reminderId with
  | none => exact trivial
  | some id =>
    refine ⟨trivial, fun now _ => ⟨trivial, fun claimed _ => ?_, fun _ => trivial⟩⟩
    cases claimed with
    | some row => exact follows_processReminder
    | none =>
      refine ⟨trivial, fun check _ => ?_, fun _ => trivial⟩
      simp only [andThen]
      split
      · exact follows_processReminder
      · trivial

theorem follows_materializeProvider {p : ProviderId} (slots : List (Instant × Instant)) :
    (materializeProvider p slots).Follows F.dialogue := by
  induction slots with
  | nil => exact trivial
  | cons slot slots ih => exact ⟨trivial, fun _ _ => ih, fun _ => trivial⟩

theorem follows_materialize (providers : List (ProviderId × List (Instant × Instant))) :
    (materialize providers).Follows F.dialogue := by
  induction providers with
  | nil => exact trivial
  | cons p providers ih => exact ⟨trivial, fun _ _ => ih, fun _ => ih⟩

theorem follows_operation {op : Operation} (hop : F.Admits (.operation op))
    (hcolumn : ∀ s x y, F.startsAt s x → fromColumn x = .ok y → F.startsAt s y) :
    (op.program fromColumn).Follows F.dialogue := by
  cases op with
  | createBooking req nowUtc queue => exact follows_createBooking hop
  | cancelBooking id ifMatch session queue => exact follows_cancelBooking
  | confirmBooking id session => exact follows_updateAsOwner trivial
  | declineBooking id session queue spelling => exact follows_updateAsOwner follows_cancelReminderJobs
  | updateStatus id text session queue spelling =>
    refine follows_updateAsOwner ?_
    split
    · exact follows_cancelReminderJobs
    · exact trivial
  | rescheduleBooking req nowUtc queue => exact follows_rescheduleBooking hcolumn
  | rescheduleEndpoint id body session queue => exact follows_rescheduleEndpoint hcolumn
  | transition id toStatus expectedVersion => exact follows_transition
  | cancel id hours => exact follows_cancel

/-- **Every task keeps to the dialogue.** -/
theorem follows_task {task : Task} (htask : F.Admits task)
    (hcolumn : ∀ s x y, F.startsAt s x → fromColumn x = .ok y → F.startsAt s y) :
    (task.program fromColumn).Follows F.dialogue := by
  cases task with
  | operation op => exact (follows_operation htask hcolumn).bind fun _ => trivial
  | enqueueForBooking b start offsets now =>
    obtain ⟨⟨s, hb, hs⟩, hnow⟩ := htask
    exact follows_enqueueForBooking hb hs hnow offsets
  | reconcileScheduledReminders => exact follows_reconcileScheduledReminders
  | cancelForBooking b spelling => exact follows_cancelForBooking
  | cancelReminderJob id b offset => exact ⟨trivial, fun _ _ => follows_query trivial⟩
  | process isConfigured id => exact follows_process
  | claimDue =>
    exact ⟨trivial, fun _ _ => ⟨trivial, fun _ _ => ⟨trivial, fun _ _ => trivial, fun _ => trivial⟩⟩⟩
  | materializeProvider p slots => exact follows_materializeProvider slots
  | materialize providers => exact follows_materialize providers

end Follows

end Chronos
