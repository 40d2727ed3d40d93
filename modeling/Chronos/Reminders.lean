import Chronos.Rules

namespace Chronos

open ReadCommitted ReadCommitted.Prog

/-!
# The reminder queue

The methods of `ReminderQueueManager`.  The booking core calls `enqueueForBooking` and
`cancelForBooking` after its `COMMIT`; all they do to the database is to write reminder rows of
one booking (`keeps_enqueueForBooking`, `keeps_cancelForBooking`).  The manager reconciles the
queue with the scheduled rows when it starts.
-/

/-- `ReminderQueueManager.enqueueForBooking`. -/
def enqueueForBooking (bookingId : BookingId) (slotStartUtc : Instant) (now : Instant) :
    List Nat → Program Unit
  | [] => pure ()
  | offset :: offsets => do
    let fireTime := slotStartUtc - minutesMs offset
    if fireTime ≤ now then
      dbQuery (.skipReminder bookingId offset)
    else
      if ← dbQuery (.selectScheduledReminder bookingId offset) then
        queueAdd bookingId offset now (fireTime - now)
    enqueueForBooking bookingId slotStartUtc now offsets

/-- The loop over `reminderRows` of `cancelForBooking`; a failing `remove` is only logged. -/
def removeJobs (bookingId : Option BookingId) (spelling : Spelling) : List Nat → Program Unit
  | [] => pure ()
  | offset :: offsets => do
    let _ ← call (.effect (.queueRemove bookingId spelling offset))
    removeJobs bookingId spelling offsets

/-- `ReminderQueueManager.cancelForBooking`; `none` is an `undefined` id, sent as `NULL`. -/
def cancelForBooking (bookingId : Option BookingId) (spelling : Spelling) : Program Unit := do
  let offsets ← dbQuery (.selectPendingReminders bookingId)
  removeJobs bookingId spelling offsets
  dbQuery (.cancelPendingReminders bookingId)

/-- The loop over `rows` of `reconcileScheduledReminders`; a row that fails is only logged. -/
def reconcileRows (now : Instant) : List (BookingId × Instant × Nat) → Program Unit
  | [] => pure ()
  | (bookingId, slotStartUtc, offset) :: rows => do
    tryCatch (enqueueForBooking bookingId slotStartUtc now [offset]) fun _ => pure ()
    reconcileRows now rows

/-- `ReminderQueueManager.reconcileScheduledReminders`. -/
def reconcileScheduledReminders : Program Unit := do
  let rows ← dbQuery .selectScheduledReminders
  let now ← clockNow
  reconcileRows now rows

/-- `ReminderQueueManager.cancelReminderJob`; a failing `remove` is only logged. -/
def cancelReminderJob (reminderId : ReminderId) (bookingId : BookingId) (spelling : Spelling)
    (offset : Nat) : Program Unit := do
  let _ ← call (.effect (.queueRemove (some bookingId) spelling offset))
  dbQuery (.cancelPendingReminder reminderId)

/-! ### Contracts of the two functions -/

section Queue

variable {cat : Catalog} {γ : Type}
variable {c : Contract Ask.Answer Stmt Database Write Nat JsError γ} {g : γ} {φ : γ → Prop}

variable {b : BookingId}

theorem settles_skipReminder {offset o : Nat} {d : Database} {r : Unit} {ws : List Write}
    (h : (exec cat (.skipReminder b offset) o d).result = .ok (r, ws)) :
    ∀ w ∈ ws, w.Settles b := by
  rcases skipReminder_ok h with rfl | ⟨row, -, -, rfl⟩
  · simp
  · intro w hw
    rw [List.mem_singleton.mp hw]
    refine ⟨rfl, fun b' offset' row' heq => ?_⟩
    obtain ⟨-, -, rfl⟩ := Write.reminder.inj heq
    rfl

theorem settles_queueAdd {offset : Nat} {now : Instant} {delayMs : Int}
    (x : Except JsError Instant) : ∀ w ∈ noted (.queueAdd b offset now delayMs) x,
      w.Settles b := by
  cases x with
  | ok timestamp =>
    intro w hw
    rw [List.mem_singleton.mp hw]
    exact ⟨rfl, fun b' offset' row heq => nomatch heq⟩
  | error e => intro w hw; cases hw

theorem settles_queueRemove {bookingId : Option BookingId} {spelling : Spelling} {offset : Nat}
    (hb : ∀ b', bookingId = some b' → b' = b) (x : Except JsError Unit) :
    ∀ w ∈ noted (.effect (.queueRemove bookingId spelling offset)) x, w.Settles b := by
  intro w hw
  rcases bookingId, spelling, x with ⟨_ | b', _ | text, e | u⟩
  case some.printed.ok =>
    rw [List.mem_singleton.mp hw]
    exact ⟨hb b' rfl, fun b' offset' row heq => nomatch heq⟩
  all_goals cases hw

theorem keeps_enqueueForBooking
    (hpost : ∀ g d ws, φ g → c.know g d → (∀ w ∈ ws, w.Settles b) → c.Next g d ws φ)
    (start now : Instant) (offsets : List Nat) (hg : φ g) :
    (enqueueForBooking b start now offsets).Keeps (chronos cat) c (Quietly c φ) .free g := by
  induction offsets generalizing g with
  | nil => exact keeps_ret.mpr ⟨rfl, hg, fun _ => ⟨(), rfl⟩⟩
  | cons offset offsets ih =>
    simp only [enqueueForBooking]
    split
    · refine keeps_reminders (s := .skipReminder b offset) (b := b) (φ := φ) ?_
        (fun o d r ws => settles_skipReminder) hpost hg (fun r g hg => ih hg)
        fun d env e g g' hg he hf hg' => keeps_throw.mpr (quietly_error hg he hg' (Or.inl hf))
      intro o d e h
      simp only [exec] at h
      split at h <;> cases h
    · refine keeps_reminders (s := .selectScheduledReminder b offset) (b := b) (φ := φ)
        (fun o d e h => by cases h) (fun o d r ws h => by rw [(read_ok h).2]; simp) hpost hg
        (fun r g hg => ?_) fun d env e g g' hg he hf hg' => keeps_throw.mpr (quietly_error hg he hg' (Or.inl hf))
      cases r with
      | false => exact ih hg
      | true =>
        intro d env he hk
        refine (hpost g d _ hg hk (settles_queueAdd _)).mono fun g' hg' => ?_
        cases hans : env.answer (.queueAdd b offset now (start - minutesMs offset - now)) with
        | ok timestamp => exact ih hg'
        | error e => exact keeps_throw.mpr (quietly_error hg he hg' (Or.inr (Or.inr ⟨_, _, _, _, hans⟩)))

theorem keeps_removeJobs
    (hpost : ∀ g d ws, φ g → c.know g d → (∀ w ∈ ws, w.Settles b) → c.Next g d ws φ)
    (bookingId : Option BookingId) (spelling : Spelling) (hb : ∀ b', bookingId = some b' → b' = b)
    (offsets : List Nat) (hg : φ g) :
    (removeJobs bookingId spelling offsets).Keeps (chronos cat) c (Quietly c φ) .free g := by
  induction offsets generalizing g with
  | nil => exact keeps_ret.mpr ⟨rfl, hg, fun _ => ⟨(), rfl⟩⟩
  | cons offset offsets ih =>
    intro d env he hk
    exact (hpost g d _ hg hk (settles_queueRemove hb _)).mono fun g' hg' => ih hg'

theorem keeps_cancelForBooking
    (hpost : ∀ g d ws, φ g → c.know g d → (∀ w ∈ ws, w.Settles b) → c.Next g d ws φ)
    (bookingId : Option BookingId) (spelling : Spelling) (hb : ∀ b', bookingId = some b' → b' = b)
    (hg : φ g) :
    (cancelForBooking bookingId spelling).Keeps (chronos cat) c (Quietly c φ) .free g := by
  refine keeps_reminders (s := .selectPendingReminders bookingId) (b := b) (φ := φ) ?_ ?_ hpost hg
    (fun offsets g hg => ?_) fun d env e g g' hg he hf hg' => keeps_throw.mpr (quietly_error hg he hg' (Or.inl hf))
  · intro o d e h; cases bookingId <;> cases h
  · intro o d r ws h
    have hws : ws = [] := by cases bookingId <;> exact (read_ok h).2
    simp [hws]
  refine (keeps_removeJobs hpost bookingId spelling hb offsets hg).bind
    ?_ fun st g e h => ⟨h.1, h.2.1, fun hcalm => ?_⟩
  · rintro st g - ⟨rfl, hg, -⟩
    refine keeps_reminders (s := .cancelPendingReminders bookingId) (b := b) (φ := φ) ?_ ?_ hpost hg
      (fun r g hg => keeps_ret.mpr ⟨rfl, hg, fun _ => ⟨r, rfl⟩⟩)
      fun d env e g g' hg he hf hg' => keeps_throw.mpr (quietly_error hg he hg' (Or.inl hf))
    · intro o d e h; cases bookingId <;> cases h
    · intro o d r ws h
      cases hid : bookingId with
      | none => rw [hid] at h; simp [(read_ok h).2]
      | some b' =>
        rw [hid] at h
        obtain rfl := hb b' hid
        simp only [exec, Except.ok.injEq, Prod.mk.injEq] at h
        rw [← h.2]
        intro w hw
        rw [List.mem_singleton.mp hw]
        exact ⟨rfl, fun b' offset' row heq => nomatch heq⟩
  · obtain ⟨u, hu⟩ := h.2.2 hcalm
    cases hu

variable {adm : Stmt → Database → Prop}

theorem ok_enqueueForBooking (start now : Instant) (offsets : List Nat) :
    (enqueueForBooking b start now offsets).OkTo (chronos cat) value adm Mode.Outside .free := by
  induction offsets with
  | nil => exact okTo_ret.mpr rfl
  | cons offset offsets ih =>
    simp only [enqueueForBooking]
    split
    · exact ⟨fun _ => ih, fun _ => okTo_throw.mpr rfl⟩
    · refine ⟨fun r => ?_, fun _ => okTo_throw.mpr rfl⟩
      cases r with
      | false => exact ih
      | true =>
        intro x
        cases x with
        | ok u => exact ih
        | error e => exact okTo_throw.mpr rfl

theorem ok_removeJobs (bookingId : Option BookingId) (spelling : Spelling) (offsets : List Nat) :
    (removeJobs bookingId spelling offsets).OkTo (chronos cat) value adm Mode.Outside .free := by
  induction offsets with
  | nil => exact okTo_ret.mpr rfl
  | cons offset offsets ih => exact fun _ => ih

theorem ok_cancelForBooking (bookingId : Option BookingId) (spelling : Spelling) :
    (cancelForBooking bookingId spelling).OkTo (chronos cat) value adm Mode.Outside .free := by
  refine ⟨fun offsets => ?_, fun _ => okTo_throw.mpr rfl⟩
  refine (ok_removeJobs bookingId spelling offsets).bind ?_ fun m e h => h
  rintro m - rfl
  exact ⟨fun _ => okTo_ret.mpr rfl, fun _ => okTo_throw.mpr rfl⟩

end Queue

end Chronos
