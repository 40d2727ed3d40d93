import Chronos.Clients
import Chronos.Delivery
import Chronos.Tasks
import Chronos.ReadCommitted.Ending

namespace Chronos

open ReadCommitted ReadCommitted.Prog

/-!
# Which calls can wait for each other in a circle

`createBooking` locks a slot and then a booking, and so do no others: `cancelBooking`,
`rescheduleBooking` and `LifecycleService` lock a booking and then a slot.  Everything else either
opens no transaction or keeps to one order of the locks, `lockRank`.

* `Task.Ordered` — the tasks without those that lock a slot after a booking.
* `never_deadlocked` — any number of ordered tasks, interleaved in any order, can always go on, as
  long as no `BEGIN`, `COMMIT` or `ROLLBACK` fails.
* `always_finished` — so finitely many of them can always be run to their ends.
* `create_and_cancel_deadlock` — one `createBooking` and one `cancelBooking` can be stuck.
-/

/-- The order in which locks are taken. -/
def lockRank : Lock → Nat
  | .slot _ => 0
  | .booking _ => 1
  | .live _ => 2
  | .reminders _ => 3
  | .key .. => 4

theorem lockRank_le (k : Lock) : lockRank k ≤ 4 := by
  cases k <;> simp [lockRank]

/-! ### Tasks without transactions -/

section Talks

theorem talks_perform (e : Effect) : (perform e).Talks (fun _ => True) fun _ => True := by
  refine ⟨trivial, fun x => ?_⟩
  cases x <;> trivial

theorem talks_queueAdd (b : BookingId) (offset : Nat) (now : Instant) (delayMs : Int) :
    (queueAdd b offset now delayMs).Talks (fun _ => True) fun _ => True := by
  refine ⟨trivial, fun x => ?_⟩
  cases x <;> trivial

theorem talks_enqueueForBooking (b : BookingId) (start now : Instant) (offsets : List Nat) :
    (enqueueForBooking b start now offsets).Talks (fun _ => True) fun _ => True := by
  induction offsets with
  | nil => trivial
  | cons offset offsets ih =>
    simp only [enqueueForBooking]
    split
    · exact ⟨trivial, fun _ => ih, fun _ => trivial⟩
    · refine ⟨trivial, fun r => ?_, fun _ => trivial⟩
      cases r with
      | false => exact ih
      | true => exact (talks_queueAdd ..).bind fun _ => ih

theorem talks_removeJobs (b : Option BookingId) (spelling : Spelling) (offsets : List Nat) :
    (removeJobs b spelling offsets).Talks (fun _ => True) fun _ => True := by
  induction offsets with
  | nil => trivial
  | cons offset offsets ih => exact ⟨trivial, fun _ => ih⟩

theorem talks_cancelForBooking (b : Option BookingId) (spelling : Spelling) :
    (cancelForBooking b spelling).Talks (fun _ => True) fun _ => True :=
  ⟨trivial, fun offsets => (talks_removeJobs b spelling offsets).bind fun _ =>
    ⟨trivial, fun _ => trivial, fun _ => trivial⟩, fun _ => trivial⟩

theorem talks_reconcileRows (now : Instant) (rows : List (BookingId × Instant × Nat)) :
    (reconcileRows now rows).Talks (fun _ => True) fun _ => True := by
  induction rows with
  | nil => trivial
  | cons row rows ih =>
    obtain ⟨b, start, offset⟩ := row
    refine Talks.bind (p := tryCatch (enqueueForBooking b start now [offset]) fun _ => pure ()) ?_
      fun _ => ih
    exact (talks_enqueueForBooking b start now [offset]).tryCatch fun _ => trivial

theorem talks_materializeProvider (p : ProviderId) (slots : List (Instant × Instant)) :
    (materializeProvider p slots).Talks (fun _ => True) fun _ => True := by
  induction slots with
  | nil => trivial
  | cons slot slots ih => exact ⟨trivial, fun _ => ih, fun _ => trivial⟩

theorem talks_materialize (providers : List (ProviderId × List (Instant × Instant))) :
    (materialize providers).Talks (fun _ => True) fun _ => True := by
  induction providers with
  | nil => trivial
  | cons p providers ih => exact ⟨trivial, fun _ => ih, fun _ => ih⟩

theorem talks_cancelReminderJobs (b : Option BookingId) (spelling : Spelling) (queue : Bool) :
    (cancelReminderJobs b spelling queue).Talks (fun _ => True) fun _ => True := by
  cases queue with
  | false => trivial
  | true => exact (talks_cancelForBooking b spelling).tryCatch fun _ => trivial

theorem talks_enqueueReminders (s : SlotId) (b : BookingId) (now : Instant) :
    (enqueueReminders s b (pure now)).Talks (fun _ => True) fun _ => True := by
  refine ⟨trivial, fun slot => ?_, fun _ => trivial⟩
  simp only [andThen]
  split
  · trivial
  · refine ⟨trivial, fun offsets => ?_, fun _ => trivial⟩
    simp only [andThen]
    split
    · exact talks_enqueueForBooking b _ now offsets
    · trivial

end Talks

/-! ### Transactions in the order of the locks -/

section Climbs

variable {cat : Catalog}

/-- Inside a transaction a program throws, or goes on with locks up to rank `top`. -/
def Mode.UpTo {α : Type} (top : Nat) : Mode Lock → Except JsError α → Prop
  | m, .ok _ => ∃ held, m = .inside held ∧ ∀ k ∈ held, lockRank k ≤ top
  | _, .error _ => True

/-- A statement whose new locks all have the next rank. -/
theorem climbs_stmt {α : Type} {s : Stmt} {ok : s.Rows → Program α} {err : JsError → Program α}
    {T : Mode Lock → Except JsError α → Prop} {held : List Lock} {n : Nat}
    (hheld : ∀ k ∈ held, lockRank k ≤ n)
    (hlocks : ∀ o d, ∀ k ∈ (exec cat s o d).locks, k ∈ held ∨ lockRank k = n + 1)
    (hok : ∀ r held', (∀ k ∈ held', lockRank k ≤ n + 1) →
      (ok r).Climbs (chronos cat) lockRank T (.inside held'))
    (herr : ∀ e, (err e).Climbs (chronos cat) lockRank T .doomed) :
    (Prog.stmt s ok err).Climbs (chronos cat) lockRank T (.inside held) := by
  refine ⟨fun o d k hk => ?_, fun o d r ws _ => hok r _ fun k hk => ?_, herr⟩
  · refine (hlocks o d k hk).imp_right fun hrank k' hk' => ?_
    have hle : lockRank k' ≤ n := hheld k' hk'
    omega
  · rcases List.mem_append.mp hk with hk | hk
    · exact (hheld k hk).trans (Nat.le_succ n)
    · rcases hlocks o d k hk with hmem | hrank
      · exact (hheld k hmem).trans (Nat.le_succ n)
      · exact hrank.le

/-- The `catch` block leaves the transaction. -/
theorem climbs_rollbackQuietly {α : Type} {m : Mode Lock} (r : Except JsError α) :
    (rollbackQuietly.bind fun _ => ofExcept r).Climbs (chronos cat) lockRank Mode.Outside m := by
  cases r with
  | ok a => exact climbs_rollback.mpr (climbs_ret.mpr rfl)
  | error e => exact climbs_rollback.mpr (climbs_throw.mpr rfl)

/-- Where a `catch` block may take over. -/
def Mode.OutsideUnlessThrown {α : Type} : Mode Lock → Except JsError α → Prop
  | m, .ok _ => m = .free
  | _, .error _ => True

theorem climbs_caught {α : Type} {p : Program α} (f : JsError → Except JsError α)
    (hp : p.Climbs (chronos cat) lockRank Mode.OutsideUnlessThrown .free) :
    (p.tryCatch fun e => rollbackQuietly.bind fun _ => ofExcept (f e)).Climbs (chronos cat) lockRank
      Mode.Outside .free :=
  hp.tryCatch (fun _ _ h => h) fun _ e _ => climbs_rollbackQuietly (f e)

/-- What is done after `COMMIT`, outside transactions. -/
theorem climbs_afterCommit {α β : Type} {p : Program α} {f : α → Program β}
    (hp : p.Talks (fun _ => True) fun _ => True)
    (hf : ∀ a, (f a).Climbs (chronos cat) lockRank Mode.OutsideUnlessThrown .free) :
    (p.bind f).Climbs (chronos cat) lockRank Mode.OutsideUnlessThrown .free :=
  hp.climbs.outside_bind hf fun _ => trivial

theorem climbs_insertReminders {b : BookingId} {start : Instant} (offsets : List Nat)
    {held : List Lock} (hheld : ∀ k ∈ held, lockRank k ≤ 2 ∨ k = .reminders b) :
    (insertReminders b start offsets).Climbs (chronos cat) lockRank (Mode.UpTo 3)
      (.inside held) := by
  have hle : ∀ {held : List Lock}, (∀ k ∈ held, lockRank k ≤ 2 ∨ k = .reminders b) →
      ∀ k ∈ held, lockRank k ≤ 3 := by
    intro held h k hk
    rcases h k hk with hle | rfl
    · exact hle.trans (by decide)
    · exact Nat.le_refl 3
  induction offsets generalizing held with
  | nil => exact climbs_ret.mpr ⟨held, rfl, hle hheld⟩
  | cons offset offsets ih =>
    refine climbs_ask.mpr fun nowMs => ?_
    simp only [andThen]
    split
    · refine ⟨fun o d k hk => ?_, fun o d r ws _ => ih fun k hk => ?_, fun _ => climbs_throw.mpr trivial⟩
      · -- The rows of the booking are locked again, or for the first time.
        obtain rfl : k = .reminders b := List.mem_singleton.mp hk
        by_cases hmem : Lock.reminders b ∈ held
        · exact Or.inl hmem
        · refine Or.inr fun k' hk' => ?_
          rcases hheld k' hk' with hlow | rfl
          · exact Nat.lt_succ_of_le hlow
          · exact absurd hk' hmem
      · rcases List.mem_append.mp hk with hk | hk
        · exact hheld k hk
        · exact Or.inr (List.mem_singleton.mp hk)
    · exact ih hheld

theorem climbs_insertIdempotencyKey {c : ClientId} {key : Option String} {hash : JsonText}
    {b : BookingId} {held : List Lock} (hheld : ∀ k ∈ held, lockRank k ≤ 3) :
    (insertIdempotencyKey c key hash b).Climbs (chronos cat) lockRank (Mode.UpTo 4)
      (.inside held) := by
  have hup : ∀ k ∈ held, lockRank k ≤ 4 := fun k hk => (hheld k hk).trans (by decide)
  unfold insertIdempotencyKey
  split
  · exact climbs_ret.mpr ⟨held, rfl, hup⟩
  · refine climbs_stmt hheld (fun o d k hk => ?_) (fun r held' hheld' => ?_)
      fun _ => climbs_throw.mpr trivial
    · obtain rfl := List.mem_singleton.mp hk
      exact Or.inr rfl
    · exact climbs_ret.mpr ⟨held', rfl, hheld'⟩

/-- **The transaction of `createBooking`**: the slot, the booking and its place in the index, its
    reminders, the key. -/
theorem climbs_bookSlotInTransaction (req : BookingRequest) (effectiveNow minSlotTime : Instant)
    (reminderQueue : Bool) :
    (bookSlotInTransaction req effectiveNow minSlotTime reminderQueue).Climbs (chronos cat) lockRank
      Mode.Outside .free := by
  refine climbs_caught (fun e => .ok e.refusal) ?_
  refine ⟨fun o d k hk => Or.inr fun _ hk' => absurd hk' List.not_mem_nil, fun o d r ws hx => ?_,
    fun _ => climbs_throw.mpr trivial⟩
  rcases updateSlotWhere_ok hx with ⟨rfl, -⟩ | ⟨row, -, -, rfl, -, hlocks⟩
  · exact climbs_rollback.mpr (climbs_ret.mpr rfl)
  · have hheld : ∀ k ∈ [] ++ ((chronos cat).exec
        (.bookSlot req.slotId effectiveNow minSlotTime) o d).locks, lockRank k ≤ 0 := by
      change ∀ k ∈ (updateSlotWhere _ _ _ _).locks, lockRank k ≤ 0
      rw [hlocks]
      exact fun k hk => List.mem_singleton.mp hk ▸ Nat.le_refl 0
    refine ⟨fun o d k hk => Or.inr fun k' hk' => ?_, fun o d b ws _ => ?_,
      fun _ => climbs_throw.mpr trivial⟩
    · have hlow : lockRank k' ≤ 0 := hheld k' hk'
      have hhigh : 0 < lockRank k := by
        rcases List.mem_cons.mp hk with rfl | hk
        · exact Nat.one_pos
        · exact List.mem_singleton.mp hk ▸ Nat.two_pos
      omega
    · refine (climbs_insertReminders reminderOffsets fun k hk => Or.inl ?_).bind ?_ fun _ _ _ => trivial
      · rcases List.mem_append.mp hk with hk | hk
        · exact (hheld k hk).trans (by decide)
        · rcases List.mem_cons.mp hk with rfl | hk
          · exact Nat.le_succ 1
          · exact List.mem_singleton.mp hk ▸ Nat.le_refl 2
      · rintro m - ⟨held, rfl, hheld⟩
        refine (climbs_insertIdempotencyKey hheld).bind ?_ fun _ _ _ => trivial
        rintro m - ⟨held', rfl, -⟩
        change Prog.Climbs _ _ _ .free _
        split
        · exact climbs_afterCommit (p := enqueueReminders req.slotId b (pure effectiveNow))
            (talks_enqueueReminders _ _ _) fun _ => climbs_ret.mpr rfl
        · exact climbs_ret.mpr rfl

theorem climbs_createBooking (req : BookingRequest) (nowUtc : Option Instant)
    (reminderQueue : Bool) :
    (createBooking req nowUtc reminderQueue).Climbs (chronos cat) lockRank Mode.Outside .free := by
  have hat : ∀ now, (createBookingAt req now reminderQueue).Climbs (chronos cat) lockRank
      Mode.Outside .free := by
    intro now
    refine (talks_configuredNoticeHours req).climbs.outside_bind (fun hours => ?_) fun _ => rfl
    refine (talks_validateEventType req).climbs.outside_bind (fun refusal => ?_) fun _ => rfl
    cases refusal with
    | some refusal => exact climbs_ret.mpr rfl
    | none =>
      refine (talks_checkIdempotencyKey req).climbs.outside_bind (fun answer => ?_) fun _ => rfl
      cases answer with
      | some answer => exact climbs_ret.mpr rfl
      | none => exact climbs_bookSlotInTransaction req _ _ _
  cases nowUtc with
  | some now => exact hat now
  | none => exact climbs_ask.mpr hat

/-- **The transaction of `updateAsOwner`**: the booking, and its place in the index. -/
theorem climbs_updateAsOwner {id : BookingId} {session : Option ClientId}
    {check : Booking → Option Reply} {status : String} {afterCommit : Program Unit}
    (hafter : afterCommit.Talks (fun _ => True) fun _ => True) :
    (updateAsOwner id session check status afterCommit).Climbs (chronos cat) lockRank Mode.Outside
      .free := by
  cases session with
  | none => exact climbs_throw.mpr rfl
  | some client =>
    refine (talks_perform _).climbs.outside_bind (fun _ => ?_) fun _ => rfl
    refine Climbs.andThen (T := Mode.Outside) (climbs_caught .error ?_) ?_ ?_
    · refine ⟨fun o d k hk => Or.inr fun _ hk' => absurd hk' List.not_mem_nil, fun o d r ws hx => ?_,
        fun _ => climbs_throw.mpr trivial⟩
      have hgiveUp : ∀ (held : List Lock) (r : Reply), (Prog.control .rollback (ret r) Prog.throw :
          Program Reply).Climbs (chronos cat) lockRank Mode.OutsideUnlessThrown (.inside held) :=
        fun _ _ => climbs_rollback.mpr (climbs_ret.mpr rfl)
      change (exec cat (.selectBookingForUpdate id) o d).result = _ at hx
      obtain ⟨rfl, rfl⟩ := selectBookingForUpdate_ok hx
      cases hrow : d.bookings.lookup id with
      | none => exact hgiveUp _ _
      | some b =>
        have hlocks : ((chronos cat).exec (.selectBookingForUpdate id) o d).locks = [.booking id] := by
          change (exec cat (.selectBookingForUpdate id) o d).locks = _
          simp only [exec, hrow]
        rw [hlocks]
        simp only [andThen]
        split
        · exact hgiveUp _ _
        · split
          · exact hgiveUp _ _
          · refine climbs_stmt (n := 1) (fun k hk => ?_) (fun o d k hk => ?_) (fun r held' _ => ?_)
              fun _ => climbs_throw.mpr trivial
            · exact List.mem_singleton.mp hk ▸ Nat.le_refl 1
            · -- The row again, and an entry of the index.
              have hkinds : k = .booking id ∨ ∃ s, k = .live s := by
                simp only [exec] at hk
                split at hk
                · exact Or.inl (List.mem_singleton.mp hk)
                · split at hk
                  · exact Or.inl (List.mem_singleton.mp hk)
                  · rcases List.mem_cons.mp hk with rfl | hk
                    · exact Or.inl rfl
                    · unfold Booking.entries at hk
                      split at hk
                      · exact Or.inr ⟨_, List.mem_singleton.mp hk⟩
                      · cases hk
              rcases hkinds with rfl | ⟨s, rfl⟩
              · exact Or.inl (List.mem_singleton_self _)
              · exact Or.inr rfl
            · exact climbs_afterCommit (p := afterCommit) hafter fun _ => climbs_ret.mpr rfl
    · rintro m a rfl
      exact (talks_perform _).climbs.outside_bind (fun _ => climbs_ret.mpr rfl) fun _ => rfl
    · rintro m e rfl
      exact (talks_perform _).climbs.outside_bind (fun _ => climbs_throw.mpr rfl) fun _ => rfl

end Climbs

/-! ### Every run -/

/-- The operations that lock no slot after a booking. -/
def Operation.Ordered : Operation → Prop
  | .createBooking .. => True
  | .confirmBooking .. => True
  | .declineBooking .. => True
  | .updateStatus .. => True
  | _ => False

def Task.Ordered : Task → Prop
  | .operation op => op.Ordered
  | _ => True

section Runs

variable {ι C : Type} [DecidableEq ι] [DecidableEq C] {cat : Catalog}
variable {fromColumn : Instant → Except JsError Instant} {tasks : ι → Task} {own : ι → C}
variable {d₀ : Database}

theorem climbs_operation {op : Operation} (hop : op.Ordered) :
    (op.program fromColumn).Climbs (chronos cat) lockRank Mode.Outside .free := by
  cases op with
  | createBooking req nowUtc queue => exact climbs_createBooking req nowUtc queue
  | confirmBooking id session => exact climbs_updateAsOwner trivial
  | declineBooking id session queue spelling =>
    exact climbs_updateAsOwner (talks_cancelReminderJobs (some id) spelling queue)
  | updateStatus id text session queue spelling =>
    refine climbs_updateAsOwner ?_
    split
    · exact talks_cancelReminderJobs (some id) spelling queue
    · trivial
  | cancelBooking id ifMatch session queue => exact hop.elim
  | rescheduleBooking req nowUtc queue => exact hop.elim
  | rescheduleEndpoint id body session queue => exact hop.elim
  | transition id toStatus expectedVersion => exact hop.elim
  | cancel id hours => exact hop.elim

theorem climbs_task {task : Task} (htask : task.Ordered) :
    (task.program fromColumn).Climbs (chronos cat) lockRank Mode.Outside .free := by
  cases task with
  | operation op =>
    exact (climbs_operation htask).outside_bind (fun _ => climbs_ret.mpr rfl) fun _ => rfl
  | enqueueForBooking b start offsets now => exact (talks_enqueueForBooking b start now offsets).climbs
  | reconcileScheduledReminders =>
    have htalks : reconcileScheduledReminders.Talks (fun _ => True) fun _ => True :=
      ⟨trivial, fun rows => ⟨trivial, fun now => talks_reconcileRows now rows⟩, fun _ => trivial⟩
    exact htalks.climbs
  | cancelForBooking b spelling => exact (talks_cancelForBooking b spelling).climbs
  | cancelReminderJob id b spelling offset =>
    have htalks : (cancelReminderJob id b spelling offset).Talks (fun _ => True) fun _ => True :=
      ⟨trivial, fun _ => ⟨trivial, fun _ => trivial, fun _ => trivial⟩⟩
    exact htalks.climbs
  | process isConfigured id =>
    cases id with
    | none => exact climbs_throw.mpr rfl
    | some id => exact talks_process.climbs
  | claimDue =>
    have htalks : ((Chronos.claimDue).bind fun _ => ret ()).Talks (fun _ => True) fun _ => True :=
      ⟨trivial, fun _ => ⟨trivial, fun _ => ⟨trivial, fun _ => trivial, fun _ => trivial⟩⟩⟩
    exact htalks.climbs
  | materializeProvider p slots => exact (talks_materializeProvider p slots).climbs
  | materialize providers => exact (talks_materialize providers).climbs

/-- **Run lemma.** -/
theorem climbing_reaches {w : World Stmt.Rows Ask.Answer JsError Unit Database Write Lock C ι}
    (hown : Function.Injective own) (htasks : ∀ i, (tasks i).Ordered)
    (h : Reaches (chronos cat) (fun w l => ControlsUndisturbed w l ∧ Dedicated own l)
      (World.init d₀ fun i => (tasks i).program fromColumn) w) :
    w.Climbing (chronos cat) lockRank own := by
  induction h with
  | start => exact climbing_init fun i => climbs_task (htasks i)
  | step _ hP hs ih => exact ih.step hown hP.2 hP.1 hs

/-- **No deadlock.**  Any number of ordered tasks run on connections of their own, interleaved in any
    order; statements may fail, but no `BEGIN`, `COMMIT` or `ROLLBACK` has.  While one of them is
    not done, one of them can make its next move, whatever it is told; and only tasks that are not
    done hold a lock. -/
theorem never_deadlocked {w : World Stmt.Rows Ask.Answer JsError Unit Database Write Lock C ι}
    (hown : Function.Injective own) (htasks : ∀ i, (tasks i).Ordered)
    (h : Reaches (chronos cat) (fun w l => ControlsUndisturbed w l ∧ Dedicated own l)
      (World.init d₀ fun i => (tasks i).program fromColumn) w) :
    (∀ i, ¬ (w.prog i).Done → ∃ j, ¬ (w.prog j).Done ∧
      ∀ env, ∃ w', w.step (chronos cat) ⟨j, own j, env⟩ = some w') ∧
    ∀ k c, w.holder k = some c → ∃ i, own i = c ∧ ¬ (w.prog i).Done := by
  have hclimbing := climbing_reaches hown htasks h
  refine ⟨fun i hi => hclimbing.can_step lockRank_le hi, fun k c hk => ?_⟩
  obtain ⟨i, rfl⟩ := hclimbing.holders k c hk
  exact ⟨i, rfl, hclimbing.not_done hk⟩

/-- **Everybody is answered.**  From wherever finitely many ordered tasks have come without a failing
    `BEGIN`, `COMMIT` or `ROLLBACK`, they can be run on until all of them have ended, whatever the
    surroundings answer and whichever other statements they let fail; no lock is held then. -/
theorem always_finished [Finite ι]
    {w : World Stmt.Rows Ask.Answer JsError Unit Database Write Lock C ι}
    (hown : Function.Injective own) (htasks : ∀ i, (tasks i).Ordered)
    (h : Reaches (chronos cat) (fun w l => ControlsUndisturbed w l ∧ Dedicated own l)
      (World.init d₀ fun i => (tasks i).program fromColumn) w)
    {surroundings : World Stmt.Rows Ask.Answer JsError Unit Database Write Lock C ι → ι →
      Env Nat JsError Ask.Answer}
    (hcontrol : ∀ w l, Surrounded own surroundings w l → ControlsUndisturbed w l) :
    ∃ w', Reaches (chronos cat) (Surrounded own surroundings) w w' ∧ (∀ i, (w'.prog i).Done) ∧
      ∀ k, w'.holder k = none :=
  (climbing_reaches hown htasks h).finishes hown lockRank_le hcontrol

end Runs

/-- Client `5` books slot `1` (`false`) while it confirms booking `1` (`true`). -/
def createAndConfirm : Bool → Task
  | false => .operation (.createBooking sampleRequest (some 0) false)
  | true => .operation (.confirmBooking 1 (some 5))

/-- The two calls, each with a transaction open. -/
theorem create_and_confirm_begun :
    ∃ w : World Stmt.Rows Ask.Answer JsError Unit Database Write Lock Bool Bool,
      Reaches (chronos sampleCatalog) (fun w l => ControlsUndisturbed w l ∧ Dedicated id l)
        (World.init (sampleBooked .«open» .booked 1) fun i => (createAndConfirm i).program .ok) w ∧
      w.holder (.slot 1) = some false ∧ w.holder (.booking 1) = some true ∧
      ¬ (w.prog false).Done := by
  have hrun : ∃ w : World Stmt.Rows Ask.Answer JsError Unit Database Write Lock Bool Bool,
      World.run (chronos sampleCatalog) (fun _ _ => true)
        (World.init (sampleBooked .«open» .booked 1) fun i => (createAndConfirm i).program .ok)
        (ownSteps (fun _ => calmEnv 2 0) (List.replicate 4 false ++ List.replicate 4 true)) = some w ∧
      w.holder (.slot 1) = some false ∧ w.holder (.booking 1) = some true ∧ ¬ (w.prog false).Done :=
    ⟨_, by with_unfolding_all rfl, rfl, rfl, id⟩
  obtain ⟨w, hw, hheld⟩ := hrun
  refine ⟨w, reaches_of_run (fun w l hl _ => ?_) hw, hheld⟩
  obtain ⟨i, -, rfl⟩ := List.mem_map.mp hl
  exact ⟨fun _ _ _ _ => rfl, rfl⟩

theorem ordered_createAndConfirm (i : Bool) : (createAndConfirm i).Ordered := by
  cases i <;> trivial

/-- Both are inside their transactions, the one with the slot, the other with the booking, and
    somebody can go on. -/
theorem create_and_confirm_go_on :
    ∃ w : World Stmt.Rows Ask.Answer JsError Unit Database Write Lock Bool Bool,
      w.holder (.slot 1) = some false ∧ w.holder (.booking 1) = some true ∧
      ∃ j, ¬ (w.prog j).Done ∧ ∀ env, ∃ w', w.step (chronos sampleCatalog) ⟨j, id j, env⟩ = some w' := by
  obtain ⟨w, hreach, hslot, hbooking, hdone⟩ := create_and_confirm_begun
  exact ⟨w, hslot, hbooking,
    (never_deadlocked Function.injective_id ordered_createAndConfirm hreach).1 false hdone⟩

/-- From there both come to their ends. -/
theorem create_and_confirm_end :
    ∃ w w' : World Stmt.Rows Ask.Answer JsError Unit Database Write Lock Bool Bool,
      w.holder (.slot 1) = some false ∧ w.holder (.booking 1) = some true ∧
      Reaches (chronos sampleCatalog) (Surrounded id fun _ _ => calmEnv 2 0) w w' ∧
      (∀ i, (w'.prog i).Done) ∧ ∀ k, w'.holder k = none := by
  obtain ⟨w, hreach, hslot, hbooking, -⟩ := create_and_confirm_begun
  have hcalm : ∀ (w : World Stmt.Rows Ask.Answer JsError Unit Database Write Lock Bool Bool) l,
      Surrounded id (fun _ _ => calmEnv 2 0) w l → ControlsUndisturbed w l := by
    intro w l hl _ _ _ _
    rw [hl.2]
    rfl
  obtain ⟨w', hreach', hend⟩ :=
    always_finished Function.injective_id ordered_createAndConfirm hreach hcalm
  exact ⟨w, w', hslot, hbooking, hreach', hend⟩

/-- Client `5` books slot `1` (`false`) while it cancels booking `1` (`true`). -/
def createAndCancel : Bool → Task
  | false => .operation (.createBooking sampleRequest (some 0) false)
  | true => .operation (.cancelBooking 1 none (some 5) false)

/-- **A deadlock.**  The slot is open although booking `1` is on it.  One call has locked the slot and
    waits for the booking's entry in the index, the other has changed the booking and waits for the
    slot. -/
theorem create_and_cancel_deadlock :
    ∃ w : World Stmt.Rows Ask.Answer JsError Unit Database Write Lock Bool Bool,
      Reaches (chronos sampleCatalog) (fun w l => ControlsUndisturbed w l ∧ Dedicated id l)
        (World.init (sampleBooked .«open» .booked 1) fun i => (createAndCancel i).program .ok) w ∧
      ∀ i env, env.fault = none →
        ¬ (w.prog i).Done ∧ w.step (chronos sampleCatalog) ⟨i, i, env⟩ = none := by
  have hrun : ∃ w : World Stmt.Rows Ask.Answer JsError Unit Database Write Lock Bool Bool,
      World.run (chronos sampleCatalog) (fun _ _ => true)
        (World.init (sampleBooked .«open» .booked 1) fun i => (createAndCancel i).program .ok)
        (ownSteps (fun _ => calmEnv 2 0) (List.replicate 4 false ++ List.replicate 6 true)) = some w ∧
      ∀ i env, env.fault = none →
        ¬ (w.prog i).Done ∧ w.step (chronos sampleCatalog) ⟨i, i, env⟩ = none := by
    refine ⟨_, by with_unfolding_all rfl, fun i env hfault => ?_⟩
    cases i with
    | false =>
      have hmem : Lock.live 1 ∈ [.booking env.fresh, .live 1] :=
        List.mem_cons_of_mem _ (List.mem_singleton_self _)
      exact ⟨id, step_eq_none (k := .live 1) (c := true) (s := .insertBooking sampleRequest.booking)
        rfl rfl hfault (fun _ => hmem) rfl Bool.noConfusion⟩
    | true =>
      exact ⟨id, step_eq_none (k := .slot 1) (c := false) (s := .openSlot 1) rfl rfl hfault
        (fun _ => List.mem_singleton_self _) rfl Bool.noConfusion⟩
  obtain ⟨w, hw, hstuck⟩ := hrun
  refine ⟨w, reaches_of_run (fun w l hl _ => ?_) hw, hstuck⟩
  obtain ⟨i, -, rfl⟩ := List.mem_map.mp hl
  exact ⟨fun _ _ _ _ => rfl, rfl⟩

end Chronos
