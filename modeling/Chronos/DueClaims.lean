import Chronos.Delivery
import Chronos.Stranded
import Chronos.ReadCommitted.SkipLocked

namespace Chronos

open ReadCommitted

/-!
# What `claimDue` claims

The statement of `claimDue` takes, of the rows that are `scheduled` or `sending` with an expired
lock, the one that fires first.  That it fires by now is not in its `WHERE` clause, so that the
reminder of next week is claimed today when no other is left (`claimed_before_due`).

`claims_due_iff` says when the calls of a run are well served all the same: when among the rows
that the statement would take, if there are any, one is due.

* `claimDuePick` — the statement, as one that hands out rows with `SKIP LOCKED`.
* `ReminderJob.Claimable` — the rows that a call is there for.
* `claims_in_world` — what calls return while others look for their rows, the program `claimDue`
  returns in a run of the database.
-/

/-! ### The statement -/

/-- What a call of `claimDue` brings along: its `now()` and its `$1`. -/
structure ClaimQuery where
  now : Instant
  lockedUntil : Instant

/-- The statement of `claimDue`. -/
def claimDuePick : Pick ClaimQuery ReminderJob Instant where
  wanted q row := row.due q.now = true
  rank := ReminderJob.fireAtUtc
  change q row := row.claim q.lockedUntil

/-- Calls look at times that do not decrease. -/
def ClaimQuery.Later (q q' : ClaimQuery) : Prop := q.now ≤ q'.now

/-- The lock that the call `q` has set has expired when the call `q'` looks. -/
def ClaimQuery.Expired (q q' : ClaimQuery) : Prop := q.lockedUntil < q'.now

/-- Any number of calls of `claimDue` on one table. -/
abbrev DueClaims (ι : Type) := Claims ι ReminderId ReminderJob ClaimQuery

/-- What a call finds. -/
abbrev ClaimLook := Look ReminderId ReminderJob ClaimQuery

/-- A run of calls that starts with the reminders of `d`. -/
abbrev DueClaims.Run {ι : Type} [DecidableEq ι] (d : Database) (s : DueClaims ι) : Prop :=
  Claims.Run claimDuePick ClaimQuery.Later (Claims.start fun id => d.reminderJobs.lookup id) s

theorem due_iff {now : Instant} {row : ReminderJob} : row.due now = true ↔
    row.status = .scheduled ∨ row.status = .sending ∧ ∃ t, row.lockedUntil = some t ∧ t < now := by
  obtain ⟨fireAt, status, lockedUntil⟩ := row
  cases status <;>
    simp [ReminderJob.due, ReminderJob.pending, ReminderJob.scheduled, Option.any_eq_true]

theorem due_claim {now lockedUntil : Instant} {row : ReminderJob} :
    (row.claim lockedUntil).due now = true ↔ lockedUntil < now := by
  rw [due_iff]
  simp [ReminderJob.claim]

/-- A claimed row is wanted again when its lock has expired. -/
theorem claimDue_expiry :
    Claims.Expiry claimDuePick ClaimQuery.Later ClaimQuery.Expired where
  wanted := fun _ _ _ hwanted => due_claim.mp hwanted
  later := fun _ _ _ hlost hlater => lt_of_lt_of_le hlost hlater

/-! ### Whom a call serves well -/

/-- The row has fired by now, and it is `scheduled`, or `sending` with an expired lock. -/
def ReminderJob.Claimable (row : ReminderJob) (now : Instant) : Prop :=
  row.fireAtUtc ≤ now ∧
    (row.status = .scheduled ∨ row.status = .sending ∧ ∃ t, row.lockedUntil = some t ∧ t < now)

theorem claimable_iff {now : Instant} {row : ReminderJob} :
    row.Claimable now ↔ row.fireAtUtc ≤ now ∧ row.due now = true := by
  unfold ReminderJob.Claimable
  rw [due_iff]

/-- The call has returned the claimable row that fires first, of those that nobody had locked, and
    nothing only if there was none. -/
def WellServed (look : ClaimLook) : Option (ReminderId × ReminderJob) → Prop
  | none => ∀ id row, look.Offers id row → ¬ row.Claimable look.query.now
  | some (id, claimed) => ∃ row, look.Offers id row ∧ row.Claimable look.query.now ∧
      claimed = row.claim look.query.lockedUntil ∧
      ∀ id' other, look.Offers id' other → other.Claimable look.query.now →
        row.fireAtUtc ≤ other.fireAtUtc

/-- Among the rows the call can take, if there are any, one has fired. -/
def OneHasFired (look : ClaimLook) : Prop :=
  (∃ id row, look.Offers id row ∧ row.due look.query.now = true) →
    ∃ id row, look.Offers id row ∧ row.due look.query.now = true ∧ row.fireAtUtc ≤ look.query.now

/-- A call is well served if and only if among the rows it can take, if there are any, one has
    fired. -/
theorem wellServed_iff {look : ClaimLook} {row : Option (ReminderId × ReminderJob)}
    (h : claimDuePick.Returns look row) : WellServed look row ↔ OneHasFired look := by
  match row with
  | none =>
    have hnone : ∀ id row, look.Offers id row → row.due look.query.now ≠ true :=
      fun id row hoffers hdue => h id row ⟨hoffers, hdue⟩
    constructor
    · rintro - ⟨id, row, hoffers, hdue⟩
      exact absurd hdue (hnone id row hoffers)
    · intro _ id row hoffers hclaimable
      exact hnone id row hoffers (claimable_iff.mp hclaimable).2
  | some (id, claimed) =>
    obtain ⟨row, ⟨⟨hoffers, hdue⟩, hfirst⟩, rfl⟩ := h
    constructor
    · rintro ⟨row', hoffers', hclaimable, -, -⟩ -
      exact ⟨id, row', hoffers', (claimable_iff.mp hclaimable).2, hclaimable.1⟩
    · intro hfired
      obtain ⟨id', other, hoffers', hdue', hother⟩ := hfired ⟨id, row, hoffers, hdue⟩
      -- The row fires no later than the one that has fired.
      have hrow : row.fireAtUtc ≤ look.query.now := (hfirst id' other ⟨hoffers', hdue'⟩).trans hother
      exact ⟨row, hoffers, claimable_iff.mpr ⟨hrow, hdue⟩, rfl, fun id'' third hoffers'' hclaimable =>
        hfirst id'' third ⟨hoffers'', (claimable_iff.mp hclaimable).2⟩⟩

/-! ### Every run -/

/-- Every call that has returned is well served, and a row is returned twice only if the lock that
    was set first had expired when the second call looked. -/
structure ClaimsWell {ι : Type} (s : DueClaims ι) : Prop where
  served : ∀ a ∈ s.handouts, WellServed a.look a.row
  once : s.handouts.Pairwise fun a b => ∀ id row row', a.row = some (id, row) →
    b.row = some (id, row') → a.look.query.Expired b.look.query

section Runs

variable {ι : Type} [DecidableEq ι] {d : Database} {s : DueClaims ι}

theorem sound_of_dueClaims (h : DueClaims.Run d s) :
    s.Sound claimDuePick ClaimQuery.Expired := Claims.sound_of_run claimDue_expiry h

/-- **`claimDue` claims what is due.**  Any number of calls look for rows at times that do not
    decrease, each passing over the rows that others have locked, and any of them may fail.  They
    claim well if and only if every call that has returned found, among the rows it could take, one
    that has fired. -/
theorem claims_due_iff (h : DueClaims.Run d s) :
    ClaimsWell s ↔ ∀ a ∈ s.handouts, OneHasFired a.look := by
  have hsound := sound_of_dueClaims h
  constructor
  · intro hwell a ha
    exact (wellServed_iff (hsound.answered a ha)).mp (hwell.served a ha)
  · intro hfired
    exact ⟨fun a ha => (wellServed_iff (hsound.answered a ha)).mpr (hfired a ha), hsound.again⟩

end Runs

/-! ### The calls in the world -/

section World

variable {ι C : Type} {cat : Catalog}

/-- Calls of `claimDue` over the connections `C`. -/
abbrev ClaimWorld (C ι : Type) :=
  World Stmt.Rows Ask.Answer JsError (Option (ReminderId × ReminderJob)) Database Write Lock C ι

/-- The world in which the calls run has the table of `s`; a call that has not returned has not
    begun, and one that has returned has returned the same. -/
structure Mirrors (s : DueClaims ι) (w : ClaimWorld C ι) : Prop where
  quiet : w.Quiet
  table : ∀ id, w.db.reminderJobs.lookup id = s.table id
  begins : ∀ i, s.turn i ≠ .done → w.prog i = claimDue
  ended : ∀ a ∈ s.handouts, s.turn a.client = .done
  returned : ∀ a ∈ s.handouts, w.prog a.client = .ret a.row

theorem mirrors_start (d : Database) :
    Mirrors (Claims.start fun id => d.reminderJobs.lookup id)
      (World.init d fun _ => claimDue : ClaimWorld C ι) where
  quiet := ⟨fun _ => rfl, fun _ => rfl⟩
  table := fun _ => rfl
  begins := fun _ _ => rfl
  ended := fun _ h => nomatch h
  returned := fun _ h => nomatch h

variable [DecidableEq ι]

/-- Call `i` returns `row`, in the world as here. -/
theorem Mirrors.returns {s s' : DueClaims ι} {w w' : ClaimWorld C ι} {i : ι} {look : ClaimLook}
    {row : Option (ReminderId × ReminderJob)} (h : Mirrors s w) (hquiet : w'.Quiet)
    (htable : ∀ id, w'.db.reminderJobs.lookup id = s'.table id)
    (hprog : w'.prog = Function.update w.prog i (.ret row)) (hnot : s.turn i ≠ .done)
    (hturn : s'.turn = Function.update s.turn i .done)
    (hhandouts : s'.handouts = s.handouts ++ [⟨i, look, row⟩]) : Mirrors s' w' := by
  -- Who has returned before is somebody else.
  have hother : ∀ a ∈ s.handouts, a.client ≠ i := fun a ha hi => hnot (hi ▸ h.ended a ha)
  refine ⟨hquiet, htable, fun j hj => ?_, fun a ha => ?_, fun a ha => ?_⟩
  · have hji : j ≠ i := by
      rintro rfl
      exact hj (by rw [hturn, Function.update_self])
    rw [hturn, Function.update_of_ne hji] at hj
    rw [hprog, Function.update_of_ne hji]
    exact h.begins j hj
  · rw [hhandouts] at ha
    rw [hturn]
    rcases List.mem_append.mp ha with hold | hnew
    · rw [Function.update_of_ne (hother a hold)]
      exact h.ended a hold
    · obtain rfl := List.mem_singleton.mp hnew
      exact Function.update_self _ _ _
  · rw [hhandouts] at ha
    rw [hprog]
    rcases List.mem_append.mp ha with hold | hnew
    · rw [Function.update_of_ne (hother a hold)]
      exact h.returned a hold
    · obtain rfl := List.mem_singleton.mp hnew
      exact Function.update_self _ _ _

variable [DecidableEq C]

/-- A client is told the time. -/
theorem reaches_clock (cat : Catalog) {w : ClaimWorld C ι} (hquiet : w.Quiet) (c : C) {i : ι}
    {k : Instant → Program (Option (ReminderId × ReminderJob))} (hprog : w.prog i = .ask .now k)
    (now : Instant) :
    ∃ w', Reaches (chronos cat) Exclusive w w' ∧ w'.Quiet ∧ w'.db = w.db ∧
      w'.prog = Function.update w.prog i (k now) := by
  have hm : (w.prog i).move (chronos cat) i (calmEnv 0 now) .idle w.db
      = some ⟨[], .idle, [], k now⟩ := by
    rw [hprog]
    rfl
  obtain ⟨hstep, hquiet'⟩ := hquiet.step (l := ⟨i, c, calmEnv 0 now⟩) hm rfl
  exact ⟨_, Reaches.start.step hquiet.exclusive hstep, hquiet', rfl, rfl⟩

/-- A client sends a statement, and PostgreSQL executes it. -/
theorem reaches_stmt {w : ClaimWorld C ι} (hquiet : w.Quiet) (c : C) {i : ι} {s : Stmt}
    {ok : s.Rows → Program (Option (ReminderId × ReminderJob))}
    {err : JsError → Program (Option (ReminderId × ReminderJob))} (hprog : w.prog i = .stmt s ok err)
    {fresh : Nat} {r : s.Rows} {ws : List Write}
    (hx : (exec cat s fresh w.db).result = .ok (r, ws)) :
    ∃ w', Reaches (chronos cat) Exclusive w w' ∧ w'.Quiet ∧
      w'.db = (chronos cat).apply ws w.db ∧ w'.prog = Function.update w.prog i (ok r) := by
  have hm : (w.prog i).move (chronos cat) i (calmEnv fresh 0) .idle w.db
      = some ⟨(exec cat s fresh w.db).locks, .idle, ws.map (i, ·), ok r⟩ := by
    rw [hprog, move_stmt (chronos cat) i (calmEnv fresh 0) w.db rfl]
    exact congrArg some (statement_idle_ok (chronos cat) i w.db hx ok err)
  obtain ⟨hstep, hquiet'⟩ := hquiet.step (l := ⟨i, c, calmEnv fresh 0⟩) hm rfl
  refine ⟨_, Reaches.start.step hquiet.exclusive hstep, hquiet', ?_, rfl⟩
  simp [World.after, Function.comp_def]

/-- `claimDue` runs from its start to its end while nobody else is at work: it reads the clock
    twice, and sends its statement. -/
theorem reaches_claimDue {w : ClaimWorld C ι} (hquiet : w.Quiet) (c : C) {i : ι}
    (hprog : w.prog i = claimDue) (q : ClaimQuery) {skipped : Nat}
    {r : Option (ReminderId × ReminderJob)} {ws : List Write}
    (hx : (exec cat (.claimDue q.now q.lockedUntil) skipped w.db).result = .ok (r, ws)) :
    ∃ w', Reaches (chronos cat) Exclusive w w' ∧ w'.Quiet ∧
      w'.db = (chronos cat).apply ws w.db ∧ w'.prog = Function.update w.prog i (.ret r) := by
  obtain ⟨w₁, hreach₁, hquiet₁, hdb₁, hprog₁⟩ :=
    reaches_clock cat hquiet c hprog (q.lockedUntil - lockDurationMs)
  have hnext₁ : w₁.prog i = .ask .now fun dbNow =>
      .stmt (.claimDue dbNow (q.lockedUntil - lockDurationMs + lockDurationMs)) .ret .throw := by
    rw [hprog₁]
    exact Function.update_self _ _ _
  obtain ⟨w₂, hreach₂, hquiet₂, hdb₂, hprog₂⟩ := reaches_clock cat hquiet₁ c hnext₁ q.now
  have hnext₂ : w₂.prog i = .stmt (.claimDue q.now (q.lockedUntil - lockDurationMs + lockDurationMs))
      .ret .throw := by
    rw [hprog₂]
    exact Function.update_self _ _ _
  rw [sub_add_cancel] at hnext₂
  rw [← hdb₁, ← hdb₂] at hx
  obtain ⟨w₃, hreach₃, hquiet₃, hdb₃, hprog₃⟩ := reaches_stmt hquiet₂ c hnext₂ hx
  refine ⟨w₃, (hreach₁.trans hreach₂).trans hreach₃, hquiet₃, ?_, ?_⟩
  · rw [hdb₃, hdb₂, hdb₁]
  · rw [hprog₃, hprog₂, hprog₁, Function.update_idem, Function.update_idem]

/-- A row that is due is somewhere among the due rows. -/
theorem exec_claimDue_some (cat : Catalog) {d : Database} {q : ClaimQuery} {id : ReminderId} {row : ReminderJob}
    (hrow : d.reminderJobs.lookup id = some row) (hdue : row.due q.now = true) :
    ∃ skipped, (exec cat (.claimDue q.now q.lockedUntil) skipped d).result =
      .ok (some (id, row.claim q.lockedUntil), [.reminder id.1 id.2 (row.claim q.lockedUntil)]) := by
  have hmem : (⟨id, row⟩ : Sigma fun _ : ReminderId => ReminderJob) ∈ d.dueReminders q.now :=
    mem_dueReminders.mpr ⟨hrow, hdue⟩
  obtain ⟨skipped, hskipped⟩ := List.mem_iff_getElem?.mp hmem
  refine ⟨skipped, ?_⟩
  simp only [exec, hskipped]

/-- All the due rows may be passed over. -/
theorem exec_claimDue_none (cat : Catalog) (d : Database) (q : ClaimQuery) :
    ∃ skipped, (exec cat (.claimDue q.now q.lockedUntil) skipped d).result = .ok (none, []) := by
  refine ⟨(d.dueReminders q.now).length, ?_⟩
  have hpast : (d.dueReminders q.now)[(d.dueReminders q.now).length]? = none :=
    List.getElem?_eq_none (le_refl _)
  simp only [exec, hpast]
  rfl

/-- A step of a call is matched in the world: one that returns runs there from its start to its
    end, and the others have not begun. -/
theorem Mirrors.step (cat : Catalog) {s s' : DueClaims ι} {w : ClaimWorld C ι} (c : C) (h : Mirrors s w)
    (hsound : s.Sound claimDuePick ClaimQuery.Expired)
    (hs : Claims.Step claimDuePick ClaimQuery.Later s s') :
    ∃ w', Reaches (chronos cat) Exclusive w w' ∧ Mirrors s' w' := by
  cases hs with
  | @take i q id row hturn hlater hpick =>
    have hnot : s.turn i ≠ .done := by
      rw [hturn]
      simp
    refine ⟨w, .start, h.quiet, h.table, fun j hj => ?_, fun a ha => ?_, h.returned⟩
    · by_cases hji : j = i
      · rw [hji]
        exact h.begins i hnot
      · refine h.begins j fun hover => hj ?_
        show Function.update s.turn i _ j = _
        rw [Function.update_of_ne hji, hover]
    · have hai : a.client ≠ i := fun hi => hnot (hi ▸ h.ended a ha)
      show Function.update s.turn i _ a.client = _
      rw [Function.update_of_ne hai]
      exact h.ended a ha
  | @miss i q hturn hlater hnone =>
    have hnot : s.turn i ≠ .done := by
      rw [hturn]
      simp
    obtain ⟨skipped, hx⟩ := exec_claimDue_none cat w.db q
    obtain ⟨w', hreach, hquiet, hdb, hprog⟩ := reaches_claimDue h.quiet c (h.begins i hnot) q hx
    refine ⟨w', hreach, h.returns hquiet (fun id => ?_) hprog hnot rfl rfl⟩
    rw [hdb]
    exact h.table id
  | @finish i look id row hturn hrow =>
    have hnot : s.turn i ≠ .done := by
      rw [hturn]
      simp
    -- The row is still as the call has picked it, and so it is still due.
    obtain ⟨row', hrow', hpick⟩ := hsound.held i look id hturn
    obtain rfl := Option.some.inj (hrow.symm.trans hrow')
    obtain ⟨skipped, hx⟩ := exec_claimDue_some cat ((h.table id).trans hrow) hpick.1.2
    obtain ⟨w', hreach, hquiet, hdb, hprog⟩ :=
      reaches_claimDue h.quiet c (h.begins i hnot) look.query hx
    refine ⟨w', hreach, h.returns hquiet (fun id' => ?_) hprog hnot rfl rfl⟩
    rw [hdb]
    show (w.db.reminderJobs.insert id (row.claim look.query.lockedUntil)).lookup id' =
      Function.update s.table id (some (row.claim look.query.lockedUntil)) id'
    by_cases hid : id' = id
    · rw [hid, AList.lookup_insert, Function.update_self]
    · rw [AList.lookup_insert_ne hid, Function.update_of_ne hid]
      exact h.table id'
  | @fail i =>
    refine ⟨w, .start, h.quiet, h.table, fun j hj => h.begins j fun hover => hj ?_, fun a ha => ?_,
      h.returned⟩
    · by_cases hji : j = i
      · rw [hji]
        exact Function.update_self _ _ _
      · show Function.update s.turn i _ j = _
        rw [Function.update_of_ne hji, hover]
    · by_cases hai : a.client = i
      · rw [hai]
        exact Function.update_self _ _ _
      · show Function.update s.turn i _ a.client = _
        rw [Function.update_of_ne hai]
        exact h.ended a ha

/-- **The calls in the world.**  What calls return that look for rows while others have locked
    some, the program `claimDue` returns in a run of the database, and the table is the same. -/
theorem claims_in_world (cat : Catalog) (c : C) {d : Database} {s : DueClaims ι}
    (h : DueClaims.Run d s) :
    ∃ w : ClaimWorld C ι, Reaches (chronos cat) Exclusive (World.init d fun _ => claimDue) w ∧
      (∀ id, w.db.reminderJobs.lookup id = s.table id) ∧
      ∀ a ∈ s.handouts, w.prog a.client = .ret a.row := by
  have hmirrors : ∃ w : ClaimWorld C ι,
      Reaches (chronos cat) Exclusive (World.init d fun _ => claimDue) w ∧ Mirrors s w := by
    induction h with
    | refl => exact ⟨_, .start, mirrors_start d⟩
    | tail hrun hs ih =>
      obtain ⟨w, hreach, hmirrors⟩ := ih
      obtain ⟨w', hreach', hmirrors'⟩ := hmirrors.step cat c (sound_of_dueClaims hrun) hs
      exact ⟨w', hreach.trans hreach', hmirrors'⟩
  obtain ⟨w, hreach, hmirrors⟩ := hmirrors
  exact ⟨w, hreach, hmirrors.table, hmirrors.returned⟩

end World

/-! ### A table with one reminder -/

/-- Nobody has locked anything. -/
theorem not_locked_start {ι : Type} (table : ReminderId → Option ReminderJob) (id : ReminderId) :
    ¬ (Claims.start table : DueClaims ι).Locked id := by
  rintro ⟨i, look, h⟩
  cases h

/-- `row` is the only reminder. -/
structure Sole (look : ClaimLook) (row : ReminderJob) : Prop where
  there : look.table (1, 60) = some row
  only : ∀ id other, look.table id = some other → id = (1, 60)

/-- The only reminder is picked when it is due. -/
theorem Sole.picks {look : ClaimLook} {row : ReminderJob} (h : Sole look row)
    (hfree : ¬ look.locked (1, 60)) (hdue : row.due look.query.now = true) :
    claimDuePick.Picks look (1, 60) row := by
  refine ⟨⟨⟨h.there, hfree⟩, hdue⟩, fun id other hother => ?_⟩
  obtain rfl := h.only id other hother.1.1
  obtain rfl := Option.some.inj (h.there.symm.trans hother.1.1)
  exact le_refl _

/-- The only reminder has fired. -/
theorem Sole.oneHasFired {look : ClaimLook} {row : ReminderJob} (h : Sole look row)
    (hfired : row.fireAtUtc ≤ look.query.now) : OneHasFired look := by
  rintro ⟨id, other, hoffers, hdue⟩
  obtain rfl := h.only id other hoffers.1
  obtain rfl := Option.some.inj (h.there.symm.trans hoffers.1)
  exact ⟨_, _, hoffers, hdue, hfired⟩

/-- The one-hour reminder of booking `1`, which fires 99 hours after the epoch. -/
def soleReminder : ReminderJob := ⟨hoursMs 99, .scheduled, none⟩

/-- The reminders of the sample. -/
def soleTable : ReminderId → Option ReminderJob :=
  fun id => (sampleRemind .scheduled none).reminderJobs.lookup id

theorem sole_soleTable (q : ClaimQuery) (locked : ReminderId → Prop) :
    Sole ⟨q, soleTable, locked⟩ soleReminder :=
  ⟨rfl, fun _ _ h => lookup_singleton h⟩

/-- The table after the reminder was claimed. -/
theorem sole_update (q : ClaimQuery) (locked : ReminderId → Prop) (row : ReminderJob) :
    Sole ⟨q, Function.update soleTable (1, 60) (some row), locked⟩ row := by
  constructor
  · show Function.update soleTable (1, 60) (some row) (1, 60) = some row
    exact Function.update_self _ _ _
  · intro id other h
    by_contra hid
    change Function.update soleTable (1, 60) (some row) id = some other at h
    rw [Function.update_of_ne hid] at h
    exact hid (lookup_singleton h)

/-- A call locks the only reminder. -/
theorem take_sole {ι : Type} [DecidableEq ι] {s : DueClaims ι} {i : ι} {q : ClaimQuery}
    {row : ReminderJob} (hturn : s.turn i = .waits) (hlater : ∀ q' ∈ s.asked, q'.Later q)
    (hsole : Sole (s.look q) row) (hfree : ¬ s.Locked (1, 60)) (hdue : row.due q.now = true) :
    Claims.Step claimDuePick ClaimQuery.Later s (s.takes i q (1, 60)) :=
  .take hturn hlater (hsole.picks hfree hdue)

/-- All calls at their start. -/
def soleStart (ι : Type) : DueClaims ι := Claims.start soleTable

/-- Call `i` has locked the reminder, alone. -/
def soleTaken {ι : Type} [DecidableEq ι] (i : ι) (q : ClaimQuery) : DueClaims ι :=
  (soleStart ι).takes i q (1, 60)

/-- Call `i` has claimed the reminder, in state `s`. -/
def soleClaimed {ι : Type} [DecidableEq ι] (i : ι) (q : ClaimQuery) (s : DueClaims ι) :
    DueClaims ι :=
  s.finishes i ((soleStart ι).look q) (1, 60) (soleReminder.claim q.lockedUntil)

theorem soleTaken_step {ι : Type} [DecidableEq ι] (i : ι) (q : ClaimQuery) :
    Claims.Step claimDuePick ClaimQuery.Later (soleStart ι) (soleTaken i q) :=
  take_sole rfl (fun _ h => nomatch h) (sole_soleTable q _) (not_locked_start _ _) rfl

theorem soleClaimed_step {ι : Type} [DecidableEq ι] {i : ι} {q : ClaimQuery} {s : DueClaims ι}
    (hturn : s.turn i = .holds ((soleStart ι).look q) (1, 60))
    (hrow : s.table (1, 60) = some soleReminder) :
    Claims.Step claimDuePick ClaimQuery.Later s (soleClaimed i q s) := .finish hturn hrow

/-- **A reminder that has not fired is claimed**, at the epoch, 99 hours early. -/
theorem claimed_before_due : ∃ s : DueClaims Unit, DueClaims.Run (sampleRemind .scheduled none) s ∧
    ¬ ClaimsWell s := by
  let q : ClaimQuery := ⟨0, lockDurationMs⟩
  refine ⟨soleClaimed () q (soleTaken () q), ?_, fun hwell => ?_⟩
  · exact (Relation.ReflTransGen.single (soleTaken_step () q)).tail (soleClaimed_step rfl rfl)
  · obtain ⟨row, hoffers, hclaimable, -, -⟩ := hwell.served _ (List.mem_singleton_self _)
    have hrow : row = soleReminder := Option.some.inj (hoffers.1.symm.trans rfl)
    rw [hrow] at hclaimable
    have hfired : hoursMs 99 ≤ 0 := hclaimable.1
    exact absurd hfired (by decide)

/-- The first call locks the reminder when it fires, the second one passes over it, and the third
    one, an hour later, claims it again. -/
theorem sample_claims_well : ∃ s : DueClaims (Fin 3),
    DueClaims.Run (sampleRemind .scheduled none) s ∧
      s.handouts.map (fun a => (a.client, a.row.map Prod.fst)) =
        [(1, none), (0, some (1, 60)), (2, some (1, 60))] ∧ ClaimsWell s := by
  let q : ClaimQuery := ⟨hoursMs 99, hoursMs 99 + lockDurationMs⟩
  let q' : ClaimQuery := ⟨hoursMs 100, hoursMs 100 + lockDurationMs⟩
  let s₁ : DueClaims (Fin 3) := soleTaken 0 q
  let s₂ := s₁.misses 1 q
  let s₃ := soleClaimed 0 q s₂
  let s₄ := s₃.takes 2 q' (1, 60)
  let s₅ := s₄.finishes 2 (s₃.look q') (1, 60) ((soleReminder.claim q.lockedUntil).claim q'.lockedUntil)
  have hmiss : Claims.Step claimDuePick ClaimQuery.Later s₁ s₂ := by
    refine .miss rfl (fun q'' hq => ?_) fun id row hcandidate => ?_
    · obtain rfl := List.mem_singleton.mp hq
      exact le_refl _
    · -- The only reminder is locked.
      obtain rfl := (sole_soleTable q (fun _ => True)).only id row hcandidate.1.1
      exact hcandidate.1.2 ⟨0, _, rfl⟩
  -- The first call is done and the second has none, so nobody holds the reminder.
  have hfree : ¬ s₃.Locked (1, 60) := by
    have hturn : ∀ i, s₃.turn i = .done ∨ s₃.turn i = .waits := fun i =>
      match i with
      | 0 => Or.inl rfl
      | 1 => Or.inl rfl
      | 2 => Or.inr rfl
    rintro ⟨i, look, h⟩
    rcases hturn i with hi | hi <;> rw [hi] at h <;> cases h
  have htake : Claims.Step claimDuePick ClaimQuery.Later s₃ s₄ := by
    refine take_sole rfl (fun q'' hq => ?_) (sole_update q' _ _) hfree rfl
    have hasked : s₃.asked = [q, q] := rfl
    rw [hasked] at hq
    have hq' : q'' = q := by simpa using hq
    rw [hq']
    show hoursMs 99 ≤ hoursMs 100
    decide
  have hfinish : Claims.Step claimDuePick ClaimQuery.Later s₄ s₅ := .finish rfl rfl
  have hrun : DueClaims.Run (sampleRemind .scheduled none) s₅ :=
    ((((Relation.ReflTransGen.single (soleTaken_step 0 q)).tail hmiss).tail
      (soleClaimed_step rfl rfl)).tail htake).tail hfinish
  refine ⟨s₅, hrun, rfl, (claims_due_iff hrun).mpr fun a ha => ?_⟩
  have hlooks : a.look = s₁.look q ∨ a.look = (soleStart (Fin 3)).look q ∨ a.look = s₃.look q' := by
    rcases List.mem_append.mp ha with hold | hlast
    · rcases List.mem_append.mp hold with hfirst | hsecond
      · exact Or.inl (congrArg Handout.look (List.mem_singleton.mp hfirst))
      · exact Or.inr (Or.inl (congrArg Handout.look (List.mem_singleton.mp hsecond)))
    · exact Or.inr (Or.inr (congrArg Handout.look (List.mem_singleton.mp hlast)))
  rcases hlooks with h | h | h <;> rw [h]
  · exact (sole_soleTable q _).oneHasFired (le_refl (hoursMs 99))
  · exact (sole_soleTable q _).oneHasFired (le_refl (hoursMs 99))
  · exact (sole_update q' _ _).oneHasFired (by decide)

end Chronos
