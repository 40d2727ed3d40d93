import Chronos.SlotRace
import Chronos.IdempotencyKey

namespace Chronos

open ReadCommitted ReadCommitted.Prog

/-!
# Overlapping retries

The same `createBooking`, with its idempotency key, more than once at the same time.  The key
is looked up before the transaction, so a second call may find no key, wait for the first
one's lock on the slot, and then find the slot booked: it answers `409` for the booking its
own client has just made (`retry_refused`).

`retries_converge` says when this does not happen: whenever the `UPDATE` of a call runs, the
slot is still open, that is, no other call has committed since this one looked up its key.
-/

/-- The `UPDATE` of `createBooking` finds its slot open, and late enough. -/
def FindsSlot : Stmt → Database → Prop
  | .bookSlot id now minStart, d => ∃ row, d.slots.lookup id = some row ∧
      row.status = .«open» ∧ now ≤ row.slotStartUtc ∧ minStart ≤ row.slotStartUtc
  | _, _ => True

/-- The `UPDATE` locks the row the condition is about. -/
theorem localTo_findsSlot (cat : Catalog) : LocalTo cat FindsSlot := by
  intro s o d d' ha h
  cases s with
  | bookSlot id now minStart =>
    obtain ⟨row, hrow, hmatch⟩ := h
    refine ⟨row, ?_, hmatch⟩
    have hlock : Lock.slot id ∈ (exec cat (.bookSlot id now minStart) o d).locks := by
      simp [exec, updateSlotWhere, hrow, Option.filter_some, hmatch]
    exact (ha _ hlock).symm.trans hrow
  | _ => trivial

section Retry

variable {cat : Catalog} {ι : Type} {d₀ : Database} {s : SlotId} {row₀ : Slot}
variable {req : BookingRequest} {now : ι → Instant} {key : String}

/-- Nobody has come to an end, or booking `id` has been made and every call has it. -/
inductive RetryState (s : SlotId) (row₀ : Slot) (req : BookingRequest) (key : String)
    (d : Database) (G : ι → Racer) : Prop
  | isOpen : d.slots.lookup s = some { row₀ with status := .«open» } → (∀ i, ¬ d.LiveOn s i) →
      d.idempotencyKeys.lookup (req.clientId, key) = none → (∀ i, G i = .running) →
      RetryState s row₀ req key d G
  | booked (id : BookingId) : d.slots.lookup s = some { row₀ with status := .booked } →
      d.idempotencyKeys.lookup (req.clientId, key) = some ⟨req.json, 201, id⟩ →
      (∀ i, G i = .running ∨ G i = .seen id ∨ G i = .won id) → RetryState s row₀ req key d G

/-- The invariant of the retries. -/
structure Retried (d₀ : Database) (s : SlotId) (row₀ : Slot) (req : BookingRequest) (key : String)
    (d : Database) (_ : List (ι × Write)) (G : ι → Racer) : Prop where
  state : RetryState s row₀ req key d G
  providers : SameProviders d₀ d
  reminders : ∀ k, d.bookings.lookup k.1 = none → d.reminderJobs.lookup k = none

/-- What the invariant says to a running call. -/
theorem Retried.known {d : Database} {j : List (ι × Write)} {G : ι → Racer}
    (hslot : OneSlot cat d₀ s row₀ (fun _ => req) now) (hkey : truthy req.idempotencyKey = some key)
    (h : Retried d₀ s row₀ req key d j G) (i : ι) : RaceKnown cat d₀ req (now i) d := by
  have hreq := hslot.slotId i
  cases h.state with
  | isOpen hrow hfree hnone _ =>
    refine ⟨h.providers, hslot.bookable i h.providers hrow rfl (fun _ => hfree) h.reminders,
      fun key' row hkey' hfound => ?_, fun key' row hkey' _ _ => ?_⟩
    · rw [hkey, Option.some.injEq] at hkey'
      rw [← hkey', hnone] at hfound
      cases hfound
    · rw [hkey, Option.some.injEq] at hkey'
      rw [← hkey', hnone]
  | booked id hrow hfound _ =>
    refine ⟨h.providers, hslot.bookable i h.providers hrow rfl (fun hopen => by cases hopen)
      h.reminders, fun key' row hkey' hfound' => ?_, fun key' row hkey' hrow' hopen => ?_⟩
    · rw [hkey, Option.some.injEq] at hkey'
      rw [← hkey', hfound, Option.some.injEq] at hfound'
      rw [← hfound']
    · rw [hreq, hrow, Option.some.injEq] at hrow'
      rw [← hrow'] at hopen
      cases hopen

variable [DecidableEq ι]

/-- **Step lemma.** -/
theorem preserved_retried (hslot : OneSlot cat d₀ s row₀ (fun _ => req) now)
    (hkey : truthy req.idempotencyKey = some key) :
    Preserved (chronos cat) (raceContracts cat d₀ s FindsSlot (fun _ => req) now)
      (Retried d₀ s row₀ req key) where
  know _ _ _ i h _ := h.known hslot hkey i
  move := by
    intro d j G i ws g' h hm
    have hmoves : RaceMoves cat FindsSlot req (now i)
        (now i + hoursMs (req.noticeHours cat d₀)) (G i) d ws g' := hm
    have hreq := hslot.slotId i
    generalize hg : G i = g at hmoves
    cases hmoves with
    | stay =>
      rw [← hg, Function.update_eq_self]
      exact ⟨h.state, h.providers, h.reminders⟩
    | lose hrow hclosed hfinds =>
      -- Its `UPDATE` would not have found the slot open.
      obtain ⟨row', hrow', hopen, -⟩ := hfinds
      rw [hrow, Option.some.injEq] at hrow'
      rw [hrow'] at hclosed
      exact absurd hopen hclosed
    | see hkey' hfound =>
      rw [hkey, Option.some.injEq] at hkey'
      rw [← hkey'] at hfound
      refine ⟨?_, h.providers, h.reminders⟩
      cases h.state with
      | isOpen _ _ hnone _ =>
        rw [hnone] at hfound
        cases hfound
      | booked id hrow hrow' hall =>
        rw [hrow', Option.some.injEq] at hfound
        refine .booked id hrow hrow' fun k => ?_
        by_cases hk : k = i
        · rw [hk, Function.update_self, ← hfound]
          exact Or.inr (Or.inl rfl)
        · rw [Function.update_of_ne hk]
          exact hall k
    | @win _ row _ id _ hnew =>
      refine ⟨?_, hnew.sameProviders h.providers, hnew.foreignKey h.reminders⟩
      have hrow := hnew.slot
      rw [hreq] at hrow
      cases h.state with
      | booked _ hrow' _ _ =>
        rw [hrow, Option.some.injEq] at hrow'
        have hopen := hnew.isOpen
        rw [hrow'] at hopen
        cases hopen
      | isOpen hrow' _ _ hrunning =>
        rw [hrow, Option.some.injEq] at hrow'
        refine .booked id ?_ ?_ fun k => ?_
        · rw [hnew.slots, hreq, if_pos rfl, hrow']
        · rw [hnew.keys, if_pos ⟨rfl, hkey⟩]
        · by_cases hk : k = i
          · rw [hk, Function.update_self]
            exact Or.inr (Or.inr rfl)
          · rw [Function.update_of_ne hk]
            exact Or.inl (hrunning k)

variable {C : Type} [DecidableEq C] {own : ι → C} {w : Service C ι}

/-- **When retries converge.**  Identical calls with a key, for a slot they may all book, each
    on a connection of its own, in a run in which every `UPDATE slots` of a call finds the slot
    still open: whoever has answered has answered `201` with the same booking.  The calls are
    finite, and do not block each other for good. -/
theorem retries_converge [Fintype ι] [Nonempty ι] (hslot : OneSlot cat d₀ s row₀ (fun _ : ι => req) now)
    (hkey : truthy req.idempotencyKey = some key) (hown : Function.Injective own)
    (h : Reaches (chronos cat) (fun w l => RaceStep own w l ∧
      Admits (chronos cat) (fun _ => FindsSlot) w l)
      (World.init d₀ (raceProgram (fun _ => req) now)) w) :
    (∀ i k r r', (w.prog i).result = some r → (w.prog k).result = some r' →
      ∃ id replay replay', r = .ok (.created id replay) ∧ r' = .ok (.created id replay')) ∧
    (∀ check ls (w' : Service C ι), World.run (chronos cat) check
      (World.init d₀ (raceProgram (fun _ => req) now)) ls = some w' →
      ls.length ≤ 15 * Fintype.card ι) ∧
    ((∃ i, ¬ (w.prog i).Done) → ∃ k env w', Undisturbed w.db env ∧
      w.step (chronos cat) ⟨k, own k, env⟩ = some w') := by
  have h₀ : Retried d₀ s row₀ req key d₀ [] fun _ : ι => Racer.running :=
    { state := .isOpen (by rw [hslot.slot, ← hslot.isOpen]) hslot.free
        (hslot.unused (Classical.arbitrary ι) key hkey) fun _ => rfl
      providers := fun _ => rfl
      reminders := hslot.reminders }
  obtain ⟨ts, G, hmod, hguarded, hattended⟩ := raced_of_reaches hslot (localTo_findsSlot cat)
    (preserved_retried hslot hkey) h₀ hown (fun w l hw => hw) h
  have hends : ∀ i r, (w.prog i).result = some r → RaceEnds (G i) r := fun i r => hmod.result
  refine ⟨fun i k r r' hr hr' => ?_, fun check ls w' hrun => calls_end hrun,
    calls_can_step (fun _ _ hw => hw.1) h hmod hguarded hattended⟩
  cases hmod.inv.state with
  | isOpen _ _ _ hrunning =>
    -- Nobody has answered.
    rcases hends i r hr with ⟨_, hg, -⟩ | ⟨hg, -⟩ | ⟨_, hg, -⟩ <;>
      (rw [hrunning i] at hg; cases hg)
  | booked id _ _ hall =>
    have hanswer : ∀ i r, (w.prog i).result = some r → ∃ replay, r = .ok (.created id replay) := by
      intro i r hr
      have hg := hall i
      rcases hends i r hr with ⟨id', hid, rfl⟩ | ⟨hid, -⟩ | ⟨id', hid, rfl⟩
      · rw [hid] at hg
        obtain rfl : id' = id := by simpa using hg
        exact ⟨true, rfl⟩
      · rw [hid] at hg
        simp at hg
      · rw [hid] at hg
        obtain rfl : id' = id := by simpa using hg
        exact ⟨false, rfl⟩
    obtain ⟨replay, hreply⟩ := hanswer i r hr
    obtain ⟨replay', hreply'⟩ := hanswer k r' hr'
    exact ⟨id, replay, replay', hreply, hreply'⟩

end Retry

/-! #### A retry after the first call, and one that overlaps with it -/

/-- The condition of `retries_converge`, decided. -/
def findsSlot {C ι : Type} (cat : Catalog) (w : Service C ι)
    (l : Label Ask.Answer Nat JsError C ι) : Bool :=
  match w.prog l.thread, w.session l.conn with
  | .stmt (.bookSlot id now minStart) _ _, .active _ pending =>
      (((chronos cat).apply (pending.map Prod.snd) w.db).slots.lookup id).any fun row =>
        decide (row.status = .«open» ∧ now ≤ row.slotStartUtc ∧ minStart ≤ row.slotStartUtc)
  | _, _ => true

theorem admits_of_findsSlot {C ι : Type} {cat : Catalog} (w : Service C ι)
    (l : Label Ask.Answer Nat JsError C ι) (h : findsSlot cat w l = true) :
    Admits (chronos cat) (fun _ => FindsSlot) w l := by
  intro s ok err i pending hprog hsess
  cases s with
  | bookSlot id now minStart =>
    simp only [findsSlot, hprog, hsess, Option.any_eq_true, decide_eq_true_eq] at h
    exact h
  | _ => trivial

/-- Client `5` asks twice for slot `1` under its key. -/
theorem oneSlot_sampleKeyed : OneSlot sampleCatalog sampleDb 1 (sampleSlot .«open»)
    (fun _ : Bool => sampleKeyed) fun _ => 0 where
  slotId _ := rfl
  slot := rfl
  isOpen := rfl
  free _ hi := by obtain ⟨b, hb, -⟩ := hi; cases hb
  notice _ := by decide
  notPast _ := by decide
  clients _ := rfl
  eventTypes _ _ he := nomatch he
  unused _ _ _ := rfl
  reminders _ _ := rfl

/-- The second call looks up the key after the first one has committed. -/
theorem retries_converge_in_turn : ∃ w : Service Bool Bool,
    (∀ i k r r', (w.prog i).result = some r → (w.prog k).result = some r' →
      ∃ id replay replay', r = .ok (.created id replay) ∧ r' = .ok (.created id replay')) ∧
    ∀ i, (w.prog i).Done := by
  have hrun : ∃ w : Service Bool Bool, World.run (chronos sampleCatalog)
      (fun w l => (w.db.bookings.lookup l.env.fresh).isNone && findsSlot sampleCatalog w l)
      (World.init sampleDb (raceProgram (fun _ => sampleKeyed) fun _ => 0))
      (ownSteps (fun i => calmEnv (if i then 2 else 1) 0) (List.replicate 2 true ++
        List.replicate 12 false ++ List.replicate 1 true)) = some w ∧ ∀ i, (w.prog i).Done := by
    refine ⟨_, rfl, fun i => ?_⟩
    cases i <;> exact trivial
  obtain ⟨w, hw, hdone⟩ := hrun
  have hreach := reaches_of_run (P := fun w l => RaceStep id w l ∧
      Admits (chronos sampleCatalog) (fun _ => FindsSlot) w l) (fun w l hl hcheck => by
    obtain ⟨i, -, rfl⟩ := List.mem_map.mp hl
    obtain ⟨hfresh, hfinds⟩ := Bool.and_eq_true_iff.mp hcheck
    exact ⟨⟨⟨rfl, Option.isNone_iff_eq_none.mp hfresh⟩, rfl⟩, admits_of_findsSlot _ _ hfinds⟩) hw
  exact ⟨w, (retries_converge oneSlot_sampleKeyed rfl Function.injective_id hreach).1, hdone⟩

/-- **A retry that is refused.**  The second call looks up the key before the first one
    commits, and finds the slot booked: it answers `409`, the first one `201`. -/
theorem retry_refused : ∃ w : Service Bool Bool,
    Reaches (chronos sampleCatalog) (RaceStep id)
      (World.init sampleDb (raceProgram (fun _ => sampleKeyed) fun _ => 0)) w ∧
    (w.prog false).result = some (.ok (.created 1 false)) ∧
    (w.prog true).result = some (.ok (.refused 409 "slot_unavailable")) := by
  have hrun : ∃ w : Service Bool Bool, World.run (chronos sampleCatalog)
      (fun w l => (w.db.bookings.lookup l.env.fresh).isNone)
      (World.init sampleDb (raceProgram (fun _ => sampleKeyed) fun _ => 0))
      (ownSteps (fun i => calmEnv (if i then 2 else 1) 0) (List.replicate 3 true ++
        List.replicate 12 false ++ List.replicate 3 true)) = some w ∧
      (w.prog false).result = some (.ok (.created 1 false)) ∧
      (w.prog true).result = some (.ok (.refused 409 "slot_unavailable")) := ⟨_, rfl, rfl, rfl⟩
  obtain ⟨w, hw, hfirst, hsecond⟩ := hrun
  refine ⟨w, reaches_of_run (fun w l hl hcheck => ?_) hw, hfirst, hsecond⟩
  obtain ⟨i, -, rfl⟩ := List.mem_map.mp hl
  exact ⟨⟨rfl, Option.isNone_iff_eq_none.mp hcheck⟩, rfl⟩

end Chronos
