import Chronos.CalmBooking

namespace Chronos

open ReadCommitted ReadCommitted.Prog

/-!
# Any number of calls for one slot

`createBooking` calls for one open slot, every call on a connection of its own, interleaved
in any order (`SlotRace` lists what is assumed of them).  Their transactions all begin with
the row lock of the slot, so they take turns; the first to have its turn books the slot, the
others find it booked and roll back.

* `preserved_raced` — what a move of one call preserves: the slot is open and nobody has come
  to an end, or it is booked and there is exactly one winner.
* `exactly_one_winner` — every run is finite, can go on while somebody is not done, and ends
  with one `201`, everybody else with `409`, and one live booking.
-/

/-- What is assumed of the calls: they ask for one slot, which is open, has no live booking
    and starts a notice or more after their `now`, and nothing they name is missing or used. -/
structure AskForSlot {ι : Type} (cat : Catalog) (d₀ : Database) (s : SlotId) (row₀ : Slot)
    (reqs : ι → BookingRequest) (now : ι → Instant) : Prop where
  slotId : ∀ i, (reqs i).slotId = s
  slot : d₀.slots.lookup s = some row₀
  isOpen : row₀.status = .«open»
  free : ∀ i, ¬ d₀.LiveOn s i
  notice : ∀ i, now i + hoursMs ((reqs i).noticeHours cat d₀) ≤ row₀.slotStartUtc
  clients : ∀ i, cat.clients (reqs i).clientId = true
  eventTypes : ∀ i e, (reqs i).eventTypeId = some e → EventTypeFits cat e s d₀
  unused : ∀ i key, truthy (reqs i).idempotencyKey = some key →
    d₀.idempotencyKeys.lookup ((reqs i).clientId, key) = none
  -- The foreign key of `reminder_jobs`.
  reminders : ∀ k, d₀.bookings.lookup k.1 = none → d₀.reminderJobs.lookup k = none

/-- Calls for one slot, none of them after its start. -/
structure OneSlot {ι : Type} (cat : Catalog) (d₀ : Database) (s : SlotId) (row₀ : Slot)
    (reqs : ι → BookingRequest) (now : ι → Instant) : Prop
    extends AskForSlot cat d₀ s row₀ reqs now where
  notPast : ∀ i, now i ≤ row₀.slotStartUtc

/-- No minimum notice is negative: `updateMe` stores 4, 24 and 48 only. -/
def Catalog.NoticesKept (cat : Catalog) : Prop :=
  ∀ p provider hours, cat.providers p = some provider →
    provider.minimumBookingNotice = some hours → 0 ≤ hours

/-- Calls for one slot that share no idempotency key. -/
structure SlotRace {ι : Type} (cat : Catalog) (d₀ : Database) (s : SlotId) (row₀ : Slot)
    (reqs : ι → BookingRequest) (now : ι → Instant) : Prop
    extends AskForSlot cat d₀ s row₀ reqs now where
  notices : cat.NoticesKept
  unshared : ∀ i k key, truthy (reqs i).idempotencyKey = some key →
    truthy (reqs k).idempotencyKey = some key → (reqs i).clientId = (reqs k).clientId → i = k

/-- What `createBooking` takes for the notice is not negative either. -/
theorem noticeHours_nonneg {cat : Catalog} (h : cat.NoticesKept) (d : Database)
    (req : BookingRequest) : 0 ≤ req.noticeHours cat d := by
  unfold BookingRequest.noticeHours
  split
  · decide
  · next p _ =>
    cases hp : cat.providers p with
    | none => decide
    | some provider =>
      have hstored : 0 ≤ provider.minimumBookingNotice.getD 4 := by
        cases hhours : provider.minimumBookingNotice with
        | none => decide
        | some hours => exact h p provider hours hp hhours
      show 0 ≤ orFour (provider.minimumBookingNotice.getD 4)
      unfold orFour
      split
      · decide
      · exact hstored

/-- A slot that starts a notice after `now` does not start before it. -/
theorem SlotRace.toOneSlot {ι : Type} {cat : Catalog} {d₀ : Database} {s : SlotId} {row₀ : Slot}
    {reqs : ι → BookingRequest} {now : ι → Instant} (h : SlotRace cat d₀ s row₀ reqs now) :
    OneSlot cat d₀ s row₀ reqs now := by
  refine ⟨h.toAskForSlot, fun i => le_trans ?_ (h.notice i)⟩
  have hnotice : 0 ≤ (reqs i).noticeHours cat d₀ := noticeHours_nonneg h.notices d₀ (reqs i)
  have hms : 0 ≤ hoursMs ((reqs i).noticeHours cat d₀) := by
    unfold hoursMs
    positivity
  exact le_add_of_nonneg_right hms

/-- How far a call has come: it goes on, it has found its key used by booking `id`, it was
    refused, or it has committed booking `id`. -/
inductive Racer
  | running
  | seen (id : BookingId)
  | lost
  | won (id : BookingId)

section Race

variable {cat : Catalog} {ι : Type} {d₀ : Database} {s : SlotId} {row₀ : Slot}
variable {reqs : ι → BookingRequest} {now : ι → Instant} {adm : Stmt → Database → Prop}

/-- What a call may rely on while it is running. -/
structure RaceKnown (cat : Catalog) (d₀ : Database) (req : BookingRequest) (now : Instant)
    (d : Database) : Prop where
  providers : SameProviders d₀ d
  bookable : Bookable cat req now d
  hash : ∀ key row, truthy req.idempotencyKey = some key →
    d.idempotencyKeys.lookup (req.clientId, key) = some row → row.requestHash = req.json
  unused : ∀ key row, truthy req.idempotencyKey = some key →
    d.slots.lookup req.slotId = some row → row.status = .«open» →
    d.idempotencyKeys.lookup (req.clientId, key) = none

/-- The moves of a call. -/
inductive RaceMoves (cat : Catalog) (adm : Stmt → Database → Prop) (req : BookingRequest)
    (now minStart : Instant) : Racer → Database → List Write → Racer → Prop
  | stay {g d} : RaceMoves cat adm req now minStart g d [] g
  | see {d key row} : truthy req.idempotencyKey = some key →
      d.idempotencyKeys.lookup (req.clientId, key) = some row →
      RaceMoves cat adm req now minStart .running d [] (.seen row.responseBody)
  | lose {d row} : d.slots.lookup req.slotId = some row → row.status ≠ .«open» →
      adm (.bookSlot req.slotId now minStart) d →
      RaceMoves cat adm req now minStart .running d [] .lost
  | win {d row reminders id ws} : NewBooking cat req now minStart d row reminders id ws →
      RaceMoves cat adm req now minStart .running d ws (.won id)

/-- The contract of a call for slot `s`. -/
def raceContract (cat : Catalog) (d₀ : Database) (s : SlotId) (adm : Stmt → Database → Prop)
    (req : BookingRequest) (now : Instant) :
    Contract Ask.Answer Stmt Database Write Nat JsError Racer where
  adm := adm
  env := fun _ d env => Undisturbed d env
  know := fun g d => g = .running → RaceKnown cat d₀ req now d
  move := RaceMoves cat adm req now (now + hoursMs (req.noticeHours cat d₀))
  send := fun _ d ws stmt => LocksFirst (chronos cat) (.slot s) d ws stmt

/-- The contracts of all calls. -/
def raceContracts (cat : Catalog) (d₀ : Database) (s : SlotId) (adm : Stmt → Database → Prop)
    (reqs : ι → BookingRequest) (now : ι → Instant) (i : ι) :
    Contract Ask.Answer Stmt Database Write Nat JsError Racer :=
  raceContract cat d₀ s adm (reqs i) (now i)

/-- The program of a call. -/
def raceProgram (reqs : ι → BookingRequest) (now : ι → Instant) (i : ι) : Program Reply :=
  createBooking (reqs i) (some (now i)) false

/-- How a call ends. -/
def RaceEnds : Racer → Except JsError Reply → Prop :=
  CalmEnds (fun id g => g = .seen id) (fun id g => g = .won id) fun g => g = .lost

/-- Every call keeps its contract. -/
theorem keeps_race (hslot : OneSlot cat d₀ s row₀ reqs now) (i : ι) :
    (raceProgram reqs now i).Keeps (chronos cat) (raceContracts cat d₀ s adm reqs now i)
      ((raceContracts cat d₀ s adm reqs now i).post RaceEnds) .free .running := by
  refine keeps_createBooking_calm (fun d hk => (hk rfl).providers) (fun e he => ?_)
    (fun d row key hk hkey hrow => ⟨(hk rfl).hash key row hkey hrow, _, .see hkey hrow, rfl⟩) ?_
  · rw [hslot.slotId i]
    exact hslot.eventTypes i e he
  · exact
      { calm := fun _ _ _ henv => henv
        sends := fun _ _ _ _ hs => hslot.slotId i ▸ hs
        stays := fun _ _ => .stay
        bookable := fun _ hk => (hk rfl).bookable
        minStart_eq := fun _ hk => by rw [noticeHours_congr (hk rfl).providers]
        unused := fun _ _ _ hk hrow hopen hkey => (hk rfl).unused _ _ hkey hrow hopen
        wins := fun _ _ _ _ _ _ hnew => ⟨_, .win hnew, rfl⟩
        loses := fun _ _ _ hrow hclosed hadm => ⟨_, .lose hrow hclosed hadm, rfl⟩
        lost := fun g _ hg _ => ⟨g, .stay, hg⟩ }

/-- Calls at work, each of them on a connection of its own. -/
def RaceStep {C : Type} (own : ι → C) (w : Service C ι) (l : Label Ask.Answer Nat JsError C ι) :
    Prop :=
  Undisturbed w.db l.env ∧ Dedicated own l

/-- What is assumed stays true while the slot keeps its row but for the status. -/
theorem OneSlot.bookable (hslot : OneSlot cat d₀ s row₀ reqs now) (i : ι) {d : Database} {row : Slot}
    (hproviders : SameProviders d₀ d) (hrow : d.slots.lookup s = some row)
    (hstart : row.slotStartUtc = row₀.slotStartUtc)
    (hfree : row.status = .«open» → ∀ i, ¬ d.LiveOn s i)
    (hreminders : ∀ k, d.bookings.lookup k.1 = none → d.reminderJobs.lookup k = none) :
    Bookable cat (reqs i) (now i) d := by
  refine ⟨?_, fun e he => ?_, hslot.clients i, hreminders⟩
  · rw [hslot.slotId i, noticeHours_congr hproviders]
    exact ⟨row, hrow, by rw [hstart]; exact hslot.notPast i, by rw [hstart]; exact hslot.notice i,
      hfree⟩
  · rw [hslot.slotId i, EventTypeFits.congr hproviders]
    exact hslot.eventTypes i e he

section Runs

variable {C : Type} [DecidableEq C] [DecidableEq ι] {own : ι → C}
variable {J : Database → List (ι × Write) → (ι → Racer) → Prop}
variable {P : Service C ι → Label Ask.Answer Nat JsError C ι → Prop} {w : Service C ι}

/-- What holds of every world the calls reach, given an invariant. -/
theorem raced_of_reaches (hslot : OneSlot cat d₀ s row₀ reqs now) (hadm : LocalTo cat adm)
    (hJ : Preserved (chronos cat) (raceContracts cat d₀ s adm reqs now) J)
    (hJ₀ : J d₀ [] fun _ => Racer.running) (hown : Function.Injective own)
    (hP : ∀ w l, P w l → RaceStep own w l ∧ Admits (chronos cat) (fun _ => adm) w l)
    (h : Reaches (chronos cat) P (World.init d₀ (raceProgram reqs now)) w) :
    ∃ ts G, Modular (chronos cat) value (raceContracts cat d₀ s adm reqs now) (fun _ => RaceEnds)
      J w ts G ∧ Guarded (Lock.slot s) w ∧ Attended w := by
  have hrely : ∀ (w : Service C ι) l,
      (Undisturbed w.db l.env ∧ Admits (chronos cat) (fun _ => adm) w l) ∧ Exclusive w l →
      Relied (chronos cat) (raceContracts cat d₀ s adm reqs now) J w l :=
    fun w l hP => ⟨hP.2, hP.1.2, fun _ _ => hP.1.1⟩
  exact Modular.reaches_with (I := fun w _ => Guarded (Lock.slot s) w ∧ Attended w) (lawful cat) hJ
    hrely
    (fun w l w' ts G g' hmod hI hP hs =>
      ⟨hmod.guarded_step hJ (fun _ _ _ _ _ hsend => hsend) hP.2 hI.1 hs,
        hI.2.step hP.2 hP.1.1.1 hs⟩)
    (modular_init (fun i => ok_createBooking hadm _ _ _) (keeps_race hslot) hJ₀)
    ⟨(fun _ _ hlk => nomatch hlk), attended_init fun _ => leaves_createBooking⟩
    (exclusive_of_dedicated hown (h.mono fun w l hw => ⟨⟨(hP w l hw).1.1, (hP w l hw).2⟩,
      (hP w l hw).1.2⟩))

/-- While a call is not done, some call can make a step. -/
theorem calls_can_step {ts : ι → Phase × Program Reply} {G : ι → Racer}
    (hP : ∀ w l, P w l → RaceStep own w l)
    (h : Reaches (chronos cat) P (World.init d₀ (raceProgram reqs now)) w)
    (hmod : Modular (chronos cat) value (raceContracts cat d₀ s adm reqs now) (fun _ => RaceEnds)
      J w ts G) (hguarded : Guarded (Lock.slot s) w) (hattended : Attended w)
    (hrunning : ∃ i, ¬ (w.prog i).Done) :
    ∃ k env w', Undisturbed w.db env ∧ w.step (chronos cat) ⟨k, own k, env⟩ = some w' := by
  obtain ⟨i, hi⟩ := hrunning
  have hdedicated := h.mono fun w l hw => (⟨trivial, (hP w l hw).2⟩ : True ∧ Dedicated own l)
  obtain ⟨k, -, hk⟩ := hmod.can_step hguarded hattended
    (ownTransactions_of_dedicated ownTransactions_init hdedicated) hi
  obtain ⟨env, henv⟩ := exists_undisturbed w.db
  obtain ⟨w', hw'⟩ := hk env
  exact ⟨k, env, w', henv, hw'⟩

/-- No call makes more than 15 steps. -/
theorem call_ends {check ls} (h : World.run (chronos cat) check
    (World.init d₀ (raceProgram reqs now) : Service C ι) ls = some w) (i : ι) :
    (ls.countP fun l => decide (l.thread = i)) ≤ 15 :=
  run_countP_le endsWithin_createBooking h

/-- All calls together make no more than 15 steps each. -/
theorem calls_end [Fintype ι] {check ls} (h : World.run (chronos cat) check
    (World.init d₀ (raceProgram reqs now) : Service C ι) ls = some w) :
    ls.length ≤ 15 * Fintype.card ι := by
  have hlen := run_length_le (b := fun _ => 15) (fun i => endsWithin_createBooking) h
  simpa [Finset.sum_const, mul_comm] using hlen

end Runs

/-! ### Exactly one winner -/

/-- Nobody has come to an end, or there is one winner. -/
inductive RaceState (s : SlotId) (row₀ : Slot) (d : Database) (G : ι → Racer) : Prop
  | isOpen : d.slots.lookup s = some { row₀ with status := .«open» } →
      (∀ i, ¬ d.LiveOn s i) → (∀ i, G i = .running) → RaceState s row₀ d G
  | booked (i : ι) (id : BookingId) : d.slots.lookup s = some { row₀ with status := .booked } →
      (∀ k, d.LiveOn s k ↔ k = id) → G i = .won id →
      (∀ k, k ≠ i → G k = .running ∨ G k = .lost) → RaceState s row₀ d G

/-- The invariant of the race. -/
structure Raced (d₀ : Database) (s : SlotId) (row₀ : Slot) (reqs : ι → BookingRequest)
    (d : Database) (_ : List (ι × Write)) (G : ι → Racer) : Prop where
  state : RaceState s row₀ d G
  providers : SameProviders d₀ d
  reminders : ∀ k, d.bookings.lookup k.1 = none → d.reminderJobs.lookup k = none
  unused : ∀ i, G i = .running → ∀ key, truthy (reqs i).idempotencyKey = some key →
    d.idempotencyKeys.lookup ((reqs i).clientId, key) = none

theorem RaceState.slot {d : Database} {G : ι → Racer} (h : RaceState s row₀ d G) :
    ∃ row, d.slots.lookup s = some row ∧ row.slotStartUtc = row₀.slotStartUtc ∧
      (row.status = .«open» → ∀ i, ¬ d.LiveOn s i) := by
  cases h with
  | isOpen hslot hfree _ => exact ⟨_, hslot, rfl, fun _ => hfree⟩
  | booked _ _ hslot _ _ _ => exact ⟨_, hslot, rfl, fun hopen => by cases hopen⟩

/-- What the invariant says to a running call. -/
theorem Raced.known {d : Database} {j : List (ι × Write)} {G : ι → Racer}
    (hrace : SlotRace cat d₀ s row₀ reqs now) (h : Raced d₀ s row₀ reqs d j G) (i : ι)
    (hi : G i = .running) : RaceKnown cat d₀ (reqs i) (now i) d := by
  obtain ⟨row, hrow, hstart, hfree⟩ := h.state.slot
  refine ⟨h.providers, hrace.toOneSlot.bookable i h.providers hrow hstart hfree h.reminders,
    fun key row hkey hrow => ?_, fun key _ hkey _ _ => h.unused i hi key hkey⟩
  rw [h.unused i hi key hkey] at hrow
  cases hrow

variable [DecidableEq ι]

/-- Who loses finds the slot booked, and leaves the winner alone. -/
theorem RaceState.lose {d : Database} {G : ι → Racer} (h : RaceState s row₀ d G) {row : Slot}
    (hrow : d.slots.lookup s = some row) (hclosed : row.status ≠ .«open») {i : ι}
    (hi : G i = .running) : RaceState s row₀ d (Function.update G i .lost) := by
  cases h with
  | isOpen hslot _ _ =>
    rw [hrow, Option.some.injEq] at hslot
    rw [hslot] at hclosed
    exact absurd rfl hclosed
  | booked i₀ id hslot hlive hwon hothers =>
    have hne : i₀ ≠ i := by
      rintro rfl
      rw [hi] at hwon
      cases hwon
    refine .booked i₀ id hslot hlive (by rw [Function.update_of_ne hne]; exact hwon) ?_
    intro k hk
    by_cases hki : k = i
    · rw [hki, Function.update_self]
      exact Or.inr rfl
    · rw [Function.update_of_ne hki]
      exact hothers k hk

/-- The first commit makes the winner. -/
theorem RaceState.win {d : Database} {G : ι → Racer} (h : RaceState s row₀ d G) {i : ι}
    {minStart : Instant} {row : Slot} {reminders ws : List Write} {id : BookingId}
    (hslotId : (reqs i).slotId = s)
    (hnew : NewBooking cat (reqs i) (now i) minStart d row reminders id ws) :
    RaceState s row₀ ((chronos cat).apply ws d) (Function.update G i (.won id)) := by
  have hrow := hnew.slot
  rw [hslotId] at hrow
  cases h with
  | booked _ _ hslot _ _ _ =>
    rw [hrow, Option.some.injEq] at hslot
    have hopen := hnew.isOpen
    rw [hslot] at hopen
    cases hopen
  | isOpen hslot hfree hrunning =>
    rw [hrow, Option.some.injEq] at hslot
    refine .booked i id ?_ (fun k => ?_) (Function.update_self ..) fun k hk => ?_
    · rw [hnew.slots, hslotId, if_pos rfl, hslot]
    · rw [hnew.liveOn]
      constructor
      · rintro (⟨hk, -⟩ | ⟨-, hk⟩)
        · exact hk
        · exact absurd hk (hfree k)
      · exact fun hk => Or.inl ⟨hk, hslotId⟩
    · rw [Function.update_of_ne hk]
      exact Or.inl (hrunning k)

/-- **Step lemma.** -/
theorem preserved_raced (hrace : SlotRace cat d₀ s row₀ reqs now) :
    Preserved (chronos cat) (raceContracts cat d₀ s adm reqs now) (Raced d₀ s row₀ reqs) where
  know _ _ _ i h := h.known hrace i
  move := by
    intro d j G i ws g' h hm
    have hmoves : RaceMoves cat adm (reqs i) (now i)
        (now i + hoursMs ((reqs i).noticeHours cat d₀)) (G i) d ws g' := hm
    generalize hg : G i = g at hmoves
    -- Who is running now was running before.
    have hrunning : ∀ k, Function.update G i g' k = .running → g' ≠ .running → k ≠ i ∧
        G k = .running := by
      intro k hk hne
      by_cases hki : k = i
      · rw [hki, Function.update_self] at hk
        exact absurd hk hne
      · rw [Function.update_of_ne hki] at hk
        exact ⟨hki, hk⟩
    cases hmoves with
    | stay =>
      rw [← hg, Function.update_eq_self]
      exact ⟨h.state, h.providers, h.reminders, h.unused⟩
    | see hkey hrow =>
      rw [h.unused i hg _ hkey] at hrow
      cases hrow
    | lose hrow hclosed _ =>
      rw [hrace.slotId i] at hrow
      exact ⟨h.state.lose hrow hclosed hg, h.providers, h.reminders,
        fun k hk => h.unused k (hrunning k hk (by simp)).2⟩
    | win hnew =>
      refine ⟨h.state.win (hrace.slotId i) hnew, hnew.sameProviders h.providers,
        hnew.foreignKey h.reminders, fun k hk key hkey => ?_⟩
      obtain ⟨hki, hk⟩ := hrunning k hk (by simp)
      rw [hnew.keys, if_neg, h.unused k hk key hkey]
      rintro ⟨hclient, hkey'⟩
      exact hki (hrace.unshared k i key hkey hkey' hclient)

variable {C : Type} [DecidableEq C] {own : ι → C}

/-- **Exactly one winner per slot.**  In every run of the calls:

    * no more than 15 steps are made by each call;
    * while a call is not done, some call can make a step;
    * when all are done, one of them has answered `201`, all others `409`, the slot is booked
      and has exactly one live booking, the winner's. -/
theorem exactly_one_winner [Nonempty ι] (hrace : SlotRace cat d₀ s row₀ reqs now)
    (hown : Function.Injective own) :
    (∀ check ls (w : Service C ι), World.run (chronos cat) check
      (World.init d₀ (raceProgram reqs now)) ls = some w →
      ∀ i, (ls.countP fun l => decide (l.thread = i)) ≤ 15) ∧
    ∀ w : Service C ι,
      Reaches (chronos cat) (RaceStep own) (World.init d₀ (raceProgram reqs now)) w →
      ((∃ i, ¬ (w.prog i).Done) → ∃ k env w', Undisturbed w.db env ∧
        w.step (chronos cat) ⟨k, own k, env⟩ = some w') ∧
      ((∀ i, (w.prog i).Done) → ∃ i id, (w.prog i).result = some (.ok (.created id false)) ∧
        (∀ k, k ≠ i → (w.prog k).result = some (.ok (.refused 409 "slot_unavailable"))) ∧
        w.db.slots.lookup s = some { row₀ with status := .booked } ∧
        ∀ k, w.db.LiveOn s k ↔ k = id) := by
  have h₀ : Raced d₀ s row₀ reqs d₀ [] fun _ => Racer.running :=
    { state := .isOpen (by rw [hrace.slot, ← hrace.isOpen]) hrace.free fun _ => rfl
      providers := fun _ => rfl
      reminders := hrace.reminders
      unused := fun i _ => hrace.unused i }
  refine ⟨fun check ls w hrun => call_ends hrun, fun w h => ?_⟩
  obtain ⟨ts, G, hmod, hguarded, hattended⟩ := raced_of_reaches hrace.toOneSlot (localTo_true cat)
    (preserved_raced hrace) h₀ hown (fun w l hw => ⟨hw, fun _ _ _ _ _ _ _ => trivial⟩) h
  refine ⟨calls_can_step (fun _ _ hw => hw) h hmod hguarded hattended, fun hall => ?_⟩
  -- How each call has ended.
  have hends : ∀ i, ∃ r, (w.prog i).result = some r ∧ RaceEnds (G i) r := by
    intro i
    obtain ⟨r, hr⟩ := result_of_done (hall i)
    exact ⟨r, hr, hmod.result hr⟩
  cases hmod.inv.state with
  | isOpen _ _ hrunning =>
    obtain ⟨i⟩ := ‹Nonempty ι›
    obtain ⟨r, -, ⟨_, hseen, -⟩ | ⟨hlost, -⟩ | ⟨id, hwon, -⟩⟩ := hends i
    · rw [hrunning i] at hseen; cases hseen
    · rw [hrunning i] at hlost; cases hlost
    · rw [hrunning i] at hwon; cases hwon
  | booked i id hslot hlive hwon hothers =>
    refine ⟨i, id, ?_, fun k hk => ?_, hslot, hlive⟩
    · obtain ⟨r, hr, ⟨_, hg, -⟩ | ⟨hg, -⟩ | ⟨id', hg, rfl⟩⟩ := hends i
      · rw [hwon] at hg; cases hg
      · rw [hwon] at hg; cases hg
      · rw [hwon, Racer.won.injEq] at hg
        rw [hr, hg]
    · obtain ⟨r, hr, ⟨_, hg, -⟩ | ⟨-, rfl⟩ | ⟨_, hg, -⟩⟩ := hends k
      · rcases hothers k hk with ho | ho <;> (rw [ho] at hg; cases hg)
      · exact hr
      · rcases hothers k hk with ho | ho <;> (rw [ho] at hg; cases hg)

end Race

/-- Two calls at the epoch for slot `1`. -/
theorem slotRace_sample : SlotRace sampleCatalog sampleDb 1 (sampleSlot .«open»)
    (fun _ : Bool => sampleRequest) fun _ => 0 where
  slotId _ := rfl
  slot := rfl
  isOpen := rfl
  free _ hi := by obtain ⟨b, hb, -⟩ := hi; cases hb
  notice _ := by decide
  clients _ := rfl
  eventTypes _ _ he := nomatch he
  unused _ _ hkey := nomatch hkey
  reminders _ _ := rfl
  notices p provider hours hp hhours := by
    obtain rfl := Option.some.inj hp
    cases hhours
  unshared _ _ _ hkey := nomatch hkey

/-- The second call waits for the first one's lock, and loses. -/
theorem exactly_one_winner_of_two : ∃ w : Service Bool Bool, ∃ i id,
    (w.prog i).result = some (.ok (.created id false)) ∧
    (∀ k, k ≠ i → (w.prog k).result = some (.ok (.refused 409 "slot_unavailable"))) ∧
    ∀ k, w.db.LiveOn 1 k ↔ k = id := by
  have hrun : ∃ w : Service Bool Bool, World.run (chronos sampleCatalog)
      (fun w l => (w.db.bookings.lookup l.env.fresh).isNone)
      (World.init sampleDb (raceProgram (fun _ => sampleRequest) fun _ => 0))
      (ownSteps (fun i => calmEnv (if i then 2 else 1) 0) (List.replicate 4 false ++
        List.replicate 3 true ++ List.replicate 6 false ++ List.replicate 2 true)) = some w ∧
      ∀ i, (w.prog i).Done := by
    refine ⟨_, rfl, fun i => ?_⟩
    cases i <;> exact trivial
  obtain ⟨w, hw, hdone⟩ := hrun
  have hreach : Reaches (chronos sampleCatalog) (RaceStep id) _ w :=
    reaches_of_run (fun w l hl hcheck => by
      obtain ⟨i, -, rfl⟩ := List.mem_map.mp hl
      exact ⟨⟨rfl, Option.isNone_iff_eq_none.mp hcheck⟩, rfl⟩) hw
  obtain ⟨i, id, hi, hk, -, hlive⟩ :=
    ((exactly_one_winner slotRace_sample Function.injective_id).2 w hreach).2 hdone
  exact ⟨w, i, id, hi, hk, hlive⟩

end Chronos
