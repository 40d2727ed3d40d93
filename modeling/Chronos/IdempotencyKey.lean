import Chronos.CalmBooking

namespace Chronos

open ReadCommitted ReadCommitted.Prog

/-!
# Idempotency keys

`createBooking` looks its key up before its transaction and inserts it at the end of it;
`rescheduleBooking` only inserts.  What makes the key work is the primary key of
`idempotency_keys`: a row is never replaced (`Request.Moves.keys_stay`), and whoever commits
a booking has inserted the row that names it (`Request.Moves.booked`).

`one_booking_per_key` collects what follows for any number of calls in any order: at most one
booking under a client and a key, no change by a later call with that key, and the same
answer to an identical request.
-/

/-- The key a request inserts, if it is not empty. -/
def Request.key : Request → Option String
  | .createBooking req _ _ => truthy req.idempotencyKey
  | .rescheduleBooking req _ _ => truthy req.idempotencyKey
  | _ => none

section Moves

variable {cat : Catalog} {fromColumn : Instant → Except JsError Instant}
variable {adm : Stmt → Database → Prop} {req : Request} {g g' : Progress} {d d₀ : Database}
variable {env : Progress → Database → Env Nat JsError Ask.Answer → Prop}
variable {know : Progress → Database → Prop} {ws : List Write}

/-- A row of `idempotency_keys` is never replaced. -/
theorem Request.Moves.keys_stay (h : req.Moves cat fromColumn adm env know g d ws g')
    {k : ClientId × String} {row : IdempotencyKey} (hk : d.idempotencyKeys.lookup k = some row) :
    ((chronos cat).apply ws d).idempotencyKeys.lookup k = some row := by
  -- Whoever inserts a row has found none.
  have hinsert : ∀ {c : ClientId} {key : Option String} {new : IdempotencyKey},
      (∀ text, truthy key = some text → d.idempotencyKeys.lookup (c, text) = none) →
      (if k.1 = c ∧ truthy key = some k.2 then some new else d.idempotencyKeys.lookup k) =
        some row := by
    intro c key new hunused
    rw [if_neg, hk]
    rintro ⟨rfl, hkey⟩
    rw [hunused k.2 hkey] at hk
    cases hk
  cases h with
  | stay => exact hk
  | read _ => exact hk
  | createBooking _ _ hnew =>
    rw [hnew.keys]
    exact hinsert hnew.unused
  | cancelBooking _ _ => rw [idempotencyKeys_cancelWrites]; exact hk
  | confirmBooking hupdate =>
    rw [hupdate.writes, idempotencyKeys_statusWrites]
    exact hk
  | declineBooking hupdate =>
    rw [hupdate.writes, idempotencyKeys_statusWrites]
    exact hk
  | rescheduleBooking _ hmove =>
    rw [hmove.keys]
    exact hinsert hmove.unused
  | remind hws => rw [(sameBut_apply hws).idempotencyKeys]; exact hk

/-- A slot keeps its provider. -/
theorem Request.Moves.providers (h : req.Moves cat fromColumn adm env know g d ws g')
    (hd : SameProviders d₀ d) : SameProviders d₀ ((chronos cat).apply ws d) := by
  intro s
  rw [← hd s]
  -- Slots are opened and booked; nothing else about them changes.
  have hreopen : ∀ {id : SlotId}, s = id →
      ((d.slots.lookup id).map fun row => { row with status := .«open» }).map Slot.providerId =
        (d.slots.lookup s).map Slot.providerId := by
    rintro id rfl
    rw [Option.map_map]
    rfl
  have htake : ∀ {id : SlotId} {row : Slot}, d.slots.lookup id = some row → s = id →
      (some { row with status := .booked }).map Slot.providerId =
        (d.slots.lookup s).map Slot.providerId := by
    rintro id row hrow rfl
    rw [hrow]
    rfl
  cases h with
  | stay => rfl
  | read _ => rfl
  | createBooking _ _ hnew =>
    rw [hnew.slots]
    split
    · next hs => exact htake hnew.slot hs
    · rfl
  | cancelBooking _ _ =>
    rw [lookup_slot_cancelWrites]
    split
    · next hs => exact hreopen hs
    · rfl
  | confirmBooking hupdate => rw [hupdate.writes, lookup_slot_statusWrites, if_neg (by simp)]
  | declineBooking hupdate => rw [hupdate.writes, lookup_slot_statusWrites, if_neg (by simp)]
  | rescheduleBooking _ hmove =>
    rw [hmove.slots, lookup_slot_vacated]
    split
    · next hs =>
      split
      · next hsame =>
        rw [hs, hsame, hmove.newSlot]
        rfl
      · exact hreopen hs
    · split
      · next hs => exact htake hmove.newSlot hs
      · rfl
  | remind hws => rw [(sameBut_apply hws).slots]

theorem booking_not_mem_openSlotWrites {s : SlotId} {id : BookingId} {row : Booking} :
    Write.booking id row ∉ openSlotWrites d s := by
  unfold openSlotWrites
  split <;> simp

theorem booking_not_mem_keyWrites {c : ClientId} {key : Option String} {hash : JsonText}
    {b id : BookingId} {row : Booking} : Write.booking id row ∉ keyWrites c key hash b := by
  unfold keyWrites
  split <;> simp

/-- **Whoever commits a booking has inserted its key.** -/
theorem Request.Moves.booked (h : req.Moves cat fromColumn adm env know g d ws g')
    {id : BookingId} {row : Booking} (hmem : Write.booking id row ∈ ws)
    (hbooked : row.status = .booked) {key : String} (hkey : req.key = some key) :
    ∃ k, ((chronos cat).apply ws d).idempotencyKeys.lookup (row.clientId, key) = some k ∧
      k.responseBody = id := by
  have hreminders : ∀ {b : BookingId} {ws : List Write}, (∀ w ∈ ws, w.OnReminders b) →
      Write.booking id row ∉ ws := fun hws hin => hws _ hin
  cases h with
  | stay => cases hmem
  | read _ => cases hmem
  | createBooking _ _ hnew =>
    rw [hnew.writes] at hmem
    simp only [List.mem_cons, List.mem_append, reduceCtorEq, false_or, Write.booking.injEq,
      hreminders hnew.scheduled.onReminders, booking_not_mem_keyWrites, or_false] at hmem
    obtain ⟨rfl, rfl⟩ := hmem
    exact ⟨_, (hnew.keys _).trans (if_pos ⟨rfl, hkey⟩), rfl⟩
  | cancelBooking _ _ => cases hkey
  | confirmBooking _ => cases hkey
  | declineBooking _ => cases hkey
  | rescheduleBooking _ hmove =>
    rw [hmove.writes] at hmem
    simp only [List.mem_cons, List.mem_append, reduceCtorEq, false_or, Write.booking.injEq,
      hreminders hmove.scheduled.onReminders, booking_not_mem_keyWrites, List.not_mem_nil,
      booking_not_mem_openSlotWrites, or_false] at hmem
    rcases hmem with ⟨rfl, rfl⟩ | ⟨rfl, rfl⟩
    · cases hbooked
    · exact ⟨_, (hmove.keys _).trans (if_pos ⟨rfl, hkey⟩), rfl⟩
  | remind hws => exact absurd hmem (hreminders hws)

end Moves

/-! ### Identical requests -/

section Answers

variable {cat : Catalog} {d₀ : Database} {req : BookingRequest}

/-- The key of a request names booking `id`, and no slot has changed its provider. -/
structure Replays (d₀ : Database) (req : BookingRequest) (key : String) (id : BookingId)
    (d : Database) : Prop where
  providers : SameProviders d₀ d
  row : d.idempotencyKeys.lookup (req.clientId, key) = some ⟨req.json, 201, id⟩

/-- **Replay.**  A request whose key names a booking made for the same body. -/
theorem answers_createBooking {key : String} {id : BookingId} {nowUtc : Option Instant}
    {queue : Bool} (hkey : truthy req.idempotencyKey = some key)
    (hfits : ∀ e, req.eventTypeId = some e → EventTypeFits cat e req.slotId d₀) :
    (createBooking req nowUtc queue).Answers (chronos cat) (Replays d₀ req key id)
      (.created id true) := by
  have hAt : ∀ now, (createBookingAt req now queue).Answers (chronos cat) (Replays d₀ req key id)
      (.created id true) := by
    intro now
    refine (answers_configuredNoticeHours.mono fun d hd => hd.providers).bind ?_
    refine ((answers_validateEventType hfits).mono fun d hd => hd.providers).bind ?_
    have hcheck : (checkIdempotencyKey req).Answers (chronos cat) (Replays d₀ req key id)
        (some (.created id true)) := by
      unfold checkIdempotencyKey
      rw [hkey]
      refine fun o d hd => ⟨_, rfl, ?_⟩
      rw [hd.row]
      simp only [andThen]
      rw [if_neg (not_not.mpr rfl)]
      rfl
    exact hcheck.bind rfl
  cases nowUtc with
  | some now => exact hAt now
  | none => exact fun now => ⟨rfl, hAt now⟩

end Answers

/-! ### Every interleaving -/

section Interleaving

variable {cat : Catalog} {fromColumn : Instant → Except JsError Instant} {ι C : Type}
variable {reqs : ι → Request} {d₀ : Database}

/-- Call `i` has committed booking `id` under a client and a key. -/
def BookedUnder (reqs : ι → Request) (clientId : ClientId) (key : String) (i : ι)
    (id : BookingId) (w : Service C ι) : Prop :=
  (reqs i).key = some key ∧ ∃ row, (i, Write.booking id row) ∈ w.journal ∧ row.status = .booked ∧
    row.clientId = clientId

/-- The invariant: the row of a key names the booking that was committed under it, and a
    `createBooking` that has committed has left its own row. -/
structure KeysKept (cat : Catalog) (d₀ : Database) (reqs : ι → Request) (d : Database)
    (j : List (ι × Write)) (G : ι → Progress) : Prop where
  quiet : Quiet j G
  providers : SameProviders d₀ d
  booked : ∀ i id row key, (i, Write.booking id row) ∈ j → row.status = .booked →
    (reqs i).key = some key →
    ∃ k, d.idempotencyKeys.lookup (row.clientId, key) = some k ∧ k.responseBody = id
  created : ∀ i req nowUtc queue id, reqs i = .createBooking req nowUtc queue →
    G i = .done (some id) → (∀ e, req.eventTypeId = some e → EventTypeFits cat e req.slotId d₀) ∧
      ∀ key, truthy req.idempotencyKey = some key →
        d.idempotencyKeys.lookup (req.clientId, key) = some ⟨req.json, 201, id⟩

/-- What calls know of the slots. -/
def knowsProviders (d₀ : Database) (_ : ι) (_ : Progress) (d : Database) : Prop :=
  SameProviders d₀ d

theorem keysKept_start : KeysKept cat d₀ reqs d₀ [] fun _ : ι => Progress.begun where
  quiet := fun _ _ _ he => absurd he List.not_mem_nil
  providers := fun _ => rfl
  booked := fun _ _ _ _ he => absurd he List.not_mem_nil
  created := fun _ _ _ _ _ _ hx => nomatch hx

variable [DecidableEq ι]

/-- **Step lemma.** -/
theorem preserved_keysKept :
    Preserved (chronos cat) (contracts cat fromColumn (fun _ _ _ => True) (fun _ _ _ _ => True)
      (knowsProviders d₀) reqs) (KeysKept cat d₀ reqs) where
  know _ _ _ _ h := h.providers
  move := by
    intro d j G i ws g' h hm
    have hmoves : (reqs i).Moves cat fromColumn (fun _ _ => True) (fun _ _ _ => True)
        (knowsProviders d₀ i) (G i) d ws g' := hm
    refine ⟨h.quiet.move hmoves, hmoves.providers h.providers, ?_, ?_⟩
    · intro k id row key hmem hbooked hkey
      rcases List.mem_append.mp hmem with hmem | hmem
      · obtain ⟨r, hr, hid⟩ := h.booked k id row key hmem hbooked hkey
        exact ⟨r, hmoves.keys_stay hr, hid⟩
      · obtain ⟨w, hw, heq⟩ := List.mem_map.mp hmem
        obtain ⟨rfl, rfl⟩ := Prod.mk.inj heq
        exact hmoves.booked hw hbooked hkey
    · intro k req nowUtc queue id hreq hdone
      have hold : G k = .done (some id) →
          (∀ e, req.eventTypeId = some e → EventTypeFits cat e req.slotId d₀) ∧
            ∀ key, truthy req.idempotencyKey = some key →
              ((chronos cat).apply ws d).idempotencyKeys.lookup (req.clientId, key) =
                some ⟨req.json, 201, id⟩ := by
        intro hG
        obtain ⟨hfits, hrow⟩ := h.created k req nowUtc queue id hreq hG
        exact ⟨hfits, fun key hkey => hmoves.keys_stay (hrow key hkey)⟩
      -- Only the call that moves can get a result.
      by_cases hk : k = i
      · subst hk
        rw [Function.update_self] at hdone
        generalize hg : G k = g at hmoves hold
        rw [hreq] at hmoves
        cases hmoves with
        | stay => exact hold hdone
        | createBooking _ hfits hnew =>
          obtain rfl : _ = id := Option.some.inj (Progress.done.inj hdone)
          refine ⟨fun e he => ?_, fun key hkey => ?_⟩
          · obtain ⟨d', hd', hfit⟩ := hfits.eventType e he
            exact (EventTypeFits.congr hd').mp hfit
          · exact (hnew.keys _).trans (if_pos ⟨rfl, hkey⟩)
        | remind _ => exact hold hdone
      · rw [Function.update_of_ne hk] at hdone
        exact hold hdone

/-- What holds from the moment the key of call `i` is used: the call commits nothing. -/
structure KeyUsed (d₀ : Database) (req : BookingRequest) (key : String) (id : BookingId) (i : ι)
    (d : Database) (j : List (ι × Write)) (G : ι → Progress) : Prop where
  begun : G i = .begun
  silent : ∀ e ∈ j, e.1 ≠ i
  replays : Replays d₀ req key id d

theorem preserved_keyUsed {i : ι} {req reqI : BookingRequest} {nowUtc : Option Instant}
    {queue : Bool} {key : String} {id : BookingId}
    (hreq : reqs i = .createBooking reqI nowUtc queue) (hclient : reqI.clientId = req.clientId)
    (hkey : truthy reqI.idempotencyKey = some key) :
    Preserved (chronos cat) (contracts cat fromColumn (fun _ _ _ => True) (fun _ _ _ _ => True)
      (knowsProviders d₀) reqs) (KeyUsed d₀ req key id i) where
  know _ _ _ _ h := h.replays.providers
  move := by
    intro d j G k ws g' h hm
    have hmoves : (reqs k).Moves cat fromColumn (fun _ _ => True) (fun _ _ _ => True)
        (knowsProviders d₀ k) (G k) d ws g' := hm
    have hreplays : Replays d₀ req key id ((chronos cat).apply ws d) :=
      ⟨hmoves.providers h.replays.providers, hmoves.keys_stay h.replays.row⟩
    by_cases hk : i = k
    · subst hk
      have hstay : ws = [] ∧ g' = .begun := by
        rw [hreq, h.begun] at hmoves
        cases hmoves with
        | stay => exact ⟨rfl, rfl⟩
        | createBooking _ _ hnew =>
          -- It has found the key unused.
          have hunused := hnew.unused key hkey
          rw [hclient, h.replays.row] at hunused
          cases hunused
      obtain ⟨rfl, rfl⟩ := hstay
      refine ⟨Function.update_self .., fun e he => h.silent e ?_, hreplays⟩
      simpa using he
    · refine ⟨(Function.update_of_ne hk ..).trans h.begun, fun e he => ?_, hreplays⟩
      rcases List.mem_append.mp he with he | he
      · exact h.silent e he
      · obtain ⟨w, -, rfl⟩ := List.mem_map.mp he
        exact fun heq => hk heq.symm

variable [DecidableEq C] {own : ι → C}

/-- **Idempotency keys work.**  On connections of their own, in every interleaving:

    * at most one booking is committed under a client and a key;
    * a `createBooking` with that client and key that starts after another one was answered
      `201` commits nothing;
    * if its request is the same and no statement of it fails, it waits for nobody and
      answers `201` with the same booking. -/
theorem one_booking_per_key (hown : Function.Injective own) :
    (∀ w : Service C ι, Reaches (chronos cat) (fun _ l => True ∧ Dedicated own l)
        (Service.start fromColumn d₀ reqs) w →
      ∀ clientId key i k id id', BookedUnder reqs clientId key i id w →
        BookedUnder reqs clientId key k id' w → id = id') ∧
    ∀ (a i : ι) (req reqI : BookingRequest) (nowUtc nowUtcI : Option Instant) (queue queueI : Bool)
      (key : String) (id : BookingId) (w₁ : Service C ι),
      reqs a = .createBooking req nowUtc queue → reqs i = .createBooking reqI nowUtcI queueI →
      reqI.clientId = req.clientId → truthy req.idempotencyKey = some key →
      truthy reqI.idempotencyKey = some key →
      Reaches (chronos cat) (fun _ l => l.thread ≠ i ∧ Dedicated own l)
        (Service.start fromColumn d₀ reqs) w₁ →
      (w₁.prog a).result = some (.ok (.created id false)) →
      (∀ w₂, Reaches (chronos cat) (fun _ l => True ∧ Dedicated own l) w₁ w₂ →
        ∀ e ∈ w₂.journal, e.1 ≠ i) ∧
      (reqI = req → ∀ w₂, Reaches (chronos cat)
          (fun _ l => (l.thread = i → l.env.fault = none) ∧ Dedicated own l) w₁ w₂ →
        (∀ r, (w₂.prog i).result = some r → r = .ok (.created id true)) ∧
        (¬ (w₂.prog i).Done → ∀ env, env.fault = none →
          ∃ w₃, w₂.step (chronos cat) ⟨i, own i, env⟩ = some w₃)) := by
  refine ⟨fun w h => ?_, ?_⟩
  · obtain ⟨ts, G, hmod⟩ := Modular.reaches (lawful cat) preserved_keysKept
      (fun w l hP => ⟨hP.2, fun _ _ _ _ _ _ _ => trivial, fun _ _ => trivial⟩)
      (modular_start (fun _ => localTo_true cat) keysKept_start) (exclusive_of_dedicated hown h)
    rintro clientId key i k id id' ⟨hkey, row, hmem, hbooked, rfl⟩
      ⟨hkey', row', hmem', hbooked', hclient⟩
    obtain ⟨r, hr, rfl⟩ := hmod.inv.booked i id row key hmem hbooked hkey
    obtain ⟨r', hr', rfl⟩ := hmod.inv.booked k id' row' key hmem' hbooked' hkey'
    rw [hclient, hr, Option.some.injEq] at hr'
    rw [hr']
  · intro a i req reqI nowUtc nowUtcI queue queueI key id w₁ ha hi hclient hkey hkeyI h₁ hr
    obtain ⟨ts, G, hmod, hbegun⟩ := Modular.reaches_with (I := fun _ G => G i = Progress.begun)
      (lawful cat) preserved_keysKept
      (fun w l hP => ⟨hP.2, fun _ _ _ _ _ _ _ => trivial, fun _ _ => trivial⟩)
      (fun w l _ _ G g' _ hG hP _ => (Function.update_of_ne hP.1.symm ..).trans hG)
      (modular_start (fun _ => localTo_true cat) keysKept_start) rfl (exclusive_of_dedicated hown h₁)
    -- The call that was answered has left its row.
    have hdone : G a = .done (some id) := by
      have hends := hmod.result hr
      rw [ha] at hends
      rcases hends with ⟨-, hnot⟩ | ⟨id', hG, hreply | ⟨hnot, -⟩⟩
      · exact absurd rfl (hnot id)
      · have hid : id = id' := by simpa [Reply.created] using hreply
        rw [hG, hid]
      · exact absurd rfl (hnot id)
    obtain ⟨hfits, hrow⟩ := hmod.inv.created a req nowUtc queue id ha hdone
    have hnothing : ∀ x, G i ≠ .done x := by
      intro x hx
      rw [hbegun] at hx
      cases hx
    have hused : KeyUsed d₀ req key id i w₁.db w₁.journal G :=
      { begun := hbegun
        silent := hmod.inv.quiet i hnothing
        replays := ⟨hmod.inv.providers, hrow key hkey⟩ }
    have hmod₁ : Modular (chronos cat) value _ _ (KeyUsed d₀ req key id i) w₁ ts G :=
      ⟨hmod.atomically, hmod.keeps, hused⟩
    have hpreserved := @preserved_keyUsed cat fromColumn ι reqs d₀ _ i req
      reqI nowUtcI queueI key id hi hclient hkeyI
    have hown₁ : OwnTransactions own w₁ := ownTransactions_of_dedicated ownTransactions_init h₁
    refine ⟨fun w₂ h₂ => ?_, fun hsame w₂ h₂ => ?_⟩
    · obtain ⟨_, _, hmod₂⟩ := Modular.reaches (lawful cat) hpreserved
        (fun w l hP => ⟨hP.2, fun _ _ _ _ _ _ _ => trivial, fun _ _ => trivial⟩) hmod₁
        (exclusive_from hown hown₁ h₂)
      exact hmod₂.inv.silent
    · rw [hsame] at hi
      have hanswers : ((reqs i).program fromColumn).Answers (chronos cat)
          (Replays d₀ req key id) (.created id true) := hi ▸ answers_createBooking hkey hfits
      have hreader : Reader (chronos cat) (Replays d₀ req key id) (.created id true) own i w₁ :=
        reader_of_untouched hown h₁ (fun _ _ hP => hP) hanswers
      have h₂' := exclusive_from hown hown₁ (h₂.mono fun _ _ hP => (⟨hP, hP.2⟩ : _ ∧ _))
      obtain ⟨_, _, hmod₂, hreader₂⟩ := Modular.reaches_with
        (I := fun w _ => Reader (chronos cat) (Replays d₀ req key id) (Reply.created id true) own i w)
        (lawful cat) hpreserved
        (fun w l hP => ⟨hP.2, fun _ _ _ _ _ _ _ => trivial, fun _ _ => trivial⟩)
        (fun w l w' _ _ _ hmod' hrd hP hs => hrd.step hown hP.1.2 hmod'.inv.replays hP.1.1 hs)
        hmod₁ hreader h₂'
      exact ⟨fun r hr' => hreader₂.result hr',
        fun hnot env henv => hreader₂.can_step hmod₂.inv.replays henv hnot⟩

end Interleaving

/-- Client `5` asks for slot `1` under a key. -/
def sampleKeyed : BookingRequest := { sampleRequest with idempotencyKey := some "k" }

/-- The same request twice, one after the other. -/
theorem one_booking_per_key_retry : ∃ w₁ w₂ : Service Bool Bool,
    (w₁.prog false).result = some (.ok (.created 1 false)) ∧
    (w₂.prog true).result = some (.ok (.created 1 true)) ∧ ∀ e ∈ w₂.journal, e.1 ≠ true := by
  have hrun : ∃ w₁ : Service Bool Bool, World.run (chronos sampleCatalog) (fun _ _ => true)
      (Service.start .ok sampleDb fun _ => .createBooking sampleKeyed (some 0) false)
      (ownSteps (fun _ => calmEnv 1 0) (List.replicate 12 false)) = some w₁ ∧
      (w₁.prog false).result = some (.ok (.created 1 false)) ∧
      ∃ w₂, World.run (chronos sampleCatalog) (fun _ _ => true) w₁
        (ownSteps (fun _ => calmEnv 2 0) (List.replicate 3 true)) = some w₂ ∧
        (w₂.prog true).result.isSome :=
    ⟨_, rfl, rfl, _, rfl, rfl⟩
  obtain ⟨w₁, h₁, hr₁, w₂, h₂, hr₂⟩ := hrun
  have hreach₁ := reaches_of_run (P := fun _ l => l.thread ≠ true ∧ Dedicated id l)
    (fun w l hl _ => by
      obtain ⟨i, hi, rfl⟩ := List.mem_map.mp hl
      rw [List.eq_of_mem_replicate hi]
      exact ⟨by decide, rfl⟩) h₁
  have hreach₂ := reaches_of_run
    (P := fun _ l => (l.thread = true → l.env.fault = none) ∧ Dedicated id l)
    (fun w l hl _ => by
      obtain ⟨i, -, rfl⟩ := List.mem_map.mp hl
      exact ⟨fun _ => rfl, rfl⟩) h₂
  have hkeys := (@one_booking_per_key sampleCatalog .ok Bool Bool
    (fun _ => .createBooking sampleKeyed (some 0) false) sampleDb _ _ id Function.injective_id).2
  obtain ⟨hsilent, hreplay⟩ := hkeys false true sampleKeyed sampleKeyed (some 0) (some 0) false
    false "k" 1 w₁ rfl rfl rfl rfl rfl hreach₁ hr₁
  obtain ⟨r, hr⟩ := Option.isSome_iff_exists.mp hr₂
  refine ⟨w₁, w₂, hr₁, ?_, hsilent w₂ (hreach₂.mono fun _ _ hP => ⟨trivial, hP.2⟩)⟩
  rw [hr, (hreplay rfl w₂ hreach₂).1 r hr]

end Chronos
