import Chronos.Clients
import Chronos.ReadCommitted.Progress
import Mathlib.Data.Fintype.EquivFin

namespace Chronos

open ReadCommitted ReadCommitted.Prog

/-!
# `createBooking` when nothing fails

What a `createBooking` without a queue does when no statement of it fails from outside and
it asks for a slot it may book (`Bookable`): it replays the booking its key names, or it is
refused because the slot is taken, or it commits its booking.  No constraint stops it
(`keeps_calm`).

Its first lock is that of its slot (`LocksFirst`), and it leaves the transaction it has
entered, so that calls for one slot do not deadlock (`calls_can_step`).
-/

/-- Every slot is of the same provider in both states. -/
def SameProviders (d d' : Database) : Prop :=
  ∀ s, (d'.slots.lookup s).map Slot.providerId = (d.slots.lookup s).map Slot.providerId

section Reads

variable {cat : Catalog} {d₀ : Database} {req : BookingRequest}

theorem EventTypeFits.congr {e : EventTypeId} {s : SlotId} {d : Database}
    (hd : SameProviders d₀ d) : EventTypeFits cat e s d ↔ EventTypeFits cat e s d₀ := by
  unfold EventTypeFits
  rw [hd s]

theorem answers_configuredNoticeHours :
    (configuredNoticeHours req).Answers (chronos cat) (SameProviders d₀) (req.noticeHours cat d₀) := by
  refine Answers.tryCatch fun o d hd => ⟨_, rfl, ?_⟩
  simp only [andThen, BookingRequest.noticeHours]
  rw [hd req.slotId]
  generalize ((d₀.slots.lookup req.slotId).map Slot.providerId).or req.providerId = providerId
  cases providerId with
  | none => rfl
  | some providerId => exact fun o d _ => ⟨_, rfl, rfl⟩

theorem answers_validateEventType
    (hfits : ∀ e, req.eventTypeId = some e → EventTypeFits cat e req.slotId d₀) :
    (validateEventType req).Answers (chronos cat) (SameProviders d₀) none := by
  unfold validateEventType
  split
  · rfl
  · next e he =>
    obtain ⟨et, het, howner⟩ := hfits e he
    refine Answers.tryCatch fun o d _ => ⟨_, rfl, ?_⟩
    simp only [andThen, het]
    refine fun o d hd => ⟨_, rfl, ?_⟩
    simp only [andThen]
    rw [hd req.slotId, if_neg fun h => h.2 (howner h.1)]
    rfl

end Reads

/-! ### What a call may rely on -/

/-- The slot a request asks for may be booked if it is open: it is far enough ahead, it has a
    live booking only while it is not open, and nothing the request names is missing. -/
structure Bookable (cat : Catalog) (req : BookingRequest) (now : Instant) (d : Database) : Prop where
  slot : ∃ row, d.slots.lookup req.slotId = some row ∧ now ≤ row.slotStartUtc ∧
    now + hoursMs (req.noticeHours cat d) ≤ row.slotStartUtc ∧
    (row.status = .«open» → ∀ i, ¬ d.LiveOn req.slotId i)
  fits : ∀ e, req.eventTypeId = some e → EventTypeFits cat e req.slotId d
  client : cat.clients req.clientId = true
  -- The foreign key of `reminder_jobs`.
  reminders : ∀ k, d.bookings.lookup k.1 = none → d.reminderJobs.lookup k = none

theorem noticeHours_congr {cat : Catalog} {req : BookingRequest} {d d' : Database}
    (h : SameProviders d d') : req.noticeHours cat d' = req.noticeHours cat d := by
  unfold BookingRequest.noticeHours
  rw [h req.slotId]

/-- A new booking leaves slots with their providers. -/
theorem NewBooking.sameProviders {cat : Catalog} {req : BookingRequest} {now minStart : Instant}
    {d₀ d : Database} {row : Slot} {reminders ws : List Write} {id : BookingId}
    (h : NewBooking cat req now minStart d row reminders id ws) (hd : SameProviders d₀ d) :
    SameProviders d₀ ((chronos cat).apply ws d) := by
  intro s
  rw [← hd s, h.slots]
  split
  · next hs =>
    rw [hs, h.slot]
    rfl
  · rfl

/-- A new booking has its row before its reminders have theirs. -/
theorem NewBooking.foreignKey {cat : Catalog} {req : BookingRequest} {now minStart : Instant}
    {d : Database} {row : Slot} {reminders ws : List Write} {id : BookingId}
    (h : NewBooking cat req now minStart d row reminders id ws)
    (hd : ∀ k, d.bookings.lookup k.1 = none → d.reminderJobs.lookup k = none) (k : BookingId × Nat)
    (hk : ((chronos cat).apply ws d).bookings.lookup k.1 = none) :
    ((chronos cat).apply ws d).reminderJobs.lookup k = none := by
  obtain ⟨offsets, -, -, hlookup⟩ := h.reminderJobs
  rw [h.bookings] at hk
  split at hk
  · cases hk
  · next hne => rw [hlookup, if_neg fun hpos => hne hpos.1, hd k hk]

/-- Nothing fails from outside, and the server draws an unused id. -/
def Undisturbed (d : Database) (env : Env Nat JsError Ask.Answer) : Prop :=
  env.fault = none ∧ d.bookings.lookup env.fresh = none

/-- The server can always draw an unused id. -/
theorem exists_undisturbed (d : Database) : ∃ env, Undisturbed d env := by
  obtain ⟨fresh, hfresh⟩ := Infinite.exists_notMem_finset d.bookings.keys.toFinset
  refine ⟨calmEnv fresh 0, rfl, AList.lookup_eq_none.mpr fun hmem => hfresh ?_⟩
  rw [List.mem_toFinset]
  exact hmem

/-! #### No constraint in the way -/

section Constraints

variable {cat : Catalog} {d : Database}

theorem insertBooking_sure {row : Booking} {fresh : Nat} (hfresh : d.bookings.lookup fresh = none)
    (hfree : ∀ i, ¬ d.LiveOn row.slotId i) (hslot : (d.slots.lookup row.slotId).isSome)
    (hclient : cat.clients row.clientId = true) :
    (exec cat (.insertBooking row) fresh d).result = .ok (fresh, [.booking fresh row]) := by
  have hlive : d.otherLive row.slotId none = false := by
    by_contra h
    obtain ⟨i, -, hi⟩ := (otherLive_iff d _ _).mp (Bool.eq_true_of_not_eq_false h)
    exact hfree i hi
  simp [exec, hfresh, hlive, Option.isNone_eq_false_iff.mpr hslot, hclient]

theorem insertReminder_sure {b : BookingId} {offset : Nat} {fireAt : Instant} {fresh : Nat}
    (hnone : d.reminderJobs.lookup (b, offset) = none) (hbooking : (d.bookings.lookup b).isSome) :
    (exec cat (.insertReminder b offset fireAt) fresh d).result =
      .ok ((), [.reminder b offset ⟨fireAt, .scheduled, none⟩]) := by
  simp [exec, hnone, Option.isNone_eq_false_iff.mpr hbooking]

theorem insertKey_sure {clientId : ClientId} {key : String} {row : IdempotencyKey} {fresh : Nat}
    (hnone : d.idempotencyKeys.lookup (clientId, key) = none)
    (hclient : cat.clients clientId = true) :
    (exec cat (.insertKey clientId key row) fresh d).result = .ok ((), [.key clientId key row]) := by
  simp [exec, hnone, hclient]

end Constraints

section Sure

variable {cat : Catalog} {α γ : Type}
variable {c : Contract Ask.Answer Stmt Database Write Nat JsError γ}
variable {Q : Stage Database Write → γ → Except JsError α → Prop} {g : γ}

/-- A statement inside a transaction that cannot fail. -/
theorem keeps_sure {s : Stmt} {d : Database} {ws : List Write} (hsend : c.send g d ws s)
    (hcalm : ∀ env, c.env g d env → Undisturbed d env) {ok : s.Rows → Program α}
    {err : JsError → Program α}
    (hsure : ∀ o, d.bookings.lookup o = none →
      ∃ r ws', (exec cat s o ((chronos cat).apply ws d)).result = .ok (r, ws'))
    (hok : ∀ o r ws', c.adm s ((chronos cat).apply ws d) →
      (exec cat s o ((chronos cat).apply ws d)).result = .ok (r, ws') →
      (ok r).Keeps (chronos cat) c Q (.inside d (ws ++ ws')) g) :
    (Prog.stmt s ok err).Keeps (chronos cat) c Q (.inside d ws) g := by
  refine ⟨hsend, fun hadm o r ws' hx => hok o r ws' hadm hx, fun env e he hbad => ?_⟩
  obtain ⟨hfault, hfresh⟩ := hcalm env he
  rcases hbad with hf | ⟨-, hx⟩
  · rw [hfault] at hf
    cases hf
  · obtain ⟨r, ws', hr⟩ := hsure env.fresh hfresh
    change (exec cat s env.fresh ((chronos cat).apply ws d)).result = _ at hx
    rw [hr] at hx
    cases hx

end Sure

section Calm

variable {cat : Catalog} {γ : Type}
variable {c : Contract Ask.Answer Stmt Database Write Nat JsError γ} {g₀ : γ}
variable {req : BookingRequest} {now : Instant} {d : Database} {ws : List Write}

/-- The reminders of a booking that has none. -/
theorem keeps_insertReminders_calm (hsend : ∀ ws s, ws ≠ [] → c.send g₀ d ws s)
    (hcalm : ∀ env, c.env g₀ d env → Undisturbed d env) {b : BookingId} {start : Instant}
    (offsets : List Nat) (hsub : ∀ o ∈ offsets, o ∈ reminderOffsets) (hnodup : offsets.Nodup)
    (hws : ws ≠ []) (hbooking : (((chronos cat).apply ws d).bookings.lookup b).isSome)
    (hnone : ∀ o ∈ offsets, ((chronos cat).apply ws d).reminderJobs.lookup (b, o) = none) :
    (insertReminders b start offsets).Keeps (chronos cat) c
      (fun st g r => g = g₀ ∧ r = .ok () ∧ ∃ ws', st = .inside d (ws ++ ws') ∧
        NewReminders b start ws') (.inside d ws) g₀ := by
  induction offsets generalizing ws with
  | nil => exact keeps_ret.mpr ⟨rfl, rfl, [], by simp, fun w hw => by simp at hw⟩
  | cons offset offsets ih =>
    have hsub' : ∀ o ∈ offsets, o ∈ reminderOffsets := fun o ho => hsub o (List.mem_cons_of_mem _ ho)
    obtain ⟨hoffset, hnodup'⟩ := List.nodup_cons.mp hnodup
    refine ⟨fun _ => rfl, fun nowMs => ?_⟩
    simp only [andThen]
    split
    · refine keeps_sure (hsend _ _ hws) hcalm
        (fun o _ => ⟨(), _, insertReminder_sure (hnone offset List.mem_cons_self) hbooking⟩)
        fun o r ws' _ hx => ?_
      · obtain ⟨rfl, -⟩ := insertReminder_ok hx
        have hws' : ws ++ [.reminder b offset ⟨start - minutesMs offset, .scheduled, none⟩] ≠ [] := by simp
        have hstep := ih hsub' hnodup' hws' (by rw [Engine.apply_append]; exact hbooking)
          fun o ho => ?_
        · refine hstep.mono fun st g r h => ?_
          obtain ⟨hg, hr, ws', hst, hws'⟩ := h
          refine ⟨hg, hr, _, by rw [hst, List.append_assoc], fun w hw => ?_⟩
          rcases List.mem_append.mp hw with h | h
          · exact ⟨offset, hsub offset List.mem_cons_self, List.mem_singleton.mp h⟩
          · exact hws' w h
        · -- The row just inserted is at another offset.
          rw [Engine.apply_append]
          refine (lookup_reminder_write _ _ _ _).trans ?_
          rw [if_neg, hnone o (List.mem_cons_of_mem _ ho)]
          intro heq
          exact hoffset ((Prod.mk.inj heq).2 ▸ ho)
    · exact ih hsub' hnodup' hws hbooking fun o ho => hnone o (List.mem_cons_of_mem _ ho)

/-- The key of a booking, where it is unused. -/
theorem keeps_insertKey_calm (hsend : ∀ ws s, ws ≠ [] → c.send g₀ d ws s)
    (hcalm : ∀ env, c.env g₀ d env → Undisturbed d env) {clientId : ClientId}
    {key : Option String} {hash : JsonText} {b : BookingId} (hws : ws ≠ [])
    (hclient : cat.clients clientId = true)
    (hnone : ∀ k, truthy key = some k →
      ((chronos cat).apply ws d).idempotencyKeys.lookup (clientId, k) = none) :
    (insertIdempotencyKey clientId key hash b).Keeps (chronos cat) c
      (fun st g r => g = g₀ ∧ r = .ok () ∧ st = .inside d (ws ++ keyWrites clientId key hash b))
      (.inside d ws) g₀ := by
  unfold insertIdempotencyKey keyWrites
  cases hkey : truthy key with
  | none => exact keeps_ret.mpr ⟨rfl, rfl, by simp⟩
  | some text =>
    refine keeps_sure (hsend _ _ hws) hcalm
      (fun o _ => ⟨(), _, insertKey_sure (hnone text hkey) hclient⟩) fun o r ws' _ hx => ?_
    obtain ⟨rfl, -, -⟩ := insertKey_ok hx
    exact keeps_ret.mpr ⟨rfl, rfl, rfl⟩

/-- How a call ends when nothing fails: it has replayed a booking, or it was refused because
    its slot was not open, or it has committed its booking. -/
def CalmEnds (Seen Won : BookingId → γ → Prop) (Lost : γ → Prop) :
    γ → Except JsError Reply → Prop :=
  fun g r => (∃ id, Seen id g ∧ r = .ok (.created id true)) ∨
    (Lost g ∧ r = .ok (.refused 409 "slot_unavailable")) ∨
    ∃ id, Won id g ∧ r = .ok (.created id false)

variable {Seen Won : BookingId → γ → Prop} {Lost : γ → Prop} {minStart : Instant}

/-- What a call finds of its slot when its turn comes. -/
structure CalmTurn (cat : Catalog) (c : Contract Ask.Answer Stmt Database Write Nat JsError γ)
    (g₀ : γ) (req : BookingRequest) (now minStart : Instant) (Won : BookingId → γ → Prop)
    (Lost : γ → Prop) : Prop where
  calm : ∀ g d env, c.env g d env → Undisturbed d env
  sends : ∀ g d ws s, LocksFirst (chronos cat) (.slot req.slotId) d ws s → c.send g d ws s
  stays : ∀ d, c.know g₀ d → c.move g₀ d [] g₀
  bookable : ∀ d, c.know g₀ d → Bookable cat req now d
  minStart_eq : ∀ d, c.know g₀ d → minStart = now + hoursMs (req.noticeHours cat d)
  unused : ∀ d row key, c.know g₀ d → d.slots.lookup req.slotId = some row →
    row.status = .«open» → truthy req.idempotencyKey = some key →
    d.idempotencyKeys.lookup (req.clientId, key) = none
  wins : ∀ d row reminders id ws, c.know g₀ d →
    NewBooking cat req now minStart d row reminders id ws → c.Next g₀ d ws (Won id)
  loses : ∀ d row, c.know g₀ d → d.slots.lookup req.slotId = some row → row.status ≠ .«open» →
    c.adm (.bookSlot req.slotId now minStart) d → c.Next g₀ d [] Lost
  lost : StaysAt c Lost

theorem locksFirst_bookSlot {d : Database} :
    LocksFirst (chronos cat) (.slot req.slotId) d [] (.bookSlot req.slotId now minStart) := by
  refine Or.inr fun o r ws hx => ?_
  change (updateSlotWhere _ _ _ _).result = _ at hx
  change _ ∈ (updateSlotWhere _ _ _ _).locks ∨ (updateSlotWhere _ _ _ _).locks = [] ∧ _
  rcases updateSlotWhere_ok hx with ⟨rfl, rfl, hnone⟩ | ⟨row, -, -, -, -, hlocks⟩
  · refine Or.inr ⟨?_, rfl⟩
    unfold updateSlotWhere
    rw [hnone]
    rfl
  · exact Or.inl (by rw [hlocks]; exact List.mem_singleton_self _)

theorem keeps_bookSlot_calm (h : CalmTurn cat c g₀ req now minStart Won Lost) :
    (bookSlotInTransaction req now minStart false).Keeps (chronos cat) c
      (c.post (CalmEnds Seen Won Lost)) .free g₀ := by
  have hfault : ∀ {g d env e}, c.env g d env → env.fault ≠ some e := by
    intro g d env e he hf
    rw [(h.calm g d env he).1] at hf
    cases hf
  -- Nothing is thrown.
  refine Keeps.tryCatch (fun st g r => match r with
    | .ok r => c.post (CalmEnds Seen Won Lost) st g (.ok r)
    | .error _ => False) ?_ (fun _ _ _ h => h) fun _ _ _ h => h.elim
  refine ⟨fun d hk => ?_, fun d env e he _ hf => absurd hf (hfault he)⟩
  obtain ⟨⟨row, hrow, hpast, hnotice, hfree⟩, hfits, hclient, hforeign⟩ := h.bookable d hk
  have hupdate : ∀ o, ∃ r ws', (exec cat (.bookSlot req.slotId now minStart) o
      ((chronos cat).apply [] d)).result = .ok (r, ws') := by
    intro o
    simp only [exec, updateSlotWhere]
    split <;> exact ⟨_, _, rfl⟩
  refine keeps_sure (h.sends _ _ _ _ locksFirst_bookSlot) (h.calm g₀ d) (fun o _ => hupdate o)
    fun o slot ws₁ hadm hx => ?_
  simp only [andThen]
  rcases updateSlotWhere_ok hx with ⟨rfl, rfl, hnone⟩ | ⟨row', hrow', hp, rfl, rfl, -⟩
  · -- The slot is far enough ahead, so it is not open.
    have hclosed : row.status ≠ .«open» := by
      intro hopen
      rw [Engine.apply_nil, hrow, Option.filter_some, if_pos] at hnone
      · cases hnone
      · rw [decide_eq_true_eq, h.minStart_eq d hk]
        exact ⟨hopen, hpast, hnotice⟩
    have hlose := h.loses d row hk hrow hclosed hadm
    have hret : ∀ g, Lost g → (ret (Reply.refused 409 "slot_unavailable") : Program Reply).Keeps
        (chronos cat) c (fun st g r => match r with
          | .ok r => c.post (CalmEnds Seen Won Lost) st g (.ok r)
          | .error _ => False) .free g :=
      fun g hg => keeps_ret.mpr (Or.inr (Or.inl ⟨hg, rfl⟩))
    refine ⟨fun env he => ⟨fun _ => hlose.mono fun g hg => hret g hg,
      fun e hf => absurd hf (hfault he)⟩, hlose.mono fun g hg d' env he hk' => ?_⟩
    exact ⟨fun _ => (h.lost g d' hg hk').mono fun g' hg' => hret g' hg',
      fun e hf => absurd hf (hfault he)⟩
  · rw [Engine.apply_nil, hrow, Option.some.injEq] at hrow'
    subst hrow'
    have hopen : row.status = .«open» := (of_decide_eq_true hp).1
    have hsends : ∀ ws s, ws ≠ [] → c.send g₀ d ws s := fun ws s hws => h.sends _ _ _ _ (Or.inl hws)
    have hinsert : ∀ o, d.bookings.lookup o = none → (exec cat (.insertBooking req.booking) o
        ((chronos cat).apply ([] ++ [.slot req.slotId { row with status := .booked }]) d)).result =
          .ok (o, [.booking o req.booking]) := by
      intro o ho
      refine insertBooking_sure ho (fun i hi => ?_) ?_ hclient
      · exact hfree hopen i ((liveOn_of_bookings rfl _ _).mp hi)
      · change (((Write.slot req.slotId { row with status := .booked }).apply
          d).slots.lookup req.slotId).isSome
        rw [lookup_slot_write, if_pos rfl]
        rfl
    refine keeps_sure (hsends _ _ (by simp)) (h.calm g₀ d) (fun o ho => ⟨o, _, hinsert o ho⟩)
      fun b r ws₂ _ hx₂ => ?_
    obtain ⟨rfl, rfl, hfresh, -, -, -⟩ := insertBooking_ok hx₂
    refine (keeps_insertReminders_calm hsends (h.calm g₀ d) reminderOffsets (fun _ h => h)
      (by decide) (by simp) ?_ fun o _ => hforeign _ hfresh).bind ?_ ?_
    · change (((Write.booking r req.booking).apply _).bookings.lookup r).isSome
      rw [lookup_booking_write, if_pos rfl]
      rfl
    · rintro st g u ⟨rfl, -, reminders, rfl, hrem⟩
      refine (keeps_insertKey_calm hsends (h.calm g d) (by simp) hclient fun key hkey => ?_).bind
        ?_ ?_
      · -- Neither the slot nor the booking nor its reminders are in the key's table.
        rw [Engine.apply_append, (sameBut_apply hrem.onReminders).idempotencyKeys]
        exact h.unused d row key hk hrow hopen hkey
      · rintro st g' u ⟨rfl, -, rfl⟩
        refine ⟨?_, fun env e he hf => absurd hf (hfault he)⟩
        refine (h.wins d row reminders r _ hk ⟨hrow, hopen, hpast, ?_, hfresh, hfree hopen,
          hclient, fun key hkey => h.unused d row key hk hrow hopen hkey, hrem, by simp⟩).mono
            fun g' hwon => ?_
        · rw [h.minStart_eq d hk]
          exact hnotice
        · exact keeps_ret.mpr (Or.inr (Or.inr ⟨r, hwon, rfl⟩))
      · rintro st g' e ⟨-, hr, -⟩
        cases hr
    · rintro st g e ⟨-, hr, -⟩
      cases hr

/-- **A call when nothing fails.** -/
theorem keeps_createBooking_calm {d₀ : Database} (hsame : ∀ d, c.know g₀ d → SameProviders d₀ d)
    (hfits : ∀ e, req.eventTypeId = some e → EventTypeFits cat e req.slotId d₀)
    (hseen : ∀ d row key, c.know g₀ d → truthy req.idempotencyKey = some key →
      d.idempotencyKeys.lookup (req.clientId, key) = some row →
      row.requestHash = req.json ∧ c.Next g₀ d [] (Seen row.responseBody))
    (h : CalmTurn cat c g₀ req now (now + hoursMs (req.noticeHours cat d₀)) Won Lost) :
    (createBooking req (some now) false).Keeps (chronos cat) c
      (c.post (CalmEnds Seen Won Lost)) .free g₀ := by
  have hcalm : ∀ d env, c.env g₀ d env → env.fault = none := fun d env he => (h.calm g₀ d env he).1
  have hturn : (bookSlotInTransaction req now (now + hoursMs (req.noticeHours cat d₀)) false).Keeps
      (chronos cat) c (c.post (CalmEnds Seen Won Lost)) .free g₀ := keeps_bookSlot_calm h
  have hanswers : (configuredNoticeHours req).Answers (chronos cat) (SameProviders d₀)
      (req.noticeHours cat d₀) := answers_configuredNoticeHours
  refine (hanswers.keeps
    (Q := Reading g₀ (· = .ok (req.noticeHours cat d₀))) hsame h.stays hcalm ⟨rfl, rfl, rfl⟩).bind
      ?_ fun st g e h => nomatch h.2.2
  rintro st g hours ⟨rfl, rfl, hhours⟩
  obtain rfl := Except.ok.inj hhours
  refine ((answers_validateEventType hfits).keeps (Q := Reading g (· = .ok none)) hsame h.stays
    hcalm ⟨rfl, rfl, rfl⟩).bind ?_ fun st g e h => nomatch h.2.2
  rintro st g refusal ⟨rfl, rfl, hrefusal⟩
  obtain rfl := Except.ok.inj hrefusal
  -- The idempotency check answers itself, or lets the call go on.
  refine Keeps.bind (Q := fun st g' r => st = .free ∧ ((g' = g ∧ r = .ok none) ∨
    ∃ id, Seen id g' ∧ r = .ok (some (.created id true)))) ?_ ?_ ?_
  · unfold checkIdempotencyKey
    cases hkey : truthy req.idempotencyKey with
    | none => exact keeps_ret.mpr ⟨rfl, Or.inl ⟨rfl, rfl⟩⟩
    | some key =>
      refine fun d env he hk => ⟨fun e hf => ?_, fun _ => ⟨fun r ws hx => ?_, fun e hx => ?_⟩⟩
      · rw [hcalm d env he] at hf
        cases hf
      · change (exec cat (.selectKey req.clientId key) env.fresh d).result = _ at hx
        obtain ⟨rfl, rfl⟩ := read_ok hx
        cases hrow : d.idempotencyKeys.lookup (req.clientId, key) with
        | none => exact ⟨g, h.stays d hk, keeps_ret.mpr ⟨rfl, Or.inl ⟨rfl, rfl⟩⟩⟩
        | some row =>
          obtain ⟨hhash, hnext⟩ := hseen d row key hk hkey hrow
          refine hnext.mono fun g' hg' => ?_
          simp only [andThen]
          rw [if_neg (not_not.mpr hhash)]
          exact keeps_ret.mpr ⟨rfl, Or.inr ⟨_, hg', rfl⟩⟩
      · cases hx
  · rintro st g' answer ⟨rfl, ⟨rfl, hanswer⟩ | ⟨id, hg', hanswer⟩⟩
    · obtain rfl := Except.ok.inj hanswer
      exact hturn
    · obtain rfl := Except.ok.inj hanswer
      exact keeps_ret.mpr (Or.inl ⟨id, hg', rfl⟩)
  · rintro st g' e ⟨-, ⟨-, hr⟩ | ⟨_, -, hr⟩⟩ <;> cases hr

end Calm

/-! ### Calls come to an end -/

section Progress

variable {req : BookingRequest} {now minStart : Instant}

theorem endsWithin_insertReminders {b : BookingId} {start : Instant} (offsets : List Nat) :
    (insertReminders b start offsets).EndsWithin (2 * offsets.length) := by
  induction offsets with
  | nil => trivial
  | cons offset offsets ih =>
    rw [show 2 * (offset :: offsets).length = 2 * offsets.length + 1 + 1 from rfl]
    intro nowMs
    simp only [andThen]
    split
    · exact ⟨fun _ => ih, fun _ => trivial⟩
    · exact ih.mono (by omega)

theorem endsWithin_createBooking : (createBooking req (some now) false).EndsWithin 15 := by
  -- Two queries, two queries and one query.
  have hnotice : (configuredNoticeHours req).EndsWithin (2 + 0) := by
    refine EndsWithin.tryCatch ⟨fun slotRes => ?_, fun _ => trivial⟩ fun _ => trivial
    simp only [andThen]
    split
    · trivial
    · exact ⟨fun _ => trivial, fun _ => trivial⟩
  have hevent : (validateEventType req).EndsWithin (2 + 0) := by
    unfold validateEventType
    split
    · trivial
    · refine EndsWithin.tryCatch ⟨fun et => ?_, fun _ => trivial⟩ fun _ => trivial
      simp only [andThen]
      split
      · trivial
      · refine ⟨fun slotRes => ?_, fun _ => trivial⟩
        simp only [andThen]
        split <;> trivial
  have hkey : (checkIdempotencyKey req).EndsWithin 1 := by
    unfold checkIdempotencyKey
    split
    · trivial
    · refine ⟨fun row => ?_, fun _ => trivial⟩
      simp only [andThen]
      split
      · trivial
      · split <;> trivial
  -- Six statements, `ROLLBACK` included, and at most two moves for each offset.
  have htransaction : ∀ minStart,
      (bookSlotInTransaction req now minStart false).EndsWithin (9 + 1) := by
    intro minStart
    refine EndsWithin.tryCatch ⟨?_, fun _ => trivial⟩ fun e => ⟨trivial, fun _ => trivial⟩
    refine ⟨fun slot => ?_, fun _ => trivial⟩
    simp only [andThen]
    split
    · exact ⟨trivial, fun _ => trivial⟩
    · refine ⟨fun b => ?_, fun _ => trivial⟩
      refine (endsWithin_insertReminders reminderOffsets).bind (m := 2) fun _ => ?_
      refine EndsWithin.bind (n := 1) (m := 1) ?_ fun _ => ?_
      · unfold insertIdempotencyKey
        split
        · trivial
        · exact ⟨fun _ => trivial, fun _ => trivial⟩
      · exact ⟨trivial, fun _ => trivial⟩
  refine hnotice.bind (m := 13) fun hours => hevent.bind (m := 11) fun refusal => ?_
  cases refusal with
  | some refusal => trivial
  | none =>
    refine hkey.bind (m := 10) fun answer => ?_
    cases answer with
    | some answer => trivial
    | none => exact htransaction _

/-- Inside the transaction, reminders and key. -/
theorem leaves_insertReminders {b : BookingId} {start : Instant} (offsets : List Nat) :
    (insertReminders b start offsets).Leaves (fun b _ => b = true) true := by
  induction offsets with
  | nil => exact leaves_ret.mpr rfl
  | cons offset offsets ih =>
    intro nowMs
    simp only [andThen]
    split
    · exact ⟨fun _ => ih, fun _ => leaves_throw.mpr rfl⟩
    · exact ih

/-- The `catch` block leaves the transaction that the error has aborted. -/
theorem leaves_rollbackQuietly {α : Type} {b : Bool} {r : Except JsError α} :
    (rollbackQuietly.bind fun _ => ofExcept r).Leaves Prog.Left b := by
  cases b <;> cases r <;> exact rfl

theorem leaves_createBooking : (createBooking req (some now) false).Leaves Prog.Left false := by
  have htransaction : ∀ minStart,
      (bookSlotInTransaction req now minStart false).Leaves Prog.Left false := by
    intro minStart
    -- Whatever is thrown inside, the `catch` block takes over.
    refine Leaves.andThen (T := fun b r => ∀ a, r = .ok a → b = false) ?_
      (fun b a h => leaves_ret.mpr (h a rfl)) fun b e _ => leaves_rollbackQuietly (r := .ok _)
    refine ⟨fun slot => ?_, fun e => leaves_throw.mpr fun _ h => nomatch h⟩
    simp only [andThen]
    split
    · exact fun _ _ => rfl
    · refine ⟨fun b => ?_, fun e => leaves_throw.mpr fun _ h => nomatch h⟩
      refine (leaves_insertReminders reminderOffsets).andThen ?_
        fun b e _ => leaves_throw.mpr fun _ h => nomatch h
      rintro _ u rfl
      refine Leaves.andThen (T := fun b _ => b = true) ?_ ?_
        fun b e _ => leaves_throw.mpr fun _ h => nomatch h
      · unfold insertIdempotencyKey
        split
        · exact leaves_ret.mpr rfl
        · exact ⟨fun _ => leaves_ret.mpr rfl, fun _ => leaves_throw.mpr rfl⟩
      · rintro _ u rfl
        exact fun _ _ => rfl
  refine (talks_configuredNoticeHours req).leaves.andThen ?_ fun b e h => leaves_throw.mpr h
  rintro _ hours rfl
  refine (talks_validateEventType req).leaves.andThen ?_ fun b e h => leaves_throw.mpr h
  rintro _ refusal rfl
  cases refusal with
  | some refusal => exact leaves_ret.mpr rfl
  | none =>
    refine (talks_checkIdempotencyKey req).leaves.andThen ?_ fun b e h => leaves_throw.mpr h
    rintro _ answer rfl
    cases answer with
    | some answer => exact leaves_ret.mpr rfl
    | none => exact htransaction _

end Progress

end Chronos
