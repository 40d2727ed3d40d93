import Chronos.Isolation

namespace Chronos

/-!
# `AppointmentsController`

The second way to read `bookings`: `GET /appointments`, the latest bookings by pages of fifty, and
`GET /appointments/:id`, one booking with its slot and its client.  Neither asks who is calling.

A request tells two databases apart that hold the same rows of the caller, unless Prisma refuses
it whatever the database holds (`appointments_alike_iff`).
-/

/-! ### The tables -/

/-- A row of `clients`. -/
structure ClientRow where
  name : Option String
  email : String
  deriving DecidableEq

/-- The tables an appointment is joined from. -/
structure AppointmentTables extends Tables where
  clients : AList fun _ : ClientId => ClientRow

/-- A booking with what `include: { slot: true, client: true }` joins to it. -/
structure AppointmentRecord where
  id : BookingId
  booking : Booking
  createdAt : Instant
  slot : Option Slot
  client : Option ClientRow
  deriving DecidableEq

def AppointmentTables.join (t : AppointmentTables) (id : BookingId) (b : Booking) :
    AppointmentRecord where
  id := id
  booking := b
  createdAt := t.createdAt id
  slot := t.db.slots.lookup b.slotId
  client := t.clients.lookup b.clientId

/-- The record of a booking. -/
def AppointmentTables.record (t : AppointmentTables) (id : BookingId) : Option AppointmentRecord :=
  (t.db.bookings.lookup id).map (t.join id)

/-- What PostgreSQL can hold: every booking has a slot and a client, no slot two live bookings. -/
structure AppointmentTables.Valid (t : AppointmentTables) : Prop where
  slot : ∀ id b, t.db.bookings.lookup id = some b → (t.db.slots.lookup b.slotId).isSome
  client : ∀ id b, t.db.bookings.lookup id = some b → (t.clients.lookup b.clientId).isSome
  oneLive : t.db.OneLive

/-! ### The query -/

/-- A parameter of the query string; one that is given more than once is an array. -/
inductive QueryValue
  | text (s : String)
  | texts (ss : List String)

/-- The value as a condition and as an operand: the empty text counts as no value. -/
def QueryValue.truthy : Option QueryValue → Option QueryValue
  | some (.text "") => none
  | value => value

/-- `String(value)`. -/
def QueryValue.toText : QueryValue → String
  | .text s => s
  | .texts ss => ",".intercalate ss

/-- White space and line ends that `parseInt` skips and that a query can hold. -/
def isQuerySpace (c : Char) : Bool :=
  isJsSpace c || c.val == 0x1680 || (decide (0x2000 ≤ c.val) && decide (c.val ≤ 0x200A)) ||
    c.val == 0x2028 || c.val == 0x2029 || c.val == 0x202F || c.val == 0x205F || c.val == 0x3000

def hexDigit? (c : Char) : Option Nat :=
  if c.isDigit then some (c.toNat - '0'.toNat)
  else if 'a' ≤ c ∧ c ≤ 'f' then some (c.toNat - 'a'.toNat + 10)
  else if 'A' ≤ c ∧ c ≤ 'F' then some (c.toNat - 'A'.toNat + 10)
  else none

/-- The number the hexadecimal digits at the front stand for, if there is one. -/
def parseHexDigits (cs : List Char) : Option Nat :=
  match (cs.map hexDigit?).takeWhile Option.isSome with
  | [] => none
  | digits => some (digits.foldl (fun n digit => 16 * n + digit.getD 0) 0)

/-- The digits behind the sign, to base 16 after `0x`. -/
def parseUnsigned : List Char → Option Nat
  | '0' :: 'x' :: cs => parseHexDigits cs
  | '0' :: 'X' :: cs => parseHexDigits cs
  | cs => parseDigits cs

/-- `parseInt(text)`, without a base; `none` is `NaN`. -/
def parseIntAnyBase (text : String) : Option Int :=
  match text.toList.dropWhile isQuerySpace with
  | '-' :: cs => (parseUnsigned cs).map fun n => -(n : Int)
  | '+' :: cs => (parseUnsigned cs).map fun n => (n : Int)
  | cs => (parseUnsigned cs).map fun n => (n : Int)

structure AppointmentsQuery where
  status : Option QueryValue
  page : Option QueryValue

/-- `if (q?.status) where.status = q.status`, as Prisma reads it: the statuses it selects, unless
    the value is none of the enumeration's. -/
def AppointmentsQuery.selects (q : AppointmentsQuery) : Option (BookingStatus → Bool) :=
  match QueryValue.truthy q.status with
  | none => some fun _ => true
  | some (.text s) => (BookingStatus.ofText? s).map fun status other => decide (other = status)
  | some (.texts _) => none

/-- `q?.page ? (parseInt(q.page) - 1) * 50 : 0`. -/
def AppointmentsQuery.skip (q : AppointmentsQuery) : Option Int :=
  match QueryValue.truthy q.page with
  | none => some 0
  | some page => (parseIntAnyBase page.toText).map fun n => (n - 1) * 50

/-! ### The endpoints -/

/-- An appointment in the list. -/
structure Appointment where
  id : BookingId
  status : BookingStatus
  version : Int
  slotStartUtc : Option Instant
  clientName : Option String
  deriving DecidableEq

/-- `b.client?.name || b.client?.email`. -/
def AppointmentRecord.clientName (r : AppointmentRecord) : Option String :=
  r.client.map fun c => (Chronos.truthy c.name).getD c.email

def AppointmentRecord.appointment (r : AppointmentRecord) : Appointment where
  id := r.id
  status := r.booking.status
  version := r.booking.version
  slotStartUtc := r.slot.map Slot.slotStartUtc
  clientName := r.clientName

inductive AppointmentsRequest
  | list (q : AppointmentsQuery)
  | get (id : BookingId)

inductive AppointmentsResponse
  /-- Prisma throws, and the server answers `500`. -/
  | failed
  | appointments (as : List Appointment)
  | appointment (r : AppointmentRecord)
  /-- `{ status: 404 }`. -/
  | missing
  deriving DecidableEq

section Endpoints

/- How many rows Prisma skips for a number (`none` is `NaN`), unless it refuses the number. -/
variable (prismaSkip : Option Int → Option Nat)

/-- `prisma.booking.findMany` with `orderBy: { createdAt: 'desc' }` and `take: 50`. -/
def findMany (t : AppointmentTables) (selects : BookingStatus → Bool) (skip : Nat) :
    List AppointmentRecord :=
  let rows := (t.db.bookings.entries.map fun e => t.join e.1 e.2).filter fun r =>
    selects r.booking.status
  ((rows.mergeSort fun a b => decide (b.createdAt ≤ a.createdAt)).drop skip).take 50

/-- `GET /appointments`. -/
def listAppointments (t : AppointmentTables) (q : AppointmentsQuery) : AppointmentsResponse :=
  match q.selects, prismaSkip q.skip with
  | some selects, some skip =>
      .appointments ((findMany t selects skip).map AppointmentRecord.appointment)
  | _, _ => .failed

/-- `GET /appointments/:id`. -/
def getAppointment (t : AppointmentTables) (id : BookingId) : AppointmentsResponse :=
  match t.record id with
  | none => .missing
  | some r => .appointment r

/-- The response to a request, whatever cookie it comes with. -/
def AppointmentsRequest.respond (req : AppointmentsRequest) (_cookie : Option String)
    (t : AppointmentTables) : AppointmentsResponse :=
  match req with
  | .list q => listAppointments prismaSkip t q
  | .get id => getAppointment t id

/-- Prisma refuses the request before it reads a row. -/
def AppointmentsRequest.Refused : AppointmentsRequest → Prop
  | .list q => q.selects = none ∨ prismaSkip q.skip = none
  | .get _ => False

end Endpoints

/-! ### Callers -/

/-- Whom a session cookie stands for. -/
inductive Caller
  | nobody
  | client (id : ClientId)
  | provider (id : ProviderId)
  deriving DecidableEq

/-- A record belongs to the client who booked, and to the provider of the booking or its slot. -/
def Caller.Owns : Caller → AppointmentRecord → Prop
  | .nobody, _ => False
  | .client c, r => r.booking.clientId = c
  | .provider p, r => r.booking.providerId = some p ∨ r.slot.map Slot.providerId = some p

/-- The two sets of tables have the same rows of the caller: the bookings with what is joined to
    them, and the caller's own row or slots. -/
structure Caller.Agree (caller : Caller) (t₁ t₂ : AppointmentTables) : Prop where
  records : ∀ r, caller.Owns r → (t₁.record r.id = some r ↔ t₂.record r.id = some r)
  client : ∀ c, caller = .client c → t₁.clients.lookup c = t₂.clients.lookup c
  slots : ∀ p, caller = .provider p → ∀ id s, s.providerId = p →
    (t₁.db.slots.lookup id = some s ↔ t₂.db.slots.lookup id = some s)

/-! ### Strangers -/

/-- A client and a provider the caller is not. -/
def Caller.stranger : Caller → ℕ
  | .nobody => 0
  | .client c => c + 1
  | .provider p => p + 1

/-- A table with the rows `0` to `n - 1`. -/
def tabulate {ρ : Type} (n : ℕ) (f : ℕ → ρ) : AList fun _ : ℕ => ρ where
  entries := (List.range n).map fun i => ⟨i, f i⟩
  nodupKeys := by
    have hkeys : ((List.range n).map fun i => (⟨i, f i⟩ : (_ : ℕ) × ρ)).keys = List.range n := by
      simp [List.keys, Function.comp_def]
    rw [List.NodupKeys, hkeys]
    exact List.nodup_range

theorem lookup_tabulate {ρ : Type} {n : ℕ} {f : ℕ → ρ} {i : ℕ} {row : ρ} :
    (tabulate n f).lookup i = some row ↔ i < n ∧ row = f i := by
  rw [← Option.mem_def, AList.mem_lookup_iff]
  simp only [tabulate, List.mem_map, List.mem_range]
  constructor
  · rintro ⟨k, hk, heq⟩
    cases heq
    exact ⟨hk, rfl⟩
  · rintro ⟨hi, rfl⟩
    exact ⟨i, hi, rfl⟩

/-- Client and provider `stranger` have `bookings` bookings with one status, on `slots` slots. -/
def strangersTables (stranger slots bookings : ℕ) (status : BookingStatus) : AppointmentTables where
  db :=
    { slots := tabulate slots fun i => ⟨stranger, i, i + 1, .booked⟩
      bookings := tabulate bookings fun i => ⟨i, stranger, "UTC", none, none, status, 1, none, none⟩
      reminderJobs := ∅
      idempotencyKeys := ∅ }
  createdAt := fun _ => 0
  clients := tabulate (stranger + 1) fun _ => ⟨some "Stranger", "stranger@example.com"⟩

section Strangers

variable {stranger slots bookings : ℕ} {status : BookingStatus}

theorem valid_strangersTables (h : bookings ≤ slots) :
    (strangersTables stranger slots bookings status).Valid := by
  have hrow : ∀ id b, (strangersTables stranger slots bookings status).db.bookings.lookup id = some b →
      id < bookings ∧ b = ⟨id, stranger, "UTC", none, none, status, 1, none, none⟩ :=
    fun id b hb => lookup_tabulate.mp hb
  refine ⟨fun id b hb => ?_, fun id b hb => ?_, fun s i j hi hj => ?_⟩
  · obtain ⟨hid, rfl⟩ := hrow id b hb
    exact Option.isSome_iff_exists.mpr ⟨_, lookup_tabulate.mpr ⟨lt_of_lt_of_le hid h, rfl⟩⟩
  · obtain ⟨-, rfl⟩ := hrow id b hb
    exact Option.isSome_iff_exists.mpr ⟨_, lookup_tabulate.mpr ⟨Nat.lt_succ_self stranger, rfl⟩⟩
  · obtain ⟨b, hb, -, rfl⟩ := hi
    obtain ⟨b', hb', -, hslot⟩ := hj
    obtain ⟨-, rfl⟩ := hrow i b hb
    obtain ⟨-, rfl⟩ := hrow j b' hb'
    exact hslot.symm

/-- A caller has no row among the strangers'. -/
theorem agree_strangersTables (caller : Caller) (slots bookings bookings' : ℕ)
    (status : BookingStatus) : caller.Agree (strangersTables caller.stranger slots bookings status)
      (strangersTables caller.stranger slots bookings' status) := by
  have hforeign : ∀ n st id r,
      (strangersTables caller.stranger slots n st).record id = some r → ¬ caller.Owns r := by
    intro n st id r hr howns
    obtain ⟨b, hb, rfl⟩ := Option.map_eq_some_iff.mp hr
    obtain ⟨-, rfl⟩ := lookup_tabulate.mp hb
    cases caller with
    | nobody => exact howns
    | client c => exact absurd howns (Nat.succ_ne_self c)
    | provider p =>
      rcases howns with hprovider | hslot
      · cases hprovider
      · obtain ⟨s, hs, hp⟩ := Option.map_eq_some_iff.mp hslot
        obtain ⟨-, rfl⟩ := lookup_tabulate.mp hs
        exact absurd hp (Nat.succ_ne_self p)
  exact ⟨fun r howns => ⟨fun hr => absurd howns (hforeign _ _ _ r hr),
    fun hr => absurd howns (hforeign _ _ _ r hr)⟩, fun _ _ => rfl, fun _ _ _ _ _ => Iff.rfl⟩

/-- Every row of the strangers is found, if their status is asked for. -/
theorem length_findMany_strangers {selects : BookingStatus → Bool} (hselects : selects status = true)
    (skip : ℕ) : (findMany (strangersTables stranger slots bookings status) selects skip).length =
      min 50 (bookings - skip) := by
  have hall : ((strangersTables stranger slots bookings status).db.bookings.entries.map fun e =>
      (strangersTables stranger slots bookings status).join e.1 e.2).filter
        (fun r => selects r.booking.status) =
      (strangersTables stranger slots bookings status).db.bookings.entries.map fun e =>
        (strangersTables stranger slots bookings status).join e.1 e.2 := by
    refine List.filter_eq_self.mpr fun r hr => ?_
    obtain ⟨e, he, rfl⟩ := List.mem_map.mp hr
    obtain ⟨i, -, rfl⟩ := List.mem_map.mp he
    exact hselects
  unfold findMany
  dsimp only
  rw [hall, List.length_take, List.length_drop, List.length_mergeSort, List.length_map]
  simp [strangersTables, tabulate]

end Strangers

/-! ### What a request reveals -/

/-- A filter that Prisma takes is for some status. -/
theorem AppointmentsQuery.exists_selected {q : AppointmentsQuery} {selects : BookingStatus → Bool}
    (h : q.selects = some selects) : ∃ status, selects status = true := by
  unfold AppointmentsQuery.selects at h
  split at h
  · cases h
    exact ⟨.booked, rfl⟩
  · obtain ⟨status, -, rfl⟩ := Option.map_eq_some_iff.mp h
    exact ⟨status, decide_eq_true rfl⟩
  · cases h

/-- **Disclosure.**  With whatever cookie, a request is answered alike over all tables that agree on
    the rows of the cookie's owner exactly if Prisma refuses it. -/
theorem appointments_alike_iff (prismaSkip : Option Int → Option Nat)
    (authenticate : Option String → Caller) (cookie : Option String) (req : AppointmentsRequest) :
    (∀ t₁ t₂ : AppointmentTables, t₁.Valid → t₂.Valid → (authenticate cookie).Agree t₁ t₂ →
      req.respond prismaSkip cookie t₁ = req.respond prismaSkip cookie t₂) ↔
      req.Refused prismaSkip := by
  constructor
  · intro halike
    by_contra hserved
    cases req with
    | list q =>
      -- One booking more than Prisma skips, against none at all.
      have hselects : q.selects ≠ none := fun h => hserved (.inl h)
      have hskip : prismaSkip q.skip ≠ none := fun h => hserved (.inr h)
      obtain ⟨selects, hselects⟩ := Option.ne_none_iff_exists'.mp hselects
      obtain ⟨skip, hskip⟩ := Option.ne_none_iff_exists'.mp hskip
      obtain ⟨status, hstatus⟩ := AppointmentsQuery.exists_selected hselects
      have hsame := halike _ _ (valid_strangersTables (Nat.le_refl (skip + 1)))
        (valid_strangersTables (Nat.zero_le (skip + 1)))
        (agree_strangersTables (authenticate cookie) (skip + 1) (skip + 1) 0 status)
      simp only [AppointmentsRequest.respond, listAppointments, hselects, hskip] at hsame
      have hlength := congrArg List.length (AppointmentsResponse.appointments.inj hsame)
      rw [List.length_map, List.length_map, length_findMany_strangers hstatus,
        length_findMany_strangers hstatus] at hlength
      omega
    | get id =>
      have hsame := halike _ _ (valid_strangersTables (Nat.le_refl (id + 1)))
        (valid_strangersTables (Nat.zero_le (id + 1)))
        (agree_strangersTables (authenticate cookie) (id + 1) (id + 1) 0 .booked)
      have hsome : (strangersTables (authenticate cookie).stranger (id + 1) (id + 1) .booked).db.bookings.lookup
          id = some _ := lookup_tabulate.mpr ⟨Nat.lt_succ_self id, rfl⟩
      have hnone : (strangersTables (authenticate cookie).stranger (id + 1) 0 .booked).db.bookings.lookup
          id = none := rfl
      simp only [AppointmentsRequest.respond, getAppointment, AppointmentTables.record, hsome, hnone,
        Option.map_some, Option.map_none] at hsame
      cases hsame
  · intro hrefused t₁ t₂ _ _ _
    cases req with
    | list q =>
      have hfailed : ∀ t, listAppointments prismaSkip t q = .failed := fun t => by
        unfold listAppointments
        rcases hrefused with h | h
        · rw [h]
        · rw [h]
          cases q.selects <;> rfl
      exact (hfailed t₁).trans (hfailed t₂).symm
    | get id => exact hrefused.elim

/-- What Prisma makes of the numbers it is given here: a count must not be negative. -/
def sampleSkip (n : Option Int) : Option Nat :=
  n.bind fun i => if 0 ≤ i then some i.toNat else none

/-- `GET /appointments` without a cookie tells a table without bookings from one with a booking. -/
theorem appointments_reveal : ¬ ∀ t₁ t₂ : AppointmentTables, t₁.Valid → t₂.Valid →
    Caller.nobody.Agree t₁ t₂ →
    (AppointmentsRequest.list ⟨none, none⟩).respond sampleSkip none t₁ =
      (AppointmentsRequest.list ⟨none, none⟩).respond sampleSkip none t₂ := by
  intro halike
  have hsame := halike _ _ (valid_strangersTables (Nat.le_refl 1)) (valid_strangersTables (Nat.zero_le 1))
    (agree_strangersTables .nobody 1 1 0 .booked)
  have hlength := congrArg List.length (AppointmentsResponse.appointments.inj hsame)
  rw [List.length_map, List.length_map, length_findMany_strangers rfl,
    length_findMany_strangers rfl] at hlength
  cases hlength

end Chronos
