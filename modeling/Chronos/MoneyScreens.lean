import Chronos.Schema
import Mathlib.Algebra.BigOperators.Group.List.Basic
import Mathlib.Algebra.Order.Group.Unbundled.Int
import Mathlib.Algebra.Ring.Rat

namespace Chronos

/-!
# The money screens

Three controllers count the completed bookings of a provider, and two of them add up prices.

* `getBilling`, `getReports`, `getAnalytics` — their figures.
* `FindMany`, `FindLatest` — the rows a query may answer with: a limit leaves some of them out.
* `completedBookings_eq_iff`, `completedCount_eq_iff`, `totals_add_up_iff` — which figure is right
  when.
* `moneyAgrees_iff` — all figures agree only where nothing is completed, and nothing that is read is
  booked.
-/

/-! ### Rows -/

/-- A row of `bookings`, with the provider of its slot. -/
structure BookingRecord where
  id : BookingId
  slotProvider : ProviderId
  eventTypeId : Option EventTypeId
  status : BookingStatus
  createdAt : Instant
  deriving DecidableEq

/-- A row of `event_types`. -/
structure PricedEventType where
  id : EventTypeId
  price : Option ℚ

structure MoneyTables where
  bookings : List BookingRecord
  eventTypes : List PricedEventType
  bookings_nodup : (bookings.map BookingRecord.id).Nodup
  eventTypes_nodup : (eventTypes.map PricedEventType.id).Nodup

/-- `{ slot: { providerId } }`. -/
def ofProvider (provider : ProviderId) (b : BookingRecord) : Bool := decide (b.slotProvider = provider)

/-- `{ slot: { providerId }, status }`. -/
def ofProviderWith (provider : ProviderId) (status : BookingStatus) (b : BookingRecord) : Bool :=
  ofProvider provider b && decide (b.status = status)

/-- `findMany({ where, take })`: nothing says in which order the rows are found. -/
def FindMany («where» : BookingRecord → Bool) (take : Nat) (table rows : List BookingRecord) : Prop :=
  ∃ found : List BookingRecord, found.Perm (table.filter «where») ∧ rows = found.take take

/-- `findMany({ where, orderBy: { createdAt: 'desc' }, take })`. -/
def FindLatest («where» : BookingRecord → Bool) (take : Nat) (table rows : List BookingRecord) : Prop :=
  ∃ found : List BookingRecord, found.Perm (table.filter «where») ∧
    found.Pairwise (fun a b => b.createdAt ≤ a.createdAt) ∧ rows = found.take take

/-! ### The controllers -/

section Controllers

variable (t : MoneyTables) (provider : ProviderId)

/-- `revenue` of `GET /billing`. -/
structure BillingRevenue where
  estimatedRevenue : ℚ
  completedBookings : Nat

/-- The query for completed bookings of `BillingController.getBilling`. -/
def BillingQuery (rows : List BookingRecord) : Prop :=
  FindMany (ofProviderWith provider .completed) 50 t.bookings rows

/-- `eventTypesById`. -/
def eventTypesById (eventTypeIds : List EventTypeId) : List PricedEventType :=
  if eventTypeIds.length > 0 then t.eventTypes.filter fun e => decide (e.id ∈ eventTypeIds) else []

/-- `eventTypes.get(id)?.price ?? 0`. -/
def priceIn (eventTypes : List PricedEventType) (id : EventTypeId) : ℚ :=
  ((eventTypes.find? fun e => decide (e.id = id)).bind PricedEventType.price).getD 0

/-- `BillingController.getBilling`, of the rows its query answers with. -/
def getBilling (completedBookings : List BookingRecord) : BillingRevenue :=
  let eventTypes := eventTypesById t (completedBookings.filterMap BookingRecord.eventTypeId)
  { estimatedRevenue := completedBookings.foldl (fun sum b =>
      sum + b.eventTypeId.elim 0 (priceIn eventTypes)) 0
    completedBookings := completedBookings.length }

/-- The figures of `GET /reports`. -/
structure ReportTotals where
  totalRevenue : ℚ
  completedCount : Nat
  count : Nat

/-- The query of `ReportsController.getReports`, without dates. -/
def ReportsQuery (rows : List BookingRecord) : Prop := FindLatest (ofProvider provider) 500 t.bookings rows

/-- The price of the event type that is included with a booking. -/
def includedPrice (b : BookingRecord) : ℚ := b.eventTypeId.elim 0 (priceIn t.eventTypes)

/-- `ReportsController.getReports`, of the rows its query answers with. -/
def getReports (bookings : List BookingRecord) : ReportTotals :=
  let completed := bookings.filter fun b => decide (b.status = .completed) || decide (b.status = .booked)
  { totalRevenue := completed.foldl (fun s b => s + includedPrice t b) 0
    completedCount := completed.length
    count := bookings.length }

/-- `totals` of `GET /analytics`. -/
structure AnalyticsTotals where
  total : Int
  completed : Int
  cancelled : Int
  noShow : Int
  booked : Int

/-- `AnalyticsController.getAnalytics`, without dates. -/
def getAnalytics : AnalyticsTotals :=
  let total : Int := t.bookings.countP (ofProvider provider)
  let completed : Int := t.bookings.countP (ofProviderWith provider .completed)
  let cancelled : Int := t.bookings.countP (ofProviderWith provider .cancelled)
  let noShow : Int := t.bookings.countP (ofProviderWith provider .noShow)
  { total := total
    completed := completed
    cancelled := cancelled
    noShow := noShow
    booked := total - cancelled - noShow }

/-! ### What they should say -/

/-- The completed bookings of a provider. -/
def completedOf : List BookingRecord := t.bookings.filter (ofProviderWith provider .completed)

/-- **The money screens agree**, given what the two queries answered. -/
structure MoneyAgrees (billingRows reportRows : List BookingRecord) : Prop where
  billingCount : (getBilling t billingRows).completedBookings = (completedOf t provider).length
  reportsCount : (getReports t reportRows).completedCount = (completedOf t provider).length
  analyticsCount : (getAnalytics t provider).completed = (completedOf t provider).length
  billingRevenue : (getBilling t billingRows).estimatedRevenue =
    ((completedOf t provider).map (includedPrice t)).sum
  reportsRevenue : (getReports t reportRows).totalRevenue =
    ((completedOf t provider).map (includedPrice t)).sum
  totals : (getAnalytics t provider).booked + (getAnalytics t provider).completed +
    (getAnalytics t provider).cancelled + (getAnalytics t provider).noShow =
      (getAnalytics t provider).total

end Controllers

/-! ### The figures -/

section Figures

variable {t : MoneyTables} {provider : ProviderId} {billingRows reportRows rows table : List BookingRecord}
variable {«where» : BookingRecord → Bool} {take : Nat}

theorem length_findMany (h : FindMany «where» take table rows) :
    rows.length = min take (table.filter «where»).length := by
  obtain ⟨found, hperm, rfl⟩ := h
  rw [List.length_take, hperm.length_eq]

/-- Where the limit leaves nothing out, all rows are found. -/
theorem perm_of_findMany (h : FindMany «where» take table rows)
    (hle : (table.filter «where»).length ≤ take) : rows.Perm (table.filter «where») := by
  obtain ⟨found, hperm, rfl⟩ := h
  rw [List.take_of_length_le (hperm.length_eq.trans_le hle)]
  exact hperm

theorem findMany_of_findLatest (h : FindLatest «where» take table rows) :
    FindMany «where» take table rows := by
  obtain ⟨found, hperm, -, hrows⟩ := h
  exact ⟨found, hperm, hrows⟩

theorem mem_of_findMany (h : FindMany «where» take table rows) {b : BookingRecord} (hb : b ∈ rows) :
    b ∈ table ∧ «where» b = true := by
  obtain ⟨found, hperm, rfl⟩ := h
  exact List.mem_filter.mp (hperm.mem_iff.mp (List.mem_of_mem_take hb))

theorem foldl_add_eq (f : BookingRecord → ℚ) (rows : List BookingRecord) (start : ℚ) :
    rows.foldl (fun sum b => sum + f b) start = start + (rows.map f).sum := by
  induction rows generalizing start with
  | nil => simp
  | cons b rows ih => rw [List.foldl_cons, ih, List.map_cons, List.sum_cons, add_assoc]

/-- The event types that are loaded have their prices. -/
theorem priceIn_eventTypesById {ids : List EventTypeId} {id : EventTypeId} (h : id ∈ ids) :
    priceIn (eventTypesById t ids) id = priceIn t.eventTypes id := by
  have hne : ids.length > 0 := List.length_pos_of_mem h
  -- The filter keeps every event type that the search looks for.
  have hfind : (t.eventTypes.filter fun e => decide (e.id ∈ ids)).find? (fun e => decide (e.id = id)) =
      t.eventTypes.find? fun e => decide (e.id = id) := by
    rw [List.find?_filter]
    congr 1
    funext e
    by_cases he : e.id = id
    · simp [he, h]
    · simp [he]
  unfold priceIn eventTypesById
  rw [if_pos hne, hfind]

/-- `GET /billing` adds the prices of the rows it has found. -/
theorem estimatedRevenue_eq (rows : List BookingRecord) :
    (getBilling t rows).estimatedRevenue = (rows.map (includedPrice t)).sum := by
  unfold getBilling
  dsimp only
  rw [foldl_add_eq, zero_add]
  congr 1
  refine List.map_congr_left fun b hb => ?_
  unfold includedPrice
  cases hid : b.eventTypeId with
  | none => rfl
  | some id =>
    have hmem : id ∈ rows.filterMap BookingRecord.eventTypeId := List.mem_filterMap.mpr ⟨b, hb, hid⟩
    exact priceIn_eventTypesById hmem

theorem totalRevenue_eq (rows : List BookingRecord) : (getReports t rows).totalRevenue =
    ((rows.filter fun b => decide (b.status = .completed) || decide (b.status = .booked)).map
      (includedPrice t)).sum := by
  unfold getReports
  dsimp only
  rw [foldl_add_eq, zero_add]

/-- **`GET /billing`** counts right up to fifty. -/
theorem completedBookings_eq_iff (h : BillingQuery t provider billingRows) :
    (getBilling t billingRows).completedBookings = (completedOf t provider).length ↔
      (completedOf t provider).length ≤ 50 := by
  have hlength : billingRows.length = min 50 (completedOf t provider).length := length_findMany h
  show billingRows.length = _ ↔ _
  omega

/-- And adds up right. -/
theorem estimatedRevenue_of_le (h : BillingQuery t provider billingRows)
    (hle : (completedOf t provider).length ≤ 50) : (getBilling t billingRows).estimatedRevenue =
      ((completedOf t provider).map (includedPrice t)).sum := by
  have hperm : billingRows.Perm (completedOf t provider) := perm_of_findMany h hle
  rw [estimatedRevenue_eq]
  exact (hperm.map _).sum_eq

/-- **`GET /reports`** counts what is booked with what is completed. -/
theorem completedCount_eq (rows : List BookingRecord) : (getReports t rows).completedCount =
    rows.countP (fun b => decide (b.status = .completed)) +
      rows.countP fun b => decide (b.status = .booked) := by
  show (rows.filter _).length = _
  induction rows with
  | nil => rfl
  | cons b rows ih =>
    rw [List.filter_cons, List.countP_cons, List.countP_cons]
    cases hstatus : b.status with
    | booked => simp [ih, Nat.add_assoc]
    | completed =>
      simp [ih]
      omega
    | cancelled => simp [ih]
    | noShow => simp [ih]

theorem countP_completed (t : MoneyTables) (provider : ProviderId) :
    t.bookings.countP (ofProviderWith provider .completed) = (completedOf t provider).length :=
  List.countP_eq_length_filter

/-- **`GET /analytics`** adds up where nothing is completed. -/
theorem totals_add_up_iff : (getAnalytics t provider).booked + (getAnalytics t provider).completed +
    (getAnalytics t provider).cancelled + (getAnalytics t provider).noShow =
      (getAnalytics t provider).total ↔ completedOf t provider = [] := by
  rw [← List.length_eq_zero_iff, ← countP_completed]
  unfold getAnalytics
  dsimp only
  omega

theorem completedOf_eq_nil_iff : completedOf t provider = [] ↔
    ∀ b ∈ t.bookings, b.slotProvider = provider → b.status ≠ .completed := by
  unfold completedOf
  rw [List.filter_eq_nil_iff]
  refine forall₂_congr fun b _ => ?_
  simp [ofProviderWith, ofProvider]

/-- **Where all figures agree.** -/
theorem moneyAgrees_iff (hbilling : BillingQuery t provider billingRows)
    (hreports : ReportsQuery t provider reportRows) : MoneyAgrees t provider billingRows reportRows ↔
      (∀ b ∈ t.bookings, b.slotProvider = provider → b.status ≠ .completed) ∧
        ∀ b ∈ reportRows, b.status ≠ .booked := by
  rw [← completedOf_eq_nil_iff]
  constructor
  · intro h
    -- The totals rule out completed bookings, and then the report must count no booked one.
    have hnone : completedOf t provider = [] := totals_add_up_iff.mp h.totals
    refine ⟨hnone, fun b hb hbooked => ?_⟩
    have hcount := h.reportsCount
    rw [completedCount_eq, hnone, List.length_nil] at hcount
    have hzero : reportRows.countP (fun b => decide (b.status = .booked)) = 0 := by omega
    exact List.countP_eq_zero.mp hzero b hb (decide_eq_true hbooked)
  · rintro ⟨hnone, hbooked⟩
    have hle : (completedOf t provider).length ≤ 50 := by simp [hnone]
    have hcompleted : ∀ b ∈ reportRows, b.status ≠ .completed := by
      intro b hb
      obtain ⟨hmem, hprovider⟩ := mem_of_findMany (findMany_of_findLatest hreports) hb
      exact completedOf_eq_nil_iff.mp hnone b hmem (of_decide_eq_true hprovider)
    have hfilter : reportRows.filter (fun b => decide (b.status = .completed) ||
        decide (b.status = .booked)) = [] := by
      rw [List.filter_eq_nil_iff]
      intro b hb
      simp [hcompleted b hb, hbooked b hb]
    exact
      { billingCount := (completedBookings_eq_iff hbilling).mpr hle
        reportsCount := by
          show (reportRows.filter _).length = _
          rw [hfilter, hnone]
        analyticsCount := congrArg Nat.cast (countP_completed t provider)
        billingRevenue := estimatedRevenue_of_le hbilling hle
        reportsRevenue := by
          rw [totalRevenue_eq, hfilter, hnone]
        totals := totals_add_up_iff.mpr hnone }

end Figures

/-! #### Two bookings -/

/-- A completed booking and one that is ahead, both with a price of ten. -/
def sampleMoney : MoneyTables where
  bookings := [⟨1, 1, some 1, .completed, 0⟩, ⟨2, 1, some 1, .booked, 1⟩]
  eventTypes := [⟨1, some 10⟩]
  bookings_nodup := by decide
  eventTypes_nodup := by decide

/-- The report counts two where the other screens count one, and the totals of the analytics are
    two out of three. -/
theorem money_disagrees : BillingQuery sampleMoney 1 [⟨1, 1, some 1, .completed, 0⟩] ∧
    ReportsQuery sampleMoney 1 [⟨2, 1, some 1, .booked, 1⟩, ⟨1, 1, some 1, .completed, 0⟩] ∧
    ¬ MoneyAgrees sampleMoney 1 [⟨1, 1, some 1, .completed, 0⟩]
      [⟨2, 1, some 1, .booked, 1⟩, ⟨1, 1, some 1, .completed, 0⟩] := by
  refine ⟨⟨_, List.Perm.refl _, rfl⟩, ⟨[⟨2, 1, some 1, .booked, 1⟩, ⟨1, 1, some 1, .completed, 0⟩],
    List.Perm.swap _ _ _, by decide, rfl⟩, fun h => ?_⟩
  have hcount := h.reportsCount
  revert hcount
  decide

/-- A provider whose only booking was cancelled. -/
def sampleQuiet : MoneyTables where
  bookings := [⟨1, 1, some 1, .cancelled, 0⟩]
  eventTypes := [⟨1, some 10⟩]
  bookings_nodup := by decide
  eventTypes_nodup := by decide

theorem moneyAgrees_sample : MoneyAgrees sampleQuiet 1 [] [⟨1, 1, some 1, .cancelled, 0⟩] ↔
    (∀ b ∈ sampleQuiet.bookings, b.slotProvider = 1 → b.status ≠ .completed) ∧
      ∀ b ∈ [(⟨1, 1, some 1, .cancelled, 0⟩ : BookingRecord)], b.status ≠ .booked :=
  moneyAgrees_iff ⟨[], List.Perm.refl _, rfl⟩ ⟨_, List.Perm.refl _, by decide, rfl⟩

end Chronos
