import Chronos.Deduplication
import Chronos.Text.CodeUnits

namespace Chronos.Time

open Text

/-!
# Availability rules through the migrations

The first schema keeps the times of a rule as `TIME`, the code reads texts `HH:MM`.  On the way every
rule becomes active and gets a time of creation, its times become texts, whose order is checked again,
and duplicates go.

* `lexLt_toCharHH24MI` — the texts are ordered like the minutes they show.
* `readTimeText_toCharHH24MI` — the code reads the minute the old time was in.
* `rules_survive` — when the migrations go through, and that the materializer then reads the windows
  of the old rules.
-/

/-! ### The migrations -/

/-- A value of type `TIME`, in microseconds since midnight; the last one is `24:00:00`. -/
abbrev TimeColumn := Fin (86400000000 + 1)

def minuteUs : Nat := 60000000

/-- The minute of the day in which `t` is. -/
def TimeColumn.minute (t : TimeColumn) : Nat := t / minuteUs

/-- `TO_CHAR(t, 'HH24:MI')`. -/
def toCharHH24MI (t : TimeColumn) : List Char :=
  padded 2 (t.minute / 60) ++ ':' :: padded 2 (t.minute % 60)

/-- A row of `availability_rules` of the first schema. -/
structure TimeRow where
  id : RuleId
  providerId : ProviderId
  dayOfWeek : Int
  startTime : TimeColumn
  endTime : TimeColumn

/-- The table, with its `CHECK (end_time > start_time)`. -/
structure TimeTable where
  rows : List TimeRow
  id_nodup : (rows.map TimeRow.id).Nodup
  check : ∀ r ∈ rows, r.startTime < r.endTime

/-- A row whose times are `VARCHAR(5)`. -/
structure TextRow where
  id : RuleId
  providerId : ProviderId
  dayOfWeek : Int
  startTime : List Char
  endTime : List Char
  active : Bool
  createdAt : Instant

/-- `active` is added with `DEFAULT true` and `created_at` with `DEFAULT CURRENT_TIMESTAMP`, and both
    times become texts. -/
def TimeRow.toText (now : Instant) (r : TimeRow) : TextRow :=
  ⟨r.id, r.providerId, r.dayOfWeek, toCharHH24MI r.startTime, toCharHH24MI r.endTime, true, now⟩

/-- `CHECK (end_time > start_time)`, of texts. -/
def TextRow.passes (r : TextRow) : Bool := lexLt (codeUnits r.startTime) (codeUnits r.endTime)

/-- `ADD CONSTRAINT` fails on a table with a row that does not pass. -/
def reconcileTimeTypes (now : Instant) (rows : List TimeRow) : Option (List TextRow) :=
  if (rows.map (TimeRow.toText now)).all TextRow.passes then some (rows.map (TimeRow.toText now))
  else none

/-- What `generateSlots` makes of a text: an hour and a minute of the day. -/
def readTimeText (text : List Char) : Option TimeOfDay :=
  match text.splitOn ':' with
  | [hour, minute] =>
    match numeral hour, numeral minute with
    | some h, some m => if hlt : h < 24 ∧ m < 60 then some ⟨⟨h, hlt.1⟩, ⟨m, hlt.2⟩⟩ else none
    | _, _ => none
  | _ => none

/-- A row as the code reads it. -/
def TextRow.read (r : TextRow) : Option RuleRow :=
  match readTimeText r.startTime, readTimeText r.endTime with
  | some start, some finish =>
    some ⟨⟨r.providerId, r.dayOfWeek, start, finish, r.active⟩, r.id, r.createdAt⟩
  | _, _ => none

/-- The migrations one after the other, and the rows as the code reads them. -/
def migrate (now : Instant) (rows : List TimeRow) : Option (List RuleRow) := do
  let texts ← reconcileTimeTypes now rows
  let rules ← texts.mapM TextRow.read
  deduplicate rules

/-! ### Texts and minutes -/

section Texts

variable {s t : TimeColumn}

theorem TimeColumn.minute_le (t : TimeColumn) : t.minute ≤ 1440 := by
  have ht : t.1 < 86400000000 + 1 := t.2
  unfold TimeColumn.minute minuteUs
  omega

/-- An earlier minute has the smaller text. -/
theorem lexLt_of_minute (h : s.minute < t.minute) :
    lexLt (codeUnits (toCharHH24MI s)) (codeUnits (toCharHH24MI t)) = true := by
  have ht := t.minute_le
  unfold toCharHH24MI
  rcases Nat.lt_or_ge (s.minute / 60) (t.minute / 60) with hhour | hhour
  · exact lexLt_field hhour (by omega) _ _
  · -- In the same hour the minutes decide.
    have heq : s.minute / 60 = t.minute / 60 := by omega
    rw [heq, lexLt_same, lexLt_next]
    exact lexLt_padded (by omega) (by omega)

/-- **Texts are ordered like minutes.** -/
theorem lexLt_toCharHH24MI :
    lexLt (codeUnits (toCharHH24MI s)) (codeUnits (toCharHH24MI t)) = true ↔ s.minute < t.minute := by
  refine ⟨fun h => ?_, lexLt_of_minute⟩
  by_contra hnot
  rcases Nat.lt_or_eq_of_le (Nat.le_of_not_lt hnot) with hlt | heq
  · rw [lexLt_asymm (lexLt_of_minute hlt)] at h
    cases h
  · rw [toCharHH24MI, toCharHH24MI, heq, lexLt_irrefl] at h
    cases h

theorem colon_notMem_padded (width n : Nat) : ':' ∉ padded width n := fun h => by
  have hdigit := isDigit_of_mem_padded h
  revert hdigit
  decide

/-- The minute of `t` on the clock; `24:00` is not on it. -/
def TimeColumn.clock (t : TimeColumn) : TimeOfDay :=
  ⟨⟨t.minute / 60 % 24, Nat.mod_lt _ (by decide)⟩, ⟨t.minute % 60, Nat.mod_lt _ (by decide)⟩⟩

theorem minutes_clock (h : t.minute < 1440) : t.clock.minutes = t.minute := by
  show t.minute / 60 % 24 * 60 + t.minute % 60 = t.minute
  omega

/-- **The code reads the minute.** -/
theorem readTimeText_toCharHH24MI (h : t.minute < 1440) :
    readTimeText (toCharHH24MI t) = some t.clock := by
  have hhour : t.minute / 60 < 24 := by omega
  have hminute : t.minute % 60 < 60 := Nat.mod_lt _ (by decide)
  unfold readTimeText toCharHH24MI
  rw [List.splitOn_append_cons_self, List.splitOn_eq_singleton (colon_notMem_padded _ _),
    List.splitOn_eq_singleton (colon_notMem_padded _ _), List.singleton_append]
  dsimp only
  rw [numeral_padded (by omega), numeral_padded (by omega)]
  dsimp only
  rw [dif_pos ⟨hhour, hminute⟩]
  simp only [TimeColumn.clock, Nat.mod_eq_of_lt hhour]

end Texts

/-! ### The whole way -/

/-- What a row has become when the duplicates are about to go. -/
def TimeRow.migrated (now : Instant) (r : TimeRow) : RuleRow :=
  ⟨⟨r.providerId, r.dayOfWeek, r.startTime.clock, r.endTime.clock, true⟩, r.id, now⟩

/-- The rule is for the minutes of the row. -/
structure TimeRow.Shows (r : TimeRow) (rule : AvailabilityRule) : Prop where
  providerId : rule.providerId = r.providerId
  dayOfWeek : rule.dayOfWeek = r.dayOfWeek
  startTime : rule.startTime.minutes = r.startTime.minute
  endTime : rule.endTime.minutes = r.endTime.minute

section Tables

variable {now : Instant} {rows : List TimeRow}

theorem passes_toText (r : TimeRow) :
    (r.toText now).passes = true ↔ r.startTime.minute < r.endTime.minute := lexLt_toCharHH24MI

theorem read_toText {r : TimeRow} (hstart : r.startTime.minute < 1440)
    (hend : r.endTime.minute < 1440) : (r.toText now).read = some (r.migrated now) := by
  unfold TextRow.read TimeRow.toText
  dsimp only
  rw [readTimeText_toCharHH24MI hstart, readTimeText_toCharHH24MI hend]
  rfl

theorem mapM_read (h : ∀ r ∈ rows, r.startTime.minute < 1440 ∧ r.endTime.minute < 1440) :
    (rows.map (TimeRow.toText now)).mapM TextRow.read = some (rows.map (TimeRow.migrated now)) := by
  induction rows with
  | nil => rfl
  | cons r rows ih =>
    obtain ⟨hstart, hend⟩ := h r List.mem_cons_self
    rw [List.map_cons, List.mapM_cons, read_toText hstart hend,
      ih fun r' hr' => h r' (List.mem_cons_of_mem _ hr')]
    rfl

/-- The migrations stop at a rule that begins and ends in one minute. -/
theorem migrate_eq (h : ∀ r ∈ rows, r.startTime.minute < 1440 ∧ r.endTime.minute < 1440) :
    migrate now rows = if ∀ r ∈ rows, r.startTime.minute < r.endTime.minute then
      deduplicate (rows.map (TimeRow.migrated now)) else none := by
  have hall : (rows.map (TimeRow.toText now)).all TextRow.passes = true ↔
      ∀ r ∈ rows, r.startTime.minute < r.endTime.minute := by
    rw [List.all_map, List.all_eq_true]
    exact forall₂_congr fun r _ => passes_toText r
  unfold migrate reconcileTimeTypes
  by_cases hchecked : ∀ r ∈ rows, r.startTime.minute < r.endTime.minute
  · rw [if_pos (hall.mpr hchecked), if_pos hchecked]
    show ((rows.map (TimeRow.toText now)).mapM TextRow.read).bind deduplicate = _
    rw [mapM_read h]
    rfl
  · rw [if_neg fun htrue => hchecked (hall.mp htrue), if_neg hchecked]
    rfl

end Tables

/-- The table as the last migration finds it. -/
def TimeTable.migrated (table : TimeTable) (now : Instant) : RuleTable where
  rows := table.rows.map (TimeRow.migrated now)
  id_nodup := by
    rw [List.map_map]
    exact table.id_nodup

section Survival

variable {table : TimeTable} {now : Instant} {r : TimeRow} {rule : AvailabilityRule}

theorem TimeTable.before_midnight (hmidnight : ∀ r ∈ table.rows, r.endTime.minute < 1440) :
    ∀ r ∈ table.rows, r.startTime.minute < 1440 ∧ r.endTime.minute < 1440 := by
  intro r hr
  have hle : r.startTime.minute ≤ r.endTime.minute :=
    Nat.div_le_div_right (Nat.le_of_lt (table.check r hr))
  exact ⟨Nat.lt_of_le_of_lt hle (hmidnight r hr), hmidnight r hr⟩

/-- All rules are active, so no active window is lost. -/
theorem hasActive_migrated (w : RuleWindow) :
    HasActive (deleteDuplicates (table.migrated now).rows) w ↔ HasActive (table.migrated now).rows w := by
  refine (window_kept_iff w).mpr fun _ row hrow _ _ => ?_
  obtain ⟨r, -, rfl⟩ := List.mem_map.mp hrow
  rfl

theorem minutes_injective : Function.Injective TimeOfDay.minutes := by
  rintro ⟨⟨hour, hhour⟩, ⟨minute, hminute⟩⟩ ⟨⟨hour', hhour'⟩, ⟨minute', hminute'⟩⟩ h
  change hour * 60 + minute = hour' * 60 + minute' at h
  obtain rfl : hour = hour' := by omega
  obtain rfl : minute = minute' := by omega
  rfl

/-- The window of a row is the one that shows its minutes. -/
theorem shows_iff (hstart : r.startTime.minute < 1440) (hend : r.endTime.minute < 1440) :
    r.Shows rule ↔ (r.migrated now).window = rule.window := by
  constructor
  · rintro ⟨hprovider, hday, hs, he⟩
    rw [← minutes_clock hstart] at hs
    rw [← minutes_clock hend] at he
    show RuleWindow.mk _ _ _ _ = RuleWindow.mk _ _ _ _
    rw [hprovider, hday, minutes_injective hs, minutes_injective he]
    rfl
  · intro h
    obtain ⟨hprovider, hday, hs, he⟩ := RuleWindow.mk.inj h
    exact ⟨hprovider.symm, hday.symm, by rw [← hs]; exact minutes_clock hstart,
      by rw [← he]; exact minutes_clock hend⟩

/-- **Availability survives the migrations.**  They go through unless a rule begins and ends within one
    minute, and then the materializer reads the window of every rule there was, to the minute, and no
    other.  Rules until midnight are left out: the code has no hour 24. -/
theorem rules_survive (table : TimeTable) (now : Instant)
    (hmidnight : ∀ r ∈ table.rows, r.endTime.minute < 1440) :
    ((migrate now table.rows).isSome = true ↔
      ∀ r ∈ table.rows, r.startTime.minute < r.endTime.minute) ∧
    ∀ rules, migrate now table.rows = some rules → ∀ (p : ProviderRow) (rule : AvailabilityRule),
      rule ∈ activeRules (rules.map RuleRow.toAvailabilityRule) p ↔
        rule.providerId = p.id ∧ rule.active = true ∧ ∃ r ∈ table.rows, r.Shows rule := by
  have hbefore := TimeTable.before_midnight hmidnight
  have hdeduplicate : deduplicate (table.migrated now).rows =
      some (deleteDuplicates (table.migrated now).rows) := deduplicate_eq
  change deduplicate (table.rows.map (TimeRow.migrated now)) = _ at hdeduplicate
  rw [migrate_eq hbefore, hdeduplicate]
  constructor
  · split
    · next h => exact iff_of_true rfl h
    · next h => exact iff_of_false Bool.noConfusion h
  · intro rules hrules p rule
    split at hrules
    · rw [← Option.some.inj hrules, mem_activeRules, hasActive_migrated]
      refine and_congr_right fun _ => and_congr_right fun _ => ?_
      constructor
      · rintro ⟨row, hrow, hwindow, -⟩
        obtain ⟨r, hr, rfl⟩ := List.mem_map.mp hrow
        exact ⟨r, hr, (shows_iff (hbefore r hr).1 (hbefore r hr).2).mpr hwindow⟩
      · rintro ⟨r, hr, hshows⟩
        exact ⟨r.migrated now, List.mem_map_of_mem hr,
          (shows_iff (hbefore r hr).1 (hbefore r hr).2).mp hshows, rfl⟩
    · cases hrules

end Survival

/-- Two rules for Monday that differ by a few seconds. -/
def secondsApart : TimeTable where
  rows := [⟨1, 7, 1, ⟨32400000000, by decide⟩, ⟨61200000000, by decide⟩⟩,
    ⟨2, 7, 1, ⟨32415000000, by decide⟩, ⟨61200000000, by decide⟩⟩]
  id_nodup := by decide
  check := by decide

/-- They become one, from 09:00 to 17:00. -/
theorem rules_survive_seconds : ∃ rules, migrate 0 secondsApart.rows = some rules ∧
    ⟨7, 1, ⟨9, 0⟩, ⟨17, 0⟩, true⟩ ∈ activeRules (rules.map RuleRow.toAvailabilityRule) ⟨7, utc⟩ := by
  have hmidnight : ∀ r ∈ secondsApart.rows, r.endTime.minute < 1440 := by decide
  obtain ⟨hgoes, hreads⟩ := rules_survive secondsApart 0 hmidnight
  obtain ⟨rules, hrules⟩ := Option.isSome_iff_exists.mp (hgoes.mpr (by decide))
  refine ⟨rules, hrules, (hreads rules hrules ⟨7, utc⟩ _).mpr ⟨rfl, rfl, _, List.mem_cons_self, ?_⟩⟩
  exact ⟨rfl, rfl, by decide, by decide⟩

end Chronos.Time
