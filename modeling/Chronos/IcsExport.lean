import Chronos.Requests
import Chronos.Calendar.Date
import Chronos.Text.CodeUnits

namespace Chronos

open Calendar Text

/-!
# The export to calendars

`generateICS` makes the date-times of an event from those of a booking by deleting characters.

* `icsDateTime`, `generateICS` — the functions of `ics.ts`.
* `IsoUtc` — the texts of whole seconds that `isoUTCStringSchema` accepts.
* `icsFileLines_eq` — the file has the lines `icsLines`.
* `decodeUtc` — what a calendar reads.
* `ics_roundTrip_iff` — a calendar reads both instants, exactly if both texts end in `Z`, have
  seconds and no fraction but one of three zeros.
-/

/-! ### `generateICS` -/

/-- `/[-:]/`. -/
def isPunctuation (c : Char) : Bool := decide (c = '-') || decide (c = ':')

/-- `/\.\d{3}Z/` matches here. -/
def millisecondsHere : List Char → Bool
  | '.' :: a :: b :: c :: 'Z' :: _ => a.isDigit && b.isDigit && c.isDigit
  | _ => false

/-- `text.replace(/\.\d{3}Z/, 'Z')`: the first match is replaced. -/
def dropMilliseconds : List Char → List Char
  | [] => []
  | c :: cs => if millisecondsHere (c :: cs) then 'Z' :: (c :: cs).drop 5 else c :: dropMilliseconds cs

/-- `text.replace(/[-:]/g, '').replace(/\.\d{3}Z/, 'Z')`. -/
def icsDateTime (text : String) : String :=
  String.ofList (dropMilliseconds (text.toList.filter fun c => !isPunctuation c))

structure IcsBooking where
  id : String
  slotStartUtc : String
  slotEndUtc : String
  status : String

/-- The lines of the file; a status is in ASCII. -/
def icsLines (booking : IcsBooking) : List String :=
  ["BEGIN:VCALENDAR",
    "VERSION:2.0",
    "PRODID:-//Chronos//Appointment//EN",
    "BEGIN:VEVENT",
    "UID:" ++ booking.id ++ "@chronos",
    "DTSTART:" ++ icsDateTime booking.slotStartUtc,
    "DTEND:" ++ icsDateTime booking.slotEndUtc,
    "SUMMARY:Chronos Appointment",
    "STATUS:" ++ booking.status.toUpper,
    "END:VEVENT",
    "END:VCALENDAR"]

def generateICS (booking : IcsBooking) : String := "\r\n".intercalate (icsLines booking)

/-! ### Date-times -/

inductive UtcSuffix
  | z
  | plus
  | minus
  deriving DecidableEq

def UtcSuffix.text : UtcSuffix → List Char
  | .z => ['Z']
  | .plus => ['+', '0', '0', ':', '0', '0']
  | .minus => ['-', '0', '0', ':', '0', '0']

/-- A date-time of ISO 8601 that denotes a whole second of UTC, in the extended form of a calendar
    date and a time of day: with seconds or without, with some zeros behind a point for a
    fraction, and with one of three suffixes.  A day ends at hour 24.  Weeks, days of the year and
    fractions behind a comma are forms of their own. -/
structure IsoUtc where
  date : Date
  hour : Nat
  minute : Nat
  second : Option Nat
  zeros : Nat
  suffix : UtcSuffix
  year_lt : date.year < 10000
  hour_le : hour < 24 ∨ hour = 24 ∧ minute = 0 ∧ second.getD 0 = 0
  minute_lt : minute < 60
  second_lt : second.getD 0 < 60

namespace IsoUtc

variable (t : IsoUtc)

def secondText : List Char := t.second.elim [] fun second => ':' :: padded 2 second

def fractionText : List Char := if t.zeros = 0 then [] else '.' :: List.replicate t.zeros '0'

def text : String :=
  String.ofList (padded 4 t.date.year ++ '-' :: (padded 2 t.date.month ++ '-' :: (padded 2 t.date.day ++
    'T' :: (padded 2 t.hour ++ ':' :: (padded 2 t.minute ++
      (t.secondText ++ (t.fractionText ++ t.suffix.text)))))))

/-- The seconds since the epoch. -/
def seconds : Int :=
  ((t.date.number : Int) - epoch.number) * 86400 + (t.hour * 3600 + t.minute * 60 + t.second.getD 0 : Nat)

end IsoUtc

/-- `isoUTCStringSchema`; `new Date(s)` throws for no text. -/
def isoUTCStringSchema (s : String) : Bool :=
  ['Z'].isSuffixOf s.toList || includes s "+00:00" || includes s "-00:00"

/-! ### What a calendar reads -/

/-- A time of day in seconds. -/
def timeOf (hour minute second : Nat) : Option Nat :=
  if hour < 24 ∧ minute < 60 ∧ second < 60 then some (hour * 3600 + minute * 60 + second) else none

/-- The seconds since the epoch, of a date-time of the form `YYYYMMDDTHHMMSSZ`. -/
def decodeUtc (text : String) : Option Int :=
  match text.toList with
  | [y₁, y₂, y₃, y₄, m₁, m₂, d₁, d₂, 'T', h₁, h₂, n₁, n₂, s₁, s₂, 'Z'] => do
    let year ← numeral [y₁, y₂, y₃, y₄]
    let month ← numeral [m₁, m₂]
    let day ← numeral [d₁, d₂]
    let hour ← numeral [h₁, h₂]
    let minute ← numeral [n₁, n₂]
    let second ← numeral [s₁, s₂]
    let date ← dateOf year month day
    let time ← timeOf hour minute second
    some (((date.number : Int) - epoch.number) * 86400 + time)
  | _ => none

/-- The lines of a file. -/
def crlfLines : List Char → List (List Char)
  | [] => [[]]
  | '\r' :: '\n' :: text => [] :: crlfLines text
  | c :: text => (crlfLines text).modifyHead (c :: ·)

def icsFileLines (booking : IcsBooking) : List String :=
  (crlfLines (generateICS booking).toList).map String.ofList

/-- The value of the first line with a name. -/
def icsValue (name : String) (lines : List String) : Option String :=
  (lines.find? fun line => (name ++ ":").toList.isPrefixOf line.toList).map fun line =>
    String.ofList (line.toList.drop (name ++ ":").toList.length)

/-! ### What is emitted -/

section Emitted

variable {a rest : List Char} {t : IsoUtc}

theorem millisecondsHere_of_ne {c : Char} (h : c ≠ '.') (cs : List Char) :
    millisecondsHere (c :: cs) = false := by
  unfold millisecondsHere
  split
  · next heq => exact absurd (List.cons.inj heq).1 h
  · rfl

/-- What has no point stays as it is. -/
theorem dropMilliseconds_append (h : '.' ∉ a) (rest : List Char) :
    dropMilliseconds (a ++ rest) = a ++ dropMilliseconds rest := by
  induction a with
  | nil => rfl
  | cons c a ih =>
    have hc : c ≠ '.' := fun heq => h (by simp [heq])
    rw [List.cons_append, dropMilliseconds, millisecondsHere_of_ne hc,
      ih fun hmem => h (List.mem_cons_of_mem _ hmem)]
    rfl

theorem filter_padded (width n : Nat) :
    (padded width n).filter (fun c => !isPunctuation c) = padded width n := by
  rw [List.filter_eq_self]
  intro c hc
  have hdigit := isDigit_of_mem_padded hc
  unfold isPunctuation
  have hminus : c ≠ '-' := by
    rintro rfl
    cases hdigit
  have hcolon : c ≠ ':' := by
    rintro rfl
    cases hdigit
  simp [hminus, hcolon]

theorem point_notMem_padded (width n : Nat) : '.' ∉ padded width n := by
  intro h
  have hdigit := isDigit_of_mem_padded h
  cases hdigit

namespace IsoUtc

/-- The date and the time without punctuation. -/
def basic (t : IsoUtc) : List Char :=
  padded 4 t.date.year ++ (padded 2 t.date.month ++ (padded 2 t.date.day ++
    'T' :: (padded 2 t.hour ++ (padded 2 t.minute ++ t.second.elim [] (padded 2)))))

/-- The suffix without punctuation. -/
def zone (t : IsoUtc) : List Char := t.suffix.text.filter fun c => !isPunctuation c

theorem filter_text (t : IsoUtc) :
    t.text.toList.filter (fun c => !isPunctuation c) = t.basic ++ (t.fractionText ++ t.zone) := by
  have hsecond : t.secondText.filter (fun c => !isPunctuation c) = t.second.elim [] (padded 2) := by
    unfold secondText
    cases t.second with
    | none => rfl
    | some second => exact filter_padded 2 second
  have hfraction : t.fractionText.filter (fun c => !isPunctuation c) = t.fractionText := by
    unfold fractionText
    split
    · rfl
    · rw [List.filter_eq_self]
      intro c hc
      rcases List.mem_cons.mp hc with rfl | hc
      · rfl
      · rw [List.eq_of_mem_replicate hc]
        rfl
  have hdash : ∀ text, ('-' :: text).filter (fun c => !isPunctuation c) =
      text.filter fun c => !isPunctuation c := fun text => rfl
  have hcolon : ∀ text, (':' :: text).filter (fun c => !isPunctuation c) =
      text.filter fun c => !isPunctuation c := fun text => rfl
  have hT : ∀ text, ('T' :: text).filter (fun c => !isPunctuation c) =
      'T' :: text.filter fun c => !isPunctuation c := fun text => rfl
  unfold text basic zone
  rw [String.toList_ofList]
  simp only [List.filter_append, filter_padded, hsecond, hfraction, hdash, hcolon, hT,
    List.append_assoc, List.cons_append]

theorem point_notMem_basic (t : IsoUtc) : '.' ∉ t.basic := by
  unfold basic
  simp only [List.mem_append, List.mem_cons, point_notMem_padded, false_or]
  cases t.second with
  | none => simp
  | some second => simp [point_notMem_padded]

theorem point_notMem_zone (t : IsoUtc) : '.' ∉ t.zone := by
  unfold zone
  cases t.suffix with
  | z => decide
  | plus => decide
  | minus => decide

/-- What is left of the fraction and the suffix. -/
def icsTail (t : IsoUtc) : List Char :=
  if t.zeros = 3 ∧ t.suffix = .z then ['Z'] else t.fractionText ++ t.zone

theorem millisecondsHere_fraction (t : IsoUtc) :
    millisecondsHere ('.' :: (List.replicate t.zeros '0' ++ t.zone)) = true ↔
      t.zeros = 3 ∧ t.suffix = .z := by
  unfold zone
  generalize t.zeros = zeros
  cases t.suffix with
  | z =>
    match zeros with
    | 0 => decide
    | 1 => decide
    | 2 => decide
    | 3 => decide
    | zeros + 4 => simp [List.replicate_succ, millisecondsHere]
  | plus =>
    match zeros with
    | 0 => decide
    | 1 => decide
    | 2 => decide
    | 3 => decide
    | zeros + 4 => simp [List.replicate_succ, millisecondsHere]
  | minus =>
    match zeros with
    | 0 => decide
    | 1 => decide
    | 2 => decide
    | 3 => decide
    | zeros + 4 => simp [List.replicate_succ, millisecondsHere]

theorem dropMilliseconds_tail (t : IsoUtc) : dropMilliseconds (t.fractionText ++ t.zone) = t.icsTail := by
  have hkept : ∀ {text : List Char}, '.' ∉ text → dropMilliseconds text = text := by
    intro text h
    have happend := dropMilliseconds_append h []
    rwa [List.append_nil, show dropMilliseconds [] = [] from rfl, List.append_nil] at happend
  unfold icsTail
  by_cases hzeros : t.zeros = 0
  · have hfraction : t.fractionText = [] := if_pos hzeros
    rw [if_neg (by omega), hfraction]
    exact hkept t.point_notMem_zone
  · have hfraction : t.fractionText = '.' :: List.replicate t.zeros '0' := if_neg hzeros
    have hrest : '.' ∉ List.replicate t.zeros '0' ++ t.zone := by
      intro hmem
      rcases List.mem_append.mp hmem with hmem | hmem
      · exact absurd (List.eq_of_mem_replicate hmem) (by decide)
      · exact t.point_notMem_zone hmem
    -- A match can only start at the one point.
    rw [hfraction, List.cons_append, dropMilliseconds, hkept hrest]
    by_cases hplain : t.zeros = 3 ∧ t.suffix = .z
    · have hzone : t.zone = ['Z'] := by
        unfold zone
        rw [hplain.2]
        rfl
      rw [if_pos (t.millisecondsHere_fraction.mpr hplain), if_pos hplain, hplain.1, hzone]
      rfl
    · rw [if_neg fun h => hplain (t.millisecondsHere_fraction.mp h), if_neg hplain]

/-- **What is emitted** for a date-time. -/
theorem icsDateTime_text (t : IsoUtc) : icsDateTime t.text = String.ofList (t.basic ++ t.icsTail) := by
  unfold icsDateTime
  rw [filter_text, dropMilliseconds_append t.point_notMem_basic, dropMilliseconds_tail]

end IsoUtc

end Emitted

/-! ### What is read -/

section Read

variable {text : List Char} {t start stop : IsoUtc}

/-- A form that is read has sixteen characters, no point, and a `Z` at its end. -/
theorem decodeUtc_some {seconds : Int} (h : decodeUtc (String.ofList text) = some seconds) :
    text.length = 16 ∧ text.getLast? = some 'Z' ∧ '.' ∉ text := by
  unfold decodeUtc at h
  rw [String.toList_ofList] at h
  split at h
  · next y₁ y₂ y₃ y₄ m₁ m₂ d₁ d₂ h₁ h₂ n₁ n₂ s₁ s₂ =>
    simp only [Option.bind_eq_bind, Option.bind_eq_some_iff] at h
    obtain ⟨year, hyear, month, hmonth, day, hday, hour, hhour, minute, hminute, second, hsecond, -⟩ := h
    refine ⟨rfl, rfl, fun hmem => ?_⟩
    -- The point is no digit.
    have hdigits : ∀ c ∈ [y₁, y₂, y₃, y₄] ++ [m₁, m₂] ++ [d₁, d₂] ++ [h₁, h₂] ++ [n₁, n₂] ++ [s₁, s₂],
        c.isDigit = true := by
      simp only [List.forall_mem_append]
      exact ⟨⟨⟨⟨⟨isDigit_of_numeral hyear, isDigit_of_numeral hmonth⟩, isDigit_of_numeral hday⟩,
        isDigit_of_numeral hhour⟩, isDigit_of_numeral hminute⟩, isDigit_of_numeral hsecond⟩
    have hpoint : '.' ∈ [y₁, y₂, y₃, y₄] ++ [m₁, m₂] ++ [d₁, d₂] ++ [h₁, h₂] ++ [n₁, n₂] ++ [s₁, s₂] := by
      simpa [or_assoc] using hmem
    cases hdigits '.' hpoint
  · cases h

/-- A form of digits is read as its date and its time. -/
theorem decodeUtc_basic {second : Nat} (hsecond : t.second = some second) :
    decodeUtc (String.ofList (t.basic ++ ['Z'])) = (timeOf t.hour t.minute second).map fun time =>
      ((t.date.number : Int) - epoch.number) * 86400 + time := by
  have hmonth := t.date.month_le
  have hday := t.date.day_le.trans (daysInMonth_le _ _)
  have hhour := t.hour_le
  have hminute := t.minute_lt
  have hlt := t.second_lt
  rw [hsecond, Option.getD_some] at hlt
  have hform : decodeUtc (String.ofList (t.basic ++ ['Z'])) = (do
      let year ← numeral (padded 4 t.date.year)
      let month ← numeral (padded 2 t.date.month)
      let day ← numeral (padded 2 t.date.day)
      let hour ← numeral (padded 2 t.hour)
      let minute ← numeral (padded 2 t.minute)
      let second ← numeral (padded 2 second)
      let date ← dateOf year month day
      let time ← timeOf hour minute second
      some (((date.number : Int) - epoch.number) * 86400 + time)) := by
    unfold decodeUtc IsoUtc.basic
    rw [String.toList_ofList, hsecond]
    rfl
  rw [hform, numeral_padded t.year_lt, numeral_padded (by omega), numeral_padded (by omega),
    numeral_padded (by omega), numeral_padded (by omega), numeral_padded (by omega)]
  show (dateOf t.date.year t.date.month t.date.day >>= _) = _
  rw [dateOf_date]
  cases timeOf t.hour t.minute second with
  | none => rfl
  | some time => rfl

/-- A text that is exported as it should be: it ends in `Z`, it has seconds, and no fraction or one
    of three zeros; and it does not end a day. -/
structure IsoUtc.Plain (t : IsoUtc) : Prop where
  suffix : t.suffix = .z
  second : t.second ≠ none
  zeros : t.zeros = 0 ∨ t.zeros = 3
  hour : t.hour < 24

theorem icsTail_eq (hsuffix : t.suffix = .z) (hzeros : t.zeros = 0 ∨ t.zeros = 3) : t.icsTail = ['Z'] := by
  have hzone : t.zone = ['Z'] := by
    unfold IsoUtc.zone
    rw [hsuffix]
    rfl
  unfold IsoUtc.icsTail
  rcases hzeros with hzeros | hzeros
  · have hfraction : t.fractionText = [] := if_pos hzeros
    rw [if_neg (by omega), hfraction, hzone]
    rfl
  · rw [if_pos ⟨hzeros, hsuffix⟩]

/-- A tail that can be read is the `Z`. -/
theorem plain_of_icsTail (hlast : (t.basic ++ t.icsTail).getLast? = some 'Z')
    (hpoint : '.' ∉ t.basic ++ t.icsTail) : t.suffix = .z ∧ (t.zeros = 0 ∨ t.zeros = 3) := by
  unfold IsoUtc.icsTail at hlast hpoint
  by_cases hplain : t.zeros = 3 ∧ t.suffix = .z
  · exact ⟨hplain.2, .inr hplain.1⟩
  rw [if_neg hplain] at hlast hpoint
  have hzeros : t.zeros = 0 := by
    by_contra hne
    have hfraction : t.fractionText = '.' :: List.replicate t.zeros '0' := if_neg hne
    exact hpoint (by simp [hfraction])
  refine ⟨?_, .inl hzeros⟩
  unfold IsoUtc.zone at hlast
  cases hsuffix : t.suffix with
  | z => rfl
  | plus =>
    rw [hsuffix, ← List.append_assoc] at hlast
    simp [UtcSuffix.text, isPunctuation] at hlast
  | minus =>
    rw [hsuffix, ← List.append_assoc] at hlast
    simp [UtcSuffix.text, isPunctuation] at hlast

/-- **One date-time** is read as its instant, exactly if it is plain. -/
theorem decodeUtc_icsDateTime_iff (t : IsoUtc) :
    decodeUtc (icsDateTime t.text) = some t.seconds ↔ t.Plain := by
  rw [t.icsDateTime_text]
  constructor
  · intro h
    obtain ⟨hlength, hlast, hpoint⟩ := decodeUtc_some h
    obtain ⟨hsuffix, hzeros⟩ := plain_of_icsTail hlast hpoint
    rw [icsTail_eq hsuffix hzeros] at h hlength
    -- Without seconds two characters are missing.
    have hseconds : t.second ≠ none := by
      intro hnone
      unfold IsoUtc.basic at hlength
      rw [hnone] at hlength
      simp at hlength
    obtain ⟨second, hsecond⟩ := Option.ne_none_iff_exists'.mp hseconds
    rw [decodeUtc_basic hsecond, Option.map_eq_some_iff] at h
    obtain ⟨time, htime, -⟩ := h
    have hhour : t.hour < 24 := by
      by_contra hlate
      have hnone : timeOf t.hour t.minute second = none := if_neg fun hok => hlate hok.1
      rw [hnone] at htime
      cases htime
    exact ⟨hsuffix, hseconds, hzeros, hhour⟩
  · intro h
    obtain ⟨second, hsecond⟩ := Option.ne_none_iff_exists'.mp h.second
    have hminute := t.minute_lt
    have hlt := t.second_lt
    rw [hsecond, Option.getD_some] at hlt
    have htime : timeOf t.hour t.minute second = some (t.hour * 3600 + t.minute * 60 + second) :=
      if_pos ⟨h.hour, hminute, hlt⟩
    rw [icsTail_eq h.suffix h.zeros, decodeUtc_basic hsecond, htime]
    unfold IsoUtc.seconds
    rw [hsecond]
    rfl

/-! ### The file -/

/-- The schema accepts all of these texts. -/
theorem isoUTCStringSchema_text (t : IsoUtc) : isoUTCStringSchema t.text = true := by
  have hsuffix : t.suffix.text <:+ t.text.toList := by
    unfold IsoUtc.text
    rw [String.toList_ofList]
    simp only [← List.append_assoc, ← List.cons_append]
    exact List.suffix_append _ _
  unfold isoUTCStringSchema
  cases h : t.suffix with
  | z =>
    rw [h] at hsuffix
    have hends : ['Z'].isSuffixOf t.text.toList = true := List.isSuffixOf_iff_suffix.mpr hsuffix
    rw [hends]
    rfl
  | plus =>
    rw [h] at hsuffix
    have hinfix : "+00:00".toList <:+: t.text.toList := hsuffix.isInfix
    have hincludes : includes t.text "+00:00" = true := decide_eq_true hinfix
    rw [hincludes, Bool.or_true]
    rfl
  | minus =>
    rw [h] at hsuffix
    have hinfix : "-00:00".toList <:+: t.text.toList := hsuffix.isInfix
    have hincludes : includes t.text "-00:00" = true := decide_eq_true hinfix
    rw [hincludes, Bool.or_true]

theorem crlfLines_cons {c : Char} (h : c ≠ '\r') (text : List Char) :
    crlfLines (c :: text) = (crlfLines text).modifyHead (c :: ·) := by
  rw [crlfLines]
  rintro text rfl
  exact absurd rfl h

theorem crlfLines_append {line : List Char} (h : '\r' ∉ line) (text : List Char) :
    crlfLines (line ++ '\r' :: '\n' :: text) = line :: crlfLines text := by
  induction line with
  | nil => rfl
  | cons c line ih =>
    have hc : c ≠ '\r' := fun heq => h (by simp [heq])
    rw [List.cons_append, crlfLines_cons hc, ih fun hmem => h (List.mem_cons_of_mem _ hmem)]
    rfl

theorem crlfLines_line {line : List Char} (h : '\r' ∉ line) : crlfLines line = [line] := by
  induction line with
  | nil => rfl
  | cons c line ih =>
    have hc : c ≠ '\r' := fun heq => h (by simp [heq])
    rw [crlfLines_cons hc, ih fun hmem => h (List.mem_cons_of_mem _ hmem)]
    rfl

theorem crlfLines_intercalate {lines : List (List Char)} (hne : lines ≠ [])
    (h : ∀ line ∈ lines, '\r' ∉ line) : crlfLines (['\r', '\n'].intercalate lines) = lines := by
  induction lines with
  | nil => exact absurd rfl hne
  | cons line lines ih =>
    rw [List.forall_mem_cons] at h
    cases lines with
    | nil =>
      rw [List.intercalate_singleton]
      exact crlfLines_line h.1
    | cons line' lines =>
      rw [List.intercalate_cons_cons, List.append_assoc]
      show crlfLines (line ++ '\r' :: '\n' :: ['\r', '\n'].intercalate (line' :: lines)) = _
      rw [crlfLines_append h.1, ih (List.cons_ne_nil line' lines) h.2]

theorem crlfLines_generateICS (booking : IcsBooking)
    (h : ∀ line ∈ icsLines booking, '\r' ∉ line.toList) :
    crlfLines (generateICS booking).toList = (icsLines booking).map String.toList := by
  have hcrlf : "\r\n".toList = ['\r', '\n'] := by decide +kernel
  unfold generateICS
  rw [String.toList_intercalate, hcrlf]
  apply crlfLines_intercalate
  · simp [icsLines]
  · intro line hline
    obtain ⟨text, htext, rfl⟩ := List.mem_map.mp hline
    exact h text htext

theorem mem_dropMilliseconds {c : Char} {text : List Char} (h : c ∈ dropMilliseconds text) :
    c = 'Z' ∨ c ∈ text := by
  induction text with
  | nil => cases h
  | cons d text ih =>
    rw [dropMilliseconds] at h
    split at h
    · rcases List.mem_cons.mp h with hz | hrest
      · exact .inl hz
      · exact .inr (List.mem_of_mem_drop hrest)
    · rcases List.mem_cons.mp h with hd | hrest
      · exact .inr (hd ▸ List.mem_cons_self)
      · exact (ih hrest).imp_right (List.mem_cons_of_mem d)

theorem cr_notMem_text (t : IsoUtc) : '\r' ∉ t.text.toList := by
  have hpadded : ∀ width n, '\r' ∉ padded width n := by
    intro width n h
    cases isDigit_of_mem_padded h
  have hsecond : '\r' ∉ t.secondText := by
    unfold IsoUtc.secondText
    cases t.second with
    | none => exact List.not_mem_nil
    | some second => simp [hpadded]
  have hfraction : '\r' ∉ t.fractionText := by
    unfold IsoUtc.fractionText
    split
    · exact List.not_mem_nil
    · simp [List.mem_replicate]
  have hsuffix : '\r' ∉ t.suffix.text := by
    cases t.suffix <;> decide
  unfold IsoUtc.text
  rw [String.toList_ofList]
  simp [hpadded, hsecond, hfraction, hsuffix]

theorem cr_notMem_icsDateTime (t : IsoUtc) : '\r' ∉ (icsDateTime t.text).toList := by
  unfold icsDateTime
  rw [String.toList_ofList]
  intro h
  rcases mem_dropMilliseconds h with hz | htext
  · cases hz
  · exact cr_notMem_text t (List.mem_filter.mp htext).1

/-- Only a carriage return is one in capitals. -/
theorem toUpper_ne_cr {c : Char} (h : c ≠ '\r') : c.toUpper ≠ '\r' := by
  intro hupper
  unfold Char.toUpper at hupper
  split at hupper
  · next hlower =>
    have hval := congrArg (fun c : Char => c.val.toNat) hupper
    obtain ⟨hlow, hhigh⟩ := hlower
    rw [UInt32.le_iff_toNat_le] at hlow hhigh
    simp [UInt32.toNat_add] at hval hlow hhigh
    omega
  · exact h hupper

theorem cr_notMem_toUpper {status : String} (h : '\r' ∉ status.toList) :
    '\r' ∉ status.toUpper.toList := by
  unfold String.toUpper
  rw [String.toList_map]
  intro hmem
  obtain ⟨c, hc, hupper⟩ := List.mem_map.mp hmem
  exact toUpper_ne_cr (fun heq => h (heq ▸ hc)) hupper

/-- **The file has these lines**, if the id and the status do not break theirs. -/
theorem icsFileLines_eq {id status : String} (hid : '\r' ∉ id.toList)
    (hstatus : '\r' ∉ status.toList) (start stop : IsoUtc) :
    icsFileLines ⟨id, start.text, stop.text, status⟩ =
      icsLines ⟨id, start.text, stop.text, status⟩ := by
  have hlines : ∀ line ∈ icsLines ⟨id, start.text, stop.text, status⟩, '\r' ∉ line.toList := by
    unfold icsLines
    simp only [List.forall_mem_cons, String.toList_append, List.mem_append, not_or, hid,
      cr_notMem_toUpper hstatus, cr_notMem_icsDateTime]
    decide +kernel
  unfold icsFileLines
  rw [crlfLines_generateICS _ hlines, List.map_map]
  exact List.map_id'' (fun line => String.ofList_toList) _

/-- A line is read as its value. -/
theorem icsValue_line (name value : String) (lines : List String) :
    icsValue name (((name ++ ":") ++ value) :: lines) = some value := by
  have hbegins : (name ++ ":").toList.isPrefixOf ((name ++ ":") ++ value).toList = true := by
    rw [String.toList_append (s := name ++ ":"), List.isPrefixOf_iff_prefix]
    exact List.prefix_append _ _
  unfold icsValue
  simp only [List.find?_cons, hbegins, Option.map_some]
  rw [String.toList_append (s := name ++ ":"), List.drop_left, String.ofList_toList]

/-- A line with another name is passed over. -/
theorem icsValue_skip {name line : String} {lines : List String}
    (h : (name ++ ":").toList.isPrefixOf line.toList = false) :
    icsValue name (line :: lines) = icsValue name lines := by
  unfold icsValue
  rw [List.find?_cons_of_neg (by rw [h]; exact Bool.false_ne_true)]

/-- The line of the id is none of the two. -/
theorem uid_isPrefixOf {name : String} {c : Char} {cs : List Char} (hname : (name ++ ":").toList = c :: cs)
    (hc : c ≠ 'U') (id : String) : (name ++ ":").toList.isPrefixOf ("UID:" ++ id ++ "@chronos").toList = false := by
  have huid : "UID:".toList = ['U', 'I', 'D', ':'] := by decide +kernel
  rw [hname, String.toList_append, String.toList_append, huid, Bool.eq_false_iff, Ne,
    List.isPrefixOf_iff_prefix]
  exact fun h => hc (List.cons_prefix_cons.mp h).1

theorem icsValue_start (booking : IcsBooking) :
    icsValue "DTSTART" (icsLines booking) = some (icsDateTime booking.slotStartUtc) := by
  have hname : ("DTSTART" ++ ":").toList = ['D', 'T', 'S', 'T', 'A', 'R', 'T', ':'] := by decide +kernel
  have hline : "DTSTART:" = "DTSTART" ++ ":" := by decide +kernel
  unfold icsLines
  rw [icsValue_skip (by decide +kernel), icsValue_skip (by decide +kernel),
    icsValue_skip (by decide +kernel), icsValue_skip (by decide +kernel),
    icsValue_skip (uid_isPrefixOf hname (by decide) booking.id), hline, icsValue_line]

theorem icsValue_end (booking : IcsBooking) :
    icsValue "DTEND" (icsLines booking) = some (icsDateTime booking.slotEndUtc) := by
  have hname : ("DTEND" ++ ":").toList = ['D', 'T', 'E', 'N', 'D', ':'] := by decide +kernel
  have hline : "DTEND:" = "DTEND" ++ ":" := by decide +kernel
  have hstart : ("DTEND" ++ ":").toList.isPrefixOf
      ("DTSTART:" ++ icsDateTime booking.slotStartUtc).toList = false := by
    have hother : "DTSTART:".toList = ['D', 'T', 'S', 'T', 'A', 'R', 'T', ':'] := by decide +kernel
    rw [hname, String.toList_append, hother]
    rfl
  unfold icsLines
  rw [icsValue_skip (by decide +kernel), icsValue_skip (by decide +kernel),
    icsValue_skip (by decide +kernel), icsValue_skip (by decide +kernel),
    icsValue_skip (uid_isPrefixOf hname (by decide) booking.id), icsValue_skip hstart, hline,
    icsValue_line]

/-- **The round trip**: a calendar reads the two instants from the lines. -/
structure IcsRoundTrip (lines : List String) (start stop : IsoUtc) : Prop where
  start : (icsValue "DTSTART" lines).bind decodeUtc = some start.seconds
  stop : (icsValue "DTEND" lines).bind decodeUtc = some stop.seconds

theorem roundTrip_icsLines_iff (id status : String) (start stop : IsoUtc) :
    IcsRoundTrip (icsLines ⟨id, start.text, stop.text, status⟩) start stop ↔
      start.Plain ∧ stop.Plain := by
  rw [← decodeUtc_icsDateTime_iff, ← decodeUtc_icsDateTime_iff]
  constructor
  · rintro ⟨hstart, hstop⟩
    rw [icsValue_start, Option.bind_some] at hstart
    rw [icsValue_end, Option.bind_some] at hstop
    exact ⟨hstart, hstop⟩
  · rintro ⟨hstart, hstop⟩
    refine ⟨?_, ?_⟩
    · rw [icsValue_start, Option.bind_some]
      exact hstart
    · rw [icsValue_end, Option.bind_some]
      exact hstop

/-- **Where the round trip holds**: of the lines that `generateICS` joins, whatever the id and the
    status, and of the lines of the file, if neither has a carriage return in it. -/
theorem ics_roundTrip_iff (id status : String) (start stop : IsoUtc) :
    (IcsRoundTrip (icsLines ⟨id, start.text, stop.text, status⟩) start stop ↔
        start.Plain ∧ stop.Plain) ∧
      ('\r' ∉ id.toList → '\r' ∉ status.toList →
        (IcsRoundTrip (icsFileLines ⟨id, start.text, stop.text, status⟩) start stop ↔
          start.Plain ∧ stop.Plain)) := by
  refine ⟨roundTrip_icsLines_iff id status start stop, fun hid hstatus => ?_⟩
  rw [icsFileLines_eq hid hstatus]
  exact roundTrip_icsLines_iff id status start stop

end Read

/-! #### One booking -/

/-- Noon of the first of January 1970, with an offset. -/
def sampleIsoStart : IsoUtc where
  date := epoch
  hour := 12
  minute := 0
  second := some 0
  zeros := 0
  suffix := .plus
  year_lt := by decide
  hour_le := by decide
  minute_lt := by decide
  second_lt := by decide

def sampleIsoStop : IsoUtc := { sampleIsoStart with minute := 30, hour_le := by decide, minute_lt := by decide }

/-- No calendar can read the export. -/
theorem ics_offset_mangled :
    sampleIsoStart.text = "1970-01-01T12:00:00+00:00" ∧
      isoUTCStringSchema sampleIsoStart.text = true ∧
      icsDateTime sampleIsoStart.text = "19700101T120000+0000" ∧
      decodeUtc (icsDateTime sampleIsoStart.text) = none ∧
      ¬ IcsRoundTrip (icsFileLines ⟨"b", sampleIsoStart.text, sampleIsoStop.text, "booked"⟩)
        sampleIsoStart sampleIsoStop := by
  have hread : decodeUtc (icsDateTime sampleIsoStart.text) = none := by decide +kernel
  refine ⟨by decide +kernel, by decide +kernel, by decide +kernel, hread, fun h => ?_⟩
  rw [icsFileLines_eq (by decide) (by decide +kernel)] at h
  have hstart := h.start
  rw [icsValue_start, Option.bind_some, hread] at hstart
  cases hstart

end Chronos
