import Chronos.AdminSession
import Chronos.Attribution
import Chronos.Text.CodeUnits

namespace Chronos

open Text

/-!
# The session of a client

Three places look for the session in the header with one regular expression, which nothing anchors
to the name of a cookie.

* `extractClientFromCookie`, `AuthGuard.canActivate`, `NotificationsController.clientId` — the three
  places.
* `CookiePair`, `cookieHeader` — a header is a list of pairs.
* `matchSession_cookieHeader` — the match in a header is the match in the first pair that has one.
* `CookiePair.Shows` — what a pair shows as a session, in the words of its text.
* `sessionIsTheCookie_iff` — the session is the cookie of its name, exactly if no pair shows
  another one before it.
-/

/-! ### The three places -/

/-- What the regular expression looks for. -/
def sessionPattern : String := "chronos_session="

/-- `text.match(/chronos_session=([^;]+)/)?.[1]`. -/
def matchSession (text : String) : Option String :=
  (matchAfter sessionPattern.toList text.toList).map String.ofList

/-- `extractClientFromCookie` of `bookings.controller.ts`. -/
def extractClientFromCookie (cookie : Option String) : Option String :=
  match truthy cookie with
  | none => none
  | some cookie => matchSession cookie

def isHexDigit (c : Char) : Bool :=
  decide ('0' ≤ c ∧ c ≤ '9') || decide ('a' ≤ c ∧ c ≤ 'f') || decide ('A' ≤ c ∧ c ≤ 'F')

/-- `/^[0-9a-f]{8}-[0-9a-f]{4}-[0-9a-f]{4}-[0-9a-f]{4}-[0-9a-f]{12}$/i.test(text)`. -/
def isUuid (text : String) : Bool :=
  let groups := text.toList.splitOn '-'
  decide (groups.map List.length = [8, 4, 4, 4, 12]) && groups.all fun group => group.all isHexDigit

namespace BookingsController

/-- How the handlers of an existing booking begin. -/
def client (cookie : Option String) : Except String String :=
  match truthy (extractClientFromCookie cookie) with
  | none => .error "unauthorized"
  | some sessionClientId => .ok sessionClientId

/-- How `createBooking` begins. -/
def newClient (cookie : Option String) : Except String String :=
  match truthy (extractClientFromCookie cookie) with
  | none => .error "chronos_session required"
  | some sessionClientId =>
    if isUuid sessionClientId then .ok sessionClientId else .error "invalid session"

end BookingsController

/-- `req.user`. -/
structure RequestUser where
  id : String
  role : String
  deriving DecidableEq

/-- `process.env`, as far as the guard reads it. -/
structure AuthEnv where
  noRealAuth : Option String
  nodeEnv : Option String

/-- A request without a session: the development user where that is enabled. -/
def AuthEnv.anonymous (env : AuthEnv) : Except String RequestUser :=
  if env.noRealAuth = some "true" ∧ env.nodeEnv ≠ some "production" then .ok ⟨"dev-user", "client"⟩
  else .error "Authentication required"

/-- `AuthGuard.canActivate`. -/
def AuthGuard.canActivate (env : AuthEnv) (cookie : Option String) : Except String RequestUser :=
  match truthy (matchSession (cookie.getD "")) with
  | some session => .ok ⟨session, "user"⟩
  | none => env.anonymous

namespace NotificationsController

/-- `cookie?.match(/chronos_session=([^;]+)/)?.[1]`. -/
def clientId (cookie : Option String) : Option String := cookie.bind matchSession

/-- The call of the service, if there is one. -/
inductive ServiceCall
  | listForClient (clientId : String)
  | markRead (id clientId : String)
  | markAllReadForClient (clientId : String)
  deriving DecidableEq

/-- `GET /notifications`; without a session the list is empty. -/
def list (cookie : Option String) : Option ServiceCall :=
  (truthy (clientId cookie)).map .listForClient

/-- `PATCH /notifications/:id/read`; without a session nothing is read. -/
def readOne (id : String) (cookie : Option String) : Option ServiceCall :=
  (truthy (clientId cookie)).map (.markRead id)

/-- `POST /notifications/read-all`. -/
def readAll (cookie : Option String) : Option ServiceCall :=
  (truthy (clientId cookie)).map .markAllReadForClient

end NotificationsController

/-! ### Headers -/

/-- A cookie of a header. -/
structure CookiePair where
  name : String
  value : String
  name_ne : name ≠ ""
  name_chars : '=' ∉ name.toList ∧ ';' ∉ name.toList ∧ ' ' ∉ name.toList
  value_ne : value ≠ ""
  value_chars : ';' ∉ value.toList

def CookiePair.text (p : CookiePair) : String := p.name ++ "=" ++ p.value

def cookieHeader (pairs : List CookiePair) : String := "; ".intercalate (pairs.map CookiePair.text)

def sessionName : String := "chronos_session"

/-- The value of the first cookie with the name of the session. -/
def sessionOf (pairs : List CookiePair) : Option String :=
  (pairs.find? fun p => decide (p.name = sessionName)).map CookiePair.value

/-! ### Matches -/

section Match

variable {key name value text rest : List Char}

theorem matchAfter_cons (name : List Char) (c : Char) (cs : List Char) : matchAfter name (c :: cs) =
    if name <+: c :: cs ∧ ((c :: cs).drop name.length).takeWhile (fun c => decide (c ≠ ';')) ≠ [] then
      some (((c :: cs).drop name.length).takeWhile fun c => decide (c ≠ ';'))
    else matchAfter name cs := by
  rw [matchAfter]
  simp only [Bool.and_eq_true, List.isPrefixOf_iff_prefix, Bool.not_eq_true', List.isEmpty_eq_false_iff]

/-- What cannot start a match is passed over. -/
theorem matchAfter_skip {c : Char} (h : name.head? ≠ some c) (hname : name ≠ []) (cs : List Char) :
    matchAfter name (c :: cs) = matchAfter name cs := by
  rw [matchAfter_cons]
  refine if_neg fun hmatch => ?_
  obtain ⟨d, name, rfl⟩ := List.exists_cons_of_ne_nil hname
  have hhead : d = c := (List.cons_prefix_cons.mp hmatch.1).1
  exact h (congrArg some hhead)

theorem takeWhile_notMem (h : ';' ∉ text) : text.takeWhile (fun c => decide (c ≠ ';')) = text := by
  refine List.takeWhile_eq_self_iff.mpr fun c hc => ?_
  rw [decide_eq_true_eq]
  rintro rfl
  exact h hc

theorem takeWhile_semicolon (text rest : List Char) :
    (text ++ ';' :: rest).takeWhile (fun c => decide (c ≠ ';')) =
      text.takeWhile fun c => decide (c ≠ ';') := by
  induction text with
  | nil => rfl
  | cons c text ih =>
    rw [List.cons_append, List.takeWhile_cons, List.takeWhile_cons, ih]

/-- A name without a semicolon stands before it or behind it. -/
theorem prefix_semicolon (hno : ';' ∉ name) :
    name <+: text ++ ';' :: rest ↔ name <+: text := by
  constructor
  · intro h
    rcases List.prefix_or_prefix_of_prefix h (List.prefix_append text (';' :: rest)) with hle | hle
    · exact hle
    · obtain ⟨tail, rfl⟩ := hle
      rw [List.prefix_append_right_inj] at h
      cases tail with
      | nil => simp
      | cons d tail =>
        have hsemicolon : d = ';' := (List.cons_prefix_cons.mp h).1
        exact absurd (by simp [hsemicolon]) hno
  · exact fun h => h.trans (List.prefix_append text _)

/-- No match goes on behind a semicolon. -/
theorem matchAfter_semicolon (hname : name ≠ []) (hno : ';' ∉ name) (text rest : List Char) :
    matchAfter name (text ++ ';' :: rest) = (matchAfter name text).or (matchAfter name rest) := by
  have hhead : name.head? ≠ some ';' := fun h => hno (List.mem_of_head? h)
  induction text with
  | nil => exact matchAfter_skip hhead hname rest
  | cons c text ih =>
    have hbegins : name <+: c :: (text ++ ';' :: rest) ↔ name <+: c :: text := by
      rw [← List.cons_append]
      exact prefix_semicolon hno
    rw [List.cons_append, matchAfter_cons, matchAfter_cons, ih]
    by_cases hmatch : name <+: c :: text
    · have hdrop : (c :: (text ++ ';' :: rest)).drop name.length =
          (c :: text).drop name.length ++ ';' :: rest := by
        rw [← List.cons_append, List.drop_append_of_le_length hmatch.length_le]
      rw [hdrop, takeWhile_semicolon]
      simp only [hbegins, hmatch, true_and]
      split
      · rfl
      · rfl
    · rw [if_neg fun h => hmatch (hbegins.mp h.1), if_neg fun h => hmatch h.1]

theorem prefix_equals (hkey : '=' ∉ key) (hname : '=' ∉ name) :
    key ++ ['='] <+: name ++ '=' :: value ↔ key = name := by
  constructor
  · rintro ⟨tail, h⟩
    rw [List.append_assoc] at h
    have htake := congrArg (List.takeWhile fun c => decide (c ≠ '=')) h
    rwa [List.singleton_append, takeWhile_ne hkey, takeWhile_ne hname] at htake
  · rintro rfl
    exact ⟨value, by simp⟩

/-- In a pair, the match starts with the name or lies in the value. -/
theorem matchAfter_pair (hkey : key ≠ []) (hkeyEq : '=' ∉ key) (hname : '=' ∉ name)
    (hvalue : value ≠ []) (hsemicolon : ';' ∉ value) :
    matchAfter (key ++ ['=']) (name ++ '=' :: value) =
      if key <:+ name then some value else matchAfter (key ++ ['=']) value := by
  have hpattern : key ++ ['='] ≠ [] := by simp
  have htake : value.takeWhile (fun c => decide (c ≠ ';')) = value := takeWhile_notMem hsemicolon
  induction name with
  | nil =>
    have hhead : (key ++ ['=']).head? ≠ some '=' := by
      obtain ⟨d, key, rfl⟩ := List.exists_cons_of_ne_nil hkey
      intro h
      have hd : d = '=' := Option.some.inj h
      exact hkeyEq (by simp [hd])
    rw [if_neg fun h => hkey (List.suffix_nil.mp h)]
    exact matchAfter_skip hhead hpattern value
  | cons c name ih =>
    have hrest := ih fun h => hname (List.mem_cons_of_mem _ h)
    -- The sign `=` of the pattern can only be the first one of the pair.
    have hbegins : key ++ ['='] <+: c :: (name ++ '=' :: value) ↔ key = c :: name := by
      rw [← List.cons_append]
      exact prefix_equals hkeyEq hname
    rw [List.cons_append, matchAfter_cons, hrest]
    by_cases hkeyName : key = c :: name
    · have hdrop : (c :: (name ++ '=' :: value)).drop (key ++ ['=']).length = value := by
        rw [hkeyName]
        simp
      rw [hdrop, htake, if_pos ⟨hbegins.mpr hkeyName, hvalue⟩, if_pos (hkeyName ▸ List.suffix_refl _)]
    · rw [if_neg fun h => hkeyName (hbegins.mp h.1)]
      simp only [List.suffix_cons_iff, hkeyName, false_or]

/-- A match captures all that comes behind the name. -/
theorem matchAfter_here {later : List Char} (hno : ';' ∉ text) (h : text = name ++ later)
    (hne : later ≠ []) : matchAfter name text = some later := by
  have hdrop : text.drop name.length = later := by rw [h, List.drop_left]
  have hlater : ';' ∉ later := fun hmem => hno (h ▸ List.mem_append_right name hmem)
  cases text with
  | nil => exact absurd (List.append_eq_nil_iff.mp h.symm).2 hne
  | cons d text =>
    rw [matchAfter_cons, hdrop, takeWhile_notMem hlater]
    exact if_pos ⟨⟨later, h.symm⟩, hne⟩

/-- Where the name does not begin, or nothing comes behind it, the match is in the rest. -/
theorem matchAfter_elsewhere {d : Char} (hno : ';' ∉ d :: text)
    (h : ∀ later, d :: text = name ++ later → later = []) :
    matchAfter name (d :: text) = matchAfter name text := by
  have htake : ((d :: text).drop name.length).takeWhile (fun c => decide (c ≠ ';')) =
      (d :: text).drop name.length := takeWhile_notMem fun hmem => hno (List.mem_of_mem_drop hmem)
  rw [matchAfter_cons, htake]
  refine if_neg ?_
  rintro ⟨⟨later, hlater⟩, hne⟩
  rw [← hlater, List.drop_left] at hne
  exact hne (h later hlater.symm)

/-- A match is the name with a character behind it. -/
theorem matchAfter_ne_none_iff (hno : ';' ∉ text) :
    matchAfter name text ≠ none ↔ ∃ before c after, text = before ++ (name ++ c :: after) := by
  induction text with
  | nil =>
    have hnil : matchAfter name [] = none := rfl
    simp [hnil]
  | cons d text ih =>
    by_cases hhere : ∃ later, later ≠ [] ∧ d :: text = name ++ later
    · obtain ⟨later, hne, heq⟩ := hhere
      obtain ⟨c, after, rfl⟩ := List.exists_cons_of_ne_nil hne
      rw [matchAfter_here hno heq hne]
      exact iff_of_true (Option.some_ne_none _) ⟨[], c, after, heq⟩
    · push Not at hhere
      have hnone : ∀ later, d :: text = name ++ later → later = [] :=
        fun later heq => not_not.mp fun hne => hhere later hne heq
      rw [matchAfter_elsewhere hno hnone, ih fun h => hno (List.mem_cons_of_mem _ h)]
      constructor
      · rintro ⟨before, c, after, heq⟩
        exact ⟨d :: before, c, after, by rw [heq]; rfl⟩
      · rintro ⟨before, c, after, heq⟩
        cases before with
        | nil => exact absurd (hnone _ heq) (List.cons_ne_nil c after)
        | cons d' before => exact ⟨before, c, after, (List.cons.inj heq).2⟩

/-- **What a match captures** is all that comes behind the first name with a character behind
    it. -/
theorem matchAfter_eq_some_iff (hno : ';' ∉ text) {tail : List Char} :
    matchAfter name text = some tail ↔ tail ≠ [] ∧ ∃ before, text = before ++ (name ++ tail) ∧
      ∀ earlier later, text = earlier ++ (name ++ later) → later ≠ [] →
        before.length ≤ earlier.length := by
  induction text with
  | nil =>
    have hnil : matchAfter name [] = none := rfl
    refine iff_of_false (by simp [hnil]) ?_
    rintro ⟨hne, before, heq, -⟩
    have hempty : before = [] ∧ name = [] ∧ tail = [] := by simpa using heq
    exact hne hempty.2.2
  | cons d text ih =>
    by_cases hhere : ∃ later, later ≠ [] ∧ d :: text = name ++ later
    · obtain ⟨later, hne, heq⟩ := hhere
      rw [matchAfter_here hno heq hne, Option.some_inj]
      constructor
      · rintro rfl
        exact ⟨hne, [], heq, fun _ _ _ _ => Nat.zero_le _⟩
      · rintro ⟨-, before, htail, hfirst⟩
        have hnil : before = [] :=
          List.eq_nil_of_length_eq_zero (Nat.le_zero.mp (hfirst [] later heq hne))
        rw [hnil, List.nil_append, heq] at htail
        exact List.append_cancel_left htail
    · push Not at hhere
      have hnone : ∀ later, d :: text = name ++ later → later = [] :=
        fun later heq => not_not.mp fun hne => hhere later hne heq
      rw [matchAfter_elsewhere hno hnone, ih fun h => hno (List.mem_cons_of_mem _ h)]
      refine and_congr_right fun hne => ?_
      constructor
      · rintro ⟨before, heq, hfirst⟩
        refine ⟨d :: before, by rw [heq]; rfl, fun earlier later hsplit hlater => ?_⟩
        cases earlier with
        | nil => exact absurd (hnone later hsplit) hlater
        | cons d' earlier =>
          exact Nat.succ_le_succ (hfirst earlier later (List.cons.inj hsplit).2 hlater)
      · rintro ⟨before, heq, hfirst⟩
        cases before with
        | nil => exact absurd (hnone tail heq) hne
        | cons d' before =>
          refine ⟨before, (List.cons.inj heq).2, fun earlier later hsplit hlater => ?_⟩
          exact Nat.le_of_succ_le_succ
            (hfirst (d :: earlier) later (by rw [hsplit]; rfl) hlater)

end Match

/-! ### The match in a header -/

section Header

variable {p q : CookiePair} {pairs : List CookiePair}

/-- What the regular expression captures in a pair. -/
def CookiePair.captured (p : CookiePair) : Option String :=
  if sessionName.toList <:+ p.name.toList then some p.value else matchSession p.value

theorem sessionPattern_eq : sessionPattern.toList = sessionName.toList ++ ['='] := by decide +kernel

theorem sessionPattern_ne : sessionPattern.toList ≠ [] := by decide +kernel

theorem semicolon_notMem_sessionPattern : ';' ∉ sessionPattern.toList := by decide +kernel

theorem matchAfter_text (p : CookiePair) :
    matchAfter sessionPattern.toList p.text.toList = p.captured.map String.toList := by
  have htext : p.text.toList = p.name.toList ++ '=' :: p.value.toList := by
    unfold CookiePair.text
    rw [String.toList_append, String.toList_append, List.append_assoc]
    rfl
  have hvalue : p.value.toList ≠ [] := fun hnil => p.value_ne (String.toList_eq_nil_iff.mp hnil)
  have hkey : sessionName.toList ≠ [] := by decide +kernel
  have hkeyEq : '=' ∉ sessionName.toList := by decide +kernel
  unfold CookiePair.captured matchSession
  rw [htext, sessionPattern_eq, matchAfter_pair hkey hkeyEq p.name_chars.1 hvalue p.value_chars]
  split
  · rfl
  · rw [Option.map_map]
    have hid : String.toList ∘ String.ofList = id := funext fun _ => String.toList_ofList
    rw [hid, Option.map_id]
    rfl

/-- **The match in a header** is the match in the first pair that has one. -/
theorem matchSession_cookieHeader (pairs : List CookiePair) :
    matchSession (cookieHeader pairs) = pairs.findSome? CookiePair.captured := by
  have hmatch : matchAfter sessionPattern.toList (cookieHeader pairs).toList =
      (pairs.findSome? CookiePair.captured).map String.toList := by
    unfold cookieHeader
    induction pairs with
    | nil => decide +kernel
    | cons p pairs ih =>
      cases pairs with
      | nil =>
        rw [List.map_singleton, String.intercalate_singleton, matchAfter_text]
        simp
      | cons q pairs =>
        have hjoin : ("; ".intercalate ((p :: q :: pairs).map CookiePair.text)).toList =
            p.text.toList ++ ';' :: ' ' :: ("; ".intercalate ((q :: pairs).map CookiePair.text)).toList := by
          rw [List.map_cons, List.map_cons, String.intercalate_cons_cons, String.toList_append,
            String.toList_append, List.append_assoc]
          rfl
        have hspace : sessionPattern.toList.head? ≠ some ' ' := by decide +kernel
        have hfirst : (p :: q :: pairs).findSome? CookiePair.captured =
            p.captured.or ((q :: pairs).findSome? CookiePair.captured) := by
          rw [List.findSome?_cons]
          cases p.captured with
          | none => rfl
          | some text => rfl
        rw [hjoin, matchAfter_semicolon sessionPattern_ne semicolon_notMem_sessionPattern,
          matchAfter_skip hspace sessionPattern_ne, ih, matchAfter_text, hfirst, Option.map_or]
  unfold matchSession
  rw [hmatch, Option.map_map]
  have hid : String.ofList ∘ String.toList = id := funext fun _ => String.ofList_toList
  rw [hid, Option.map_id]
  rfl

/-! ### Pairs that carry a session -/

/-- The name ends like the name of the session, or the pattern stands in the value with a character
    behind it. -/
def CookiePair.Carries (p : CookiePair) : Prop :=
  sessionName.toList <:+ p.name.toList ∨
    ∃ before c after, p.value.toList = before ++ (sessionPattern.toList ++ c :: after)

theorem carries_iff (p : CookiePair) : p.Carries ↔ p.captured ≠ none := by
  unfold CookiePair.Carries CookiePair.captured matchSession
  rw [← matchAfter_ne_none_iff p.value_chars]
  split
  · next hname => simp [hname]
  · next hname => simp [hname]

/-- The session itself is captured whole. -/
theorem captured_of_name (h : p.name = sessionName) : p.captured = some p.value := by
  unfold CookiePair.captured
  rw [h, if_pos (List.suffix_refl _)]

/-- A pair with the name of the session carries one. -/
theorem carries_of_name (h : p.name = sessionName) : p.Carries :=
  .inl (h ▸ List.suffix_refl _)

/-- The text is not empty, and comes behind the first pattern of the value that has a character
    behind it. -/
def CookiePair.Holds (p : CookiePair) (session : String) : Prop :=
  session ≠ "" ∧ ∃ before, p.value.toList = before ++ (sessionPattern.toList ++ session.toList) ∧
    ∀ earlier later, p.value.toList = earlier ++ (sessionPattern.toList ++ later) → later ≠ [] →
      before.length ≤ earlier.length

/-- What a pair shows as a session: its value, if its name ends like the name of the session; and
    otherwise what comes behind the pattern in the value. -/
def CookiePair.Shows (p : CookiePair) (session : String) : Prop :=
  (sessionName.toList <:+ p.name.toList ∧ p.value = session) ∨
    (¬ sessionName.toList <:+ p.name.toList ∧ p.Holds session)

theorem matchSession_value_iff {session : String} :
    matchSession p.value = some session ↔ p.Holds session := by
  unfold matchSession CookiePair.Holds
  rw [Option.map_eq_some_iff]
  constructor
  · rintro ⟨tail, htail, rfl⟩
    obtain ⟨hne, hbefore⟩ := (matchAfter_eq_some_iff p.value_chars).mp htail
    rw [String.toList_ofList]
    exact ⟨fun hempty => hne (by simpa using hempty), hbefore⟩
  · rintro ⟨hne, hbefore⟩
    have htail : session.toList ≠ [] := fun hnil => hne (String.toList_eq_nil_iff.mp hnil)
    exact ⟨session.toList, (matchAfter_eq_some_iff p.value_chars).mpr ⟨htail, hbefore⟩,
      String.ofList_toList⟩

/-- **What a pair shows** is what the regular expression captures in it. -/
theorem CookiePair.shows_iff {session : String} : p.Shows session ↔ p.captured = some session := by
  unfold CookiePair.Shows CookiePair.captured
  split
  · next hname => simp [hname]
  · next hname => simp [hname, matchSession_value_iff]

/-- **Nothing passes for the session before the session**: no pair carries one; or the first that
    does has the name of the session; or what it shows happens to be the value of that cookie. -/
def Undisguised (pairs : List CookiePair) : Prop :=
  (∀ p ∈ pairs, ¬ p.Carries) ∨
    ∃ before p after, pairs = before ++ p :: after ∧ (∀ q ∈ before, ¬ q.Carries) ∧ p.Carries ∧
      (p.name = sessionName ∨ ∃ session, sessionOf pairs = some session ∧ p.Shows session)

theorem sessionOf_of_none (h : ∀ p ∈ pairs, ¬ p.Carries) : sessionOf pairs = none := by
  unfold sessionOf
  rw [List.find?_eq_none.mpr]
  · rfl
  · intro p hp hname
    exact h p hp (carries_of_name (of_decide_eq_true hname))

/-- The first pair that carries a session is the session, if it has its name. -/
theorem sessionOf_of_first {before after : List CookiePair} (hbefore : ∀ q ∈ before, ¬ q.Carries)
    (hname : p.name = sessionName) : sessionOf (before ++ p :: after) = some p.value := by
  have hnone := sessionOf_of_none hbefore
  unfold sessionOf at hnone ⊢
  rw [List.find?_append, Option.map_eq_none_iff.mp hnone,
    List.find?_cons_of_pos (by simpa using hname)]
  rfl

theorem findSome_of_none (h : ∀ p ∈ pairs, ¬ p.Carries) :
    pairs.findSome? CookiePair.captured = none := by
  rw [List.findSome?_eq_none_iff]
  intro p hp
  by_contra hne
  exact h p hp ((carries_iff p).mpr hne)

/-- What is captured in a header is captured in the first pair that carries a session. -/
theorem first_of_findSome {session : String}
    (h : pairs.findSome? CookiePair.captured = some session) :
    ∃ before p after, pairs = before ++ p :: after ∧ (∀ q ∈ before, ¬ q.Carries) ∧ p.Carries ∧
      p.captured = some session := by
  obtain ⟨before, p, after, hpairs, hsession, hbefore⟩ := List.findSome?_eq_some_iff.mp h
  refine ⟨before, p, after, hpairs, fun q hq hcarries => ?_, ?_, hsession⟩
  · exact (carries_iff q).mp hcarries (hbefore q hq)
  · rw [carries_iff, hsession]
    exact Option.some_ne_none session

theorem findSome_of_first {before after : List CookiePair} (hbefore : ∀ q ∈ before, ¬ q.Carries)
    {session : String} (h : p.captured = some session) :
    (before ++ p :: after).findSome? CookiePair.captured = some session := by
  rw [List.findSome?_append, findSome_of_none hbefore, List.findSome?_cons, h]
  rfl

theorem findSome_eq_sessionOf_iff (pairs : List CookiePair) :
    pairs.findSome? CookiePair.captured = sessionOf pairs ↔ Undisguised pairs := by
  constructor
  · intro h
    cases hfind : pairs.findSome? CookiePair.captured with
    | none =>
      refine .inl fun p hp hcarries => ?_
      exact (carries_iff p).mp hcarries (List.findSome?_eq_none_iff.mp hfind p hp)
    | some session =>
      obtain ⟨before, p, after, hpairs, hbefore, hp, hsession⟩ := first_of_findSome hfind
      exact .inr ⟨before, p, after, hpairs, hbefore, hp,
        .inr ⟨session, h.symm.trans hfind, CookiePair.shows_iff.mpr hsession⟩⟩
  · rintro (hnone | ⟨before, p, after, rfl, hbefore, -, hname | ⟨session, hsession, hshows⟩⟩)
    · rw [findSome_of_none hnone, sessionOf_of_none hnone]
    · rw [findSome_of_first hbefore (captured_of_name hname), sessionOf_of_first hbefore hname]
    · rw [findSome_of_first hbefore (CookiePair.shows_iff.mp hshows), hsession]

/-! ### The session -/

theorem truthy_of_ne {text : String} (h : text ≠ "") : truthy (some text) = some text := by
  unfold truthy
  split
  · next heq => exact absurd (Option.some.inj heq) h
  · rfl

theorem truthy_sessionOf (pairs : List CookiePair) : truthy (sessionOf pairs) = sessionOf pairs := by
  unfold sessionOf
  cases pairs.find? fun p => decide (p.name = sessionName) with
  | none => rfl
  | some p => exact truthy_of_ne p.value_ne

/-- An empty header has no match either. -/
theorem extractClientFromCookie_some (header : String) :
    extractClientFromCookie (some header) = matchSession header := by
  unfold extractClientFromCookie
  by_cases hempty : header = ""
  · rw [hempty]
    decide +kernel
  · rw [truthy_of_ne hempty]

/-- **The session is the cookie of its name**, wherever it is looked for; without that cookie a
    request is refused, or it is anonymous. -/
structure SessionIsTheCookie (env : AuthEnv) (pairs : List CookiePair) : Prop where
  client : BookingsController.client (some (cookieHeader pairs)) =
    (sessionOf pairs).elim (.error "unauthorized") .ok
  newClient : BookingsController.newClient (some (cookieHeader pairs)) =
    (sessionOf pairs).elim (.error "chronos_session required") fun session =>
      if isUuid session then .ok session else .error "invalid session"
  guard : AuthGuard.canActivate env (some (cookieHeader pairs)) =
    (sessionOf pairs).elim env.anonymous fun session => .ok ⟨session, "user"⟩
  notifications : NotificationsController.clientId (some (cookieHeader pairs)) = sessionOf pairs
  list : NotificationsController.list (some (cookieHeader pairs)) =
    (sessionOf pairs).map .listForClient
  readOne : ∀ id, NotificationsController.readOne id (some (cookieHeader pairs)) =
    (sessionOf pairs).map (.markRead id)
  readAll : NotificationsController.readAll (some (cookieHeader pairs)) =
    (sessionOf pairs).map .markAllReadForClient

theorem sessionIsTheCookie_of_match {env : AuthEnv} (h : matchSession (cookieHeader pairs) = sessionOf pairs) :
    SessionIsTheCookie env pairs := by
  have hclientId : NotificationsController.clientId (some (cookieHeader pairs)) = sessionOf pairs := h
  have htruthy := truthy_sessionOf pairs
  constructor
  · unfold BookingsController.client
    rw [extractClientFromCookie_some, h, htruthy]
    cases sessionOf pairs with
    | none => rfl
    | some session => rfl
  · unfold BookingsController.newClient
    rw [extractClientFromCookie_some, h, htruthy]
    cases sessionOf pairs with
    | none => rfl
    | some session => rfl
  · unfold AuthGuard.canActivate
    rw [Option.getD_some, h, htruthy]
    cases sessionOf pairs with
    | none => rfl
    | some session => rfl
  · exact hclientId
  · unfold NotificationsController.list
    rw [hclientId, htruthy]
  · intro id
    unfold NotificationsController.readOne
    rw [hclientId, htruthy]
  · unfold NotificationsController.readAll
    rw [hclientId, htruthy]

/-- **Where the session is the cookie.** -/
theorem sessionIsTheCookie_iff (env : AuthEnv) (pairs : List CookiePair) :
    SessionIsTheCookie env pairs ↔ Undisguised pairs := by
  rw [← findSome_eq_sessionOf_iff, ← matchSession_cookieHeader]
  constructor
  · intro h
    exact h.notifications
  · exact sessionIsTheCookie_of_match

end Header

/-! #### One header -/

/-- A cookie whose name ends like the name of the session, before the session. -/
def sampleCookies : List CookiePair :=
  [⟨"xchronos_session", "evil", by decide, by decide +kernel, by decide, by decide +kernel⟩,
    ⟨"chronos_session", "good", by decide, by decide +kernel, by decide, by decide +kernel⟩]

/-- The first cookie is taken for the session. -/
theorem session_is_not_the_cookie :
    cookieHeader sampleCookies = "xchronos_session=evil; chronos_session=good" ∧
      extractClientFromCookie (some (cookieHeader sampleCookies)) = some "evil" ∧
      sessionOf sampleCookies = some "good" ∧
      ¬ SessionIsTheCookie ⟨none, some "production"⟩ sampleCookies := by
  have hmatch : matchSession (cookieHeader sampleCookies) = some "evil" := by decide +kernel
  have hsession : sessionOf sampleCookies = some "good" := by decide +kernel
  refine ⟨by decide +kernel, by decide +kernel, hsession, fun h => ?_⟩
  have hnotifications : matchSession (cookieHeader sampleCookies) = sessionOf sampleCookies :=
    h.notifications
  rw [hmatch, hsession] at hnotifications
  revert hnotifications
  decide

end Chronos
