import Chronos.Schema
import Chronos.Text.Encoding
import Mathlib.Data.List.TakeWhile

namespace Chronos

open Text

/-!
# Admin sessions

`AdminSessionService`, `AdminAuthGuard` and the endpoints of `AdminAuthController`.  A login
draws a token, stores a hash of it, and sets the token as a cookie; the guard and the logout
look for the hash of what the cookie header holds.

Between the two ends stand two things that do not fit.  `hashToken` draws a new salt for every
hash, and the cookie holds the token percent-encoded, where nobody decodes it: a token of 32
bytes ends in the padding `=`, so what is hashed on the way back is never a token at all
(`encoded_ne_token`).  No login is ever found again: `sessions_work_iff`.
-/

abbrev AdminId := Nat

structure Admin where
  id : AdminId
  email : String
  name : String
  passwordHash : Option String
  deriving DecidableEq

/-- A row of `admin_sessions`. -/
structure AdminSession where
  adminId : AdminId
  tokenHash : String
  expiresAt : Instant
  deriving DecidableEq

/-- What `randomBytes(32)` draws. -/
abbrev Bytes32 := { bytes : List UInt8 // bytes.length = 32 }

/-- `buffer.toString('base64')`. -/
def base64Text (bytes : List UInt8) : String := String.ofList (toBase64 bytes)

section Service

variable (scrypt : String → List UInt8 → List UInt8)

/-- `hashToken`; `salt` is what it draws. -/
def hashToken (salt : Bytes32) (token : String) : String :=
  let saltText := base64Text salt.1
  let derived := scrypt token (fromBase64 saltText.toList)
  "scrypt:" ++ saltText ++ ":" ++ base64Text derived

/-- `PasswordService.verifyPassword`. -/
def verifyPassword (password encoded : String) : Bool :=
  match encoded.toList.splitOn ':' with
  | scheme :: salt :: derived :: _ =>
      decide (scheme = "scrypt".toList) && !salt.isEmpty && !derived.isEmpty &&
        decide (toBase64 (scrypt password (fromBase64 salt)) = derived)
  | _ => false

/-- `expiresInMs = 8 * 60 * 60 * 1000`. -/
def sessionMs : Int := 8 * 60 * 60 * 1000

def createSession (adminId : AdminId) (rawToken : String) (salt : Bytes32) (now : Instant)
    (sessions : List AdminSession) : List AdminSession :=
  sessions ++ [⟨adminId, hashToken scrypt salt rawToken, now + sessionMs⟩]

def findByToken (rawToken : String) (salt : Bytes32) (sessions : List AdminSession) :
    Option AdminSession :=
  sessions.find? fun s => decide (s.tokenHash = hashToken scrypt salt rawToken)

def revokeSession (token : String) (salt : Bytes32) (sessions : List AdminSession) :
    List AdminSession :=
  sessions.filter fun s => !decide (s.tokenHash = hashToken scrypt salt token)

end Service

/-! ### The cookie -/

/-- `text.match(/name([^;]+)/)`, the group of the first match. -/
def matchAfter (name : List Char) : List Char → Option (List Char)
  | [] => none
  | c :: cs =>
      let value := ((c :: cs).drop name.length).takeWhile fun c => decide (c ≠ ';')
      if name.isPrefixOf (c :: cs) && !value.isEmpty then some value else matchAfter name cs

def cookieName : String := "chronos_admin_session="

/-- `cookie.match(/chronos_admin_session=([^;]+)/)` on `req.headers?.cookie || ''`. -/
def sessionCookie (header : Option String) : Option String :=
  (matchAfter cookieName.toList (header.getD "").toList).map String.ofList

/-- What `res.cookie` makes of a value. -/
def cookieValue (value : String) : String := String.ofList (encodeURIComponent value.toList)

/-! ### The endpoints -/

/-- A call, with what its functions draw. -/
inductive AdminCall
  | login (email password : Option String) (token salt : Bytes32)
  | logout (cookie : Option String) (salt : Bytes32)
  /-- Any request behind `AdminAuthGuard`. -/
  | request (cookie : Option String) (salt : Bytes32)

inductive AdminReply
  | loggedIn (admin : Admin) (cookie : String)
  | loggedOut
  | admitted (admin : Admin)
  | unauthorized (message : String)
  deriving DecidableEq

section Endpoints

variable (scrypt : String → List UInt8 → List UInt8) (admins : List Admin)

/-- `text || undefined`, the falsy texts of a body. -/
def present (text : Option String) : Option String := text.filter fun t => decide (t ≠ "")

/-- `AdminAuthController.login`. -/
def AdminAuthController.login (email password : Option String) (token salt : Bytes32) (now : Instant)
    (sessions : List AdminSession) : AdminReply × List AdminSession :=
  match present email, present password with
  | some email, some password =>
      match admins.find? fun a => decide (a.email = email) with
      | none => (.unauthorized "Invalid credentials", sessions)
      | some admin =>
          match present admin.passwordHash with
          | none => (.unauthorized "Invalid credentials", sessions)
          | some passwordHash =>
              if verifyPassword scrypt password passwordHash then
                let rawToken := base64Text token.1
                (.loggedIn admin (cookieValue rawToken),
                  createSession scrypt admin.id rawToken salt now sessions)
              else (.unauthorized "Invalid credentials", sessions)
  | _, _ => (.unauthorized "Credentials required", sessions)

/-- `AdminAuthController.logout`. -/
def AdminAuthController.logout (cookie : Option String) (salt : Bytes32) (sessions : List AdminSession) :
    AdminReply × List AdminSession :=
  match sessionCookie cookie with
  | none => (.loggedOut, sessions)
  | some token => (.loggedOut, revokeSession scrypt token salt sessions)

/-- `AdminAuthGuard.canActivate`; the session is read with its admin. -/
def AdminAuthGuard.canActivate (cookie : Option String) (salt : Bytes32) (now : Instant)
    (sessions : List AdminSession) : AdminReply :=
  match sessionCookie cookie with
  | none => .unauthorized "Admin session required"
  | some sessionToken =>
      match findByToken scrypt sessionToken salt sessions with
      | none => .unauthorized "Admin session invalid or expired"
      | some session =>
          match admins.find? fun a => decide (a.id = session.adminId) with
          | none => .unauthorized "Admin session invalid or expired"
          | some admin =>
              if now > session.expiresAt then .unauthorized "Admin session invalid or expired"
              else .admitted admin

def AdminCall.serve (now : Instant) (sessions : List AdminSession) :
    AdminCall → AdminReply × List AdminSession
  | .login email password token salt => AdminAuthController.login scrypt admins email password token salt now sessions
  | .logout cookie salt => AdminAuthController.logout scrypt cookie salt sessions
  | .request cookie salt => (AdminAuthGuard.canActivate scrypt admins cookie salt now sessions, sessions)

end Endpoints

/-! ### Runs -/

/-- One call of a run: when it came, and how it was answered. -/
structure AdminStep where
  now : Instant
  call : AdminCall
  reply : AdminReply

/-- The runs from a database without sessions, each with its sessions and its history. -/
inductive AdminRun (scrypt : String → List UInt8 → List UInt8) (admins : List Admin) :
    List AdminSession → List AdminStep → Prop
  | start : AdminRun scrypt admins [] []
  | step {sessions past} (now : Instant) (call : AdminCall) : AdminRun scrypt admins sessions past →
      AdminRun scrypt admins (call.serve scrypt admins now sessions).2
        (past ++ [⟨now, call, (call.serve scrypt admins now sessions).1⟩])

/-- A login at `t` has set cookie `value` for an admin. -/
def SetAt (past : List AdminStep) (admin : Admin) (t : Instant) (value : String) : Prop :=
  ∃ step ∈ past, step.now = t ∧ step.reply = .loggedIn admin value

/-- A logout came with cookie `value`. -/
def LoggedOut (past : List AdminStep) (value : String) : Prop :=
  ∃ step ∈ past, ∃ cookie salt, step.call = .logout cookie salt ∧ sessionCookie cookie = some value

/-- The step is a request with cookie `value`. -/
def AdminStep.Carries (step : AdminStep) (value : String) : Prop :=
  ∃ cookie salt, step.call = .request cookie salt ∧ sessionCookie cookie = some value

/-- **Sessions work**: whoever comes with the cookie of a login is admitted as that admin before
    the session expires, and rejected afterwards and after a logout with that cookie. -/
def SessionsWork (history : List AdminStep) : Prop :=
  ∀ past step rest, history = past ++ step :: rest → ∀ admin t value,
    SetAt past admin t value → step.Carries value →
      (step.now < t + sessionMs → ¬ LoggedOut past value → step.reply = .admitted admin) ∧
      (t + sessionMs < step.now ∨ LoggedOut past value → ∃ m, step.reply = .unauthorized m)

/-- Nobody comes with the cookie of a login while the session lives. -/
def NeverUsed (history : List AdminStep) : Prop :=
  ∀ past step rest, history = past ++ step :: rest → ∀ admin t value,
    SetAt past admin t value → step.Carries value → step.now < t + sessionMs → LoggedOut past value

/-! ### What is looked for is never there -/

section Lookup

variable {scrypt : String → List UInt8 → List UInt8} {admins : List Admin}
variable {sessions : List AdminSession} {history : List AdminStep}

/-- What stands before and after a separator. -/
theorem append_separator {a a' b b' : List Char} {c : Char} (ha : c ∉ a) (ha' : c ∉ a')
    (h : a ++ c :: b = a' ++ c :: b') : a = a' ∧ b = b' := by
  induction a generalizing a' with
  | nil =>
    cases a' with
    | nil => exact ⟨rfl, (List.cons.inj h).2⟩
    | cons x a' =>
      obtain ⟨rfl, -⟩ := List.cons.inj h
      exact absurd List.mem_cons_self ha'
  | cons x a ih =>
    cases a' with
    | nil =>
      obtain ⟨rfl, -⟩ := List.cons.inj h
      exact absurd List.mem_cons_self ha
    | cons x' a' =>
      obtain ⟨rfl, htail⟩ := List.cons.inj h
      obtain ⟨rfl, rfl⟩ := ih (fun hc => ha (List.mem_cons_of_mem _ hc))
        (fun hc => ha' (List.mem_cons_of_mem _ hc)) htail
      exact ⟨rfl, rfl⟩

theorem toList_hashToken (salt : Bytes32) (token : String) :
    (hashToken scrypt salt token).toList
      = "scrypt:".toList ++ (toBase64 salt.1 ++ ':' :: toBase64 (scrypt token salt.1)) := by
  simp [hashToken, base64Text, fromBase64_toBase64, String.toList_append]

theorem colon_notMem_toBase64 (bytes : List UInt8) : ':' ∉ toBase64 bytes :=
  not_mem_toBase64 (by decide +kernel)

/-- A password is verified with its own hash, if a key is derived at all. -/
theorem verifyPassword_hashToken (salt : Bytes32) {password : String}
    (hderived : scrypt password salt.1 ≠ []) :
    verifyPassword scrypt password (hashToken scrypt salt password) = true := by
  have hsalt : salt.1 ≠ [] := List.ne_nil_of_length_pos (by rw [salt.2]; decide)
  have hne : ∀ {bytes : List UInt8}, bytes ≠ [] → toBase64 bytes ≠ [] := fun h hnil =>
    h (toBase64_injective (hnil.trans rfl))
  -- The three parts of the hash have no colon in them.
  have hsplit : (hashToken scrypt salt password).toList.splitOn ':' =
      ["scrypt".toList, toBase64 salt.1, toBase64 (scrypt password salt.1)] := by
    rw [toList_hashToken]
    show ("scrypt".toList ++ ':' :: (toBase64 salt.1 ++ ':' :: _)).splitOn ':' = _
    rw [List.splitOn_append_cons_self, List.splitOn_append_cons_self,
      List.splitOn_eq_singleton (by decide), List.splitOn_eq_singleton (colon_notMem_toBase64 _),
      List.splitOn_eq_singleton (colon_notMem_toBase64 _)]
    rfl
  unfold verifyPassword
  rw [hsplit]
  simp [hne hsalt, hne hderived, fromBase64_toBase64]

/-- Equal hashes are hashes of one token. -/
theorem hashToken_inj (hscrypt : ∀ salt, Function.Injective fun token => scrypt token salt)
    {salt salt' : Bytes32} {token token' : String}
    (h : hashToken scrypt salt token = hashToken scrypt salt' token') : token = token' := by
  have htext := congrArg String.toList h
  rw [toList_hashToken, toList_hashToken, List.append_cancel_left_eq] at htext
  obtain ⟨hsalt, hkey⟩ := append_separator (colon_notMem_toBase64 _) (colon_notMem_toBase64 _) htext
  have hsame : salt.1 = salt'.1 := toBase64_injective hsalt
  have hderived : scrypt token salt.1 = scrypt token' salt.1 := by
    rw [toBase64_injective hkey, hsame]
  exact hscrypt salt.1 hderived

/-- **The cookie of a login is no token.**  Its padding has become `%3D`. -/
theorem encoded_ne_token (token : Bytes32) (bytes : List UInt8) :
    cookieValue (base64Text token.1) ≠ base64Text bytes := by
  have hpad : '=' ∈ toBase64 token.1 := padding_mem_toBase64 (by rw [token.2]; decide)
  have hpercent : '%' ∈ encodeURIComponent (toBase64 token.1) :=
    percent_mem_encodeURIComponent hpad (by decide +kernel)
  intro h
  have htext := congrArg String.toList h
  simp only [cookieValue, base64Text, String.toList_ofList] at htext
  rw [htext] at hpercent
  exact not_mem_toBase64 (by decide +kernel) hpercent

/-- Every session was stored with the hash of a token. -/
def OfTokens (scrypt : String → List UInt8 → List UInt8) (sessions : List AdminSession) : Prop :=
  ∀ s ∈ sessions, ∃ salt bytes, s.tokenHash = hashToken scrypt salt (base64Text bytes)

/-- The cookies that were set are encoded tokens. -/
def OfLogins (history : List AdminStep) : Prop :=
  ∀ admin t value, SetAt history admin t value →
    ∃ token : Bytes32, value = cookieValue (base64Text token.1)

/-- What a login stores and sets. -/
theorem login_cases (scrypt : String → List UInt8 → List UInt8) (admins : List Admin)
    (sessions : List AdminSession) (email password : Option String) (token salt : Bytes32)
    (now : Instant) :
    (∃ m, AdminAuthController.login scrypt admins email password token salt now sessions
        = (.unauthorized m, sessions)) ∨
      ∃ admin, AdminAuthController.login scrypt admins email password token salt now sessions
        = (.loggedIn admin (cookieValue (base64Text token.1)),
            createSession scrypt admin.id (base64Text token.1) salt now sessions) := by
  unfold AdminAuthController.login
  split
  · split
    · exact Or.inl ⟨_, rfl⟩
    · next admin _ =>
      split
      · exact Or.inl ⟨_, rfl⟩
      · split
        · exact Or.inr ⟨admin, rfl⟩
        · exact Or.inl ⟨_, rfl⟩
  · exact Or.inl ⟨_, rfl⟩

theorem ofTokens_createSession {adminId : AdminId} {bytes : List UInt8} {salt : Bytes32}
    {now : Instant} (h : OfTokens scrypt sessions) :
    OfTokens scrypt (createSession scrypt adminId (base64Text bytes) salt now sessions) := by
  intro s hs
  rcases List.mem_append.mp hs with hs | hs
  · exact h s hs
  · rw [List.mem_singleton.mp hs]
    exact ⟨salt, bytes, rfl⟩

/-- **Step lemma.** -/
theorem OfTokens.serve (h : OfTokens scrypt sessions) (admins : List Admin) (now : Instant)
    (call : AdminCall) :
    OfTokens scrypt (call.serve scrypt admins now sessions).2 ∧
      ∀ admin value, (call.serve scrypt admins now sessions).1 = .loggedIn admin value →
        ∃ token : Bytes32, value = cookieValue (base64Text token.1) := by
  cases call with
  | login email password token salt =>
    simp only [AdminCall.serve]
    rcases login_cases scrypt admins sessions email password token salt now with
      ⟨m, hm⟩ | ⟨admin, hadmin⟩
    · rw [hm]
      exact ⟨h, fun admin value hv => by cases hv⟩
    · rw [hadmin]
      refine ⟨ofTokens_createSession h, fun admin' value hv => ⟨token, ?_⟩⟩
      exact (AdminReply.loggedIn.inj hv).2.symm
  | logout cookie salt =>
    simp only [AdminCall.serve, AdminAuthController.logout]
    split
    · exact ⟨h, fun admin value hv => by cases hv⟩
    · exact ⟨fun s hs => h s (List.mem_filter.mp hs).1, fun admin value hv => by cases hv⟩
  | request cookie salt =>
    refine ⟨h, fun admin value hv => ?_⟩
    simp only [AdminCall.serve, AdminAuthGuard.canActivate] at hv
    split at hv
    · cases hv
    · split at hv
      · cases hv
      · split at hv
        · cases hv
        · split at hv <;> cases hv

/-- **Run lemma.** -/
theorem AdminRun.ofTokens (h : AdminRun scrypt admins sessions history) :
    OfTokens scrypt sessions ∧ OfLogins history := by
  induction h with
  | start => exact ⟨fun s hs => (by cases hs), fun _ _ _ ⟨e, he, _⟩ => (by cases he)⟩
  | @step sessions past now call _ ih =>
    obtain ⟨hsessions, hcookie⟩ := ih.1.serve admins now call
    refine ⟨hsessions, fun admin t value ⟨e, he, ht, hreply⟩ => ?_⟩
    rcases List.mem_append.mp he with he | he
    · exact ih.2 admin t value ⟨e, he, ht, hreply⟩
    · rw [List.mem_singleton.mp he] at hreply
      exact hcookie admin value hreply

/-- The session of a login's cookie is not found. -/
theorem findByToken_cookie (hscrypt : ∀ salt, Function.Injective fun token => scrypt token salt)
    (h : OfTokens scrypt sessions) (token salt : Bytes32) :
    findByToken scrypt (cookieValue (base64Text token.1)) salt sessions = none := by
  refine List.find?_eq_none.mpr fun s hs => ?_
  obtain ⟨salt', bytes, hhash⟩ := h s hs
  rw [decide_eq_true_eq, hhash]
  exact fun heq => encoded_ne_token token bytes (hashToken_inj hscrypt heq.symm)

/-- **Nobody is admitted with the cookie of a login.** -/
theorem AdminRun.rejects (hscrypt : ∀ salt, Function.Injective fun token => scrypt token salt)
    (h : AdminRun scrypt admins sessions history) {past rest : List AdminStep} {step : AdminStep}
    (hhistory : history = past ++ step :: rest) {admin : Admin} {t : Instant} {value : String}
    (hset : SetAt past admin t value) (hcarries : step.Carries value) :
    step.reply = .unauthorized "Admin session invalid or expired" := by
  induction h generalizing rest with
  | start => simp at hhistory
  | @step sessions history now call hrun ih =>
    rcases List.eq_nil_or_concat rest with rfl | ⟨rest', last, rfl⟩
    · -- The request is the last step of the run.
      obtain ⟨rfl, hlast⟩ := List.append_inj' hhistory rfl
      obtain rfl := (List.singleton_inj.mp hlast).symm
      obtain ⟨cookie, salt, rfl, hcookie⟩ := hcarries
      obtain ⟨token, rfl⟩ := hrun.ofTokens.2 admin t value hset
      have hnone := findByToken_cookie hscrypt hrun.ofTokens.1 token salt
      simp only [AdminCall.serve, AdminAuthGuard.canActivate, hcookie, hnone]
    · rw [List.concat_eq_append, ← List.cons_append, ← List.append_assoc] at hhistory
      exact ih (List.append_inj' hhistory rfl).1

/-- **Exactly when sessions work.**  In every run of logins, logouts and requests the sessions
    work if and only if nobody uses one. -/
theorem sessions_work_iff (hscrypt : ∀ salt, Function.Injective fun token => scrypt token salt)
    (h : AdminRun scrypt admins sessions history) : SessionsWork history ↔ NeverUsed history := by
  constructor
  · intro hwork past step rest hhistory admin t value hset hcarries hlive
    by_contra hout
    have hadmitted := (hwork past step rest hhistory admin t value hset hcarries).1 hlive hout
    rw [h.rejects hscrypt hhistory hset hcarries] at hadmitted
    cases hadmitted
  · intro hnever past step rest hhistory admin t value hset hcarries
    refine ⟨fun hlive hout => ?_, fun _ => ⟨_, h.rejects hscrypt hhistory hset hcarries⟩⟩
    exact absurd (hnever past step rest hhistory admin t value hset hcarries hlive) hout

end Lookup

/-! ### A login and a request -/

theorem matchAfter_append {name value : List Char} (hname : name ≠ []) (hvalue : value ≠ [])
    (h : ';' ∉ value) : matchAfter name (name ++ value) = some value := by
  have htake : value.takeWhile (fun c => decide (c ≠ ';')) = value := by
    refine List.takeWhile_eq_self_iff.mpr fun c hc => ?_
    rw [decide_eq_true_eq]
    rintro rfl
    exact h hc
  obtain ⟨c, cs, rfl⟩ := List.exists_cons_of_ne_nil hname
  have hprefix : (c :: cs).isPrefixOf ((c :: cs) ++ value) = true :=
    List.isPrefixOf_iff_prefix.mpr (List.prefix_append _ _)
  have hdrop : ((c :: cs) ++ value).drop (c :: cs).length = value := List.drop_left
  have hempty : value.isEmpty = false := by simpa using hvalue
  simp only [List.cons_append] at hprefix hdrop ⊢
  simp only [matchAfter, hdrop, htake, hprefix, hempty, Bool.not_false, Bool.and_true, if_true]

/-- An encoded value has no `;`, so it is matched whole. -/
theorem matchAfter_cookieValue {name : List Char} {value : String} (hname : name ≠ [])
    (h : (cookieValue value).toList ≠ []) :
    matchAfter name (name ++ (cookieValue value).toList) = some (cookieValue value).toList := by
  have hsemicolon : ';' ∉ (cookieValue value).toList := by
    intro hmem
    rw [cookieValue, String.toList_ofList] at hmem
    rcases mem_encodeURIComponent hmem with hc | hc
    · exact absurd hc (by decide +kernel)
    · exact absurd hc (by decide +kernel)
  exact matchAfter_append hname h hsemicolon

/-- What the browser sends back is read as it was set. -/
theorem sessionCookie_cookieValue {value : String} (h : (cookieValue value).toList ≠ []) :
    sessionCookie (some (cookieName ++ cookieValue value)) = some (cookieValue value) := by
  simp only [sessionCookie, Option.getD_some, String.toList_append]
  rw [matchAfter_cookieValue (by decide) h]
  simp

/-- The cookie of a token is not empty. -/
theorem cookieValue_base64Text_ne_nil {bytes : List UInt8} (h : bytes ≠ []) :
    (cookieValue (base64Text bytes)).toList ≠ [] := by
  unfold cookieValue base64Text
  rw [String.toList_ofList, String.toList_ofList]
  exact encodeURIComponent_ne_nil fun hnil => h (toBase64_injective (hnil.trans rfl))

section Sample

variable {scrypt : String → List UInt8 → List UInt8} {admins : List Admin}
variable {sessions : List AdminSession}

/-- A key derivation without collisions: the key is the token. -/
def sampleScrypt (token : String) (_ : List UInt8) : List UInt8 := token.toByteArray.data.toList

theorem sampleScrypt_injective (salt : List UInt8) :
    Function.Injective fun token => sampleScrypt token salt := by
  intro token token' h
  have hdata : token.toByteArray.data = token'.toByteArray.data := Array.toList_inj.mp h
  exact String.toByteArray_inj.mp (ByteArray.ext hdata)

def sampleBytes (b : UInt8) : Bytes32 := ⟨List.replicate 32 b, by simp⟩

/-- The admin's password is `s`. -/
def sampleAdmin : Admin := ⟨1, "a", "A", some (hashToken sampleScrypt (sampleBytes 0) "s")⟩

def sampleLogin : AdminCall := .login (some "a") (some "s") (sampleBytes 1) (sampleBytes 2)

/-- The cookie of that login. -/
def sampleCookie : String := cookieValue (base64Text (sampleBytes 1).1)

/-- A login with the right password. -/
theorem login_ok (sessions : List AdminSession) (token salt : Bytes32) (now : Instant)
    {email password : Option String} {e p hash : String} {admin : Admin} (he : present email = some e) (hp : present password = some p)
    (hadmin : admins.find? (fun a => decide (a.email = e)) = some admin)
    (hhash : present admin.passwordHash = some hash) (hok : verifyPassword scrypt p hash = true) :
    AdminAuthController.login scrypt admins email password token salt now sessions
      = (.loggedIn admin (cookieValue (base64Text token.1)),
          createSession scrypt admin.id (base64Text token.1) salt now sessions) := by
  simp only [AdminAuthController.login, he, hp, hadmin, hhash, hok, if_true]

theorem sampleLogin_reply (now : Instant) (sessions : List AdminSession) :
    (sampleLogin.serve sampleScrypt [sampleAdmin] now sessions).1
      = .loggedIn sampleAdmin sampleCookie := by
  have hok : verifyPassword sampleScrypt "s" (hashToken sampleScrypt (sampleBytes 0) "s") = true :=
    verifyPassword_hashToken (sampleBytes 0) (by decide)
  have hhash : present sampleAdmin.passwordHash
      = some (hashToken sampleScrypt (sampleBytes 0) "s") := by decide +kernel
  have hemail : present (some "a") = some "a" := by decide
  have hpassword : present (some "s") = some "s" := by decide
  have hadmin : [sampleAdmin].find? (fun a => decide (a.email = "a")) = some sampleAdmin := by
    decide +kernel
  have hlogin := login_ok sessions (sampleBytes 1) (sampleBytes 2) now hemail hpassword hadmin hhash
    hok
  exact congrArg Prod.fst hlogin

/-- The request of somebody who comes with that cookie. -/
def sampleVisit : AdminCall := .request (some (cookieName ++ sampleCookie)) (sampleBytes 3)

/-- Login at the epoch, and a request one millisecond later. -/
theorem sample_visited : ∃ sessions login visit,
    AdminRun sampleScrypt [sampleAdmin] sessions ([] ++ [login] ++ [visit]) ∧
    login = ⟨0, sampleLogin, .loggedIn sampleAdmin sampleCookie⟩ ∧ visit.now = 1 ∧
    visit.Carries sampleCookie := by
  have hlogin : AdminRun sampleScrypt [sampleAdmin] _ ([] ++ [_]) :=
    AdminRun.start.step 0 sampleLogin
  rw [sampleLogin_reply] at hlogin
  have hcookie : sessionCookie (some (cookieName ++ sampleCookie)) = some sampleCookie :=
    sessionCookie_cookieValue (cookieValue_base64Text_ne_nil (by decide))
  exact ⟨_, _, _, hlogin.step 1 sampleVisit, rfl, rfl, _, _, rfl, hcookie⟩

theorem sessions_work_iff_visited : ∃ history, SessionsWork history ↔ NeverUsed history := by
  obtain ⟨sessions, login, visit, hrun, -⟩ := sample_visited
  exact ⟨_, sessions_work_iff sampleScrypt_injective hrun⟩

/-- **Logged in and locked out.**  One millisecond after the login the guard rejects the cookie
    the login has set. -/
theorem logged_in_admin_rejected : ∃ sessions login visit,
    AdminRun sampleScrypt [sampleAdmin] sessions ([login] ++ [visit]) ∧
    login.reply = .loggedIn sampleAdmin sampleCookie ∧ visit.Carries sampleCookie ∧
    visit.now < login.now + sessionMs ∧
    visit.reply = .unauthorized "Admin session invalid or expired" ∧
    ¬ SessionsWork ([login] ++ [visit]) := by
  obtain ⟨sessions, login, visit, hrun, rfl, hnow, hcarries⟩ := sample_visited
  have hset : SetAt [⟨0, sampleLogin, .loggedIn sampleAdmin sampleCookie⟩] sampleAdmin 0
      sampleCookie := ⟨_, List.mem_singleton.mpr rfl, rfl, rfl⟩
  have hreply := hrun.rejects sampleScrypt_injective rfl hset hcarries
  have hlive : visit.now < 0 + sessionMs := by rw [hnow]; decide
  refine ⟨sessions, _, visit, hrun, rfl, hcarries, hlive, hreply, fun hwork => ?_⟩
  have hout : ¬ LoggedOut [⟨0, sampleLogin, .loggedIn sampleAdmin sampleCookie⟩] sampleCookie := by
    rintro ⟨e, he, cookie, salt, hcall, -⟩
    rw [List.mem_singleton.mp he] at hcall
    cases hcall
  have hadmitted := (hwork _ visit [] rfl sampleAdmin 0 sampleCookie hset hcarries).1 hlive hout
  rw [hreply] at hadmitted
  cases hadmitted

end Sample

end Chronos
