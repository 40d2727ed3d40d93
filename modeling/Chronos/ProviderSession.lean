import Chronos.AdminSession
import Mathlib.Data.List.Induction
import Mathlib.Data.List.Pairwise

namespace Chronos.ProviderAuth

open Text

/-!
# Provider sessions

`ProviderSessionService`, `ProviderAuthGuard` and the endpoints of `ProviderAuthController`.
What the table of sessions is for is said by a ledger: a `Grant` is made by each session that is
created, and taken back when its token is revoked.  A request is to be admitted exactly if the
ledger has a grant for the token of its cookie, made less than a day ago.

The table differs from the ledger: it has hashes for tokens, and rows that have expired may be
gone.  `Reflects` relates the two, `Reflects.serve` is its step lemma, and
`requests_follow_grants` says that no request can tell them apart.
-/

/-! ### The service -/

structure ProviderAccount where
  id : ProviderId
  name : String
  email : Option String
  slug : String
  timezone : String
  passwordHash : Option String
  deriving DecidableEq

/-- A row of `provider_sessions`. -/
structure ProviderSession where
  providerId : ProviderId
  tokenHash : String
  expiresAt : Instant
  deriving DecidableEq

/-- What `randomBytes(48)` draws. -/
abbrev Bytes48 := { bytes : List UInt8 // bytes.length = 48 }

/-- Milliseconds of a session: `86400000`. -/
def sessionMs : Int := 86400000

def salt : List UInt8 := "provider_session_salt".toUTF8.data.toList

section Service

variable (scrypt : String → List UInt8 → List UInt8)

def hashToken (token : String) : String := base64Text (scrypt token salt)

def createSession (providerId : ProviderId) (rawToken : String) (now : Instant)
    (sessions : List ProviderSession) : List ProviderSession :=
  sessions ++ [⟨providerId, hashToken scrypt rawToken, now + sessionMs⟩]

def findProviderByTokenHash (tokenHash : String) (now : Instant) (sessions : List ProviderSession) :
    Option ProviderSession :=
  sessions.find? fun s => decide (s.tokenHash = tokenHash) && decide (s.expiresAt > now)

def revokeSession (tokenHash : String) (sessions : List ProviderSession) : List ProviderSession :=
  sessions.filter fun s => !decide (s.tokenHash = tokenHash)

def cleanupExpired (now : Instant) (sessions : List ProviderSession) : List ProviderSession :=
  sessions.filter fun s => !decide (s.expiresAt < now)

end Service

/-! ### The cookie -/

def cookieName : String := "chronos_provider_session="

/-- `cookie.match(/chronos_provider_session=([^;]+)/)` on `req.headers?.cookie || ''`. -/
def sessionCookie (header : Option String) : Option String :=
  (matchAfter cookieName.toList (header.getD "").toList).map String.ofList

/-- `decodeURIComponent(match[1])`; it throws if the text is no encoding. -/
def decodeCookie (value : String) : Option String :=
  (decodeURIComponent value.toList).map String.ofList

/-- What express sets for a token is read back as the token. -/
@[simp] theorem decodeCookie_cookieValue (token : String) : decodeCookie (cookieValue token) = some token := by
  unfold decodeCookie cookieValue
  rw [String.toList_ofList, decodeURIComponent_encodeURIComponent, Option.map_some, String.ofList_toList]

/-! ### The endpoints -/

/-- A call, with what its functions draw. -/
inductive ProviderCall
  | createSession (providerId : ProviderId) (token : Bytes48)
  /-- `revokeSession` with the hash of a token. -/
  | revokeSession (token : String)
  | cleanupExpired
  | login (email password : Option String) (token : Bytes48)
  | logout (cookie : Option String)
  /-- Any request behind `ProviderAuthGuard`. -/
  | request (cookie : Option String)

inductive ProviderReply
  | created (token tokenHash : String) (expiresAt : Instant)
  | done
  | loggedIn (provider : ProviderAccount) (cookie : String)
  | loggedOut
  | admitted (provider : ProviderAccount)
  | unauthorized (message : String)
  | internalError
  deriving DecidableEq

/-- White space to `String.prototype.trim`. -/
def isSpace (c : Char) : Bool :=
  decide (c.toNat ∈ [9, 10, 11, 12, 13, 32, 160, 5760, 8192, 8193, 8194, 8195, 8196, 8197, 8198,
    8199, 8200, 8201, 8202, 8232, 8233, 8239, 8287, 12288, 65279])

def trim (text : String) : String :=
  String.ofList ((text.toList.dropWhile isSpace).reverse.dropWhile isSpace).reverse

section Endpoints

variable (scrypt : String → List UInt8 → List UInt8) (providers : List ProviderAccount)

def findProvider (id : ProviderId) : Option ProviderAccount :=
  providers.find? fun p => decide (p.id = id)

/-- `prisma.providerSession.create` fails where the provider does not exist. -/
def create (providerId : ProviderId) (token : Bytes48) (now : Instant) (sessions : List ProviderSession) :
    ProviderReply × List ProviderSession :=
  match findProvider providers providerId with
  | none => (.internalError, sessions)
  | some _ =>
    let rawToken := base64Text token.1
    (.created rawToken (hashToken scrypt rawToken) (now + sessionMs),
      createSession scrypt providerId rawToken now sessions)

/-- `ProviderAuthController.login`. -/
def ProviderAuthController.login (email password : Option String) (token : Bytes48) (now : Instant)
    (sessions : List ProviderSession) : ProviderReply × List ProviderSession :=
  match present (some (trim (email.getD ""))), present password with
  | some email, some password =>
      match providers.find? fun p => decide (p.email = some email) with
      | none => (.unauthorized "Invalid credentials", sessions)
      | some provider =>
          match present provider.passwordHash with
          | none => (.unauthorized "Invalid credentials", sessions)
          | some passwordHash =>
              if verifyPassword scrypt password passwordHash then
                let rawToken := base64Text token.1
                match create scrypt providers provider.id token now sessions with
                | (.created _ _ _, sessions) => (.loggedIn provider (cookieValue rawToken), sessions)
                | (reply, sessions) => (reply, sessions)
              else (.unauthorized "Invalid credentials", sessions)
  | _, _ => (.unauthorized "Invalid credentials", sessions)

/-- `ProviderAuthController.logout`; the cookie is decoded outside of the `try`. -/
def ProviderAuthController.logout (cookie : Option String) (sessions : List ProviderSession) :
    ProviderReply × List ProviderSession :=
  match sessionCookie cookie with
  | none => (.loggedOut, sessions)
  | some value =>
      match decodeCookie value with
      | none => (.internalError, sessions)
      | some raw => (.loggedOut, revokeSession (hashToken scrypt raw) sessions)

/-- `ProviderAuthGuard.canActivate`; the session is read with its provider. -/
def ProviderAuthGuard.canActivate (cookie : Option String) (now : Instant)
    (sessions : List ProviderSession) : ProviderReply :=
  match sessionCookie cookie with
  | none => .unauthorized "Provider authentication required"
  | some value =>
      match decodeCookie value with
      | none => .internalError
      | some rawToken =>
          match findProviderByTokenHash (hashToken scrypt rawToken) now sessions with
          | none => .unauthorized "Provider authentication required"
          | some session =>
              match findProvider providers session.providerId with
              | none => .internalError
              | some provider => .admitted provider

def ProviderCall.serve (now : Instant) (sessions : List ProviderSession) :
    ProviderCall → ProviderReply × List ProviderSession
  | .createSession providerId token => create scrypt providers providerId token now sessions
  | .revokeSession token => (.done, ProviderAuth.revokeSession (hashToken scrypt token) sessions)
  | .cleanupExpired => (.done, ProviderAuth.cleanupExpired now sessions)
  | .login email password token => ProviderAuthController.login scrypt providers email password token now sessions
  | .logout cookie => ProviderAuthController.logout scrypt cookie sessions
  | .request cookie => (ProviderAuthGuard.canActivate scrypt providers cookie now sessions, sessions)

end Endpoints

/-! ### Runs -/

/-- One call of a run: when it came, and how it was answered. -/
structure ProviderStep where
  now : Instant
  call : ProviderCall
  reply : ProviderReply

/-- The runs from a database without sessions, each with its sessions and its history. -/
inductive ProviderRun (scrypt : String → List UInt8 → List UInt8) (providers : List ProviderAccount) :
    List ProviderSession → List ProviderStep → Prop
  | start : ProviderRun scrypt providers [] []
  | step {sessions past} (now : Instant) (call : ProviderCall) :
      ProviderRun scrypt providers sessions past →
        ProviderRun scrypt providers (call.serve scrypt providers now sessions).2
          (past ++ [⟨now, call, (call.serve scrypt providers now sessions).1⟩])

/-- The provider and the token of the session the step has created, by `createSession` or as part
    of a login. -/
def ProviderStep.issued (step : ProviderStep) : Option (ProviderId × String) :=
  match step.call, step.reply with
  | .createSession providerId _, .created token _ _ => some (providerId, token)
  | .login _ _ token, .loggedIn provider _ => some (provider.id, base64Text token.1)
  | _, _ => none

/-- The token the step has revoked, by `revokeSession` or as part of a logout. -/
def ProviderStep.revoked (step : ProviderStep) : Option String :=
  match step.call with
  | .revokeSession token => some token
  | .logout cookie => (sessionCookie cookie).bind decodeCookie
  | _ => none

/-- No token was drawn twice. -/
def DistinctTokens (history : List ProviderStep) : Prop :=
  (history.filterMap fun step => step.issued.map Prod.snd).Nodup

/-- The clock never went back. -/
def ClockForward (history : List ProviderStep) : Prop := history.Pairwise fun a b => a.now ≤ b.now

/-- `createSession` has returned the token for the provider less than a day before `now`, and
    nobody has revoked it since. -/
def Live (past : List ProviderStep) (now : Instant) (token : String) (providerId : ProviderId) : Prop :=
  ∃ before issue after, past = before ++ issue :: after ∧ issue.issued = some (providerId, token) ∧
    now < issue.now + sessionMs ∧ ∀ step ∈ after, step.revoked ≠ some token

/-- A request is rejected with an exception. -/
def Rejected (reply : ProviderReply) : Prop := reply = .internalError ∨ ∃ m, reply = .unauthorized m

/-- **The requests follow the sessions**: whoever comes with the cookie of a token is admitted as
    a provider exactly if the token is live for that provider, and all others are rejected. -/
def FollowsSessions (history : List ProviderStep) : Prop :=
  ∀ past step rest, history = past ++ step :: rest → ∀ cookie, step.call = .request cookie →
    (∀ token, sessionCookie cookie = some (cookieValue token) → ∀ providerId,
      (∃ provider, step.reply = .admitted provider ∧ provider.id = providerId) ↔
        Live past step.now token providerId) ∧
    ((¬ ∃ token providerId, (sessionCookie cookie).bind decodeCookie = some token ∧
        Live past step.now token providerId) → Rejected step.reply)

/-! ### The ledger -/

/-- A session that was created and has not been revoked. -/
structure Grant where
  providerId : ProviderId
  token : String
  since : Instant
  deriving DecidableEq

def grantStep (grants : List Grant) (step : ProviderStep) : List Grant :=
  let kept := grants.filter fun g => decide (step.revoked ≠ some g.token)
  match step.issued with
  | none => kept
  | some (providerId, token) => kept ++ [⟨providerId, token, step.now⟩]

/-- The ledger after a history. -/
def grants (past : List ProviderStep) : List Grant := past.foldl grantStep []

theorem grants_append (past : List ProviderStep) (step : ProviderStep) :
    grants (past ++ [step]) = grantStep (grants past) step := by
  unfold grants
  rw [List.foldl_append]
  rfl

theorem mem_grantStep {ledger : List Grant} {step : ProviderStep} {g : Grant} :
    g ∈ grantStep ledger step ↔ (g ∈ ledger ∧ step.revoked ≠ some g.token) ∨
      (step.issued = some (g.providerId, g.token) ∧ step.now = g.since) := by
  unfold grantStep
  dsimp only
  cases hissued : step.issued with
  | none => simp
  | some issue =>
    obtain ⟨providerId, token⟩ := issue
    simp only [List.mem_append, List.mem_filter, decide_eq_true_eq, List.mem_singleton]
    refine or_congr_right ?_
    constructor
    · rintro rfl
      exact ⟨rfl, rfl⟩
    · rintro ⟨hissue, hnow⟩
      obtain ⟨rfl, rfl⟩ := Prod.mk.inj (Option.some.inj hissue)
      rw [hnow]

/-- **The ledger says what has happened.** -/
theorem mem_grants {past : List ProviderStep} {g : Grant} :
    g ∈ grants past ↔ ∃ before issue after, past = before ++ issue :: after ∧
      issue.issued = some (g.providerId, g.token) ∧ issue.now = g.since ∧
      ∀ step ∈ after, step.revoked ≠ some g.token := by
  induction past using List.reverseRecOn with
  | nil => simp [grants]
  | append_singleton past last ih =>
    rw [grants_append, mem_grantStep, ih]
    constructor
    · rintro (⟨⟨before, issue, after, rfl, hissue, hnow, hafter⟩, hkept⟩ | ⟨hissue, hnow⟩)
      · refine ⟨before, issue, after ++ [last], by simp, hissue, hnow, fun step hstep => ?_⟩
        rcases List.mem_append.mp hstep with hstep | hstep
        · exact hafter step hstep
        · rw [List.mem_singleton.mp hstep]
          exact hkept
      · exact ⟨past, last, [], rfl, hissue, hnow, fun _ h => absurd h List.not_mem_nil⟩
    · rintro ⟨before, issue, after, hpast, hissue, hnow, hafter⟩
      rcases List.eq_nil_or_concat after with rfl | ⟨after', last', rfl⟩
      · obtain ⟨-, hlast⟩ := List.append_inj' hpast rfl
        rw [List.singleton_inj.mp hlast]
        exact .inr ⟨hissue, hnow⟩
      · rw [List.concat_eq_append] at hpast hafter
        rw [← List.cons_append, ← List.append_assoc] at hpast
        obtain ⟨hinit, hlast⟩ := List.append_inj' hpast rfl
        rw [List.singleton_inj.mp hlast]
        exact .inl ⟨⟨before, issue, after', hinit, hissue, hnow,
          fun step hstep => hafter step (List.mem_append_left _ hstep)⟩,
          hafter last' (List.mem_append_right _ (List.mem_singleton.mpr rfl))⟩

theorem live_iff {past : List ProviderStep} {now : Instant} {token : String} {providerId : ProviderId} :
    Live past now token providerId ↔
      ∃ since, ⟨providerId, token, since⟩ ∈ grants past ∧ now < since + sessionMs := by
  constructor
  · rintro ⟨before, issue, after, hpast, hissue, hnow, hafter⟩
    exact ⟨issue.now, mem_grants.mpr ⟨before, issue, after, hpast, hissue, rfl, hafter⟩, hnow⟩
  · rintro ⟨since, hgrant, hnow⟩
    obtain ⟨before, issue, after, hpast, hissue, rfl, hafter⟩ := mem_grants.mp hgrant
    exact ⟨before, issue, after, hpast, hissue, hnow, hafter⟩

/-- A token has one grant at most. -/
theorem grants_unique {past : List ProviderStep} (hdistinct : DistinctTokens past) {g g' : Grant}
    (hg : g ∈ grants past) (hg' : g' ∈ grants past) (htoken : g.token = g'.token) : g = g' := by
  obtain ⟨before, issue, after, hpast, hissue, hnow, -⟩ := mem_grants.mp hg
  obtain ⟨before', issue', after', hpast', hissue', hnow', -⟩ := mem_grants.mp hg'
  have hmem : issue ∈ past := by
    rw [hpast]
    exact List.mem_append_right _ List.mem_cons_self
  have hmem' : issue' ∈ past := by
    rw [hpast']
    exact List.mem_append_right _ List.mem_cons_self
  have hsame : issue = issue' := by
    by_contra hne
    have hpairwise := List.pairwise_filterMap.mp hdistinct
    have hsymm : Std.Symm fun a b : ProviderStep => ∀ t, a.issued.map Prod.snd = some t →
        ∀ t', b.issued.map Prod.snd = some t' → t ≠ t' :=
      ⟨fun a b h t ht t' ht' => (h t' ht' t ht).symm⟩
    have hdiffer := hpairwise.forall hmem hmem' hne
    rw [hissue, hissue'] at hdiffer
    exact hdiffer g.token rfl g'.token rfl htoken
  subst hsame
  rw [hissue] at hissue'
  obtain ⟨hprovider, -⟩ := Prod.mk.inj (Option.some.inj hissue')
  cases g
  cases g'
  dsimp only at *
  subst htoken hprovider hnow hnow'
  rfl

/-! ### The table reflects the ledger -/

section Reflects

variable {scrypt : String → List UInt8 → List UInt8} {providers : List ProviderAccount}
variable {sessions : List ProviderSession} {past history : List ProviderStep}

/-- The row of a grant. -/
def Grant.row (scrypt : String → List UInt8 → List UInt8) (g : Grant) : ProviderSession :=
  ⟨g.providerId, hashToken scrypt g.token, g.since + sessionMs⟩

/-- Every row is that of a grant, and a grant whose row is missing has expired. -/
structure Reflects (scrypt : String → List UInt8 → List UInt8) (providers : List ProviderAccount)
    (sessions : List ProviderSession) (past : List ProviderStep) : Prop where
  sound : ∀ s ∈ sessions, ∃ g ∈ grants past, s = g.row scrypt
  complete : ∀ g ∈ grants past, g.row scrypt ∈ sessions ∨ ∃ step ∈ past, g.since + sessionMs < step.now
  known : ∀ g ∈ grants past, (findProvider providers g.providerId).isSome

/-- **What a call can do**: nothing, create a session, revoke a token, or clean up. -/
theorem serve_cases (scrypt : String → List UInt8 → List UInt8) (providers : List ProviderAccount)
    (now : Instant) (sessions : List ProviderSession) (call : ProviderCall) :
    let step : ProviderStep := ⟨now, call, (call.serve scrypt providers now sessions).1⟩
    let sessions' := (call.serve scrypt providers now sessions).2
    (sessions' = sessions ∧ step.issued = none ∧ step.revoked = none) ∨
    (∃ providerId token, sessions' = createSession scrypt providerId token now sessions ∧
      step.issued = some (providerId, token) ∧ step.revoked = none ∧
      (findProvider providers providerId).isSome) ∨
    (∃ token, sessions' = revokeSession (hashToken scrypt token) sessions ∧ step.issued = none ∧
      step.revoked = some token) ∨
    (sessions' = cleanupExpired now sessions ∧ step.issued = none ∧ step.revoked = none) := by
  cases call with
  | createSession providerId token =>
    simp only [ProviderCall.serve, create]
    cases hprovider : findProvider providers providerId with
    | none => exact .inl ⟨rfl, rfl, rfl⟩
    | some provider => exact .inr (.inl ⟨providerId, _, rfl, rfl, rfl, by rw [hprovider]; rfl⟩)
  | revokeSession token => exact .inr (.inr (.inl ⟨token, rfl, rfl, rfl⟩))
  | cleanupExpired => exact .inr (.inr (.inr ⟨rfl, rfl, rfl⟩))
  | login email password token =>
    simp only [ProviderCall.serve, ProviderAuthController.login]
    split
    · split
      · exact .inl ⟨rfl, rfl, rfl⟩
      · next provider hprovider =>
        split
        · exact .inl ⟨rfl, rfl, rfl⟩
        · split
          · simp only [create]
            cases hfound : findProvider providers provider.id with
            | none => exact .inl ⟨rfl, rfl, rfl⟩
            | some _ => exact .inr (.inl ⟨provider.id, _, rfl, rfl, rfl, by rw [hfound]; rfl⟩)
          · exact .inl ⟨rfl, rfl, rfl⟩
    · exact .inl ⟨rfl, rfl, rfl⟩
  | logout cookie =>
    simp only [ProviderCall.serve, ProviderAuthController.logout, ProviderStep.revoked]
    cases hcookie : sessionCookie cookie with
    | none => exact .inl ⟨rfl, rfl, rfl⟩
    | some value =>
      simp only [Option.bind_some]
      cases hraw : decodeCookie value with
      | none => exact .inl ⟨rfl, rfl, rfl⟩
      | some raw => exact .inr (.inr (.inl ⟨raw, rfl, rfl, rfl⟩))
  | request cookie => exact .inl ⟨rfl, rfl, rfl⟩

theorem hashToken_injective (hscrypt : Function.Injective fun token => scrypt token salt) :
    Function.Injective (hashToken scrypt) := by
  intro token token' h
  have htext := congrArg String.toList h
  unfold hashToken base64Text at htext
  rw [String.toList_ofList, String.toList_ofList] at htext
  exact hscrypt (toBase64_injective htext)

section Step

variable {step : ProviderStep}

/-- A step that grants and revokes nothing leaves the grants. -/
theorem mem_grants_of_idle (hissued : step.issued = none) (hrevoked : step.revoked = none)
    (g : Grant) : g ∈ grants (past ++ [step]) ↔ g ∈ grants past := by
  rw [grants_append, mem_grantStep, hissued, hrevoked]
  simp

/-- A step that grants a session adds it. -/
theorem mem_grants_of_issued {providerId : ProviderId} {token : String}
    (hissued : step.issued = some (providerId, token)) (hrevoked : step.revoked = none) (g : Grant) :
    g ∈ grants (past ++ [step]) ↔ g ∈ grants past ∨ g = ⟨providerId, token, step.now⟩ := by
  rw [grants_append, mem_grantStep, hissued, hrevoked]
  constructor
  · rintro (⟨hg, -⟩ | ⟨hissue, hnow⟩)
    · exact .inl hg
    · obtain ⟨rfl, rfl⟩ := Prod.mk.inj (Option.some.inj hissue)
      exact .inr (hnow ▸ rfl)
  · rintro (hg | rfl)
    · exact .inl ⟨hg, fun hno => by cases hno⟩
    · exact .inr ⟨rfl, rfl⟩

/-- A step that revokes a token removes its grants. -/
theorem mem_grants_of_revoked {token : String} (hissued : step.issued = none)
    (hrevoked : step.revoked = some token) (g : Grant) :
    g ∈ grants (past ++ [step]) ↔ g ∈ grants past ∧ g.token ≠ token := by
  rw [grants_append, mem_grantStep, hissued, hrevoked]
  simp [eq_comm]

/-- What has expired before a step of the past has done so before a step of the longer past. -/
theorem exists_step_append {t : Instant} (h : ∃ e ∈ past, t < e.now) :
    ∃ e ∈ past ++ [step], t < e.now := by
  obtain ⟨e, he, hlt⟩ := h
  exact ⟨e, List.mem_append_left _ he, hlt⟩

/-- Nothing happens. -/
theorem Reflects.idle (h : Reflects scrypt providers sessions past) (hissued : step.issued = none)
    (hrevoked : step.revoked = none) : Reflects scrypt providers sessions (past ++ [step]) := by
  have hsame : ∀ g, g ∈ grants (past ++ [step]) ↔ g ∈ grants past :=
    mem_grants_of_idle hissued hrevoked
  refine ⟨fun s hs => ?_, fun g hg => ?_, fun g hg => h.known g ((hsame g).mp hg)⟩
  · exact (h.sound s hs).imp fun g hg => ⟨(hsame g).mpr hg.1, hg.2⟩
  · exact (h.complete g ((hsame g).mp hg)).imp_right exists_step_append

/-- One grant more, and its row. -/
theorem Reflects.granted (h : Reflects scrypt providers sessions past) {providerId : ProviderId}
    {token : String} (hissued : step.issued = some (providerId, token))
    (hrevoked : step.revoked = none) (hprovider : (findProvider providers providerId).isSome) :
    Reflects scrypt providers (createSession scrypt providerId token step.now sessions)
      (past ++ [step]) := by
  have hmore : ∀ g, g ∈ grants (past ++ [step]) ↔
      g ∈ grants past ∨ g = ⟨providerId, token, step.now⟩ := mem_grants_of_issued hissued hrevoked
  refine ⟨fun s hs => ?_, fun g hg => ?_, fun g hg => ?_⟩
  · rcases List.mem_append.mp hs with hs | hs
    · exact (h.sound s hs).imp fun g hg => ⟨(hmore g).mpr (.inl hg.1), hg.2⟩
    · exact ⟨_, (hmore _).mpr (.inr rfl), List.mem_singleton.mp hs⟩
  · rcases (hmore g).mp hg with hg | rfl
    · exact (h.complete g hg).imp (List.mem_append_left _) exists_step_append
    · exact .inl (List.mem_append_right _ (List.mem_singleton.mpr rfl))
  · rcases (hmore g).mp hg with hg | rfl
    · exact h.known g hg
    · exact hprovider

/-- All grants of a token are gone, and all their rows. -/
theorem Reflects.revoked (hscrypt : Function.Injective fun token => scrypt token salt)
    (h : Reflects scrypt providers sessions past) {token : String} (hissued : step.issued = none)
    (hrevoked : step.revoked = some token) :
    Reflects scrypt providers (revokeSession (hashToken scrypt token) sessions)
      (past ++ [step]) := by
  have hless : ∀ g, g ∈ grants (past ++ [step]) ↔ g ∈ grants past ∧ g.token ≠ token :=
    mem_grants_of_revoked hissued hrevoked
  have hrow : ∀ g : Grant, (g.row scrypt).tokenHash = hashToken scrypt token ↔ g.token = token :=
    fun g => (hashToken_injective hscrypt).eq_iff
  refine ⟨fun s hs => ?_, fun g hg => ?_, fun g hg => h.known g ((hless g).mp hg).1⟩
  · obtain ⟨hs, hkept⟩ := List.mem_filter.mp hs
    obtain ⟨g, hg, rfl⟩ := h.sound s hs
    refine ⟨g, (hless g).mpr ⟨hg, fun htoken => ?_⟩, rfl⟩
    rw [decide_eq_true ((hrow g).mpr htoken)] at hkept
    cases hkept
  · obtain ⟨hg, htoken⟩ := (hless g).mp hg
    refine (h.complete g hg).imp (fun hmem => List.mem_filter.mpr ⟨hmem, ?_⟩) exists_step_append
    rw [decide_eq_false fun heq => htoken ((hrow g).mp heq)]
    rfl

/-- Rows that have expired are gone; the grants stay. -/
theorem Reflects.cleaned (h : Reflects scrypt providers sessions past) (hissued : step.issued = none)
    (hrevoked : step.revoked = none) :
    Reflects scrypt providers (cleanupExpired step.now sessions) (past ++ [step]) := by
  have hidle := h.idle hissued hrevoked
  refine ⟨fun s hs => hidle.sound s (List.mem_filter.mp hs).1, fun g hg => ?_, hidle.known⟩
  rcases hidle.complete g hg with hmem | hmissing
  · -- What is cleaned up has expired before the clean-up.
    by_cases hexpired : g.since + sessionMs < step.now
    · exact .inr ⟨step, List.mem_append_right _ (List.mem_singleton.mpr rfl), hexpired⟩
    · refine .inl (List.mem_filter.mpr ⟨hmem, ?_⟩)
      rw [decide_eq_false (show ¬ (g.row scrypt).expiresAt < step.now from hexpired)]
      rfl
  · exact .inr hmissing

end Step

/-- **Step lemma.**  One case for each thing a call can do. -/
theorem Reflects.serve (hscrypt : Function.Injective fun token => scrypt token salt)
    (h : Reflects scrypt providers sessions past) (now : Instant) (call : ProviderCall) :
    Reflects scrypt providers (call.serve scrypt providers now sessions).2
      (past ++ [⟨now, call, (call.serve scrypt providers now sessions).1⟩]) := by
  rcases serve_cases scrypt providers now sessions call with ⟨hsessions, hissued, hrevoked⟩ |
    ⟨providerId, token, hsessions, hissued, hrevoked, hprovider⟩ |
    ⟨token, hsessions, hissued, hrevoked⟩ | ⟨hsessions, hissued, hrevoked⟩
  · rw [hsessions]
    exact h.idle hissued hrevoked
  · rw [hsessions]
    exact h.granted hissued hrevoked hprovider
  · rw [hsessions]
    exact h.revoked hscrypt hissued hrevoked
  · rw [hsessions]
    exact h.cleaned hissued hrevoked

/-- **Run lemma.** -/
theorem ProviderRun.reflects (hscrypt : Function.Injective fun token => scrypt token salt)
    (h : ProviderRun scrypt providers sessions history) : Reflects scrypt providers sessions history := by
  induction h with
  | start =>
    exact ⟨fun s hs => absurd hs List.not_mem_nil, fun g hg => absurd hg List.not_mem_nil,
      fun g hg => absurd hg List.not_mem_nil⟩
  | step now call _ ih => exact ih.serve hscrypt now call

/-- A step of a run was answered over the sessions of the run up to it. -/
theorem ProviderRun.answered (h : ProviderRun scrypt providers sessions history)
    {rest : List ProviderStep} {step : ProviderStep} (hhistory : history = past ++ step :: rest) :
    ∃ sessions', ProviderRun scrypt providers sessions' past ∧
      step.reply = (step.call.serve scrypt providers step.now sessions').1 := by
  induction h generalizing rest with
  | start => simp at hhistory
  | @step sessions history now call hrun ih =>
    rcases List.eq_nil_or_concat rest with rfl | ⟨rest', last, rfl⟩
    · obtain ⟨rfl, hlast⟩ := List.append_inj' hhistory rfl
      obtain rfl := List.singleton_inj.mp hlast
      exact ⟨sessions, hrun, rfl⟩
    · rw [List.concat_eq_append, ← List.cons_append, ← List.append_assoc] at hhistory
      exact ih (List.append_inj' hhistory rfl).1

theorem findProvider_id {id : ProviderId} {provider : ProviderAccount}
    (h : findProvider providers id = some provider) : provider.id = id := by
  have hmatch := List.find?_some (show providers.find? (fun p => decide (p.id = id)) = _ from h)
  exact of_decide_eq_true hmatch

/-- What the guard says to a token. -/
theorem canActivate_token {cookie : Option String} {token : String} (now : Instant)
    (h : (sessionCookie cookie).bind decodeCookie = some token) :
    ProviderAuthGuard.canActivate scrypt providers cookie now sessions =
      match findProviderByTokenHash (hashToken scrypt token) now sessions with
      | none => .unauthorized "Provider authentication required"
      | some session =>
          match findProvider providers session.providerId with
          | none => .internalError
          | some provider => .admitted provider := by
  obtain ⟨value, hvalue, htoken⟩ := Option.bind_eq_some_iff.mp h
  unfold ProviderAuthGuard.canActivate
  rw [hvalue]
  dsimp only
  rw [htoken]

/-- The session that is found for a token is that of its grant. -/
theorem find_iff_grant (hscrypt : Function.Injective fun token => scrypt token salt)
    (hreflects : Reflects scrypt providers sessions past) (hdistinct : DistinctTokens past)
    {now : Instant} (hclock : ∀ step ∈ past, step.now ≤ now) (token : String) (s : ProviderSession) :
    findProviderByTokenHash (hashToken scrypt token) now sessions = some s ↔
      ∃ g ∈ grants past, g.token = token ∧ now < g.since + sessionMs ∧ s = g.row scrypt := by
  have hfound : ∀ s, findProviderByTokenHash (hashToken scrypt token) now sessions = some s →
      ∃ g ∈ grants past, g.token = token ∧ now < g.since + sessionMs ∧ s = g.row scrypt := by
    intro s hs
    obtain ⟨g, hg, rfl⟩ := hreflects.sound s (List.mem_of_find?_eq_some hs)
    have hmatch := List.find?_some hs
    simp only [Bool.and_eq_true, decide_eq_true_eq] at hmatch
    exact ⟨g, hg, hashToken_injective hscrypt hmatch.1, hmatch.2, rfl⟩
  constructor
  · exact hfound s
  · rintro ⟨g, hg, rfl, hlive, rfl⟩
    have hmem : g.row scrypt ∈ sessions := by
      rcases hreflects.complete g hg with hmem | ⟨step, hstep, hexpired⟩
      · exact hmem
      · exact absurd (Int.lt_trans hlive hexpired) (Int.not_lt.mpr (hclock step hstep))
    cases hfind : findProviderByTokenHash (hashToken scrypt g.token) now sessions with
    | none =>
      have hno := List.find?_eq_none.mp hfind _ hmem
      refine absurd ?_ hno
      simp only [Bool.and_eq_true, decide_eq_true_eq]
      exact ⟨rfl, hlive⟩
    | some s =>
      obtain ⟨g', hg', htoken, -, rfl⟩ := hfound s hfind
      rw [grants_unique hdistinct hg' hg htoken]

/-- **The guard and the ledger agree** on every token. -/
theorem admitted_iff_live (hscrypt : Function.Injective fun token => scrypt token salt)
    (hreflects : Reflects scrypt providers sessions past) (hdistinct : DistinctTokens past)
    {now : Instant} (hclock : ∀ step ∈ past, step.now ≤ now) {cookie : Option String}
    {token : String} (htoken : (sessionCookie cookie).bind decodeCookie = some token)
    (providerId : ProviderId) :
    (∃ provider, ProviderAuthGuard.canActivate scrypt providers cookie now sessions =
        .admitted provider ∧ provider.id = providerId) ↔ Live past now token providerId := by
  rw [canActivate_token now htoken, live_iff]
  have hfind := find_iff_grant hscrypt hreflects hdistinct hclock token
  constructor
  · rintro ⟨provider, hprovider, rfl⟩
    cases hs : findProviderByTokenHash (hashToken scrypt token) now sessions with
    | none =>
      rw [hs] at hprovider
      cases hprovider
    | some s =>
      rw [hs] at hprovider
      obtain ⟨g, hg, rfl, hlive, rfl⟩ := (hfind s).mp hs
      dsimp only at hprovider
      cases hp : findProvider providers (g.row scrypt).providerId with
      | none =>
        rw [hp] at hprovider
        cases hprovider
      | some provider' =>
        rw [hp] at hprovider
        obtain rfl := ProviderReply.admitted.inj hprovider
        rw [findProvider_id hp]
        exact ⟨g.since, hg, hlive⟩
  · rintro ⟨since, hg, hlive⟩
    rw [(hfind _).mpr ⟨_, hg, rfl, hlive, rfl⟩]
    -- Sessions are granted to providers that exist.
    obtain ⟨provider, hprovider⟩ := Option.isSome_iff_exists.mp (hreflects.known _ hg)
    dsimp only [Grant.row] at hprovider ⊢
    rw [hprovider]
    exact ⟨provider, rfl, findProvider_id hprovider⟩

/-- The guard admits somebody with a token, or rejects. -/
theorem canActivate_cases (cookie : Option String) (now : Instant) :
    (∃ token provider, (sessionCookie cookie).bind decodeCookie = some token ∧
      ProviderAuthGuard.canActivate scrypt providers cookie now sessions = .admitted provider) ∨
    Rejected (ProviderAuthGuard.canActivate scrypt providers cookie now sessions) := by
  cases htoken : (sessionCookie cookie).bind decodeCookie with
  | none =>
    right
    unfold ProviderAuthGuard.canActivate
    cases hvalue : sessionCookie cookie with
    | none => exact .inr ⟨_, rfl⟩
    | some value =>
      rw [hvalue, Option.bind_some] at htoken
      dsimp only
      rw [htoken]
      exact .inl rfl
  | some token =>
    rw [canActivate_token now htoken]
    split
    · exact .inr (.inr ⟨_, rfl⟩)
    · split
      · exact .inr (.inl rfl)
      · next provider _ => exact .inl ⟨token, provider, rfl, rfl⟩

/-- **Provider sessions refine their specification.** -/
theorem requests_follow_grants (hscrypt : Function.Injective fun token => scrypt token salt)
    (h : ProviderRun scrypt providers sessions history) (hdistinct : DistinctTokens history)
    (hclock : ClockForward history) : FollowsSessions history := by
  intro past step rest hhistory cookie hcall
  obtain ⟨sessions', hrun, hreply⟩ := h.answered hhistory
  rw [hcall] at hreply
  change step.reply = ProviderAuthGuard.canActivate scrypt providers cookie step.now sessions' at hreply
  have hdistinct' : DistinctTokens past := by
    unfold DistinctTokens at hdistinct ⊢
    rw [hhistory, List.filterMap_append] at hdistinct
    exact hdistinct.of_append_left
  have hclock' : ∀ e ∈ past, e.now ≤ step.now := by
    intro e he
    unfold ClockForward at hclock
    rw [hhistory] at hclock
    exact (List.pairwise_append.mp hclock).2.2 e he step List.mem_cons_self
  have hadmitted : ∀ token, (sessionCookie cookie).bind decodeCookie = some token → ∀ providerId,
      (∃ provider, step.reply = .admitted provider ∧ provider.id = providerId) ↔
        Live past step.now token providerId := by
    intro token htoken
    rw [hreply]
    exact admitted_iff_live hscrypt (hrun.reflects hscrypt) hdistinct' hclock' htoken
  refine ⟨fun token hcookie providerId => ?_, fun hnone => ?_⟩
  · refine hadmitted token ?_ providerId
    rw [hcookie, Option.bind_some, decodeCookie_cookieValue]
  · rcases canActivate_cases cookie step.now with ⟨token, provider, htoken, hprovider⟩ | hrejected
    · have hlive := (hadmitted token htoken provider.id).mp ⟨provider, hreply.trans hprovider, rfl⟩
      exact absurd ⟨token, provider.id, htoken, hlive⟩ hnone
    · rw [hreply]
      exact hrejected

end Reflects

/-! ### A session and a request -/

theorem sessionCookie_cookieValue {value : String} (h : (cookieValue value).toList ≠ []) :
    sessionCookie (some (cookieName ++ cookieValue value)) = some (cookieValue value) := by
  simp only [sessionCookie, Option.getD_some, String.toList_append]
  rw [matchAfter_cookieValue (by decide) h]
  simp

def sampleProvider : ProviderAccount := ⟨7, "P", none, "p", "UTC", none⟩

def sampleToken : Bytes48 := ⟨List.replicate 48 251, by simp⟩

/-- The request of somebody who comes with the cookie of that token. -/
def sampleVisit : ProviderCall := .request (some (cookieName ++ cookieValue (base64Text sampleToken.1)))

/-- A session is created at the epoch, and used one millisecond later. -/
theorem sample_session_used : ∃ create visit provider,
    FollowsSessions ([create] ++ [visit]) ∧ visit.call = sampleVisit ∧ visit.now = 1 ∧
      visit.reply = .admitted provider ∧ provider.id = 7 := by
  have hstart : ProviderRun sampleScrypt [sampleProvider] [] [] := .start
  have hrun := (hstart.step 0 (.createSession 7 sampleToken)).step 1 sampleVisit
  generalize hvisit : ProviderStep.mk 1 sampleVisit _ = visit at hrun
  have hcall : visit.call = sampleVisit := by rw [← hvisit]
  have hnow : visit.now = 1 := by rw [← hvisit]
  have hissued : visit.issued = none := by rw [← hvisit]; rfl
  rw [List.nil_append] at hrun
  generalize hcreate : ProviderStep.mk 0 (.createSession 7 sampleToken) _ = create at hrun
  have hcreated : create.issued = some (7, base64Text sampleToken.1) := by rw [← hcreate]; rfl
  have hzero : create.now = 0 := by rw [← hcreate]
  have hdistinct : DistinctTokens ([create] ++ [visit]) := by
    unfold DistinctTokens
    rw [List.filterMap_append, List.filterMap_cons, List.filterMap_cons, hcreated, hissued]
    simp
  have hclock : ClockForward ([create] ++ [visit]) := by
    unfold ClockForward
    simp [hzero, hnow]
  have hfollows := requests_follow_grants (sampleScrypt_injective salt) hrun hdistinct hclock
  have hcookie : sessionCookie (some (cookieName ++ cookieValue (base64Text sampleToken.1))) =
      some (cookieValue (base64Text sampleToken.1)) :=
    sessionCookie_cookieValue (cookieValue_base64Text_ne_nil (by decide))
  obtain ⟨provider, hreply, hid⟩ := ((hfollows [create] visit [] rfl _ hcall).1 _ hcookie 7).mpr
    ⟨[], create, [], rfl, hcreated, by rw [hnow, hzero]; decide, fun _ h => absurd h List.not_mem_nil⟩
  exact ⟨create, visit, provider, hfollows, hcall, hnow, hreply, hid⟩

end Chronos.ProviderAuth
