import Chronos.ProviderSession

namespace Chronos.ProviderAuth

open Text

/-!
# What opens a provider's account

`PasswordService` stores a password as `scrypt:salt:key`, and `ProviderAuthController.login` checks
what it is given against that text.  Sessions are what `ProviderAuthGuard` goes by; together, the
password is what an admitted request goes back to.

* `hashPassword`, `verifyPassword_hashPassword` — a hash is verified with its own password only.
* `KnowsPassword` — the e-mail and password of a login are those of the provider.
* `login_cases` — a login opens a session for who knows the password, and tells all others the same.
* `requests_follow_passwords` — over every run of logins, logouts and requests, whom the guard admits.
-/

section Passwords

variable (scrypt : String → List UInt8 → List UInt8)

/-- `PasswordService.hashPassword`; `salt` is what it draws. -/
def hashPassword (password : String) (salt : Bytes32) : String :=
  let saltText := base64Text salt.1
  let derived := scrypt password (fromBase64 saltText.toList)
  "scrypt:" ++ saltText ++ ":" ++ base64Text derived

/-- The parts of a hash: none of them has a colon in it. -/
theorem splitOn_hashPassword (password : String) (salt : Bytes32) :
    (hashPassword scrypt password salt).toList.splitOn ':' =
      ["scrypt".toList, toBase64 salt.1, toBase64 (scrypt password salt.1)] := by
  have htext : (hashPassword scrypt password salt).toList =
      "scrypt".toList ++ ':' :: (toBase64 salt.1 ++ ':' :: toBase64 (scrypt password salt.1)) :=
    toList_hashToken salt password
  rw [htext, List.splitOn_append_cons_self, List.splitOn_append_cons_self,
    List.splitOn_eq_singleton (by decide), List.splitOn_eq_singleton (colon_notMem_toBase64 _),
    List.splitOn_eq_singleton (colon_notMem_toBase64 _)]
  rfl

variable {scrypt}

/-- **A hash is verified with the password it was made of**, and with no other. -/
theorem verifyPassword_hashPassword (hscrypt : ∀ salt, Function.Injective fun p => scrypt p salt)
    (hkey : ∀ password salt, scrypt password salt ≠ []) (salt : Bytes32) {password entered : String} :
    verifyPassword scrypt entered (hashPassword scrypt password salt) = true ↔ entered = password := by
  have hne : ∀ {bytes : List UInt8}, bytes ≠ [] → toBase64 bytes ≠ [] := fun h hnil =>
    h (toBase64_injective (hnil.trans rfl))
  have hsalt : salt.1 ≠ [] := List.ne_nil_of_length_pos (by rw [salt.2]; decide)
  unfold verifyPassword
  rw [splitOn_hashPassword]
  simp only [decide_true, List.isEmpty_eq_false_iff.mpr (hne hsalt),
    List.isEmpty_eq_false_iff.mpr (hne (hkey password salt.1)), fromBase64_toBase64, Bool.not_false,
    Bool.and_true, Bool.true_and, decide_eq_true_eq]
  exact ⟨fun h => hscrypt salt.1 (toBase64_injective h), fun h => by rw [h]⟩

/-- The text of a hash is not empty. -/
theorem present_hashPassword (password : String) (salt : Bytes32) :
    present (some (hashPassword scrypt password salt)) = some (hashPassword scrypt password salt) := by
  refine Option.filter_eq_some_iff.mpr ⟨rfl, decide_eq_true fun hempty => ?_⟩
  have hsplit := splitOn_hashPassword scrypt password salt
  rw [hempty] at hsplit
  cases hsplit

end Passwords

/-! ### Logins -/

/-- The accounts as they were set up: ids and e-mails are unique, and whoever has a password has its
    hash. -/
structure Enrolled (scrypt : String → List UInt8 → List UInt8) (password : ProviderId → Option String)
    (saltOf : ProviderId → Bytes32) (providers : List ProviderAccount) : Prop where
  ids : providers.Pairwise fun p q => p.id ≠ q.id
  emails : providers.Pairwise fun p q => p.email = none ∨ p.email ≠ q.email
  hashes : ∀ p ∈ providers,
    p.passwordHash = (password p.id).map fun word => hashPassword scrypt word (saltOf p.id)

/-- What was entered is the provider's e-mail, up to white space around it, and their password. -/
def KnowsPassword (password : ProviderId → Option String) (provider : ProviderAccount)
    (email entered : Option String) : Prop :=
  ∃ address word, present (some (trim (email.getD ""))) = some address ∧ present entered = some word ∧
    provider.email = some address ∧ password provider.id = some word

section Logins

variable {scrypt : String → List UInt8 → List UInt8} {password : ProviderId → Option String}
variable {saltOf : ProviderId → Bytes32} {providers : List ProviderAccount}

theorem Enrolled.find_email (h : Enrolled scrypt password saltOf providers) {provider : ProviderAccount}
    {address : String} (hmem : provider ∈ providers) (hemail : provider.email = some address) :
    providers.find? (fun p => decide (p.email = some address)) = some provider := by
  have hemails := h.emails
  clear h
  induction providers with
  | nil => cases hmem
  | cons p providers ih =>
    obtain ⟨hp, hrest⟩ := List.pairwise_cons.mp hemails
    rcases List.mem_cons.mp hmem with rfl | hmem
    · exact List.find?_cons_of_pos (by simpa using hemail)
    · have hother : p.email ≠ some address := by
        rcases hp provider hmem with hnone | hne
        · rw [hnone]
          nofun
        · exact fun heq => hne (heq.trans hemail.symm)
      rw [List.find?_cons_of_neg (by simpa using hother)]
      exact ih hmem hrest

theorem Enrolled.find_id (h : Enrolled scrypt password saltOf providers) {provider : ProviderAccount}
    (hmem : provider ∈ providers) : findProvider providers provider.id = some provider := by
  have hids := h.ids
  clear h
  induction providers with
  | nil => cases hmem
  | cons p providers ih =>
    obtain ⟨hp, hrest⟩ := List.pairwise_cons.mp hids
    rcases List.mem_cons.mp hmem with rfl | hmem
    · exact List.find?_cons_of_pos (by simp)
    · exact (List.find?_cons_of_neg (by simpa using hp provider hmem)).trans (ih hmem hrest)

/-- **A login** opens a session for the provider whose e-mail and password it comes with, and answers
    everybody else alike: an unknown e-mail, a wrong password, an account without one. -/
theorem login_cases (hscrypt : ∀ salt, Function.Injective fun p => scrypt p salt)
    (hkey : ∀ password salt, scrypt password salt ≠ [])
    (h : Enrolled scrypt password saltOf providers) (email entered : Option String) (token : Bytes48)
    (now : Instant) (sessions : List ProviderSession) :
    (∃ provider ∈ providers, KnowsPassword password provider email entered ∧
      ProviderAuthController.login scrypt providers email entered token now sessions =
        (.loggedIn provider (cookieValue (base64Text token.1)),
          createSession scrypt provider.id (base64Text token.1) now sessions)) ∨
    (∀ provider ∈ providers, ¬ KnowsPassword password provider email entered) ∧
      ProviderAuthController.login scrypt providers email entered token now sessions =
        (.unauthorized "Invalid credentials", sessions) := by
  unfold ProviderAuthController.login
  cases haddress : present (some (trim (email.getD ""))) with
  | none =>
    refine Or.inr ⟨fun provider _ => ?_, rfl⟩
    rintro ⟨address, word, hpresent, -⟩
    cases haddress.symm.trans hpresent
  | some address =>
    cases hword : present entered with
    | none =>
      refine Or.inr ⟨fun provider _ => ?_, rfl⟩
      rintro ⟨_, word, -, hpresent, -⟩
      cases hword.symm.trans hpresent
    | some word =>
      -- Whoever knows a password knows that of the provider with the address.
      have hknows : ∀ provider ∈ providers, KnowsPassword password provider email entered →
          providers.find? (fun p => decide (p.email = some address)) = some provider ∧
            password provider.id = some word := by
        rintro provider hmem ⟨address', word', haddress', hword', hemail, hpassword⟩
        obtain rfl := Option.some.inj (haddress.symm.trans haddress')
        obtain rfl := Option.some.inj (hword.symm.trans hword')
        exact ⟨h.find_email hmem hemail, hpassword⟩
      dsimp only
      cases hfind : providers.find? fun p => decide (p.email = some address) with
      | none =>
        refine Or.inr ⟨fun provider hmem hknown => ?_, rfl⟩
        cases hfind.symm.trans (hknows provider hmem hknown).1
      | some provider =>
        have hmem : provider ∈ providers := List.mem_of_find?_eq_some hfind
        have hemail : provider.email = some address := by simpa using List.find?_some hfind
        have honly : ∀ provider' ∈ providers, KnowsPassword password provider' email entered →
            provider' = provider ∧ password provider.id = some word := by
          intro provider' hmem' hknown
          obtain ⟨hfind', hpassword⟩ := hknows provider' hmem' hknown
          obtain rfl := Option.some.inj (hfind'.symm.trans hfind)
          exact ⟨rfl, hpassword⟩
        have hhash := h.hashes provider hmem
        cases hpassword : password provider.id with
        | none =>
          rw [hpassword] at hhash
          refine Or.inr ⟨fun provider' hmem' hknown => ?_, ?_⟩
          · cases hpassword.symm.trans (honly provider' hmem' hknown).2
          · dsimp only
            rw [hhash]
            rfl
        | some stored =>
          rw [hpassword, Option.map_some] at hhash
          dsimp only
          rw [hhash, present_hashPassword]
          dsimp only
          by_cases hmatch : word = stored
          · refine Or.inl ⟨provider, hmem, ⟨address, word, haddress, hword, hemail, ?_⟩, ?_⟩
            · rw [hpassword, hmatch]
            · rw [if_pos ((verifyPassword_hashPassword hscrypt hkey _).mpr hmatch), create,
                h.find_id hmem]
          · refine Or.inr ⟨fun provider' hmem' hknown => ?_, ?_⟩
            · have hknown := (honly provider' hmem' hknown).2
              exact hmatch (Option.some.inj (hpassword.symm.trans hknown)).symm
            · rw [if_neg fun hverified => hmatch ((verifyPassword_hashPassword hscrypt hkey _).mp hverified)]

end Logins

/-! ### Runs -/

/-- A call that comes over the network, or the cleanup. -/
def ProviderCall.Remote : ProviderCall → Prop
  | .createSession .. => False
  | .revokeSession _ => False
  | _ => True

/-- Somebody who knew the provider's password got the token at a login less than a day before `now`,
    and nobody has logged out with it since. -/
def LoggedIn (password : ProviderId → Option String) (past : List ProviderStep) (now : Instant)
    (token : String) (provider : ProviderAccount) : Prop :=
  ∃ before login after email entered bytes, past = before ++ login :: after ∧
    login.call = .login email entered bytes ∧ KnowsPassword password provider email entered ∧
    token = base64Text bytes.1 ∧ now < login.now + sessionMs ∧
    ∀ step ∈ after, ∀ cookie, step.call = .logout cookie →
      (sessionCookie cookie).bind decodeCookie ≠ some token

section Runs

variable {scrypt : String → List UInt8 → List UInt8} {password : ProviderId → Option String}
variable {saltOf : ProviderId → Bytes32} {providers : List ProviderAccount}
variable {sessions : List ProviderSession} {past history rest : List ProviderStep} {step : ProviderStep}

theorem Enrolled.knows_unique (h : Enrolled scrypt password saltOf providers)
    {provider provider' : ProviderAccount} {email entered : Option String} (hmem : provider ∈ providers)
    (hmem' : provider' ∈ providers) (hknows : KnowsPassword password provider email entered)
    (hknows' : KnowsPassword password provider' email entered) : provider = provider' := by
  obtain ⟨address, _, haddress, -, hemail, -⟩ := hknows
  obtain ⟨address', _, haddress', -, hemail', -⟩ := hknows'
  obtain rfl := Option.some.inj (haddress.symm.trans haddress')
  exact Option.some.inj ((h.find_email hmem hemail).symm.trans (h.find_email hmem' hemail'))

/-- A login of a run has issued a session if and only if it came with a provider's password. -/
theorem issued_login_iff (hscrypt : ∀ salt, Function.Injective fun p => scrypt p salt)
    (hkey : ∀ password salt, scrypt password salt ≠ [])
    (henrolled : Enrolled scrypt password saltOf providers)
    (hrun : ProviderRun scrypt providers sessions history) (hhistory : history = past ++ step :: rest)
    {email entered : Option String} {bytes : Bytes48} (hcall : step.call = .login email entered bytes)
    {provider : ProviderAccount} (hmem : provider ∈ providers) (token : String) :
    step.issued = some (provider.id, token) ↔
      KnowsPassword password provider email entered ∧ token = base64Text bytes.1 := by
  obtain ⟨sessions', -, hreply⟩ := hrun.answered hhistory
  rw [hcall] at hreply
  change step.reply =
    (ProviderAuthController.login scrypt providers email entered bytes step.now sessions').1 at hreply
  unfold ProviderStep.issued
  rw [hcall]
  rcases login_cases hscrypt hkey henrolled email entered bytes step.now sessions' with
    ⟨provider', hmem', hknows', hlogin⟩ | ⟨hnobody, hlogin⟩
  · rw [hreply, hlogin]
    simp only [Option.some.injEq, Prod.mk.injEq]
    constructor
    · rintro ⟨hid, rfl⟩
      have hfound := henrolled.find_id hmem'
      rw [hid, henrolled.find_id hmem] at hfound
      obtain rfl := Option.some.inj hfound
      exact ⟨hknows', rfl⟩
    · rintro ⟨hknows, rfl⟩
      rw [henrolled.knows_unique hmem hmem' hknows hknows']
      exact ⟨rfl, rfl⟩
  · rw [hreply, hlogin]
    exact ⟨fun h => (nomatch h), fun h => absurd h.1 (hnobody provider hmem)⟩

theorem revoked_of_remote {token : String} (hremote : step.call.Remote) :
    step.revoked ≠ some token ↔
      ∀ cookie, step.call = .logout cookie → (sessionCookie cookie).bind decodeCookie ≠ some token := by
  unfold ProviderStep.revoked
  cases hcall : step.call with
  | revokeSession t =>
    rw [hcall] at hremote
    exact hremote.elim
  | logout cookie =>
    constructor
    · rintro h _ heq
      obtain rfl := ProviderCall.logout.inj heq
      exact h
    · exact fun h => h cookie rfl
  | _ => exact ⟨fun _ _ heq => (nomatch heq), fun _ => nofun⟩

/-- **Live sessions are those of logins.** -/
theorem live_iff_loggedIn (hscrypt : ∀ salt, Function.Injective fun p => scrypt p salt)
    (hkey : ∀ password salt, scrypt password salt ≠ [])
    (henrolled : Enrolled scrypt password saltOf providers)
    (hrun : ProviderRun scrypt providers sessions past) (hremote : ∀ step ∈ past, step.call.Remote)
    {provider : ProviderAccount} (hmem : provider ∈ providers) (now : Instant) (token : String) :
    Live past now token provider.id ↔ LoggedIn password past now token provider := by
  constructor
  · rintro ⟨before, issue, after, hpast, hissued, hnow, hkept⟩
    have hissue : issue.call.Remote := hremote issue (by rw [hpast]; simp)
    cases hcall : issue.call with
    | createSession providerId bytes =>
      rw [hcall] at hissue
      exact hissue.elim
    | login email entered bytes =>
      obtain ⟨hknows, htoken⟩ :=
        (issued_login_iff hscrypt hkey henrolled hrun hpast hcall hmem token).mp hissued
      refine ⟨before, issue, after, email, entered, bytes, hpast, hcall, hknows, htoken, hnow, ?_⟩
      intro step hstep
      exact (revoked_of_remote (hremote step (by rw [hpast]; simp [hstep]))).mp (hkept step hstep)
    | _ =>
      unfold ProviderStep.issued at hissued
      rw [hcall] at hissued
      cases hissued
  · rintro ⟨before, login, after, email, entered, bytes, hpast, hcall, hknows, htoken, hnow, hkept⟩
    refine ⟨before, login, after, hpast, ?_, hnow, fun step hstep => ?_⟩
    · exact (issued_login_iff hscrypt hkey henrolled hrun hpast hcall hmem token).mpr ⟨hknows, htoken⟩
    · exact (revoked_of_remote (hremote step (by rw [hpast]; simp [hstep]))).mpr (hkept step hstep)

/-- Whom the guard admits has an account. -/
theorem mem_of_admitted {cookie : Option String} {now : Instant} {provider : ProviderAccount}
    (h : ProviderAuthGuard.canActivate scrypt providers cookie now sessions = .admitted provider) :
    provider ∈ providers := by
  unfold ProviderAuthGuard.canActivate at h
  split at h
  · cases h
  · split at h
    · cases h
    · split at h
      · cases h
      · split at h
        · cases h
        · next found hfound =>
          obtain rfl := ProviderReply.admitted.inj h
          exact List.mem_of_find?_eq_some hfound

/-- **Requests follow passwords.**  In every run of logins, logouts, cleanups and requests, a request is
    admitted as a provider exactly if its cookie carries the token of a login of the last day that
    came with the provider's e-mail and password, and nobody has logged out with it since. -/
theorem requests_follow_passwords (hscrypt : ∀ salt, Function.Injective fun p => scrypt p salt)
    (hkey : ∀ password salt, scrypt password salt ≠ [])
    (henrolled : Enrolled scrypt password saltOf providers)
    (h : ProviderRun scrypt providers sessions history)
    (hremote : ∀ step ∈ history, step.call.Remote) (hdistinct : DistinctTokens history)
    (hclock : ClockForward history) (hhistory : history = past ++ step :: rest)
    {cookie : Option String} (hcall : step.call = .request cookie) (provider : ProviderAccount) :
    step.reply = .admitted provider ↔ provider ∈ providers ∧
      ∃ token, (sessionCookie cookie).bind decodeCookie = some token ∧
        LoggedIn password past step.now token provider := by
  obtain ⟨sessions', hrun, hreply⟩ := h.answered hhistory
  rw [hcall] at hreply
  change step.reply = ProviderAuthGuard.canActivate scrypt providers cookie step.now sessions' at hreply
  have hdistinct' : DistinctTokens past := by
    unfold DistinctTokens at hdistinct ⊢
    rw [hhistory, List.filterMap_append] at hdistinct
    exact hdistinct.of_append_left
  have hclock' : ∀ e ∈ past, e.now ≤ step.now := by
    unfold ClockForward at hclock
    rw [hhistory] at hclock
    exact fun e he => (List.pairwise_append.mp hclock).2.2 e he step List.mem_cons_self
  have hpast : ∀ e ∈ past, e.call.Remote := fun e he =>
    hremote e (by rw [hhistory]; exact List.mem_append_left _ he)
  have hlive : ∀ token, (sessionCookie cookie).bind decodeCookie = some token → ∀ providerId,
      (∃ provider, step.reply = .admitted provider ∧ provider.id = providerId) ↔
        Live past step.now token providerId := by
    intro token htoken
    rw [hreply]
    exact admitted_iff_live (hscrypt salt) (hrun.reflects (hscrypt salt)) hdistinct' hclock' htoken
  have hmember : ∀ p, step.reply = .admitted p → p ∈ providers := fun p hp =>
    mem_of_admitted (hreply.symm.trans hp)
  constructor
  · intro hadmitted
    have hmem := hmember provider hadmitted
    rcases canActivate_cases cookie step.now with ⟨token, _, htoken, -⟩ | hrejected
    · have hlives := (hlive token htoken provider.id).mp ⟨provider, hadmitted, rfl⟩
      exact ⟨hmem, token, htoken,
        (live_iff_loggedIn hscrypt hkey henrolled hrun hpast hmem _ _).mp hlives⟩
    · rw [← hreply, hadmitted] at hrejected
      rcases hrejected with hrejected | ⟨_, hrejected⟩ <;> cases hrejected
  · rintro ⟨hmem, token, htoken, hloggedIn⟩
    obtain ⟨provider', hadmitted, hid⟩ := (hlive token htoken provider.id).mpr
      ((live_iff_loggedIn hscrypt hkey henrolled hrun hpast hmem _ _).mpr hloggedIn)
    have hfound := henrolled.find_id (hmember provider' hadmitted)
    rw [hid, henrolled.find_id hmem] at hfound
    rw [hadmitted, Option.some.inj hfound]

end Runs

/-! #### A login and a request -/

/-- A key for each password that is not empty. -/
def lengthenedScrypt (password : String) (_ : List UInt8) : List UInt8 :=
  0 :: password.toByteArray.data.toList

theorem lengthenedScrypt_injective (salt : List UInt8) :
    Function.Injective fun p => lengthenedScrypt p salt :=
  fun _ _ h => sampleScrypt_injective salt (List.cons.inj h).2

def sampleSalt : Bytes32 := ⟨List.replicate 32 0, by simp⟩

def samplePassword : ProviderId → Option String := fun id => if id = 7 then some "secret" else none

/-- A provider whose password is `secret`. -/
def sampleAccount : ProviderAccount :=
  ⟨7, "P", some "p@example.org", "p", "UTC", some (hashPassword lengthenedScrypt "secret" sampleSalt)⟩

def enterPassword : ProviderCall := .login (some " p@example.org") (some "secret") sampleToken

/-- The provider logs in, and is admitted with the cookie of the login. -/
theorem requests_follow_passwords_sample : ∃ login visit : ProviderStep,
    login.call = enterPassword ∧ visit.call = sampleVisit ∧ visit.reply = .admitted sampleAccount := by
  have hstart : ProviderRun lengthenedScrypt [sampleAccount] [] [] := .start
  have hrun := (hstart.step 0 enterPassword).step 1 sampleVisit
  generalize hvisit : ProviderStep.mk 1 sampleVisit _ = visit at hrun
  rw [List.nil_append] at hrun
  generalize hlogin : ProviderStep.mk 0 enterPassword _ = login at hrun
  have hcall : visit.call = sampleVisit := by rw [← hvisit]
  have hentered : login.call = enterPassword := by rw [← hlogin]
  have hnow : visit.now = 1 ∧ login.now = 0 := by rw [← hvisit, ← hlogin]; exact ⟨rfl, rfl⟩
  have hissued : visit.issued = none := by rw [← hvisit]; rfl
  have henrolled : Enrolled lengthenedScrypt samplePassword (fun _ => sampleSalt) [sampleAccount] := by
    refine ⟨List.pairwise_singleton _ _, List.pairwise_singleton _ _, fun p hp => ?_⟩
    obtain rfl := List.mem_singleton.mp hp
    rfl
  have hremote : ∀ step ∈ [login] ++ [visit], step.call.Remote := by
    intro step hstep
    rcases List.mem_append.mp hstep with hstep | hstep
    · rw [List.mem_singleton.mp hstep, hentered]
      exact trivial
    · rw [List.mem_singleton.mp hstep, hcall]
      exact trivial
  have hdistinct : DistinctTokens ([login] ++ [visit]) := by
    unfold DistinctTokens
    rw [List.filterMap_append, List.filterMap_cons, List.filterMap_cons, hissued]
    cases login.issued <;> simp
  have hclock : ClockForward ([login] ++ [visit]) := by
    unfold ClockForward
    simp [hnow.1, hnow.2]
  have hknows : KnowsPassword samplePassword sampleAccount (some " p@example.org") (some "secret") :=
    ⟨"p@example.org", "secret", by decide +kernel, by decide +kernel, rfl, rfl⟩
  have hcookie : (sessionCookie (some (cookieName ++ cookieValue (base64Text sampleToken.1)))).bind
      decodeCookie = some (base64Text sampleToken.1) := by
    rw [sessionCookie_cookieValue (cookieValue_base64Text_ne_nil (by decide)), Option.bind_some,
      decodeCookie_cookieValue]
  refine ⟨login, visit, hentered, hcall, ?_⟩
  refine (requests_follow_passwords lengthenedScrypt_injective (fun _ _ => nofun) henrolled hrun hremote
    hdistinct hclock rfl hcall sampleAccount).mpr ⟨List.mem_singleton_self _, _, hcookie, ?_⟩
  exact ⟨[], login, [], _, _, _, rfl, hentered, hknows, rfl, by rw [hnow.1, hnow.2]; decide,
    fun _ h => absurd h List.not_mem_nil⟩

end Chronos.ProviderAuth
