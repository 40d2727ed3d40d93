import Chronos.Requests
import Chronos.AdminSession
import Chronos.Text.Base64Url
import Chronos.Text.Utf8
import Chronos.Text.CodeUnits

namespace Chronos

open Text

/-!
# The token of an unsubscribe link

A token is a payload in base64, a point, and the signature of the payload in base64.

* `signToken`, `verifyToken` — the two functions of `unsubscribe.token.ts`; HMAC and JSON stand
  for themselves (`TokenSettings`).
* `verifyToken_signToken` — a token is read back until its last second is over.
* `Spells` — the ways to write a token that has been issued.
* `verifyToken_ne_none_iff` — they are what is accepted, if no signature can be forged.
* `accepts_only_issued_iff` — a text is no other spelling of a token if it is canonical.
-/

/-! ### The payload -/

/-- `x < n`. -/
def JsNumber.lessThan (x : JsNumber) (n : Int) : Bool :=
  match x with
  | .nan => false
  | .infinity negative => negative
  | .rat q => decide (q < n)

namespace JsonValue

/-- Not `data.purpose !== 'reminder-unsubscribe'`. -/
def hasPurpose (data : JsonValue) : Bool :=
  match data.property "purpose" with
  | some (.string purpose) => decide (purpose = "reminder-unsubscribe")
  | _ => false

/-- Not `typeof data.exp !== 'number' || data.exp < Math.floor(Date.now() / 1000)`. -/
def inTime (now : Instant) (data : JsonValue) : Bool :=
  match data.property "exp" with
  | some (.number exp) => !exp.lessThan (now / 1000)
  | _ => false

/-- Not `!data.sub || typeof data.sub !== 'string'`. -/
def hasSub (data : JsonValue) : Bool :=
  match data.property "sub" with
  | some (.string sub) => decide (sub ≠ "")
  | _ => false

end JsonValue

/-- `{ sub: clientId, purpose: 'reminder-unsubscribe', exp }`. -/
def unsubscribePayload (clientId : String) (exp : Int) : JsonValue :=
  .object [("sub", .string clientId), ("purpose", .string "reminder-unsubscribe"),
    ("exp", .number (.rat exp))]

/-! ### The two functions -/

/-- `EXPIRY_MS = 7 * 24 * 60 * 60 * 1000`. -/
def expiryMs : Int := 7 * 24 * 60 * 60 * 1000

/-- What the functions call: the digest of HMAC-SHA256 under the secret, `JSON.stringify` and
    `JSON.parse`, which is `none` where it throws. -/
structure TokenSettings where
  hmac : String → Bytes32
  stringify : JsonValue → String
  parse : String → Option JsonValue
  parse_empty : parse "" = none

/-- `Buffer.from(text, 'base64url').toString('utf8')`. -/
def decodeText (text : List Char) : String := String.ofList (decodeUtf8 (fromBase64 text))

/-- `text.length`. -/
def utf16Length (text : List Char) : Nat := (codeUnits text).length

/-- A call of `signToken`. -/
structure SignCall where
  clientId : String
  now : Instant

def SignCall.exp (call : SignCall) : Int := call.now / 1000 + expiryMs / 1000

def SignCall.data (call : SignCall) : JsonValue := unsubscribePayload call.clientId call.exp

section Token

variable (c : TokenSettings)

/-- The payload that a call signs. -/
def SignCall.payload (call : SignCall) : String := c.stringify call.data

def signToken (call : SignCall) : String :=
  String.ofList (toBase64Url (utf8 (call.payload c).toList) ++ '.' ::
    toBase64Url (c.hmac (call.payload c)).1)

def verifyToken (now : Instant) (token : String) : Option JsonValue :=
  match token.toList.splitOn '.' with
  | b64 :: sig :: _ =>
    if b64 = [] ∨ sig = [] then none
    else
      let payload := decodeText b64
      let expectedSig := toBase64Url (c.hmac payload).1
      if utf16Length sig ≠ utf16Length expectedSig then none
      -- `timingSafeEqual`, which throws where the lengths differ.
      else if fromBase64 sig ≠ fromBase64 expectedSig then none
      else
        match c.parse payload with
        | none => none
        | some data =>
          if data.hasPurpose && data.inTime now && data.hasSub then some data else none
  | _ => none

end Token

/-! ### What is accepted -/

section Accepted

variable {c : TokenSettings} {now : Instant} {token : String} {b64 sig : List Char}
variable {rest : List (List Char)} {call : SignCall} {data : JsonValue}

theorem utf16Length_url {text : List Char} (h : ∀ x ∈ text, x ∈ urlAlphabet) :
    utf16Length text = text.length := by
  have hall : (urlAlphabet.all fun x => decide ((charUnits16 x).length = 1)) = true := by
    decide +kernel
  unfold utf16Length
  induction text with
  | nil => rfl
  | cons x text ih =>
    rw [List.forall_mem_cons] at h
    have hx : (charUnits16 x).length = 1 := by simpa using List.all_eq_true.mp hall x h.1
    show (charUnits16 x ++ codeUnits text).length = _
    rw [List.length_append, ih h.2, hx, List.length_cons, Nat.add_comm]

/-- A signature has 43 characters. -/
theorem utf16Length_signature (bytes : Bytes32) : utf16Length (toBase64Url bytes.1) = 43 := by
  rw [utf16Length_url fun x hx => mem_toBase64Url hx]
  show ((toDigits bytes.1).map urlDigit).length = 43
  rw [List.length_map, length_toDigits, bytes.2]

/-- **What `verifyToken` asks of its first two parts.** -/
structure TokenAccepted (c : TokenSettings) (now : Instant) (b64 sig : List Char) (data : JsonValue) :
    Prop where
  present : b64 ≠ []
  length : utf16Length sig = 43
  signature : fromBase64 sig = (c.hmac (decodeText b64)).1
  parsed : c.parse (decodeText b64) = some data
  purpose : data.hasPurpose = true
  inTime : data.inTime now = true
  sub : data.hasSub = true

theorem verifyToken_eq_some_iff (hsplit : token.toList.splitOn '.' = b64 :: sig :: rest) :
    verifyToken c now token = some data ↔ TokenAccepted c now b64 sig data := by
  have hexpected : fromBase64 (toBase64Url (c.hmac (decodeText b64)).1) = (c.hmac (decodeText b64)).1 :=
    fromBase64_toBase64Url _
  have hlength : utf16Length (toBase64Url (c.hmac (decodeText b64)).1) = 43 := utf16Length_signature _
  unfold verifyToken
  rw [hsplit]
  -- The digest is compared after one round trip of its own, which changes nothing.
  simp only [hexpected, hlength, Option.ite_none_left_eq_some]
  constructor
  · rintro ⟨hne, hlen, hsig, hread⟩
    cases hparse : c.parse (decodeText b64) with
    | none =>
      rw [hparse] at hread
      cases hread
    | some data' =>
      simp only [hparse, Option.ite_none_right_eq_some, Option.some.injEq, Bool.and_eq_true] at hread
      obtain ⟨⟨⟨hpurpose, htime⟩, hsub⟩, rfl⟩ := hread
      exact
        { present := fun hnil => hne (.inl hnil)
          length := Decidable.of_not_not hlen
          signature := Decidable.of_not_not hsig
          parsed := hparse
          purpose := hpurpose
          inTime := htime
          sub := hsub }
  · intro h
    have hsig : sig ≠ [] := by
      rintro rfl
      have hzero : utf16Length [] = 43 := h.length
      cases hzero
    have hpresent : ¬ (b64 = [] ∨ sig = []) := fun hnil => hnil.elim h.present hsig
    refine ⟨hpresent, not_not_intro h.length, not_not_intro h.signature, ?_⟩
    simp only [h.parsed, h.purpose, h.inTime, h.sub, Bool.and_self]
    rfl

/-- A text of one part is not accepted. -/
theorem exists_parts (h : verifyToken c now token ≠ none) :
    ∃ b64 sig rest, token.toList.splitOn '.' = b64 :: sig :: rest := by
  unfold verifyToken at h
  split at h
  · next b64 sig rest hsplit => exact ⟨b64, sig, rest, hsplit⟩
  · exact absurd rfl h

/-! ### The payload of a call -/

theorem hasPurpose_data (call : SignCall) : call.data.hasPurpose = true := rfl

theorem inTime_data (call : SignCall) (now : Instant) :
    call.data.inTime now = true ↔ now / 1000 ≤ call.exp := by
  show (!decide ((call.exp : ℚ) < ((now / 1000 : Int) : ℚ))) = true ↔ _
  rw [Bool.not_eq_true', decide_eq_false_iff_not, Rat.intCast_lt_intCast, Int.not_lt]

theorem hasSub_data (call : SignCall) : call.data.hasSub = true ↔ call.clientId ≠ "" := by
  show decide (call.clientId ≠ "") = true ↔ _
  rw [decide_eq_true_eq]

theorem decodeText_toBase64Url (payload : String) :
    decodeText (toBase64Url (utf8 payload.toList)) = payload := by
  unfold decodeText
  rw [fromBase64_toBase64Url, decodeUtf8_utf8, String.ofList_toList]

/-! ### A token is read back -/

/-- `JSON.parse` inverts `JSON.stringify` on the payload of a call. -/
def TokenSettings.Inverts (c : TokenSettings) (call : SignCall) : Prop :=
  c.parse (call.payload c) = some call.data

theorem point_notMem_toBase64Url (bytes : List UInt8) : '.' ∉ toBase64Url bytes := by
  intro h
  have hno : '.' ∉ urlAlphabet := by decide +kernel
  exact hno (mem_toBase64Url h)

theorem splitOn_signToken (c : TokenSettings) (call : SignCall) :
    (signToken c call).toList.splitOn '.' =
      [toBase64Url (utf8 (call.payload c).toList), toBase64Url (c.hmac (call.payload c)).1] := by
  unfold signToken
  rw [String.toList_ofList, List.splitOn_append_cons_self_of_not_mem (point_notMem_toBase64Url _),
    List.splitOn_eq_singleton (point_notMem_toBase64Url _)]

theorem payload_ne_empty (hjson : c.Inverts call) : call.payload c ≠ "" := by
  intro hempty
  have hparse : c.parse (call.payload c) = some call.data := hjson
  rw [hempty, c.parse_empty] at hparse
  cases hparse

/-- **A token is read back**, until its last second is over. -/
theorem verifyToken_signToken (hjson : c.Inverts call) (hid : call.clientId ≠ "") (now : Instant) :
    verifyToken c now (signToken c call) =
      if now / 1000 ≤ call.now / 1000 + 604800 then
        some (unsubscribePayload call.clientId (call.now / 1000 + 604800))
      else none := by
  have hpayload : decodeText (toBase64Url (utf8 (call.payload c).toList)) = call.payload c :=
    decodeText_toBase64Url _
  have hpresent : toBase64Url (utf8 (call.payload c).toList) ≠ [] := by
    apply toBase64Url_ne_nil
    apply utf8_ne_nil
    exact fun hnil => payload_ne_empty hjson (String.toList_eq_nil_iff.mp hnil)
  have hexp : call.exp = call.now / 1000 + 604800 := rfl
  rw [← hexp]
  show _ = if now / 1000 ≤ call.exp then some call.data else none
  by_cases htime : now / 1000 ≤ call.exp
  · rw [if_pos htime, verifyToken_eq_some_iff (splitOn_signToken c call)]
    exact
      { present := hpresent
        length := utf16Length_signature _
        signature := by rw [hpayload, fromBase64_toBase64Url]
        parsed := by rw [hpayload]; exact hjson
        purpose := hasPurpose_data call
        inTime := (inTime_data call now).mpr htime
        sub := (hasSub_data call).mpr hid }
  · rw [if_neg htime, Option.eq_none_iff_forall_ne_some]
    intro data hdata
    have haccepts := (verifyToken_eq_some_iff (splitOn_signToken c call)).mp hdata
    have hparsed := haccepts.parsed
    rw [hpayload, hjson] at hparsed
    obtain rfl := Option.some.inj hparsed
    exact htime ((inTime_data call now).mp haccepts.inTime)

/-! ### Other spellings -/

/-- **No signature can be forged**: where a text carries the digest of its payload, one of the calls
    has signed this payload. -/
def TokenSettings.Unforgeable (c : TokenSettings) (issued : List SignCall) (token : String) : Prop :=
  ∀ b64 sig rest, token.toList.splitOn '.' = b64 :: sig :: rest →
    fromBase64 sig = (c.hmac (decodeText b64)).1 → ∃ call ∈ issued, decodeText b64 = call.payload c

/-- The two parts spell a token that has been issued to somebody and is still in time. -/
structure Spells (c : TokenSettings) (issued : List SignCall) (now : Instant) (b64 sig : List Char) :
    Prop where
  call : ∃ call ∈ issued, call.clientId ≠ "" ∧ now / 1000 ≤ call.exp ∧
    decodeText b64 = call.payload c ∧ fromBase64 sig = (c.hmac (call.payload c)).1
  length : utf16Length sig = 43

/-- The text has two parts, both canonical, and the bytes of the first are UTF-8. -/
structure PlainSpelling (b64 sig : List Char) (rest : List (List Char)) : Prop where
  rest : rest = []
  payload : Canonical b64
  signature : Canonical sig
  utf8 : ∃ text, utf8 text = fromBase64 b64

theorem accepted_iff_spells {issued : List SignCall} (hjson : ∀ call ∈ issued, c.Inverts call)
    (hsplit : token.toList.splitOn '.' = b64 :: sig :: rest) (hforge : c.Unforgeable issued token) :
    (∃ data, TokenAccepted c now b64 sig data) ↔ Spells c issued now b64 sig := by
  constructor
  · rintro ⟨data, haccepts⟩
    obtain ⟨call, hcall, hpayload⟩ := hforge b64 sig rest hsplit haccepts.signature
    have hparsed := haccepts.parsed
    rw [hpayload, hjson call hcall] at hparsed
    obtain rfl := Option.some.inj hparsed
    have hsignature := haccepts.signature
    rw [hpayload] at hsignature
    refine ⟨⟨call, hcall, ?_, ?_, hpayload, hsignature⟩, haccepts.length⟩
    · exact (hasSub_data call).mp haccepts.sub
    · exact (inTime_data call now).mp haccepts.inTime
  · rintro ⟨⟨call, hcall, hid, htime, hpayload, hsignature⟩, hlength⟩
    refine ⟨call.data, ?_⟩
    exact
      { present := by
          rintro rfl
          -- No bytes are read as the empty payload.
          exact payload_ne_empty (hjson call hcall) hpayload.symm
        length := hlength
        signature := by rw [hpayload]; exact hsignature
        parsed := by rw [hpayload]; exact hjson call hcall
        purpose := hasPurpose_data call
        inTime := (inTime_data call now).mpr htime
        sub := (hasSub_data call).mpr hid }

/-- **What is accepted** are the spellings of tokens that have been issued. -/
theorem verifyToken_ne_none_iff {issued : List SignCall} (hjson : ∀ call ∈ issued, c.Inverts call)
    (hforge : c.Unforgeable issued token) :
    verifyToken c now token ≠ none ↔
      ∃ b64 sig rest, token.toList.splitOn '.' = b64 :: sig :: rest ∧ Spells c issued now b64 sig := by
  constructor
  · intro h
    obtain ⟨b64, sig, rest, hsplit⟩ := exists_parts h
    obtain ⟨data, hdata⟩ := Option.ne_none_iff_exists'.mp h
    have haccepts := (verifyToken_eq_some_iff hsplit).mp hdata
    exact ⟨b64, sig, rest, hsplit, (accepted_iff_spells hjson hsplit hforge).mp ⟨data, haccepts⟩⟩
  · rintro ⟨b64, sig, rest, hsplit, hspells⟩
    obtain ⟨data, haccepts⟩ := (accepted_iff_spells hjson hsplit hforge).mpr hspells
    rw [(verifyToken_eq_some_iff hsplit).mpr haccepts]
    exact Option.some_ne_none data

/-- The plain spelling of a token is the token. -/
theorem eq_signToken (hsplit : token.toList.splitOn '.' = b64 :: sig :: rest)
    (hpayload : decodeText b64 = call.payload c) (hsignature : fromBase64 sig = (c.hmac (call.payload c)).1)
    (hplain : PlainSpelling b64 sig rest) : token = signToken c call := by
  obtain ⟨rfl, hb64, hsig, text, htext⟩ := hplain
  have htoken : token.toList = b64 ++ '.' :: sig := by
    have hjoin : ['.'].intercalate (token.toList.splitOn '.') = token.toList := List.intercalate_splitOn '.'
    rw [hsplit] at hjoin
    rw [← hjoin]
    simp [List.intercalate_cons_cons]
  have hread : (call.payload c).toList = text := by
    rw [← hpayload]
    unfold decodeText
    rw [← htext, decodeUtf8_utf8, String.toList_ofList]
  have hwritten : toBase64Url (utf8 (call.payload c).toList) = b64 := by
    rw [hread, htext]
    exact (toBase64Url_fromBase64_eq_iff b64).mpr hb64
  have hsigned : toBase64Url (c.hmac (call.payload c)).1 = sig := by
    rw [← hsignature]
    exact (toBase64Url_fromBase64_eq_iff sig).mpr hsig
  apply String.toList_inj.mp
  unfold signToken
  rw [String.toList_ofList, hwritten, hsigned, htoken]

/-- The parts of a token are plain. -/
theorem plainSpelling_signToken (hsplit : (signToken c call).toList.splitOn '.' = b64 :: sig :: rest) :
    PlainSpelling b64 sig rest := by
  rw [splitOn_signToken] at hsplit
  obtain ⟨rfl, htail⟩ := List.cons.inj hsplit
  obtain ⟨rfl, rfl⟩ := List.cons.inj htail
  exact
    { rest := rfl
      payload := canonical_toBase64Url _
      signature := canonical_toBase64Url _
      utf8 := ⟨_, (fromBase64_toBase64Url _).symm⟩ }

/-- **Only issued texts are accepted**, exactly if no other spelling is presented. -/
theorem accepts_only_issued_iff {issued : List SignCall} (hjson : ∀ call ∈ issued, c.Inverts call)
    (hforge : c.Unforgeable issued token) :
    (verifyToken c now token ≠ none → ∃ call ∈ issued, token = signToken c call) ↔
      ∀ b64 sig rest, token.toList.splitOn '.' = b64 :: sig :: rest →
        Spells c issued now b64 sig → PlainSpelling b64 sig rest := by
  constructor
  · intro h b64 sig rest hsplit hspells
    have haccepted := (verifyToken_ne_none_iff hjson hforge).mpr ⟨b64, sig, rest, hsplit, hspells⟩
    obtain ⟨call, -, rfl⟩ := h haccepted
    exact plainSpelling_signToken hsplit
  · intro h haccepted
    obtain ⟨b64, sig, rest, hsplit, hspells⟩ := (verifyToken_ne_none_iff hjson hforge).mp haccepted
    have hplain := h b64 sig rest hsplit hspells
    obtain ⟨call, hcall, -, -, hpayload, hsignature⟩ := hspells.call
    exact ⟨call, hcall, eq_signToken hsplit hpayload hsignature hplain⟩

end Accepted

/-! #### One token -/

/-- The token of a client, issued as the clock started. -/
def sampleCall : SignCall := ⟨"client-123", 0⟩

def samplePayload : String :=
  "\x7b\"sub\":\"client-123\",\"purpose\":\"reminder-unsubscribe\",\"exp\":604800\x7d"

/-- Its digest under the secret that the source falls back to. -/
def sampleDigest : Bytes32 :=
  ⟨[108, 237, 198, 140, 48, 217, 46, 54, 26, 8, 153, 230, 122, 177, 80, 57, 71, 57, 63, 90, 3, 75,
    226, 79, 20, 81, 168, 248, 116, 110, 19, 11], rfl⟩

def sampleTokenSettings : TokenSettings where
  hmac _ := sampleDigest
  stringify _ := samplePayload
  parse text := if text = "" then none else some sampleCall.data
  parse_empty := rfl

def sampleToken : String :=
  "eyJzdWIiOiJjbGllbnQtMTIzIiwicHVycG9zZSI6InJlbWluZGVyLXVuc3Vic2NyaWJlIiwiZXhwIjo2MDQ4MDB9" ++
    ".bO3GjDDZLjYaCJnmerFQOUc5P1oDS-JPFFGo-HRuEws"

theorem inverts_sampleCall : sampleTokenSettings.Inverts sampleCall := by
  have hne : samplePayload ≠ "" := by decide +kernel
  show (if samplePayload = "" then none else some sampleCall.data) = some sampleCall.data
  rw [if_neg hne]

theorem signToken_sampleCall : signToken sampleTokenSettings sampleCall = sampleToken := by
  decide +kernel

/-- In its last second. -/
theorem verifyToken_signToken_sample :
    verifyToken sampleTokenSettings 604800999 (signToken sampleTokenSettings sampleCall) =
      some (unsubscribePayload "client-123" 604800) := by
  have hread := verifyToken_signToken inverts_sampleCall (by decide) 604800999
  exact hread

/-- The token with a third part. -/
def sampleOtherToken : String := sampleToken ++ ".x"

theorem splitOn_sampleOtherToken : ∃ b64 sig,
    sampleOtherToken.toList.splitOn '.' = [b64, sig, ['x']] ∧ decodeText b64 = samplePayload ∧
      fromBase64 sig = sampleDigest.1 ∧ utf16Length sig = 43 := by
  refine ⟨toBase64Url (utf8 samplePayload.toList), toBase64Url sampleDigest.1, ?_,
    decodeText_toBase64Url samplePayload, fromBase64_toBase64Url _, utf16Length_signature sampleDigest⟩
  have htext : sampleOtherToken.toList =
      toBase64Url (utf8 samplePayload.toList) ++ '.' :: (toBase64Url sampleDigest.1 ++ '.' :: ['x']) := by
    have hx : ".x".toList = ['.', 'x'] := by decide +kernel
    have hcall : signToken sampleTokenSettings sampleCall =
        String.ofList (toBase64Url (utf8 samplePayload.toList) ++ '.' :: toBase64Url sampleDigest.1) := rfl
    unfold sampleOtherToken
    rw [← signToken_sampleCall, hcall, String.toList_append, String.toList_ofList, hx]
    simp
  rw [htext, List.splitOn_append_cons_self_of_not_mem (point_notMem_toBase64Url _),
    List.splitOn_append_cons_self_of_not_mem (point_notMem_toBase64Url _)]
  rfl

theorem unforgeable_sampleOtherToken :
    sampleTokenSettings.Unforgeable [sampleCall] sampleOtherToken := by
  obtain ⟨b64, sig, hsplit, hpayload, -, -⟩ := splitOn_sampleOtherToken
  intro b64' sig' rest' hsplit' _
  rw [hsplit] at hsplit'
  obtain ⟨rfl, -⟩ := List.cons.inj hsplit'
  exact ⟨sampleCall, List.mem_singleton.mpr rfl, hpayload⟩

theorem inverts_sample : ∀ call ∈ [sampleCall], sampleTokenSettings.Inverts call := by
  intro call hcall
  rw [List.mem_singleton.mp hcall]
  exact inverts_sampleCall

/-- Nobody has issued it, and it is accepted. -/
theorem verifyToken_sampleOtherToken :
    sampleTokenSettings.Unforgeable [sampleCall] sampleOtherToken ∧
      verifyToken sampleTokenSettings 0 sampleOtherToken ≠ none ∧
      ¬ ∃ call ∈ [sampleCall], sampleOtherToken = signToken sampleTokenSettings call := by
  refine ⟨unforgeable_sampleOtherToken, ?_, ?_⟩
  · rw [verifyToken_ne_none_iff inverts_sample unforgeable_sampleOtherToken]
    obtain ⟨b64, sig, hsplit, hpayload, hsignature, hlength⟩ := splitOn_sampleOtherToken
    refine ⟨b64, sig, [['x']], hsplit, ⟨sampleCall, List.mem_singleton.mpr rfl, ?_⟩, hlength⟩
    exact ⟨by decide, by decide, hpayload, hsignature⟩
  · rintro ⟨call, hcall, heq⟩
    rw [List.mem_singleton.mp hcall, signToken_sampleCall] at heq
    have hlength := congrArg String.length heq
    have hx : ".x".length = 2 := by decide +kernel
    unfold sampleOtherToken at hlength
    rw [String.length_append, hx] at hlength
    omega

theorem accepts_only_issued_sample :
    (verifyToken sampleTokenSettings 0 sampleOtherToken ≠ none →
      ∃ call ∈ [sampleCall], sampleOtherToken = signToken sampleTokenSettings call) ↔
      ∀ b64 sig rest, sampleOtherToken.toList.splitOn '.' = b64 :: sig :: rest →
        Spells sampleTokenSettings [sampleCall] 0 b64 sig → PlainSpelling b64 sig rest :=
  accepts_only_issued_iff inverts_sample unforgeable_sampleOtherToken

end Chronos
