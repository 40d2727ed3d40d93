import Mathlib.Data.List.GetD
import Mathlib.Tactic.Common

namespace Text

/-!
# Base64 and percent-encoding

Two encodings of a web service.  `toBase64` and `fromBase64` are inverse to each other on what
`toBase64` writes (`fromBase64_toBase64`), and bytes whose number is no multiple of three get
a padding `=`.  `encodeURIComponent` leaves no character but unreserved ones, `%` and hex
digits, so it changes every text with another character; `decodeURIComponent` reads every text
back from it (`decodeURIComponent_encodeURIComponent`).
-/

/-! ### Base64 -/

def alphabet : List Char :=
  "ABCDEFGHIJKLMNOPQRSTUVWXYZabcdefghijklmnopqrstuvwxyz0123456789+/".toList

/-- The character of a number below 64. -/
def digit (n : Nat) : Char := alphabet.getD n '='

/-- The number of a character; the URL-safe alphabet is read as well. -/
def digitValue (c : Char) : Option Nat :=
  if c = '-' then some 62 else if c = '_' then some 63 else alphabet.idxOf? c

/-- Three bytes are four digits; a last group of one or two bytes is padded. -/
def toBase64 : List UInt8 → List Char
  | [] => []
  | [a] => [digit (a.toNat / 4), digit (a.toNat % 4 * 16), '=', '=']
  | [a, b] => [digit (a.toNat / 4), digit (a.toNat % 4 * 16 + b.toNat / 16),
      digit (b.toNat % 16 * 4), '=']
  | a :: b :: c :: rest =>
      digit (a.toNat / 4) :: digit (a.toNat % 4 * 16 + b.toNat / 16) ::
        digit (b.toNat % 16 * 4 + c.toNat / 64) :: digit (c.toNat % 64) :: toBase64 rest

/-- The bytes of a list of digits. -/
def fromDigits : List Nat → List UInt8
  | p :: q :: r :: s :: rest =>
      .ofNat (p * 4 + q / 16) :: .ofNat (q % 16 * 16 + r / 4) :: .ofNat (r % 4 * 64 + s) ::
        fromDigits rest
  | [p, q, r] => [.ofNat (p * 4 + q / 16), .ofNat (q % 16 * 16 + r / 4)]
  | [p, q] => [.ofNat (p * 4 + q / 16)]
  | _ => []

/-- Padding, and whatever is no digit, is passed over.  That of Node differs outside the alphabet: a
    padding `=` ends its input, and of a code unit it takes the low byte, which may be a digit. -/
def fromBase64 (text : List Char) : List UInt8 := fromDigits (text.filterMap digitValue)

theorem digitValue_digit {n : Nat} (h : n < 64) : digitValue (digit n) = some n := by
  have hall : ∀ i : Fin 64, digitValue (digit i) = some i.1 := by decide +kernel
  exact hall ⟨n, h⟩

theorem digitValue_padding : digitValue '=' = none := by decide +kernel

theorem byte_lt (a : UInt8) : a.toNat < 256 := a.toNat_lt

theorem byte_eq {a : UInt8} {n : Nat} (h : n = a.toNat) : UInt8.ofNat n = a := by
  rw [h, UInt8.ofNat_toNat]

/-- **Round trip.** -/
theorem fromBase64_toBase64 (bytes : List UInt8) : fromBase64 (toBase64 bytes) = bytes := by
  unfold fromBase64
  -- Groups of three bytes, as both functions take them.
  induction bytes using toBase64.induct with
  | case1 => rfl
  | case2 a =>
    have ha := byte_lt a
    have hfirst : digitValue (digit (a.toNat / 4)) = some (a.toNat / 4) :=
      digitValue_digit (by omega)
    have hsecond : digitValue (digit (a.toNat % 4 * 16)) = some (a.toNat % 4 * 16) :=
      digitValue_digit (by omega)
    simp only [toBase64, List.filterMap_cons, hfirst, hsecond, digitValue_padding,
      List.filterMap_nil, fromDigits]
    rw [byte_eq (a := a) (by omega)]
  | case3 a b =>
    have ha := byte_lt a
    have hb := byte_lt b
    have hfirst : digitValue (digit (a.toNat / 4)) = some (a.toNat / 4) :=
      digitValue_digit (by omega)
    have hsecond : digitValue (digit (a.toNat % 4 * 16 + b.toNat / 16))
        = some (a.toNat % 4 * 16 + b.toNat / 16) := digitValue_digit (by omega)
    have hthird : digitValue (digit (b.toNat % 16 * 4)) = some (b.toNat % 16 * 4) :=
      digitValue_digit (by omega)
    simp only [toBase64, List.filterMap_cons, hfirst, hsecond, hthird, digitValue_padding,
      List.filterMap_nil, fromDigits]
    rw [byte_eq (a := a) (by omega), byte_eq (a := b) (by omega)]
  | case4 a b c rest ih =>
    have ha := byte_lt a
    have hb := byte_lt b
    have hc := byte_lt c
    have hfirst : digitValue (digit (a.toNat / 4)) = some (a.toNat / 4) :=
      digitValue_digit (by omega)
    have hsecond : digitValue (digit (a.toNat % 4 * 16 + b.toNat / 16))
        = some (a.toNat % 4 * 16 + b.toNat / 16) := digitValue_digit (by omega)
    have hthird : digitValue (digit (b.toNat % 16 * 4 + c.toNat / 64))
        = some (b.toNat % 16 * 4 + c.toNat / 64) := digitValue_digit (by omega)
    have hfourth : digitValue (digit (c.toNat % 64)) = some (c.toNat % 64) :=
      digitValue_digit (by omega)
    simp only [toBase64, List.filterMap_cons, hfirst, hsecond, hthird, hfourth, fromDigits, ih]
    rw [byte_eq (a := a) (by omega), byte_eq (a := b) (by omega), byte_eq (a := c) (by omega)]

theorem toBase64_injective : Function.Injective toBase64 := by
  intro bytes bytes' h
  rw [← fromBase64_toBase64 bytes, h, fromBase64_toBase64]

/-- A character of a base64 text. -/
def IsBase64 (c : Char) : Prop := c ∈ alphabet ∨ c = '='

instance : DecidablePred IsBase64 := fun c => inferInstanceAs (Decidable (c ∈ alphabet ∨ c = '='))

theorem isBase64_digit (n : Nat) : IsBase64 (digit n) := by
  unfold digit IsBase64
  by_cases h : n < alphabet.length
  · rw [List.getD_eq_getElem _ _ h]
    exact Or.inl (List.getElem_mem h)
  · rw [List.getD_eq_default _ _ (by omega)]
    exact Or.inr rfl

theorem isBase64_of_mem {bytes : List UInt8} {c : Char} (h : c ∈ toBase64 bytes) :
    IsBase64 c := by
  have hpad : IsBase64 '=' := Or.inr rfl
  induction bytes using toBase64.induct with
  | case1 => cases h
  | case2 a =>
    simp only [toBase64, List.mem_cons, List.not_mem_nil, or_false] at h
    rcases h with rfl | rfl | rfl | rfl <;> first
      | exact isBase64_digit _
      | exact hpad
  | case3 a b =>
    simp only [toBase64, List.mem_cons, List.not_mem_nil, or_false] at h
    rcases h with rfl | rfl | rfl | rfl <;> first
      | exact isBase64_digit _
      | exact hpad
  | case4 a b c' rest ih =>
    simp only [toBase64, List.mem_cons] at h
    rcases h with rfl | rfl | rfl | rfl | h <;> first
      | exact isBase64_digit _
      | exact ih h

theorem not_mem_toBase64 {bytes : List UInt8} {c : Char} (h : ¬ IsBase64 c) :
    c ∉ toBase64 bytes := fun hc => h (isBase64_of_mem hc)

/-- Bytes whose number is no multiple of three are padded. -/
theorem padding_mem_toBase64 {bytes : List UInt8} (h : bytes.length % 3 ≠ 0) :
    '=' ∈ toBase64 bytes := by
  induction bytes using toBase64.induct with
  | case1 => exact absurd rfl h
  | case2 a => simp [toBase64]
  | case3 a b => simp [toBase64]
  | case4 a b c rest ih =>
    have hrest : rest.length % 3 ≠ 0 := by
      simp only [List.length_cons] at h
      omega
    simp only [toBase64, List.mem_cons]
    exact Or.inr (Or.inr (Or.inr (Or.inr (ih hrest))))

/-! ### Percent-encoding -/

/-- The characters `encodeURIComponent` leaves alone. -/
def unreserved : List Char :=
  "ABCDEFGHIJKLMNOPQRSTUVWXYZabcdefghijklmnopqrstuvwxyz0123456789-_.!~*'()".toList

def hexDigit (n : Nat) : Char := "0123456789ABCDEF".toList.getD n '0'

/-- A byte as `%` and two hex digits. -/
def percentByte (b : UInt8) : List Char := ['%', hexDigit (b.toNat / 16), hexDigit (b.toNat % 16)]

def encodeChar (c : Char) : List Char :=
  if c ∈ unreserved then [c] else (String.utf8EncodeChar c).flatMap percentByte

def encodeURIComponent (text : List Char) : List Char := text.flatMap encodeChar

theorem hexDigit_mem (n : Nat) : hexDigit n ∈ unreserved := by
  have hall : ("0123456789ABCDEF".toList.all fun c => unreserved.elem c) = true := by decide +kernel
  unfold hexDigit
  by_cases h : n < "0123456789ABCDEF".toList.length
  · rw [List.getD_eq_getElem _ _ h]
    exact List.elem_iff.mp (List.all_eq_true.mp hall _ (List.getElem_mem h))
  · rw [List.getD_eq_default _ _ (by omega)]
    decide +kernel

/-- What an encoded text consists of. -/
theorem mem_encodeURIComponent {text : List Char} {c : Char} (h : c ∈ encodeURIComponent text) :
    c ∈ unreserved ∨ c = '%' := by
  obtain ⟨c', -, hc⟩ := List.mem_flatMap.mp h
  unfold encodeChar at hc
  split at hc
  · next hu => exact Or.inl (List.mem_singleton.mp hc ▸ hu)
  · obtain ⟨b, -, hb⟩ := List.mem_flatMap.mp hc
    simp only [percentByte, List.mem_cons, List.not_mem_nil, or_false] at hb
    rcases hb with rfl | rfl | rfl
    · exact Or.inr rfl
    · exact Or.inl (hexDigit_mem _)
    · exact Or.inl (hexDigit_mem _)

/-- A character that is not left alone leaves a `%`. -/
theorem percent_mem_encodeURIComponent {text : List Char} {c : Char} (h : c ∈ text)
    (hc : c ∉ unreserved) : '%' ∈ encodeURIComponent text := by
  refine List.mem_flatMap.mpr ⟨c, h, ?_⟩
  have hpos : 0 < (String.utf8EncodeChar c).length := by
    rw [String.length_utf8EncodeChar]
    exact c.utf8Size_pos
  obtain ⟨b, hb⟩ := List.exists_mem_of_length_pos hpos
  rw [encodeChar, if_neg hc]
  exact List.mem_flatMap.mpr ⟨b, hb, by simp [percentByte]⟩

/-! ### Decoding -/

def hexValue (c : Char) : Option Nat :=
  if '0' ≤ c ∧ c ≤ '9' then some (c.toNat - 48)
  else if 'A' ≤ c ∧ c ≤ 'F' then some (c.toNat - 55)
  else if 'a' ≤ c ∧ c ≤ 'f' then some (c.toNat - 87)
  else none

/-- The characters of a text, the escapes `%XX` taken for bytes; none, if one is cut short. -/
def escapes : List Char → Option (List (Char ⊕ UInt8))
  | [] => some []
  | '%' :: a :: b :: rest =>
      match hexValue a, hexValue b with
      | some x, some y => (escapes rest).map (Sum.inr (.ofNat (x * 16 + y)) :: ·)
      | _, _ => none
  | c :: rest => if c = '%' then none else (escapes rest).map (Sum.inl c :: ·)

/-- The bytes that stand together are UTF-8; `pending` are those of a character that has begun. -/
def joinBytes : List UInt8 → List (Char ⊕ UInt8) → Option (List Char)
  | [], [] => some []
  | _ :: _, [] => none
  | [], .inl c :: rest => (joinBytes [] rest).map (c :: ·)
  | _ :: _, .inl _ :: _ => none
  | pending, .inr b :: rest =>
      match (pending ++ [b]).toByteArray.utf8DecodeChar? 0 with
      | some c => (joinBytes [] rest).map (c :: ·)
      | none => joinBytes (pending ++ [b]) rest

/-- It throws a `URIError` where an escape is cut short or the bytes are no UTF-8. -/
def decodeURIComponent (text : List Char) : Option (List Char) :=
  (escapes text).bind (joinBytes [])

theorem hexValue_hexDigit {n : Nat} (h : n < 16) : hexValue (hexDigit n) = some n := by
  have hall : ∀ i : Fin 16, hexValue (hexDigit i) = some i.1 := by decide +kernel
  exact hall ⟨n, h⟩

theorem escapes_percentByte (b : UInt8) (rest : List Char) :
    escapes (percentByte b ++ rest) = (escapes rest).map (Sum.inr b :: ·) := by
  have hb := byte_lt b
  have hhigh : hexValue (hexDigit (b.toNat / 16)) = some (b.toNat / 16) := hexValue_hexDigit (by omega)
  have hlow : hexValue (hexDigit (b.toNat % 16)) = some (b.toNat % 16) := hexValue_hexDigit (by omega)
  show escapes ('%' :: hexDigit (b.toNat / 16) :: hexDigit (b.toNat % 16) :: rest) = _
  rw [escapes, hhigh, hlow]
  dsimp only
  rw [byte_eq (a := b) (by omega)]

theorem escapes_cons {c : Char} (h : c ≠ '%') (rest : List Char) :
    escapes (c :: rest) = (escapes rest).map (Sum.inl c :: ·) := by
  rw [escapes, if_neg h]
  intro a b rest' hc
  exact absurd hc h

/-- What a character is encoded as. -/
def charUnits (c : Char) : List (Char ⊕ UInt8) :=
  if c ∈ unreserved then [.inl c] else (String.utf8EncodeChar c).map .inr

theorem escapes_percentBytes (bytes : List UInt8) (rest : List Char) :
    escapes (bytes.flatMap percentByte ++ rest) = (escapes rest).map (bytes.map .inr ++ ·) := by
  induction bytes with
  | nil => simp
  | cons b bytes ih =>
    rw [List.flatMap_cons, List.append_assoc, escapes_percentByte, ih, Option.map_map]
    rfl

theorem escapes_encodeChar (c : Char) (rest : List Char) :
    escapes (encodeChar c ++ rest) = (escapes rest).map (charUnits c ++ ·) := by
  unfold encodeChar charUnits
  split
  · next h =>
    have hpercent : c ≠ '%' := by
      rintro rfl
      revert h
      decide +kernel
    exact escapes_cons hpercent rest
  · exact escapes_percentBytes _ rest

theorem escapes_encodeURIComponent (text : List Char) :
    escapes (encodeURIComponent text) = some (text.flatMap charUnits) := by
  induction text with
  | nil => rfl
  | cons c text ih =>
    have hcons : encodeURIComponent (c :: text) = encodeChar c ++ encodeURIComponent text := rfl
    rw [hcons, escapes_encodeChar, ih]
    rfl

/-- No proper beginning of a character's bytes is a character. -/
theorem decode_take {c : Char} {before after : List UInt8} (hafter : after ≠ [])
    (h : String.utf8EncodeChar c = before ++ after) :
    before.toByteArray.utf8DecodeChar? 0 = none := by
  by_contra hsome
  obtain ⟨c', hc'⟩ := Option.ne_none_iff_exists'.mp hsome
  obtain ⟨l, hl⟩ := ByteArray.exists_of_utf8DecodeChar?_eq_some hc'
  have hwhole : (String.utf8EncodeChar c).toByteArray =
      (String.utf8EncodeChar c').toByteArray ++ (l ++ after.toByteArray) := by
    rw [h, List.toByteArray_append, hl, ByteArray.append_assoc]
  have hfirst : (String.utf8EncodeChar c).toByteArray.utf8DecodeChar? 0 = some c' := by
    rw [hwhole]
    exact ByteArray.utf8DecodeChar?_utf8EncodeChar_append
  have hself : (String.utf8EncodeChar c).toByteArray.utf8DecodeChar? 0 = some c := by
    have happend := ByteArray.utf8DecodeChar?_utf8EncodeChar_append (b := ByteArray.empty) (c := c)
    rwa [ByteArray.append_empty] at happend
  rw [hself] at hfirst
  obtain rfl := Option.some.inj hfirst
  have hsize := congrArg ByteArray.size hl
  have hlength := congrArg List.length h
  rw [ByteArray.size_append, List.size_toByteArray, List.size_toByteArray] at hsize
  rw [List.length_append] at hlength
  have hpos : 0 < after.length := List.length_pos_iff.mpr hafter
  omega

/-- The bytes of a character are put together. -/
theorem joinBytes_utf8 {c : Char} (rest : List (Char ⊕ UInt8)) (after before : List UInt8)
    (hafter : after ≠ []) (h : String.utf8EncodeChar c = before ++ after) :
    joinBytes before (after.map .inr ++ rest) = (joinBytes [] rest).map (c :: ·) := by
  induction after generalizing before with
  | nil => exact absurd rfl hafter
  | cons b after ih =>
    have hstep : joinBytes before (Sum.inr b :: (after.map .inr ++ rest)) =
        match (before ++ [b]).toByteArray.utf8DecodeChar? 0 with
        | some c => (joinBytes [] (after.map .inr ++ rest)).map (c :: ·)
        | none => joinBytes (before ++ [b]) (after.map .inr ++ rest) := by
      cases before <;> rfl
    show joinBytes before (Sum.inr b :: (after.map .inr ++ rest)) = _
    rw [hstep]
    have hnext : String.utf8EncodeChar c = (before ++ [b]) ++ after := by
      rw [h, List.append_assoc]
      rfl
    by_cases hlast : after = []
    · subst hlast
      have hself : (before ++ [b]).toByteArray.utf8DecodeChar? 0 = some c := by
        have happend := ByteArray.utf8DecodeChar?_utf8EncodeChar_append (b := ByteArray.empty) (c := c)
        rw [ByteArray.append_empty, hnext, List.append_nil] at happend
        exact happend
      rw [hself]
      rfl
    · rw [decode_take hlast hnext]
      exact ih (before ++ [b]) hlast hnext

/-- **Round trip.** -/
theorem decodeURIComponent_encodeURIComponent (text : List Char) :
    decodeURIComponent (encodeURIComponent text) = some text := by
  unfold decodeURIComponent
  rw [escapes_encodeURIComponent, Option.bind_some]
  induction text with
  | nil => rfl
  | cons c text ih =>
    have hunits : charUnits c =
        if c ∈ unreserved then [.inl c] else (String.utf8EncodeChar c).map .inr := rfl
    rw [List.flatMap_cons, hunits]
    split
    · show (joinBytes [] (text.flatMap charUnits)).map (c :: ·) = _
      rw [ih]
      rfl
    · have hne : String.utf8EncodeChar c ≠ [] := by
        intro hnil
        have hlength := congrArg List.length hnil
        rw [String.length_utf8EncodeChar] at hlength
        exact absurd hlength (Nat.pos_iff_ne_zero.mp c.utf8Size_pos)
      rw [joinBytes_utf8 _ _ [] hne rfl, ih]
      rfl

/-- Only the empty text is encoded as the empty text. -/
theorem encodeURIComponent_ne_nil {text : List Char} (h : text ≠ []) :
    encodeURIComponent text ≠ [] := by
  intro hnil
  have hround := decodeURIComponent_encodeURIComponent text
  rw [hnil] at hround
  exact h (Option.some.inj hround).symm

end Text
