import Chronos.Schema
import Mathlib.Data.List.Infix

namespace Chronos

/-!
# Requests and replies

The JavaScript values request bodies and headers carry, as far as the booking modules look
at them, and the object the functions answer with.

A body is any JSON.  Of a value in a place where the source expects a number it matters
whether it is missing, which number it is, and, if it is something else, which number
JavaScript makes of it.  Numbers are exact: the rounding of IEEE arithmetic is not modelled.
-/

/-- A JavaScript number. -/
inductive JsNumber
  | nan
  | infinity (negative : Bool)
  | rat (q : ℚ)
  deriving DecidableEq

/-- A value of a request body in a place where the source expects a number. -/
inductive JsValue
  | undefined
  | null
  | number (x : JsNumber)
  /-- Any other JSON value, with its text and what `Number` makes of it. -/
  | other (text : String) (asNumber : JsNumber)
  deriving DecidableEq

/-- `value !== v` is false only for the number `v`. -/
def JsValue.isInt (value : JsValue) (v : Int) : Bool := decide (value = .number (.rat v))

/-- `value ?? 24` in arithmetic. -/
def JsValue.orTwentyFour : JsValue → JsNumber
  | .undefined => .rat 24
  | .null => .rat 24
  | .number x => x
  | .other _ x => x

/-- A property `JSON.stringify` prints, unless it is `undefined`; what is not finite is
    printed as `null`. -/
def JsValue.property (name : String) : JsValue → JsonText
  | .undefined => []
  | .null => [(name, .null)]
  | .number (.rat q) => [(name, .num q)]
  | .number _ => [(name, .null)]
  | .other text _ => [(name, .str text)]

/-- `nowMs > startMs - windowHours * 60 * 60 * 1000`: false for `NaN`. -/
def JsNumber.windowExpired (windowHours : JsNumber) (startMs nowMs : Instant) : Bool :=
  match windowHours with
  | .nan => false
  | .infinity negative => !negative
  | .rat q => decide ((nowMs : ℚ) > startMs - q * 60 * 60 * 1000)

/-- What `JSON.parse` and `response.json()` return. -/
inductive JsonValue
  | null
  | bool (b : Bool)
  | number (x : JsNumber)
  | string (s : String)
  | array (items : List JsonValue)
  | object (fields : List (String × JsonValue))

/-- `data.name`; `none` is `undefined`, and the error that `null` throws. -/
def JsonValue.property (name : String) : JsonValue → Option JsonValue
  | .object fields => fields.lookup name
  | _ => none

/-- `if (key)`: an empty string is no key. -/
def truthy : Option String → Option String
  | some "" => none
  | key => key

/-- `msg.includes(part)`. -/
def includes (msg part : String) : Bool := decide (part.toList <:+: msg.toList)

/-! ### `parseInt` -/

/-- White space and line ends that `parseInt` skips and that a header can hold. -/
def isJsSpace (c : Char) : Bool :=
  c == ' ' || c == '\t' || c == '\n' || c == '\r' || c.val == 0x0B || c.val == 0x0C ||
    c.val == 0xA0 || c.val == 0xFEFF

def digitsValue (digits : List Char) : Nat :=
  digits.foldl (fun n c => 10 * n + (c.toNat - '0'.toNat)) 0

/-- The digits at the front, if there are any. -/
def parseDigits (cs : List Char) : Option Nat :=
  match cs.takeWhile Char.isDigit with
  | [] => none
  | digits => some (digitsValue digits)

/-- `parseInt(text, 10)`; `none` is `NaN`. -/
def parseInt (text : String) : Option Int :=
  match text.toList.dropWhile isJsSpace with
  | '-' :: cs => (parseDigits cs).map fun n => -(n : Int)
  | '+' :: cs => (parseDigits cs).map fun n => (n : Int)
  | cs => (parseDigits cs).map fun n => (n : Int)

/-! ### Replies -/

/-- `{ id, status, version }`. -/
structure BookingView where
  id : BookingId
  status : String
  version : Int
  deriving DecidableEq

/-- What a function answers: `BookingResult`, `RescheduleResult` and the object literals of
    the controller, with the properties an answer lacks left empty. -/
structure Reply where
  status : Nat
  bookingId : Option BookingId
  error : Option String
  replay : Bool
  booking : Option BookingView
  deriving DecidableEq

/-- `{ status, error }`. -/
def Reply.refused (status : Nat) (error : String) : Reply := ⟨status, none, some error, false, none⟩

/-- `{ status: 201, bookingId, replay }`. -/
def Reply.created (bookingId : BookingId) (replay : Bool) : Reply :=
  ⟨201, some bookingId, none, replay, none⟩

/-- `{ status: 200, booking: { id, status, version } }`. -/
def Reply.updated (id : BookingId) (status : String) (version : Int) : Reply :=
  ⟨200, none, none, false, some ⟨id, status, version⟩⟩

/-- `{ status: 204 }`. -/
def Reply.noContent : Reply := ⟨204, none, none, false, none⟩

end Chronos
