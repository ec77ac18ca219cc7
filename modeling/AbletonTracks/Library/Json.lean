import AbletonTracks.Library.Text

/-!
# JSON values

The values that Python's `json.loads` returns, with operations on them: truth
and the fields of an object, for which types do not matter, length, and the
conversion to a float.
-/

namespace Library

/-- What compares with an integer: a boolean does too. -/
inductive Number
  | bool (value : Bool)
  | int (value : Int)
  | float (value : Floating)
  deriving DecidableEq

namespace Number

/-- `number >= 0`. -/
def nonneg : Number → Bool
  | .bool _ => true
  | .int value => 0 ≤ value
  | .float value => value.nonneg

/-- `bool(number)`. -/
def truth : Number → Bool
  | .bool value => value
  | .int value => value ≠ 0
  | .float (.finite value) => value ≠ 0
  | .float _ => true

/-- `float(number)`, unless it raises: an integer may be too large. -/
def float? : Number → Option Floating
  | .bool value => some (.finite value.toNat)
  | .int value =>
      if |toDouble value| < 2 ^ 1024 then some (.finite (toDouble value))
      else none
  | .float value => some value

/-- The integer that indexes a list; no float does. -/
def index? : Number → Option Int
  | .bool value => some value.toNat
  | .int value => some value
  | .float _ => none

end Number

/-- A JSON value.  An object lists its fields in the order of the text. -/
inductive Json
  | null
  | number (value : Number)
  | string (value : String)
  | array (items : List Json)
  | object (fields : List (String × Json))

namespace Json

/-- `bool(value)`. -/
def truth : Json → Bool
  | .null => false
  | .number value => value.truth
  | .string value => value ≠ ""
  | .array items => !items.isEmpty
  | .object fields => !fields.isEmpty

/-- The field of an object: of several with one key, the last. -/
def field? (fields : List (String × Json)) (key : String) : Option Json :=
  (fields.reverse.find? fun field => field.1 = key).map Prod.snd

/-- What compares with an integer; anything else raises. -/
def number? : Json → Option Number
  | .number value => some value
  | _ => none

/-- The value is a finite number. -/
def Is (json : Json) (value : ℚ) : Prop :=
  json = .number (.float (.finite value)) ∨
    ∃ whole : ℤ, json = .number (.int whole) ∧ value = whole

/-- A number that is not zero is true. -/
theorem Is.truth
    {json : Json} {value : ℚ}
    (number : json.Is value)
    (nonzero : value ≠ 0) :
    json.truth = true := by
  obtain rfl | ⟨whole, rfl, rfl⟩ := number
  · exact decide_eq_true nonzero
  · exact decide_eq_true (Int.cast_ne_zero.mp nonzero)

/-- `float(value)`, unless it raises. -/
def float? : Json → Option Floating
  | .number value => value.float?
  | .string value => Text.float? value
  | _ => none

/-- `len(value)`, unless it raises. -/
def length? : Json → Option Nat
  | .string value => some value.length
  | .array items => some items.length
  | .object fields => some (fields.map Prod.fst).dedup.length
  | _ => none

/-- `str(value)`, where `repr` is `str` of a value that is no string. -/
def text (repr : Json → String) : Json → String
  | .string value => value
  | value => repr value

end Json
end Library
