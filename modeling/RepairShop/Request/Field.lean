import RepairShop.Error
import RepairShop.Json.Whole
import RepairShop.Json.Write
import RepairShop.Number.Places
import RepairShop.Text.Numeral

/-!
Fields of a request body. Each reader takes a dynamic value and the location of the field
(`initial_problems[0].price`) and either gives a typed value or refuses with a `bad_request`
naming that location. Integers accept whole doubles and numerals (`Text.readInt?`) but not
booleans; numbers are integers or doubles, never booleans, and become doubles; texts are
trimmed of blanks before their length is checked, and a text with a lone surrogate stays one.
-/

namespace RepairShop.Request

open Json

/-- The integer a value stands for, if any. An infinite double is a fault, not a refusal. -/
def intOf? (v : Value) : Result (Option Int) :=
  match v with
  | .int n => .ok (some n)
  | .float x =>
    match Number.shape x with
    | .infinite _ => .error (.fault .infiniteToInteger)
    | .nan => .ok none
    | .finite .. => .ok (if Number.isIntegral x then Number.truncate? x else none)
  | .str s => .ok (Text.readInt? s)
  | _ => .ok none

/-- An integer of at least `minimum`. -/
def intField (v : Value) (loc : String) (minimum : Int) : Result Int := do
  match ← intOf? v with
  | none => throw (badRequest s!"{loc} must be an integer" (some loc))
  | some n =>
    if n < minimum then throw (badRequest s!"{loc} must be >= {minimum}" (some loc))
    else pure n

/-- A whole number of at least `minimum`. -/
def natField (v : Value) (loc : String) (minimum : Nat) : Result Nat :=
  Int.toNat <$> intField v loc minimum

/-- An identifier: a whole number of at least one. -/
def idField (v : Value) (loc : String) : Result Nat :=
  natField v loc 1

/-- A required identifier: `null` is refused as missing. -/
def requireId (v : Value) (loc : String) : Result Nat :=
  if v.isNull then throw (badRequest s!"{loc} required" (some loc)) else idField v loc

/-- A number of at least `minimum`, as a double. -/
def numberField (v : Value) (loc : String) (minimum : Int) : Result Float := do
  let below : Bool := match v with
    | .int n => n < minimum
    | .float x => Number.compareInt x minimum == some .lt
    | _ => false
  match v with
  | .int n =>
    if below then throw (badRequest s!"{loc} must be >= {minimum}" (some loc))
    match Number.ofInt? n with
    | some x => pure x
    | none => throw (.fault .integerTooLargeForDouble)
  | .float x =>
    if below then throw (badRequest s!"{loc} must be >= {minimum}" (some loc))
    pure x
  | _ => throw (badRequest s!"{loc} must be a number" (some loc))

/-- Code points without blanks at either end; a surrogate is no blank. -/
def trimPoints (ps : List Nat) : List Nat :=
  let blank := fun (n : Nat) => Text.isBlank (Char.ofNat n)
  ((ps.dropWhile blank).reverse.dropWhile blank).reverse

/-- A text trimmed of blanks, non-empty unless `allowEmpty`, at most `maxLen` characters;
the result is a `str` or, when it holds a lone surrogate, an `unpaired` text. -/
def textField (v : Value) (loc : String) (maxLen : Nat) (allowEmpty : Bool) : Result Value :=
  let checked := fun (t : Value) (len : Nat) =>
    if len == 0 && !allowEmpty then throw (badRequest s!"{loc} required" (some loc))
    else if maxLen < len then throw (badRequest s!"{loc} too long (max {maxLen})" (some loc))
    else pure t
  match v with
  | .str s =>
    let t := Text.trim s
    checked (.str t) t.length
  | .unpaired ps =>
    let t := trimPoints ps
    checked (Value.ofPoints t) t.length
  | _ => throw (badRequest s!"{loc} must be a string" (some loc))

/-- The members of an object. -/
def objectField (v : Value) (loc : String) : Result (List (String × Value)) :=
  match v with
  | .obj fields => pure fields
  | _ => throw (badRequest s!"{loc} must be an object" (some loc))

/-- The items of a list. -/
def listField (v : Value) (loc : String) : Result (List Value) :=
  match v with
  | .arr items => pure items
  | _ => throw (badRequest s!"{loc} must be an array" (some loc))

/-- One of the allowed values, as membership compares them, refused through the field
`field` (a value, shown as its plain text in the message). -/
def choiceAt (v : Value) (allowed : List Value) (field : Value) : Result Value :=
  let message := field.display ++ " invalid"
  if v.memSame allowed then pure v
  else throw (.domain
    { kind := .badRequest, message, location := field, details := [("allowed", .arr allowed)] })

/-- One of the allowed values, refused through the named field. -/
def choice (v : Value) (allowed : List Value) (field : String) : Result Value :=
  choiceAt v allowed (.str field)

/-- Money has two decimal places. -/
def money (x : Float) : Float := Number.roundPlaces x 2

/-- Coordinates have seven decimal places. -/
def coordinate (x : Float) : Float := Number.roundPlaces x 7

end RepairShop.Request
