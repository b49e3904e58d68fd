import RepairShop.Error
import RepairShop.Json.Write
import RepairShop.Text.Numeral

/-!
Integers of values, as the service's code converts a value to an integer: integers stay,
booleans are 0 and 1, doubles are cut toward zero, and texts are read as decimal numerals
(`Text.readNumeral`: blanks around, a sign, digits of any script, single underscores between
digits). Everything else is a fault named by its cause: a text that is no numeral, a numeral
of too many digits, a NaN, an infinity, or a value of another kind.
-/

namespace RepairShop.Json

/-- A text as a refusal of the integer reader quotes it: shown in quotes (`Value.shown`) and
cut after 200 characters. -/
def refusedNumeral (v : Value) : String := String.ofList (v.shown.toList.take 200)

/-- The integer of a numeral; a text that is not a numeral, and one of too many digits, are
faults of their own. -/
def numeralOf (s : String) : Result Int :=
  match Text.readNumeral s with
  | .ok n => pure n
  | .error none => throw (.fault (.notNumeral (.str s)))
  | .error (some count) => throw (.fault (.oversizedInteger (Text.tooManyDigitsText count)))

/-- The integer a value converts to: integers as they are, booleans as 0 and 1, doubles
truncated toward zero, numerals read by `numeralOf`. Text that is no numeral or has too many
digits, a NaN or an infinite double, and values of other kinds are faults. -/
def wholeOf (v : Value) : Result Int :=
  match v with
  | .int n => pure n
  | .bool b => pure (if b then 1 else 0)
  | .float x =>
    match Number.shape x with
    | .infinite _ => throw (.fault .infiniteToInteger)
    | _ =>
      match Number.truncate? x with
      | some n => pure n
      | none => throw (.fault .nanToInteger)
  | .str s => numeralOf s
  | .unpaired _ => throw (.fault (.notNumeral v))
  | _ => throw (.fault (.notConvertible v))

end RepairShop.Json
