import RepairShop.Number.Binary

/-!
Rounding a double to a number of decimal places, and reading decimal text as a double. Both
work on exact values: the double `m · 2^e` times `10^n` is rounded to an integer `q` (a half
goes to the even neighbour), and `q / 10^n` is read back as the nearest double, keeping the
sign, so a small negative value rounds to `-0.0`. Decimal text `digits · 10^exp` is read as
the nearest double the same way.
-/

namespace RepairShop.Number

/-- The double nearest to `x` rounded to `places` decimal places; NaN and the infinities are
returned unchanged. -/
def roundPlaces (x : Float) (places : Nat) : Float :=
  match shape x with
  | .finite neg m e =>
    ofRatio neg (roundHalfEven (m * Nat.pow 10 places * pow2 e) (pow2 (-e))) (Nat.pow 10 places)
  | _ => x

/-- Largest decimal exponent worth computing: beyond it every value is infinite or zero. -/
def expLimit : Nat := 400

/-- The double nearest to `± digits · 10^exp`; exponents far outside the range of doubles
give infinity or zero without computing the power. -/
def ofDecimal (neg : Bool) (digits : Nat) (exp : Int) : Float :=
  let size : Int := (Nat.toDigits 10 digits).length
  if digits = 0 then ofRatio neg 0 1
  else if (expLimit : Int) < exp + size then infinity neg
  else if exp + size < -(expLimit : Int) then ofRatio neg 0 1
  else if 0 ≤ exp then ofRatio neg (digits * Nat.pow 10 exp.toNat) 1
  else ofRatio neg digits (Nat.pow 10 (-exp).toNat)

end RepairShop.Number
