import RepairShop.Number.Extended
import RepairShop.Number.Shortest

/-!
Fifteen significant digits, as the database writes a double into a column of text: the form
`%!.15g` of its formatter, which always keeps a point (`1.5`, `100.0`, `1.0e+15`, `1.0e-05`).

The digits are not the correctly rounded ones. The formatter works in extended precision
(`Wide`): it brings the value into `[1, 10)` by dividing by a power of ten built up step by
step, adds half a unit of the fifteenth digit, and then takes the digits one at a time by
cutting off the integer part and multiplying the rest by ten, every step rounded to 64 bits.
So `635661929853378.5` is written `635661929853378.0` and `32531682521158.75` is written
`32531682521158.7`, and these are the texts the database stores.

Positional notation holds for decimal exponents from -4 to 14; other numbers get an exponent
of at least two digits. Trailing zeros of the fraction are dropped, keeping one digit after the
point. An infinity is `Inf`, with its sign.
-/

namespace RepairShop.Number

/-- Half a unit of the fifteenth significant digit, `5e-5 · 1e-10` computed as a product of
two doubles, added before the digits are taken. -/
def halfUnit : Wide :=
  Wide.ofFloat (Wide.productFloat (Wide.ofFloat 5.0e-5) (Wide.ofFloat 1.0e-10))

/-- The largest decimal exponent the scaling loops go past before they stop. -/
def scaleLimit : Int := 350

/-- Grows `scale` by the factor `step` (worth `stepExp` decimal places) while `v` is at least
`step · scale` and the exponent has not passed `scaleLimit`. -/
def growScale (v step : Wide) (stepExp : Int) : Nat → Wide × Int → Wide × Int
  | 0, acc => acc
  | fuel + 1, (scale, exp) =>
    if !v.lt (step.mul scale) && exp ≤ scaleLimit then
      growScale v step stepExp fuel (scale.mul step, exp + stepExp)
    else (scale, exp)

/-- Multiplies `v` by `step` (worth `stepExp` decimal places) while it is below `bound`. -/
def raise (bound step : Wide) (stepExp : Int) : Nat → Wide × Int → Wide × Int
  | 0, acc => acc
  | fuel + 1, (v, exp) =>
    if v.lt bound then raise bound step stepExp fuel (v.mul step, exp - stepExp) else (v, exp)

/-- Enough steps for every loop of the scaling: a finite double lies within `10^±324`. -/
def scaleFuel : Nat := 400

/-- A positive number brought into `[1, 10)` with its decimal exponent. -/
def normalize (v : Wide) : Wide × Int :=
  let one := Wide.ofNat 1
  let acc := growScale v (Wide.ofFloat 1e100) 100 scaleFuel (one, 0)
  let acc := growScale v (Wide.ofNat (Nat.pow 10 10)) 10 scaleFuel acc
  let (scale, exp) := growScale v (Wide.ofNat 10) 1 scaleFuel acc
  let acc := raise (Wide.ofFloat 1e-8) (Wide.ofNat (Nat.pow 10 8)) 8 scaleFuel (v.div scale, exp)
  raise one (Wide.ofNat 10) 1 scaleFuel acc

/-- `count` digits of a number below ten, each the integer part, the rest multiplied by ten
for the next one. -/
def takeDigits : Nat → Wide → List Nat
  | 0, _ => []
  | count + 1, v =>
    let d := v.floor
    d :: takeDigits count ((v.sub (Wide.ofNat d)).mul (Wide.ofNat 10))

/-- Digits as text. -/
def digitText (ds : List Nat) : String :=
  String.ofList (ds.map fun d => Char.ofNat ('0'.toNat + d))

/-- A fraction's digits without trailing zeros, keeping at least one digit. -/
def fractionText (ds : List Nat) : String :=
  match (ds.reverse.dropWhile (· == 0)).reverse with
  | [] => "0"
  | r => digitText r

/-- The exponent mark: `e`, its sign and at least two digits. -/
def exponentText (exp : Int) : String :=
  let n := exp.natAbs
  "e" ++ (if exp < 0 then "-" else "+") ++ (if n < 10 then "0" else "") ++ toString n

/-- The fifteen digits and decimal exponent of a non-negative number after rounding. -/
def fifteenSignificant (v : Wide) : List Nat × Int :=
  let (v, exp) := if v.mant = 0 then (v, 0) else normalize v
  let v := v.add halfUnit
  let (v, exp) := if v.lt (Wide.ofNat 10) then (v, exp) else (v.mul (Wide.ofFloat 0.1), exp + 1)
  (takeDigits 15 v, exp)

/-- The text of a double in a column of text (`%!.15g`). -/
def significantText (x : Float) : String :=
  match shape x with
  | .nan => "NaN"
  | .infinite neg => if neg then "-Inf" else "Inf"
  | .finite neg m e =>
    let sign := if neg && m != 0 then "-" else ""
    let (ds, exp) := fifteenSignificant ⟨m, e⟩
    if exp < -4 || 14 < exp then
      sign ++ digitText (ds.take 1) ++ "." ++ fractionText (ds.drop 1) ++ exponentText exp
    else if 0 ≤ exp then
      let whole := exp.toNat + 1
      sign ++ digitText (ds.take whole) ++ "." ++ fractionText (ds.drop whole)
    else
      sign ++ "0." ++ repeatChar '0' ((-exp).toNat - 1) ++ fractionText ds

end RepairShop.Number
