/-!
Doubles as exact numbers. A finite double is `(-1)^neg · mant · 2^exp`; this module reads a
`Float` into that shape, rounds an exact non-negative rational to the nearest double (a tie
goes to the even mantissa, subnormals included, too large becomes infinity) and compares a
double with an integer exactly. Every decision is taken in `Nat` and `Int` arithmetic, so it
can be reasoned about without the operations of `Float`.
-/

namespace RepairShop.Number

/-- What a double is: not a number, an infinity, or `(-1)^neg · mant · 2^exp`. -/
inductive Shape where
  | nan
  | infinite (neg : Bool)
  | finite (neg : Bool) (mant : Nat) (exp : Int)
  deriving DecidableEq

/-- Number of mantissa bits stored in a double. -/
def fracBits : Nat := 52

/-- Exponent of the last place of the subnormal doubles. -/
def minExp : Int := -1074

/-- The shape of a double, read off its bits. -/
def shape (x : Float) : Shape :=
  let bits : Nat := x.toBits.toNat
  let neg : Bool := bits / Nat.pow 2 63 % 2 == 1
  let biased : Nat := bits / Nat.pow 2 fracBits % Nat.pow 2 11
  let frac : Nat := bits % Nat.pow 2 fracBits
  if biased == 2047 then
    if frac == 0 then .infinite neg else .nan
  else if biased == 0 then .finite neg frac minExp
  else .finite neg (frac + Nat.pow 2 fracBits) ((biased : Int) - 1075)

/-- `n / d` rounded to a natural, a half going to the even neighbour. -/
def roundHalfEven (n d : Nat) : Nat :=
  let q := n / d
  let r := n % d
  if 2 * r < d then q
  else if d < 2 * r then q + 1
  else if q % 2 == 0 then q else q + 1

/-- `2 ^ k` for an integer `k ≥ 0`, and `1` otherwise. -/
def pow2 (k : Int) : Nat := Nat.pow 2 k.toNat

/-- `p / q` as the fraction `num / den` scaled by `2 ^ (-e)`. -/
def scaleDown (p q : Nat) (e : Int) : Nat × Nat :=
  if 0 ≤ e then (p, q * pow2 e) else (p * pow2 (-e), q)

/-- Floor of the binary logarithm of `p / q`, for `p, q > 0`. -/
def floorLog2 (p q : Nat) : Int :=
  let l : Int := (p.log2 : Int) - (q.log2 : Int)
  let atLeast := if 0 ≤ l then q * pow2 l ≤ p else q ≤ p * pow2 (-l)
  if atLeast then l else l - 1

/-- Bits of the positive double nearest to `p / q` (`q > 0`); `p = 0` gives zero and a value
beyond the largest double gives infinity. -/
def nearestBits (p q : Nat) : Nat :=
  if p = 0 ∨ q = 0 then 0 else
  let e0 := max (floorLog2 p q - fracBits) minExp
  let (num, den) := scaleDown p q e0
  let m0 := roundHalfEven num den
  let (m, e) := if m0 = Nat.pow 2 (fracBits + 1) then (Nat.pow 2 fracBits, e0 + 1) else (m0, e0)
  if m < Nat.pow 2 fracBits then m
  else
    let biased := e + 1075
    if 2047 ≤ biased then 2047 * Nat.pow 2 fracBits
    else biased.toNat * Nat.pow 2 fracBits + (m - Nat.pow 2 fracBits)

/-- The double nearest to `± p / q`. -/
def ofRatio (neg : Bool) (p q : Nat) : Float :=
  let bits := nearestBits p q
  Float.ofBits (UInt64.ofNat (if neg then bits + Nat.pow 2 63 else bits))

/-- Positive or negative infinity. -/
def infinity (neg : Bool) : Float :=
  Float.ofBits (UInt64.ofNat (2047 * Nat.pow 2 fracBits + (if neg then Nat.pow 2 63 else 0)))

/-- The double nearest to an integer, or `none` when it is beyond the largest double. -/
def ofInt? (n : Int) : Option Float :=
  let x := ofRatio (n < 0) n.natAbs 1
  match shape x with
  | .infinite _ => none
  | _ => some x

/-- A finite double as the exact fraction `num / 2 ^ pow`. -/
structure Dyadic where
  num : Int
  pow : Nat
  deriving DecidableEq

/-- The exact value of a finite double. -/
def Shape.dyadic? : Shape → Option Dyadic
  | .finite neg m e =>
    let n : Int := if 0 ≤ e then (m * pow2 e : Nat) else m
    some ⟨if neg then -n else n, if 0 ≤ e then 0 else (-e).toNat⟩
  | _ => none

/-- Exact order between a double and an integer; `none` for a NaN. -/
def compareInt (x : Float) (n : Int) : Option Ordering :=
  match shape x with
  | .nan => none
  | .infinite neg => some (if neg then .lt else .gt)
  | s@(.finite _ _ _) =>
    match s.dyadic? with
    | some d => some (compare d.num (n * (Nat.pow 2 d.pow : Nat)))
    | none => none

/-- The integer part of a finite double, cut toward zero. -/
def truncate? (x : Float) : Option Int :=
  match (shape x).dyadic? with
  | some d =>
    let q : Int := (d.num.natAbs / Nat.pow 2 d.pow : Nat)
    some (if d.num < 0 then -q else q)
  | none => none

/-- A finite double with no fractional part. -/
def isIntegral (x : Float) : Bool :=
  match (shape x).dyadic? with
  | some d => d.num.natAbs % Nat.pow 2 d.pow == 0
  | none => false

end RepairShop.Number
