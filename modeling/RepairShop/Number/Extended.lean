import RepairShop.Number.Binary

/-!
Extended precision. The database turns doubles into decimal text, and decimal text into
doubles, in a binary format wider than a double: a significand of 64 bits and an exponent
range so wide that no value met here overflows or becomes subnormal. Every operation of that
format rounds its exact result to 64 significant bits, a tie going to the even significand.

A `Wide` is a non-negative `mant · 2^exp`. The operations below compute the exact result in
`Nat` arithmetic and then round it (`Wide.round`), so that a sequence of them yields the
very digits and doubles the database produces, including where two roundings in a row differ
from one.
-/

namespace RepairShop.Number

/-- A non-negative binary number `mant · 2^exp`. -/
structure Wide where
  mant : Nat
  exp : Int

/-- Number of significant bits kept by every operation on `Wide`. -/
def wideBits : Nat := 64

namespace Wide

/-- Zero. -/
def zero : Wide := ⟨0, 0⟩

/-- The number as an exact fraction `num / den`. -/
def toRatio (w : Wide) : Nat × Nat :=
  if 0 ≤ w.exp then (w.mant * pow2 w.exp, 1) else (w.mant, pow2 (-w.exp))

/-- `p / q · 2^e` rounded to 64 significant bits, a tie to the even significand; zero when
`p` or `q` is zero. -/
def round (p q : Nat) (e : Int) : Wide :=
  if p = 0 ∨ q = 0 then zero else
  let e0 := floorLog2 p q - (wideBits - 1 : Nat)
  let (num, den) := scaleDown p q e0
  let m0 := roundHalfEven num den
  if m0 = Nat.pow 2 wideBits then ⟨Nat.pow 2 (wideBits - 1), e0 + 1 + e⟩ else ⟨m0, e0 + e⟩

/-- A natural number, rounded to 64 bits. -/
def ofNat (n : Nat) : Wide := round n 1 0

/-- The exact value of a finite double, ignoring its sign; an infinity or a NaN gives zero. -/
def ofFloat (x : Float) : Wide :=
  match shape x with
  | .finite _ m e => ⟨m, e⟩
  | _ => zero

/-- The exponents of two numbers brought to the smaller one: the two mantissas over a common
power of two. -/
def align (a b : Wide) : Nat × Nat × Int :=
  let e := min a.exp b.exp
  (a.mant * pow2 (a.exp - e), b.mant * pow2 (b.exp - e), e)

/-- Rounded sum. -/
def add (a b : Wide) : Wide :=
  let (x, y, e) := align a b
  round (x + y) 1 e

/-- Rounded difference; zero when `b` exceeds `a`. -/
def sub (a b : Wide) : Wide :=
  let (x, y, e) := align a b
  round (x - y) 1 e

/-- Rounded product. -/
def mul (a b : Wide) : Wide := round (a.mant * b.mant) 1 (a.exp + b.exp)

/-- Rounded quotient; zero when `b` is zero. -/
def div (a b : Wide) : Wide := round a.mant b.mant (a.exp - b.exp)

/-- `a < b`, exactly. -/
def lt (a b : Wide) : Bool :=
  let (x, y, _) := align a b
  x < y

/-- The integer part. -/
def floor (w : Wide) : Nat :=
  let (p, q) := w.toRatio
  p / q

/-- The double nearest to the number, with the given sign. -/
def toFloat (w : Wide) (neg : Bool) : Float :=
  let (p, q) := w.toRatio
  Number.ofRatio neg p q

/-- The double nearest to the exact product of two numbers: what a product of two doubles
gives. -/
def productFloat (a b : Wide) : Float :=
  toFloat ⟨a.mant * b.mant, a.exp + b.exp⟩ false

end Wide

end RepairShop.Number
