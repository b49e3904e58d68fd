import RepairShop.Number.Binary

/-!
Shortest decimal text of a double. For a positive finite double `m · 2^e` the interval of
reals that read back as it has the midpoints to its neighbours as ends (ends included when
`m` is even; the gap below is half as wide at a power of two). For 1, 2, … 17 significant
digits the two neighbours of the value on that decimal grid are tested in exact `Nat`
arithmetic: the first grid with a hit wins, of two hits the nearer, an exact tie the even
one. `Style` holds the decisions of a printer: where positional notation ends, the width of
the exponent, the texts of the special values.
-/

namespace RepairShop.Number

/-- Number of decimal digits of `n` (one for zero). -/
def digitCount (n : Nat) : Nat :=
  (Nat.toDigits 10 n).length

/-- Decimal exponent of the leading digit of the positive double `m · 2^e`. -/
def leadExp (m : Nat) (e : Int) : Int :=
  let (num, den) := scaleDown (m * Nat.pow 10 400) 1 (-e)
  (digitCount (num / den) : Int) - 1 - 400

/-- The value `m · 2^e` measured in units of `10^k`, as a fraction. -/
def inUnits (m : Nat) (e k : Int) : Nat × Nat :=
  let num := m * pow2 e * Nat.pow 10 (-k).toNat
  let den := pow2 (-e) * Nat.pow 10 k.toNat
  (num, den)

/-- Candidate `d` (in units `num / den` of `m · 2^e`) reads back as the double: scaled by
`4 · m · den`, the value is `4 · m · num`, the gap above `2 · num`, the gap below `2 · num`
or `num` at a power of two. -/
def readsBack (m num den d : Nat) (lowHalf : Bool) : Bool :=
  let x := 4 * m * num
  let up := x + 2 * num
  let down := x - (if lowHalf then num else 2 * num)
  let c := 4 * m * den * d
  if m % 2 == 0 then down ≤ c && c ≤ up else down < c && c < up

/-- Distance of candidate `d` to the value, in the scale of `readsBack`. -/
def gapTo (m num den d : Nat) : Nat :=
  let x := 4 * m * num
  let c := 4 * m * den * d
  if x ≤ c then c - x else x - c

/-- Drops trailing zeros of `d · 10^k`. -/
def trimZeros : Nat → Nat × Int → Nat × Int
  | 0, p => p
  | fuel + 1, (d, k) =>
    if d != 0 && d % 10 == 0 then trimZeros fuel (d / 10, k + 1) else (d, k)

/-- The digit choice on the grid of `n` significant digits, if one reads back. -/
def onGrid (m : Nat) (e : Int) (lowHalf : Bool) (lead : Int) (n : Nat) : Option (Nat × Int) :=
  let k := lead - n + 1
  let (num, den) := inUnits m e k
  let lo := num / den
  let hi := lo + 1
  let okLo := lo != 0 && readsBack m num den lo lowHalf
  let okHi := readsBack m num den hi lowHalf
  if okLo && okHi then
    let gl := gapTo m num den lo
    let gh := gapTo m num den hi
    if gl < gh then some (lo, k)
    else if gh < gl then some (hi, k)
    else if lo % 2 == 0 then some (lo, k) else some (hi, k)
  else if okLo then some (lo, k)
  else if okHi then some (hi, k)
  else none

/-- Searches grids of `n, n+1, …` digits, at most `fuel` of them. -/
def firstGrid (m : Nat) (e : Int) (lowHalf : Bool) (lead : Int) : Nat → Nat → Option (Nat × Int)
  | 0, _ => none
  | fuel + 1, n =>
    match onGrid m e lowHalf lead n with
    | some r => some r
    | none => firstGrid m e lowHalf lead fuel (n + 1)

/-- Shortest digits `d` and exponent `k` with `d · 10^k` reading back as `m · 2^e` (`m > 0`);
`d` has no trailing zero. Seventeen digits always suffice. -/
def shortestDigits (m : Nat) (e : Int) : Nat × Int :=
  let lowHalf := m == Nat.pow 2 fracBits && minExp < e
  let lead := leadExp m e
  match firstGrid m e lowHalf lead 17 1 with
  | some (d, k) => trimZeros 20 (d, k)
  | none => (m, 0)

/-- How a printer writes a double. -/
structure Style where
  /-- The smallest leading-digit exponent written positionally. -/
  posFrom : Int
  /-- The first leading-digit exponent written with an exponent. -/
  sciFrom : Int
  /-- Least number of exponent digits. -/
  expWidth : Nat
  /-- Text of a NaN. -/
  nanText : String
  /-- Text of positive infinity (negative gets a minus sign). -/
  infText : String

/-- `c` repeated `n` times. -/
def repeatChar (c : Char) (n : Nat) : String :=
  String.ofList (List.replicate n c)

/-- Positional or exponent text of the digits `ds` (no trailing zero) whose leading digit has
exponent `lead`. Positional text always has a point and a digit after it. -/
def Style.layout (st : Style) (ds : String) (lead : Int) : String :=
  let len := ds.length
  if st.posFrom ≤ lead && lead < st.sciFrom then
    let point := lead + 1
    if point ≤ 0 then "0." ++ repeatChar '0' (-point).toNat ++ ds
    else if point.toNat < len then
      String.ofList (ds.toList.take point.toNat) ++ "." ++ String.ofList (ds.toList.drop point.toNat)
    else ds ++ repeatChar '0' (point.toNat - len) ++ ".0"
  else
    let head := String.ofList (ds.toList.take 1)
    let tail := String.ofList (ds.toList.drop 1)
    let mant := if tail.isEmpty then head else head ++ "." ++ tail
    let expDigits := toString lead.natAbs
    let padded := repeatChar '0' (st.expWidth - expDigits.length) ++ expDigits
    mant ++ "e" ++ (if lead < 0 then "-" else "+") ++ padded

/-- The text of a double in style `st`. -/
def Style.render (st : Style) (x : Float) : String :=
  match shape x with
  | .nan => st.nanText
  | .infinite neg => (if neg then "-" else "") ++ st.infText
  | .finite neg m e =>
    let sign := if neg then "-" else ""
    if m = 0 then sign ++ "0.0"
    else
      let (d, k) := shortestDigits m e
      let ds := toString d
      sign ++ st.layout ds (k + ds.length - 1)

/-- Plain text of a double: positional from `1e-4` up to below `1e16`, a two-digit signed
exponent otherwise, `nan` and `inf` for the special values. -/
def Style.plain : Style := ⟨-4, 16, 2, "nan", "inf"⟩

end RepairShop.Number
