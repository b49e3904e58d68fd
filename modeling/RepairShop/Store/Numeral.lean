import RepairShop.Number.Extended

/-!
Numerals as the database reads them out of text. Two readers are at work.

The reader of doubles (`readReal`) skips blanks, takes an optional sign, digits, an optional
point with more digits and an optional exponent, and skips blanks again. Of the digits it
keeps a significand below about `9.2 · 10^17`; later digits before the point only raise the
exponent and later digits after it are dropped. The double is then the significand times or
divided by a power of ten in extended precision (`Wide`), built by repeated squaring and
rounded twice: to 64 bits and then to a double. So `'8544.854454836163355209e-261'` reads as
`8.544854454836164e-258`, one place above the nearest double. It tells how much of the text it
read (`Extent`): all of it as an integer, all of it as a decimal, a decimal followed by other
text, or nothing it counts.

The reader of integers (`readInt64`) takes blanks, a sign and digits, and reports whether other
text follows and whether the value leaves the 64-bit range.
-/

namespace RepairShop.Store

open Number

/-- How much of a text the reader of doubles took as a number. -/
inductive Extent where
  /-- All of it, blanks aside, an integer numeral. -/
  | integer
  /-- All of it, blanks aside, a numeral with a point or an exponent. -/
  | decimal
  /-- A numeral with a point or an exponent, followed by other text. -/
  | leading
  /-- Nothing it counts as a number. -/
  | unread
  deriving DecidableEq

/-- What the reader of doubles makes of a text: how much it read, and the double. -/
structure RealReading where
  extent : Extent
  value : Float

/-- Blanks the readers skip: space, tab, line feed, vertical tab, form feed and carriage
return. -/
def isNumberBlank (c : Char) : Bool :=
  c == ' ' || c == '\t' || c == '\n' || c.toNat == 11 || c.toNat == 12 || c == '\r'

/-- The largest 64-bit integer. -/
def int64Max : Nat := Nat.pow 2 63 - 1

/-- The significand stops taking digits once it reaches this. -/
def sigLimit : Nat := (int64Max - 9) / 10

/-- Value of a decimal digit. -/
def digitOf (c : Char) : Nat := c.toNat - '0'.toNat

/-- Digits before the point: the significand, how many digits it took, and the decimal places
it skipped once full. -/
def wholeDigits (sig count : Nat) : List Char → Nat × Nat × Nat × List Char
  | c :: r =>
    if c.isDigit then
      let s := sig * 10 + digitOf c
      if sigLimit ≤ s then
        (s, count + 1, (r.takeWhile Char.isDigit).length, r.dropWhile Char.isDigit)
      else wholeDigits s (count + 1) r
    else (sig, count, 0, c :: r)
  | [] => (sig, count, 0, [])

/-- Digits after the point: each taken while the significand is below `sigLimit`, moving the
exponent one place down. -/
def fractionDigits (sig count : Nat) (places : Nat) : List Char → Nat × Nat × Nat × List Char
  | c :: r =>
    if c.isDigit then
      if sig < sigLimit then fractionDigits (sig * 10 + digitOf c) (count + 1) (places + 1) r
      else fractionDigits sig count places r
    else (sig, count, places, c :: r)
  | [] => (sig, count, places, [])

/-- Digits of an exponent, the value held at 10000 once it gets there; whether there was one. -/
def exponentDigits (e : Nat) (seen : Bool) : List Char → Nat × Bool × List Char
  | c :: r =>
    if c.isDigit then exponentDigits (if e < 10000 then e * 10 + digitOf c else 10000) true r
    else (e, seen, c :: r)
  | [] => (e, seen, [])

/-- `10 ^ E` in extended precision by repeated squaring: from the lowest bit of `E` up, the
running product takes the current square when the bit is set, and the square is squared. -/
def widePow10Steps : Nat → Nat → Wide → Wide → Wide
  | 0, _, _, r => r
  | fuel + 1, e, x, r =>
    let r := if e % 2 == 1 then r.mul x else r
    if e / 2 == 0 then r else widePow10Steps fuel (e / 2) (x.mul x) r

/-- `10 ^ e` in extended precision, as the reader of doubles builds it. -/
def widePow10 (e : Nat) : Wide := widePow10Steps e e (Wide.ofNat 10) (Wide.ofNat 1)

/-- Moves decimal places from the exponent into the significand while it stays below a tenth of
the largest integer. -/
def shiftUp (s : Nat) : Nat → Nat × Nat
  | 0 => (s, 0)
  | e + 1 => if int64Max / 10 ≤ s then (s, e + 1) else shiftUp (s * 10) e

/-- Drops trailing zeros of the significand against a negative exponent. -/
def shiftDown (s : Nat) : Nat → Nat × Nat
  | 0 => (s, 0)
  | e + 1 => if s % 10 != 0 then (s, e + 1) else shiftDown (s / 10) e

/-- The double the reader computes for `± s · 10^exp`, `s > 0`. -/
def scaled (neg : Bool) (s : Nat) (exp : Int) : Float :=
  let down := exp < 0
  let (s, e) := if down then shiftDown s exp.natAbs else shiftUp s exp.natAbs
  let sw : Wide := ⟨s, 0⟩
  if e = 0 then Number.ofRatio neg s 1
  else if 307 < e then
    if e < 342 then
      -- the last factor `1e308` is applied in double arithmetic
      let big := (Wide.ofFloat 1e308).toRatio.1
      let scale := widePow10 (e - 308)
      let (p, q) := (Wide.ofFloat ((if down then sw.div scale else sw.mul scale).toFloat false)).toRatio
      if down then Number.ofRatio neg p (q * big) else Number.ofRatio neg (p * big) q
    else if down then (if neg then -0.0 else 0.0)
    else Number.infinity neg
  else
    let scale := widePow10 e
    (if down then sw.div scale else sw.mul scale).toFloat neg

/-- The reader of doubles. -/
def readReal (text : String) : RealReading :=
  let cs := text.toList.dropWhile isNumberBlank
  if cs.isEmpty then ⟨.unread, 0.0⟩ else
  let (neg, cs) := match cs with
    | '-' :: r => (true, r)
    | '+' :: r => (false, r)
    | r => (false, r)
  let (s, count, skipped, cs) := wholeDigits 0 0 cs
  let (s, count, places, pointed, cs) := match cs with
    | '.' :: r =>
      let (s, count, places, r) := fractionDigits s count 0 r
      (s, count, places, true, r)
    | r => (s, count, 0, false, r)
  let (e, expSeen, expNeg, marked, cs) := match cs with
    | c :: r =>
      if c == 'e' || c == 'E' then
        let (eneg, r) := match r with
          | '-' :: r' => (true, r')
          | '+' :: r' => (false, r')
          | r' => (false, r')
        let (e, seen, r) := exponentDigits 0 false r
        (e, seen, eneg, true, r)
      else (0, true, false, false, c :: r)
    | [] => (0, true, false, false, [])
  let atEnd := (cs.dropWhile isNumberBlank).isEmpty
  let exp : Int := (if expNeg then -(e : Int) else e) + skipped - places
  let value := if s = 0 then (if neg then -0.0 else 0.0) else scaled neg s exp
  let marks := (if pointed then 1 else 0) + (if marked then 1 else 0)
  let extent :=
    if atEnd && 0 < count && expSeen then (if marks = 0 then .integer else .decimal)
    else if 0 < marks && (marks = 2 || expSeen) && 0 < count then .leading
    else .unread
  ⟨extent, value⟩

/-- What the reader of integers makes of a text. -/
inductive IntReading where
  /-- No digit at all. -/
  | noDigits
  /-- Digits that fit in 64 bits; `whole` when nothing but blanks follows them. -/
  | fits (value : Int) (whole : Bool)
  /-- Digits beyond the 64-bit range. -/
  | overflow

/-- The reader of integers: blanks, a sign, leading zeros and digits. -/
def readInt64 (text : String) : IntReading :=
  let cs := text.toList.dropWhile isNumberBlank
  let (neg, cs) := match cs with
    | '-' :: r => (true, r)
    | '+' :: r => (false, r)
    | r => (false, r)
  let zeros := cs.takeWhile (· == '0')
  let cs := cs.dropWhile (· == '0')
  let ds := cs.takeWhile Char.isDigit
  let rest := cs.dropWhile Char.isDigit
  let u := ds.foldl (fun acc c => acc * 10 + digitOf c) 0
  if ds.isEmpty && zeros.isEmpty then .noDigits
  else if u ≤ int64Max || (neg && u = int64Max + 1) then
    .fits (if neg then -(u : Int) else u) (rest.all isNumberBlank)
  else .overflow

end RepairShop.Store
