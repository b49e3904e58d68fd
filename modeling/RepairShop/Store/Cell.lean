import RepairShop.Json.Value
import RepairShop.Number.Places
import RepairShop.Number.Significant
import RepairShop.Store.Numeral

/-!
Stored values. The database keeps every value in one of four storage classes (`Cell`): no
value, a 64-bit integer, a double or a text. A column does not fix the class of what it
holds; its affinity only nudges values as they are stored:

* a column of numeric affinity (integers, flags, money, documents) stores a text that the
  database reads whole as a number (`Store.Numeral`) as that number, and a double with no
  fractional part strictly inside the 64-bit range as an integer;
* a column of text affinity stores numbers as their text, a double in the form
  `%!.15g` gives it (`Number.Significant`: fifteen significant digits, always a point).

In arithmetic a text counts as the number it starts with: `'4.25 apples'` as `4.25`,
`'12abc'` as `12`, and a text with no digits as `0`.

Values are ordered as the database orders them: no value first, then numbers by value
(integers and doubles compared exactly), then texts by code points.
-/

namespace RepairShop.Store

open Json

/-- A stored value. -/
inductive Cell where
  | null
  | int (n : Int)
  | real (x : Float)
  | text (s : String)

instance : Inhabited Cell := ⟨.null⟩

/-- How a column nudges the values stored in it. -/
inductive Affinity where
  | numeric
  | text
  deriving DecidableEq

/-- The least 64-bit integer. -/
def int64Min : Int := -(Nat.pow 2 63 : Nat)

/-- One above the largest 64-bit integer. -/
def int64End : Int := (Nat.pow 2 63 : Nat)

/-- The integer fits in 64 bits: from `int64Min` up to, not including, `int64End`. Stated on
the magnitude, so that an integer known only to be some natural number is compared with the
bound without counting up to it. -/
def fitsInt64 : Int → Bool
  | .ofNat k => k < Nat.pow 2 63
  | .negSucc k => k < Nat.pow 2 63

/-- Value of decimal digits. -/
def digitsNat (ds : List Char) : Nat :=
  ds.foldl (fun acc c => acc * 10 + (c.toNat - '0'.toNat)) 0

/-- A decimal numeral as `± mant · 10^exp`; `exact` when it has neither a point nor an
exponent, so that it names an integer as written. -/
structure Numeral where
  neg : Bool
  mant : Nat
  exp : Int
  exact : Bool

/-- Reads a numeral with no blanks around it; `none` when the text is not one. -/
def readNumeral? (cs : List Char) : Option Numeral :=
  let (neg, cs) := match cs with
    | '-' :: r => (true, r)
    | '+' :: r => (false, r)
    | r => (false, r)
  let intPart := cs.takeWhile Char.isDigit
  let cs := cs.dropWhile Char.isDigit
  let (fracPart, cs, hasPoint) := match cs with
    | '.' :: r => (r.takeWhile Char.isDigit, r.dropWhile Char.isDigit, true)
    | r => ([], r, false)
  if intPart.isEmpty && fracPart.isEmpty then none else
  let expPart : Option (Option Int) := match cs with
    | [] => some none
    | e :: r =>
      if e == 'e' || e == 'E' then
        let (eneg, r) := match r with
          | '-' :: r' => (true, r')
          | '+' :: r' => (false, r')
          | r' => (false, r')
        if !r.isEmpty && r.all Char.isDigit then
          let v : Int := digitsNat r
          some (some (if eneg then -v else v))
        else none
      else none
  match expPart with
  | none => none
  | some e =>
    some { neg, mant := digitsNat (intPart ++ fracPart),
           exp := e.getD 0 - fracPart.length, exact := !hasPoint && e.isNone }

/-- A double with no fractional part strictly between the least and the largest 64-bit
integers, as that integer; the two ends themselves stay doubles. -/
def realAsInt? (x : Float) : Option Int :=
  if Number.isIntegral x then
    match Number.truncate? x with
    | some n => if int64Min < n && n + 1 < int64End then some n else none
    | none => none
  else none

/-- A double as stored in a column of numeric affinity: one with no fractional part
strictly inside the 64-bit range becomes that integer. -/
def realCell (x : Float) : Cell :=
  match realAsInt? x with
  | some n => .int n
  | none => .real x

/-- The number a text becomes under numeric affinity, if the database reads all of it as one:
an integer numeral that fits in 64 bits as that integer, any other numeral as its double. -/
def numberOfText? (s : String) : Option Cell :=
  let r := readReal s
  match r.extent with
  | .integer =>
    match readInt64 s with
    | .fits n true => some (.int n)
    | _ => some (realCell r.value)
  | .decimal => some (realCell r.value)
  | _ => none

namespace Cell

/-- The cell holds no value. -/
def isNull : Cell → Bool
  | .null => true
  | _ => false

/-- The cell as stored in a column of the given affinity. -/
def withAffinity : Affinity → Cell → Cell
  | .numeric, .text s => (numberOfText? s).getD (.text s)
  | .numeric, .real x => realCell x
  | .text, .int n => .text (toString n)
  | .text, .real x => .text (Number.significantText x)
  | _, c => c

/-- The value the cell reads as, before any conversion of the column's kind. -/
def toValue : Cell → Value
  | .null => .null
  | .int n => .int n
  | .real x => .float x
  | .text s => .str s

/-- Rank of the storage class in the database's order. -/
def rank : Cell → Nat
  | .null => 0
  | .int _ => 1
  | .real _ => 1
  | .text _ => 2

/-- Exact order of two numbers. -/
def compareNumbers : Cell → Cell → Ordering
  | .int a, .int b => compare a b
  | .real x, .int b => (Number.compareInt x b).getD .eq
  | .int a, .real y => ((Number.compareInt y a).map Ordering.swap).getD .eq
  | .real x, .real y => if x < y then .lt else if y < x then .gt else .eq
  | _, _ => .eq

/-- The database's order of stored values. -/
def compare (a b : Cell) : Ordering :=
  match a, b with
  | .text s, .text t => if s < t then .lt else if t < s then .gt else .eq
  | _, _ =>
    if a.rank < b.rank then .lt
    else if b.rank < a.rank then .gt
    else compareNumbers a b

/-- The number a stored value counts as in arithmetic. A text counts as the number it starts
with: an integer when the reader of doubles takes nothing or a whole integer from it and the
reader of integers finds one that fits (no digits counting as zero), its double otherwise. -/
def asNumber : Cell → Cell
  | .text s =>
    let r := readReal s
    match r.extent, readInt64 s with
    | .unread, .noDigits => .int 0
    | .unread, .fits n _ => .int n
    | .integer, .fits n true => .int n
    | _, _ => .real r.value
  | c => c

/-- A stored value plus an integer, as the database adds; no value stays no value. -/
def plus (c : Cell) (k : Int) : Cell :=
  match c.asNumber with
  | .int n => if fitsInt64 (n + k) then .int (n + k) else .real (Float.ofInt (n + k))
  | .real x => .real (x + Float.ofInt k)
  | c => c

/-- Equality as a comparison in a query sees it: no value equals nothing. -/
def sqlEq (a b : Cell) : Bool :=
  !a.isNull && !b.isNull && compare a b == .eq

end Cell

/-- Why a value could not be handed to the database. -/
inductive BindFault where
  /-- An integer beyond 64 bits. -/
  | tooLarge
  /-- A list or object, named by its kind. -/
  | unsupported (kind : String)
  /-- A text with a lone surrogate, which UTF-8 cannot encode: its code points. -/
  | unencodable (points : List Nat)

/-- A value handed to the database as a parameter: booleans as 0 and 1, a NaN as no value. -/
def bindValue : Value → Except BindFault Cell
  | .null => .ok .null
  | .bool b => .ok (.int (if b then 1 else 0))
  | .int n => if fitsInt64 n then .ok (.int n) else .error .tooLarge
  | .float x => .ok (if x.isNaN then .null else .real x)
  | .str s => .ok (.text s)
  | .unpaired ps => .error (.unencodable ps)
  | .arr _ => .error (.unsupported "list")
  | .obj _ => .error (.unsupported "dict")

end RepairShop.Store
