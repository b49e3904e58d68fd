import RepairShop.Json.Value
import RepairShop.Number.Places

/-!
Reading JSON text. The grammar is RFC 8259 with three more literals, `NaN`, `Infinity` and
`-Infinity`. A number with a fraction or an exponent is a double (the nearest one to the
decimal), any other number an integer of any size. A string may not hold a raw control
character; an escaped surrogate pair makes one character, and a string with a lone surrogate
reads as an `unpaired` text (a key, which is a `String`, takes U+FFFD for it). An object that repeats a key keeps the first position and the last value.
Blanks are space, tab, line feed and carriage return. Every recursive step consumes input,
and the nesting walk runs on fuel equal to the length of the text.
-/

namespace RepairShop.Json

/-- Remaining input. -/
abbrev Input := List Char

/-- Drops JSON blanks. -/
def skipBlanks (cs : Input) : Input :=
  cs.dropWhile (fun c => c == ' ' || c == '\t' || c == '\n' || c == '\r')

/-- Value of a hexadecimal digit. -/
def hexValue? (c : Char) : Option Nat :=
  if '0' ≤ c && c ≤ '9' then some (c.toNat - '0'.toNat)
  else if 'a' ≤ c && c ≤ 'f' then some (c.toNat - 'a'.toNat + 10)
  else if 'A' ≤ c && c ≤ 'F' then some (c.toNat - 'A'.toNat + 10)
  else none

/-- Value of four hexadecimal digits. -/
def hex4? (a b c d : Char) : Option Nat := do
  let x ← hexValue? a
  let y ← hexValue? b
  let z ← hexValue? c
  let w ← hexValue? d
  pure (((x * 16 + y) * 16 + z) * 16 + w)

/-- The character of a simple escape. -/
def simpleEscape? : Char → Option Char
  | '"' => some '"'
  | '\\' => some '\\'
  | '/' => some '/'
  | 'b' => some (Char.ofNat 8)
  | 'f' => some (Char.ofNat 12)
  | 'n' => some '\n'
  | 'r' => some '\r'
  | 't' => some '\t'
  | _ => none

/-- A surrogate that starts a pair. -/
def isHighSurrogate (n : Nat) : Bool := 0xD800 ≤ n && n ≤ 0xDBFF

/-- A surrogate that ends a pair. -/
def isLowSurrogate (n : Nat) : Bool := 0xDC00 ≤ n && n ≤ 0xDFFF

/-- The code points read so far with a surrogate still waiting for its pair put down alone. -/
def flushPending (pending : Option Nat) (acc : List Nat) : List Nat :=
  match pending with
  | some hi => hi :: acc
  | none => acc

/-- Reads the body of a string up to its closing quote; `acc` holds the code points read so
far, last first, and `pending` a high surrogate escape that the next escape may complete. -/
def readStrBody : Input → Option Nat → List Nat → Option (List Nat × Input)
  | [], _, _ => none
  | '"' :: rest, pending, acc => some ((flushPending pending acc).reverse, rest)
  | '\\' :: 'u' :: a :: b :: c :: d :: rest, pending, acc =>
    match hex4? a b c d, pending with
    | none, _ => none
    | some n, some hi =>
      if isLowSurrogate n then
        readStrBody rest none ((0x10000 + (hi - 0xD800) * 0x400 + (n - 0xDC00)) :: acc)
      else if isHighSurrogate n then readStrBody rest (some n) (hi :: acc)
      else readStrBody rest none (n :: hi :: acc)
    | some n, none =>
      if isHighSurrogate n then readStrBody rest (some n) acc
      else readStrBody rest none (n :: acc)
  | '\\' :: e :: rest, pending, acc =>
    match simpleEscape? e with
    | some c => readStrBody rest none (c.toNat :: flushPending pending acc)
    | none => none
  | c :: rest, pending, acc =>
    if c.toNat < 0x20 then none else readStrBody rest none (c.toNat :: flushPending pending acc)

/-- Value of ASCII digits. -/
def digitsValue (ds : List Char) : Nat :=
  ds.foldl (fun acc c => acc * 10 + (c.toNat - '0'.toNat)) 0

/-- Reads a number (the sign already split off). -/
def readNumber (neg : Bool) (cs : Input) : Option (Value × Input) :=
  let intPart := cs.takeWhile Char.isDigit
  let rest := cs.dropWhile Char.isDigit
  let leadOk := match intPart with
    | [] => false
    | '0' :: _ :: _ => false
    | _ => true
  if !leadOk then none else
  let (fracPart, rest, hasFrac, fracOk) := match rest with
    | '.' :: r =>
      let f := r.takeWhile Char.isDigit
      (f, r.dropWhile Char.isDigit, true, !f.isEmpty)
    | r => ([], r, false, true)
  if !fracOk then none else
  let (expVal, rest, hasExp, expOk) := match rest with
    | e :: r =>
      if e == 'e' || e == 'E' then
        let (eneg, r) := match r with
          | '-' :: r' => (true, r')
          | '+' :: r' => (false, r')
          | r' => (false, r')
        let ds := r.takeWhile Char.isDigit
        let v : Int := digitsValue ds
        ((if eneg then -v else v), r.dropWhile Char.isDigit, true, !ds.isEmpty)
      else (0, rest, false, true)
    | [] => (0, [], false, true)
  if !expOk then none else
  if hasFrac || hasExp then
    let mant := digitsValue (intPart ++ fracPart)
    some (.float (Number.ofDecimal neg mant (expVal - fracPart.length)), rest)
  else
    let n : Int := digitsValue intPart
    some (.int (if neg then -n else n), rest)

/-- Literal words. -/
def readWord (cs : Input) : Option (Value × Input) :=
  match cs with
  | 'n' :: 'u' :: 'l' :: 'l' :: rest => some (.null, rest)
  | 't' :: 'r' :: 'u' :: 'e' :: rest => some (.bool true, rest)
  | 'f' :: 'a' :: 'l' :: 's' :: 'e' :: rest => some (.bool false, rest)
  | 'N' :: 'a' :: 'N' :: rest => some (.float (0.0 / 0.0), rest)
  | 'I' :: 'n' :: 'f' :: 'i' :: 'n' :: 'i' :: 't' :: 'y' :: rest =>
    some (.float (Number.infinity false), rest)
  | '-' :: 'I' :: 'n' :: 'f' :: 'i' :: 'n' :: 'i' :: 't' :: 'y' :: rest =>
    some (.float (Number.infinity true), rest)
  | '-' :: rest => readNumber true rest
  | _ => readNumber false cs

mutual
/-- Reads one value after blanks. -/
def readValue : Nat → Input → Option (Value × Input)
  | 0, _ => none
  | fuel + 1, cs =>
    match skipBlanks cs with
    | '\x7b' :: rest =>
      match skipBlanks rest with
      | '\x7d' :: rest' => some (.obj [], rest')
      | _ => readMembers fuel rest []
    | '[' :: rest =>
      match skipBlanks rest with
      | ']' :: rest' => some (.arr [], rest')
      | _ => readItems fuel rest []
    | '"' :: rest => (readStrBody rest none []).map fun (ps, r) => (Value.ofPoints ps, r)
    | cs' => readWord cs'
/-- Reads the items of an array after `[`; `acc` holds them last first. -/
def readItems : Nat → Input → List Value → Option (Value × Input)
  | 0, _, _ => none
  | fuel + 1, cs, acc =>
    match readValue fuel cs with
    | some (v, rest) =>
      match skipBlanks rest with
      | ',' :: rest' => readItems fuel rest' (v :: acc)
      | ']' :: rest' => some (.arr (v :: acc).reverse, rest')
      | _ => none
    | none => none
/-- Reads the members of an object after `{`. -/
def readMembers : Nat → Input → List (String × Value) → Option (Value × Input)
  | 0, _, _ => none
  | fuel + 1, cs, acc =>
    match skipBlanks cs with
    | '"' :: rest =>
      match readStrBody rest none [] with
      | some (key, rest) =>
        match skipBlanks rest with
        | ':' :: rest =>
          match readValue fuel rest with
          | some (v, rest) =>
            let acc := Value.setField acc (pointsString key) v
            match skipBlanks rest with
            | ',' :: rest' => readMembers fuel rest' acc
            | '\x7d' :: rest' => some (.obj acc, rest')
            | _ => none
          | none => none
        | _ => none
      | none => none
    | _ => none
end

/-- Reads a whole JSON text: one value with blanks around it. -/
def parse? (s : String) : Option Value :=
  let cs := s.toList
  match readValue (cs.length + 1) cs with
  | some (v, rest) => if (skipBlanks rest).isEmpty then some v else none
  | none => none

end RepairShop.Json
