/-!
Lenient base64. Both alphabets are read (`+/` and the URL-safe `-_`), every other byte is
skipped, and decoding stops at the first run of `=` that completes a group: two pads after two
digits of a group, one pad after three. Pads that come too early in a group are skipped like
any other byte. Input ends well only on a group boundary or at such a run; a group left with
one, two or three digits and no closing pads is an error. Segments of compact signed tokens
carry no padding, so they are first padded with `=` to a multiple of four bytes.
-/

namespace RepairShop.Text

/-- The six-bit value of a base64 digit, from either alphabet. -/
def base64Digit? (b : UInt8) : Option Nat :=
  let n := b.toNat
  if 65 ≤ n && n ≤ 90 then some (n - 65)
  else if 97 ≤ n && n ≤ 122 then some (n - 71)
  else if 48 ≤ n && n ≤ 57 then some (n + 4)
  else if n == 43 || n == 45 then some 62
  else if n == 47 || n == 95 then some 63
  else none

/-- Decodes from a position in the current group of four (`quad`), the bits carried from the
previous digit (`carry`) and the pads seen since the last digit (`pads`); `out` holds the
bytes so far, last first. -/
def base64Run : List UInt8 → Nat → Nat → Nat → List UInt8 → Option (List UInt8)
  | [], quad, _, _, out => if quad == 0 then some out.reverse else none
  | b :: rest, quad, carry, pads, out =>
    if b.toNat == 61 then
      if 2 ≤ quad && 4 ≤ quad + (pads + 1) then some out.reverse
      else base64Run rest quad carry (if 2 ≤ quad then pads + 1 else pads) out
    else match base64Digit? b with
      | none => base64Run rest quad carry pads out
      | some v =>
        match quad with
        | 0 => base64Run rest 1 v 0 out
        | 1 => base64Run rest 2 (v % 16) 0 (UInt8.ofNat (carry * 4 + v / 16) :: out)
        | 2 => base64Run rest 3 (v % 4) 0 (UInt8.ofNat (carry * 16 + v / 4) :: out)
        | _ => base64Run rest 0 0 0 (UInt8.ofNat (carry * 64 + v) :: out)

/-- Lenient base64 decoding; `none` when the digits end inside a group. -/
def base64Decode (bytes : List UInt8) : Option (List UInt8) := base64Run bytes 0 0 0 []

/-- A segment of a compact token padded to a multiple of four and decoded. -/
def segmentDecode (bytes : List UInt8) : Option (List UInt8) :=
  let rem := bytes.length % 4
  base64Decode (if rem == 0 then bytes else bytes ++ List.replicate (4 - rem) 61)

end RepairShop.Text
