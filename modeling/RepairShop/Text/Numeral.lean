import RepairShop.Text.Blank

/-!
Decimal digits and integer numerals. A numeral is an optional sign followed by decimal digits
of any script, with single underscores allowed between two digits, and blanks
(`isNumeralBlank`) around it.

The reader first makes the text ASCII: a non-ASCII blank becomes a space, a non-ASCII digit
its ASCII digit, and the text ends at any other non-ASCII character. After the blanks and the
sign it scans the run of digits and underscores; two underscores in a row, or one at either
end of the run, refuse the text. The digits of the run are counted before anything after the
run is looked at, so a run of more than `maxDigits` digits is refused as too long even when
the text would not be a numeral anyway (`'1…1x'`).
-/

namespace RepairShop.Text

/-! ## Decimal digits

Decimal digits of every script, as of Unicode 14.0. Unicode lays out each block of decimal
digits (general category Nd) as ten consecutive code points with values 0 to 9, so the table
below holds only the first code point of each block.
-/

/-- First code point of each block of ten decimal digits. -/
def digitBlocks : List Nat :=
  [0x30, 0x660, 0x6F0, 0x7C0, 0x966, 0x9E6, 0xA66, 0xAE6, 0xB66, 0xBE6, 0xC66, 0xCE6,
   0xD66, 0xDE6, 0xE50, 0xED0, 0xF20, 0x1040, 0x1090, 0x17E0, 0x1810, 0x1946, 0x19D0,
   0x1A80, 0x1A90, 0x1B50, 0x1BB0, 0x1C40, 0x1C50, 0xA620, 0xA8D0, 0xA900, 0xA9D0, 0xA9F0,
   0xAA50, 0xABF0, 0xFF10, 0x104A0, 0x10D30, 0x11066, 0x110F0, 0x11136, 0x111D0, 0x112F0,
   0x11450, 0x114D0, 0x11650, 0x116C0, 0x11730, 0x118E0, 0x11950, 0x11C50, 0x11D50,
   0x11DA0, 0x16A60, 0x16AC0, 0x16B50, 0x1D7CE, 0x1D7D8, 0x1D7E2, 0x1D7EC,
   0x1D7F6, 0x1E140, 0x1E2F0, 0x1E950, 0x1FBF0]

/-- The value of a decimal digit of any script. -/
def digitValue? (c : Char) : Option Nat :=
  match digitBlocks.find? (fun b => b ≤ c.toNat && c.toNat < b + 10) with
  | some b => some (c.toNat - b)
  | none => none

theorem digitValue?_ascii (c : Char) (h : c.isDigit = true) : digitValue? c = some (c.toNat - 48) := by
  simp only [Char.isDigit, Bool.and_eq_true, decide_eq_true_eq] at h
  have h1 : (48 : Nat) ≤ c.toNat := h.1
  have h2 : c.toNat ≤ 57 := h.2
  simp [digitValue?, digitBlocks, show (48 : Nat) ≤ c.toNat from h1,
    show c.toNat < 48 + 10 by omega]

/-! ## Numerals -/

/-- Longest numeral that is read. -/
def maxDigits : Nat := 4300

/-- The text in ASCII as the reader sees it: a non-ASCII blank is a space, a non-ASCII digit
its ASCII digit, and any other non-ASCII character becomes `?` and ends the text. -/
def asciiNumeral : List Char → List Char
  | [] => []
  | c :: rest =>
    if c.toNat < 128 then c :: asciiNumeral rest
    else if isBlank c then ' ' :: asciiNumeral rest
    else match digitValue? c with
      | some d => Char.ofNat (48 + d) :: asciiNumeral rest
      | none => ['?']

/-- Scans a run of ASCII digits and underscores after the character `prev`: the value, the
number of digits and what follows the run; `none` when two underscores meet or the run ends
in one. -/
def scanRun : List Char → Nat → Nat → Char → Option (Nat × Nat × List Char)
  | [], acc, count, prev => if prev == '_' then none else some (acc, count, [])
  | c :: rest, acc, count, prev =>
    if c.isDigit then scanRun rest (acc * 10 + (c.toNat - 48)) (count + 1) c
    else if c == '_' then (if prev == '_' then none else scanRun rest acc count c)
    else if prev == '_' then none
    else some (acc, count, c :: rest)

/-- Splits an optional leading sign off a numeral. -/
def splitSign : List Char → Bool × List Char
  | '-' :: rest => (true, rest)
  | '+' :: rest => (false, rest)
  | cs => (false, cs)

/-- The refusal of a numeral with more than `maxDigits` digits, saying how many it has. -/
def tooManyDigitsText (count : Nat) : String :=
  "Exceeds the limit (" ++ toString maxDigits ++
    " digits) for integer string conversion: value has " ++ toString count ++
    " digits; use sys.set_int_max_str_digits() to increase the limit"

/-- The integer a numeral denotes. A text that is not a numeral is refused with `none`; a
run of more than `maxDigits` digits with the number of its digits. -/
def readNumeral (s : String) : Except (Option Nat) Int :=
  let (neg, body) := splitSign ((asciiNumeral s.toList).dropWhile isAsciiBlank)
  if body.head? == some '_' then .error none else
  match scanRun body 0 0 ' ' with
  | none => .error none
  | some (n, count, rest) =>
    if maxDigits < count then .error (some count)
    else if count == 0 || !rest.all isAsciiBlank then .error none
    else .ok (if neg then -(n : Int) else n)

/-- The integer a numeral denotes, or `none` if the text is not a numeral or is too long. -/
def readInt? (s : String) : Option Int :=
  (readNumeral s).toOption

end RepairShop.Text
