/-!
Blank characters. `isBlank` is the Unicode whitespace class: the characters of bidirectional
class WS, B or S and of general category Zs. `trim` removes blanks at both ends of a text,
which is how request fields are cleaned before their length is checked. Integer numerals
use a narrower class at their ends (`isNumeralBlank`): the six ASCII blanks of the C locale
and every non-ASCII blank, but not the ASCII separators `\x1c` to `\x1f`.
-/

namespace RepairShop.Text

/-- Non-ASCII Unicode whitespace code points. -/
def wideBlanks : List Nat :=
  [0x85, 0xA0, 0x1680, 0x2000, 0x2001, 0x2002, 0x2003, 0x2004, 0x2005, 0x2006, 0x2007,
   0x2008, 0x2009, 0x200A, 0x2028, 0x2029, 0x202F, 0x205F, 0x3000]

/-- The six ASCII blanks of the C locale: tab, line feed, vertical tab, form feed, carriage
return and space. -/
def isAsciiBlank (c : Char) : Bool :=
  c.toNat == 0x20 || (0x09 ≤ c.toNat && c.toNat ≤ 0x0D)

/-- Unicode whitespace. -/
def isBlank (c : Char) : Bool :=
  isAsciiBlank c || (0x1C ≤ c.toNat && c.toNat ≤ 0x1F) || wideBlanks.contains c.toNat

/-- Blanks allowed around an integer numeral. -/
def isNumeralBlank (c : Char) : Bool :=
  isAsciiBlank c || wideBlanks.contains c.toNat

/-- `cs` without leading characters satisfying `p`. -/
def dropLeading (p : Char → Bool) (cs : List Char) : List Char :=
  cs.dropWhile p

/-- `cs` without leading and trailing characters satisfying `p`. -/
def trimBy (p : Char → Bool) (cs : List Char) : List Char :=
  ((cs.dropWhile p).reverse.dropWhile p).reverse

/-- A text without blanks at either end. -/
def trim (s : String) : String :=
  String.ofList (trimBy isBlank s.toList)

theorem isAsciiBlank_isBlank (c : Char) (h : isAsciiBlank c = true) : isBlank c = true := by
  simp [isBlank, h]

end RepairShop.Text
