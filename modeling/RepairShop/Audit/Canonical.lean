import RepairShop.Error
import RepairShop.Number.Shortest
import RepairShop.Text.Numeral

/-!
The canonical form of audit values: the value written as JSON text with sorted keys and read
back, then without its `null` object members. An object member whose value is `null` carries
no information, so it is dropped, at every depth and inside lists too; a `null` list item stays.
Writing a value as JSON text writes each integer in decimal, which fails for an integer of more
than `Text.maxDigits` digits; every other value reads back as it was written (key order aside,
which no comparison sees). Two values differ for the audit trail when their canonical forms are
not `Value.same`.
-/

namespace RepairShop.Audit

open Json

mutual
/-- `v` without `null` object members, at every depth. -/
def dropNulls : Value → Value
  | .arr items => .arr (dropNullItems items)
  | .obj fields => .obj (dropNullFields fields)
  | v => v
/-- `dropNulls` of each item. -/
def dropNullItems : List Value → List Value
  | [] => []
  | v :: rest => dropNulls v :: dropNullItems rest
/-- Members with non-`null` values, each without its own `null` members. -/
def dropNullFields : List (String × Value) → List (String × Value)
  | [] => []
  | (k, v) :: rest =>
    match v with
    | .null => dropNullFields rest
    | _ => (k, dropNulls v) :: dropNullFields rest
end

mutual
/-- Every integer of `v`, at any depth, has at most `Text.maxDigits` decimal digits, so that
`v` can be written as JSON text. -/
def writable : Value → Bool
  | .int n => Number.digitCount n.natAbs ≤ Text.maxDigits
  | .arr items => writableItems items
  | .obj fields => writableFields fields
  | _ => true
/-- Every item is `writable`. -/
def writableItems : List Value → Bool
  | [] => true
  | v :: rest => writable v && writableItems rest
/-- Every member's value is `writable`. -/
def writableFields : List (String × Value) → Bool
  | [] => true
  | (_, v) :: rest => writable v && writableFields rest
end

/-- The refusal to write an integer of more than `Text.maxDigits` digits as text. -/
def longIntegerText : String :=
  "Exceeds the limit (" ++ toString Text.maxDigits ++
    " digits) for integer string conversion; use sys.set_int_max_str_digits() to increase the limit"

/-- The canonical form of a value; a value holding an integer too long to be written fails. -/
def canonical (v : Value) : Result Value :=
  if writable v then pure (dropNulls v) else throw (.fault (.oversizedInteger longIntegerText))

/-- Whether the audit trail sees a change from `old` to `new`. -/
def valuesDiffer (old new : Value) : Result Bool := do
  let o ← canonical old
  let n ← canonical new
  return !o.same n

end RepairShop.Audit
