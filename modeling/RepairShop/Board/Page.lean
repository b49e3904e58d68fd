import RepairShop.Request.Field

/-!
Pages of the order board. A page number and a limit arrive as raw values (query text or
JSON); a missing or empty one takes its default (page 1, limit 20), a number or numeral is
cut to an integer, and out-of-range values are clamped: `page ≥ 1`, `1 ≤ limit ≤ 200`.
Anything else is refused as not an integer. A window shows the rows from
`(page - 1) · limit` on, at most `limit` of them.
-/

namespace RepairShop.Board

open Json

/-- Default rows per page. -/
def defaultLimit : Nat := 20

/-- Largest number of rows per page. -/
def maxLimit : Nat := 200

/-- A page of the board. -/
structure Window where
  page : Nat
  limit : Nat

namespace Window

/-- Rows before the page. -/
def offset (w : Window) : Nat := (w.page - 1) * w.limit

/-- The rows on the page. -/
def slice {α : Type} (w : Window) (rows : List α) : List α :=
  (rows.drop w.offset).take w.limit

end Window

/-- The integer of a raw page value: booleans count as `0` and `1`, doubles are cut toward
zero, numerals are read; missing and empty values give `default`. -/
def rawInt (raw : Value) (name : String) (default : Int) : Result Int := do
  let refuse : Failure := badRequest s!"{name} must be an integer" (some name)
  match raw with
  | .null => pure default
  | .str "" => pure default
  | .bool b => pure (if b then 1 else 0)
  | .int n => pure n
  | .float x =>
    match Number.shape x with
    | .infinite _ => throw (.fault .infiniteToInteger)
    | .nan => throw refuse
    | .finite .. => match Number.truncate? x with
      | some n => pure n
      | none => throw refuse
  | .str s => match Text.readInt? s with
    | some n => pure n
    | none => throw refuse
  | _ => throw refuse

/-- The window of raw page and limit values. -/
def Window.ofRaw (page limit : Value) : Result Window := do
  let p ← rawInt page "page" 1
  let l ← rawInt limit "limit" defaultLimit
  pure { page := (max 1 p).toNat, limit := (max 1 (min l maxLimit)).toNat }

end RepairShop.Board
