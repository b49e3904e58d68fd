import RepairShop.Error
import RepairShop.Text.Blank

/-!
Sort keys of the board. `sort_by` is a comma separated list of keys, each trimmed of blanks
and possibly prefixed by `-`, which flips the default direction given by `sort_order`
(`asc` or `desc`) for that key alone. Empty pieces are skipped, the first occurrence of a
key wins, and an unknown key is refused by name. The board orders by the keys in turn and
then by id.
-/

namespace RepairShop.Board

open Json

/-- The default directions. -/
def directions : List String := ["asc", "desc"]

/-- One sort key: its name and whether it runs downward. -/
structure SortSpec where
  key : String
  desc : Bool

/-- Sorted insertion of a text (by code point). -/
def insertText (s : String) : List String → List String
  | [] => [s]
  | t :: ts => if s < t then s :: t :: ts else t :: insertText s ts

/-- Texts sorted by code point. -/
def sortTexts (xs : List String) : List String :=
  xs.foldl (fun acc s => insertText s acc) []

/-- Reads the pieces of `sort_by` after the direction is known. -/
def readKeys (allowed : List String) (defaultDesc : Bool) :
    List String → List String → List SortSpec → Result (List SortSpec)
  | [], _, acc => pure acc.reverse
  | piece :: rest, seen, acc =>
    let token := Text.trim piece
    if token.isEmpty then readKeys allowed defaultDesc rest seen acc
    else
      let flip := token.startsWith "-"
      let key := if flip then String.ofList (token.toList.drop 1) else token
      if !allowed.contains key then
        throw (badRequest s!"Invalid sort field {key}" (some "sort_by")
          [("allowed", .arr ((sortTexts allowed).map .str))])
      else if seen.contains key then readKeys allowed defaultDesc rest seen acc
      else readKeys allowed defaultDesc rest (key :: seen) (⟨key, defaultDesc != flip⟩ :: acc)

/-- The sort keys of `sort_by` under the default direction `sortOrder`. An empty `sort_by`
(missing, `null`, `""`, `0`, `false`, `[]`, `{}`) names no key; any other value that is not
text cannot be split into keys. -/
def parseSort (allowed : List String) (sortBy : Value) (sortOrder : Value) :
    Result (List SortSpec) :=
  match sortOrder with
  | .str order =>
    if directions.contains order then
      match sortBy with
      | .str text => readKeys allowed (order == "desc") (text.splitOn ",") [] []
      | v => if v.truthy then throw (.fault (.noAttribute v "split")) else pure []
    else refuse
  | _ => refuse
where
  refuse : Result (List SortSpec) :=
    throw (badRequest "sort_order invalid" (some "sort_order") [("allowed", .arr (directions.map .str))])

/-- Keys the board can be sorted by. -/
def boardKeys : List String := ["sort", "priority_level", "created_at", "updated_at"]

end RepairShop.Board
