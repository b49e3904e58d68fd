/-!
The problem-category tree. Categories point to their parents; the map of parent links may
dangle (a parent outside the map ends the walk) and may loop. `ancestors c` walks from `c`
up while the current category is in the map, and reports the first category it reaches a
second time. A submitted category is unreachable when it is missing from the map, its walk
loops, or no category on its walk is mapped to the phone category. The walk visits a new key
of the map at every step, so it runs on fuel equal to the size of the map.

Categories are of any type with an equality (`BEq`): the service walks integer ids, while a
walk over loose values lets a boolean or a whole double find the integer key it equals.
-/

namespace RepairShop.Catalog

/-- Parent links: a category and its parent (`none` at a root). -/
abbrev ParentMap (α : Type) := List (α × Option α)

/-- Where a walk ended: the chain it took, or the category where it met itself. -/
inductive Walk (α : Type) where
  | chain (ids : List α)
  | cycle (at_ : α)
  deriving DecidableEq, Repr

section

variable {α : Type} [BEq α]

/-- The parent link of `c`, if `c` is in the map. -/
def parentOf? (parents : ParentMap α) (c : α) : Option (Option α) :=
  (parents.find? fun e => e.1 == c).map (·.2)

/-- Walks up from `current`, `seen` holding the chain so far (last first). -/
def walkUp (parents : ParentMap α) : Nat → Option α → List α → Walk α
  | _, none, seen => .chain seen.reverse
  | 0, some _, seen => .chain seen.reverse
  | fuel + 1, some c, seen =>
    match parentOf? parents c with
    | none => .chain seen.reverse
    | some parent =>
      if seen.contains c then .cycle c
      else walkUp parents fuel parent (c :: seen)

/-- The chain from `c` up to its root, or the cycle it runs into. -/
def ancestors (parents : ParentMap α) (c : α) : Walk α :=
  walkUp parents (parents.length + 1) (some c) []

/-- Submitted categories that cannot be reached from a mapped one, in order. -/
def findUnreachable (ids mapped : List α) (parents : ParentMap α) : List α :=
  ids.filter fun c =>
    match parentOf? parents c with
    | none => true
    | some _ =>
      match ancestors parents c with
      | .cycle _ => true
      | .chain chain => !chain.any mapped.contains

/-- Submitted categories missing from the map, in order. -/
def findInactive (ids : List α) (parents : ParentMap α) : List α :=
  ids.filter fun c => (parentOf? parents c).isNone

end

end RepairShop.Catalog
