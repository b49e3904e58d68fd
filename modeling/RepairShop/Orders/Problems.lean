import RepairShop.Catalog.Tree
import RepairShop.Json.Collection
import RepairShop.Orders.Aspect
import RepairShop.Request.Fragment

/-!
Problem lists of an order (the initial diagnosis and the final repair), each line with its
parts. A submitted list is checked before anything is written:

- no category twice, and no part twice inside one line;
- every category is open and active (its ancestors are followed as far as they are);
- every category is mapped to the order's phone category, or descends from one that is;
- every part is open and assigned to its line's category.

Storage is replace-all: the old lines and their parts are deleted and the new ones written in
the order submitted. Lists are compared in their snapshot form (lines by category, parts by
id), so resubmitting the same list in another order changes nothing.
-/

namespace RepairShop.Orders

open Store Json Access Request

/-- Which of the two problem lists. -/
inductive ProblemSide where
  | initial
  | final

namespace ProblemSide

/-- The aspect of the list. -/
def aspect : ProblemSide → Aspect
  | .initial => ⟨.changeInitialProblems, "initial_problems"⟩
  | .final => ⟨.changeFinalProblems, "final_problems"⟩

/-- The table of the list's lines. -/
def table : ProblemSide → TableId
  | .initial => .initialProblems
  | .final => .finalProblems

/-- The column of a part row that links it to a line of this list. -/
def link : ProblemSide → String
  | .initial => "repair_order_initial_problem_id"
  | .final => "repair_order_final_problem_id"

end ProblemSide

/-- Sorts items by a value key as a stable sort does; keys that cannot be compared fail. -/
def sortOn {α : Type} (key : α → Value) (xs : List α) : Result (List α) := do
  let _ ← sortValues (xs.map key)
  pure (xs.mergeSort fun a b => (key a).sortsBefore (key b))

/-- The compared form of a stored part. -/
def storedPart (p : Row) : Txn Value := do
  pure (.obj [("id", ← Txn.read .orderParts p "repair_part_id"),
    ("part_price", ← Txn.read .orderParts p "part_price"),
    ("quantity", ← Txn.read .orderParts p "quantity")])

/-- The snapshot of a stored list: lines by category, each with its parts by id. -/
def problemSnapshot (side : ProblemSide) (order : Int) : Txn Value := do
  let cell ← Txn.param (.int order)
  let rows := (← Txn.query).select side.table fun r => r.is side.table "repair_order_id" cell
  if rows.isEmpty then return .arr []
  let db ← Txn.query
  let parts := db.orderParts.filter fun p =>
    p.isAny .orderParts side.link (rows.map fun r => .int r.id)
  let linked ← parts.mapM fun p => do
    return (← Txn.read .orderParts p side.link, ← storedPart p)
  let lines ← rows.mapM fun r => do
    let mine := (linked.filter fun (l, _) => (Value.int r.id).sameMember l).map (·.2)
    let sortedParts ← Txn.lift (sortOn (·.field "id") mine)
    pure (Value.obj [("problem_category_id", ← Txn.read side.table r "problem_category_id"),
      ("price", ← Txn.read side.table r "price"),
      ("estimated_minutes", ← Txn.read side.table r "estimated_minutes"),
      ("parts", .arr sortedParts)])
  return .arr (← Txn.lift (sortOn (·.field "problem_category_id") lines))

/-- The ids that occur more than once, sorted. -/
def repeated (xs : List Nat) : List Nat :=
  sortedNats (xs.filter fun x => xs.count x > 1)

/-- Sets the parent of a category in a map kept as a list: in place, or at the end. -/
def putParentLink (known : Catalog.ParentMap Value) (c : Value) (p : Option Value) :
    Catalog.ParentMap Value :=
  if known.any (·.1.sameMember c) then known.map fun e => if e.1.sameMember c then (c, p) else e
  else known ++ [(c, p)]

/-- One round of the ancestor walk: adds the parent links of the frontier's open, active
categories and gives the parents not yet known. -/
def parentRound (frontier : List Value) (known : Catalog.ParentMap Value) :
    Txn (Catalog.ParentMap Value × List Value) := do
  let cells ← Txn.params frontier
  let db ← Txn.query
  let found := db.problems.filter fun c =>
    c.isAny .problems "id" cells && c.isOpen .problems && c.holds "is_active"
  let links ← found.mapM fun c => do
    let parent ← Txn.read .problems c "parent_id"
    pure (Value.int c.id, if parent.isNull then none else some parent)
  let known' := links.foldl (fun acc (c, p) => putParentLink acc c p) known
  let next := links.foldl (fun acc (_, p) =>
    match p with
    | some q =>
      if (@Catalog.parentOf? Value Value.keyEq known' q).isNone && !q.memSame acc then acc ++ [q]
      else acc
    | none => acc) []
  pure (known', next)

/-- Parent links of the given categories and of all their ancestors, as far as they are open
and active. Every round but the last adds a category, so the number of categories bounds the
rounds. -/
def parentLinks : Nat → List Value → Catalog.ParentMap Value → Txn (Catalog.ParentMap Value)
  | 0, _, known => pure known
  | fuel + 1, frontier, known => do
    if frontier.isEmpty then return known
    let (known', next) ← parentRound frontier known
    parentLinks fuel next known'

/-- The categories mapped to a phone category. -/
def mappedCategories (phoneCategory : Value) : Txn (List Value) := do
  let cell ← Txn.param phoneCategory
  let rows := (← Txn.query).mappings.filter fun m => m.is .mappings "phone_category_id" cell
  rows.mapM fun m => Txn.read .mappings m "problem_category_id"

/-- The pairs of part and category that the catalogue allows among the submitted ones. -/
def allowedParts (lines : List ProblemLine) : Txn (List (Value × Value)) := do
  let partIds := Access.firstOccurrences (lines.flatMap fun l => l.parts.map (·.partId))
  if partIds.isEmpty then return []
  let partCells ← Txn.params (partIds.map fun i => .int i)
  let catCells ← Txn.params (lines.map fun l => .int l.categoryId)
  let db ← Txn.query
  let rows := db.partAssignments.filter fun a =>
    a.isAny .partAssignments "repair_part_id" partCells &&
    a.isAny .partAssignments "problem_category_id" catCells &&
    db.parts.any fun p => (p.get "id").sqlEq (a.get "repair_part_id") && p.isOpen .parts
  rows.mapM fun a => do
    return (← Txn.read .partAssignments a "repair_part_id",
      ← Txn.read .partAssignments a "problem_category_id")

/-- Checks a submitted list against the catalogue and the order's phone category. -/
def validateProblems (side : ProblemSide) (phoneCategory : Value) (lines : List ProblemLine) :
    Txn Unit := do
  if lines.isEmpty then return
  let loc := side.aspect.location
  let ids := lines.map (·.categoryId)
  let dups := repeated ids
  if !dups.isEmpty then
    throw (badRequest "Duplicate problem categories" (some loc) [("duplicate_ids", idsValue dups)])
  let asValues := ids.map fun i => Value.int (Int.ofNat i)
  let db ← Txn.query
  let parents ← parentLinks (db.problems.length + 1) (distinctValues asValues) []
  let inactive := @Catalog.findInactive Value Value.keyEq asValues parents
  if !inactive.isEmpty then
    throw (badRequest "Problem categories not found or inactive" (some loc)
      [("invalid_problem_ids", .arr inactive)])
  let mapped ← mappedCategories phoneCategory
  let unreachable := @Catalog.findUnreachable Value Value.keyEq asValues mapped parents
  if !unreachable.isEmpty then
    throw (badRequest "Problem categories not allowed for this phone category" (some loc)
      [("invalid_problem_ids", .arr unreachable)])
  for (i, line) in indexed lines do
    let dupParts := repeated (line.parts.map (·.partId))
    if !dupParts.isEmpty then
      throw (badRequest "Duplicate parts in one problem"
        (some (loc ++ "[" ++ toString i ++ "].parts")) [("duplicate_ids", idsValue dupParts)])
  let allowed ← allowedParts lines
  for (i, line) in indexed lines do
    let invalid := (line.parts.filter fun p =>
      !allowed.any fun (a, c) =>
        a.sameMember (.int p.partId) && c.sameMember (.int line.categoryId)).map
        (·.partId)
    if !invalid.isEmpty then
      throw (badRequest "Parts not assigned to this problem category"
        (some (loc ++ "[" ++ toString i ++ "].parts")) [("invalid_part_ids", idsValue invalid)])

/-- Deletes the stored list and writes the submitted one in the order given. -/
def replaceProblems (side : ProblemSide) (order : Int) (lines : List ProblemLine) (actor : Actor) :
    Txn Unit := do
  let cell ← Txn.param (.int order)
  let oldIds := ((← Txn.query).select side.table fun r => r.is side.table "repair_order_id" cell).map
    (·.id)
  if !oldIds.isEmpty then
    Txn.delete .orderParts fun p => p.isAny .orderParts side.link (oldIds.map .int)
    Txn.delete side.table fun r => oldIds.contains r.id
  for line in lines do
    let rowId ← Txn.insert side.table [("repair_order_id", .int order),
      ("problem_category_id", .int line.categoryId), ("price", .float line.price),
      ("estimated_minutes", .int line.minutes), ("created_by", actor.adminId)]
    Txn.flush
    for p in line.parts do
      let _ ← Txn.insert .orderParts [("repair_order_id", .int order),
        ("repair_part_id", .int p.partId), ("quantity", .int p.quantity),
        ("part_price", .float p.price), ("created_by", actor.adminId), (side.link, .int rowId)]
  Txn.flush

/-- Makes the stored list the submitted one; whether anything changed. -/
def applyProblems (side : ProblemSide) (order : Int) (phoneCategory : Value)
    (lines : List ProblemLine) (actor : Actor) : Txn Bool := do
  validateProblems side phoneCategory lines
  let old ← problemSnapshot side order
  let new := Value.arr ((sortBy (·.categoryId) lines).map ProblemLine.snapshot)
  if old.same new then return false
  replaceProblems side order lines actor
  let _ ← logIfChanged order side.aspect.location old new actor.adminId
  return true

end RepairShop.Orders
