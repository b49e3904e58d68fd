import RepairShop.Access.Assign
import RepairShop.Json.Collection

/-!
The allowed moves of statuses, and configuring them. The outgoing moves of a status are replaced as a
whole: the old ones are deleted and the new ones written in the order given, repeats
dropped. Targets must be open statuses of the source's branch, and no status moves to
itself. Listing gives the moves of an open status by target.
-/

namespace RepairShop.Status

open Store Json

/-! ## Allowed changes

A branch configures its transitions as pairs `(from, to)`; a change
from `current` to `target` is allowed exactly when that pair is configured. A refused change
names both ends and the field it was asked through.
-/

/-- The pair `(current, target)` is configured. -/
def canMove {α : Type} [BEq α] (edges : List (α × α)) (current target : α) : Bool :=
  edges.any fun (a, b) => a == current && b == target

/-- The refusal of a change that is not configured, asked through the field `field`. -/
def transitionRefused (field current target : Value) : Failure :=
  let message := "Invalid " ++ field.display ++ " transition " ++ current.display ++ " -> " ++
    target.display
  .domain
    { kind := .badRequest, message, location := field,
      details := [("from_status_id", current), ("to_status_id", target)] }

/-! ## Configuring moves -/

/-- The open status a configuration is about. -/
def source (id : Value) : Txn Row := do
  let cell ← Txn.param id
  match (← Txn.query).statuses.find? (fun s => s.is .statuses "id" cell && s.isOpen .statuses) with
  | some s => pure s
  | none => throw (notFound "Status not found" (some "status_id"))

/-- The answer form of a stored move. -/
def transitionValue (id : Int) : Txn Value := do
  match (← Txn.query).row? .transitions id with
  | none => pure .null
  | some t =>
    pure (.obj [("branch_id", ← Txn.read .transitions t "branch_id"),
      ("from_status_id", ← Txn.read .transitions t "from_status_id"),
      ("to_status_id", ← Txn.read .transitions t "to_status_id")])

/-- The keys of the moves out of an open status, by target. -/
def listMoves (fromId : Value) : Txn (List Int) := do
  let _ ← source fromId
  let cell ← Txn.param fromId
  let mine := (← Txn.query).transitions.filter fun t => t.is .transitions "from_status_id" cell
  let ordered := mine.mergeSort fun a b =>
    (a.get "to_status_id").compare (b.get "to_status_id") != .gt
  return ordered.map (·.id)

/-- Replaces the moves out of a status; the new moves in answer form, which name the source as
the request gave it. -/
def replaceMoves (fromId : Value) (targets : List Int) : Txn (List Value) := do
  let targets := Access.firstOccurrences targets
  if fromId.memSame (targets.map .int) then
    throw (badRequest "A status cannot transition to itself" (some "to_status_ids")
      [("invalid_ids", .arr [fromId])])
  Txn.atomically do
    let src ← source fromId
    let branch ← Txn.read .statuses src "branch_id"
    let valid ← if targets.isEmpty then pure [] else do
      let cells ← Txn.params (targets.map .int)
      let branchCell ← Txn.param branch
      pure ((← Txn.query).statuses.filter fun s =>
        s.isAny .statuses "id" cells && s.is .statuses "branch_id" branchCell && s.isOpen .statuses)
    let invalid := targets.filter fun t => !valid.any (·.id == t)
    if !invalid.isEmpty then
      throw (badRequest "Some target statuses not found or not in the same branch"
        (some "to_status_ids") [("invalid_ids", .arr (invalid.map .int))])
    let cell ← Txn.param fromId
    Txn.delete .transitions fun t => t.is .transitions "from_status_id" cell
    let moves := targets.map fun t =>
      [("branch_id", branch), ("from_status_id", fromId), ("to_status_id", Value.int t)]
    for m in moves do
      let _ ← Txn.insert .transitions m
    pure (moves.map .obj)

/-- Refuses a move between two statuses that the branch does not configure. -/
def checkMove (branch current target : Value) : Txn Unit := do
  let cell ← Txn.param branch
  let rows := (← Txn.query).transitions.filter fun t => t.is .transitions "branch_id" cell
  let moves ← rows.mapM fun t => do
    return (← Txn.read .transitions t "from_status_id", ← Txn.read .transitions t "to_status_id")
  if !@canMove Value Value.keyEq moves current target then
    throw (transitionRefused (.str "status_id") current target)

end RepairShop.Status
