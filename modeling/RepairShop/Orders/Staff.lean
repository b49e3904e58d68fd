import RepairShop.Orders.Aspect

/-!
Staff assigned to an order. Replacing the set touches only the difference: links to drop
are deleted, new ones added, and the trail records the sorted sets before and after. Adding
or removing a list changes only the ids not yet (or still) assigned; an empty difference
changes nothing and is reported as no change.
-/

namespace RepairShop.Orders

open Store Json Access

/-- The staff aspect. -/
def staffAspect : Aspect := ⟨.assignAdmin, "admin_ids"⟩

/-- The staff assigned to an order, sorted. -/
def assignedStaff (order : Int) : Txn (List Value) := do
  let cell ← Txn.param (.int order)
  let links := (← Txn.query).assignments.filter fun a => a.is .assignments "repair_order_id" cell
  let ids ← links.mapM fun a => Txn.read .assignments a "admin_id"
  Txn.lift (sortValues ids)

/-- Deletes and adds assignment links, then flushes. -/
def writeStaff (order : Int) (toAdd toRemove : List Value) : Txn Unit := do
  if !toRemove.isEmpty then
    let cell ← Txn.param (.int order)
    let gone ← Txn.params toRemove
    Txn.delete .assignments fun a =>
      a.is .assignments "repair_order_id" cell && a.isAny .assignments "admin_id" gone
  for admin in toAdd do
    let _ ← Txn.insert .assignments [("repair_order_id", .int order), ("admin_id", admin)]
  Txn.flush

/-- Ids as values, sorted without repeats. -/
def idSet (ids : List Nat) : List Value :=
  (sortedNats ids).map fun i => .int (Int.ofNat i)

/-- Makes the assigned set exactly the given ids; whether anything changed. -/
def replaceStaff (order : Int) (ids : List Nat) (actor : Actor) : Txn Bool := do
  let newIds := idSet ids
  ensureActiveAdmins (sortedNats ids) staffAspect.location
  let oldIds ← assignedStaff order
  let toAdd := newIds.filter (fun a => !a.memSame oldIds)
  let toRemove := oldIds.filter (fun a => !a.memSame newIds)
  if toAdd.isEmpty && toRemove.isEmpty then return false
  writeStaff order toAdd toRemove
  let _ ← logIfChanged order staffAspect.location (.arr oldIds) (.arr newIds) actor.adminId
  return true

/-- Assigns more staff; whether anything changed. -/
def addStaff (order : Int) (branch status : Value) (ids : List Nat) (actor : Actor) :
    Txn Bool := do
  staffAspect.authorize actor branch status
  ensureActiveAdmins ids staffAspect.location
  let oldIds ← assignedStaff order
  let toAdd := idSet (ids.filter fun a => !(Value.int a).memSame oldIds)
  if toAdd.isEmpty then return false
  writeStaff order toAdd []
  let union ← Txn.lift (sortValues (distinctValues (oldIds ++ toAdd)))
  let _ ← logIfChanged order staffAspect.location (.arr oldIds) (.arr union) actor.adminId
  return true

/-- Unassigns staff; whether anything changed. -/
def removeStaff (order : Int) (branch status : Value) (ids : List Nat) (actor : Actor) :
    Txn Bool := do
  staffAspect.authorize actor branch status
  let oldIds ← assignedStaff order
  let toRemove := idSet (ids.filter fun a => (Value.int a).memSame oldIds)
  if toRemove.isEmpty then return false
  writeStaff order [] toRemove
  let _ ← logIfChanged order staffAspect.location (.arr oldIds)
    (.arr (oldIds.filter fun a => !a.memSame toRemove)) actor.adminId
  return true

end RepairShop.Orders
