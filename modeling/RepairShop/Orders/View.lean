import RepairShop.Orders.Service

/-!
Reading one order. The detail of an order is its answer form with every aspect: assigned
staff (sorted), both problem lists in snapshot form, its open comments by id, its places and
its active rental. Reading it needs `can_view` at its current status; its trail needs
`can_view_history` and lists every recorded change in the order it was written.
-/

namespace RepairShop.Orders

open Store Json Access Request

/-- The detail of an order. -/
def orderDetail (actor : Actor) (order : Value) : Txn Value := do
  let o ← loadOrder actor order
  let (branch, status) ← scope o
  Access.authorize actor.roleIds branch status Capability.view.name none
  let rental ← activeRental o.id
  let orderCell ← Txn.param (.int o.id)
  let comments := (← Txn.query).comments.filter fun c =>
    c.is .comments "repair_order_id" orderCell && c.isOpen .comments
  let base ← orderValue o.id
  let staff ← assignedStaff o.id
  let initial ← problemSnapshot .initial o.id
  let final ← problemSnapshot .final o.id
  let commentValues ← comments.mapM fun c => commentValue c.id
  let pickup ← currentPlace .pickup o.id
  let delivery ← currentPlace .delivery o.id
  let rentalAnswer := match rental with
    | some r => r.answer
    | none => .null
  match base with
  | .obj fields => pure (.obj (fields ++
      [("admin_ids", .arr staff), ("initial_problems", initial), ("final_problems", final),
       ("comments", .arr commentValues), ("pickup", pickup), ("delivery", delivery),
       ("rental_phone", rentalAnswer)]))
  | v => pure v

/-- The answer form of a trail entry. -/
def changeValue (c : Row) : Txn Value := do
  pure (.obj [("id", .int c.id), ("field", ← Txn.read .history c "field"),
    ("old_value", ← Txn.read .history c "old_value"),
    ("new_value", ← Txn.read .history c "new_value"),
    ("created_by", ← Txn.read .history c "created_by")])

/-- The trail of an order, in the order it was written. -/
def orderTrail (actor : Actor) (order : Value) : Txn (List Value) := do
  let o ← loadOrder actor order
  let (branch, status) ← scope o
  Access.authorize actor.roleIds branch status Capability.viewHistory.name none
  let cell ← Txn.param (.int o.id)
  let rows := (← Txn.query).history.filter fun h => h.is .history "repair_order_id" cell
  rows.mapM changeValue

end RepairShop.Orders
