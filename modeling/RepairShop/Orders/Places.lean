import RepairShop.Orders.Problems

/-!
Pickup and delivery places: at most one of each per order, replaced as a whole. Setting a
place marks the order's pickup (or delivery) as done by a courier, removing it marks it as
done by the customer. A named courier must be an open, active staff account. Writing the
place that is already stored changes nothing.
-/

namespace RepairShop.Orders

open Store Json Access Request

/-- Pickup or delivery. -/
inductive PlaceKind where
  | pickup
  | delivery

namespace PlaceKind

/-- The aspect of the place. -/
def aspect : PlaceKind → Aspect
  | .pickup => ⟨.pickupManage, "pickup"⟩
  | .delivery => ⟨.deliveryManage, "delivery"⟩

/-- The table of places of this kind. -/
def table : PlaceKind → TableId
  | .pickup => .pickups
  | .delivery => .deliveries

/-- The column of an order that says who does this leg. -/
def methodColumn : PlaceKind → String
  | .pickup => "pickup_method"
  | .delivery => "delivery_method"

/-- The leg's method when a courier does it. -/
def courierMethod : PlaceKind → String
  | .pickup => "Pickup"
  | .delivery => "Delivery"

end PlaceKind

/-- The leg's method when the customer does it. -/
def selfMethod : String := "Self"

/-- The stored place of an order, in compared form; `null` when there is none. -/
def currentPlace (kind : PlaceKind) (order : Int) : Txn Value := do
  let cell ← Txn.param (.int order)
  match (← Txn.query).rows kind.table |>.find? (·.is kind.table "repair_order_id" cell) with
  | none => pure .null
  | some r =>
    pure (.obj [("lat", ← Txn.read kind.table r "lat"), ("long", ← Txn.read kind.table r "long"),
      ("description", ← Txn.read kind.table r "description"),
      ("courier_id", ← Txn.read kind.table r "courier_id")])

/-- Makes the stored place the given one (`none` removes it); whether anything changed. -/
def applyPlace (kind : PlaceKind) (order : Int) (place : Option Place) (actor : Actor) :
    Txn Bool := do
  if let some p := place then
    if let some c := p.courierId then
      ensureActiveAdmins [c] (kind.aspect.location ++ ".courier_id")
  let old ← currentPlace kind order
  let new := optValue Place.toValue place
  if old.same new then return false
  let cell ← Txn.param (.int order)
  Txn.delete kind.table fun r => r.is kind.table "repair_order_id" cell
  if let some p := place then
    let _ ← Txn.insert kind.table [("repair_order_id", .int order), ("lat", .float p.lat),
      ("long", .float p.long), ("description", p.description),
      ("courier_id", optValue (fun c => .int c) p.courierId), ("created_by", actor.adminId)]
  let method := if place.isSome then kind.courierMethod else selfMethod
  Txn.update .orders order [(kind.methodColumn, .str method)]
  Txn.flush
  let _ ← logIfChanged order kind.aspect.location old new actor.adminId
  return true

end RepairShop.Orders
