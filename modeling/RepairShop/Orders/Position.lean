import RepairShop.Store.Db

/-!
Board positions. The open orders of a branch form a bucket whose `sort` values are exactly
1..N. A new order goes to the end (the largest position plus one); moving an order from
position `c` to `t` shifts the orders in between by one toward `c`; removing the order at
`r` pulls every later order up by one. Orders outside the bucket are never touched.

Positions are stored values and are compared and shifted as the database does it: a shift
adds to the stored number (a text counts as the number it starts with) and the bounds of a
shift are compared in the database's order.
-/

namespace RepairShop.Orders

open Store

/-- The order is in the bucket of the branch. -/
def inBucket (branch : Cell) (o : Row) : Bool :=
  o.is .orders "branch_id" branch && o.isOpen .orders

/-- The position of an order after another order of its bucket moved from `current` to
`target`: the orders between shift by one toward `current`. -/
def shifted (current target sort : Cell) : Cell :=
  if target.compare current == .lt then
    if sort.compare target != .lt && sort.compare current == .lt && !sort.isNull then sort.plus 1
    else sort
  else
    if sort.compare current == .gt && sort.compare target != .gt && !sort.isNull then
      sort.plus (-1)
    else sort

/-- Stores a new position in an order. -/
def placeAt (o : Row) (sort : Cell) : Row :=
  o.put "sort" (sort.withAffinity .numeric)

/-- Moves an order of the bucket from `current` to `target`, shifting the orders between. -/
def reorder (orders : Table) (branch : Cell) (id : Int) (current target : Cell) : Table :=
  let moved := orders.map fun o =>
    if inBucket branch o then placeAt o (shifted current target (o.get "sort")) else o
  moved.map fun o => if o.id == id then placeAt o target else o

/-- Pulls the orders of the bucket after a removed position up by one. -/
def closeGap (orders : Table) (branch removed : Cell) : Table :=
  orders.map fun o =>
    let sort := o.get "sort"
    if inBucket branch o && sort.compare removed == .gt && !sort.isNull && !removed.isNull then
      placeAt o (sort.plus (-1))
    else o

/-- The number of orders in the bucket. -/
def bucketSize (orders : Table) (branch : Cell) : Nat :=
  (orders.filter (inBucket branch)).length

/-- The largest position in the bucket, in the database's order; nothing in an empty one. -/
def topSort (orders : Table) (branch : Cell) : Cell :=
  (orders.filter (inBucket branch)).foldl (fun m o =>
    let s := o.get "sort"
    if !s.isNull && (m.isNull || s.compare m == .gt) then s else m) .null

/-- Positions of orders outside the bucket do not change when one moves. -/
theorem reorder_outside (orders : Table) (branch : Cell) (id : Int) (current target : Cell)
    (o : Row) (hb : inBucket branch o = false) (hid : o.id ≠ id) (h : o ∈ orders) :
    o ∈ reorder orders branch id current target := by
  unfold reorder
  simp only [List.mem_map]
  refine ⟨o, ⟨o, h, by simp [hb]⟩, by simp [hid]⟩

end RepairShop.Orders
