import RepairShop.Orders.Problems
import RepairShop.Rental.Pricing

/-!
The phone lent to a customer while their own is in repair. An order has at most one active
rental. Handing one out takes an available device and makes it unavailable; cancelling
frees the device again and keeps the rental as cancelled. A change may not swap the device;
it keeps the stored free flag and price unless new ones are given (asking for a free rental
without a price drops the old price), and the pricing rule is checked again on the result.
-/

namespace RepairShop.Orders

open Store Json Access Request

/-- The rental aspect. -/
def rentalAspect : Aspect := ⟨.manageRentalPhone, "rental_phone"⟩

/-- Where device refusals point. -/
def deviceLocation : String := "rental_phone.rental_phone_device_id"

/-- The stored name of an active rental. -/
def activeState : String := "Active"

/-- The stored name of a cancelled rental. -/
def cancelledState : String := "Cancelled"

/-- The currency of a rental that names none. -/
def defaultCurrency : String := "UZS"

/-- A rental as a request works on it: its key and the values of its columns. -/
structure RentalView where
  id : Int
  device : Value
  isFree : Value
  price : Value
  currency : Value
  notes : Value
  status : Value

/-- The compared form of a rental. -/
def RentalView.snapshot (r : RentalView) : Value :=
  .obj [("rental_phone_device_id", r.device), ("is_free", r.isFree), ("price", r.price),
    ("currency", r.currency), ("notes", r.notes), ("status", r.status)]

/-- The answer form of a rental: its snapshot and its id. -/
def RentalView.answer (r : RentalView) : Value :=
  match r.snapshot with
  | .obj fields => .obj (fields ++ [("id", .int r.id)])
  | v => v

/-- A stored rental as the program reads it. -/
def rentalView (r : Row) : Txn RentalView := do
  let t := TableId.rentals
  pure { id := r.id, device := ← Txn.read t r "rental_phone_device_id",
         isFree := ← Txn.read t r "is_free", price := ← Txn.read t r "price",
         currency := ← Txn.read t r "currency", notes := ← Txn.read t r "notes",
         status := ← Txn.read t r "status" }

/-- The active rental of an order. -/
def activeRental (order : Int) : Txn (Option RentalView) := do
  let cell ← Txn.param (.int order)
  match (← Txn.query).rentals.find? (fun r =>
      r.is .rentals "repair_order_id" cell && r.is .rentals "status" (.text activeState)) with
  | some r => some <$> rentalView r
  | none => pure none

/-- Marks a device available or not. -/
def setAvailable (device : Int) (available : Bool) : Txn Unit :=
  Txn.update .devices device [("is_available", .bool available)]

/-- Hands out a device for the order; the rental as written. -/
def startRental (order : Int) (req : RentalRequest) (actor : Actor) : Txn RentalView := do
  let cell ← Txn.param (.int req.deviceId)
  let device ← match (← Txn.query).devices.find? (·.is .devices "id" cell) with
    | some d =>
      if (← Txn.read .devices d "is_available").truthy then pure d
      else throw (badRequest "Rental phone device not found or already in use" (some deviceLocation))
    | none => throw (badRequest "Rental phone device not found or already in use" (some deviceLocation))
  let isFree := optValue .bool req.isFree
  let price ← Txn.lift (Rental.checkPricing isFree (optValue .float req.price))
  let currency := Value.str ((req.currency.map (·.code)).getD defaultCurrency)
  let notes := req.notes.getD .null
  let id ← Txn.insert .rentals [("repair_order_id", .int order),
    ("rental_phone_device_id", .int device.id), ("is_free", isFree), ("price", price),
    ("currency", currency), ("status", .str activeState), ("notes", notes),
    ("created_by", actor.adminId)]
  setAvailable device.id false
  Txn.flush
  let row : RentalView :=
    { id, device := .int device.id, isFree, price, currency, notes, status := .str activeState }
  let _ ← logIfChanged order rentalAspect.location .null row.snapshot actor.adminId
  return row

/-- Changes the active rental; whether anything changed, and the rental as it now stands. -/
def changeRental (order : Int) (row : RentalView) (req : RentalRequest) (actor : Actor) :
    Txn (Bool × RentalView) := do
  if !(Value.int req.deviceId).same row.device then
    throw (badRequest
      "Rental phone device cannot be changed; cancel the rental and create a new one"
      (some deviceLocation))
  let isFree := match req.isFree with
    | some b => .bool b
    | none => row.isFree
  let price := match req.price with
    | some p => .float p
    | none => if req.isFree == some true then .null else row.price
  let price' ← Txn.lift (Rental.checkPricing isFree price)
  let currency := match req.currency with
    | some c => .str c.code
    | none => row.currency
  let notes := match req.notes with
    | some n => n
    | none => row.notes
  let row' := { row with isFree, price := price', currency, notes }
  let old := row.snapshot
  let new := row'.snapshot
  if old.same new then return (false, row')
  Txn.update .rentals row.id [("is_free", isFree), ("price", price'), ("currency", currency),
    ("notes", notes)]
  Txn.flush
  let _ ← logIfChanged order rentalAspect.location old new actor.adminId
  return (true, row')

/-- Cancels the active rental and frees its device; the rental as it now stands. -/
def endRental (order : Int) (row : RentalView) (actor : Actor) : Txn RentalView := do
  let row' := { row with status := .str cancelledState }
  Txn.update .rentals row.id [("status", .str cancelledState)]
  let cell ← Txn.param row.device
  if let some d := (← Txn.db).devices.find? (·.is .devices "id" cell) then
    setAvailable d.id true
  Txn.flush
  let _ ← logIfChanged order rentalAspect.location row.snapshot row'.snapshot actor.adminId
  return row'

/-- Makes the rental what the request asks: `none` cancels the active one, a request starts
one or changes the active one; whether anything changed. -/
def applyRental (order : Int) (req : Option RentalRequest) (actor : Actor) : Txn Bool := do
  let current ← activeRental order
  match req, current with
  | none, none => return false
  | none, some row => let _ ← endRental order row actor; return true
  | some r, none => let _ ← startRental order r actor; return true
  | some r, some row => return (← changeRental order row r actor).1

/-- Starts a rental; refused when one is active. -/
def createRental (order : Int) (branch status : Value) (req : RentalRequest) (actor : Actor) :
    Txn RentalView := do
  rentalAspect.authorize actor branch status
  if (← activeRental order).isSome then
    throw (conflict "Order already has an active rental phone" (some rentalAspect.location))
  startRental order req actor

/-- The active rental, or the refusal that there is none. -/
def requireRental (order : Int) : Txn RentalView := do
  match ← activeRental order with
  | some r => pure r
  | none => throw (notFound "No active rental phone for this order" (some rentalAspect.location))

/-- Changes the active rental; the rental as it now stands. -/
def updateRental (order : Int) (branch status : Value) (req : RentalRequest) (actor : Actor) :
    Txn RentalView := do
  rentalAspect.authorize actor branch status
  let row ← requireRental order
  return (← changeRental order row req actor).2

/-- Cancels the active rental; the rental as it now stands. -/
def cancelRental (order : Int) (branch status : Value) (actor : Actor) : Txn RentalView := do
  rentalAspect.authorize actor branch status
  let row ← requireRental order
  endRental order row actor

end RepairShop.Orders
