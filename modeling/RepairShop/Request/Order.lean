import RepairShop.Request.Fragment

/-!
Whole order requests. A creation names the customer and the phone category and may name a
priority (Medium by default), an IMEI and a status; an update names any of the scalar fields.
Both may carry fragments, each present only when its key is sent (`none` = not sent; for a
place or a rental, `some none` = sent as `null`, which removes it). An empty body (`null`,
`false`, `0`, `""`, `[]`, `{}`) reads as `{}`; any other non-object is refused. Fields are
read in a fixed order, so the first offending one is reported.
-/

namespace RepairShop.Request

open Json

/-- Sub-entities an order request may carry. -/
structure Fragments where
  admins : Option (List Nat) := none
  initialProblems : Option (List ProblemLine) := none
  finalProblems : Option (List ProblemLine) := none
  comments : Option (List Value) := none
  pickup : Option (Option Place) := none
  delivery : Option (Option Place) := none
  rental : Option (Option RentalRequest) := none

/-- A request to create an order. -/
structure NewOrder where
  userId : Nat
  phoneCategoryId : Nat
  priority : Priority
  imei : Option Value
  statusId : Option Nat
  parts : Fragments

/-- A request to change an order. -/
structure OrderChange where
  userId : Option Nat := none
  statusId : Option Nat := none
  priority : Option Priority := none
  phoneCategoryId : Option Nat := none
  imei : Option (Option Value) := none
  parts : Fragments := {}

/-- A body as an object: empty values read as `{}`. -/
def bodyObject (v : Value) : Result Value :=
  if !v.truthy then pure (.obj []) else .obj <$> objectField v "body"

/-- Reads a fragment when its key is present. -/
def fragment {α : Type} (body : Value) (key : String) (read : Value → Result α) :
    Result (Option α) :=
  match body.get? key with
  | some v => some <$> read v
  | none => pure none

/-- The fragments of a body, in their fixed order; rentals only when `withRental`. -/
def fragmentsOf (body : Value) (withRental : Bool) : Result Fragments := do
  let admins ← fragment body "admin_ids" (adminIdsField · "admin_ids")
  let initialProblems ← fragment body "initial_problems" (problemsField · "initial_problems")
  let finalProblems ← fragment body "final_problems" (problemsField · "final_problems")
  let comments ← fragment body "comments" (commentsField · "comments")
  let pickup ← fragment body "pickup" (placeField · "pickup")
  let delivery ← fragment body "delivery" (placeField · "delivery")
  let rental ← if withRental then fragment body "rental_phone" (rentalField · "rental_phone")
    else pure none
  pure { admins, initialProblems, finalProblems, comments, pickup, delivery, rental }

/-- Reads a creation request. -/
def newOrder (raw : Value) : Result NewOrder := do
  let body ← bodyObject raw
  for key in ["user_id", "phone_category_id"] do
    if (body.field key).isNull then throw (badRequest s!"{key} required" (some key))
  let userId ← idField (body.field "user_id") "user_id"
  let phoneCategoryId ← idField (body.field "phone_category_id") "phone_category_id"
  let priority ← priorityField ((body.get? "priority").getD (.str "Medium"))
  let imei ← imeiField (body.field "imei")
  let statusId ← if (body.field "status_id").isNull then pure none
    else some <$> idField (body.field "status_id") "status_id"
  let parts ← fragmentsOf body false
  pure { userId, phoneCategoryId, priority, imei, statusId, parts }

/-- Reads a change request. -/
def orderChange (raw : Value) : Result OrderChange := do
  let body ← bodyObject raw
  let userId ← fragment body "user_id" (idField · "user_id")
  let statusId ← fragment body "status_id" (idField · "status_id")
  let phoneCategoryId ← fragment body "phone_category_id" (idField · "phone_category_id")
  let priority ← fragment body "priority" priorityField
  let imei ← fragment body "imei" imeiField
  let parts ← fragmentsOf body true
  pure { userId, statusId, priority, phoneCategoryId, imei, parts }

/-- The members of the fragments that were sent. -/
def Fragments.members (f : Fragments) : List (String × Value) :=
  let place := optValue Place.toValue
  (match f.admins with | some ids => [("admin_ids", .arr (ids.map fun (n : Nat) => .int (n : Int)))] | none => []) ++
  (match f.initialProblems with
   | some ps => [("initial_problems", .arr (ps.map ProblemLine.toValue))] | none => []) ++
  (match f.finalProblems with
   | some ps => [("final_problems", .arr (ps.map ProblemLine.toValue))] | none => []) ++
  (match f.comments with
   | some cs => [("comments", .arr (cs.map fun t => .obj [("text", t)]))] | none => []) ++
  (match f.pickup with | some p => [("pickup", place p)] | none => []) ++
  (match f.delivery with | some p => [("delivery", place p)] | none => []) ++
  (match f.rental with
   | some r => [("rental_phone", optValue RentalRequest.toValue r)] | none => [])

/-- Object form of a creation request. -/
def NewOrder.toValue (o : NewOrder) : Value :=
  .obj ([("user_id", .int o.userId), ("phone_category_id", .int o.phoneCategoryId),
         ("priority", .str o.priority.name), ("imei", o.imei.getD .null),
         ("status_id", optValue (fun (n : Nat) => .int (n : Int)) o.statusId)] ++ o.parts.members)

/-- Object form of a change request: only the fields that were sent. -/
def OrderChange.toValue (o : OrderChange) : Value :=
  .obj ((match o.userId with | some n => [("user_id", .int n)] | none => []) ++
        (match o.statusId with | some n => [("status_id", .int n)] | none => []) ++
        (match o.priority with | some p => [("priority", .str p.name)] | none => []) ++
        (match o.phoneCategoryId with | some n => [("phone_category_id", .int n)] | none => []) ++
        (match o.imei with | some i => [("imei", i.getD .null)] | none => []) ++
        o.parts.members)

end RepairShop.Request
