import RepairShop.Orders.Comments
import RepairShop.Orders.Places
import RepairShop.Orders.Position
import RepairShop.Orders.Rental
import RepairShop.Orders.Staff
import RepairShop.Request.Order
import RepairShop.Status.Flow

/-!
Changing repair orders. Every change runs as one unit of work: it loads the open order,
checks that the actor works in its branch, authorizes each aspect it touches at the status
the order had when the request started, writes, and after the commit drops the cached board
pages of the branch. Any refusal undoes everything the request wrote, the trail included.

A new order goes to the end of its branch's bucket at the given status, or at the branch's
initial status (the lowest-sorted live status that does not end the workflow). A status
change needs a configured transition; a move inside the bucket shifts the orders between;
a deletion marks the order deleted and closes the gap it leaves.
-/

namespace RepairShop.Orders

open Store Json Access Request

/-- The answer form of a stored order. -/
def orderValue (id : Int) : Txn Value := do
  match (← Txn.query).row? .orders id with
  | none => pure .null
  | some o =>
    let cols := ["branch_id", "status_id", "user_id", "phone_category_id", "imei", "priority",
      "priority_level", "sort", "pickup_method", "delivery_method", "status", "created_by"]
    let fields ← cols.mapM fun c => do return (c, ← orderField o c)
    pure (.obj (("id", .int o.id) :: fields))

/-- The sweep that drops the cached board pages of a branch. -/
def boardSweep (branch : Value) : Sweep :=
  .drop ("repair_orders:" ++ branch.display ++ ":*")

/-- A column of the order as it now stands. -/
def currentField (id : Int) (column : String) : Txn Value := do
  match (← Txn.db).row? .orders id with
  | some o => orderField o column
  | none => pure .null

/-- Runs an action on an open order as a unit of work; the branch's board pages are dropped
after the commit. -/
def mutate {α : Type} (actor : Actor) (order : Value) (action : Row → Txn α) : Txn α :=
  Txn.atomically do
    let o ← loadOrder actor order
    let r ← action o
    Txn.afterCommit (boardSweep (← orderField o "branch_id"))
    pure r

/-- Refuses a status that is not an open, active status of the branch. -/
def statusInBranch (status branch : Value) : Txn Unit := do
  let cell ← Txn.param status
  let refused := badRequest "Status not found in this branch" (some "status_id")
    [("status_id", status)]
  match (← Txn.query).statuses.find? (·.is .statuses "id" cell) with
  | some s =>
    let owner ← Txn.read .statuses s "branch_id"
    let state ← Txn.read .statuses s "status"
    let active ← Txn.read .statuses s "is_active"
    if owner.same branch && state.same (.str openState) && active.truthy then return
    throw refused
  | none => throw refused

/-- The status is terminal: of the completed or cancelled kind. -/
def endsWorkflow (s : Row) : Bool :=
  s.is .statuses "type" (.text "Completed") || s.is .statuses "type" (.text "Cancelled")

/-- The first status of a branch: open, active, not ending the workflow, lowest by sort then
id. -/
def initialStatus (branch : Value) : Txn Value := do
  let cell ← Txn.param branch
  let candidates := (← Txn.query).statuses.filter fun s =>
    s.is .statuses "branch_id" cell && s.isOpen .statuses && s.holds "is_active" &&
      ((s.get "type").isNull || !endsWorkflow s)
  let ordered := candidates.mergeSort fun a b =>
    match (a.get "sort").compare (b.get "sort") with
    | .lt => true
    | .gt => false
    | .eq => a.id ≤ b.id
  match ordered with
  | s :: _ => pure (.int s.id)
  | [] => throw (badRequest "Branch has no initial status" (some "status_id"))

/-- Refuses a customer that is missing or deleted. -/
def checkCustomer (id : Value) : Txn Unit := do
  let cell ← Txn.param id
  unless (← Txn.query).customers.any (fun c => c.is .customers "id" cell && c.isOpen .customers) do
    throw (badRequest "User not found" (some "user_id"))

/-- Refuses a phone category that is missing, deleted or inactive. -/
def checkPhoneCategory (id : Value) : Txn Unit := do
  let cell ← Txn.param id
  unless (← Txn.query).phoneCategories.any (fun c =>
      c.is .phoneCategories "id" cell && c.isOpen .phoneCategories && c.holds "is_active") do
    throw (badRequest "Phone category not found or inactive" (some "phone_category_id"))

/-- Moves the order from `current` to a live status of its branch along a configured
transition. -/
def changeStatus (o : Row) (current target : Value) : Txn Unit := do
  let branch ← orderField o "branch_id"
  statusInBranch target branch
  Status.checkMove branch current target
  Txn.update .orders o.id [("status_id", target)]

/-- Applies the aspects present in a request, in a fixed order, authorized at `status`. -/
def runAspects (o : Row) (f : Fragments) (actor : Actor) (status : Value) : Txn Unit := do
  let branch ← orderField o "branch_id"
  f.admins.forM fun ids => do
    staffAspect.authorize actor branch status
    let _ ← replaceStaff o.id ids actor
  f.initialProblems.forM fun lines => do
    ProblemSide.initial.aspect.authorize actor branch status
    let _ ← applyProblems .initial o.id (← currentField o.id "phone_category_id") lines actor
  f.finalProblems.forM fun lines => do
    ProblemSide.final.aspect.authorize actor branch status
    let _ ← applyProblems .final o.id (← currentField o.id "phone_category_id") lines actor
  f.comments.forM fun texts => do
    commentsAspect.authorize actor branch status
    let _ ← appendComments o.id status texts actor
  f.pickup.forM fun place => do
    PlaceKind.pickup.aspect.authorize actor branch status
    let _ ← applyPlace .pickup o.id place actor
  f.delivery.forM fun place => do
    PlaceKind.delivery.aspect.authorize actor branch status
    let _ ← applyPlace .delivery o.id place actor
  f.rental.forM fun req => do
    rentalAspect.authorize actor branch status
    let _ ← applyRental o.id req actor

/-- The position a new order of the branch takes: one past the largest. -/
def nextSortValue (branch : Value) : Txn Value := do
  Txn.flush
  let cell ← Txn.param branch
  match (topSort (← Txn.query).orders cell).toValue with
  | .int n => pure (.int (n + 1))
  | .float x => pure (if x == 0.0 then .int 1 else .float (x + 1.0))
  | .str s => if s.isEmpty then pure (.int 1) else throw (.fault (.concatenation (.int 1)))
  | _ => pure (.int 1)

/-- Creates an order in a branch; the order as created. -/
def createOrder (actor : Actor) (branch : Int) (req : NewOrder) : Txn Value := do
  let branchValue := Value.int branch
  Txn.lift (assertBranchAccess actor branchValue)
  Txn.atomically do
    let cell ← Txn.param branchValue
    unless (← Txn.query).branches.any (fun b => b.is .branches "id" cell && b.isOpen .branches) do
      throw (notFound "Branch not found" (some "branch_id"))
    let status ← match req.statusId with
      | some s => pure (Value.int s)
      | none => initialStatus branchValue
    statusInBranch status branchValue
    Access.authorize actor.roleIds branchValue status Capability.add.name (some "status_id")
    checkCustomer (.int req.userId)
    checkPhoneCategory (.int req.phoneCategoryId)
    let sort ← nextSortValue branchValue
    let id ← Txn.insert .orders [("branch_id", branchValue), ("status_id", status),
      ("user_id", .int req.userId), ("phone_category_id", .int req.phoneCategoryId),
      ("imei", req.imei.getD .null), ("priority", .str req.priority.name),
      ("priority_level", .int req.priority.level), ("sort", sort),
      ("created_by", actor.adminId)]
    Txn.flush
    logEvent id "order_created"
      (.obj [("status_id", status), ("user_id", .int req.userId),
        ("phone_category_id", .int req.phoneCategoryId), ("priority", .str req.priority.name),
        ("sort", sort)]) actor.adminId
    match (← Txn.db).row? .orders id with
    | some o => runAspects o req.parts actor status
    | none => pure ()
    Txn.afterCommit (boardSweep branchValue)
    return asGiven (← orderValue id) [("sort", sort), ("created_by", actor.adminId)]

/-- A change of one scalar field of an order. -/
inductive Edit where
  | user (id : Nat)
  | status (id : Nat)
  | priority (p : Priority)
  | phoneCategory (id : Nat)
  | imei (v : Option Value)

namespace Edit

/-- The field the edit changes. -/
def field : Edit → String
  | .user _ => "user_id"
  | .status _ => "status_id"
  | .priority _ => "priority"
  | .phoneCategory _ => "phone_category_id"
  | .imei _ => "imei"

/-- The value the edit writes. -/
def newValue : Edit → Value
  | .user id => .int id
  | .status id => .int id
  | .priority p => .str p.name
  | .phoneCategory id => .int id
  | .imei v => v.getD .null

/-- Performs the edit on an order whose status is `current`, checking what it refers to. -/
def perform (o : Row) (current : Value) : Edit → Txn Unit
  | .status s => changeStatus o current (.int s)
  | .user u => do checkCustomer (.int u); Txn.update .orders o.id [("user_id", .int u)]
  | .phoneCategory c => do
    checkPhoneCategory (.int c)
    Txn.update .orders o.id [("phone_category_id", .int c)]
  | .priority p =>
    Txn.update .orders o.id [("priority", .str p.name), ("priority_level", .int p.level)]
  | .imei v => Txn.update .orders o.id [("imei", v.getD .null)]

end Edit

/-- The scalar edits a change asks for, in field order. -/
def editsOf (c : OrderChange) : List Edit :=
  (c.userId.map Edit.user).toList ++ (c.statusId.map Edit.status).toList ++
    (c.priority.map Edit.priority).toList ++ (c.phoneCategoryId.map Edit.phoneCategory).toList ++
    (c.imei.map Edit.imei).toList

/-- Updates an order: scalar fields that differ need `can_update`; aspects are authorized
at the status the request started from. The key of the order. -/
def updateOrder (actor : Actor) (order : Value) (req : OrderChange) : Txn Int :=
  mutate actor order fun o => do
    let start ← orderField o "status_id"
    let branch ← orderField o "branch_id"
    let changes ← (editsOf req).filterMapM fun e => do
      let old ← orderField o e.field
      let differ ← Txn.lift (Audit.valuesDiffer old e.newValue)
      pure (if differ then some (e, old) else none)
    if let (e, _) :: _ := changes then
      Access.authorize actor.roleIds branch start Capability.update.name (some e.field)
      for (c, _) in changes do c.perform o start
      Txn.flush
      for (c, old) in changes do
        let _ ← logIfChanged o.id c.field old c.newValue actor.adminId
    runAspects o req.parts actor start
    pure o.id

/-- Moves an order to another status and/or position; the key of the order. A status
change needs `can_change_status` and a configured transition; a move inside the bucket alone
needs `can_update`. -/
def moveOrder (actor : Actor) (order : Value) (target : Nat) (targetSort : Option Nat) : Txn Int :=
  mutate actor order fun o => do
    let old ← orderField o "status_id"
    let branch ← orderField o "branch_id"
    let changed := !(Value.int target).same old
    if changed then
      Access.authorize actor.roleIds branch old Capability.changeStatus.name (some "status_id")
      changeStatus o old (.int target)
      let _ ← logIfChanged o.id "status_id" old (.int target) actor.adminId
    let current ← orderField o "sort"
    if let some t := targetSort then
      if !(Value.int t).same current then
        if !changed then
          Access.authorize actor.roleIds branch old Capability.update.name (some "sort")
        let branchCell ← Txn.param branch
        let size := bucketSize (← Txn.query).orders branchCell
        if t < 1 || t > size then
          throw (badRequest ("sort must be between 1 and " ++ toString size) (some "sort"))
        Txn.flush
        let _ ← Txn.lift (Value.lessThan (.int t) current)
        let currentCell ← Txn.param current
        let targetCell ← Txn.param (.int t)
        Txn.execute fun db =>
          .ok (db.withRows .orders (reorder db.orders branchCell o.id currentCell targetCell))
        let _ ← logIfChanged o.id "sort" current (.int t) actor.adminId
    pure o.id

/-- Marks an order deleted and closes the gap in its bucket; the key of the order. -/
def deleteOrder (actor : Actor) (order : Value) : Txn Int :=
  mutate actor order fun o => do
    let branch ← orderField o "branch_id"
    Access.authorize actor.roleIds branch (← orderField o "status_id") Capability.delete.name none
    let removed ← orderField o "sort"
    Txn.update .orders o.id [("status", .str deletedState), ("is_active", .bool false)]
    Txn.flush
    let branchCell ← Txn.param branch
    let removedCell ← Txn.param removed
    Txn.execute fun db => .ok (db.withRows .orders (closeGap db.orders branchCell removedCell))
    let _ ← logIfChanged o.id "status" (.str openState) (.str deletedState) actor.adminId
    pure o.id

/-- The branch and the status an order had when the request started. -/
def scope (o : Row) : Txn (Value × Value) := do
  return (← orderField o "branch_id", ← orderField o "status_id")

/-- Assigns more staff to an order. -/
def assignStaff (actor : Actor) (order : Value) (ids : List Nat) : Txn Bool :=
  mutate actor order fun o => do
    let (branch, status) ← scope o
    addStaff o.id branch status ids actor

/-- Unassigns staff from an order. -/
def unassignStaff (actor : Actor) (order : Value) (ids : List Nat) : Txn Bool :=
  mutate actor order fun o => do
    let (branch, status) ← scope o
    removeStaff o.id branch status ids actor

/-- Replaces a problem list of an order. -/
def setProblems (actor : Actor) (side : ProblemSide) (order : Value) (lines : List ProblemLine) :
    Txn Bool :=
  mutate actor order fun o => do
    let (branch, status) ← scope o
    side.aspect.authorize actor branch status
    applyProblems side o.id (← orderField o "phone_category_id") lines actor

/-- Adds a comment to an order; the comment as written. -/
def addComment (actor : Actor) (order : Value) (text : Value) : Txn Value :=
  mutate actor order fun o => do
    let (branch, status) ← scope o
    commentsAspect.authorize actor branch status
    match (← appendComments o.id status [text] actor).head? with
    | some c => return authoredBy (← commentValue c) actor
    | none => return .null

/-- Edits one's own comment on an order; the key of the comment. -/
def updateComment (actor : Actor) (order comment : Value) (text : Value) : Txn Int :=
  mutate actor order fun o => do
    editComment o.id (← orderField o "branch_id") comment text actor

/-- Deletes a comment of an order. -/
def removeComment (actor : Actor) (order comment : Value) : Txn Unit :=
  mutate actor order fun o => do
    deleteComment o.id (← orderField o "branch_id") comment actor

/-- Sets or removes a place of an order. -/
def setPlace (actor : Actor) (kind : PlaceKind) (order : Value) (place : Option Place) : Txn Bool :=
  mutate actor order fun o => do
    let (branch, status) ← scope o
    kind.aspect.authorize actor branch status
    applyPlace kind o.id place actor

/-- Starts, changes or (with `none`) cancels the rental of an order. -/
def setRental (actor : Actor) (order : Value) (req : Option RentalRequest) : Txn Bool :=
  mutate actor order fun o => do
    let (branch, status) ← scope o
    rentalAspect.authorize actor branch status
    applyRental o.id req actor

/-- Starts a rental for an order. -/
def openRental (actor : Actor) (order : Value) (req : RentalRequest) : Txn RentalView :=
  mutate actor order fun o => do
    let (branch, status) ← scope o
    createRental o.id branch status req actor

/-- Changes the active rental of an order. -/
def changeOrderRental (actor : Actor) (order : Value) (req : RentalRequest) : Txn RentalView :=
  mutate actor order fun o => do
    let (branch, status) ← scope o
    updateRental o.id branch status req actor

/-- Cancels the active rental of an order. -/
def closeRental (actor : Actor) (order : Value) : Txn RentalView :=
  mutate actor order fun o => do
    let (branch, status) ← scope o
    cancelRental o.id branch status actor

end RepairShop.Orders
