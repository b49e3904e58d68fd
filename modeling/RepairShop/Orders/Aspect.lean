import RepairShop.Access.Grants
import RepairShop.Audit.Canonical

/-!
The change trail of an order, and its aspects: the parts of it that a request may change
separately (assigned staff, problem lists, comments, pickup and delivery places, the rented
phone). Each aspect is guarded by one capability and reports refusals at one location. An aspect left out of a
request is not touched and not even authorized; one that is present is authorized at the
status the request started from before anything is compared or written.
-/

namespace RepairShop.Orders

open Store Json Access

/-! ## The change trail

Values are recorded in canonical form (object members that
are null dropped), and a change is recorded only when the canonical forms differ, so a
write that leaves the stored state as it was leaves no trace. Events such as the creation
of an order are recorded unconditionally with no old value. A value that has no canonical
form fails the recording.
-/

/-- Adds a trail row written by the acting account. -/
def record (order : Int) (field : String) (old new : Value) (actor : Value) : Txn Unit := do
  let _ ← Txn.insert .history [("repair_order_id", .int order), ("field", .str field),
    ("old_value", old), ("new_value", new), ("created_by", actor)]

/-- Records a change when the canonical forms differ; whether a row was added. -/
def logIfChanged (order : Int) (field : String) (old new : Value) (actor : Value) :
    Txn Bool := do
  let o ← Txn.lift (Audit.canonical old)
  let n ← Txn.lift (Audit.canonical new)
  if o.same n then return false
  record order field o n actor
  return true

/-- Records an event. -/
def logEvent (order : Int) (action : String) (payload : Value) (actor : Value) : Txn Unit := do
  record order action .null (← Txn.lift (Audit.canonical payload)) actor

/-! ## Aspects -/

/-- An aspect of an order: the capability that guards it and where its refusals point. -/
structure Aspect where
  capability : Capability
  location : String

/-- Refuses an actor that lacks the aspect's capability at the status. -/
def Aspect.authorize (a : Aspect) (actor : Actor) (branch status : Value) : Txn Unit :=
  Access.authorize actor.roleIds branch status a.capability.name (some a.location)

/-- Naturals sorted without repeats. -/
def sortedNats (xs : List Nat) : List Nat :=
  (xs.mergeSort (· ≤ ·)).eraseDups

/-- Ids as a JSON list. -/
def idsValue (xs : List Nat) : Value :=
  .arr (xs.map fun i => .int (Int.ofNat i))

/-- Refuses staff ids that are not open, active accounts. -/
def ensureActiveAdmins (ids : List Nat) (loc : String) : Txn Unit := do
  if ids.isEmpty then return
  let cells ← Txn.params (ids.map fun i => .int (Int.ofNat i))
  let db ← Txn.query
  let found := db.admins.filter fun ad =>
    ad.isAny .admins "id" cells && ad.holds "is_active" && ad.isOpen .admins
  let missing := ids.filter fun a => !found.any (·.id == Int.ofNat a)
  if !missing.isEmpty then
    throw (badRequest "Some admins not found or inactive" (some loc) [("missing_ids", idsValue missing)])

/-- The open order the request is about, its id as the request gave it, in a branch the actor
may touch. -/
def loadOrder (actor : Actor) (order : Value) : Txn Row := do
  let cell ← Txn.param order
  match (← Txn.query).orders.find? (fun o => o.is .orders "id" cell && o.isOpen .orders) with
  | none => throw (notFound "Repair order not found" (some "order_id"))
  | some o =>
    Txn.lift (assertBranchAccess actor (← Txn.read .orders o "branch_id"))
    pure o

/-- An answer with some fields as the request gave them. A row written in a request is
answered from memory, where each field keeps the value it was given; the database stores it by
the column's affinity, so a later read may differ. -/
def asGiven (v : Value) (given : List (String × Value)) : Value :=
  match v with
  | .obj fields => .obj (given.foldl (fun fs p => Value.setField fs p.1 p.2) fields)
  | v => v

/-- An answer with its author as the request named it. -/
def authoredBy (v : Value) (actor : Actor) : Value := asGiven v [("created_by", actor.adminId)]

/-- A column of an order as the program reads it. -/
def orderField (o : Row) (column : String) : Txn Value :=
  Txn.read .orders o column

end RepairShop.Orders
