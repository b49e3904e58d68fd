/-!
Capabilities: what a role may do to an order at one status. There are sixteen, in a fixed
order that every capability list follows. Global permission codes (`SERVICE.ACTION`) guard
the administration of grants and transitions. The presets are the capability sets the seed
grants to its four roles, `*` standing for all sixteen.
-/

namespace RepairShop

/-- A capability at a status. -/
inductive Capability where
  | add
  | view
  | update
  | delete
  | assignAdmin
  | changeStatus
  | changeInitialProblems
  | changeFinalProblems
  | comment
  | pickupManage
  | deliveryManage
  | manageRentalPhone
  | viewHistory
  | paymentAdd
  | paymentCancel
  | viewPayments
  deriving DecidableEq, Repr

namespace Capability

/-- All capabilities, in their fixed order. -/
def all : List Capability :=
  [.add, .view, .update, .delete, .assignAdmin, .changeStatus, .changeInitialProblems,
   .changeFinalProblems, .comment, .pickupManage, .deliveryManage, .manageRentalPhone,
   .viewHistory, .paymentAdd, .paymentCancel, .viewPayments]

/-- The name of a capability. -/
def name : Capability → String
  | .add => "can_add"
  | .view => "can_view"
  | .update => "can_update"
  | .delete => "can_delete"
  | .assignAdmin => "can_assign_admin"
  | .changeStatus => "can_change_status"
  | .changeInitialProblems => "can_change_initial_problems"
  | .changeFinalProblems => "can_change_final_problems"
  | .comment => "can_comment"
  | .pickupManage => "can_pickup_manage"
  | .deliveryManage => "can_delivery_manage"
  | .manageRentalPhone => "can_manage_rental_phone"
  | .viewHistory => "can_view_history"
  | .paymentAdd => "can_payment_add"
  | .paymentCancel => "can_payment_cancel"
  | .viewPayments => "can_view_payments"

/-- The capability of a name. -/
def ofName? (s : String) : Option Capability :=
  all.find? (·.name == s)

theorem mem_all (c : Capability) : c ∈ all := by
  cases c <;> simp [all]

theorem ofName?_name (c : Capability) : ofName? c.name = some c := by
  cases c <;> rfl

end Capability

/-- A capability set, kept in the fixed order without repeats. -/
abbrev CapSet := List Capability

namespace CapSet

/-- The set of capabilities satisfying `p`. -/
def ofPred (p : Capability → Bool) : CapSet :=
  Capability.all.filter p

/-- Union of two sets. -/
def union (a b : CapSet) : CapSet :=
  ofPred (fun c => a.contains c || b.contains c)

/-- Names of the capabilities, in the fixed order. -/
def names (s : CapSet) : List String :=
  s.map Capability.name

end CapSet

/-- Global permission codes by service. -/
def serviceActions : List (String × List String) :=
  [("RPR", ["PERMISSION.MANAGE", "STATUS.MANAGE"])]

/-- All global permission codes. -/
def permissionCodes : List String :=
  serviceActions.flatMap fun (svc, acts) => acts.map (svc ++ "." ++ ·)

/-- Code that guards grant administration. -/
def managePermissionsCode : String := "RPR.PERMISSION.MANAGE"

/-- Code that guards transition administration. -/
def manageStatusesCode : String := "RPR.STATUS.MANAGE"

/-- Name of the role that holds every global code. -/
def superAdminRole : String := "Super Admin"

/-- Preset capability names of the seeded roles, in seeding order. -/
def rolePresets : List (String × List String) :=
  [(superAdminRole, ["*"]),
   ("Manager", (Capability.all.take 13).map Capability.name),
   ("Master", [.view, .changeStatus, .changeFinalProblems, .comment, .viewHistory].map Capability.name),
   ("Courier", [.view, .comment, .pickupManage, .deliveryManage].map Capability.name)]

/-- The capabilities a preset names, in the fixed order, where `names c` says whether it
names the code `c`; naming `*` names all. -/
def expandPresetBy (names : String → Bool) : CapSet :=
  if names "*" then Capability.all
  else CapSet.ofPred (fun c => names c.name)

/-- The capabilities a list of codes names, in the fixed order; `*` names all. -/
def expandPreset (codes : List String) : CapSet :=
  expandPresetBy codes.contains

end RepairShop
