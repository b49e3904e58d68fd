import RepairShop.Access.Capability
import RepairShop.Store.Cell

/-!
The tables of the shop database. Each table has an integer key `id` and a list of columns in
their declared order. A column has a kind, which fixes its affinity and how values cross
between the program and the database:

* `integer` and `text` columns take and give values as they are;
* a `flag` takes only `None`, `True` or `False` (or a number equal to one of them) and reads
  back as the truth of what is stored;
* a `decimal` (money, coordinates) reads back as a double;
* a `document` is written as JSON text and read back from it, a number stored as a number
  reading back as itself;
* a `stamp` is a time the database fills in; it is never read.

A column may be required (no value is refused) and may have a default, which an insert takes
when it is given no value for the column. Some tables hold combinations of columns at most
once (`unique`), and some stamp every update (`touched`).
-/

namespace RepairShop.Store

open Json

/-- How values cross between the program and a column. -/
inductive Kind where
  | integer
  | text
  | flag
  | decimal
  | document
  | stamp
  deriving DecidableEq

/-- The affinity of a column of a kind. -/
def Kind.affinity : Kind → Affinity
  | .text => .text
  | _ => .numeric

/-- A column of a table. -/
structure Column where
  name : String
  kind : Kind
  required : Bool := false
  default : Option Value := none

/-- A table: its name in the database, its columns after `id`, the combinations of columns
it holds at most once, and whether an update stamps `updated_at`. -/
structure Schema where
  name : String
  columns : List Column
  unique : List (List String) := []
  touched : Bool := false

namespace Schema

/-- The column of a name. -/
def column? (s : Schema) (name : String) : Option Column :=
  s.columns.find? (·.name == name)

/-- The table has a column of this name (`id` included). -/
def hasColumn (s : Schema) (name : String) : Bool :=
  name == "id" || (s.column? name).isSome

end Schema

/-- An integer column. -/
def intCol (name : String) (required : Bool := true) (default : Option Value := none) : Column :=
  { name, kind := .integer, required, default }

/-- A text column. -/
def textCol (name : String) (required : Bool := true) (default : Option Value := none) : Column :=
  { name, kind := .text, required, default }

/-- A flag column with its default. -/
def flagCol (name : String) (default : Bool) (required : Bool := false) : Column :=
  { name, kind := .flag, required, default := some (.bool default) }

/-- A money or coordinate column. -/
def decimalCol (name : String) (required : Bool := true) : Column :=
  { name, kind := .decimal, required }

/-- A JSON document column. -/
def documentCol (name : String) (default : Option Value := none) : Column :=
  { name, kind := .document, default }

/-- A time the database fills in. -/
def stampCol (name : String) : Column :=
  { name, kind := .stamp }

/-- The lifecycle state of a live row. -/
def openState : String := "Open"

/-- The lifecycle state of a soft-deleted row. -/
def deletedState : String := "Deleted"

/-- The lifecycle column of soft-deletable rows, open by default. -/
def lifecycleCol : Column := textCol "status" true (some (.str openState))

/-- The tables of the shop. -/
inductive TableId where
  | branches
  | statuses
  | transitions
  | grants
  | permissions
  | roles
  | rolePermissions
  | admins
  | adminRoles
  | adminBranches
  | customers
  | phoneCategories
  | problems
  | mappings
  | parts
  | partAssignments
  | devices
  | orders
  | assignments
  | initialProblems
  | finalProblems
  | orderParts
  | comments
  | pickups
  | deliveries
  | rentals
  | history
  deriving DecidableEq

namespace TableId

/-- Every table. -/
def all : List TableId :=
  [.branches, .statuses, .transitions, .grants, .permissions, .roles, .rolePermissions, .admins,
   .adminRoles, .adminBranches, .customers, .phoneCategories, .problems, .mappings, .parts,
   .partAssignments, .devices, .orders, .assignments, .initialProblems, .finalProblems,
   .orderParts, .comments, .pickups, .deliveries, .rentals, .history]

/-- The name scenarios use for a table. -/
def key : TableId → String
  | .branches => "branches"
  | .statuses => "statuses"
  | .transitions => "transitions"
  | .grants => "grants"
  | .permissions => "permissions"
  | .roles => "roles"
  | .rolePermissions => "role_permissions"
  | .admins => "admins"
  | .adminRoles => "admin_roles"
  | .adminBranches => "admin_branches"
  | .customers => "customers"
  | .phoneCategories => "phone_categories"
  | .problems => "problems"
  | .mappings => "mappings"
  | .parts => "parts"
  | .partAssignments => "part_assignments"
  | .devices => "devices"
  | .orders => "orders"
  | .assignments => "admin_assignments"
  | .initialProblems => "initial_problems"
  | .finalProblems => "final_problems"
  | .orderParts => "order_parts"
  | .comments => "comments"
  | .pickups => "pickups"
  | .deliveries => "deliveries"
  | .rentals => "rentals"
  | .history => "history"

/-- The table scenarios name by `key`. -/
def ofKey? (k : String) : Option TableId :=
  all.find? (·.key == k)

/-- Columns of a problem line. -/
def problemColumns : List Column :=
  [intCol "repair_order_id", intCol "problem_category_id", decimalCol "price",
   intCol "estimated_minutes", intCol "created_by", stampCol "created_at"]

/-- Columns of a pickup or delivery place. -/
def placeColumns : List Column :=
  [intCol "repair_order_id", decimalCol "lat", decimalCol "long", textCol "description",
   intCol "courier_id" false, intCol "created_by", stampCol "created_at"]

/-- The layout of a table. -/
def schema : TableId → Schema
  | .branches =>
    { name := "branches",
      columns := [textCol "name", flagCol "is_active" true, lifecycleCol, stampCol "updated_at"] }
  | .statuses =>
    { name := "repair_order_statuses",
      columns := [intCol "branch_id", textCol "name_uz", textCol "name_ru", textCol "name_en",
        textCol "color" false (some (.str "#000000")), textCol "bg_color" false (some (.str "#ffffff")),
        intCol "sort" true (some (.int 1)), textCol "type" false, flagCol "can_add_payment" false,
        flagCol "is_protected" false, flagCol "can_user_view" true, flagCol "is_active" true,
        lifecycleCol, stampCol "created_at"] }
  | .transitions =>
    { name := "repair_order_status_transitions",
      columns := [intCol "branch_id", intCol "from_status_id", intCol "to_status_id"],
      unique := [["from_status_id", "to_status_id"]] }
  | .grants =>
    { name := "repair_order_status_permissions",
      columns := [intCol "branch_id", intCol "role_id", intCol "status_id"] ++
        Capability.all.map (fun c => flagCol c.name false true) ++ [stampCol "updated_at"],
      unique := [["branch_id", "role_id", "status_id"]], touched := true }
  | .permissions =>
    { name := "permissions",
      columns := [textCol "code", textCol "service", textCol "action",
        documentCol "description_i18n" (some (.obj [])), stampCol "updated_at"],
      unique := [["code"]] }
  | .roles =>
    { name := "roles",
      columns := [textCol "name", flagCol "is_system" false, flagCol "is_active" true, lifecycleCol,
        documentCol "description_i18n" (some (.obj [])), stampCol "updated_at"],
      unique := [["name"]] }
  | .rolePermissions =>
    { name := "role_permissions", columns := [intCol "role_id", intCol "permission_id"],
      unique := [["role_id", "permission_id"]] }
  | .admins =>
    { name := "admins",
      columns := [textCol "name", textCol "email", textCol "phone" false, textCol "password_hash",
        flagCol "is_active" true, lifecycleCol, textCol "locale" false (some (.str "uz")),
        stampCol "updated_at"],
      unique := [["email"]] }
  | .adminRoles =>
    { name := "admin_roles", columns := [intCol "admin_id", intCol "role_id"],
      unique := [["admin_id", "role_id"]] }
  | .adminBranches =>
    { name := "admin_branches", columns := [intCol "admin_id", intCol "branch_id"],
      unique := [["admin_id", "branch_id"]] }
  | .customers =>
    { name := "users",
      columns := [textCol "first_name", textCol "last_name" false, textCol "phone_number",
        lifecycleCol, stampCol "created_at"] }
  | .phoneCategories =>
    { name := "phone_categories",
      columns := [textCol "name_uz", intCol "parent_id" false, flagCol "is_active" true,
        lifecycleCol] }
  | .problems =>
    { name := "problem_categories",
      columns := [textCol "name_uz", intCol "parent_id" false, flagCol "is_active" true,
        lifecycleCol],
      unique := [["name_uz", "parent_id"]] }
  | .mappings =>
    { name := "phone_problem_mappings",
      columns := [intCol "phone_category_id", intCol "problem_category_id"],
      unique := [["phone_category_id", "problem_category_id"]] }
  | .parts =>
    { name := "repair_parts", columns := [textCol "part_name_uz", lifecycleCol] }
  | .partAssignments =>
    { name := "repair_part_assignments",
      columns := [intCol "repair_part_id", intCol "problem_category_id",
        flagCol "is_required" false],
      unique := [["repair_part_id", "problem_category_id"]] }
  | .devices =>
    { name := "rental_phone_devices",
      columns := [textCol "code", textCol "name", flagCol "is_available" true true,
        stampCol "updated_at"],
      unique := [["code"]], touched := true }
  | .orders =>
    { name := "repair_orders",
      columns := [intCol "branch_id", intCol "status_id", intCol "user_id",
        intCol "phone_category_id", textCol "imei" false,
        textCol "priority" true (some (.str "Medium")), intCol "priority_level" true (some (.int 2)),
        intCol "sort" true (some (.int 1)), textCol "pickup_method" true (some (.str "Self")),
        textCol "delivery_method" true (some (.str "Self")), flagCol "is_active" true,
        lifecycleCol, intCol "created_by", stampCol "created_at", stampCol "updated_at"],
      touched := true }
  | .assignments =>
    { name := "repair_order_assign_admins",
      columns := [intCol "repair_order_id", intCol "admin_id", stampCol "created_at"],
      unique := [["repair_order_id", "admin_id"]] }
  | .initialProblems => { name := "repair_order_initial_problems", columns := problemColumns }
  | .finalProblems => { name := "repair_order_final_problems", columns := problemColumns }
  | .orderParts =>
    { name := "repair_order_parts",
      columns := [intCol "repair_order_id", intCol "repair_order_initial_problem_id" false,
        intCol "repair_order_final_problem_id" false, intCol "repair_part_id",
        intCol "quantity" true (some (.int 1)), decimalCol "part_price", intCol "created_by",
        stampCol "created_at"] }
  | .comments =>
    { name := "repair_order_comments",
      columns := [intCol "repair_order_id", textCol "text", lifecycleCol, intCol "created_by",
        intCol "status_by", stampCol "created_at", stampCol "updated_at"],
      touched := true }
  | .pickups => { name := "repair_order_pickups", columns := placeColumns }
  | .deliveries => { name := "repair_order_deliveries", columns := placeColumns }
  | .rentals =>
    { name := "repair_order_rental_phones",
      columns := [intCol "repair_order_id", intCol "rental_phone_device_id",
        { name := "is_free", kind := .flag }, decimalCol "price" false, textCol "currency" false,
        textCol "status" true (some (.str "Active")), stampCol "rented_at", stampCol "returned_at",
        textCol "notes" false, intCol "created_by", stampCol "created_at", stampCol "updated_at"],
      touched := true }
  | .history =>
    { name := "repair_order_change_histories",
      columns := [intCol "repair_order_id", textCol "field", documentCol "old_value",
        documentCol "new_value", intCol "created_by", stampCol "created_at"] }

/-- The columns a raw listing of the table shows, `id` first; `none` for a table that is
not listed. -/
def listed : TableId → Option (List String)
  | .orders => some ["id", "branch_id", "status_id", "user_id", "phone_category_id", "imei",
      "priority", "priority_level", "sort", "pickup_method", "delivery_method", "is_active",
      "status", "created_by"]
  | .comments => some ["id", "repair_order_id", "text", "status", "created_by", "status_by"]
  | .rentals => some ["id", "repair_order_id", "rental_phone_device_id", "is_free", "price",
      "currency", "status", "notes", "created_by"]
  | .devices => some ["id", "code", "is_available"]
  | .assignments => some ["id", "repair_order_id", "admin_id"]
  | .initialProblems => some problemListing
  | .finalProblems => some problemListing
  | .orderParts => some ["id", "repair_order_id", "repair_order_initial_problem_id",
      "repair_order_final_problem_id", "repair_part_id", "quantity", "part_price", "created_by"]
  | .pickups => some placeListing
  | .deliveries => some placeListing
  | .history => some ["id", "repair_order_id", "field", "old_value", "new_value", "created_by"]
  | .transitions => some ["id", "branch_id", "from_status_id", "to_status_id"]
  | .statuses => some ["id", "branch_id", "name_en", "sort", "type", "can_add_payment",
      "is_protected", "is_active", "status"]
  | .roles => some ["id", "name", "is_system", "status"]
  | .permissions => some ["id", "code", "service", "action"]
  | .rolePermissions => some ["id", "role_id", "permission_id"]
  | .branches => some ["id", "name", "status"]
  | .admins => some ["id", "name", "email", "is_active", "status"]
  | .adminRoles => some ["id", "admin_id", "role_id"]
  | .adminBranches => some ["id", "admin_id", "branch_id"]
  | _ => none
where
  /-- Listed columns of a problem line. -/
  problemListing : List String :=
    ["id", "repair_order_id", "problem_category_id", "price", "estimated_minutes", "created_by"]
  /-- Listed columns of a place. -/
  placeListing : List String :=
    ["id", "repair_order_id", "lat", "long", "description", "courier_id", "created_by"]

/-- The table a raw listing names. -/
def ofListing? (k : String) : Option TableId :=
  all.find? fun t => t.key == k && (t.listed).isSome

end TableId

end RepairShop.Store
