import RepairShop.Script.Checks
import RepairShop.Session.Txn

/-!
Worlds: the database a scenario starts from, described as lists of entities. Every entity
takes the 1-based position in its list as its id. A description is added to a base: the
demo shop, or nothing. Missing fields take defaults (`"Open"`, active, generated names and
e-mails); the members that say what a grant or a move joins (`status`, `role`, `from`,
`to`) must be given, and an account's password, when given, must be a text that can be
encoded. A description that breaks a rule of the database (two roles of one name, two
accounts with one e-mail, a grant or move whose branch cannot be told, a repeated link) is
refused as a whole.

The demo shop has one branch "Main" with statuses New, In repair, Ready and Cancelled (the
last ending the workflow), moves New → In repair → Ready and New → Cancelled, a Manager role
holding every capability and a Viewer role holding `can_view` at each status, three staff
accounts (manager, courier and viewer, all in the branch), a customer, a phone category,
problems Screen, LCD (under Screen) and Battery with LCD and Battery offered for the phone
category, a part for each of them, and one rental phone.
-/

namespace RepairShop.Scenario

open Store Json Script

/-- An object value from members. -/
def obj (fields : List (String × Value)) : Value := .obj fields

/-- The demo shop as a world description. -/
def demoShop : Value :=
  let grantsAt (s : Int) : List Value :=
    [obj [("role", .int 1), ("status", .int s), ("caps", .str "*")],
     obj [("role", .int 2), ("status", .int s), ("caps", .arr [.str "can_view"])]]
  obj [
    ("branches", .arr [obj [("name", .str "Main")]]),
    ("statuses", .arr [obj [("name", .str "New"), ("sort", .int 1)],
      obj [("name", .str "In repair"), ("sort", .int 2)],
      obj [("name", .str "Ready"), ("sort", .int 3)],
      obj [("name", .str "Cancelled"), ("sort", .int 4), ("type", .str "Cancelled")]]),
    ("transitions", .arr [.arr [.int 1, .int 2], .arr [.int 2, .int 3], .arr [.int 1, .int 4]]),
    ("roles", .arr [obj [("name", .str "Manager")], obj [("name", .str "Viewer")]]),
    ("grants", .arr ([1, 2, 3, 4].flatMap grantsAt)),
    ("admins", .arr [
      obj [("name", .str "manager"), ("roles", .arr [.int 1]), ("branches", .arr [.int 1])],
      obj [("name", .str "courier"), ("roles", .arr []), ("branches", .arr [.int 1])],
      obj [("name", .str "viewer"), ("roles", .arr [.int 2]), ("branches", .arr [.int 1])]]),
    ("customers", .arr [obj []]),
    ("phone_categories", .arr [obj []]),
    ("problems", .arr [obj [("name", .str "Screen")],
      obj [("name", .str "LCD"), ("parent", .int 1)], obj [("name", .str "Battery")]]),
    ("mappings", .arr [.arr [.int 1, .int 2], .arr [.int 1, .int 3]]),
    ("parts", .arr [obj [("name", .str "LCD glass"), ("problems", .arr [.int 2])],
      obj [("name", .str "Battery cell"), ("problems", .arr [.int 3])]]),
    ("devices", .arr [obj [("code", .str "RP-1")]])]

/-- A natural field, or a default. -/
def natOr (v : Value) (default : Nat) : Nat :=
  match intValue? v with
  | some n => n.toNat
  | none => default

/-- A text field, or a default. -/
def textOr (v : Value) (default : String) : String :=
  (textOf? v).getD default

/-- Entities of a list paired with their ids (1-based positions). -/
def numbered (items : List Value) : List (Nat × Value) :=
  (List.range items.length).map (· + 1) |>.zip items

/-- The member `key` of a description, `default` when it is absent; a description that is
not an object has no members to ask for. -/
def member (item : Value) (key : String) (default : Value) : Result Value :=
  match item with
  | .obj fields => pure ((fields.lookup key).getD default)
  | v => throw (.fault (.noAttribute v "get"))

/-- The member `key` a description must have. -/
def required (item : Value) (key : String) : Result Value :=
  match item with
  | .obj fields =>
    match fields.lookup key with
    | some v => pure v
    | none => throw (.fault (.missingKey (.str key)))
  | v => throw (.fault (.noAttribute v "get"))

/-- The entities of one kind: the base's followed by the items of the world's, numbered
from 1. -/
def entities (base world : Value) (key : String) : Result (List (Nat × Value)) := do
  let items ← (← member world key (.arr [])).iterate
  pure (numbered (itemsOf (base.field key) ++ items))

/-- The item of a pair at a position: of a list or of a text. -/
def itemAt (v : Value) (i : Nat) : Result Value :=
  match v with
  | .arr items => match items[i]? with
    | some x => pure x
    | none => throw (.fault .indexOutOfRange)
  | .str s => match s.toList[i]? with
    | some c => pure (.str c.toString)
    | none => throw (.fault .indexOutOfRange)
  | .unpaired ps => match ps[i]? with
    | some n => pure (Value.ofPoints [n])
    | none => throw (.fault .indexOutOfRange)
  | v => throw (.fault (.notSubscriptable v))

/-- The branch a world status belongs to, `1` when the status is not described. -/
def statusBranch (statuses : List (Nat × Value)) (status : Value) : Result Value := do
  match statuses.find? (fun (i, _) => (Value.int i).sameMember status) with
  | some (_, v) => member v "branch" (.int 1)
  | none => pure (.int 1)

/-- Inserts a described row, ignoring its key (rows are numbered in order). -/
def put (t : TableId) (given : List (String × Value)) : Txn Unit := do
  let _ ← Txn.insert t given

/-- The common lifecycle members of a description. -/
def lifecycle (v : Value) : Txn (List (String × Value)) := do
  pure [("status", ← Txn.lift (member v "status" (.str openState))),
    ("is_active", ← Txn.lift (member v "is_active" (.bool true)))]

/-- The capabilities a grant of a world description holds: every one for `"*"`, otherwise
those whose names are in the value, as membership tests it. -/
def grantedCaps (codes : Value) : Result CapSet :=
  match codes with
  | .str "*" => pure Capability.all
  | _ => Capability.all.filterM fun c => codes.contains (.str c.name)

/-- Writes the entities of a world description, kind after kind. -/
def populate (world : Value) : Txn Unit := do
  let base ← match ← Txn.lift (member world "base" (.str "default")) with
    | .str "default" => pure demoShop
    | _ => pure (obj [])
  let list := fun (key : String) => Txn.lift (entities base world key)
  let get := fun (v : Value) (key : String) (default : Value) => Txn.lift (member v key default)
  for (i, v) in ← list "branches" do
    put .branches ([("name", ← get v "name" (.str ("Branch " ++ toString i)))] ++ (← lifecycle v))
  let statuses ← list "statuses"
  for (i, v) in statuses do
    let name ← get v "name" (.str ("Status " ++ toString i))
    put .statuses ([("branch_id", ← get v "branch" (.int 1)), ("name_uz", name), ("name_ru", name),
      ("name_en", name), ("sort", ← get v "sort" (.int i)), ("type", ← get v "type" .null)] ++
      (← lifecycle v))
  for (_, t) in ← list "transitions" do
    let (src, dst, branch) ← match t with
      | .obj _ =>
        pure (← Txn.lift (required t "from"), ← Txn.lift (required t "to"), ← get t "branch" .null)
      | _ => pure (← Txn.lift (itemAt t 0), ← Txn.lift (itemAt t 1), .null)
    let branch ← if branch.isNull then Txn.lift (statusBranch statuses src) else pure branch
    put .transitions [("branch_id", branch), ("from_status_id", src), ("to_status_id", dst)]
  for (_, v) in ← list "permissions" do
    let code ← match v with
      | .obj fields => match fields.lookup "code" with
        | some c => pure c
        | none => throw (.fault (.missingKey (.str "code")))
      | v => throw (.fault (.notSubscriptable v))
    let (svc, act) ← match code with
      | .str text => match text.splitOn "." with
        | first :: rest => pure (Value.str first, Value.str (".".intercalate rest))
        | [] => pure (code, .str "")
      | .unpaired ps =>
        let first := ps.takeWhile (· != 46)
        pure (Value.ofPoints first, Value.ofPoints (ps.drop (first.length + 1)))
      | v => throw (.fault (.noAttribute v "split"))
    put .permissions [("code", code), ("service", svc), ("action", act)]
  for (i, v) in ← list "roles" do
    put .roles ([("name", ← get v "name" (.str ("Role " ++ toString i)))] ++ (← lifecycle v))
    for p in ← Txn.lift ((← get v "perms" (.arr [])).iterate) do
      put .rolePermissions [("role_id", .int i), ("permission_id", p)]
  for (_, g) in ← list "grants" do
    let status ← Txn.lift (required g "status")
    let branch ← match ← get g "branch" .null with
      | .null => Txn.lift (statusBranch statuses status)
      | b => pure b
    let caps ← Txn.lift (grantedCaps (← get g "caps" (.arr [])))
    put .grants ([("branch_id", branch), ("role_id", ← Txn.lift (required g "role")),
      ("status_id", status)] ++
      Capability.all.map fun c => (c.name, .bool (caps.contains c)))
  for (i, v) in ← list "admins" do
    -- a password is stored as its hash; an account described without one has none
    let password ← if v.has "password" then
        match ← get v "password" .null with
        | .str p => pure (Value.str (Access.PasswordHashing.hash p))
        | .unpaired ps => throw (.fault (.unencodable ps))
        | p => throw (.fault (.noAttribute p "encode"))
      else pure (.str "")
    put .admins ([("name", ← get v "name" (.str ("admin" ++ toString i))),
      ("email", ← get v "email" (.str ("admin" ++ toString i ++ "@example.com"))),
      ("password_hash", password)] ++ (← lifecycle v))
    for r in ← Txn.lift ((← get v "roles" (.arr [])).iterate) do
      put .adminRoles [("admin_id", .int i), ("role_id", r)]
    for b in ← Txn.lift ((← get v "branches" (.arr [])).iterate) do
      put .adminBranches [("admin_id", .int i), ("branch_id", b)]
  for (i, v) in ← list "customers" do
    put .customers [("first_name", .str ("Customer " ++ toString i)),
      ("phone_number", .str ("+998" ++ toString i)), ("status", ← get v "status" (.str openState))]
  for (i, v) in ← list "phone_categories" do
    put .phoneCategories ([("name_uz", ← get v "name" (.str ("Phone " ++ toString i)))] ++
      (← lifecycle v))
  for (i, v) in ← list "problems" do
    put .problems ([("name_uz", ← get v "name" (.str ("Problem " ++ toString i))),
      ("parent_id", ← get v "parent" .null)] ++ (← lifecycle v))
  for (_, m) in ← list "mappings" do
    let (a, b) ← Txn.lift (Value.pair m)
    put .mappings [("phone_category_id", a), ("problem_category_id", b)]
  for (i, v) in ← list "parts" do
    put .parts [("part_name_uz", ← get v "name" (.str ("Part " ++ toString i))),
      ("status", ← get v "status" (.str openState))]
    for c in ← Txn.lift ((← get v "problems" (.arr [])).iterate) do
      put .partAssignments [("repair_part_id", .int i), ("problem_category_id", c)]
  for (i, v) in ← list "devices" do
    let code ← get v "code" (.str ("RP-" ++ toString i))
    put .devices [("code", code), ("name", code), ("is_available", ← get v "is_available" (.bool true))]

/-- The name of the error the database raises for a refused write. -/
def refusalClass : Refusal → String
  | .constraint _ => "IntegrityError"
  | .notFlag _ _ => "StatementError"
  | .tooLarge => "OverflowError"
  | .unsupported _ _ => "ProgrammingError"
  | .unencodable _ => "UnicodeEncodeError"

/-- Builds the database of a world description, or the failure that refuses it: a
description the building cannot read, or a write the database refuses. -/
def build (world : Value) : Except Failure Db :=
  let start : Session := { db := {}, kv := {} }
  match populate world start with
  | .error e _ => .error e
  | .ok _ s =>
    match s.waiting with
    | some r => .error (.fault (.database (refusalClass r) ""))
    | none => .ok s.db

end RepairShop.Scenario
