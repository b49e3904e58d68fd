import RepairShop.Access.Assign

/-!
Seeding a workflow. The seed makes sure that the global permission codes exist, that the
preset roles exist (the `Super Admin` role holding every code), that the branch of the given
name exists with the six default statuses and their moves, that every preset role has a grant
row at every status of the branch, and that a first administrator exists in it. Whatever is
already there is kept as it is, so a second run creates nothing. The counters report what was
created; the printed lines are the notices of the run and, on request, a summary of the
branch's grant rows by role and status.
-/

namespace RepairShop.Seed

open Store Json

/-- Default statuses of a new branch: Uzbek, Russian and English names and the terminal
kind, in sort order. -/
def defaultStatuses : List (String × String × String × Option String) :=
  [("Yangi", "Новый", "New", none), ("Diagnostika", "Диагностика", "Diagnostics", none),
   ("Ta\x27mirlashda", "В ремонте", "In repair", none), ("Tayyor", "Готов", "Ready", none),
   ("Topshirildi", "Выдан", "Delivered", some "Completed"),
   ("Bekor qilindi", "Отменён", "Cancelled", some "Cancelled")]

/-- Default moves between the default statuses, by English name. -/
def defaultMoves : List (String × List String) :=
  [("New", ["Diagnostics", "Cancelled"]), ("Diagnostics", ["In repair", "Cancelled"]),
   ("In repair", ["Ready", "Cancelled"]), ("Ready", ["Delivered", "In repair"]),
   ("Delivered", []), ("Cancelled", [])]

/-- The e-mail of the first administrator. -/
def adminEmail : String := "admin@example.com"

/-- The first password of the first administrator. -/
def adminPassword : String := "ChangeMe123!"

/-- What a seed run created. -/
structure Counters where
  permissions : Nat
  roles : Nat
  transitions : Nat
  grants : Nat
  branchId : Int

/-- The stored texts of a column of a table. -/
def texts (t : TableId) (column : String) : Txn (List String) := do
  return (← Txn.query).rows t |>.map (·.text column)

/-- Creates the missing global permission codes; how many. -/
def ensurePermissions : Txn Nat := do
  let existing ← texts .permissions "code"
  let pairs := serviceActions.flatMap fun (svc, acts) => acts.map fun a => (svc, a)
  let mut created := 0
  for (svc, act) in pairs do
    let code := svc ++ "." ++ act
    if !existing.contains code then
      let _ ← Txn.insert .permissions [("code", .str code), ("service", .str svc),
        ("action", .str act),
        ("description_i18n", .obj [("en", .str (code.replace "." " - "))])]
      created := created + 1
  Txn.flush
  return created

/-- Creates the missing preset roles and gives the super role the codes it lacks, in the
order of the codes; how many roles. A link of the super role to a code that does not exist
cannot be read. -/
def ensureRoles : Txn Nat := do
  let existing ← texts .roles "name"
  let mut created := 0
  for (name, _) in rolePresets do
    if !existing.contains name then
      let _ ← Txn.insert .roles [("name", .str name), ("is_system", .bool true),
        ("description_i18n", .obj [("en", .str name)])]
      created := created + 1
  Txn.flush
  let db ← Txn.query
  match db.roles.find? (·.text "name" == superAdminRole) with
  | none => pure created
  | some sup =>
    let links := db.rolePermissions.filter fun rp => (rp.get "role_id").sqlEq (.int sup.id)
    let held ← links.mapM fun rp =>
      match db.permissions.find? (fun p => (p.get "id").sqlEq (rp.get "permission_id")) with
      | some p => pure (p.text "code")
      | none => throw (.fault (.noAttribute .null "code"))
    let missing := permissionCodes.filter fun c => !held.contains c
    let grantsTo := (db.permissions.filter fun p => missing.contains (p.text "code")).mergeSort
      fun p q => decide (p.text "code" ≤ q.text "code")
    for p in grantsTo do
      let _ ← Txn.insert .rolePermissions [("role_id", .int sup.id), ("permission_id", .int p.id)]
    pure created

/-- The query that looks a branch up by name. -/
def branchByName : String :=
  "SELECT branches.id, branches.name, branches.is_active, branches.status, branches.updated_at " ++
    "\nFROM branches \nWHERE branches.name = ?"

/-- The branch of the name, created when missing; two branches of the name are refused, as
the name must pick out one. The name may be any value: it is compared as the name column
compares it (a number as its text), and a list or object cannot be handed to the query. -/
def ensureBranch (name : Value) : Txn Int := do
  let cell ← match bindValue name with
    | .ok c => pure c
    | .error .tooLarge => throw (.fault .tooLargeForStore)
    | .error (.unencodable ps) => throw (.fault (.unencodable ps))
    | .error (.unsupported kind) =>
      throw (.fault (.database "ProgrammingError" (unsupportedText 1 kind
        ("[SQL: " ++ branchByName ++ "]\n[parameters: " ++ tupleText [shownValue name] ++ "]"))))
  match (← Txn.query).branches.filter (·.is .branches "name" cell) with
  | [] =>
    let id ← Txn.insert .branches [("name", name)]
    Txn.flush
    pure id
  | [b] => pure b.id
  | _ => throw (.fault .manyRows)

/-- Sets an entry of a map with value keys: in place, or at the end. -/
def setKeyed {β : Type} (m : List (Value × β)) (k : Value) (b : β) : List (Value × β) :=
  if m.any (·.1.sameMember k) then m.map (fun p => if p.1.sameMember k then (k, b) else p)
  else m ++ [(k, b)]

/-- The statuses of the branch by English name (a later one of the same name wins, in the
place of the first), the default ones created when missing. -/
def ensureStatuses (branch : Int) : Txn (List (Value × Int)) := do
  let cell ← Txn.param (.int branch)
  let mine := (← Txn.query).statuses.filter (·.is .statuses "branch_id" cell)
  let mut known : List (Value × Int) := []
  for s in mine do
    known := setKeyed known (← Txn.read .statuses s "name_en") s.id
  for (i, (uz, ru, en, kind)) in (List.range defaultStatuses.length).zip defaultStatuses do
    if !known.any (·.1.sameMember (.str en)) then
      let id ← Txn.insert .statuses [("branch_id", .int branch), ("name_uz", .str uz),
        ("name_ru", .str ru), ("name_en", .str en), ("sort", .int (i + 1)),
        ("type", (kind.map Value.str).getD .null), ("is_protected", .bool true),
        ("can_add_payment", .bool kind.isNone)]
      known := known ++ [(.str en, id)]
  Txn.flush
  return known

/-- The id of a status by English name. -/
def statusId (statuses : List (Value × Int)) (name : String) : Int :=
  ((statuses.find? (·.1.sameMember (.str name))).map (·.2)).getD 0

/-- Creates the missing default moves; how many. -/
def ensureMoves (branch : Int) (statuses : List (Value × Int)) : Txn Nat := do
  let cell ← Txn.param (.int branch)
  let rows := (← Txn.query).transitions.filter (·.is .transitions "branch_id" cell)
  let mut existing : List (Value × Value) ← rows.mapM fun t => do
    return (← Txn.read .transitions t "from_status_id", ← Txn.read .transitions t "to_status_id")
  let mut created := 0
  for (src, dsts) in defaultMoves do
    for dst in dsts do
      let pair := (Value.int (statusId statuses src), Value.int (statusId statuses dst))
      if !existing.any fun (a, b) => a.sameMember pair.1 && b.sameMember pair.2 then
        let _ ← Txn.insert .transitions [("branch_id", .int branch), ("from_status_id", pair.1),
          ("to_status_id", pair.2)]
        existing := existing ++ [pair]
        created := created + 1
  return created

/-- Creates the missing grant rows of the preset roles; how many, and the warnings. -/
def ensureGrants (branch : Int) (statuses : List (Value × Int)) : Txn (Nat × List String) := do
  let db ← Txn.query
  let roles := db.roles.filter fun r => (rolePresets.map (·.1)).contains (r.text "name")
  let cell ← Txn.param (.int branch)
  let existing ← (db.grants.filter (·.is .grants "branch_id" cell)).mapM fun g => do
    return (← Txn.read .grants g "role_id", ← Txn.read .grants g "status_id")
  let mut created := 0
  let mut notes : List String := []
  for (name, preset) in rolePresets do
    match roles.reverse.find? (·.text "name" == name) with
    | none => notes := notes ++ ["[WARN] Role " ++ name ++ " missing; skipping grants"]
    | some role =>
      let caps := expandPreset preset
      for (_, s) in statuses do
        if !existing.any fun (r, st) => r.sameMember (.int role.id) && st.sameMember (.int s) then
          let _ ← Txn.insert .grants ([("branch_id", .int branch), ("role_id", .int role.id),
            ("status_id", .int s)] ++ Capability.all.map fun c => (c.name, .bool (caps.contains c)))
          created := created + 1
  Txn.flush
  return (created, notes)

/-- Makes sure the first administrator exists and works in the branch; the notices. -/
def ensureAdmin [Access.PasswordHashing] (branch : Int) : Txn (List String) := do
  let db ← Txn.query
  match db.roles.filter (·.is .roles "name" (.text superAdminRole)) with
  | [] => return ["[WARN] Super Admin role missing; skipping admin creation"]
  | _ :: _ :: _ => throw (.fault .manyRows)
  | [sup] =>
    let (admin, notes) ← match db.admins.filter (·.is .admins "email" (.text adminEmail)) with
      | [a] => pure (a.id, [])
      | _ :: _ :: _ => throw (.fault .manyRows)
      | [] => do
        let id ← Txn.insert .admins [("name", .str superAdminRole), ("email", .str adminEmail),
          ("password_hash", .str (Access.PasswordHashing.hash adminPassword))]
        Txn.flush
        let _ ← Txn.insert .adminRoles [("admin_id", .int id), ("role_id", .int sup.id)]
        pure (id, ["[INFO] Created initial admin " ++ adminEmail ++ " with temporary password."])
    let links := (← Txn.query).adminBranches.filter fun ab =>
      ab.is .adminBranches "admin_id" (.int admin) && ab.is .adminBranches "branch_id" (.int branch)
    match links with
    | [] => let _ ← Txn.insert .adminBranches [("admin_id", .int admin), ("branch_id", .int branch)]
    | [_] => pure ()
    | _ => throw (.fault .manyRows)
    return notes

/-- Runs every step of the seed; the counters and the notices. -/
def seedWorkflow [Access.PasswordHashing] (branchName : Value) : Txn (Counters × List String) := do
  let permissions ← ensurePermissions
  let roles ← ensureRoles
  let branch ← ensureBranch branchName
  let statuses ← ensureStatuses branch
  let transitions ← ensureMoves branch statuses
  let (grants, warnings) ← ensureGrants branch statuses
  let notices ← ensureAdmin branch
  pure (⟨permissions, roles, transitions, grants, branch⟩, warnings ++ notices)

/-- A text padded on the right with blanks to a width. -/
def padRight (s : String) (width : Nat) : String :=
  s ++ String.ofList (List.replicate (width - s.length) ' ')

/-- One summary line per grant row of the branch, by role name and then status sort (rows
that tie keep their order). -/
def grantSummary (branch : Int) : Txn (List String) := do
  let db ← Txn.query
  let rows := (db.grants.filter (·.is .grants "branch_id" (.int branch))).filterMap fun g =>
    match db.roles.find? (fun r => (r.get "id").sqlEq (g.get "role_id")),
      db.statuses.find? (fun s => (s.get "id").sqlEq (g.get "status_id")) with
    | some r, some s => some (r, s, g)
    | _, _ => none
  let ordered := rows.mergeSort fun (r₁, s₁, _) (r₂, s₂, _) =>
    match (r₁.get "name").compare (r₂.get "name") with
    | .lt => true
    | .gt => false
    | .eq => (s₁.get "sort").compare (s₂.get "sort") != .gt
  ordered.mapM fun (r, s, g) => do
    return padRight (r.text "name") 12 ++ " | " ++ padRight (s.text "name_en") 12 ++ " | " ++
      toString (Access.grantCapabilities g).length ++ " capabilities"

end RepairShop.Seed
