import RepairShop.Access.Grants

/-!
Changing grants. `assign` replaces the grant rows of one role at the given statuses of a
branch with rows holding exactly the capabilities marked truthy; the revocations delete every
row of a role, a status or a branch. Each change, once committed, bumps the generation of
every branch it touched and drops that branch's cached grants (a role's revocation drops that
role's entries in every branch), so no reader can see grants older than the change.
-/

namespace RepairShop.Access

open Store Json

/-- The sweeps that retire a branch's cached grants. -/
def retireBranch (branch : Value) : List Sweep :=
  [.bump (generationKey branch), .drop ("status_permissions:" ++ branch.display ++ ":*")]

/-- The sweeps that retire a role's cached grants in the given branches. -/
def retireRole (role : Value) (branches : List Value) : List Sweep :=
  branches.map (fun b => .bump (generationKey b)) ++
    [.drop ("status_permissions:*:" ++ role.display ++ ":*")]

/-- Registers sweeps for after the commit. -/
def afterCommitAll (ws : List Sweep) : Txn Unit :=
  ws.forM Txn.afterCommit

/-- The answer form of a grant row, as the database now holds it. -/
def grantSummary (id : Int) : Txn Value := do
  match (← Txn.query).row? .grants id with
  | none => pure .null
  | some g =>
    pure (.obj [("role_id", ← Txn.read .grants g "role_id"),
      ("branch_id", ← Txn.read .grants g "branch_id"),
      ("status_id", ← Txn.read .grants g "status_id"),
      ("capabilities", .arr ((grantCapabilities g).map fun c => .str c.name))])

/-- Replaces the grants of a role at statuses of a branch; the keys of the new rows.
`capabilities` maps capability names to flags; an unknown name is refused before anything
else, and a capability is held when its flag is truthy. -/
def assign (role branch : Int) (statusIds : List Int) (capabilities : List (String × Value)) :
    Txn (List Int) := do
  let unknown := (capabilities.map (·.1)).filter fun c => (Capability.ofName? c).isNone
  if !unknown.isEmpty then
    throw (badRequest "Unknown capabilities" (some "capabilities")
      [("invalid", .arr ((Board.sortTexts unknown).map .str))])
  let statusIds := firstOccurrences statusIds
  if statusIds.isEmpty then throw (badRequest "status_ids required" (some "status_ids"))
  Txn.atomically do
    let roleCell ← Txn.param (.int role)
    unless (← Txn.query).roles.any (fun r => r.is .roles "id" roleCell && r.isOpen .roles) do
      throw (badRequest "Role not found or deleted" (some "role_id"))
    let statusCells ← Txn.params (statusIds.map .int)
    let branchCell ← Txn.param (.int branch)
    let db ← Txn.query
    let valid := db.statuses.filter fun st =>
      st.isAny .statuses "id" statusCells && st.is .statuses "branch_id" branchCell &&
        st.isOpen .statuses
    let invalid := statusIds.filter fun s => !valid.any (·.id == s)
    if !invalid.isEmpty then
      throw (badRequest "Some statuses not found or not assigned to the specified branch"
        (some "status_ids") [("invalid_ids", .arr (invalid.map .int))])
    Txn.delete .grants fun g =>
      g.is .grants "branch_id" branchCell && g.is .grants "role_id" roleCell &&
        g.isAny .grants "status_id" statusCells
    let flags := Capability.all.map fun c =>
      (c.name, Value.bool ((capabilities.lookup c.name).getD .null).truthy)
    let ids ← statusIds.mapM fun s =>
      Txn.insert .grants ([("branch_id", .int branch), ("role_id", .int role),
        ("status_id", .int s)] ++ flags)
    afterCommitAll (retireBranch (.int branch))
    pure ids

/-- Deletes every grant of a role, named as the request gave it; the count of deleted rows. -/
def revokeRole (role : Value) : Txn Nat :=
  Txn.atomically do
    let cell ← Txn.param role
    let mine := (← Txn.query).grants.filter fun g => g.is .grants "role_id" cell
    let branches ← mine.mapM fun g => Txn.read .grants g "branch_id"
    Txn.delete .grants fun g => g.is .grants "role_id" cell
    afterCommitAll (retireRole role (distinctValues branches))
    pure mine.length

/-- Deletes every grant of a branch, named as the request gave it; the count of deleted rows. -/
def revokeBranch (branch : Value) : Txn Nat :=
  Txn.atomically do
    let cell ← Txn.param branch
    let n := ((← Txn.query).grants.filter fun g => g.is .grants "branch_id" cell).length
    Txn.delete .grants fun g => g.is .grants "branch_id" cell
    afterCommitAll (retireBranch branch)
    pure n

/-- Deletes every grant at a status, named as the request gave it; the count of deleted rows. -/
def revokeStatus (status : Value) : Txn Nat :=
  Txn.atomically do
    let cell ← Txn.param status
    let db ← Txn.query
    let found := db.statuses.find? fun s => s.is .statuses "id" cell
    let n := (db.grants.filter fun g => g.is .grants "status_id" cell).length
    Txn.delete .grants fun g => g.is .grants "status_id" cell
    if let some s := found then
      afterCommitAll (retireBranch (← Txn.read .statuses s "branch_id"))
    pure n

end RepairShop.Access
