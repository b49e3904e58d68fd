import RepairShop.Access.Identity
import RepairShop.Json.Collection
import RepairShop.Request.Field

/-!
Capabilities at a status. A role holds a capability at a status when a grant row of the
status's branch names it, and the role, the branch and the status are all open; an actor holds
it when any of its roles does.

Grants of one role in one branch are cached under the branch's generation counter
(`status_permissions:{branch}:{role}:{generation}`, an object from status ids to sorted
capability names, kept for an hour). The counter is read before the database, and every
change of grants bumps it, so an entry written from a read older than the change sits under a
key nobody reads any more. A counter that cannot be read turns caching off for the call. A
cached entry that is not an object is a miss; one that is an object is taken as it stands,
its keys read as integers and its values as sets, so it may name capabilities that no row
holds.
-/

namespace RepairShop.Access

open Store Json Cache

/-- Capability values by status id, in the order the statuses were first seen. -/
abbrev GrantMap := List (Int × List Value)

/-- How long cached grants live, in seconds. -/
def grantTtl : Nat := 3600

/-- The cache key of a branch's generation counter. -/
def generationKey (branch : Value) : String :=
  "status_permissions_gen:" ++ branch.display

/-- The cache key of one role's grants in a branch under a generation. -/
def grantKey (branch : Value) (role generation : Int) : String :=
  "status_permissions:" ++ branch.display ++ ":" ++ toString role ++ ":" ++ toString generation

/-- Adds a value to a set kept as a list, unless an equal one is in it. -/
def addMember (set : List Value) (v : Value) : List Value :=
  if v.memSame set then set else set ++ [v]

/-- The set of a cached value: items of a list, characters of a text, keys of an object.
A list holding a list or an object cannot be a set; a scalar cannot be iterated. -/
def setOf (v : Value) : Result (List Value) :=
  match v with
  | .arr items => items.foldlM (fun acc x =>
      match x with
      | .arr _ | .obj _ => throw (.fault (.unhashable x))
      | _ => pure (addMember acc x)) []
  | .str s => pure (s.toList.foldl (fun acc c => addMember acc (.str (String.singleton c))) [])
  | .unpaired ps => pure (ps.foldl (fun acc n => addMember acc (Value.ofPoints [n])) [])
  | .obj fields => pure (fields.map (fun f => .str f.1))
  | _ => throw (.fault (.notIterable v))

/-- Sets an entry of a map kept as a list: in place, or at the end. -/
def setEntry {β : Type} (m : List (Int × β)) (k : Int) (b : β) : List (Int × β) :=
  if m.any (·.1 == k) then m.map (fun p => if p.1 == k then (k, b) else p) else m ++ [(k, b)]

/-- Sets an entry of a map with text keys: in place, or at the end. -/
def setNamed {β : Type} (m : List (String × β)) (k : String) (b : β) : List (String × β) :=
  if m.any (·.1 == k) then m.map (fun p => if p.1 == k then (k, b) else p) else m ++ [(k, b)]

/-- Reads a cached grant object: every key as an integer, every value as a set. -/
def decodeGrants : List (String × Value) → GrantMap → Result GrantMap
  | [], acc => pure acc
  | (k, v) :: rest, acc => do
    let status ← numeralOf k
    let caps ← setOf v
    decodeGrants rest (setEntry acc status caps)

/-- The cached form of grants: status ids as texts, capability names sorted. -/
def encodeGrants (g : GrantMap) : Value :=
  .obj (g.map fun (s, caps) =>
    (toString s, .arr ((caps.mergeSort Value.sortsBefore))))

/-- The capabilities a grant row holds: those whose flag reads true, in catalogue order. -/
def grantCapabilities (r : Row) : List Capability :=
  Capability.all.filter fun c =>
    match readCell .flag (r.get c.name) with
    | .ok (.bool b) => b
    | _ => false

/-- Grants of the given roles in a branch as the database holds them, by role: rows of the
roles in the branch whose role, branch and status are open, the status being of the branch. -/
def loadGrants (db : Db) (roles : List Int) (branch : Cell) : List (Int × GrantMap) :=
  let live := db.grants.filter fun g =>
    g.isAny .grants "role_id" (roles.map .int) && g.is .grants "branch_id" branch &&
    db.roles.any (fun r => (r.get "id").sqlEq (g.get "role_id") && r.isOpen .roles) &&
    db.branches.any (fun b => (b.get "id").sqlEq (g.get "branch_id") && b.isOpen .branches) &&
    db.statuses.any (fun s => (s.get "id").sqlEq (g.get "status_id") &&
      s.is .statuses "branch_id" branch && s.isOpen .statuses)
  live.foldl (fun acc g =>
    match g.get "role_id", g.get "status_id" with
    | .int role, .int status =>
      let caps := grantCapabilities g
      if caps.isEmpty then acc
      else
        let mine := (acc.lookup role).getD []
        setEntry acc role (setEntry mine status (caps.map fun c => .str c.name))
    | _, _ => acc) []

/-- Adds one role's grants to merged grants: capabilities of a status are united. -/
def mergeGrants (merged : GrantMap) (g : GrantMap) : GrantMap :=
  g.foldl (fun acc (s, caps) =>
    let old := (acc.lookup s).getD []
    setEntry acc s (caps.foldl addMember old)) merged

/-- The generation counter of a branch: nothing without a usable cache. -/
def generation (branch : Value) : Txn (Option Int) :=
  Txn.cacheRead none (Cache.counter · (.str (generationKey branch)))

/-- Cached grants of roles under a generation; an entry that is not an object is a miss. -/
def cachedGrants (branch : Value) (roles : List Int) (gen : Int) :
    Txn (List (Option GrantMap)) := do
  let found ← Txn.cacheRead (roles.map fun _ => none)
    (Cache.getMany · (roles.map fun r => .str (grantKey branch r gen)))
  found.mapM fun
    | some (.obj fields) => Txn.lift ((decodeGrants fields []).map some)
    | _ => pure none

/-- Caches one role's grants under a generation. -/
def cacheGrants (branch : Value) (role gen : Int) (g : GrantMap) : Txn Unit := do
  let _ ← Txn.cachePut (.str (grantKey branch role gen)) (encodeGrants g) (.int grantTtl)

/-- The roles a resolver works with: the items of the value as given (characters of a text,
keys of an object), each converted to an integer, sorted without repeats. -/
def roleSet (roles : Value) : Txn (List Int) := do
  return sortedInts (← Txn.lift ((← Txn.lift roles.iterate).mapM wholeOf))

/-- Grants of the roles the cache did not have, from the database; nothing is asked of it
when the cache had them all. -/
def loadMissing (branch : Value) (missing : List Int) : Txn (List (Int × GrantMap)) :=
  if missing.isEmpty then pure [] else do
    let _ ← Txn.params (missing.map .int)
    let cell ← Txn.param branch
    pure (loadGrants (← Txn.query) missing cell)

/-- The merged grants of an actor's roles in a branch: cached entries where the cache has
them, the database for the rest (which are then cached). -/
def grantsFor (roles branch : Value) : Txn GrantMap := do
  let roles ← roleSet roles
  let gen ← if roles.isEmpty then pure none else generation branch
  let cached ← match gen with
    | some g => cachedGrants branch roles g
    | none => pure (roles.map fun _ => none)
  let pairs := roles.zip cached
  let missing := (pairs.filter (·.2.isNone)).map (·.1)
  let loaded ← loadMissing branch missing
  let perRole ← pairs.mapM fun (r, c) => do
    match c with
    | some g => pure g
    | none =>
      let g := (loaded.lookup r).getD []
      if let some n := gen then cacheGrants branch r n g
      pure g
  pure (perRole.foldl mergeGrants [])

/-- The capabilities of a status in merged grants, looked up as a map key. -/
def capsAt (g : GrantMap) (status : Value) : List Value :=
  match g.find? (fun e => (Value.int e.1).sameMember status) with
  | some e => e.2
  | none => []

/-- The capabilities an actor's roles hold at a status of a branch; none at a status that is
missing, deleted or of another branch. -/
def resolve (roles branch status : Value) : Txn (List Value) := do
  let cell ← Txn.param status
  let db ← Txn.query
  match db.statuses.find? (fun s => s.is .statuses "id" cell) with
  | some s =>
    let owner ← Txn.read .statuses s "branch_id"
    if owner.same branch && s.text "status" == openState then
      pure (capsAt (← grantsFor roles branch) status)
    else pure []
  | none => pure []

/-- Refuses roles that lack a capability at a status. The capability must be able to be a
member of a set; it and the location are reported as given. -/
def demand (roles branch status capability location : Value) : Txn Unit := do
  let caps ← resolve roles branch status
  Txn.lift capability.requireKey
  if !capability.memSame caps then
    let message := "Permission denied: " ++ capability.display
    let details := [("capability", capability), ("status_id", status)]
    throw (.domain { kind := .forbidden, message, location, details })

/-- Refuses an actor whose roles lack the capability at the status. -/
def authorize (roles : List Value) (branch status : Value) (capability : String)
    (location : Option String) : Txn Unit :=
  demand (.arr roles) branch status (.str capability) (locationValue location)

/-- The statuses at which the roles may view orders: open ones, by sort and then id. -/
def viewable (roles branch : Value) : Txn (List Int) := do
  let g ← grantsFor roles branch
  let ids := (g.filter fun (_, caps) => (Value.str Capability.view.name).memSame caps).map (·.1)
  if ids.isEmpty then return []
  let db ← Txn.query
  let shown := db.statuses.filter fun s => s.isAny .statuses "id" (ids.map .int) && s.isOpen .statuses
  let ordered := shown.mergeSort fun a b =>
    match (a.get "sort").compare (b.get "sort") with
    | .lt => true
    | .gt => false
    | .eq => a.id ≤ b.id
  return ordered.map (·.id)

end RepairShop.Access
