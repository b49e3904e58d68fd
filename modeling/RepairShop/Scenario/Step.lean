import RepairShop.Access.Assign
import RepairShop.Board.Listing
import RepairShop.Scenario.Raw
import RepairShop.Scenario.Web
import RepairShop.Seed
import RepairShop.Status.Flow

/-!
Scenario steps. A scenario builds a world and runs its steps in order, each as one request:
its answer is a value or a failure, a failed step undoes its uncommitted database writes, and
the cache carries over from step to step. A step names its operation under `op`; the
parameters it must have are looked up as keys (a missing one is a missing key), and ids and
other parameters go to the services as given, so the database compares them with its own
conversions, and an integer it cannot hold fails where the first query hands it over. Bodies are read as the routes read them: a falsy body is an
empty object, and any other body that is not an object cannot be asked for its members.
Steps about orders act as account 1 unless they name an actor.
-/

namespace RepairShop.Scenario

open Store Json Script Access Request Orders

/-! ## Raw rows

The rows of the database, table by table in key order, with the columns a reader checks
(times left out), each read as the program reads it: flags as truth values, money and
coordinates as doubles, documents parsed back.
-/

/-- The raw rows of a table by its listing name; an unknown name is a missing key. -/
def dumpTable (what : String) : Txn Value := do
  match TableId.ofListing? what with
  | none => throw (.fault (.missingKey (.str what)))
  | some t =>
    let columns := t.listed.getD []
    let rows ← ((← Txn.query).rows t).mapM fun r => do
      return Value.obj (← columns.mapM fun c => do return (c, ← Txn.read t r c))
    pure (.arr rows)

/-! ## Steps -/

/-- A member of a step by name (`null` when absent); a step that is not an object has no
named members. -/
def stepField (step : Value) (key : String) : Result Value :=
  match step with
  | .obj _ => pure (step.field key)
  | v => throw (.fault (.notKeyed v))

/-- A member a step must have. -/
def requiredField (step : Value) (key : String) : Result Value := do
  let v ← stepField step key
  if step.has key then pure v else throw (.fault (.missingKey (.str key)))

/-- The actor of a step, acting as account 1 when the step names none: an account id acts
with its signed-in roles and branches; an object gives the id (1 when absent) and the items of
its roles and branches (none when absent). -/
def actorOf (step : Value) : Txn Actor := do
  let v := if step.has "actor" then step.field "actor" else .int 1
  match v with
  | .obj _ =>
    let items := fun (key : String) =>
      if v.has key then Txn.lift (v.field key).iterate else pure []
    let roleIds ← items "role_ids"
    let branchIds ← items "branch_ids"
    pure { adminId := if v.has "admin_id" then v.field "admin_id" else .int 1, roleIds, branchIds }
  | v => Actor.ofAdmin v

/-- The body of a step: a falsy one reads as an empty object. -/
def stepBody (step : Value) : Value :=
  let b := step.field "body"
  if b.truthy then b else .obj []

/-- A member of a body (`null` when absent); a body that is not an object cannot be asked for
one. -/
def bodyField (body : Value) (key : String) : Result Value :=
  match body with
  | .obj _ => pure (body.field key)
  | v => throw (.fault (.noAttribute v "get"))

/-- The answer of a change flag. -/
def changed (b : Bool) : Value := .obj [("changed", .bool b)]

/-- Ids as a JSON list. -/
def intsValue (xs : List Int) : Value := .arr (xs.map .int)

/-- The board answer: pages by status, and the window. -/
def boardValue (pages : List (Int × Value)) (w : Board.Window) : Value :=
  .obj [("data", .arr (pages.map fun (s, v) =>
      match v with
      | .obj fields => .obj (("status_id", .int s) :: fields)
      | v => .obj [("status_id", .int s), ("value", v)])),
    ("pagination", .obj [("page", .int w.page), ("limit", .int w.limit)])]

/-- The parameters of the cache store's calls that take a fixed number of arguments. -/
def storeParams : List (String × List String) :=
  [("get", ["key"]), ("set", ["key", "value", "ttl_seconds"]), ("counter", ["key"]),
    ("incr", ["key"]), ("delete_matching", ["pattern"]), ("delete_prefix", ["prefix"]),
    ("build_key", ["key"])]

/-- Runs one cache store call on the server directly. -/
def storeCall (call : String) (args : List Value) : Txn Value := do
  match storeParams.lookup call with
  | some params =>
    if params.length != args.length then
      throw (.fault (.wrongArguments ("CacheStore." ++ call) params args.length))
  | none =>
    if call != "mget" && call != "delete" then throw (.fault (.noMember "CacheStore" call))
  let s ← get
  let kv := s.kv
  let arg := fun (i : Nat) => args.getD i .null
  let setKv := fun (kv : Cache.Kv) => set { s with kv }
  match call with
  | "get" => return (← Txn.lift (Cache.get kv (arg 0))).getD .null
  | "set" =>
    let (ok, kv) := Cache.put kv (arg 0) (args.getD 1 .null) (args.getD 2 .null)
    setKv kv; pure (.bool ok)
  | "mget" => return .arr ((← Txn.lift (Cache.getMany kv args)).map (·.getD .null))
  | "counter" => return optValue .int (← Txn.lift (Cache.counter kv (arg 0)))
  | "incr" =>
    let (n, kv) ← Txn.lift (Cache.incr kv (arg 0))
    setKv kv; pure (optValue .int n)
  | "delete" =>
    let (n, kv) := Cache.delete kv args
    setKv kv; pure (.int n)
  | "delete_matching" =>
    let (n, kv) ← Txn.lift (Cache.deleteMatching kv (arg 0))
    setKv kv; pure (.int n)
  | "delete_prefix" =>
    let (n, kv) ← Txn.lift (Cache.deletePrefix kv (arg 0))
    setKv kv; pure (.int n)
  | _ => pure (Cache.fullKey (arg 0))

/-- The sorted capability values of a set. -/
def sortedCaps (caps : List Value) : Txn Value := do
  pure (.arr (← Txn.lift (sortValues caps)))

/-- Runs the seed: a dry run is rolled back, any other run is committed and then, when asked,
prints the grant summary of the branch. -/
def seedStep (step : Value) : Txn Value := do
  let name := match step.field "branch_name" with
    | .null => Value.str "Main"
    | v => v
  let dry := (step.field "dry_run").truthy
  let (c, notes) ← if dry then do
      let start := (← get).db
      let r ← Seed.seedWorkflow name
      modify fun s => { s with db := start, waiting := none }
      pure r
    else Txn.atomically (Seed.seedWorkflow name)
  let summary ← if !dry && (step.field "show_grants").truthy then Seed.grantSummary c.branchId
    else pure []
  pure (.obj [("permissions", .int c.permissions), ("roles", .int c.roles),
    ("transitions", .int c.transitions), ("grants", .int c.grants),
    ("branch_id", .int c.branchId), ("printed", .arr ((notes ++ summary).map .str))])

/-- Runs one step that is about orders. -/
def orderStep (op : String) (step : Value) (actor : Actor) : Txn Value := do
  let body := stepBody step
  let member := fun (key : String) => Txn.lift (bodyField body key)
  let id ← if op == "create_order" || op == "list_orders" then pure .null
    else Txn.lift (requiredField step "order_id")
  match op with
  | "create_order" =>
    let branch ← Txn.lift (requireId (← member "branch_id") "branch_id")
    let req ← Txn.lift (newOrder body)
    createOrder actor branch req
  | "update_order" =>
    let req ← Txn.lift (orderChange (step.field "body"))
    orderValue (← updateOrder actor id req)
  | "move_order" =>
    let status ← Txn.lift (requireId (← member "status_id") "status_id")
    let sort ← match ← member "sort" with
      | .null => pure none
      | s => some <$> Txn.lift (requireId s "sort")
    orderValue (← moveOrder actor id status sort)
  | "delete_order" => orderValue (← deleteOrder actor id)
  | "get_order" => orderDetail actor id
  | "history" => return .arr (← orderTrail actor id)
  | "list_orders" =>
    let branch ← Txn.lift (requireId (step.field "branch_id") "branch_id")
    let w ← Txn.lift (Board.Window.ofRaw (step.field "page") (step.field "limit"))
    let sortBy := if step.has "sort_by" then step.field "sort_by" else .str "sort"
    let sortOrder := if step.has "sort_order" then step.field "sort_order" else .str "asc"
    let pages ← Board.listBoard actor (.int branch) w sortBy sortOrder
      sortBy.display sortOrder.display
    return boardValue pages w
  | "assign_admins" =>
    let ids ← Txn.lift (adminIdsField (← member "admin_ids") "admin_ids")
    return changed (← assignStaff actor id ids)
  | "remove_admins" =>
    let ids ← Txn.lift (adminIdsField (← member "admin_ids") "admin_ids")
    return changed (← unassignStaff actor id ids)
  | "set_initial_problems" =>
    let lines ← Txn.lift (problemsField (← member "problems") "initial_problems")
    return changed (← setProblems actor .initial id lines)
  | "set_final_problems" =>
    let lines ← Txn.lift (problemsField (← member "problems") "final_problems")
    return changed (← setProblems actor .final id lines)
  | "add_comment" =>
    let text ← Txn.lift (commentText (← member "text"))
    addComment actor id text
  | "update_comment" =>
    let comment ← Txn.lift (requiredField step "comment_id")
    let text ← Txn.lift (commentText (← member "text"))
    commentValue (← updateComment actor id comment text)
  | "delete_comment" =>
    let comment ← Txn.lift (requiredField step "comment_id")
    removeComment actor id comment
    return .obj [("id", comment), ("deleted", .bool true)]
  | "set_pickup" | "set_delivery" =>
    let (kind, key) := if op == "set_pickup" then (PlaceKind.pickup, "pickup")
      else (PlaceKind.delivery, "delivery")
    if !(← Txn.lift (body.contains (.str key))) then
      throw (badRequest (key ++ " required") (some key))
    let place ← Txn.lift (placeField (← Txn.lift (stepField body key)) key)
    return changed (← setPlace actor kind id place)
  | "create_rental" | "update_rental" =>
    match ← Txn.lift (rentalField body "rental_phone") with
    | some req =>
      if op == "create_rental" then return (← openRental actor id req).answer
      else return (← changeOrderRental actor id req).answer
    | none => return .null
  | "cancel_rental" => return (← closeRental actor id).answer
  | "set_rental" =>
    let req ← Txn.lift (rentalField (← member "rental_phone") "rental_phone")
    return changed (← setRental actor id req)
  | other => throw (.fault (.unknownCall other))

/-- A list member of a body, refused when it is not a list. -/
def listMember (body : Value) (key : String) : Txn (List Value) := do
  match ← Txn.lift (bodyField body key) with
  | .arr items => pure items
  | _ => throw (badRequest (key ++ " must be an array") (some key))

/-- The table a raw write names: a text naming one of `rawTables`; any other key is missing. -/
def rawTable (v : Value) : Result TableId := do
  v.requireKey
  match v with
  | .str name =>
    match (TableId.ofKey? name).filter rawTables.contains with
    | some t => pure t
    | none => throw (.fault (.missingKey v))
  | v => throw (.fault (.missingKey v))

/-- Runs one step of a scenario. -/
def runStep (step : Value) : Txn Value := do
  let op ← match ← Txn.lift (requiredField step "op") with
    | .str op => pure op
    | v => throw (.fault (.unknownCall v.display))
  let need := fun (key : String) => Txn.lift (requiredField step key)
  match op with
  | "assign_permissions" =>
    let b := stepBody step
    let role ← Txn.lift (requireId (← Txn.lift (bodyField b "role_id")) "role_id")
    let branch ← Txn.lift (requireId (← Txn.lift (bodyField b "branch_id")) "branch_id")
    let items ← listMember b "status_ids"
    let caps ← match ← Txn.lift (bodyField b "capabilities") with
      | .obj fields => pure fields
      | v =>
        if v.truthy then throw (badRequest "capabilities must be an object" (some "capabilities"))
        else pure []
    let statusIds ← Txn.lift (items.mapM (requireId · "status_ids"))
    return .arr (← (← assign role branch (statusIds.map Int.ofNat) caps).mapM grantSummary)
  | "revoke_role" => return .obj [("removed", .int (← revokeRole (← need "role_id")))]
  | "revoke_status" => return .obj [("removed", .int (← revokeStatus (← need "status_id")))]
  | "revoke_branch" => return .obj [("removed", .int (← revokeBranch (← need "branch_id")))]
  | "resolve" =>
    let roles ← need "role_ids"
    let branch ← need "branch_id"
    sortedCaps (← resolve roles branch (← need "status_id"))
  | "authorize" =>
    let roles ← need "role_ids"
    let branch ← need "branch_id"
    let status ← need "status_id"
    demand roles branch status (← need "capability") (step.field "location")
    return .bool true
  | "grants" =>
    let roles ← need "role_ids"
    let g ← grantsFor roles (← need "branch_id")
    let entries ← g.mapM fun (s, caps) => do return (toString s, ← sortedCaps caps)
    return .obj entries
  | "viewable" =>
    let roles ← need "role_ids"
    return intsValue (← viewable roles (← need "branch_id"))
  | "replace_transitions" =>
    let source ← need "status_id"
    let items ← listMember (stepBody step) "to_status_ids"
    let targets ← Txn.lift (items.mapM (requireId · "to_status_ids"))
    return .arr (← Status.replaceMoves source (targets.map Int.ofNat))
  | "list_transitions" =>
    return .arr (← (← Status.listMoves (← need "status_id")).mapM Status.transitionValue)
  | "transition_check" =>
    let branch ← need "branch_id"
    let current ← need "current"
    Status.checkMove branch current (← need "target")
    return .bool true
  | "initial_status" => initialStatus (← need "branch_id")
  | "login" => claims (← need "admin_id")
  | "seed" => seedStep step
  | "http" => webStep step
  | "set" =>
    let t ← Txn.lift (rawTable (← need "table"))
    let id ← need "id"
    let values ← match ← need "values" with
      | .obj fields => pure fields
      | v => throw (.fault (.notMapping v))
    Txn.atomically (setColumns t id values)
    return .bool true
  | "cache_put" =>
    let raw ← need "raw"
    let s ← get
    if !s.kv.online then throw (.fault .storeOffline)
    let key ← need "key"
    Txn.lift key.requireKey
    set { s with kv := s.kv.write key raw none }
    return .bool true
  | "store" => storeCall (textOr (step.field "call") "") (itemsOf (step.field "args"))
  | "dump" =>
    match ← need "what" with
    | .str "cache" => Txn.lift (Cache.contents (← get).kv)
    | .str what => dumpTable what
    | v => do Txn.lift v.requireKey; throw (.fault (.missingKey v))
  | op => orderStep op step (← actorOf step)

/-- How a scenario ended: its world refused, or the answers of its steps. -/
inductive Outcome where
  | refusedWorld (f : Failure)
  | failed (f : Failure)
  | answers (steps : List (Result Value))

/-- Runs one step as a request: it starts with no write held and no sweep pending, on the
database as it stands, and a failed step leaves the database as it was last committed, while
the cache keeps what the step wrote. -/
def request (step : Value) (s : Session) : Result Value × Session :=
  match runStep step { s with waiting := none, sweeps := [], settled := s.db } with
  | .ok v s' => (.ok v, s')
  | .error e s' => (.error e, { s' with db := s'.settled })

/-- Runs steps in order from a session, each as one request. -/
def runSteps : List Value → Session → List (Result Value)
  | [], _ => []
  | step :: rest, s =>
    let (r, s') := request step s
    r :: runSteps rest s'

/-- Runs a scenario: builds its world, picks its cache, runs its steps. -/
def runScenario (input : Value) : Outcome :=
  let world := if input.has "world" then input.field "world" else .obj [("base", .str "default")]
  match build world with
  | .error f => .refusedWorld f
  | .ok db =>
    let mode := textOr (input.field "cache") "fake"
    let session : Session :=
      { db, kv := { online := mode != "broken" }, wired := mode != "none" }
    match (if input.has "steps" then input.field "steps" else .arr []).iterate with
    | .error f => .failed f
    | .ok steps => .answers (runSteps steps session)

end RepairShop.Scenario
