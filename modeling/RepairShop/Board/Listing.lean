import RepairShop.Board.Page
import RepairShop.Board.Sort
import RepairShop.Orders.Service

/-!
The board: for every status the actor may view in a branch (by status sort, then id), the
number of open orders at that status and one page of them. Orders are sorted by the chosen
keys and then by id; creation and update times count as equal, so they leave the order to
the keys after them. Each status's page is cached for five minutes under
`repair_orders:{branch}:{admin}:{status}:{sort_by}:{sort_order}:{page}:{limit}`, with the
sort texts as the request gave them; any write to the branch's orders drops them all.
-/

namespace RepairShop.Board

open Store Json Access Orders

/-- How long a board page is cached, in seconds. -/
def pageTtl : Nat := 300

/-- The cache key of one board page. -/
def pageKey (branch admin : Value) (status : Int) (sortBy sortOrder : String) (w : Window) :
    String :=
  "repair_orders:" ++ branch.display ++ ":" ++ admin.display ++ ":" ++ toString status ++ ":" ++
    sortBy ++ ":" ++ sortOrder ++ ":" ++ toString w.page ++ ":" ++ toString w.limit

/-- The stored value of an order under a sort key; times count as equal. -/
def sortCell (key : String) (o : Row) : Cell :=
  if key == "sort" || key == "priority_level" then o.get key else .null

/-- `a` comes before or with `b` under the keys, then by id. -/
def orderBefore (specs : List SortSpec) (a b : Row) : Bool :=
  match specs with
  | [] => a.id ≤ b.id
  | s :: rest =>
    match (sortCell s.key a).compare (sortCell s.key b) with
    | .eq => orderBefore rest a b
    | .lt => !s.desc
    | .gt => s.desc

/-- One status's page: the total and the orders of the window. -/
def pageValue (w : Window) (rows : List Row) : Txn Value := do
  let shown ← (w.slice rows).mapM fun o => orderValue o.id
  pure (.obj [("total", .int rows.length), ("orders", .arr shown)])

/-- The board of a branch for an actor: pages by viewable status, cached ones as cached. -/
def listBoard (actor : Actor) (branch : Value) (w : Window) (sortBy : Value)
    (sortOrder : Value) (sortByText sortOrderText : String) : Txn (List (Int × Value)) := do
  Txn.lift (assertBranchAccess actor branch)
  let specs ← Txn.lift (parseSort boardKeys sortBy sortOrder)
  let statuses ← viewable (.arr actor.roleIds) branch
  if statuses.isEmpty then return []
  let key := fun s => Value.str (pageKey branch actor.adminId s sortByText sortOrderText w)
  let found ← Txn.cacheRead (statuses.map fun _ => none) (Cache.getMany · (statuses.map key))
  let pairs := statuses.zip found
  let missing := (pairs.filter (·.2.isNone)).map (·.1)
  let rows ← if missing.isEmpty then pure [] else do
    let cell ← Txn.param branch
    let db ← Txn.query
    pure ((db.orders.filter fun o =>
        o.is .orders "branch_id" cell && o.isOpen .orders &&
          o.isAny .orders "status_id" (missing.map .int)).mergeSort (orderBefore specs))
  pairs.mapM fun (s, c) => do
    match c with
    | some v => pure (s, v)
    | none =>
      let v ← pageValue w (rows.filter fun o => (o.get "status_id").sqlEq (.int s))
      let _ ← Txn.cachePut (key s) v (.int pageTtl)
      pure (s, v)

end RepairShop.Board
