import RepairShop.Request.Order
import RepairShop.Board.Page
import RepairShop.Board.Sort
import RepairShop.Audit.Canonical
import RepairShop.Catalog.Tree
import RepairShop.Status.Flow
import RepairShop.Rental.Pricing
import RepairShop.Access.Capability
import RepairShop.Json.Write
import RepairShop.Json.Collection

/-!
Single-rule checks: each takes the arguments of one rule of the library as a JSON object and
answers with the rule's result as a value. They cover the request parsers and snapshots,
board pages and sort keys, the canonical audit form, the category walk, the transition
check, the pricing rule, presets and the constants of the access model.
-/

namespace RepairShop.Script

open Json Request

/-- An integer of a value, when it is one. -/
def intValue? : Value → Option Int
  | .int n => some n
  | .bool b => some (if b then 1 else 0)
  | .float x => if Number.isIntegral x then Number.truncate? x else none
  | .str s => Text.readInt? s
  | _ => none

/-- The items of a list value, `[]` for anything else. -/
def itemsOf : Value → List Value
  | .arr items => items
  | _ => []

/-- A text argument, when it is one. -/
def textOf? : Value → Option String
  | .str s => some s
  | _ => none

/-- Sets the parent of `c`, in place when `c` already has one. -/
def putParent (links : Catalog.ParentMap Value) (c : Int) (p : Option Int) :
    Catalog.ParentMap Value :=
  if links.any (·.1.same (.int c)) then
    links.map fun e => if e.1.same (.int c) then (.int c, p.map .int) else e
  else links ++ [(.int c, p.map .int)]

/-- Parent links of a JSON object from category id texts to parents, both made integers as
`wholeOf` makes them (a `null` parent stays a root); of two texts naming the same id, the
later one counts. -/
def parentsOf (v : Value) : Result (Catalog.ParentMap Value) :=
  match v with
  | .obj fields => fields.foldlM (fun links (k, p) => do
      let c ← numeralOf k
      let parent ← if p.isNull then pure none else some <$> wholeOf p
      pure (putParent links c parent)) []
  | _ => throw (.fault (.noAttribute v "items"))

/-- The items of a value given as categories; each must be able to be a key. -/
def categoriesOf (v : Value) : Result (List Value) := do
  let items ← v.iterate
  items.forM Value.requireKey
  pure items

/-- The compared form of one problem, read as the first line of a problem list at `p`. -/
def problemSnapshot (v : Value) : Result Value := do
  match ← problemsField (.arr [v]) "p" with
  | p :: _ => pure p.snapshot
  | [] => pure .null

/-- The compared form of a place read at `pickup`; an absent place has none. -/
def placeSnapshot (v : Value) : Result Value := do
  match ← placeField v "pickup" with
  | some p => pure p.toValue
  | none => throw (.fault (.noAttribute .null "snapshot"))

/-- A location argument or its default. -/
def locationOr (args : Value) (default : String) : String :=
  (textOf? (args.field "location")).getD default

/-- Runs one request parser named by `fn`. -/
def parseCheck (args : Value) : Result Value := do
  let v := args.field "value"
  match textOf? (args.field "fn") with
  | some "id" => (fun (n : Nat) => Value.int n) <$> requireId v (locationOr args "id")
  | some "text" => textField v (locationOr args "text") 1000 false
  | some "priority" => (fun p => Value.str p.name) <$> priorityField v
  | some "admin_ids" =>
    (fun ids => Value.arr (ids.map fun (n : Nat) => .int n)) <$> adminIdsField v (locationOr args "admin_ids")
  | some "parts" => (fun ps => Value.arr (ps.map PartLine.toValue)) <$> partsField v (locationOr args "parts")
  | some "problems" =>
    (fun ps => Value.arr (ps.map ProblemLine.toValue)) <$> problemsField v (locationOr args "initial_problems")
  | some "comments" =>
    (fun cs => Value.arr (cs.map fun t => .obj [("text", t)])) <$> commentsField v (locationOr args "comments")
  | some "location" => optValue Place.toValue <$> placeField v (locationOr args "pickup")
  | some "rental" => optValue RentalRequest.toValue <$> rentalField v (locationOr args "rental_phone")
  | some "order_create" => NewOrder.toValue <$> newOrder v
  | some "order_update" => OrderChange.toValue <$> orderChange v
  | _ => throw (badRequest "unknown parser" none)

/-- Board window of raw page and limit, with the page of `rows` when given. -/
def paginationCheck (args : Value) : Result Value := do
  let w ← Board.Window.ofRaw (args.field "page") (args.field "limit")
  let base := [("page", Value.int w.page), ("limit", .int w.limit), ("offset", .int w.offset)]
  match args.get? "rows" with
  | some rows => pure (.obj (base ++ [("slice", .arr (w.slice (itemsOf rows)))]))
  | none => pure (.obj base)

/-- Sort keys of `sort_by` and `sort_order`. -/
def sortCheck (args : Value) : Result Value := do
  let specs ← Board.parseSort Board.boardKeys (args.field "sort_by") (args.field "sort_order")
  pure (.arr (specs.map fun s => .arr [.str s.key, .bool s.desc]))

/-- The walk up from a category. -/
def ancestorsCheck (args : Value) : Result Value := do
  let parents ← parentsOf (args.field "parents")
  let start := args.field "id"
  if start.isNull then return .arr []
  start.requireKey
  match @Catalog.ancestors Value Value.keyEq parents start with
  | .chain ids => pure (.arr ids)
  | .cycle c => throw (.fault (.cycle c))

/-- Submitted categories that no mapped category reaches. -/
def unreachableCheck (args : Value) : Result Value := do
  let parents ← parentsOf (args.field "parents")
  let mapped ← categoriesOf (args.field "mapped")
  let ids ← categoriesOf (args.field "ids")
  pure (.arr (@Catalog.findUnreachable Value Value.keyEq ids mapped parents))

/-- Submitted categories missing from the parent links. -/
def inactiveCheck (args : Value) : Result Value := do
  let parents ← parentsOf (args.field "parents")
  let ids ← categoriesOf (args.field "ids")
  pure (.arr (@Catalog.findInactive Value Value.keyEq ids parents))

/-- The transition check over explicit edges: each edge unpacks into its two ends, and the
field the change is asked through defaults to `status_id`. -/
def transitionCheck (args : Value) : Result Value := do
  let edges ← (← (args.field "edges").iterate).mapM fun e => do
    let (a, b) ← e.pair
    a.requireKey
    b.requireKey
    pure (a, b)
  let field := (args.get? "field_name").getD (.str "status_id")
  let current := args.field "current"
  let target := args.field "target"
  current.requireKey
  target.requireKey
  if @Status.canMove Value Value.keyEq edges current target then
    pure (.obj [("can", .bool true), ("assert", .bool true)])
  else throw (Status.transitionRefused field current target)

/-- Names as values. -/
def namesValue (xs : List String) : Value := .arr (xs.map .str)

/-- The capabilities a preset value names, as membership in it decides. -/
def presetOf (codes : Value) : Result CapSet := do
  let star ← codes.contains (.str "*")
  let names := fun (c : String) => star ||
    match codes.contains (.str c) with
    | .ok b => b
    | .error _ => false
  pure (expandPresetBy names)

/-- The capability names a preset value names, in the fixed order. -/
def presetCheck (codes : Value) : Result Value := do
  pure (namesValue ((← presetOf codes).map Capability.name))

/-- The constants of the access model. -/
def constantsCheck : Value :=
  .obj [("all_capabilities", namesValue (Capability.all.map Capability.name)),
        ("permission_codes", namesValue permissionCodes),
        ("presets", .obj (rolePresets.map fun (n, cs) => (n, namesValue ((expandPreset cs).map Capability.name))))]

/-- Answers a single-rule check named by `op`. -/
def check (op : String) (args : Value) : Result Value :=
  match op with
  | "parse" => parseCheck args
  | "problem_snapshot" => problemSnapshot (args.field "value")
  | "location_snapshot" => placeSnapshot (args.field "value")
  | "pagination" => paginationCheck args
  | "parse_sort" => sortCheck args
  | "canonical" => (fun v => Value.obj [("canonical", v)]) <$> Audit.canonical (args.field "value")
  | "values_differ" => Value.bool <$> Audit.valuesDiffer (args.field "old") (args.field "new")
  | "check_pricing" =>
    (fun p => Value.obj [("price", p)]) <$> Rental.checkPricing (args.field "is_free") (args.field "price")
  | "ancestors" => ancestorsCheck args
  | "find_unreachable" => unreachableCheck args
  | "find_inactive" => inactiveCheck args
  | "fsm" => transitionCheck args
  | "expand_preset" => presetCheck (args.field "codes")
  | "constants" => pure constantsCheck
  | "validate_choice" => do
    let allowed ← (args.field "allowed").iterate
    Request.choiceAt (args.field "value") allowed ((args.get? "field_name").getD (.str "value"))
  | _ => throw (badRequest s!"unknown op {op}" none)

end RepairShop.Script
