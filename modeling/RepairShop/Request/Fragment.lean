import RepairShop.Request.Field

/-!
Typed fragments of an order request: priority, parts and problem lines, comments, a place
(pickup or delivery address), a rental request and the list of assigned admins. Each parser
reports the first offending field by its dotted location (`final_problems[1].parts[0].id`),
reading fields in a fixed order. `toValue` gives the object form of a fragment and
`snapshot` the form that is compared and logged: parts sorted by id, amounts as doubles.
-/

namespace RepairShop.Request

open Json

/-- Urgency of an order; its level orders the board. -/
inductive Priority where
  | low
  | medium
  | high
  | highest
  deriving DecidableEq, Repr

namespace Priority

/-- All priorities, least urgent first. -/
def all : List Priority := [.low, .medium, .high, .highest]

/-- The name of a priority. -/
def name : Priority → String
  | .low => "Low"
  | .medium => "Medium"
  | .high => "High"
  | .highest => "Highest"

/-- The level of a priority, 1 to 4. -/
def level : Priority → Nat
  | .low => 1
  | .medium => 2
  | .high => 3
  | .highest => 4

/-- The priority of a name. -/
def ofName? (s : String) : Option Priority :=
  all.find? (·.name == s)

end Priority

/-- A priority field (`priority` by default). -/
def priorityField (v : Value) : Result Priority := do
  let allowed := Priority.all.map (Value.str ·.name)
  match ← choice v allowed "priority" with
  | .str s => match Priority.ofName? s with
    | some p => pure p
    | none => throw (badRequest "priority invalid" (some "priority") [("allowed", .arr allowed)])
  | _ => throw (badRequest "priority invalid" (some "priority") [("allowed", .arr allowed)])

/-- A part used for a problem. -/
structure PartLine where
  partId : Nat
  price : Float
  quantity : Nat

/-- A problem found on the device, with its price, time and parts. -/
structure ProblemLine where
  categoryId : Nat
  price : Float
  minutes : Nat
  parts : List PartLine

/-- An address with an optional courier. -/
structure Place where
  lat : Float
  long : Float
  description : Value
  courierId : Option Nat

/-- Currencies of a rental price. -/
inductive Currency where
  | uzs
  | usd
  | eur
  deriving DecidableEq, Repr

namespace Currency

/-- All currencies, in the order refusals list them. -/
def all : List Currency := [.uzs, .usd, .eur]

/-- The code of a currency. -/
def code : Currency → String
  | .uzs => "UZS"
  | .usd => "USD"
  | .eur => "EUR"

/-- The currency of a code. -/
def ofCode? (s : String) : Option Currency :=
  all.find? (·.code == s)

end Currency

/-- A rental phone to hand out or to change. -/
structure RentalRequest where
  deviceId : Nat
  isFree : Option Bool
  price : Option Float
  currency : Option Currency
  notes : Option Value

/-- Items of a list paired with their positions. -/
def indexed {α : Type} (xs : List α) : List (Nat × α) :=
  (List.range xs.length).zip xs

/-- The items of a list read one by one, each at its indexed location (`loc[2]`). -/
def itemsField {α : Type} (read : Value → String → Result α) (v : Value) (loc : String) :
    Result (List α) := do
  let items ← listField v loc
  (indexed items).mapM fun (i, item) => read item s!"{loc}[{i}]"

/-- One part of a problem; the quantity is one unless sent. -/
def partLine (item : Value) (at_ : String) : Result PartLine := do
  let obj := Value.obj (← objectField item at_)
  let partId ← idField (obj.field "id") s!"{at_}.id"
  let price ← numberField (obj.field "part_price") s!"{at_}.part_price" 0
  let quantity ← idField ((obj.get? "quantity").getD (.int 1)) s!"{at_}.quantity"
  pure { partId, price := money price, quantity }

/-- Parts of one problem. -/
def partsField (v : Value) (loc : String) : Result (List PartLine) :=
  itemsField partLine v loc

/-- One problem line; it has no parts unless they are sent. -/
def problemLine (item : Value) (at_ : String) : Result ProblemLine := do
  let obj := Value.obj (← objectField item at_)
  let categoryId ← idField (obj.field "problem_category_id") s!"{at_}.problem_category_id"
  let price ← numberField (obj.field "price") s!"{at_}.price" 0
  let minutes ← natField (obj.field "estimated_minutes") s!"{at_}.estimated_minutes" 0
  let parts ← partsField ((obj.get? "parts").getD (.arr [])) s!"{at_}.parts"
  pure { categoryId, price := money price, minutes, parts }

/-- Problem lines. -/
def problemsField (v : Value) (loc : String) : Result (List ProblemLine) :=
  itemsField problemLine v loc

/-- One comment: an object with a text. -/
def commentLine (item : Value) (at_ : String) : Result Value := do
  let obj := Value.obj (← objectField item at_)
  textField (obj.field "text") s!"{at_}.text" 1000 false

/-- Comment texts (`comments` by default). -/
def commentsField (v : Value) (loc : String) : Result (List Value) :=
  itemsField commentLine v loc

/-- A comment text (`text`). -/
def commentText (v : Value) : Result Value :=
  textField v "text" 1000 false

/-- A place; `null` means none. -/
def placeField (v : Value) (loc : String) : Result (Option Place) := do
  if v.isNull then return none
  let obj := Value.obj (← objectField v loc)
  let lat ← numberField (obj.field "lat") s!"{loc}.lat" (-90)
  let long ← numberField (obj.field "long") s!"{loc}.long" (-180)
  if 90.0 < lat then throw (badRequest "lat out of range" (some s!"{loc}.lat"))
  if 180.0 < long then throw (badRequest "long out of range" (some s!"{loc}.long"))
  let description ← textField (obj.field "description") s!"{loc}.description" 1000 false
  let courier := obj.field "courier_id"
  let courierId ← if courier.isNull then pure none
    else some <$> idField courier s!"{loc}.courier_id"
  pure (some { lat := coordinate lat, long := coordinate long, description, courierId })

/-- A rental request (`rental_phone` by default); `null` means none. -/
def rentalField (v : Value) (loc : String) : Result (Option RentalRequest) := do
  if v.isNull then return none
  let obj := Value.obj (← objectField v loc)
  let isFree ← match obj.field "is_free" with
    | .null => pure none
    | .bool b => pure (some b)
    | _ => throw (badRequest "is_free must be a boolean" (some s!"{loc}.is_free"))
  let price ← match obj.field "price" with
    | .null => pure none
    | p => (some ∘ money) <$> numberField p s!"{loc}.price" 0
  let allowed := Currency.all.map (Value.str ·.code)
  let currency ← match obj.field "currency" with
    | .null => pure none
    | c => do
      let _ ← choice c allowed s!"{loc}.currency"
      match c with
      | .str s => pure (Currency.ofCode? s)
      | _ => pure none
  let notes ← match obj.field "notes" with
    | .null => pure none
    | n => some <$> textField n s!"{loc}.notes" 1000 true
  let deviceId ← idField (obj.field "rental_phone_device_id") s!"{loc}.rental_phone_device_id"
  pure (some { deviceId, isFree, price, currency, notes })

/-- Admin ids without repeats (`admin_ids` by default). -/
def adminIdsField (v : Value) (loc : String) : Result (List Nat) := do
  let items ← listField v loc
  let ids ← items.mapM (idField · loc)
  if ids.eraseDups.length != ids.length then throw (badRequest "Duplicate admin ids" (some loc))
  pure ids

/-- An IMEI: trimmed text of at most 50 characters; `null` means none. -/
def imeiField (v : Value) : Result (Option Value) :=
  if v.isNull then pure none else some <$> textField v "imei" 50 false

namespace PartLine

/-- Object form of a part. -/
def toValue (p : PartLine) : Value :=
  .obj [("id", .int p.partId), ("part_price", .float p.price), ("quantity", .int p.quantity)]

end PartLine

/-- Insertion of `x` into a list sorted by `key`, after the items with an equal key. -/
def insertBy {α : Type} (key : α → Nat) (x : α) : List α → List α
  | [] => [x]
  | y :: ys => if key x < key y then x :: y :: ys else y :: insertBy key x ys

/-- Stable sort by a natural key. -/
def sortBy {α : Type} (key : α → Nat) (xs : List α) : List α :=
  xs.foldl (fun acc x => insertBy key x acc) []

namespace ProblemLine

/-- Object form of a problem line, parts in the order given. -/
def toValue (p : ProblemLine) : Value :=
  .obj [("problem_category_id", .int p.categoryId), ("price", .float p.price),
        ("estimated_minutes", .int p.minutes), ("parts", .arr (p.parts.map PartLine.toValue))]

/-- The compared form of a problem line: parts sorted by id. -/
def snapshot (p : ProblemLine) : Value :=
  .obj [("problem_category_id", .int p.categoryId), ("price", .float p.price),
        ("estimated_minutes", .int p.minutes),
        ("parts", .arr ((sortBy (·.partId) p.parts).map PartLine.toValue))]

end ProblemLine

namespace Place

/-- Object form of a place, which is also its compared form. -/
def toValue (p : Place) : Value :=
  .obj [("lat", .float p.lat), ("long", .float p.long), ("description", p.description),
        ("courier_id", match p.courierId with | some c => .int c | none => .null)]

end Place

/-- An optional value, `null` for none. -/
def optValue {α : Type} (f : α → Value) : Option α → Value
  | some a => f a
  | none => .null

namespace RentalRequest

/-- Object form of a rental request. -/
def toValue (r : RentalRequest) : Value :=
  .obj [("rental_phone_device_id", .int r.deviceId), ("is_free", optValue .bool r.isFree),
        ("price", optValue .float r.price), ("currency", optValue (.str ·.code) r.currency),
        ("notes", r.notes.getD .null)]

end RentalRequest

end RepairShop.Request
