import RepairShop.Error

/-!
Ordering of scalar values as lists of capability names are sorted: texts by code point,
numbers (booleans counting as 0 and 1) by value. Two values of kinds that have no common
order cannot be sorted together, which is a fault naming both kinds.

`sortWith` sorts by a comparison that may fail, asking it the very questions a stable
insertion sort asks: it first takes the longest run at the front that is ascending, or
strictly descending (and then reversed), and inserts each later item by binary search, always
asking whether the new item is less than one already placed. So when two items cannot be
compared, the fault names the later one first.
-/

namespace RepairShop.Json

/-- The sort class of a scalar: texts, numbers, or neither. -/
def Value.sortClass : Value → Nat
  | .str _ | .unpaired _ => 1
  | .int _ | .float _ | .bool _ => 2
  | _ => 0

/-- `a` sorts before or with `b`; only called on values of one sort class. -/
def Value.sortsBefore (a b : Value) : Bool :=
  match a, b with
  | .str x, .str y => decide (x ≤ y)
  | _, _ =>
    match a.points?, b.points?, a.num?, b.num? with
    | some x, some y, _, _ => Value.comparePoints x y != .gt
    | _, _, some x, some y => x.compare? y != some .gt
    | _, _, _, _ => true

/-- Sorts scalars of one class; mixing classes, or a value of no class, is a fault. -/
def sortValues (vs : List Value) : Result (List Value) :=
  match vs with
  | [] => pure []
  | first :: rest =>
    match rest.find? (fun v => v.sortClass != first.sortClass || v.sortClass == 0) with
    | some v => .error (.fault (.unordered "<" v first))
    | none =>
      if first.sortClass == 0 && !rest.isEmpty then .error (.fault (.unordered "<" first first))
      else pure (vs.mergeSort Value.sortsBefore)

/-- Whether `a < b` for two values of one sort class; values of kinds without a common
order cannot be compared. -/
def Value.lessThan (a b : Value) : Result Bool :=
  match a, b with
  | .str x, .str y => pure (decide (x < y))
  | _, _ =>
    match a.points?, b.points?, a.num?, b.num? with
    | some x, some y, _, _ => pure (Value.comparePoints x y == .lt)
    | _, _, some x, some y => pure (x.compare? y == some .lt)
    | _, _, _, _ => .error (.fault (.unordered "<" a b))

/-- The length of the run at the front of a list after its first item `prev`, and the run
itself in reverse: items while `lt item prev` holds (`falling`) or fails. -/
def runFrom {α : Type} (lt : α → α → Result Bool) (falling : Bool) (prev : α) :
    List α → List α → Result (List α × List α)
  | [], acc => pure (acc, [])
  | x :: rest, acc => do
    if (← lt x prev) == falling then runFrom lt falling x rest (x :: acc)
    else pure (acc, x :: rest)

/-- Where a pivot goes among sorted items `placed[lo, hi)`: after every item it is not less
than, found by halving. -/
def insertionPoint {α : Type} (lt : α → α → Result Bool) (placed : Array α) (pivot : α) :
    Nat → Nat → Nat → Result Nat
  | 0, lo, _ => pure lo
  | fuel + 1, lo, hi =>
    if lo < hi then do
      let p := lo + (hi - lo) / 2
      if ← lt pivot (placed.getD p pivot) then insertionPoint lt placed pivot fuel lo p
      else insertionPoint lt placed pivot fuel (p + 1) hi
    else pure lo

/-- Inserts items one by one into a sorted array by binary search. -/
def insertAll {α : Type} (lt : α → α → Result Bool) : Array α → List α → Result (Array α)
  | placed, [] => pure placed
  | placed, x :: rest => do
    let at_ ← insertionPoint lt placed x (placed.size + 1) 0 placed.size
    insertAll lt (placed.insertIdxIfInBounds at_ x) rest

/-- Sorts stably by a comparison that may fail (see the module comment). -/
def sortWith {α : Type} (lt : α → α → Result Bool) : List α → Result (List α)
  | [] => pure []
  | [x] => pure [x]
  | x :: y :: rest => do
    let falling ← lt y x
    let (run, rest) ← runFrom lt falling y rest [y, x]
    -- the run was collected last item first: an ascending run is put back in order
    let run := if falling then run else run.reverse
    return (← insertAll lt run.toArray rest).toList

end RepairShop.Json
