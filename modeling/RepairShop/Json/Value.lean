import RepairShop.Number.Binary

/-!
Dynamic values: the data of request bodies, audit rows and cache entries. Integers and
doubles are kept apart (a numeral with a point or an exponent is a double), objects keep
their members in order with each key once. Two comparisons live here: `Value.same` is the
equality requests and audit rows are judged by, under which `true`, `1` and `1.0` are one
value and a NaN equals nothing outside a collection, and `Value.truthy` says which values
count as empty.
-/

namespace RepairShop.Json

/-- A surrogate code point, U+D800 to U+DFFF: half of a pair in UTF-16 and no character on
its own, so no `String` holds one. -/
def isSurrogate (n : Nat) : Bool := 0xD800 ≤ n && n ≤ 0xDFFF

/-- Code points as a `String`; a surrogate, which a `String` cannot hold, becomes the
replacement character U+FFFD. -/
def pointsString (ps : List Nat) : String :=
  String.ofList (ps.map fun n => if isSurrogate n then '\uFFFD' else Char.ofNat n)

/-- A dynamic value. -/
inductive Value where
  | null
  | bool (b : Bool)
  | int (n : Int)
  | float (x : Float)
  | str (s : String)
  /-- A text that holds a lone surrogate, kept as its code points (a `String` cannot hold it). -/
  | unpaired (points : List Nat)
  | arr (items : List Value)
  | obj (fields : List (String × Value))

instance : Inhabited Value := ⟨.null⟩

namespace Value

/-- The text of these code points: `unpaired` when one of them is a surrogate. -/
def ofPoints (ps : List Nat) : Value :=
  if ps.any isSurrogate then .unpaired ps else .str (String.ofList (ps.map Char.ofNat))

/-- The code points of a text. -/
def points? : Value → Option (List Nat)
  | .str s => some (s.toList.map Char.toNat)
  | .unpaired ps => some ps
  | _ => none

/-- Code points in lexicographic order, as texts are ordered. -/
def comparePoints : List Nat → List Nat → Ordering
  | [], [] => .eq
  | [], _ :: _ => .lt
  | _ :: _, [] => .gt
  | a :: as, b :: bs => if a < b then .lt else if b < a then .gt else comparePoints as bs

/-- The member `key` of an object. -/
def get? : Value → String → Option Value
  | .obj fields, key => fields.lookup key
  | _, _ => none

/-- The member `key` of an object, `null` when absent (a missing member reads as `null`). -/
def field (v : Value) (key : String) : Value :=
  (v.get? key).getD .null

/-- The object has a member `key`. -/
def has (v : Value) (key : String) : Bool :=
  (v.get? key).isSome

/-- The value is `null`. -/
def isNull : Value → Bool
  | .null => true
  | _ => false

/-- The value is an object. -/
def isObj : Value → Bool
  | .obj _ => true
  | _ => false

/-- Empty values: `null`, `false`, zero, the empty text, list and object. -/
def truthy : Value → Bool
  | .null => false
  | .bool b => b
  | .int n => n != 0
  | .float x => x != 0.0
  | .str s => !s.isEmpty
  | .unpaired ps => !ps.isEmpty
  | .arr items => !items.isEmpty
  | .obj fields => !fields.isEmpty

/-- A number, booleans counting as `0` and `1`. -/
inductive Num where
  | int (n : Int)
  | float (x : Float)

/-- The numeric reading of a value. -/
def num? : Value → Option Num
  | .bool b => some (.int (if b then 1 else 0))
  | .int n => some (.int n)
  | .float x => some (.float x)
  | _ => none

/-- Exact order of two numbers; `none` when a NaN takes part. -/
def Num.compare? : Num → Num → Option Ordering
  | .int a, .int b => some (compare a b)
  | .float x, .int b => Number.compareInt x b
  | .int a, .float y => (Number.compareInt y a).map Ordering.swap
  | .float x, .float y =>
    if x < y then some .lt else if y < x then some .gt else if x == y then some .eq else none

/-- Exact numeric equality. -/
def Num.same (a b : Num) : Bool :=
  a.compare? b == some .eq

/-- Sets a member: replaces its value in place, or appends it. -/
def setField (fields : List (String × Value)) (key : String) (v : Value) : List (String × Value) :=
  if fields.any (·.1 == key) then fields.map (fun p => if p.1 == key then (key, v) else p)
  else fields ++ [(key, v)]

/-- The value is a NaN double. -/
def isNaN : Value → Bool
  | .float x => x.isNaN
  | _ => false

mutual
/-- Equality of values: numbers by exact value across integers, doubles and booleans; lists
item by item; objects as maps from keys to values. A NaN equals nothing here, but inside a
list or object two NaNs match: items are compared by identity before value, and the NaNs of
one document are one object. -/
def same : Value → Value → Bool
  | .null, .null => true
  | .str a, .str b => a == b
  | .unpaired a, .unpaired b => a == b
  | .arr xs, .arr ys => sameItems xs ys
  | .obj xs, .obj ys => xs.length == ys.length && sameFields xs ys
  | a, b =>
    match a.num?, b.num? with
    | some x, some y => x.same y
    | _, _ => false
/-- Item-wise comparison, NaN matching NaN. -/
def sameItems : List Value → List Value → Bool
  | [], [] => true
  | x :: xs, y :: ys => (x.isNaN && y.isNaN || same x y) && sameItems xs ys
  | _, _ => false
/-- Every member of the first object is in the second with a matching value. -/
def sameFields : List (String × Value) → List (String × Value) → Bool
  | [], _ => true
  | (k, v) :: rest, ys =>
    (match ys.lookup k with
     | some w => v.isNaN && w.isNaN || same v w
     | none => false) && sameFields rest ys
end

/-- Equality of an item of a collection with a probe: `same`, or both NaN. -/
def sameMember (v w : Value) : Bool :=
  v.isNaN && w.isNaN || same v w

/-- `v` is a member of `vs`, as membership in a collection tests it. -/
def memSame (v : Value) (vs : List Value) : Bool :=
  vs.any (sameMember v)

end Value

end RepairShop.Json
