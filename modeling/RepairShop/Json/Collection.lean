import RepairShop.Error

/-!
Dynamic values as collections, the way the service's code walks them. Iterating a list
yields its items, a text its characters and an object its keys; nothing else can be
iterated. Membership (`contains`) asks a list for an item that is a `sameMember` of the probe, an
object for a key, and a text for a substring, which needs a text probe. Lists and objects
cannot be keys (`hashable`), so they cannot be looked up in an object or put in a set.
Unpacking a value into two names iterates it and needs exactly two items.
-/

namespace RepairShop.Json.Value

/-- Values compared as keys of a map or members of a set are: `sameMember`. -/
@[reducible] def keyEq : BEq Value := ⟨sameMember⟩

/-- The value can be a key of an object or a member of a set: it is not a list or object. -/
def hashable : Value → Bool
  | .arr _ => false
  | .obj _ => false
  | _ => true

/-- Fails unless the value can be a key. -/
def requireKey (v : Value) : Result Unit :=
  if v.hashable then pure () else throw (.fault (.unhashable v))

/-- The items iterating the value yields. -/
def iterate : Value → Result (List Value)
  | .arr items => pure items
  | .str s => pure (s.toList.map fun c => .str c.toString)
  | .unpaired ps => pure (ps.map fun n => ofPoints [n])
  | .obj fields => pure (fields.map fun e => .str e.1)
  | v => throw (.fault (.notIterable v))

/-- `p` occurs in `s` as a run of consecutive characters. -/
def charsHave {α : Type} [BEq α] (p : List α) : List α → Bool
  | [] => p.isEmpty
  | c :: cs => p.isPrefixOf (c :: cs) || charsHave p cs

/-- Whether `probe` is in the value, as membership tests it. -/
def contains (v probe : Value) : Result Bool :=
  match v, probe with
  | .arr items, _ => pure (probe.memSame items)
  | .str s, .str p => pure (charsHave p.toList s.toList)
  | .str _, .unpaired _ => pure false
  | .unpaired ps, _ =>
    match probe.points? with
    | some p => pure (charsHave p ps)
    | none => throw (.fault (.textProbe probe))
  | .str _, _ => throw (.fault (.textProbe probe))
  | .obj fields, _ => do
    probe.requireKey
    pure (fields.any fun e => (Value.str e.1).sameMember probe)
  | _, _ => throw (.fault (.notContainer v))

/-- The two items of a value unpacked into two names. -/
def pair (v : Value) : Result (Value × Value) := do
  let items ← match v with
    | .arr _ => v.iterate
    | .str _ | .unpaired _ => v.iterate
    | .obj _ => v.iterate
    | _ => throw (.fault (.cannotUnpack v))
  match items with
  | [a, b] => pure (a, b)
  | _ => throw (.fault (.unpackCount 2 items.length))

end RepairShop.Json.Value
