import RepairShop.Cache.Kv
import RepairShop.Error
import RepairShop.Json.Order
import RepairShop.Json.Scan
import RepairShop.Json.Whole
import RepairShop.Json.Write

/-!
The best-effort cache store over the key/value server. Keys are namespaced by the prefix
`repairflow:`; values are stored as JSON text. Every refusal of a down server is a miss for
a read and a skipped write for a write, so callers never depend on the server. Reading a
counter gives 0 for a missing key, the integer its value converts to (`wholeOf`), or nothing
when it converts to none; incrementing one that converts to none is a fault, as it is on the
server. An entry written straight into the server may hold a value that is not a text, and
decoding that as JSON is a fault.
-/

namespace RepairShop.Cache

open Json

/-- The namespace of every key. -/
def keyPrefix : String := "repairflow"

/-- The server key of a cache key: the namespace, a colon and the plain text of the key. -/
def fullKey (key : Value) : Value := (Value.str (keyPrefix ++ ":")).joinText key

/-- A stored value decoded as JSON: a text is parsed (malformed text, and `null`, are a miss;
well-formed text holding an integer of too many digits, or nested too deep, cannot be read at
all); a value that is not a text cannot be decoded. -/
def decodeStored (v : Value) : Result (Option Value) :=
  match v.points? with
  | some text =>
    match Json.loadPoints text with
    | .ok .null => pure none
    | .ok v => pure (some v)
    | .error f =>
      match f.nested, f.pos with
      | some c, _ => throw (.fault (.tooDeep c))
      | none, some _ => pure none
      | none, none => throw (.fault (.oversizedInteger f.message))
  | none => throw (.fault (.notJsonText v))

/-- The stored JSON value of a key; a missing key, or one holding `null`, is a miss. -/
def get (kv : Kv) (key : Value) : Result (Option Value) :=
  if kv.online then
    match kv.read (fullKey key) with
    | none => pure none
    | some .null => pure none
    | some v => decodeStored v
  else pure none

/-- The stored values of several keys, in order. -/
def getMany (kv : Kv) (keys : List Value) : Result (List (Option Value)) :=
  keys.mapM (get kv)

/-- Stores a value as JSON text with an expiry; `false` when the server refused. -/
def put (kv : Kv) (key : Value) (v : Value) (ttl : Value) : Bool × Kv :=
  if kv.online then (true, kv.write (fullKey key) (.str v.render) (some ttl)) else (false, kv)

/-- The value of a counter: 0 when unset or `null`, its integer when it has one, nothing when
it has none or the server is down. An infinite double has no integer and is a fault. -/
def counter (kv : Kv) (key : Value) : Result (Option Int) :=
  if kv.online then
    match kv.read (fullKey key) with
    | none => pure (some 0)
    | some .null => pure (some 0)
    | some v =>
      match wholeOf v with
      | .ok n => pure (some n)
      | .error (.fault .infiniteToInteger) => throw (.fault .infiniteToInteger)
      | .error _ => pure none
  else pure none

/-- Adds one to a counter (a missing one counts as 0) and stores the new value as text;
nothing when the server is down. A value without an integer is a fault. -/
def incr (kv : Kv) (key : Value) : Result (Option Int × Kv) :=
  if kv.online then do
    let k := fullKey key
    let n ← match kv.read k with
      | none => pure 0
      | some v => wholeOf v
    pure (some (n + 1), kv.write k (.str (toString (n + 1))) none)
  else pure (none, kv)

/-- Deletes keys; the count of keys that held a value (0 when the server is down). -/
def delete (kv : Kv) (keys : List Value) : Nat × Kv :=
  if kv.online then kv.remove (keys.map fullKey) else (0, kv)

/-- Deletes every key that matches a glob pattern (the prefix is put in front). -/
def deleteMatching (kv : Kv) (pattern : Value) : Result (Nat × Kv) :=
  if kv.online then do
    let keys ← kv.scan ((fullKey pattern).points?.getD [])
    pure (kv.remove keys)
  else pure (0, kv)

/-- Deletes every key that starts with a text. -/
def deletePrefix (kv : Kv) (start : Value) : Result (Nat × Kv) :=
  deleteMatching kv (start.joinText (.str "*"))

/-- The stored entries sorted by key, each as `[key, value, expiry]`; a text that is not
JSON shows as `{"raw": text}`, and a value that is not a text cannot be shown. Nothing when the
server is down. -/
def contents (kv : Kv) : Result Value :=
  if kv.online then do
    let sorted ← sortWith (fun a b => a.key.lessThan b.key) kv.entries
    let rows ← sorted.mapM fun e => do
      let shown ← match e.stored.points? with
        | some text =>
          match Json.loadPoints text with
          | .ok v => pure v
          | .error { nested := some c, .. } => throw (.fault (.tooDeep c))
          | .error _ => pure (.obj [("raw", e.stored)])
        | none => throw (.fault (.notJsonText e.stored))
      pure (Value.arr [e.key, shown, e.ttl.getD .null])
    pure (.arr rows)
  else pure .null

end RepairShop.Cache
