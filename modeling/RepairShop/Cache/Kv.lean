import RepairShop.Error
import RepairShop.Text.Glob

/-!
The key/value server behind the cache: entries in the order they were first written, each
with the expiry it was last written with (the server never expires anything itself). The cache
store writes texts under text keys, but an entry written straight into the server may hold any
value under any key that can be a key; keys compare as the keys of a map do (`sameMember`).
The server is either reachable or down; a down server refuses every command, which the
functions here report as `none`.
-/

namespace RepairShop.Cache

open Json

/-- One stored entry. -/
structure Entry where
  key : Value
  stored : Value
  ttl : Option Value := none

/-- The server: reachable or not, and its entries in the order they were first written. -/
structure Kv where
  online : Bool := true
  entries : List Entry := []

namespace Kv

/-- The value stored under a key. -/
def read (kv : Kv) (key : Value) : Option Value :=
  (kv.entries.find? (·.key.sameMember key)).map (·.stored)

/-- Writes a value under a key; a given expiry replaces the old one, otherwise it stays. -/
def write (kv : Kv) (key stored : Value) (ttl : Option Value) : Kv :=
  if kv.entries.any (·.key.sameMember key) then
    { kv with entries := kv.entries.map fun e =>
        if e.key.sameMember key then { e with stored, ttl := ttl.orElse (fun _ => e.ttl) } else e }
  else { kv with entries := kv.entries ++ [{ key, stored, ttl }] }

/-- Removes the given keys one by one; the count is of keys that held a value other than
`null`. -/
def remove (kv : Kv) : List Value → Nat × Kv
  | [] => (0, kv)
  | k :: ks =>
    let counted := (kv.read k).any (!·.isNull)
    let kv' := { kv with entries := kv.entries.filter (!·.key.sameMember k) }
    let (n, kv'') := remove kv' ks
    (if counted then n + 1 else n, kv'')

/-- The keys that match a glob pattern (given as code points), in entry order; a key that is
not a text cannot be matched. -/
def scan (kv : Kv) (pattern : List Nat) : Result (List Value) :=
  kv.entries.filterMapM fun e =>
    match e.key.points? with
    | some k => pure (if Text.globMatches pattern k then some e.key else none)
    | none => throw (.fault (.notPatternText e.key))

end Kv

end RepairShop.Cache
