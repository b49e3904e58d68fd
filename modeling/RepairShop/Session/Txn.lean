import RepairShop.Cache.Store
import RepairShop.Store.Db

/-!
Units of work. A step of the workflow reads and writes the database and the cache inside
`Txn`, a state-and-failure computation over a `Session`. `atomically` runs a unit of work:
if it fails, every database write it made is undone (the trail included) while cache writes,
which are not transactional, stay; if it succeeds, the cache sweeps it registered run once
the commit is done.

Row writes made through objects (`insert`, `update`) are held until the next flush, as the
mapping layer holds them, and queries do not flush: a write the database refuses is not made,
the session remembers the refusal, and it surfaces at the next explicit flush as
"Transaction failed", or at the commit as "Commit failed". An integer too large for the
database surfaces as itself either way. Statements (`execute`, `delete`) run at once.
-/

namespace RepairShop

open Store Cache Json

/-- A cache write that runs after a successful commit. -/
inductive Sweep where
  /-- Add one to a counter. -/
  | bump (key : String)
  /-- Delete every key matching a glob pattern. -/
  | drop (pattern : String)

/-- What one request works on. -/
structure Session where
  db : Db
  kv : Kv
  /-- Services use the cache (otherwise they have none at all). -/
  wired : Bool := true
  /-- A write the database refused, waiting for the next flush. -/
  waiting : Option Refusal := none
  /-- Sweeps registered by the running unit of work. -/
  sweeps : List Sweep := []
  /-- The database as last committed: what a failure rolls back to. -/
  settled : Db := db

/-- A computation of the workflow. -/
abbrev Txn := EStateM Failure Session

/-- The failure a refused write surfaces as, at a flush or at the commit. -/
def refusalFailure (atCommit : Bool) : Refusal → Failure
  | .tooLarge => .fault .tooLargeForStore
  | .unencodable ps => .fault (.unencodable ps)
  | _ => storageFailure (if atCommit then "Commit failed" else "Transaction failed")

namespace Txn

/-- Fails with a failure. -/
def fail {α : Type} (e : Failure) : Txn α := throw e

/-- Lifts a pure result. -/
def lift {α : Type} : Result α → Txn α
  | .ok a => pure a
  | .error e => throw e

/-- The database as it stands. -/
def db : Txn Db := do return (← get).db

/-- Replaces the database as a whole. -/
def replaceDb (f : Db → Db) : Txn Unit := modify fun s => { s with db := f s.db }

/-- Writes the held rows: fails when the database refused one. -/
def flush : Txn Unit := do
  if let some r := (← get).waiting then throw (refusalFailure false r)

/-- The database as a query sees it. -/
def query : Txn Db := db

/-- Hands a query parameter to the database: an integer beyond 64 bits cannot be. -/
def param (v : Value) : Txn Cell :=
  match bindValue v with
  | .ok c => pure c
  | .error .tooLarge => throw (.fault .tooLargeForStore)
  | .error (.unsupported _) => pure .null
  | .error (.unencodable ps) => throw (.fault (.unencodable ps))

/-- Hands several query parameters to the database, in order. -/
def params (vs : List Value) : Txn (List Cell) := vs.mapM param

/-- Holds a new row of a table; gives its key. A refused row is remembered instead. -/
def insert (t : TableId) (given : List (String × Value)) : Txn Int := do
  let s ← get
  if s.waiting.isSome then return nextId (s.db.rows t)
  match s.db.insert t given with
  | .ok (db, id) => set { s with db }; pure id
  | .error r => set { s with waiting := some r }; pure (nextId (s.db.rows t))

/-- Holds a change of columns of one row. A refused change is remembered instead. -/
def update (t : TableId) (id : Int) (given : List (String × Value)) : Txn Unit := do
  let s ← get
  if s.waiting.isSome then return
  match s.db.update t id given with
  | .ok db => set { s with db }
  | .error r => set { s with waiting := some r }

/-- Runs a statement at once: a refusal fails the step there. -/
def execute (f : Db → Except Refusal Db) : Txn Unit := do
  let s ← get
  match f s.db with
  | .ok db => set { s with db }
  | .error r => throw (refusalFailure false r)

/-- Removes rows at once. -/
def delete (t : TableId) (p : Row → Bool) : Txn Unit := do
  modify fun s => { s with db := s.db.delete t p }

/-- What the program reads from a column of a row; a decimal that is no numeral fails. -/
def read (t : TableId) (r : Row) (column : String) : Txn Value :=
  match t.read r column with
  | .ok v => pure v
  | .error (.notFloat s) => throw (.fault (.notFloat s))

/-- Registers a cache sweep for after the commit. -/
def afterCommit (w : Sweep) : Txn Unit := modify fun s => { s with sweeps := s.sweeps ++ [w] }

/-- Runs a cache operation when the services have a cache. -/
def withCache {α : Type} (none_ : α) (op : Kv → Result (α × Kv)) : Txn α := do
  let s ← get
  if s.wired then
    match op s.kv with
    | .ok (a, kv) => set { s with kv }; pure a
    | .error e => throw e
  else pure none_

/-- Reads from the cache, leaving it as it is. -/
def cacheRead {α : Type} (none_ : α) (read : Kv → Result α) : Txn α :=
  withCache none_ fun kv => do return (← read kv, kv)

/-- Stores a value in the cache; whether the server took it. -/
def cachePut (key v ttl : Value) : Txn Bool :=
  withCache false fun kv => pure (Cache.put kv key v ttl)

/-- Runs one sweep. -/
def sweep : Sweep → Txn Unit
  | .bump key => do let _ ← withCache none (fun kv => Cache.incr kv (.str key))
  | .drop pattern => do let _ ← withCache 0 (fun kv => Cache.deleteMatching kv (.str pattern))

/-- Runs sweeps in order. -/
def sweepAll : List Sweep → Txn Unit
  | [] => pure ()
  | w :: ws => do sweep w; sweepAll ws

/-- Runs a unit of work: on failure the database goes back to what was last committed; on
success it is committed, and then the registered sweeps run (a sweep that fails fails the
request, but the commit stands). -/
def atomically {α : Type} (body : Txn α) : Txn α := fun s =>
  let start := { s with waiting := none, sweeps := [] }
  match body start with
  | .error e s' => .error e { s' with db := s'.settled, waiting := none, sweeps := [] }
  | .ok a s' =>
    match s'.waiting with
    | some r =>
      .error (refusalFailure true r) { s' with db := s'.settled, waiting := none, sweeps := [] }
    | none =>
      match sweepAll s'.sweeps { s' with sweeps := [], settled := s'.db } with
      | .ok _ s'' => .ok a s''
      | .error e s'' => .error e s''

end Txn

end RepairShop
