import Mathlib
import RepairShop.Orders.Position

/- Positions under transactions run side by side.

   The services run each request as one database transaction. On a database with row locks
   and read committed isolation, the statements of creations, deletions and moves of the
   orders of one branch interleave: each statement sees what was committed before it started
   together with what its own transaction wrote; it takes the row locks its code takes (a
   creation locks the branch row before it reads the largest position, a deletion or a move
   locks its order when it loads it, and every update locks the rows it changes), and it waits
   while another transaction holds one of them; a transaction keeps its locks until it commits.

   This file models such transactions over the position functions of `Orders` (`Stmt`,
   `World.step`, `World.run`), with the statements of the three services in their code order
   (`creation`, `deletion`, `move`). It proves that the branch lock does not keep positions
   dense: a deletion that closes its gap while a creation that has already read the largest
   position waits to insert leaves the bucket at positions 1 and 3, with no statement of the
   schedule waiting on a lock. -/

namespace RepairShop

open Store

namespace Positions

/-! ## Transactions of statements -/

/-- A row lock: a branch row or an order row, by key. -/
inductive Lock where
  | branch (b : Int)
  | order (k : Int)
  deriving DecidableEq

/-- One statement: from the orders it sees and the value its transaction carries from its
earlier statements, the rows it locks by reading them for update, the keys of the orders it
writes (which it locks too), and the orders and carried value after it. -/
structure Stmt where
  reads : Table → Cell → List Lock
  writes : Table → Cell → List Int
  run : Table → Cell → Table × Cell

/-- Every lock a statement takes. -/
def Stmt.locks (s : Stmt) (seen : Table) (c : Cell) : List Lock :=
  s.reads seen c ++ (s.writes seen c).map .order

/-- A transaction under way: its statements still to run, the orders it wrote (the last version
of each), the locks it holds and the value it carries. -/
structure Tx where
  stmts : List Stmt
  writes : Table := []
  locks : List Lock := []
  carried : Cell := .null

/-- The orders of `base` with those of `top` in place of the rows of the same key, then the
orders of `top` that `base` does not have. -/
def overlay (base top : Table) : Table :=
  base.map (fun r => (top.find? (·.id == r.id)).getD r) ++
    top.filter fun r => !base.any (·.id == r.id)

/-- Transactions on one table of orders, and the table as last committed. -/
structure World where
  committed : Table
  txs : List Tx

namespace World

/-- A transaction other than `i` holds the lock. -/
def heldByOther (w : World) (i : Nat) (l : Lock) : Bool :=
  w.txs.zipIdx.any fun (t, j) => j != i && t.locks.contains l

/-- Transaction `i` waits: its next statement needs a lock another transaction holds. -/
def waits (w : World) (i : Nat) : Bool :=
  match w.txs[i]? with
  | some t =>
    match t.stmts with
    | s :: _ => (s.locks (overlay w.committed t.writes) t.carried).any (w.heldByOther i)
    | [] => false
  | none => false

/-- One step of transaction `i`: its next statement on what it sees, unless it waits for a lock;
once no statement is left, its commit, which releases its locks. -/
def step (w : World) (i : Nat) : World :=
  match w.txs[i]? with
  | none => w
  | some t =>
    match t.stmts with
    | [] => { committed := overlay w.committed t.writes, txs := w.txs.set i { stmts := [] } }
    | s :: rest =>
      let seen := overlay w.committed t.writes
      if (s.locks seen t.carried).any (w.heldByOther i) then w
      else
        let keys := s.writes seen t.carried
        let (after, carried) := s.run seen t.carried
        let t' : Tx :=
          { stmts := rest, writes := overlay t.writes (after.filter fun r => keys.contains r.id),
            locks := t.locks ++ s.locks seen t.carried, carried }
        { w with txs := w.txs.set i t' }

/-- The world after the transactions take their steps in the order of the schedule. -/
def run (w : World) (sched : List Nat) : World := sched.foldl step w

end World

/-! ## The statements of the services -/

/-- The position after the largest one of a bucket; 1 in an empty bucket. -/
def nextPosition : Cell → Cell
  | .int n => .int (n + 1)
  | _ => .int 1

/-- The position an order holds, as its transaction loads it. -/
def positionOf (seen : Table) (k : Int) : Cell :=
  ((seen.find? (·.id == k)).map (·.get "sort")).getD .null

/-- A new open order of a branch at a position. -/
def openOrder (k b : Int) (position : Cell) : Row :=
  ⟨k, [("branch_id", .int b), ("sort", position), ("status", .text openState),
    ("is_active", .int 1)]⟩

/-- Loading order `k` for update: it locks the order and carries its position. -/
def load (k : Int) : Stmt :=
  ⟨fun _ _ => [.order k], fun _ _ => [], fun seen _ => (seen, positionOf seen k)⟩

/-- A creation of order `k` in branch `b`: it locks the branch row, reads the largest position of
the bucket, and inserts the order after it. -/
def creation (b k : Int) : List Stmt :=
  [⟨fun _ _ => [.branch b], fun _ _ => [], fun seen c => (seen, c)⟩,
   ⟨fun _ _ => [], fun _ _ => [],
     fun seen _ => (seen, nextPosition (Orders.topSort seen (.int b)))⟩,
   ⟨fun _ _ => [], fun _ _ => [k], fun seen c => (seen ++ [openOrder k b c], c)⟩]

/-- The orders of branch `b` that closing the gap at `removed` shifts. -/
def gapKeys (seen : Table) (b : Int) (removed : Cell) : List Int :=
  (seen.filter fun o =>
    let sort := o.get "sort"
    Orders.inBucket (.int b) o && sort.compare removed == .gt && !sort.isNull &&
      !removed.isNull).map (·.id)

/-- A deletion of order `k` of branch `b`: it loads the order, marks it deleted, and pulls the
later orders of the bucket up by one. -/
def deletion (b k : Int) : List Stmt :=
  [load k,
   ⟨fun _ _ => [], fun _ _ => [k], fun seen c =>
     (seen.map fun o => if o.id == k then (o.put "status" (.text deletedState)).put "is_active"
       (.int 0) else o, c)⟩,
   ⟨fun _ _ => [], fun seen c => gapKeys seen b c,
     fun seen c => (Orders.closeGap seen (.int b) c, c)⟩]

/-- The orders of branch `b` that moving order `k` from `current` to `target` rewrites. -/
def shiftKeys (seen : Table) (b k : Int) (current target : Cell) : List Int :=
  (seen.filter fun o => o.id == k || Orders.inBucket (.int b) o &&
    (Orders.shifted current target (o.get "sort")).compare (o.get "sort") != .eq).map (·.id)

/-- A move of order `k` of branch `b` to position `target`: it loads the order, then shifts the
orders between and places it. -/
def move (b k target : Int) : List Stmt :=
  [load k,
   ⟨fun _ _ => [], fun seen c => shiftKeys seen b k c (.int target),
     fun seen c => (Orders.reorder seen (.int b) k c (.int target), c)⟩]

/-! ## Positions after a commit -/

/-- The positions of the open orders of branch `b` are exactly 1..N, each held once. -/
def Dense (orders : Table) (b : Int) : Prop :=
  ∃ N : Nat, ((orders.filter (Orders.inBucket (.int b))).map (·.get "sort")).Perm
    ((List.range N).map fun k : Nat => Cell.int ((k : Int) + 1))

/-- Positions 1 and 3 are not dense. -/
theorem not_dense_of_gap {orders : Table} {b : Int}
    (h : (orders.filter (Orders.inBucket (.int b))).map (·.get "sort") = [.int 1, .int 3]) :
    ¬ Dense orders b := by
  rintro ⟨N, hp⟩
  rw [h] at hp
  have hN : N = 2 := by simpa using hp.length_eq.symm
  subst hN
  -- position 2 would have to be held
  have h2 : Cell.int 2 ∈ [Cell.int 1, Cell.int 3] :=
    hp.mem_iff.2 (List.mem_map.2 ⟨1, List.mem_range.2 (by omega), rfl⟩)
  simp at h2

/-- Two open orders of branch 1, at positions 1 and 2. -/
def twoOrders : Table := [openOrder 1 1 (.int 1), openOrder 2 1 (.int 2)]

/-- The deletion of order 1 and the creation of order 3, both in branch 1, side by side. -/
def deletionBesideCreation : World :=
  { committed := twoOrders, txs := [{ stmts := deletion 1 1 }, { stmts := creation 1 3 }] }

/-- The deletion runs its statements; the creation locks the branch row and reads the largest
position; the deletion commits; the creation inserts and commits. -/
def gapSchedule : List Nat := [0, 0, 0, 1, 1, 0, 1, 1]

/-- **The branch lock does not keep positions dense.** Two open orders of a branch stand at 1
and 2. A deletion of the first locks it, marks it deleted and pulls the second up to 1; a
creation, which takes the branch row that the deletion never locks, reads the largest committed
position, 2; the deletion commits; the creation inserts at 3 and commits. No statement waits on
a lock, and the committed bucket ends at positions 1 and 3. -/
theorem deletion_beside_creation_leaves_gap :
    (gapSchedule.zipIdx.all fun (i, k) =>
      !(deletionBesideCreation.run (gapSchedule.take k)).waits i) = true ∧
    ((deletionBesideCreation.run gapSchedule).committed.filter (Orders.inBucket (.int 1))).map
      (·.get "sort") = [.int 1, .int 3] ∧
    ¬ Dense (deletionBesideCreation.run gapSchedule).committed 1 := by
  have hgap : ((deletionBesideCreation.run gapSchedule).committed.filter
      (Orders.inBucket (.int 1))).map (·.get "sort") = [.int 1, .int 3] := rfl
  exact ⟨rfl, hgap, not_dense_of_gap hgap⟩

end Positions

end RepairShop
