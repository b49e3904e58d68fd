import RepairShop.Proofs.Guarded

/- Footprints of the services through a guard.

   Each function a request runs gets a spec `⦃Frame g s0⦄ f ⦃Frame.post g s0⦄` for every
   guard `g` that spares what `f` writes: the tables it inserts into, updates or deletes
   from, and the columns of orders it writes. The hypotheses of a spec are that footprint,
   read off the code; a function that only reads has none, and the trail, which every guard
   spares, needs none. A service, which commits, gets `⦃Upholds g s0⦄ f ⦃Upholds.post g s0⦄`
   for the same guards.

   The specs come in the order of the services:

   1. access: actors, claims, cached grants, resolution, authorization;
   2. orders: audit records, staff, problems, comments, places, rentals;
   3. the order service before its commit: the checks and edits of an order, the fragments a
      request carries, the sort value of a new order;
   4. reads: details, history, moves and board pages;
   5. the services, as units of work, and the parts of a scenario step around them. -/

namespace RepairShop

open Std.Do Store Cache Json

set_option mvcgen.warning false

/-! ## Access -/

section Access

variable [g : Guard] (s0 : Session)

@[spec 1050] theorem Txn.params_frame (vs : List Value) :
    ⦃fun s => ⌜Frame g s0 s⌝⦄ Txn.params vs ⦃Frame.post g s0⦄ := by
  unfold Txn.params
  mvcgen
  all_goals grind -ring -linarith -lia

@[spec 1050] theorem Access.attachedBranches_frame (admin : Cell) :
    ⦃fun s => ⌜Frame g s0 s⌝⦄ Access.attachedBranches admin ⦃Frame.post g s0⦄ := by
  unfold Access.attachedBranches
  mvcgen
  all_goals grind -ring -linarith -lia

@[spec 1050] theorem Access.Actor.ofAdmin_frame (admin : Value) :
    ⦃fun s => ⌜Frame g s0 s⌝⦄ Access.Actor.ofAdmin admin ⦃Frame.post g s0⦄ := by
  unfold Access.Actor.ofAdmin
  mvcgen
  all_goals grind -ring -linarith -lia

@[spec 1050] theorem Access.claims_frame (admin : Value) :
    ⦃fun s => ⌜Frame g s0 s⌝⦄ Access.claims admin ⦃Frame.post g s0⦄ := by
  unfold Access.claims
  mvcgen
  all_goals grind -ring -linarith -lia

@[spec 1050] theorem Access.generation_frame (branch : Value) :
    ⦃fun s => ⌜Frame g s0 s⌝⦄ Access.generation branch ⦃Frame.post g s0⦄ := by
  unfold Access.generation
  mvcgen

@[spec 1050] theorem Access.cachedGrants_frame (branch : Value) (roles : List Int) (gen : Int) :
    ⦃fun s => ⌜Frame g s0 s⌝⦄ Access.cachedGrants branch roles gen ⦃Frame.post g s0⦄ := by
  unfold Access.cachedGrants
  mvcgen
  all_goals grind -ring -linarith -lia

@[spec 1050] theorem Access.cacheGrants_frame (branch : Value) (role gen : Int) (gm : Access.GrantMap) :
    ⦃fun s => ⌜Frame g s0 s⌝⦄ Access.cacheGrants branch role gen gm ⦃Frame.post g s0⦄ := by
  unfold Access.cacheGrants
  mvcgen
  all_goals grind -ring -linarith -lia

@[spec 1050] theorem Access.roleSet_frame (roles : Value) :
    ⦃fun s => ⌜Frame g s0 s⌝⦄ Access.roleSet roles ⦃Frame.post g s0⦄ := by
  unfold Access.roleSet
  mvcgen
  all_goals grind -ring -linarith -lia

@[spec 1050] theorem Access.loadMissing_frame (branch : Value) (missing : List Int) :
    ⦃fun s => ⌜Frame g s0 s⌝⦄ Access.loadMissing branch missing ⦃Frame.post g s0⦄ := by
  unfold Access.loadMissing
  mvcgen
  all_goals grind -ring -linarith -lia

@[spec 1050] theorem Access.grantsFor_frame (roles branch : Value) :
    ⦃fun s => ⌜Frame g s0 s⌝⦄ Access.grantsFor roles branch ⦃Frame.post g s0⦄ := by
  unfold Access.grantsFor
  mvcgen
  all_goals grind -ring -linarith -lia

@[spec 1050] theorem Access.resolve_frame (roles branch status : Value) :
    ⦃fun s => ⌜Frame g s0 s⌝⦄ Access.resolve roles branch status ⦃Frame.post g s0⦄ := by
  unfold Access.resolve
  mvcgen
  all_goals grind -ring -linarith -lia

@[spec 1050] theorem Access.demand_frame (roles branch status capability location : Value) :
    ⦃fun s => ⌜Frame g s0 s⌝⦄ Access.demand roles branch status capability location
      ⦃Frame.post g s0⦄ := by
  unfold Access.demand
  mvcgen
  all_goals grind -ring -linarith -lia

@[spec 1050] theorem Access.authorize_frame (roles : List Value) (branch status : Value)
    (capability : String) (location : Option String) :
    ⦃fun s => ⌜Frame g s0 s⌝⦄ Access.authorize roles branch status capability location
      ⦃Frame.post g s0⦄ := by
  unfold Access.authorize
  mvcgen

@[spec 1050] theorem Access.viewable_frame (roles branch : Value) :
    ⦃fun s => ⌜Frame g s0 s⌝⦄ Access.viewable roles branch ⦃Frame.post g s0⦄ := by
  unfold Access.viewable
  mvcgen
  all_goals grind -ring -linarith -lia

/-- The answer form of a grant reads and refuses nothing, so it may follow a commit. -/
@[spec 1050] theorem Access.grantSummary_frame (id : Int) :
    ⦃fun s => ⌜Frame g s0 s⌝⦄ Access.grantSummary id ⦃Frame.post g s0⦄ := by
  unfold Access.grantSummary
  mvcgen
  all_goals grind -ring -linarith -lia

end Access

/-! ## Orders and their aspects -/

section Orders

open Orders Request

theorem Orders.ProblemSide.table_ne_history (side : ProblemSide) : side.table ≠ .history := by
  cases side <;> decide

theorem Orders.PlaceKind.table_ne_history (kind : PlaceKind) : kind.table ≠ .history := by
  cases kind <;> decide

theorem Orders.PlaceKind.methodColumn_ne_id (kind : PlaceKind) : kind.methodColumn ≠ "id" := by
  cases kind <;> decide

variable [g : Guard] (s0 : Session)

/-- The columns of an order an edit writes. -/
def Orders.Edit.columns : Edit → List String
  | .priority _ => ["priority", "priority_level"]
  | e => [e.field]

@[spec 1050] theorem Orders.Aspect.authorize_frame (a : Aspect) (actor : Access.Actor) (branch status : Value) :
    ⦃fun s => ⌜Frame g s0 s⌝⦄ a.authorize actor branch status ⦃Frame.post g s0⦄ := by
  unfold Aspect.authorize
  mvcgen

@[spec 1050] theorem Orders.ensureActiveAdmins_frame (ids : List Nat) (loc : String) :
    ⦃fun s => ⌜Frame g s0 s⌝⦄ ensureActiveAdmins ids loc ⦃Frame.post g s0⦄ := by
  unfold ensureActiveAdmins
  mvcgen
  all_goals grind -ring -linarith -lia

@[spec 1050] theorem Orders.record_frame (order : Int) (field : String) (old new actor : Value) :
    ⦃fun s => ⌜Frame g s0 s⌝⦄ record order field old new actor ⦃Frame.post g s0⦄ := by
  unfold record
  mvcgen
  all_goals grind -ring -linarith -lia

@[spec 1050] theorem Orders.logIfChanged_frame (order : Int) (field : String) (old new actor : Value) :
    ⦃fun s => ⌜Frame g s0 s⌝⦄ logIfChanged order field old new actor ⦃Frame.post g s0⦄ := by
  unfold logIfChanged
  mvcgen
  all_goals grind -ring -linarith -lia

@[spec 1050] theorem Orders.logEvent_frame (order : Int) (action : String) (payload actor : Value) :
    ⦃fun s => ⌜Frame g s0 s⌝⦄ logEvent order action payload actor ⦃Frame.post g s0⦄ := by
  unfold logEvent
  mvcgen
  all_goals grind -ring -linarith -lia

@[spec 1050] theorem Orders.assignedStaff_frame (order : Int) :
    ⦃fun s => ⌜Frame g s0 s⌝⦄ assignedStaff order ⦃Frame.post g s0⦄ := by
  unfold assignedStaff
  mvcgen
  all_goals grind -ring -linarith -lia

@[spec 1050] theorem Orders.writeStaff_frame (order : Int) (toAdd toRemove : List Value)
    (hs : TableId.assignments ∉ g.tables) :
    ⦃fun s => ⌜Frame g s0 s⌝⦄ writeStaff order toAdd toRemove ⦃Frame.post g s0⦄ := by
  unfold writeStaff
  mvcgen
  all_goals grind -ring -linarith -lia

@[spec 1050] theorem Orders.replaceStaff_frame (order : Int) (ids : List Nat) (actor : Access.Actor)
    (hs : TableId.assignments ∉ g.tables) :
    ⦃fun s => ⌜Frame g s0 s⌝⦄ replaceStaff order ids actor ⦃Frame.post g s0⦄ := by
  unfold replaceStaff
  mvcgen
  all_goals grind -ring -linarith -lia

@[spec 1050] theorem Orders.addStaff_frame (order : Int) (branch status : Value) (ids : List Nat)
    (actor : Access.Actor)
    (hs : TableId.assignments ∉ g.tables) :
    ⦃fun s => ⌜Frame g s0 s⌝⦄ addStaff order branch status ids actor ⦃Frame.post g s0⦄ := by
  unfold addStaff
  mvcgen
  all_goals grind -ring -linarith -lia

@[spec 1050] theorem Orders.removeStaff_frame (order : Int) (branch status : Value) (ids : List Nat)
    (actor : Access.Actor)
    (hs : TableId.assignments ∉ g.tables) :
    ⦃fun s => ⌜Frame g s0 s⌝⦄ removeStaff order branch status ids actor ⦃Frame.post g s0⦄ := by
  unfold removeStaff
  mvcgen
  all_goals grind -ring -linarith -lia

@[spec 1050] theorem Orders.storedPart_frame (p : Row) :
    ⦃fun s => ⌜Frame g s0 s⌝⦄ storedPart p ⦃Frame.post g s0⦄ := by
  unfold storedPart
  mvcgen
  all_goals grind -ring -linarith -lia

@[spec 1050] theorem Orders.problemSnapshot_frame (side : ProblemSide) (order : Int) :
    ⦃fun s => ⌜Frame g s0 s⌝⦄ problemSnapshot side order ⦃Frame.post g s0⦄ := by
  unfold problemSnapshot
  mvcgen
  all_goals grind -ring -linarith -lia

@[spec 1050] theorem Orders.parentRound_frame (frontier : List Value) (known : Catalog.ParentMap Value) :
    ⦃fun s => ⌜Frame g s0 s⌝⦄ parentRound frontier known ⦃Frame.post g s0⦄ := by
  unfold parentRound
  mvcgen
  all_goals grind -ring -linarith -lia

@[spec 1050] theorem Orders.parentLinks_frame (fuel : Nat) (frontier : List Value)
    (known : Catalog.ParentMap Value) :
    ⦃fun s => ⌜Frame g s0 s⌝⦄ parentLinks fuel frontier known ⦃Frame.post g s0⦄ := by
  -- one round per unit of fuel
  induction fuel generalizing s0 frontier known with
  | zero => simp only [parentLinks]; mvcgen
  | succ n ih =>
    simp only [parentLinks]
    -- the call on the next round is the one the hypothesis covers
    generalize parentLinks n = next at ih ⊢
    mvcgen [ih]
    all_goals grind -ring -linarith -lia

@[spec 1050] theorem Orders.mappedCategories_frame (phoneCategory : Value) :
    ⦃fun s => ⌜Frame g s0 s⌝⦄ mappedCategories phoneCategory ⦃Frame.post g s0⦄ := by
  unfold mappedCategories
  mvcgen
  all_goals grind -ring -linarith -lia

@[spec 1050] theorem Orders.allowedParts_frame (lines : List Request.ProblemLine) :
    ⦃fun s => ⌜Frame g s0 s⌝⦄ allowedParts lines ⦃Frame.post g s0⦄ := by
  unfold allowedParts
  mvcgen
  all_goals grind -ring -linarith -lia

@[spec 1050] theorem Orders.validateProblems_frame (side : ProblemSide) (phoneCategory : Value)
    (lines : List Request.ProblemLine) :
    ⦃fun s => ⌜Frame g s0 s⌝⦄ validateProblems side phoneCategory lines ⦃Frame.post g s0⦄ := by
  unfold validateProblems
  mvcgen
  all_goals grind -ring -linarith -lia

@[spec 1050] theorem Orders.replaceProblems_frame (side : ProblemSide) (order : Int)
    (lines : List Request.ProblemLine) (actor : Access.Actor)
    (hp : side.table ∉ g.tables) (hparts : TableId.orderParts ∉ g.tables) :
    ⦃fun s => ⌜Frame g s0 s⌝⦄ replaceProblems side order lines actor ⦃Frame.post g s0⦄ := by
  unfold replaceProblems
  mvcgen
  all_goals grind -ring -linarith -lia [ProblemSide.table_ne_orders, ProblemSide.table_ne_history]

@[spec 1050] theorem Orders.applyProblems_frame (side : ProblemSide) (order : Int) (phoneCategory : Value)
    (lines : List Request.ProblemLine) (actor : Access.Actor)
    (hp : side.table ∉ g.tables) (hparts : TableId.orderParts ∉ g.tables) :
    ⦃fun s => ⌜Frame g s0 s⌝⦄ applyProblems side order phoneCategory lines actor ⦃Frame.post g s0⦄ := by
  unfold applyProblems
  mvcgen
  all_goals grind -ring -linarith -lia

@[spec 1050] theorem Orders.commentValue_frame (id : Int) :
    ⦃fun s => ⌜Frame g s0 s⌝⦄ commentValue id ⦃Frame.post g s0⦄ := by
  unfold commentValue
  mvcgen
  all_goals grind -ring -linarith -lia

@[spec 1050] theorem Orders.appendComments_frame (order : Int) (status : Value) (texts : List Value)
    (actor : Access.Actor)
    (hc : TableId.comments ∉ g.tables) :
    ⦃fun s => ⌜Frame g s0 s⌝⦄ appendComments order status texts actor ⦃Frame.post g s0⦄ := by
  unfold appendComments
  mvcgen
  all_goals grind -ring -linarith -lia

@[spec 1050] theorem Orders.openComment_frame (order : Int) (comment : Value) :
    ⦃fun s => ⌜Frame g s0 s⌝⦄ openComment order comment ⦃Frame.post g s0⦄ := by
  unfold openComment
  mvcgen
  all_goals grind -ring -linarith -lia

@[spec 1050] theorem Orders.editComment_frame (order : Int) (branch comment text : Value)
    (actor : Access.Actor)
    (hc : TableId.comments ∉ g.tables) :
    ⦃fun s => ⌜Frame g s0 s⌝⦄ editComment order branch comment text actor ⦃Frame.post g s0⦄ := by
  unfold editComment
  mvcgen
  all_goals grind -ring -linarith -lia

@[spec 1050] theorem Orders.deleteComment_frame (order : Int) (branch comment : Value) (actor : Access.Actor)
    (hc : TableId.comments ∉ g.tables) :
    ⦃fun s => ⌜Frame g s0 s⌝⦄ deleteComment order branch comment actor ⦃Frame.post g s0⦄ := by
  unfold deleteComment
  mvcgen
  all_goals grind -ring -linarith -lia

@[spec 1050] theorem Orders.currentPlace_frame (kind : PlaceKind) (order : Int) :
    ⦃fun s => ⌜Frame g s0 s⌝⦄ currentPlace kind order ⦃Frame.post g s0⦄ := by
  unfold currentPlace
  mvcgen
  all_goals grind -ring -linarith -lia

@[spec 1050] theorem Orders.applyPlace_frame (kind : PlaceKind) (order : Int) (place : Option Request.Place)
    (actor : Access.Actor)
    (hp : kind.table ∉ g.tables) (hm : kind.methodColumn ∉ g.columns) :
    ⦃fun s => ⌜Frame g s0 s⌝⦄ applyPlace kind order place actor ⦃Frame.post g s0⦄ := by
  unfold applyPlace
  mvcgen
  all_goals grind -ring -linarith -lia [PlaceKind.table_ne_orders, PlaceKind.table_ne_history,
    PlaceKind.methodColumn_ne_id]

@[spec 1050] theorem Orders.rentalView_frame (r : Row) :
    ⦃fun s => ⌜Frame g s0 s⌝⦄ rentalView r ⦃Frame.post g s0⦄ := by
  unfold rentalView
  mvcgen
  all_goals grind -ring -linarith -lia

@[spec 1050] theorem Orders.activeRental_frame (order : Int) :
    ⦃fun s => ⌜Frame g s0 s⌝⦄ activeRental order ⦃Frame.post g s0⦄ := by
  unfold activeRental
  mvcgen
  all_goals grind -ring -linarith -lia

@[spec 1050] theorem Orders.setAvailable_frame (device : Int) (available : Bool)
    (hd : TableId.devices ∉ g.tables) :
    ⦃fun s => ⌜Frame g s0 s⌝⦄ setAvailable device available ⦃Frame.post g s0⦄ := by
  unfold setAvailable
  mvcgen
  all_goals grind -ring -linarith -lia

@[spec 1050] theorem Orders.startRental_frame (order : Int) (req : Request.RentalRequest) (actor : Access.Actor)
    (hr : TableId.rentals ∉ g.tables) (hd : TableId.devices ∉ g.tables) :
    ⦃fun s => ⌜Frame g s0 s⌝⦄ startRental order req actor ⦃Frame.post g s0⦄ := by
  unfold startRental
  mvcgen
  all_goals grind -ring -linarith -lia

@[spec 1050] theorem Orders.changeRental_frame (order : Int) (row : RentalView) (req : Request.RentalRequest)
    (actor : Access.Actor)
    (hr : TableId.rentals ∉ g.tables) :
    ⦃fun s => ⌜Frame g s0 s⌝⦄ changeRental order row req actor ⦃Frame.post g s0⦄ := by
  unfold changeRental
  mvcgen
  all_goals grind -ring -linarith -lia

@[spec 1050] theorem Orders.endRental_frame (order : Int) (row : RentalView) (actor : Access.Actor)
    (hr : TableId.rentals ∉ g.tables) (hd : TableId.devices ∉ g.tables) :
    ⦃fun s => ⌜Frame g s0 s⌝⦄ endRental order row actor ⦃Frame.post g s0⦄ := by
  unfold endRental
  mvcgen
  all_goals grind -ring -linarith -lia

@[spec 1050] theorem Orders.applyRental_frame (order : Int) (req : Option Request.RentalRequest)
    (actor : Access.Actor)
    (hr : TableId.rentals ∉ g.tables) (hd : TableId.devices ∉ g.tables) :
    ⦃fun s => ⌜Frame g s0 s⌝⦄ applyRental order req actor ⦃Frame.post g s0⦄ := by
  unfold applyRental
  mvcgen
  all_goals grind -ring -linarith -lia

@[spec 1050] theorem Orders.createRental_frame (order : Int) (branch status : Value) (req : Request.RentalRequest)
    (actor : Access.Actor)
    (hr : TableId.rentals ∉ g.tables) (hd : TableId.devices ∉ g.tables) :
    ⦃fun s => ⌜Frame g s0 s⌝⦄ createRental order branch status req actor ⦃Frame.post g s0⦄ := by
  unfold createRental
  mvcgen
  all_goals grind -ring -linarith -lia

@[spec 1050] theorem Orders.requireRental_frame (order : Int) :
    ⦃fun s => ⌜Frame g s0 s⌝⦄ requireRental order ⦃Frame.post g s0⦄ := by
  unfold requireRental
  mvcgen
  all_goals grind -ring -linarith -lia

@[spec 1050] theorem Orders.updateRental_frame (order : Int) (branch status : Value) (req : Request.RentalRequest)
    (actor : Access.Actor)
    (hr : TableId.rentals ∉ g.tables) :
    ⦃fun s => ⌜Frame g s0 s⌝⦄ updateRental order branch status req actor ⦃Frame.post g s0⦄ := by
  unfold updateRental
  mvcgen
  all_goals grind -ring -linarith -lia

@[spec 1050] theorem Orders.cancelRental_frame (order : Int) (branch status : Value) (actor : Access.Actor)
    (hr : TableId.rentals ∉ g.tables) (hd : TableId.devices ∉ g.tables) :
    ⦃fun s => ⌜Frame g s0 s⌝⦄ cancelRental order branch status actor ⦃Frame.post g s0⦄ := by
  unfold cancelRental
  mvcgen
  all_goals grind -ring -linarith -lia


/-! ## The order service before its commit -/

/-- The answer form of an order reads and refuses nothing, so it may follow a commit. -/
@[spec 1050] theorem Orders.orderValue_frame (id : Int) :
    ⦃fun s => ⌜Frame g s0 s⌝⦄ orderValue id ⦃Frame.post g s0⦄ := by
  unfold orderValue
  mvcgen [List.mapM_faultsOnly]
  all_goals grind -ring -linarith -lia

@[spec 1050] theorem Orders.currentField_frame (id : Int) (column : String) :
    ⦃fun s => ⌜Frame g s0 s⌝⦄ currentField id column ⦃Frame.post g s0⦄ := by
  unfold currentField
  mvcgen
  all_goals grind -ring -linarith -lia

@[spec 1050] theorem Orders.statusInBranch_frame (status branch : Value) :
    ⦃fun s => ⌜Frame g s0 s⌝⦄ statusInBranch status branch ⦃Frame.post g s0⦄ := by
  unfold statusInBranch
  mvcgen
  all_goals grind -ring -linarith -lia

@[spec 1050] theorem Orders.initialStatus_frame (branch : Value) :
    ⦃fun s => ⌜Frame g s0 s⌝⦄ initialStatus branch ⦃Frame.post g s0⦄ := by
  unfold initialStatus
  mvcgen
  all_goals grind -ring -linarith -lia

@[spec 1050] theorem Orders.checkCustomer_frame (id : Value) :
    ⦃fun s => ⌜Frame g s0 s⌝⦄ checkCustomer id ⦃Frame.post g s0⦄ := by
  unfold checkCustomer
  mvcgen
  all_goals grind -ring -linarith -lia

@[spec 1050] theorem Orders.checkPhoneCategory_frame (id : Value) :
    ⦃fun s => ⌜Frame g s0 s⌝⦄ checkPhoneCategory id ⦃Frame.post g s0⦄ := by
  unfold checkPhoneCategory
  mvcgen
  all_goals grind -ring -linarith -lia

@[spec 1050] theorem Status.checkMove_frame (branch current target : Value) :
    ⦃fun s => ⌜Frame g s0 s⌝⦄ Status.checkMove branch current target ⦃Frame.post g s0⦄ := by
  unfold Status.checkMove
  mvcgen
  all_goals grind -ring -linarith -lia

/-- A change of status writes `status_id`, which is no seat column. -/
@[spec 1050] theorem Orders.changeStatus_frame (o : Row) (current target : Value)
    (hs : "status_id" ∉ g.columns) :
    ⦃fun s => ⌜Frame g s0 s⌝⦄ changeStatus o current target ⦃Frame.post g s0⦄ := by
  unfold changeStatus
  mvcgen
  all_goals grind -ring -linarith -lia

/-- The scalar edits of an order write none of its seat columns. -/
@[spec 1050] theorem Orders.Edit.perform_frame (o : Row) (current : Value) (e : Edit)
    (he : ∀ c ∈ e.columns, c ∉ g.columns) :
    ⦃fun s => ⌜Frame g s0 s⌝⦄ e.perform o current ⦃Frame.post g s0⦄ := by
  cases e <;> simp only [Edit.perform] <;> mvcgen
  all_goals grind -ring -linarith -lia [Edit.columns, Edit.field]

@[spec 1050] theorem Orders.runAspects_frame (o : Row) (f : Fragments) (actor : Access.Actor) (status : Value)
    (hs : TableId.assignments ∉ g.tables)
    (hi : TableId.initialProblems ∉ g.tables) (hf : TableId.finalProblems ∉ g.tables)
    (hparts : TableId.orderParts ∉ g.tables) (hc : TableId.comments ∉ g.tables)
    (hpk : TableId.pickups ∉ g.tables) (hdl : TableId.deliveries ∉ g.tables)
    (hpm : "pickup_method" ∉ g.columns) (hdm : "delivery_method" ∉ g.columns)
    (hr : TableId.rentals ∉ g.tables) (hd : TableId.devices ∉ g.tables) :
    ⦃fun s => ⌜Frame g s0 s⌝⦄ runAspects o f actor status ⦃Frame.post g s0⦄ := by
  unfold runAspects
  mvcgen
  all_goals grind -ring -linarith -lia

@[spec 1050] theorem Orders.nextSortValue_frame (branch : Value) :
    ⦃fun s => ⌜Frame g s0 s⌝⦄ nextSortValue branch ⦃Frame.post g s0⦄ := by
  unfold nextSortValue
  mvcgen
  all_goals grind -ring -linarith -lia

/-! ## Reads -/

@[spec 1050] theorem Orders.scope_frame (o : Row) :
    ⦃fun s => ⌜Frame g s0 s⌝⦄ scope o ⦃Frame.post g s0⦄ := by
  unfold scope
  mvcgen
  all_goals grind -ring -linarith -lia

@[spec 1050] theorem Orders.orderDetail_frame (actor : Access.Actor) (order : Value) :
    ⦃fun s => ⌜Frame g s0 s⌝⦄ orderDetail actor order ⦃Frame.post g s0⦄ := by
  unfold orderDetail
  mvcgen
  all_goals grind -ring -linarith -lia

@[spec 1050] theorem Orders.changeValue_frame (c : Row) :
    ⦃fun s => ⌜Frame g s0 s⌝⦄ changeValue c ⦃Frame.post g s0⦄ := by
  unfold changeValue
  mvcgen
  all_goals grind -ring -linarith -lia

@[spec 1050] theorem Orders.orderTrail_frame (actor : Access.Actor) (order : Value) :
    ⦃fun s => ⌜Frame g s0 s⌝⦄ orderTrail actor order ⦃Frame.post g s0⦄ := by
  unfold orderTrail
  mvcgen
  all_goals grind -ring -linarith -lia

@[spec 1050] theorem Status.source_frame (id : Value) :
    ⦃fun s => ⌜Frame g s0 s⌝⦄ Status.source id ⦃Frame.post g s0⦄ := by
  unfold Status.source
  mvcgen
  all_goals grind -ring -linarith -lia

@[spec 1050] theorem Status.transitionValue_frame (id : Int) :
    ⦃fun s => ⌜Frame g s0 s⌝⦄ Status.transitionValue id ⦃Frame.post g s0⦄ := by
  unfold Status.transitionValue
  mvcgen
  all_goals grind -ring -linarith -lia

@[spec 1050] theorem Status.listMoves_frame (fromId : Value) :
    ⦃fun s => ⌜Frame g s0 s⌝⦄ Status.listMoves fromId ⦃Frame.post g s0⦄ := by
  unfold Status.listMoves
  mvcgen
  all_goals grind -ring -linarith -lia

@[spec 1050] theorem Board.pageValue_frame (w : Board.Window) (rows : List Row) :
    ⦃fun s => ⌜Frame g s0 s⌝⦄ Board.pageValue w rows ⦃Frame.post g s0⦄ := by
  unfold Board.pageValue
  mvcgen
  all_goals grind -ring -linarith -lia

@[spec 1050] theorem Board.listBoard_frame (actor : Access.Actor) (branch : Value) (w : Board.Window)
    (sortBy sortOrder : Value) (sortByText sortOrderText : String) :
    ⦃fun s => ⌜Frame g s0 s⌝⦄ Board.listBoard actor branch w sortBy sortOrder sortByText sortOrderText
      ⦃Frame.post g s0⦄ := by
  unfold Board.listBoard
  mvcgen
  all_goals grind -ring -linarith -lia

end Orders

/-! ## Services -/

section Services

open Orders Request

variable [g : Guard] (s0 : Session) {α : Type}

theorem Orders.mutate_upholds (actor : Access.Actor) (order : Value) (action : Row → Txn α)
    (haction : ∀ o s1, ⦃fun s => ⌜Frame g s1 s⌝⦄ action o ⦃Frame.post g s1⦄) :
    ⦃fun s => ⌜Upholds g s0 s⌝⦄ Orders.mutate actor order action ⦃Upholds.post g s0⦄ := by
  unfold Orders.mutate
  mvcgen [Txn.atomically_upholds, haction]
  all_goals grind -ring -linarith -lia

/-- A soft delete writes the lifecycle of the order and the positions of its bucket. -/
@[spec 1050] theorem Orders.deleteOrder_upholds (actor : Access.Actor) (order : Value)
    (hst : "status" ∉ g.columns) (hact : "is_active" ∉ g.columns) (hsort : "sort" ∉ g.columns) :
    ⦃fun s => ⌜Upholds g s0 s⌝⦄ Orders.deleteOrder actor order ⦃Upholds.post g s0⦄ := by
  unfold Orders.deleteOrder
  mvcgen [Orders.mutate_upholds]
  all_goals grind -ring -linarith -lia [Guard.Keeps.closeGap]

/-- A move writes the status of the order and the positions of its bucket. -/
@[spec 1050] theorem Orders.moveOrder_upholds (actor : Access.Actor) (order : Value) (target : Nat)
    (targetSort : Option Nat) (hs : "status_id" ∉ g.columns) (hsort : "sort" ∉ g.columns) :
    ⦃fun s => ⌜Upholds g s0 s⌝⦄ Orders.moveOrder actor order target targetSort
      ⦃Upholds.post g s0⦄ := by
  unfold Orders.moveOrder
  mvcgen [Orders.mutate_upholds]
  all_goals grind -ring -linarith -lia [Guard.Keeps.reorder]

@[spec 1050] theorem Orders.assignStaff_upholds (actor : Access.Actor) (order : Value)
    (ids : List Nat) (hs : TableId.assignments ∉ g.tables) :
    ⦃fun s => ⌜Upholds g s0 s⌝⦄ Orders.assignStaff actor order ids ⦃Upholds.post g s0⦄ := by
  unfold Orders.assignStaff
  mvcgen [Orders.mutate_upholds]
  all_goals grind -ring -linarith -lia

@[spec 1050] theorem Orders.unassignStaff_upholds (actor : Access.Actor) (order : Value)
    (ids : List Nat) (hs : TableId.assignments ∉ g.tables) :
    ⦃fun s => ⌜Upholds g s0 s⌝⦄ Orders.unassignStaff actor order ids ⦃Upholds.post g s0⦄ := by
  unfold Orders.unassignStaff
  mvcgen [Orders.mutate_upholds]
  all_goals grind -ring -linarith -lia

@[spec 1050] theorem Orders.setProblems_upholds (actor : Access.Actor) (side : ProblemSide)
    (order : Value) (lines : List ProblemLine) (hp : side.table ∉ g.tables)
    (hparts : TableId.orderParts ∉ g.tables) :
    ⦃fun s => ⌜Upholds g s0 s⌝⦄ Orders.setProblems actor side order lines ⦃Upholds.post g s0⦄ := by
  unfold Orders.setProblems
  mvcgen [Orders.mutate_upholds]
  all_goals grind -ring -linarith -lia

@[spec 1050] theorem Orders.addComment_upholds (actor : Access.Actor) (order text : Value)
    (hc : TableId.comments ∉ g.tables) :
    ⦃fun s => ⌜Upholds g s0 s⌝⦄ Orders.addComment actor order text ⦃Upholds.post g s0⦄ := by
  unfold Orders.addComment
  mvcgen [Orders.mutate_upholds]
  all_goals grind -ring -linarith -lia

@[spec 1050] theorem Orders.updateComment_upholds (actor : Access.Actor) (order comment text : Value)
    (hc : TableId.comments ∉ g.tables) :
    ⦃fun s => ⌜Upholds g s0 s⌝⦄ Orders.updateComment actor order comment text
      ⦃Upholds.post g s0⦄ := by
  unfold Orders.updateComment
  mvcgen [Orders.mutate_upholds]
  all_goals grind -ring -linarith -lia

@[spec 1050] theorem Orders.removeComment_upholds (actor : Access.Actor) (order comment : Value)
    (hc : TableId.comments ∉ g.tables) :
    ⦃fun s => ⌜Upholds g s0 s⌝⦄ Orders.removeComment actor order comment ⦃Upholds.post g s0⦄ := by
  unfold Orders.removeComment
  mvcgen [Orders.mutate_upholds]
  all_goals grind -ring -linarith -lia

@[spec 1050] theorem Orders.setPlace_upholds (actor : Access.Actor) (kind : PlaceKind) (order : Value)
    (place : Option Place) (hp : kind.table ∉ g.tables) (hm : kind.methodColumn ∉ g.columns) :
    ⦃fun s => ⌜Upholds g s0 s⌝⦄ Orders.setPlace actor kind order place ⦃Upholds.post g s0⦄ := by
  unfold Orders.setPlace
  mvcgen [Orders.mutate_upholds]
  all_goals grind -ring -linarith -lia

@[spec 1050] theorem Orders.setRental_upholds (actor : Access.Actor) (order : Value)
    (req : Option RentalRequest) (hr : TableId.rentals ∉ g.tables)
    (hd : TableId.devices ∉ g.tables) :
    ⦃fun s => ⌜Upholds g s0 s⌝⦄ Orders.setRental actor order req ⦃Upholds.post g s0⦄ := by
  unfold Orders.setRental
  mvcgen [Orders.mutate_upholds]
  all_goals grind -ring -linarith -lia

@[spec 1050] theorem Orders.openRental_upholds (actor : Access.Actor) (order : Value)
    (req : RentalRequest) (hr : TableId.rentals ∉ g.tables) (hd : TableId.devices ∉ g.tables) :
    ⦃fun s => ⌜Upholds g s0 s⌝⦄ Orders.openRental actor order req ⦃Upholds.post g s0⦄ := by
  unfold Orders.openRental
  mvcgen [Orders.mutate_upholds]
  all_goals grind -ring -linarith -lia

@[spec 1050] theorem Orders.changeOrderRental_upholds (actor : Access.Actor) (order : Value)
    (req : RentalRequest) (hr : TableId.rentals ∉ g.tables) :
    ⦃fun s => ⌜Upholds g s0 s⌝⦄ Orders.changeOrderRental actor order req ⦃Upholds.post g s0⦄ := by
  unfold Orders.changeOrderRental
  mvcgen [Orders.mutate_upholds]
  all_goals grind -ring -linarith -lia

@[spec 1050] theorem Orders.closeRental_upholds (actor : Access.Actor) (order : Value)
    (hr : TableId.rentals ∉ g.tables) (hd : TableId.devices ∉ g.tables) :
    ⦃fun s => ⌜Upholds g s0 s⌝⦄ Orders.closeRental actor order ⦃Upholds.post g s0⦄ := by
  unfold Orders.closeRental
  mvcgen [Orders.mutate_upholds]
  all_goals grind -ring -linarith -lia

@[spec 1050] theorem Access.afterCommitAll_frame (ws : List Sweep) :
    ⦃fun s => ⌜Frame g s0 s⌝⦄ Access.afterCommitAll ws ⦃Frame.post g s0⦄ := by
  unfold Access.afterCommitAll
  mvcgen

@[spec 1050] theorem Access.assign_upholds (role branch : Int) (statusIds : List Int)
    (capabilities : List (String × Value)) (hgr : TableId.grants ∉ g.tables) :
    ⦃fun s => ⌜Upholds g s0 s⌝⦄ Access.assign role branch statusIds capabilities
      ⦃Upholds.post g s0⦄ := by
  unfold Access.assign
  mvcgen [Txn.atomically_upholds]
  all_goals grind -ring -linarith -lia

@[spec 1050] theorem Access.revokeRole_upholds (role : Value) (hgr : TableId.grants ∉ g.tables) :
    ⦃fun s => ⌜Upholds g s0 s⌝⦄ Access.revokeRole role ⦃Upholds.post g s0⦄ := by
  unfold Access.revokeRole
  mvcgen [Txn.atomically_upholds]
  all_goals grind -ring -linarith -lia

@[spec 1050] theorem Access.revokeBranch_upholds (branch : Value) (hgr : TableId.grants ∉ g.tables) :
    ⦃fun s => ⌜Upholds g s0 s⌝⦄ Access.revokeBranch branch ⦃Upholds.post g s0⦄ := by
  unfold Access.revokeBranch
  mvcgen [Txn.atomically_upholds]
  all_goals grind -ring -linarith -lia

@[spec 1050] theorem Access.revokeStatus_upholds (status : Value) (hgr : TableId.grants ∉ g.tables) :
    ⦃fun s => ⌜Upholds g s0 s⌝⦄ Access.revokeStatus status ⦃Upholds.post g s0⦄ := by
  unfold Access.revokeStatus
  mvcgen [Txn.atomically_upholds]
  all_goals grind -ring -linarith -lia

@[spec 1050] theorem Status.replaceMoves_upholds (fromId : Value) (targets : List Int)
    (ht : TableId.transitions ∉ g.tables) :
    ⦃fun s => ⌜Upholds g s0 s⌝⦄ Status.replaceMoves fromId targets ⦃Upholds.post g s0⦄ := by
  unfold Status.replaceMoves
  mvcgen [Txn.atomically_upholds]
  all_goals grind -ring -linarith -lia

end Services

/-! ## Around a step -/

section Steps

open Scenario

variable [g : Guard] (s0 : Session)

@[spec 1050] theorem Scenario.actorOf_frame (step : Value) :
    ⦃fun s => ⌜Frame g s0 s⌝⦄ actorOf step ⦃Frame.post g s0⦄ := by
  unfold actorOf
  mvcgen
  all_goals grind -ring -linarith -lia

@[spec 1050] theorem Scenario.listMember_frame (body : Value) (key : String) :
    ⦃fun s => ⌜Frame g s0 s⌝⦄ listMember body key ⦃Frame.post g s0⦄ := by
  unfold listMember
  mvcgen
  all_goals grind -ring -linarith -lia

@[spec 1050] theorem Scenario.sortedCaps_frame (caps : List Value) :
    ⦃fun s => ⌜Frame g s0 s⌝⦄ sortedCaps caps ⦃Frame.post g s0⦄ := by
  unfold sortedCaps
  mvcgen
  all_goals grind -ring -linarith -lia

@[spec 1050] theorem Scenario.dumpTable_frame (what : String) :
    ⦃fun s => ⌜Frame g s0 s⌝⦄ dumpTable what ⦃Frame.post g s0⦄ := by
  unfold dumpTable
  mvcgen
  all_goals grind -ring -linarith -lia

/-- A call on the cache server touches the cache alone. -/
@[spec 1050] theorem Scenario.storeCall_upholds (call : String) (args : List Value) :
    ⦃fun s => ⌜Upholds g s0 s⌝⦄ storeCall call args ⦃Upholds.post g s0⦄ := by
  unfold storeCall
  mvcgen
  all_goals grind -ring -linarith -lia [Upholds.with_kv]

end Steps

end RepairShop
