import RepairShop.Proofs.Quiet
import RepairShop.Scenario.Step

/- Footprints of the services: read up to its commit, every service is quiet.

   Each function that a request runs before its unit of work commits gets a spec
   `⦃Quiet s0⦄ f ⦃Quiet.post s0⦄`, proved by `mvcgen` from the specs of what it
   calls. Functions that only read and fail only with faults (the answer forms of
   orders, comments, grants and moves, the fields of an order, the audit records)
   get the stronger `Quiet.faultsOnly`: they also run after a commit, where a
   refusal could no longer be rolled back.

   The specs come in the order of the services:

   1. access: actors, claims, cached grants, resolution, authorization;
   2. orders: loading, audit records, staff, problems, comments, places, rentals;
   3. the order service before its commit: the checks and edits of an order, the
      fragments a request carries, the sort value of a new order;
   4. reads: details, history, moves and board pages.

   Held writes to orders are quiet only when they leave the seats on the board
   alone (`Txn.update_quiet`); the writes that move a seat are the services'
   commits, which `Proofs/Rollback` and the board theorems are about. -/

namespace RepairShop

open Std.Do Store Cache Json

set_option mvcgen.warning false

/-! ## Access -/

section Access

variable (s0 : Session)

@[spec] theorem Txn.params_quiet (vs : List Value) :
    ⦃fun s => ⌜Quiet s0 s⌝⦄ Txn.params vs ⦃Quiet.post s0⦄ := by
  mvcgen [Txn.params]
  all_goals grind -ring -linarith -lia

@[spec] theorem Access.attachedBranches_quiet (admin : Cell) :
    ⦃fun s => ⌜Quiet s0 s⌝⦄ Access.attachedBranches admin ⦃Quiet.post s0⦄ := by
  mvcgen [Access.attachedBranches]
  all_goals grind -ring -linarith -lia

@[spec] theorem Access.Actor.ofAdmin_quiet (admin : Value) :
    ⦃fun s => ⌜Quiet s0 s⌝⦄ Access.Actor.ofAdmin admin ⦃Quiet.post s0⦄ := by
  mvcgen [Access.Actor.ofAdmin]
  all_goals grind -ring -linarith -lia

@[spec] theorem Access.claims_quiet (admin : Value) :
    ⦃fun s => ⌜Quiet s0 s⌝⦄ Access.claims admin ⦃Quiet.post s0⦄ := by
  mvcgen [Access.claims]
  all_goals grind -ring -linarith -lia

@[spec] theorem Access.generation_quiet (branch : Value) :
    ⦃fun s => ⌜Quiet s0 s⌝⦄ Access.generation branch ⦃Quiet.post s0⦄ := by
  mvcgen [Access.generation]

@[spec] theorem Access.cachedGrants_quiet (branch : Value) (roles : List Int) (gen : Int) :
    ⦃fun s => ⌜Quiet s0 s⌝⦄ Access.cachedGrants branch roles gen ⦃Quiet.post s0⦄ := by
  mvcgen [Access.cachedGrants]
  all_goals grind -ring -linarith -lia

@[spec] theorem Access.cacheGrants_quiet (branch : Value) (role gen : Int) (g : Access.GrantMap) :
    ⦃fun s => ⌜Quiet s0 s⌝⦄ Access.cacheGrants branch role gen g ⦃Quiet.post s0⦄ := by
  mvcgen [Access.cacheGrants]
  all_goals grind -ring -linarith -lia

@[spec] theorem Access.roleSet_quiet (roles : Value) :
    ⦃fun s => ⌜Quiet s0 s⌝⦄ Access.roleSet roles ⦃Quiet.post s0⦄ := by
  mvcgen [Access.roleSet]
  all_goals grind -ring -linarith -lia

@[spec] theorem Access.loadMissing_quiet (branch : Value) (missing : List Int) :
    ⦃fun s => ⌜Quiet s0 s⌝⦄ Access.loadMissing branch missing ⦃Quiet.post s0⦄ := by
  mvcgen [Access.loadMissing]
  all_goals grind -ring -linarith -lia

@[spec] theorem Access.grantsFor_quiet (roles branch : Value) :
    ⦃fun s => ⌜Quiet s0 s⌝⦄ Access.grantsFor roles branch ⦃Quiet.post s0⦄ := by
  mvcgen [Access.grantsFor]
  all_goals grind -ring -linarith -lia

@[spec] theorem Access.resolve_quiet (roles branch status : Value) :
    ⦃fun s => ⌜Quiet s0 s⌝⦄ Access.resolve roles branch status ⦃Quiet.post s0⦄ := by
  mvcgen [Access.resolve]
  all_goals grind -ring -linarith -lia

@[spec] theorem Access.demand_quiet (roles branch status capability location : Value) :
    ⦃fun s => ⌜Quiet s0 s⌝⦄ Access.demand roles branch status capability location
      ⦃Quiet.post s0⦄ := by
  mvcgen [Access.demand]
  all_goals grind -ring -linarith -lia

@[spec] theorem Access.authorize_quiet (roles : List Value) (branch status : Value)
    (capability : String) (location : Option String) :
    ⦃fun s => ⌜Quiet s0 s⌝⦄ Access.authorize roles branch status capability location
      ⦃Quiet.post s0⦄ := by
  mvcgen [Access.authorize]

@[spec] theorem Access.viewable_quiet (roles branch : Value) :
    ⦃fun s => ⌜Quiet s0 s⌝⦄ Access.viewable roles branch ⦃Quiet.post s0⦄ := by
  mvcgen [Access.viewable]
  all_goals grind -ring -linarith -lia

/-- The answer form of a grant reads and refuses nothing, so it may follow a commit. -/
@[spec] theorem Access.grantSummary_quiet (id : Int) :
    ⦃fun s => ⌜Quiet s0 s⌝⦄ Access.grantSummary id ⦃Quiet.faultsOnly s0⦄ := by
  mvcgen [Access.grantSummary]
  all_goals grind -ring -linarith -lia

end Access

/-! ## Orders and their aspects -/

section Orders

open Orders Request

variable (s0 : Session)

theorem Orders.ProblemSide.table_ne_orders (side : ProblemSide) : side.table ≠ .orders := by
  cases side <;> decide

theorem Orders.PlaceKind.table_ne_orders (kind : PlaceKind) : kind.table ≠ .orders := by
  cases kind <;> decide

/-- The method column of a place is no seat column. -/
theorem Orders.PlaceKind.touchesSeat_method (kind : PlaceKind) (v : Value) :
    touchesSeat [(kind.methodColumn, v)] = false := by
  cases kind <;> simp [touchesSeat, seatColumns, PlaceKind.methodColumn]

@[spec] theorem Orders.orderField_quiet (o : Row) (column : String) :
    ⦃fun s => ⌜Quiet s0 s⌝⦄ orderField o column ⦃Quiet.faultsOnly s0⦄ := by
  mvcgen [orderField]

@[spec] theorem Orders.Aspect.authorize_quiet (a : Aspect) (actor : Access.Actor) (branch status : Value) :
    ⦃fun s => ⌜Quiet s0 s⌝⦄ a.authorize actor branch status ⦃Quiet.post s0⦄ := by
  mvcgen [Aspect.authorize]

@[spec] theorem Orders.ensureActiveAdmins_quiet (ids : List Nat) (loc : String) :
    ⦃fun s => ⌜Quiet s0 s⌝⦄ ensureActiveAdmins ids loc ⦃Quiet.post s0⦄ := by
  mvcgen [ensureActiveAdmins]
  all_goals grind -ring -linarith -lia

@[spec] theorem Orders.loadOrder_quiet (actor : Access.Actor) (order : Value) :
    ⦃fun s => ⌜Quiet s0 s⌝⦄ loadOrder actor order ⦃Quiet.post s0⦄ := by
  mvcgen [loadOrder]
  all_goals grind -ring -linarith -lia

@[spec] theorem Orders.record_quiet (order : Int) (field : String) (old new actor : Value) :
    ⦃fun s => ⌜Quiet s0 s⌝⦄ record order field old new actor ⦃Quiet.faultsOnly s0⦄ := by
  mvcgen [record]
  all_goals grind -ring -linarith -lia

/-- Only a value too long to be written has no canonical form, and that is a fault. -/
@[grind →] theorem Audit.canonical_faults {v : Value} {e : Failure}
    (h : Audit.canonical v = .error e) : e.IsFault := by
  unfold Audit.canonical at h
  split at h
  · cases h
  · cases h
    trivial

/-- An integer that has a canonical form is its own. -/
theorem Audit.canonical_int {n : Int} {o : Value} (h : Audit.canonical (.int n) = .ok o) :
    o = .int n := by
  unfold Audit.canonical at h
  split at h
  · cases h
    rfl
  · cases h

@[spec] theorem Orders.logIfChanged_quiet (order : Int) (field : String) (old new actor : Value) :
    ⦃fun s => ⌜Quiet s0 s⌝⦄ logIfChanged order field old new actor ⦃Quiet.faultsOnly s0⦄ := by
  mvcgen [logIfChanged]
  all_goals grind -ring -linarith -lia

@[spec] theorem Orders.logEvent_quiet (order : Int) (action : String) (payload actor : Value) :
    ⦃fun s => ⌜Quiet s0 s⌝⦄ logEvent order action payload actor ⦃Quiet.faultsOnly s0⦄ := by
  mvcgen [logEvent]
  all_goals grind -ring -linarith -lia

@[spec] theorem Orders.assignedStaff_quiet (order : Int) :
    ⦃fun s => ⌜Quiet s0 s⌝⦄ assignedStaff order ⦃Quiet.post s0⦄ := by
  mvcgen [assignedStaff]
  all_goals grind -ring -linarith -lia

@[spec] theorem Orders.writeStaff_quiet (order : Int) (toAdd toRemove : List Value) :
    ⦃fun s => ⌜Quiet s0 s⌝⦄ writeStaff order toAdd toRemove ⦃Quiet.post s0⦄ := by
  mvcgen [writeStaff]
  all_goals grind -ring -linarith -lia

@[spec] theorem Orders.replaceStaff_quiet (order : Int) (ids : List Nat) (actor : Access.Actor) :
    ⦃fun s => ⌜Quiet s0 s⌝⦄ replaceStaff order ids actor ⦃Quiet.post s0⦄ := by
  mvcgen [replaceStaff]
  all_goals grind -ring -linarith -lia

@[spec] theorem Orders.addStaff_quiet (order : Int) (branch status : Value) (ids : List Nat)
    (actor : Access.Actor) :
    ⦃fun s => ⌜Quiet s0 s⌝⦄ addStaff order branch status ids actor ⦃Quiet.post s0⦄ := by
  mvcgen [addStaff]
  all_goals grind -ring -linarith -lia

@[spec] theorem Orders.removeStaff_quiet (order : Int) (branch status : Value) (ids : List Nat)
    (actor : Access.Actor) :
    ⦃fun s => ⌜Quiet s0 s⌝⦄ removeStaff order branch status ids actor ⦃Quiet.post s0⦄ := by
  mvcgen [removeStaff]
  all_goals grind -ring -linarith -lia

@[spec] theorem Orders.storedPart_quiet (p : Row) :
    ⦃fun s => ⌜Quiet s0 s⌝⦄ storedPart p ⦃Quiet.post s0⦄ := by
  mvcgen [storedPart]
  all_goals grind -ring -linarith -lia

@[spec] theorem Orders.problemSnapshot_quiet (side : ProblemSide) (order : Int) :
    ⦃fun s => ⌜Quiet s0 s⌝⦄ problemSnapshot side order ⦃Quiet.post s0⦄ := by
  mvcgen [problemSnapshot]
  all_goals grind -ring -linarith -lia

@[spec] theorem Orders.parentRound_quiet (frontier : List Value) (known : Catalog.ParentMap Value) :
    ⦃fun s => ⌜Quiet s0 s⌝⦄ parentRound frontier known ⦃Quiet.post s0⦄ := by
  mvcgen [parentRound]
  all_goals grind -ring -linarith -lia

@[spec] theorem Orders.parentLinks_quiet (fuel : Nat) (frontier : List Value)
    (known : Catalog.ParentMap Value) :
    ⦃fun s => ⌜Quiet s0 s⌝⦄ parentLinks fuel frontier known ⦃Quiet.post s0⦄ := by
  -- one round per unit of fuel
  induction fuel generalizing s0 frontier known with
  | zero => mvcgen [parentLinks]
  | succ n ih =>
    mvcgen [parentLinks, ih]
    all_goals grind -ring -linarith -lia

@[spec] theorem Orders.mappedCategories_quiet (phoneCategory : Value) :
    ⦃fun s => ⌜Quiet s0 s⌝⦄ mappedCategories phoneCategory ⦃Quiet.post s0⦄ := by
  mvcgen [mappedCategories]
  all_goals grind -ring -linarith -lia

@[spec] theorem Orders.allowedParts_quiet (lines : List Request.ProblemLine) :
    ⦃fun s => ⌜Quiet s0 s⌝⦄ allowedParts lines ⦃Quiet.post s0⦄ := by
  mvcgen [allowedParts]
  all_goals grind -ring -linarith -lia

@[spec] theorem Orders.validateProblems_quiet (side : ProblemSide) (phoneCategory : Value)
    (lines : List Request.ProblemLine) :
    ⦃fun s => ⌜Quiet s0 s⌝⦄ validateProblems side phoneCategory lines ⦃Quiet.post s0⦄ := by
  mvcgen [validateProblems]
  all_goals grind -ring -linarith -lia

@[spec] theorem Orders.replaceProblems_quiet (side : ProblemSide) (order : Int)
    (lines : List Request.ProblemLine) (actor : Access.Actor) :
    ⦃fun s => ⌜Quiet s0 s⌝⦄ replaceProblems side order lines actor ⦃Quiet.post s0⦄ := by
  mvcgen [replaceProblems]
  all_goals grind -ring -linarith -lia [ProblemSide.table_ne_orders]

@[spec] theorem Orders.applyProblems_quiet (side : ProblemSide) (order : Int) (phoneCategory : Value)
    (lines : List Request.ProblemLine) (actor : Access.Actor) :
    ⦃fun s => ⌜Quiet s0 s⌝⦄ applyProblems side order phoneCategory lines actor ⦃Quiet.post s0⦄ := by
  mvcgen [applyProblems]
  all_goals grind -ring -linarith -lia

@[spec] theorem Orders.commentValue_quiet (id : Int) :
    ⦃fun s => ⌜Quiet s0 s⌝⦄ commentValue id ⦃Quiet.faultsOnly s0⦄ := by
  mvcgen [commentValue]
  all_goals grind -ring -linarith -lia

@[spec] theorem Orders.appendComments_quiet (order : Int) (status : Value) (texts : List Value)
    (actor : Access.Actor) :
    ⦃fun s => ⌜Quiet s0 s⌝⦄ appendComments order status texts actor ⦃Quiet.post s0⦄ := by
  mvcgen [appendComments]
  all_goals grind -ring -linarith -lia

@[spec] theorem Orders.openComment_quiet (order : Int) (comment : Value) :
    ⦃fun s => ⌜Quiet s0 s⌝⦄ openComment order comment ⦃Quiet.post s0⦄ := by
  mvcgen [openComment]
  all_goals grind -ring -linarith -lia

@[spec] theorem Orders.editComment_quiet (order : Int) (branch comment text : Value)
    (actor : Access.Actor) :
    ⦃fun s => ⌜Quiet s0 s⌝⦄ editComment order branch comment text actor ⦃Quiet.post s0⦄ := by
  mvcgen [editComment]
  all_goals grind -ring -linarith -lia

@[spec] theorem Orders.deleteComment_quiet (order : Int) (branch comment : Value) (actor : Access.Actor) :
    ⦃fun s => ⌜Quiet s0 s⌝⦄ deleteComment order branch comment actor ⦃Quiet.post s0⦄ := by
  mvcgen [deleteComment]
  all_goals grind -ring -linarith -lia

@[spec] theorem Orders.currentPlace_quiet (kind : PlaceKind) (order : Int) :
    ⦃fun s => ⌜Quiet s0 s⌝⦄ currentPlace kind order ⦃Quiet.post s0⦄ := by
  mvcgen [currentPlace]
  all_goals grind -ring -linarith -lia

@[spec] theorem Orders.applyPlace_quiet (kind : PlaceKind) (order : Int) (place : Option Request.Place)
    (actor : Access.Actor) :
    ⦃fun s => ⌜Quiet s0 s⌝⦄ applyPlace kind order place actor ⦃Quiet.post s0⦄ := by
  mvcgen [applyPlace]
  all_goals grind -ring -linarith -lia [PlaceKind.table_ne_orders,
    PlaceKind.touchesSeat_method]

@[spec] theorem Orders.rentalView_quiet (r : Row) :
    ⦃fun s => ⌜Quiet s0 s⌝⦄ rentalView r ⦃Quiet.post s0⦄ := by
  mvcgen [rentalView]
  all_goals grind -ring -linarith -lia

@[spec] theorem Orders.activeRental_quiet (order : Int) :
    ⦃fun s => ⌜Quiet s0 s⌝⦄ activeRental order ⦃Quiet.post s0⦄ := by
  mvcgen [activeRental]
  all_goals grind -ring -linarith -lia

@[spec] theorem Orders.setAvailable_quiet (device : Int) (available : Bool) :
    ⦃fun s => ⌜Quiet s0 s⌝⦄ setAvailable device available ⦃Quiet.post s0⦄ := by
  mvcgen [setAvailable]
  all_goals grind -ring -linarith -lia

@[spec] theorem Orders.startRental_quiet (order : Int) (req : Request.RentalRequest) (actor : Access.Actor) :
    ⦃fun s => ⌜Quiet s0 s⌝⦄ startRental order req actor ⦃Quiet.post s0⦄ := by
  mvcgen [startRental]
  all_goals grind -ring -linarith -lia

@[spec] theorem Orders.changeRental_quiet (order : Int) (row : RentalView) (req : Request.RentalRequest)
    (actor : Access.Actor) :
    ⦃fun s => ⌜Quiet s0 s⌝⦄ changeRental order row req actor ⦃Quiet.post s0⦄ := by
  mvcgen [changeRental]
  all_goals grind -ring -linarith -lia

@[spec] theorem Orders.endRental_quiet (order : Int) (row : RentalView) (actor : Access.Actor) :
    ⦃fun s => ⌜Quiet s0 s⌝⦄ endRental order row actor ⦃Quiet.post s0⦄ := by
  mvcgen [endRental]
  all_goals grind -ring -linarith -lia

@[spec] theorem Orders.applyRental_quiet (order : Int) (req : Option Request.RentalRequest)
    (actor : Access.Actor) :
    ⦃fun s => ⌜Quiet s0 s⌝⦄ applyRental order req actor ⦃Quiet.post s0⦄ := by
  mvcgen [applyRental]
  all_goals grind -ring -linarith -lia

@[spec] theorem Orders.createRental_quiet (order : Int) (branch status : Value) (req : Request.RentalRequest)
    (actor : Access.Actor) :
    ⦃fun s => ⌜Quiet s0 s⌝⦄ createRental order branch status req actor ⦃Quiet.post s0⦄ := by
  mvcgen [createRental]
  all_goals grind -ring -linarith -lia

@[spec] theorem Orders.requireRental_quiet (order : Int) :
    ⦃fun s => ⌜Quiet s0 s⌝⦄ requireRental order ⦃Quiet.post s0⦄ := by
  mvcgen [requireRental]
  all_goals grind -ring -linarith -lia

@[spec] theorem Orders.updateRental_quiet (order : Int) (branch status : Value) (req : Request.RentalRequest)
    (actor : Access.Actor) :
    ⦃fun s => ⌜Quiet s0 s⌝⦄ updateRental order branch status req actor ⦃Quiet.post s0⦄ := by
  mvcgen [updateRental]
  all_goals grind -ring -linarith -lia

@[spec] theorem Orders.cancelRental_quiet (order : Int) (branch status : Value) (actor : Access.Actor) :
    ⦃fun s => ⌜Quiet s0 s⌝⦄ cancelRental order branch status actor ⦃Quiet.post s0⦄ := by
  mvcgen [cancelRental]
  all_goals grind -ring -linarith -lia


/-! ## The order service before its commit -/

/-- The answer form of an order reads and refuses nothing, so it may follow a commit. -/
@[spec] theorem Orders.orderValue_quiet (id : Int) :
    ⦃fun s => ⌜Quiet s0 s⌝⦄ orderValue id ⦃Quiet.faultsOnly s0⦄ := by
  mvcgen [orderValue, List.mapM_faultsOnly]
  all_goals grind -ring -linarith -lia

@[spec] theorem Orders.currentField_quiet (id : Int) (column : String) :
    ⦃fun s => ⌜Quiet s0 s⌝⦄ currentField id column ⦃Quiet.faultsOnly s0⦄ := by
  mvcgen [currentField]
  all_goals grind -ring -linarith -lia

@[spec] theorem Orders.statusInBranch_quiet (status branch : Value) :
    ⦃fun s => ⌜Quiet s0 s⌝⦄ statusInBranch status branch ⦃Quiet.post s0⦄ := by
  mvcgen [statusInBranch]
  all_goals grind -ring -linarith -lia

@[spec] theorem Orders.initialStatus_quiet (branch : Value) :
    ⦃fun s => ⌜Quiet s0 s⌝⦄ initialStatus branch ⦃Quiet.post s0⦄ := by
  mvcgen [initialStatus]
  all_goals grind -ring -linarith -lia

@[spec] theorem Orders.checkCustomer_quiet (id : Value) :
    ⦃fun s => ⌜Quiet s0 s⌝⦄ checkCustomer id ⦃Quiet.post s0⦄ := by
  mvcgen [checkCustomer]
  all_goals grind -ring -linarith -lia

@[spec] theorem Orders.checkPhoneCategory_quiet (id : Value) :
    ⦃fun s => ⌜Quiet s0 s⌝⦄ checkPhoneCategory id ⦃Quiet.post s0⦄ := by
  mvcgen [checkPhoneCategory]
  all_goals grind -ring -linarith -lia

@[spec] theorem Status.checkMove_quiet (branch current target : Value) :
    ⦃fun s => ⌜Quiet s0 s⌝⦄ Status.checkMove branch current target ⦃Quiet.post s0⦄ := by
  mvcgen [Status.checkMove]
  all_goals grind -ring -linarith -lia

/-- A change of status writes `status_id`, which is no seat column. -/
@[spec] theorem Orders.changeStatus_quiet (o : Row) (current target : Value) :
    ⦃fun s => ⌜Quiet s0 s⌝⦄ changeStatus o current target ⦃Quiet.post s0⦄ := by
  mvcgen [changeStatus]
  all_goals grind -ring -linarith -lia [touchesSeat, seatColumns]

/-- The scalar edits of an order write none of its seat columns. -/
@[spec] theorem Orders.Edit.perform_quiet (o : Row) (current : Value) (e : Edit) :
    ⦃fun s => ⌜Quiet s0 s⌝⦄ e.perform o current ⦃Quiet.post s0⦄ := by
  cases e <;> mvcgen [Edit.perform]
  all_goals grind -ring -linarith -lia [touchesSeat, seatColumns]

@[spec] theorem Orders.runAspects_quiet (o : Row) (f : Fragments) (actor : Access.Actor) (status : Value) :
    ⦃fun s => ⌜Quiet s0 s⌝⦄ runAspects o f actor status ⦃Quiet.post s0⦄ := by
  mvcgen [runAspects]
  all_goals grind -ring -linarith -lia

@[spec] theorem Orders.nextSortValue_quiet (branch : Value) :
    ⦃fun s => ⌜Quiet s0 s⌝⦄ nextSortValue branch ⦃Quiet.post s0⦄ := by
  mvcgen [nextSortValue]
  all_goals grind -ring -linarith -lia

/-! ## Reads -/

@[spec] theorem Orders.scope_quiet (o : Row) :
    ⦃fun s => ⌜Quiet s0 s⌝⦄ scope o ⦃Quiet.faultsOnly s0⦄ := by
  mvcgen [scope]
  all_goals grind -ring -linarith -lia

@[spec] theorem Orders.orderDetail_quiet (actor : Access.Actor) (order : Value) :
    ⦃fun s => ⌜Quiet s0 s⌝⦄ orderDetail actor order ⦃Quiet.post s0⦄ := by
  mvcgen [orderDetail]
  all_goals grind -ring -linarith -lia

@[spec] theorem Orders.changeValue_quiet (c : Row) :
    ⦃fun s => ⌜Quiet s0 s⌝⦄ changeValue c ⦃Quiet.post s0⦄ := by
  mvcgen [changeValue]
  all_goals grind -ring -linarith -lia

@[spec] theorem Orders.orderTrail_quiet (actor : Access.Actor) (order : Value) :
    ⦃fun s => ⌜Quiet s0 s⌝⦄ orderTrail actor order ⦃Quiet.post s0⦄ := by
  mvcgen [orderTrail]
  all_goals grind -ring -linarith -lia

@[spec] theorem Status.source_quiet (id : Value) :
    ⦃fun s => ⌜Quiet s0 s⌝⦄ Status.source id ⦃Quiet.post s0⦄ := by
  mvcgen [Status.source]
  all_goals grind -ring -linarith -lia

@[spec] theorem Status.transitionValue_quiet (id : Int) :
    ⦃fun s => ⌜Quiet s0 s⌝⦄ Status.transitionValue id ⦃Quiet.faultsOnly s0⦄ := by
  mvcgen [Status.transitionValue]
  all_goals grind -ring -linarith -lia

@[spec] theorem Status.listMoves_quiet (fromId : Value) :
    ⦃fun s => ⌜Quiet s0 s⌝⦄ Status.listMoves fromId ⦃Quiet.post s0⦄ := by
  mvcgen [Status.listMoves]
  all_goals grind -ring -linarith -lia

@[spec] theorem Board.pageValue_quiet (w : Board.Window) (rows : List Row) :
    ⦃fun s => ⌜Quiet s0 s⌝⦄ Board.pageValue w rows ⦃Quiet.post s0⦄ := by
  mvcgen [Board.pageValue]
  all_goals grind -ring -linarith -lia

@[spec] theorem Board.listBoard_quiet (actor : Access.Actor) (branch : Value) (w : Board.Window)
    (sortBy sortOrder : Value) (sortByText sortOrderText : String) :
    ⦃fun s => ⌜Quiet s0 s⌝⦄ Board.listBoard actor branch w sortBy sortOrder sortByText sortOrderText
      ⦃Quiet.post s0⦄ := by
  mvcgen [Board.listBoard]
  all_goals grind -ring -linarith -lia

end Orders

end RepairShop
