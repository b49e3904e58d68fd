import RepairShop.Proofs.Footprint

/- Refused requests are atomic.

   A request runs its checks and writes in units of work (`Txn.atomically`): a
   failure inside one rolls the database back to what was last committed, and so
   does a write the database refuses at the commit. After the commit only the
   cache sweeps run, and the cache server fails only with faults, never with a
   refusal. Everything the services do before their commit is calm
   (`Proofs/Footprint`), and what they do after it fails only with faults, so a
   refusal always finds the session calm: the committed database as it was, the
   cache at most filled by the cache store.

   This file proves

   1. `Txn.triple_iff`: a triple of `Txn` read off the run of the computation;
   2. `Txn.sweepAll_faults`: the sweeps after a commit fail only with faults;
   3. `Txn.atomically_calm`: a unit of work whose body is calm refuses only calmly;
   4. the same of every service that commits and of every scenario step but the
      seed (`Scenario.runStep_calm`);
   5. that a refused request leaves every table as it found it and deletes no cache
      entry, shown on a sample shop at a creation refused at the flush. -/

namespace RepairShop

open Std.Do Store Cache Json

set_option mvcgen.warning false

/-! ## Triples over a request, read off its run -/

theorem Txn.triple_iff {α : Type} (x : Txn α) (P : Session → Prop) (Q : α → Session → Prop)
    (E : Failure → Session → Prop) :
    ⦃fun s => ⌜P s⌝⦄ x ⦃post⟨fun a s => ⌜Q a s⌝, fun e s => ⌜E e s⌝⟩⦄ ↔
      ∀ s, P s → match x s with
        | .ok a s' => Q a s'
        | .error e s' => E e s' := by
  simp only [Triple, SPred.entails_1, SPred.down_pure]
  apply forall_congr'
  intro s
  apply imp_congr_right
  intro _
  simp only [wp, PredTrans.apply, EStateM.run]
  cases x s <;> simp

/-! ## The cache server fails only with faults -/

theorem Json.wholeOf_fault {v : Value} {e : Failure} (h : wholeOf v = .error e) : e.IsFault := by
  unfold wholeOf numeralOf at h
  -- every failing branch throws a fault; the others return
  repeat' split at h
  all_goals (cases h; try trivial)

theorem Cache.incr_fault {kv : Kv} {key : Value} {e : Failure}
    (h : Cache.incr kv key = .error e) : e.IsFault := by
  unfold Cache.incr at h
  split at h
  · cases hr : kv.read (fullKey key) with
    | none => simp [hr] at h; cases h
    | some v =>
      cases hw : wholeOf v with
      | error f => simp [hr, hw] at h; exact h ▸ Json.wholeOf_fault hw
      | ok n => simp [hr, hw] at h
  · cases h

/-- A filter whose every pass fails only with faults fails only with faults. -/
theorem Result.filterMapM_fault {α β : Type} {f : α → Result (Option β)}
    (hf : ∀ x e, f x = .error e → e.IsFault) :
    ∀ {xs : List α} {e : Failure}, xs.filterMapM f = .error e → e.IsFault
  | [], _, h => by cases h
  | x :: xs, e, h => by
    rw [List.filterMapM_cons] at h
    cases hx : f x with
    | error e' => simp only [hx, bind, Except.bind] at h; cases h; exact hf x _ hx
    | ok b? =>
      cases hrest : xs.filterMapM f with
      | error e' =>
        cases b? <;> simp only [hx, hrest, bind, Except.bind] at h <;>
          cases h <;> exact Result.filterMapM_fault hf hrest
      | ok rest =>
        cases b? <;> simp only [hx, hrest, bind, Except.bind] at h <;>
          cases h

theorem Cache.Kv.scan_fault {kv : Kv} {pattern : List Nat} {e : Failure}
    (h : kv.scan pattern = .error e) : e.IsFault := by
  refine Result.filterMapM_fault (fun x e' hx => ?_) h
  split at hx
  · cases hx
  · cases hx; trivial

theorem Cache.deleteMatching_fault {kv : Kv} {pattern : Value} {e : Failure}
    (h : Cache.deleteMatching kv pattern = .error e) : e.IsFault := by
  unfold Cache.deleteMatching at h
  split at h
  · cases hs : kv.scan ((fullKey pattern).points?.getD []) with
    | error f => simp only [hs, bind, Except.bind] at h; cases h; exact Kv.scan_fault hs
    | ok keys => simp only [hs, bind, Except.bind] at h; cases h
  · cases h

/-- A sweep never refuses: the cache server fails only with faults. -/
theorem Txn.sweepAll_faults (ws : List Sweep) :
    ⦃fun _ => ⌜True⌝⦄ Txn.sweepAll ws ⦃post⟨fun _ _ => ⌜True⌝, fun e _ => ⌜e.IsFault⌝⟩⦄ := by
  induction ws with
  | nil => mvcgen [Txn.sweepAll]
  | cons w ws ih =>
    cases w with
    | bump key =>
      mvcgen [Txn.sweepAll, Txn.sweep, Txn.withCache, ih]
      exact Cache.incr_fault ‹_›
    | drop pattern =>
      mvcgen [Txn.sweepAll, Txn.sweep, Txn.withCache, ih]
      exact Cache.deleteMatching_fault ‹_›

/-! ## The unit of work -/

/-- What is promised of a request that may commit: nothing after success, and on failure
either a fault or a calm session. -/
abbrev Calm.refusals {α : Type} (s0 : Session) : PostCond α (.except Failure (.arg Session .pure)) :=
  post⟨fun _ _ => ⌜True⌝, fun e s => ⌜e.IsFault ∨ Calm s0 s⌝⟩

/-- Changing only the held refusal and the sweeps is calm. -/
theorem Calm.with_pending {s0 s : Session} (h : Calm s0 s) (w : Option Refusal) (ws : List Sweep) :
    Calm s0 { s with waiting := w, sweeps := ws } :=
  h.trans ⟨rfl, Cache.Filled.refl _⟩

/-- **A unit of work is calm on refusal.** A body that is calm, whatever it writes, fails
into the rollback, which restores the committed database; a refusal of a held write at the
commit is rolled back too; after the commit only the sweeps run, and they refuse nothing. -/
@[spec 500] theorem Txn.atomically_calm {α : Type} (body : Txn α)
    (hbody : ∀ s1, ⦃fun s => ⌜Calm s1 s⌝⦄ body ⦃Calm.post s1⦄) (s0 : Session) :
    ⦃fun s => ⌜Calm s0 s⌝⦄ Txn.atomically body ⦃Calm.refusals s0⦄ := by
  rw [Txn.triple_iff]
  intro s hs
  have hstart : Calm s0 { s with waiting := none, sweeps := [] } := hs.with_pending none []
  have hb := (Txn.triple_iff _ _ _ _).1 (hbody { s with waiting := none, sweeps := [] }) _
    (Calm.refl _)
  unfold Txn.atomically
  dsimp only
  cases hrun : body { s with waiting := none, sweeps := [] } with
  | error e s' =>
    -- the body failed: its writes are rolled back
    rw [hrun] at hb
    exact .inr ((hstart.trans hb).with_db.with_pending none [])
  | ok a s' =>
    rw [hrun] at hb
    dsimp only
    cases hwait : s'.waiting with
    | some r =>
      -- a held write is refused at the commit, and rolled back
      exact .inr ((hstart.trans hb).with_db.with_pending none [])
    | none =>
      -- committed: only the sweeps follow, and they fail only with faults
      have hw := (Txn.triple_iff _ _ _ _).1 (Txn.sweepAll_faults s'.sweeps)
        { s' with waiting := none, sweeps := [], settled := s'.db } trivial
      dsimp only
      cases hsw : Txn.sweepAll s'.sweeps { s' with waiting := none, sweeps := [], settled := s'.db } with
      | ok u s'' => trivial
      | error e s'' =>
        rw [hsw] at hw
        exact .inl hw

/-! ## Writes that move orders -/

section Writes

variable (s0 : Session)

/-- Any held insert is calm. -/
theorem Txn.insert_calm (t : TableId) (given : List (String × Json.Value)) :
    ⦃fun s => ⌜Calm s0 s⌝⦄ Txn.insert t given ⦃Calm.post s0⦄ := by
  unfold Txn.insert
  mvcgen
  · exact Calm.with_db ‹_›
  · exact ‹Calm s0 _›.with_pending _ _

/-- Any held update is calm. -/
theorem Txn.update_calm (t : TableId) (id : Int) (given : List (String × Json.Value)) :
    ⦃fun s => ⌜Calm s0 s⌝⦄ Txn.update t id given ⦃Calm.post s0⦄ := by
  unfold Txn.update
  mvcgen
  · exact Calm.with_db ‹_›
  · exact ‹Calm s0 _›.with_pending _ _

@[spec 500] theorem Txn.execute_calm (f : Db → Except Refusal Db) :
    ⦃fun s => ⌜Calm s0 s⌝⦄ Txn.execute f ⦃Calm.post s0⦄ := by
  mvcgen [Txn.execute]
  exact Calm.with_db ‹_›

end Writes

/-! ## Services that commit

Each service runs its checks and writes in one unit of work and builds its answer after the
commit, from reads that fail only with faults. -/

section Commits

open Orders

variable (s0 : Session)

@[spec 500] theorem Orders.mutate_calm {α : Type} (actor : Access.Actor) (order : Value)
    (action : Row → Txn α) (haction : ∀ o s1, ⦃fun s => ⌜Calm s1 s⌝⦄ action o ⦃Calm.post s1⦄) :
    ⦃fun s => ⌜Calm s0 s⌝⦄ mutate actor order action ⦃Calm.refusals s0⦄ := by
  mvcgen [mutate, haction]
  all_goals grind -ring -linarith -lia

@[spec 500] theorem Orders.createOrder_calm (actor : Access.Actor) (branch : Int) (req : Request.NewOrder) :
    ⦃fun s => ⌜Calm s0 s⌝⦄ createOrder actor branch req ⦃Calm.refusals s0⦄ := by
  mvcgen [createOrder, Txn.insert_calm]
  all_goals grind -ring -linarith -lia

@[spec 500] theorem Orders.updateOrder_calm (actor : Access.Actor) (order : Value) (req : Request.OrderChange) :
    ⦃fun s => ⌜Calm s0 s⌝⦄ updateOrder actor order req ⦃Calm.refusals s0⦄ := by
  mvcgen [updateOrder]
  all_goals grind -ring -linarith -lia

@[spec 500] theorem Orders.moveOrder_calm (actor : Access.Actor) (order : Value) (target : Nat)
    (targetSort : Option Nat) :
    ⦃fun s => ⌜Calm s0 s⌝⦄ moveOrder actor order target targetSort ⦃Calm.refusals s0⦄ := by
  mvcgen [moveOrder]
  all_goals grind -ring -linarith -lia

@[spec 500] theorem Orders.deleteOrder_calm (actor : Access.Actor) (order : Value) :
    ⦃fun s => ⌜Calm s0 s⌝⦄ deleteOrder actor order ⦃Calm.refusals s0⦄ := by
  mvcgen [deleteOrder, Txn.update_calm]
  all_goals grind -ring -linarith -lia

@[spec 500] theorem Orders.assignStaff_calm (actor : Access.Actor) (order : Value) (ids : List Nat) :
    ⦃fun s => ⌜Calm s0 s⌝⦄ assignStaff actor order ids ⦃Calm.refusals s0⦄ := by
  mvcgen [assignStaff]
  all_goals grind -ring -linarith -lia

@[spec 500] theorem Orders.unassignStaff_calm (actor : Access.Actor) (order : Value) (ids : List Nat) :
    ⦃fun s => ⌜Calm s0 s⌝⦄ unassignStaff actor order ids ⦃Calm.refusals s0⦄ := by
  mvcgen [unassignStaff]
  all_goals grind -ring -linarith -lia

@[spec 500] theorem Orders.setProblems_calm (actor : Access.Actor) (side : ProblemSide) (order : Value)
    (lines : List Request.ProblemLine) :
    ⦃fun s => ⌜Calm s0 s⌝⦄ setProblems actor side order lines ⦃Calm.refusals s0⦄ := by
  mvcgen [setProblems]
  all_goals grind -ring -linarith -lia

@[spec 500] theorem Orders.addComment_calm (actor : Access.Actor) (order : Value) (text : Value) :
    ⦃fun s => ⌜Calm s0 s⌝⦄ addComment actor order text ⦃Calm.refusals s0⦄ := by
  mvcgen [addComment]
  all_goals grind -ring -linarith -lia

@[spec 500] theorem Orders.updateComment_calm (actor : Access.Actor) (order : Value) (comment text : Value) :
    ⦃fun s => ⌜Calm s0 s⌝⦄ updateComment actor order comment text ⦃Calm.refusals s0⦄ := by
  mvcgen [updateComment]
  all_goals grind -ring -linarith -lia

@[spec 500] theorem Orders.removeComment_calm (actor : Access.Actor) (order : Value) (comment : Value) :
    ⦃fun s => ⌜Calm s0 s⌝⦄ removeComment actor order comment ⦃Calm.refusals s0⦄ := by
  mvcgen [removeComment]
  all_goals grind -ring -linarith -lia

@[spec 500] theorem Orders.setPlace_calm (actor : Access.Actor) (kind : PlaceKind) (order : Value)
    (place : Option Request.Place) :
    ⦃fun s => ⌜Calm s0 s⌝⦄ setPlace actor kind order place ⦃Calm.refusals s0⦄ := by
  mvcgen [setPlace]
  all_goals grind -ring -linarith -lia

@[spec 500] theorem Orders.setRental_calm (actor : Access.Actor) (order : Value) (req : Option Request.RentalRequest) :
    ⦃fun s => ⌜Calm s0 s⌝⦄ setRental actor order req ⦃Calm.refusals s0⦄ := by
  mvcgen [setRental]
  all_goals grind -ring -linarith -lia

@[spec 500] theorem Orders.openRental_calm (actor : Access.Actor) (order : Value) (req : Request.RentalRequest) :
    ⦃fun s => ⌜Calm s0 s⌝⦄ openRental actor order req ⦃Calm.refusals s0⦄ := by
  mvcgen [openRental]
  all_goals grind -ring -linarith -lia

@[spec 500] theorem Orders.changeOrderRental_calm (actor : Access.Actor) (order : Value) (req : Request.RentalRequest) :
    ⦃fun s => ⌜Calm s0 s⌝⦄ changeOrderRental actor order req ⦃Calm.refusals s0⦄ := by
  mvcgen [changeOrderRental]
  all_goals grind -ring -linarith -lia

@[spec 500] theorem Orders.closeRental_calm (actor : Access.Actor) (order : Value) :
    ⦃fun s => ⌜Calm s0 s⌝⦄ closeRental actor order ⦃Calm.refusals s0⦄ := by
  mvcgen [closeRental]
  all_goals grind -ring -linarith -lia

@[spec 500] theorem Access.assign_calm (role branch : Int) (statusIds : List Int)
    (capabilities : List (String × Value)) :
    ⦃fun s => ⌜Calm s0 s⌝⦄ Access.assign role branch statusIds capabilities ⦃Calm.refusals s0⦄ := by
  mvcgen [Access.assign, Access.afterCommitAll]
  all_goals grind -ring -linarith -lia

@[spec 500] theorem Access.revokeRole_calm (role : Value) :
    ⦃fun s => ⌜Calm s0 s⌝⦄ Access.revokeRole role ⦃Calm.refusals s0⦄ := by
  mvcgen [Access.revokeRole, Access.afterCommitAll]
  all_goals grind -ring -linarith -lia

@[spec 500] theorem Access.revokeBranch_calm (branch : Value) :
    ⦃fun s => ⌜Calm s0 s⌝⦄ Access.revokeBranch branch ⦃Calm.refusals s0⦄ := by
  mvcgen [Access.revokeBranch, Access.afterCommitAll]
  all_goals grind -ring -linarith -lia

@[spec 500] theorem Access.revokeStatus_calm (status : Value) :
    ⦃fun s => ⌜Calm s0 s⌝⦄ Access.revokeStatus status ⦃Calm.refusals s0⦄ := by
  mvcgen [Access.revokeStatus, Access.afterCommitAll]
  all_goals grind -ring -linarith -lia

@[spec 500] theorem Status.replaceMoves_calm (fromId : Value) (targets : List Int) :
    ⦃fun s => ⌜Calm s0 s⌝⦄ Status.replaceMoves fromId targets ⦃Calm.refusals s0⦄ := by
  mvcgen [Status.replaceMoves]
  all_goals grind -ring -linarith -lia

end Commits

/-! ## Steps of a scenario -/

section Steps

open Scenario Api

variable (s0 : Session)

@[spec] theorem Scenario.actorOf_quiet (step : Value) :
    ⦃fun s => ⌜Quiet s0 s⌝⦄ actorOf step ⦃Quiet.post s0⦄ := by
  mvcgen [actorOf]
  all_goals grind -ring -linarith -lia

@[spec] theorem Scenario.listMember_quiet (body : Value) (key : String) :
    ⦃fun s => ⌜Quiet s0 s⌝⦄ listMember body key ⦃Quiet.post s0⦄ := by
  mvcgen [listMember]
  all_goals grind -ring -linarith -lia

/-- Sorting values fails only on values of kinds without a common order, a fault. -/
theorem Json.sortValues_fault {vs : List Value} {e : Failure} (h : sortValues vs = .error e) :
    e.IsFault := by
  unfold sortValues at h
  repeat' split at h
  all_goals (cases h; try trivial)

@[spec] theorem Scenario.sortedCaps_quiet (caps : List Value) :
    ⦃fun s => ⌜Quiet s0 s⌝⦄ sortedCaps caps ⦃Quiet.faultsOnly s0⦄ := by
  mvcgen [sortedCaps]
  all_goals grind -ring -linarith -lia [Json.sortValues_fault]

@[spec] theorem Scenario.dumpTable_quiet (what : String) :
    ⦃fun s => ⌜Quiet s0 s⌝⦄ dumpTable what ⦃Quiet.post s0⦄ := by
  mvcgen [dumpTable]
  all_goals grind -ring -linarith -lia

@[spec] theorem Scenario.signedIn_quiet (identity : String) (account : Int) :
    ⦃fun s => ⌜Quiet s0 s⌝⦄ signedIn identity account ⦃Quiet.post s0⦄ := by
  mvcgen [signedIn]
  all_goals grind -ring -linarith -lia

@[spec] theorem Scenario.credentialsOf_quiet (auth : Value) :
    ⦃fun s => ⌜Quiet s0 s⌝⦄ credentialsOf auth ⦃Quiet.post s0⦄ := by
  cases auth <;> mvcgen [credentialsOf]

/-- A raw write changes the database alone. -/
@[spec 500] theorem Scenario.setColumns_calm (t : TableId) (id : Value) (values : List (String × Value)) :
    ⦃fun s => ⌜Calm s0 s⌝⦄ setColumns t id values ⦃Calm.post s0⦄ := by
  mvcgen [setColumns]
  exact Calm.with_db ‹_›

/-- A call of the cache store fails before it writes anything. -/
@[spec 500] theorem Scenario.storeCall_calm (call : String) (args : List Value) :
    ⦃fun s => ⌜Calm s0 s⌝⦄ storeCall call args ⦃Calm.refusals s0⦄ := by
  mvcgen [storeCall]
  all_goals grind -ring -linarith -lia

/-- An endpoint always answers: a failure of its handler becomes the reply. -/
theorem Api.answer_total (req : HttpRequest) (ep : Endpoint) :
    ⦃fun _ => ⌜True⌝⦄ answer req ep ⦃post⟨fun _ _ => ⌜True⌝, fun _ _ => ⌜False⌝⟩⦄ := by
  rw [Txn.triple_iff]
  intro s _
  unfold answer
  split_ifs
  · trivial
  · simp only [tryCatch, MonadExcept.tryCatch, tryCatchThe, MonadExceptOf.tryCatch,
      EStateM.tryCatch]
    cases dispatch req ep s <;> trivial

@[spec] theorem Api.respond_total (req : HttpRequest) :
    ⦃fun _ => ⌜True⌝⦄ respond req ⦃post⟨fun _ _ => ⌜True⌝, fun _ _ => ⌜False⌝⟩⦄ := by
  mvcgen [respond, Api.answer_total]

/-- A request of the HTTP surface fails only before it is sent. -/
@[spec 500] theorem Scenario.webStep_calm (step : Value) :
    ⦃fun s => ⌜Calm s0 s⌝⦄ webStep step ⦃Calm.refusals s0⦄ := by
  mvcgen [webStep]
  all_goals grind -ring -linarith -lia

/-- A step about orders fails before its commit or with a refusal of its service. -/
@[spec 500] theorem Scenario.orderStep_calm (op : String) (step : Value) (actor : Access.Actor) :
    ⦃fun s => ⌜Calm s0 s⌝⦄ orderStep op step actor ⦃Calm.refusals s0⦄ := by
  mvcgen [orderStep]
  all_goals grind -ring -linarith -lia

/-- A member a step must have is the member it has. -/
theorem Scenario.requiredField_ok {step v : Value} {key : String}
    (h : requiredField step key = .ok v) : step.field key = v := by
  unfold requiredField stepField at h
  split at h
  · simp only [bind, Except.bind, pure, Except.pure] at h
    split at h
    · exact Except.ok.inj h
    · cases h
  · cases h

/-- Every step but the seed fails before its commit or with a refusal of its service. -/
theorem Scenario.runStep_calm (step : Value) (hop : step.field "op" ≠ .str "seed") :
    ⦃fun s => ⌜Calm s0 s⌝⦄ runStep step ⦃Calm.refusals s0⦄ := by
  mvcgen [runStep, List.mapM_faultsOnly]
  all_goals grind -ring -linarith -lia [Scenario.requiredField_ok]

end Steps

/-! ## Requests -/

section Requests

open Scenario

/-- **A refused request changes no table.** A step other than the seed whose answer is a
refusal (a failed validation or lookup, a missing permission, a storage failure at a flush or
at the commit) leaves every table as the step found it, and with them the ids the next
inserts take; and since no sweep ran, the cache has at most gained entries stored by the
cache store: no key deleted, no counter bumped. -/
theorem Scenario.refused_request_keeps_tables (step : Json.Value) (s s' : Session) (d : DomainError)
    (hop : step.field "op" ≠ .str "seed") (h : request step s = (.error (.domain d), s')) :
    s'.db = s.db ∧ Cache.Filled s.kv s'.kv := by
  -- the step's run, from the session as the request prepares it
  have hrun := (Txn.triple_iff _ _ _ _).1
    (Scenario.runStep_calm { s with waiting := none, sweeps := [], settled := s.db } step hop) _
    (Calm.refl _)
  unfold request at h
  split at h
  · cases h
  · rename_i e s'' hr
    rw [hr] at hrun
    obtain ⟨he, rfl⟩ := Prod.mk.inj h
    cases he
    rcases hrun with hf | hc
    · exact absurd hf (Failure.not_isFault_domain d)
    · exact ⟨hc.settled, hc.filled⟩

/-- A row of the sample shop that is open and active. -/
def Scenario.sampleRow (id : Int) (cells : List (String × Cell)) : Row :=
  ⟨id, cells ++ [("is_active", .int 1), ("status", .text openState)]⟩

/-- A grant of every capability to role 1 at a status of branch 1. -/
def Scenario.sampleGrant (id status : Int) : Row :=
  ⟨id, [("branch_id", .int 1), ("role_id", .int 1), ("status_id", .int status)] ++
    Capability.all.map fun c => (c.name, Cell.int 1)⟩

/-- A shop of one branch `Main` with two statuses, `New` and then `In repair`, a move from the
first to the second configured, one role holding every capability at both, one account, one
customer and one phone category, and no orders yet. -/
def Scenario.sampleShop : Db :=
  { branches := [sampleRow 1 [("name", .text "Main")]],
    statuses := [sampleRow 1 [("branch_id", .int 1), ("name_en", .text "New"), ("sort", .int 1)],
      sampleRow 2 [("branch_id", .int 1), ("name_en", .text "In repair"), ("sort", .int 2)]],
    transitions := [⟨1, [("branch_id", .int 1), ("from_status_id", .int 1),
      ("to_status_id", .int 2)]⟩],
    grants := [sampleGrant 1 1, sampleGrant 2 2],
    roles := [sampleRow 1 [("name", .text "Manager")]],
    admins := [sampleRow 1 [("name", .text "manager"), ("email", .text "manager@shop"),
      ("password_hash", .text "")]],
    customers := [sampleRow 1 [("first_name", .text "Customer"), ("phone_number", .text "+1")]],
    phoneCategories := [sampleRow 1 [("name_uz", .text "Phone")]] }

/-- The sample shop served without a cache. -/
def Scenario.sampleSession : Session := { db := sampleShop, kv := {}, wired := false }

/-- An actor of role 1 in branch 1, under the given account key. -/
def Scenario.sampleActor (admin : Value) : Value :=
  .obj [("admin_id", admin), ("role_ids", .arr [.int 1]), ("branch_ids", .arr [.int 1])]

/-- A request to open an order at status `New` of the sample shop for its customer, by the
actor with the given account key. -/
def Scenario.sampleCreation (admin : Value) : Value :=
  .obj [("op", .str "create_order"), ("actor", sampleActor admin),
    ("body", .obj [("branch_id", .int 1), ("user_id", .int 1), ("phone_category_id", .int 1),
      ("status_id", .int 1)])]

/-- A creation by an actor with no account key is refused at the flush, after the order was
written in the unit of work, and leaves the tables as they were. -/
theorem Scenario.unsigned_creation_keeps_tables :
    (request (sampleCreation .null) sampleSession).1 =
      .error (storageFailure "Transaction failed") ∧
    (request (sampleCreation .null) sampleSession).2.db = sampleSession.db ∧
    Cache.Filled sampleSession.kv (request (sampleCreation .null) sampleSession).2.kv := by
  have h : request (sampleCreation .null) sampleSession =
      (.error (storageFailure "Transaction failed"),
        (request (sampleCreation .null) sampleSession).2) := rfl
  exact ⟨congrArg Prod.fst h, Scenario.refused_request_keeps_tables _ _ _ _
    (by simp [sampleCreation, Json.Value.field, Json.Value.get?]) h⟩

end Requests

end RepairShop
