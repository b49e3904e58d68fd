import RepairShop.Proofs.StatusServices

/- The statuses of the orders along a run of steps.

   A step of a scenario runs as one request, from the database the last step left. This file
   proves that every step but a raw write of columns keeps the statuses steered from the
   database it starts on to the one it leaves, whether it succeeds or fails
   (`Scenario.request_obeys`), and by induction that along any run every order stands at a
   status of its own branch. -/

namespace RepairShop

open Std.Do Store Cache Json

set_option autoImplicit false
set_option mvcgen.warning false

namespace Status

/-! ## What a steered step reads of the database it leaves -/

/-- What a steered step reads of the database it leaves: the status rows and the branch and
status of every order. The transition rows are read in the database it starts on only. -/
@[reducible] def leftGuard : Guard where
  tables := [.statuses]
  columns := ["branch_id", "status_id"]
  orders_free := by decide
  trail_free := by decide

end Status

/-- Whatever keeps what a request's statuses depend on keeps what a steered step reads. -/
theorem Guard.Keeps.toLeft {db db' : Db} (h : Status.guard.Keeps db db') :
    Status.leftGuard.Keeps db db' where
  tables t ht := h.tables t (List.mem_cons.2 (.inl (List.mem_singleton.1 ht)))
  orders := h.orders
  trail := h.trail

namespace Status

variable {D : Db} {s s' : Session}

/-- A steered step stays steered under a write that keeps the status rows, the branch and
status of every order, and the trail. -/
theorem steered_stable : leftGuard.Stable (Steered D) := fun _ _ hk h =>
  Steering.keeps (by decide) (by decide) (by decide) h hk fun _ _ _ _ hl => hl.mono hk.trail

theorem steered_stable_guard : guard.Stable (Steered D) := fun _ _ hk h =>
  steered_stable _ _ hk.toLeft h

/-- A request that upholds what the statuses depend on keeps a session at rest. -/
@[grind →] theorem Rests.upholds (h : Rests D s) (hu : Upholds guard s s') : Rests D s' :=
  hu _ steered_stable_guard h

/-- The tables the statuses of a request depend on. -/
@[grind =] theorem guard_tables : guard.tables = [.statuses, .transitions] := rfl

@[grind =] theorem guard_columns : guard.columns = ["branch_id", "status_id"] := rfl

/-- Writing the cache alone keeps a session at rest. -/
@[grind ←] theorem Rests.with_kv (h : Rests D s) (kv : Kv) : Rests D { s with kv } := h

end Status

/-! ## Steps that obey the workflow -/

namespace Status

/-- A step from `D` to `D'` obeys the workflow of statuses: afterwards every order stands at a
status of its own branch; a new order stands at a live status of its branch in `D`; and every
order whose status changed stayed in its branch `β` and moved from its status `a` to a live
status `b` of `β`, along a move that `β` configures in `D`, which the trail of `D'` records. -/
structure Obeys (D D' : Db) : Prop where
  workflow : Workflow D'
  fresh : ∀ o' ∈ D'.orders, (∀ o ∈ D.orders, o.id ≠ o'.id) →
    ∃ β b, o'.get "branch_id" = .int β ∧ o'.get "status_id" = .int b ∧ Live D β b
  moved : ∀ o ∈ D.orders, ∀ o' ∈ D'.orders, o'.id = o.id →
    o'.get "status_id" ≠ o.get "status_id" →
    ∃ β a b, o.get "branch_id" = .int β ∧ o'.get "branch_id" = .int β ∧
      o.get "status_id" = .int a ∧ o'.get "status_id" = .int b ∧ Live D β b ∧
      Configured D β a b ∧ Logged D' o.id a b

variable {D D' : Db}

/-- A steered step from a database in the workflow obeys it. -/
theorem Steering.obeys (h : Steered D D') (hD : Workflow D) : Obeys D D' where
  workflow := h.workflow hD
  fresh o' ho' hnew := by
    rcases h.kept o' ho' with ⟨o, ho, hid, -⟩ | ⟨-, β, b, hβ, hb, hlive⟩
    · exact absurd hid (hnew o ho)
    · exact ⟨β, b, hβ, hb, hlive⟩
  moved o ho o' ho' hid hne := by
    obtain ⟨β, a, b, hβ, ha, hb, hlive, hconf, hlog⟩ := h.moved o ho o' ho' hid hne
    -- the order kept its branch: the order it stands for is `o` itself
    rcases h.kept o' ho' with ⟨o₀, ho₀, hid₀, hbranch⟩ | ⟨hnew, -⟩
    · obtain rfl : o₀ = o := eq_of_mem_of_id hD.keyed ho₀ ho (hid₀.trans hid)
      exact ⟨β, a, b, hβ, hbranch.trans hβ, ha, hb, hlive, hconf, hlog⟩
    · exact absurd hid.symm (hnew o ho)

end Status

/-! ## Replacing the moves of a status -/

section Specs

open Status

variable (s0 : Session)

/-- **Replacing the moves of a status keeps the statuses steered.** It writes the transition
rows alone, which a step reads only in the database it starts on. -/
@[spec 2300] theorem Status.replaceMoves_rests (fromId : Value) (targets : List Int)
    (h0 : Untouched s0) :
    ⦃fun s => ⌜Frame guard s0 s⌝⦄ Status.replaceMoves fromId targets
      ⦃post⟨fun _ s => ⌜Rests s0.settled s⌝, fun _ s => ⌜Rests s0.settled s⌝⟩⦄ := by
  rw [Txn.triple_iff]
  intro s hf
  have hr : Rests s0.settled s := h0.rests.frame hf
  have hu := (Txn.triple_iff _ _ _ _).1
    (@Status.replaceMoves_upholds leftGuard s fromId targets (by decide)) s (Upholds.refl _ _)
  cases hrun : Status.replaceMoves fromId targets s with
  | ok v s' =>
    rw [hrun] at hu
    exact hu _ steered_stable hr
  | error e s' =>
    rw [hrun] at hu
    exact hu _ steered_stable hr

end Specs

/-! ## The HTTP surface -/

section Web

open Api Scenario

variable [g : Guard] (s0 : Session)

@[spec 1050] theorem Scenario.signedIn_frame (identity : String) (account : Int) :
    ⦃fun s => ⌜Frame g s0 s⌝⦄ signedIn identity account ⦃Frame.post g s0⦄ := by
  unfold signedIn
  mvcgen
  all_goals grind -ring -linarith -lia

@[spec 1050] theorem Scenario.credentialsOf_frame (auth : Value) :
    ⦃fun s => ⌜Frame g s0 s⌝⦄ credentialsOf auth ⦃Frame.post g s0⦄ := by
  cases auth <;> unfold credentialsOf <;> mvcgen

@[spec 1050] theorem Api.signIn_frame (req : HttpRequest) :
    ⦃fun s => ⌜Frame g s0 s⌝⦄ signIn req ⦃Frame.post g s0⦄ := by
  unfold signIn
  mvcgen
  all_goals grind -ring -linarith -lia

@[spec 1050] theorem Api.whoAmI_frame (identity : String) :
    ⦃fun s => ⌜Frame g s0 s⌝⦄ whoAmI identity ⦃Frame.post g s0⦄ := by
  unfold whoAmI
  mvcgen
  all_goals grind -ring -linarith -lia

end Web

section WebSteers

open Api Status Scenario

variable (s0 : Session)

/-- The tables of problem lists and places, and the method columns, are none the statuses
depend on. -/
theorem Orders.ProblemSide.table_not_status (side : Orders.ProblemSide) :
    side.table ∉ guard.tables := by
  cases side <;> decide

theorem Orders.PlaceKind.table_not_status (kind : Orders.PlaceKind) :
    kind.table ∉ guard.tables := by
  cases kind <;> decide

theorem Orders.PlaceKind.methodColumn_not_status (kind : Orders.PlaceKind) :
    kind.methodColumn ∉ guard.columns := by
  cases kind <;> decide

theorem Api.orderRoute_rests (req : HttpRequest) (ep : Endpoint) (identity : String)
    (claims : List (String × Value)) (h0 : Untouched s0) :
    ⦃fun s => ⌜Frame guard s0 s⌝⦄ orderRoute req ep identity claims
      ⦃post⟨fun _ s => ⌜Rests s0.settled s⌝, fun _ s => ⌜Rests s0.settled s⌝⟩⦄ := by
  unfold orderRoute
  mvcgen
  all_goals grind -ring -linarith -lia [Orders.ProblemSide.table_not_status,
    Orders.PlaceKind.table_not_status, Orders.PlaceKind.methodColumn_not_status]

theorem Api.dispatch_rests (req : HttpRequest) (ep : Endpoint) (h0 : Untouched s0) :
    ⦃fun s => ⌜Frame guard s0 s⌝⦄ dispatch req ep
      ⦃post⟨fun _ s => ⌜Rests s0.settled s⌝, fun _ s => ⌜Rests s0.settled s⌝⟩⦄ := by
  unfold dispatch permitted authenticated
  mvcgen [Api.orderRoute_rests]
  all_goals grind -ring -linarith -lia

/-- An endpoint answers every failure of its route, from a session at rest. -/
theorem Api.answer_rests (req : HttpRequest) (ep : Endpoint) (h0 : Untouched s0) :
    ⦃fun s => ⌜Frame guard s0 s⌝⦄ answer req ep
      ⦃post⟨fun _ s => ⌜Rests s0.settled s⌝, fun _ s => ⌜Rests s0.settled s⌝⟩⦄ := by
  rw [Txn.triple_iff]
  intro s hf
  have hd := (Txn.triple_iff _ _ _ _).1 (Api.dispatch_rests s0 req ep h0) s hf
  unfold answer
  split_ifs
  · exact h0.rests.frame hf
  · simp only [tryCatch, MonadExcept.tryCatch, tryCatchThe, MonadExceptOf.tryCatch,
      EStateM.tryCatch]
    cases hrun : dispatch req ep s with
    | ok r s' => rw [hrun] at hd; exact hd
    | error e s' => rw [hrun] at hd; exact hd

theorem Api.respond_rests (req : HttpRequest) (h0 : Untouched s0) :
    ⦃fun s => ⌜Frame guard s0 s⌝⦄ respond req
      ⦃post⟨fun _ s => ⌜Rests s0.settled s⌝, fun _ s => ⌜Rests s0.settled s⌝⟩⦄ := by
  unfold respond
  mvcgen [Api.answer_rests]
  all_goals grind -ring -linarith -lia

/-- **A request of the HTTP surface keeps the statuses steered**: its routes run the same
services as the steps about orders, permissions and transitions. -/
@[spec 2300] theorem Scenario.webStep_rests (step : Value) (h0 : Untouched s0) :
    ⦃fun s => ⌜Frame guard s0 s⌝⦄ webStep step
      ⦃post⟨fun _ s => ⌜Rests s0.settled s⌝, fun _ s => ⌜Rests s0.settled s⌝⟩⦄ := by
  unfold webStep
  mvcgen [-Api.respond_total, Api.respond_rests]
  all_goals grind -ring -linarith -lia

end WebSteers

/-! ## Seeding -/

namespace Status

/-- What a step that touches no order leaves of them: their keys, branches and statuses. -/
@[reducible] def ordersGuard : Guard where
  tables := []
  columns := ["branch_id", "status_id"]
  orders_free := List.not_mem_nil
  trail_free := List.not_mem_nil

end Status

/-- Whatever keeps what a request's statuses depend on keeps the orders' branches and
statuses. -/
theorem Guard.Keeps.toOrders {db db' : Db} (h : Status.guard.Keeps db db') :
    Status.ordersGuard.Keeps db db' where
  tables _ ht := absurd ht List.not_mem_nil
  orders := h.orders
  trail := h.trail

namespace Seed

open Status

/-- From `s0` to `s` a run kept the orders' keys, branches and statuses, the trail and every
status row: the seed appends rows to tables other than the orders. -/
structure Widens (s0 s : Session) : Prop where
  frame : Frame ordersGuard s0 s
  statuses : ∀ st ∈ s0.db.statuses, st ∈ s.db.statuses

variable {s0 s s' : Session}

@[grind .] theorem Widens.refl (s : Session) : Widens s s := ⟨Frame.refl _ s, fun _ h => h⟩

@[grind →] theorem Widens.trans (h : Widens s0 s) (h' : Widens s s') : Widens s0 s' :=
  ⟨h.frame.trans h'.frame, fun st hst => h'.statuses st (h.statuses st hst)⟩

/-- A read keeps what the statuses depend on, the status rows among it. -/
@[grind →] theorem Widens.guard (h : Widens s0 s) (hf : Frame guard s s') : Widens s0 s' :=
  h.trans ⟨⟨hf.toCalm, hf.keeps.toOrders, hf.held⟩, fun st hst => by
    rwa [show s'.db.statuses = s.db.statuses from hf.keeps.tables .statuses (by decide)]⟩

@[grind →] theorem Widens.settled (h : Widens s0 s) : s.settled = s0.settled := h.frame.settled

/-- The postcondition of a computation that widens `s0`, on success and on failure. -/
abbrev Widens.post {α : Type} (s0 : Session) : PostCond α (.except Failure (.arg Session .pure)) :=
  post⟨fun _ s => ⌜Widens s0 s⌝, fun _ s => ⌜Widens s0 s⌝⟩

end Seed

namespace Status

/-- From `D` to `D'` the orders kept their keys, branches and statuses, the trail and the status
rows kept every row: the database only grew outside the orders. -/
def Extends (D D' : Db) : Prop :=
  ordersGuard.Keeps D D' ∧ ∀ st ∈ D.statuses, st ∈ D'.statuses

/-- Both the database of a session and its last commit extend `D`. -/
def Grown (D : Db) (s : Session) : Prop := Extends D s.db ∧ Extends D s.settled

variable {D : Db} {s s' s0 : Session}

theorem Extends.refl (D : Db) : Extends D D := ⟨Guard.Keeps.refl _ D, fun _ h => h⟩

theorem Extends.trans {D' D'' : Db} (h : Extends D D') (h' : Extends D' D'') : Extends D D'' :=
  ⟨h.1.trans h'.1, fun st hst => h'.2 st (h.2 st hst)⟩

@[grind →] theorem Grown.frame (h : Grown D s) (hf : Frame guard s s') : Grown D s' := by
  have hst : s'.db.statuses = s.db.statuses := hf.keeps.tables .statuses (by decide)
  refine ⟨⟨h.1.1.trans hf.keeps.toOrders, fun st hst' => hst ▸ h.1.2 st hst'⟩, ?_⟩
  rw [hf.settled]
  exact h.2

theorem Grown.with_kv (h : Grown D s) (kv : Kv) : Grown D { s with kv } := h

/-- A step that only grew the database outside the orders, from a database in the workflow,
obeys it: no order moved, and every status row an order stood at is still there. -/
theorem Extends.obeys {D' : Db} (h : Extends D D') (hD : Workflow D) : Obeys D D' := by
  have hcols : "branch_id" ∈ ordersGuard.columns ∧ "status_id" ∈ ordersGuard.columns := by decide
  refine ⟨⟨(h.1.orders hD.keyed).1, fun o' ho' => ?_⟩, fun o' ho' hnew => ?_,
    fun o ho o' ho' hid hne => ?_⟩
  · obtain ⟨o, ho, -, hsame⟩ := h.1.counterpart hD.keyed ho'
    obtain ⟨β, a, hβ, ha, st, hst, hid, hbr⟩ := hD.own o ho
    exact ⟨β, a, (hsame _ hcols.1).trans hβ, (hsame _ hcols.2).trans ha, st, h.2 st hst, hid, hbr⟩
  · obtain ⟨o, ho, hid, -⟩ := h.1.counterpart hD.keyed ho'
    exact absurd hid (hnew o ho)
  · obtain ⟨o₀, ho₀, hid₀, hsame⟩ := h.1.counterpart hD.keyed ho'
    obtain rfl : o₀ = o := eq_of_mem_of_id hD.keyed ho₀ ho (hid₀.trans hid)
    exact absurd (hsame _ hcols.2) hne

end Status

@[grind →] theorem Seed.Widens.grows {s0 s : Session} (h : Seed.Widens s0 s) :
    Status.Extends s0.db s.db :=
  ⟨h.frame.keeps, h.statuses⟩

/-- A session widened from one whose last commit is its database has grown from that database. -/
@[grind →] theorem Seed.Widens.grown {s0 s : Session} (h : Seed.Widens s0 s)
    (hs0 : s0.settled = s0.db) : Status.Grown s0.db s :=
  ⟨h.grows, by rw [h.settled, hs0]; exact Status.Extends.refl _⟩

/-- A session whose database and last commit are `D` has grown from `D`. -/
@[grind ←] theorem Status.Grown.rest {D : Db} {s : Session} (hdb : s.db = D) (hset : s.settled = D) :
    Status.Grown D s :=
  ⟨hdb ▸ Status.Extends.refl _, hset ▸ Status.Extends.refl _⟩

section SeedSpecs

open Seed Status

variable (s0 : Session)

/-- An insert into a table other than the orders keeps every row it had. -/
theorem Txn.insert_widens (t : TableId) (given : List (String × Value)) (hto : t ≠ .orders) :
    ⦃fun s => ⌜Widens s0 s⌝⦄ Txn.insert t given ⦃Widens.post s0⦄ := by
  rw [Txn.triple_iff]
  intro s h
  have hnever := (Txn.triple_iff _ _ _ _).1 (Txn.insert_value t given s) s rfl
  cases hrun : Txn.insert t given s with
  | error e s' => rw [hrun] at hnever; exact hnever.elim
  | ok id s' =>
    rcases Txn.insert_cases hrun with ⟨rfl, -⟩ | ⟨r, rfl⟩ | ⟨db, hins, rfl⟩
    · exact h
    · exact h.trans ⟨Frame.with_waiting (Frame.refl _ _), fun _ h => h⟩
    · -- the rows of the table are kept, those of every other table untouched
      obtain ⟨hne, hmem⟩ := Db.insert_rows hins
      refine h.trans ⟨Frame.with_db (Frame.refl _ s) (Guard.Keeps.insert hins List.not_mem_nil hto),
        fun st hst => ?_⟩
      by_cases ht : t = .statuses
      · subst ht
        exact hmem st hst
      · show st ∈ db.rows .statuses
        rw [hne .statuses (Ne.symm ht)]
        exact hst

theorem List.forIn_widens {α β : Type} (xs : List α) (init : β) (f : α → β → Txn (ForInStep β))
    (hf : ∀ x b s0, ⦃fun s => ⌜Widens s0 s⌝⦄ f x b ⦃Widens.post s0⦄) :
    ⦃fun s => ⌜Widens s0 s⌝⦄ forIn xs init f ⦃Widens.post s0⦄ := by
  -- the loop widens `s0` whether a pass yields or stops
  refine @Spec.forIn_list_const_inv _ _ _ _ _ _ xs init f (Widens.post s0) fun x b => ?_
  mvcgen [hf]
  case vc1 => exact Widens.refl _
  case vc2 r => intro s h; cases r <;> exact Widens.trans ‹_› h
  case vc3 => exact Widens.trans ‹_›

theorem Seed.ensurePermissions_widens :
    ⦃fun s => ⌜Widens s0 s⌝⦄ ensurePermissions ⦃Widens.post s0⦄ := by
  unfold ensurePermissions texts
  mvcgen [-Txn.insert_frame, -Txn.insert_quiet, -List.forIn_frame, -List.forIn_quiet,
    -Spec.forIn_list, Txn.insert_widens, List.forIn_widens]
  all_goals grind -ring -linarith -lia

theorem Seed.ensureRoles_widens :
    ⦃fun s => ⌜Widens s0 s⌝⦄ ensureRoles ⦃Widens.post s0⦄ := by
  unfold ensureRoles texts
  mvcgen [-Txn.insert_frame, -Txn.insert_quiet, -List.forIn_frame, -List.forIn_quiet,
    -Spec.forIn_list, Txn.insert_widens, List.forIn_widens]
  all_goals grind -ring -linarith -lia

theorem Seed.ensureBranch_widens (name : Value) :
    ⦃fun s => ⌜Widens s0 s⌝⦄ ensureBranch name ⦃Widens.post s0⦄ := by
  unfold ensureBranch
  mvcgen [-Txn.insert_frame, -Txn.insert_quiet, Txn.insert_widens]
  all_goals grind -ring -linarith -lia

theorem Seed.ensureStatuses_widens (branch : Int) :
    ⦃fun s => ⌜Widens s0 s⌝⦄ ensureStatuses branch ⦃Widens.post s0⦄ := by
  unfold ensureStatuses
  mvcgen [-Txn.insert_frame, -Txn.insert_quiet, -List.forIn_frame, -List.forIn_quiet,
    -Spec.forIn_list, Txn.insert_widens, List.forIn_widens]
  all_goals grind -ring -linarith -lia

theorem Seed.ensureMoves_widens (branch : Int) (statuses : List (Value × Int)) :
    ⦃fun s => ⌜Widens s0 s⌝⦄ ensureMoves branch statuses ⦃Widens.post s0⦄ := by
  unfold ensureMoves
  mvcgen [-Txn.insert_frame, -Txn.insert_quiet, -List.forIn_frame, -List.forIn_quiet,
    -Spec.forIn_list, Txn.insert_widens, List.forIn_widens]
  all_goals grind -ring -linarith -lia

theorem Seed.ensureGrants_widens (branch : Int) (statuses : List (Value × Int)) :
    ⦃fun s => ⌜Widens s0 s⌝⦄ ensureGrants branch statuses ⦃Widens.post s0⦄ := by
  unfold ensureGrants
  mvcgen [-Txn.insert_frame, -Txn.insert_quiet, -List.forIn_frame, -List.forIn_quiet,
    -Spec.forIn_list, Txn.insert_widens, List.forIn_widens]
  all_goals grind -ring -linarith -lia

theorem Seed.ensureAdmin_widens (branch : Int) :
    ⦃fun s => ⌜Widens s0 s⌝⦄ ensureAdmin branch ⦃Widens.post s0⦄ := by
  unfold ensureAdmin
  mvcgen [-Txn.insert_frame, -Txn.insert_quiet, Txn.insert_widens]
  all_goals grind -ring -linarith -lia

/-- **A seed run touches no order**: it appends rows to its own tables. -/
theorem Seed.seedWorkflow_widens (name : Value) :
    ⦃fun s => ⌜Widens s0 s⌝⦄ seedWorkflow name ⦃Widens.post s0⦄ := by
  unfold seedWorkflow
  mvcgen [Seed.ensurePermissions_widens, Seed.ensureRoles_widens, Seed.ensureBranch_widens,
    Seed.ensureStatuses_widens, Seed.ensureMoves_widens, Seed.ensureGrants_widens,
    Seed.ensureAdmin_widens]
  all_goals grind -ring -linarith -lia

/-- **A unit of work whose body widens grows the database.** Rolled back, the session is back at
the commit it started from; committed, the new database is the one the body left. -/
theorem Txn.atomically_grows {α : Type} (body : Txn α)
    (hbody : ∀ s1, ⦃fun s => ⌜Widens s1 s⌝⦄ body ⦃Widens.post s1⦄) (hs0 : s0.settled = s0.db) :
    ⦃fun s => ⌜s = s0⌝⦄ Txn.atomically body
      ⦃post⟨fun _ s => ⌜Grown s0.db s⌝, fun _ s => ⌜Grown s0.db s⌝⟩⦄ := by
  rw [Txn.triple_iff]
  rintro s rfl
  have hset : s.settled = s.db := hs0
  have hb := (Txn.triple_iff _ _ _ _).1 (hbody { s with waiting := none, sweeps := [] }) _
    (Widens.refl _)
  unfold Txn.atomically
  dsimp only
  cases hrun : body { s with waiting := none, sweeps := [] } with
  | error e s' =>
    -- rolled back to the commit the request started from
    rw [hrun] at hb
    have hback : s'.settled = s.db := hb.settled.trans hset
    exact ⟨hback ▸ Extends.refl _, hback ▸ Extends.refl _⟩
  | ok a s' =>
    rw [hrun] at hb
    have hext : Extends s.db s'.db := hb.grows
    have hback : s'.settled = s.db := hb.settled.trans hset
    dsimp only
    cases hwait : s'.waiting with
    | some r => exact ⟨hback ▸ Extends.refl _, hback ▸ Extends.refl _⟩
    | none =>
      -- committed: the sweeps after the commit touch the cache alone
      have hw := (Txn.triple_iff _ _ _ _).1 (Txn.sweepAll_keeps s'.sweeps s'.db s'.db)
        { s' with waiting := none, sweeps := [], settled := s'.db } ⟨rfl, rfl⟩
      dsimp only
      cases hsw : Txn.sweepAll s'.sweeps { s' with waiting := none, sweeps := [], settled := s'.db } with
      | ok u s'' =>
        rw [hsw] at hw
        exact ⟨hw.1 ▸ hext, hw.2 ▸ hext⟩
      | error e s'' =>
        rw [hsw] at hw
        exact ⟨hw.1 ▸ hext, hw.2 ▸ hext⟩

/-- The grant summary of a seeded branch only reads. -/
theorem Seed.grantSummary_frame [g : Guard] (branch : Int) :
    ⦃fun s => ⌜Frame g s0 s⌝⦄ grantSummary branch ⦃Frame.post g s0⦄ := by
  unfold grantSummary
  mvcgen
  all_goals grind -ring -linarith -lia

/-- **A seed step touches no order.** Committed, it leaves a database that grew outside the
orders; a dry run leaves the database it started from. -/
theorem Scenario.seedStep_grows (step : Value) (hs0 : s0.settled = s0.db) :
    ⦃fun s => ⌜s = s0⌝⦄ Scenario.seedStep step
      ⦃post⟨fun _ s => ⌜Grown s0.db s⌝, fun _ s => ⌜Grown s0.db s⌝⟩⦄ := by
  unfold Scenario.seedStep
  mvcgen [Seed.seedWorkflow_widens, Txn.atomically_grows, Seed.grantSummary_frame]
  all_goals grind -ring -linarith -lia

end SeedSpecs

/-! ## Steps of a scenario -/

section Steps

open Status Scenario

variable (s0 : Session)

theorem Scenario.orderStep_rests (op : String) (step : Value) (actor : Access.Actor)
    (h0 : Untouched s0) :
    ⦃fun s => ⌜Frame guard s0 s⌝⦄ orderStep op step actor
      ⦃post⟨fun _ s => ⌜Rests s0.settled s⌝, fun _ s => ⌜Rests s0.settled s⌝⟩⦄ := by
  unfold orderStep
  mvcgen
  all_goals grind -ring -linarith -lia

theorem Scenario.runStep_rests (step : Value) (hseed : step.field "op" ≠ .str "seed")
    (hraw : step.field "op" ≠ .str "set") (h0 : Untouched s0) :
    ⦃fun s => ⌜Frame guard s0 s⌝⦄ runStep step
      ⦃post⟨fun _ s => ⌜Rests s0.settled s⌝, fun _ s => ⌜Rests s0.settled s⌝⟩⦄ := by
  unfold runStep
  mvcgen [Scenario.orderStep_rests]
  all_goals grind -ring -linarith -lia [Scenario.requiredField_ok]

/-- A member a step has as a text is the member it must have. -/
theorem Scenario.requiredField_str {step : Value} {key x : String}
    (h : step.field key = .str x) : requiredField step key = .ok (.str x) := by
  cases step with
  | obj fields =>
    cases hl : fields.lookup key with
    | none => simp [Json.Value.field, Json.Value.get?, hl] at h
    | some v =>
      simp only [Json.Value.field, Json.Value.get?, hl, Option.getD_some] at h
      subst h
      simp [requiredField, stepField, Json.Value.has, Json.Value.get?, Json.Value.field, hl]
      rfl
  | _ => simp [Json.Value.field, Json.Value.get?] at h

/-- A seed step runs the seed. -/
theorem Scenario.runStep_seed {step : Value} (hop : step.field "op" = .str "seed") (s : Session) :
    runStep step s = seedStep step s := by
  unfold runStep
  simp only [Txn.lift, requiredField_str hop]
  rfl

end Steps

/-! ## Requests and runs -/

section Runs

open Status Scenario

/-- **Every request but a raw write of columns obeys the workflow of statuses**, whether it
succeeds or fails: a seed grows the database outside the orders, and every other step keeps
the statuses steered. -/
theorem Scenario.request_obeys {step : Value} (hraw : step.field "op" ≠ .str "set")
    {s : Session} (hs : Workflow s.db) : Obeys s.db (request step s).2.db := by
  -- the request runs the step from a session whose last commit is its database
  have hstart : Untouched { s with waiting := none, sweeps := [], settled := s.db } :=
    ⟨Guard.Keeps.refl _ _, hs⟩
  unfold request
  by_cases hseed : step.field "op" = .str "seed"
  · have hrun := (Txn.triple_iff _ _ _ _).1
      (Scenario.seedStep_grows { s with waiting := none, sweeps := [], settled := s.db } step rfl)
      _ rfl
    rw [runStep_seed hseed]
    cases hr : seedStep step { s with waiting := none, sweeps := [], settled := s.db } with
    | ok v s' =>
      rw [hr] at hrun
      exact hrun.1.obeys hs
    | error e s' =>
      rw [hr] at hrun
      exact hrun.2.obeys hs
  · have hrun := (Txn.triple_iff _ _ _ _).1
      (Scenario.runStep_rests _ step hseed hraw hstart) _ (Frame.refl _ _)
    cases hr : runStep step { s with waiting := none, sweeps := [], settled := s.db } with
    | ok v s' =>
      rw [hr] at hrun
      exact hrun.1.obeys hs
    | error e s' =>
      rw [hr] at hrun
      exact hrun.2.obeys hs

/-- Along a run without raw writes every order stands at a status of its own branch. -/
theorem Scenario.workflow_afterSteps {steps : List Value}
    (hsteps : ∀ step ∈ steps, step.field "op" ≠ .str "set") {s : Session} (hs : Workflow s.db) :
    Workflow (afterSteps steps s).db := by
  induction steps generalizing s with
  | nil => exact hs
  | cons step rest ih =>
    exact ih (fun st hst => hsteps st (List.mem_cons_of_mem step hst))
      (request_obeys (hsteps step List.mem_cons_self) hs).workflow

end Runs

end RepairShop
