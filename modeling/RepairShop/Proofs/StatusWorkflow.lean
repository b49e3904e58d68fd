import RepairShop.Proofs.StatusRuns
import RepairShop.Proofs.StoredOrder

/- The workflow of statuses, at creation and along runs.

   This file proves where a new order starts: at the status its request names, or else at the
   first status its branch may start at by sort and key, either way a live status of its
   branch (`Orders.createOrder_places`); that a move no transition row allows is refused with
   both ends named and the database untouched (`Orders.moveOrder_refused`); and gathers these
   with the run theorems of the status steps into the workflow every order follows. -/

namespace RepairShop

open Std.Do Store Cache Json

set_option autoImplicit false
set_option mvcgen.warning false

/-! ## Where a new order starts -/

namespace Status

variable {s s' : Session} {β b : Int}

/-- No order of the database is new to the last commit: each has a key the commit holds. -/
def NoFresh (s : Session) : Prop :=
  s.db.Keyed ∧ ∀ o' ∈ s.db.orders, ∃ o ∈ s.settled.orders, o.id = o'.id

/-- Every order of the database that is new to the last commit stands in branch `β` at status
`b`. -/
def FreshAt (β b : Int) (s : Session) : Prop :=
  s.db.Keyed ∧ ∀ o' ∈ s.db.orders, (∀ o ∈ s.settled.orders, o.id ≠ o'.id) →
    o'.get "branch_id" = .int β ∧ o'.get "status_id" = .int b

/-- No status row holds a NaN for its sort, as no stored row does. -/
def SortsStored (statuses : List Row) : Prop := ∀ st ∈ statuses, (st.get "sort").isNaN = false

/-- Every order of `db` that `D` does not hold stands in branch `β` at a status `b` of which
`P` holds. -/
def Placed (D : Db) (β : Int) (P : Int → Prop) (db : Db) : Prop :=
  ∀ o' ∈ db.orders, (∀ o ∈ D.orders, o.id ≠ o'.id) →
    ∃ b, o'.get "branch_id" = .int β ∧ o'.get "status_id" = .int b ∧ P b

/-- The database a step starts from holds no order new to it. -/
theorem Placed.self (D : Db) (β : Int) (P : Int → Prop) : Placed D β P D :=
  fun o' ho' hnew => absurd rfl (hnew o' ho')

@[grind →] theorem NoFresh.frame (h : NoFresh s) (hf : Frame guard s s') : NoFresh s' := by
  refine ⟨(hf.keeps.orders h.1).1, fun o'' ho'' => ?_⟩
  obtain ⟨o', ho', hid, -⟩ := hf.keeps.counterpart h.1 ho''
  obtain ⟨o, ho, hid'⟩ := h.2 o' ho'
  exact ⟨o, hf.settled ▸ ho, hid'.trans hid⟩

@[grind →] theorem FreshAt.frame (h : FreshAt β b s) (hf : Frame guard s s') :
    FreshAt β b s' := by
  refine ⟨(hf.keeps.orders h.1).1, fun o'' ho'' hnew => ?_⟩
  obtain ⟨o', ho', hid, hcols⟩ := hf.keeps.counterpart h.1 ho''
  have hnew' : ∀ o ∈ s.settled.orders, o.id ≠ o'.id := fun o ho => hid ▸ hnew o (hf.settled ▸ ho)
  obtain ⟨hβ, hb⟩ := h.2 o' ho' hnew'
  exact ⟨(hcols _ (by decide)).trans hβ, (hcols _ (by decide)).trans hb⟩

end Status

@[grind →] theorem Calm.settled_eq {s s' : Session} (h : Calm s s') : s'.settled = s.settled :=
  h.settled

@[grind →] theorem Frame.statuses_eq {s s' : Session} (hf : Frame Status.guard s s') :
    s'.db.statuses = s.db.statuses :=
  hf.keeps.tables .statuses (by decide)

@[grind →] theorem Status.Live.frame_back {s s' : Session} {β b : Int} (hf : Frame Status.guard s s')
    (h : Status.Live s'.db β b) : Status.Live s.db β b :=
  h.of_statuses hf.statuses_eq

section Creation

open Status

variable (s0 : Session)

/-- **A new order stands at the status it was given.** Inserting an order, with no order new
to the last commit yet, leaves the inserted order the only new one, in the branch and at the
status it was given. -/
theorem Txn.insert_order_fresh (β : Int) (sv : Value) (rest : List (String × Value)) :
    ⦃fun s => ⌜s = s0 ∧ NoFresh s0⌝⦄
      Txn.insert .orders (("branch_id", .int β) :: ("status_id", sv) :: rest)
      ⦃post⟨fun _ s => ⌜Calm s0 s ∧ ∀ b, sv = .int b → FreshAt β b s⌝, fun _ _ => ⌜False⌝⟩⦄ := by
  rw [Txn.triple_iff]
  rintro s ⟨rfl, hk, hold⟩
  have hv := (Txn.triple_iff _ _ _ _).1 (Txn.insert_value .orders
    (("branch_id", .int β) :: ("status_id", sv) :: rest) s) s rfl
  cases hrun : Txn.insert .orders (("branch_id", .int β) :: ("status_id", sv) :: rest) s with
  | error e s' => rw [hrun] at hv; exact hv
  | ok id s' =>
    rw [hrun] at hv
    refine ⟨hv.1, fun b hb => ?_⟩
    subst hb
    -- held or refused, the database is as it was, with no new order
    have hsame : ∀ {db : Db}, db = s.db → FreshAt β b { s' with db } := by
      rintro db rfl
      exact ⟨hk, fun o' ho' hnew => absurd (hold o' ho')
        (by simpa [hv.1.settled] using fun o ho h => hnew o ho h)⟩
    rcases Txn.insert_cases hrun with ⟨rfl, -⟩ | ⟨r, rfl⟩ | ⟨db, hdb, rfl⟩
    · exact hsame rfl
    · exact hsame rfl
    · -- stored, the new row comes last, past every key, in the branch and status given
      have hlβ : (("branch_id", Value.int β) :: ("status_id", Value.int b) :: rest).lookup
        "branch_id" = some (.int β) := rfl
      have hlb : (("branch_id", Value.int β) :: ("status_id", Value.int b) :: rest).lookup
        "status_id" = some (.int b) := rfl
      obtain ⟨row, hrows, hid, hnext, hrβ, hrb⟩ := Db.insert_order_status hdb hlβ hlb
      have hlt : ∀ r ∈ s.db.orders, r.id < row.id := fun r hr => hid ▸ hnext ▸ lt_nextId hr
      have hord : db.orders = s.db.orders ++ [row] := hrows.trans (placeRow_of_lt hlt)
      refine ⟨?_, fun o' ho' hnew => ?_⟩
      · show db.orders.Pairwise _
        rw [hord]
        exact List.pairwise_append.2 ⟨hk, List.pairwise_singleton _ _,
          fun a ha c hc => (List.mem_singleton.1 hc) ▸ hlt a ha⟩
      · rw [hord] at ho'
        rcases List.mem_append.1 ho' with ho' | hrow
        · obtain ⟨o, ho, hid'⟩ := hold o' ho'
          exact absurd hid' (hnew o ho)
        · obtain rfl := List.mem_singleton.1 hrow
          exact ⟨hrβ, hrb⟩

/-- **The initial status read within a request is the first of its branch.** -/
theorem Orders.initialStatus_opens (β : Int) :
    ⦃fun s => ⌜Frame guard s0 s ∧ SortsStored s.db.statuses⌝⦄ Orders.initialStatus (.int β)
      ⦃post⟨fun v s => ⌜Frame guard s0 s ∧ v = .int (firstOpen s.db.statuses β).id ∧
          FirstOpen s.db.statuses β (firstOpen s.db.statuses β)⌝,
        fun _ s => ⌜Frame guard s0 s⌝⟩⦄ := by
  rw [Txn.triple_iff]
  rintro s ⟨hf, hsort⟩
  have hfr := (Txn.triple_iff _ _ _ _).1 (Orders.initialStatus_frame s0 (.int β)) s hf
  cases hrun : Orders.initialStatus (.int β) s with
  | error e s' => rw [hrun] at hfr; exact hfr
  | ok v s' =>
    rw [hrun] at hfr
    cases hfβ : fitsInt64 β
    · -- a branch key too large is refused as a parameter
      have hfail : Orders.initialStatus (.int β) s = .error (.fault .tooLargeForStore) s := by
        unfold Orders.initialStatus
        rw [Txn.bind_of_fail (Txn.param_too_large hfβ)]
      rw [hfail] at hrun
      cases hrun
    · obtain ⟨rfl, hv, hfirst⟩ := Orders.initialStatus_lowest hfβ hsort hrun
      exact ⟨hfr, hv, hfirst⟩

/-- **A unit of work that creates one order leaves it the only new order.** Rolled back, the
database is the one it started from; committed, it is the body's, where every order new to
the start stands at the status the body placed it at; the sweeps after the commit touch the
cache alone. -/
theorem Txn.atomically_places {α : Type} (body : Txn α) (D : Db) (β : Int) (P : Int → Prop)
    (hD : D.Keyed)
    (hbody : ⦃fun s => ⌜s.db = D ∧ s.settled = D ∧ NoFresh s⌝⦄ body
      ⦃post⟨fun _ s => ⌜s.settled = D ∧ ∃ b, P b ∧ FreshAt β b s⌝, fun _ s => ⌜s.settled = D⌝⟩⦄) :
    ⦃fun s => ⌜s.db = D ∧ s.settled = D⌝⦄ Txn.atomically body
      ⦃post⟨fun _ s => ⌜Placed D β P s.db⌝, fun _ s => ⌜Placed D β P s.db⌝⟩⦄ := by
  rw [Txn.triple_iff]
  rintro s ⟨hdb, hset⟩
  have hstart : NoFresh { s with waiting := none, sweeps := [] } :=
    ⟨hdb ▸ hD, fun o' ho' => ⟨o', hset ▸ hdb ▸ ho', rfl⟩⟩
  have hb := (Txn.triple_iff _ _ _ _).1 hbody { s with waiting := none, sweeps := [] }
    ⟨hdb, hset, hstart⟩
  -- the database the unit started from holds no new order
  have hback := Placed.self D β P
  unfold Txn.atomically
  dsimp only
  cases hrun : body { s with waiting := none, sweeps := [] } with
  | error e s' =>
    rw [hrun] at hb
    show Placed D β P s'.settled
    rw [hb]
    exact hback
  | ok a s' =>
    rw [hrun] at hb
    obtain ⟨hD', b, hP, hfresh⟩ := hb
    dsimp only
    cases hwait : s'.waiting with
    | some r =>
      show Placed D β P s'.settled
      rw [hD']
      exact hback
    | none =>
      have hplaced : Placed D β P s'.db := fun o' ho' hnew =>
        ⟨b, (hfresh.2 o' ho' (hD' ▸ hnew)).1, (hfresh.2 o' ho' (hD' ▸ hnew)).2, hP⟩
      have hw := (Txn.triple_iff _ _ _ _).1 (Txn.sweepAll_keeps s'.sweeps s'.db s'.db)
        { s' with waiting := none, sweeps := [], settled := s'.db } ⟨rfl, rfl⟩
      dsimp only
      cases hsw : Txn.sweepAll s'.sweeps { s' with waiting := none, sweeps := [], settled := s'.db } with
      | ok u s'' =>
        rw [hsw] at hw
        show Placed D β P s''.db
        rw [hw.1]
        exact hplaced
      | error e s'' =>
        rw [hsw] at hw
        show Placed D β P s''.db
        rw [hw.1]
        exact hplaced

end Creation

namespace Orders

/-- The status a new order of branch `β` may take at creation from database `D`: a live status
of the branch, and the one the request names, or else the first the branch may start at by
sort and key. -/
def StartsAt (D : Db) (β : Int) (req : Request.NewOrder) (b : Int) : Prop :=
  Status.Live D β b ∧ (∀ x, req.statusId = some x → b = x) ∧
    (req.statusId = none → ∃ st, st.id = b ∧ Status.FirstOpen D.statuses β st)

/-- A request that names a live status starts the order there. -/
theorem StartsAt.given {D : Db} {β : Int} {req : Request.NewOrder} {x : Nat}
    (hreq : req.statusId = some x) (hl : Status.Live D β x) : StartsAt D β req x := by
  refine ⟨hl, fun y hy => ?_, fun hnone => ?_⟩
  · rw [hreq, Option.some_inj] at hy
    rw [hy]
  · rw [hreq] at hnone
    cases hnone

/-- A request that names no status starts the order at the first status of its branch, when
that one is live. -/
theorem StartsAt.initial {D : Db} {β : Int} {req : Request.NewOrder} (hreq : req.statusId = none)
    (hf : Status.FirstOpen D.statuses β (Status.firstOpen D.statuses β))
    (hl : Status.Live D β (Status.firstOpen D.statuses β).id) :
    StartsAt D β req (Status.firstOpen D.statuses β).id := by
  refine ⟨hl, fun y hy => ?_, fun _ => ⟨_, rfl, hf⟩⟩
  rw [hreq] at hy
  cases hy

end Orders

open Status in
theorem Orders.createOrder_places (actor : Access.Actor) (β : Int) (req : Request.NewOrder)
    (D : Db) (hD : D.Keyed) (hsort : SortsStored D.statuses) :
    ⦃fun s => ⌜s.db = D ∧ s.settled = D⌝⦄ Orders.createOrder actor β req
      ⦃post⟨fun _ s => ⌜Placed D β (Orders.StartsAt D β req) s.db⌝,
        fun _ s => ⌜Placed D β (Orders.StartsAt D β req) s.db⌝⟩⦄ := by
  unfold Orders.createOrder
  mvcgen [-Txn.lift_frame, Txn.atomically_places, -Orders.initialStatus_key,
    -Orders.initialStatus_frame, -Orders.initialStatus_quiet, Orders.initialStatus_opens,
    -Txn.insert_order_steers, -Txn.insert_frame, -Txn.insert_quiet, Txn.insert_order_fresh]
  all_goals grind only [Frame.refl, → Frame.trans, → Status.frame_settled, → Calm.settled_eq, → NoFresh.frame,
    → FreshAt.frame, → Live.frame_back, → Frame.statuses_eq, Orders.StartsAt.given,
    Orders.StartsAt.initial, Placed.self]

/-! ## A move along no configured transition -/

/-- An open order of the database in a branch of the actor loads. -/
theorem Orders.loadOrder_run {actor : Access.Actor} {x β : Int} {o : Row} {s : Session}
    (hx : fitsInt64 x = true)
    (hfind : s.db.orders.find? (fun o => o.is .orders "id" (.int x) && o.isOpen .orders) = some o)
    (hβ : o.get "branch_id" = .int β) (hacc : (Value.int β).memSame actor.branchIds = true) :
    Orders.loadOrder actor (.int x) s = .ok o s := by
  unfold Orders.loadOrder
  simp only [Txn.bind_of_run (Txn.param_run (show bindValue (.int x) = .ok (.int x) by
    simp [bindValue, hx])), Txn.bind_of_run Txn.query_run, hfind]
  rw [Txn.bind_of_run (Txn.read_run (TableId.read_integer o rfl rfl)), hβ]
  simp only [Cell.toValue, Txn.lift, Access.assertBranchAccess, hacc, if_true]
  rfl

/-- **A move along no configured transition is refused and changes nothing.** An attempt,
authorized at the order's status `a`, to move an open order of the actor's branch `β` to a live
status `b ≠ a` of the branch, where no transition row of the branch leads from `a` to `b`, fails
with the transition refusal, and the request leaves the database it started from. -/
theorem Orders.moveOrder_refused {actor : Access.Actor} {x β a : Int} {b : Nat}
    {targetSort : Option Nat} {o : Row} {s s2 : Session}
    (hw : s.waiting = none) (hsw : s.sweeps = []) (hset : s.settled = s.db)
    (hx : fitsInt64 x = true) (hfβ : fitsInt64 β = true) (hfb : fitsInt64 b = true)
    (hfind : s.db.orders.find? (fun o => o.is .orders "id" (.int x) && o.isOpen .orders) = some o)
    (hβ : o.get "branch_id" = .int β) (ha : o.get "status_id" = .int a)
    (hacc : (Value.int β).memSame actor.branchIds = true) (hne : (b : Int) ≠ a)
    (hauth : Access.authorize actor.roleIds (.int β) (.int a) Capability.changeStatus.name
      (some "status_id") s = .ok () s2)
    (hlive : Status.Live s.db β b) (hconf : ¬ Status.Configured s.db β a b) :
    ∃ s', Orders.moveOrder actor (.int x) b targetSort s =
      .error (Status.transitionRefused (.str "status_id") (.int a) (.int b)) s' ∧ s'.db = s.db := by
  -- the request starts with nothing held and nothing to sweep
  have hstart : { s with waiting := none, sweeps := [] } = s := by
    cases s
    simp only at hw hsw
    rw [hw, hsw]
  -- authorizing reads the grants and may fill the cache, but keeps the statuses and the moves
  have hf2 : Frame Status.guard s s2 := by
    have h := (Txn.triple_iff _ _ _ _).1 (@Access.authorize_frame Status.guard s actor.roleIds
      (.int β) (.int a) Capability.changeStatus.name (some "status_id")) s (Frame.refl _ _)
    rw [hauth] at h
    exact h
  have hchange : Orders.changeStatus o (.int a) (.int b) s2 =
      .error (Status.transitionRefused (.str "status_id") (.int a) (.int b)) s2 := by
    rw [Orders.changeStatus_run hβ hfβ hfb,
      if_neg (not_not_intro (hlive.of_statuses (Frame.statuses_eq hf2).symm)),
      if_pos (mt (Status.Configured.of_transitions (hf2.keeps.tables .transitions (by decide)))
        hconf)]
  unfold Orders.moveOrder Orders.mutate Txn.atomically
  simp only [hstart, bind_assoc, Txn.bind_of_run (Orders.loadOrder_run hx hfind hβ hacc),
    Txn.bind_of_run (Orders.orderField_int_run rfl rfl ha),
    Txn.bind_of_run (Orders.orderField_int_run rfl rfl hβ), Json.Value.same_int, hne,
    decide_false, Bool.not_false, if_true, Txn.bind_of_ok hauth, Txn.bind_of_error hchange]
  -- rolled back to the last commit, which is the database the request started from
  exact ⟨_, rfl, hf2.settled.trans hset⟩

/-! ## The workflow along runs -/

section Workflow

open Status Scenario

/-- **Orders follow the workflow of their branch.**

  1. Along every run of requests without raw writes of columns, from a database where every
     order stands at a status of its own branch, every order always does; and each step,
     whether it succeeds or fails, obeys the workflow: a new order stands at a live status of
     its branch, and an order whose status changed from `a` to `b` stayed in its branch `β`,
     `b` is live in `β`, a transition row of `β` leads from `a` to `b` in the database the
     step started from, and the trail after the step records the change.
  2. A new order stands, whatever the outcome of its creation, in the branch it was created in,
     at a live status of that branch: the one its request names, or else the first the branch
     may start at by sort and then key (open, active, not ending the workflow). The sorts of
     the statuses are read as stored, where no NaN is.
  3. An attempt, authorized at the order's status `a`, to move an open order to a live status
     `b` of its branch that no transition row of the branch leads to from `a` fails with a
     refusal of kind bad request at `status_id` that carries `from_status_id = a` and
     `to_status_id = b`, and leaves the database as the request found it. -/
theorem Scenario.orders_follow_branch_workflow :
    (∀ (steps : List Value) (s : Session), (∀ step ∈ steps, step.field "op" ≠ .str "set") →
      Workflow s.db →
      (∀ i ≤ steps.length, Workflow (afterSteps (steps.take i) s).db) ∧
      ∀ (i : Nat) (hi : i < steps.length),
        Obeys (afterSteps (steps.take i) s).db (request steps[i] (afterSteps (steps.take i) s)).2.db) ∧
    (∀ (actor : Access.Actor) (β : Int) (req : Request.NewOrder) (D : Db), D.Keyed →
      SortsStored D.statuses →
      ⦃fun s => ⌜s.db = D ∧ s.settled = D⌝⦄ Orders.createOrder actor β req
        ⦃post⟨fun _ s => ⌜Placed D β (Orders.StartsAt D β req) s.db⌝,
          fun _ s => ⌜Placed D β (Orders.StartsAt D β req) s.db⌝⟩⦄) ∧
    (∀ (actor : Access.Actor) (x β a : Int) (b : Nat) (targetSort : Option Nat) (o : Row)
      (s s2 : Session), s.waiting = none → s.sweeps = [] → s.settled = s.db →
      fitsInt64 x = true → fitsInt64 β = true → fitsInt64 b = true →
      s.db.orders.find? (fun o => o.is .orders "id" (.int x) && o.isOpen .orders) = some o →
      o.get "branch_id" = .int β → o.get "status_id" = .int a →
      (Value.int β).memSame actor.branchIds = true → (b : Int) ≠ a →
      Access.authorize actor.roleIds (.int β) (.int a) Capability.changeStatus.name
        (some "status_id") s = .ok () s2 →
      Live s.db β b → ¬ Configured s.db β a b →
      ∃ s' m, Orders.moveOrder actor (.int x) b targetSort s =
        .error (.domain
          { kind := .badRequest, message := m, location := .str "status_id"
            details := [("from_status_id", .int a), ("to_status_id", .int b)] }) s' ∧
        s'.db = s.db) := by
  refine ⟨fun steps s hsteps hs => ?_,
    fun actor β req D hD hsort => Orders.createOrder_places actor β req D hD hsort, ?_⟩
  · -- every prefix of the run is a run of its own
    have hbefore : ∀ i, Workflow (afterSteps (steps.take i) s).db := fun i =>
      workflow_afterSteps (fun st hst => hsteps st (List.mem_of_mem_take hst)) hs
    exact ⟨fun i _ => hbefore i,
      fun i hi => request_obeys (hsteps steps[i] (List.getElem_mem hi)) (hbefore i)⟩
  · intro actor x β a b targetSort o s s2 hw hsw hset hx hfβ hfb hfind hβ ha hacc hne hauth hlive
      hconf
    obtain ⟨s', hrun, hdb⟩ := Orders.moveOrder_refused hw hsw hset hx hfβ hfb hfind hβ ha hacc hne
      hauth hlive hconf
    exact ⟨s', _, hrun, hdb⟩

/-- The manager of the sample shop, as the services see the actor. -/
def Scenario.sampleManager : Access.Actor :=
  { adminId := .int 1, roleIds := [.int 1], branchIds := [.int 1] }

/-- A phone brought to the sample shop, with no status named. -/
def Scenario.sampleOrder : Request.NewOrder :=
  { userId := 1, phoneCategoryId := 1, priority := .medium, imei := none, statusId := none,
    parts := {} }

/-- The sample shop with one open order, already `In repair`. -/
def Scenario.sampleRepairShop : Db :=
  { sampleShop with
    orders := [⟨1, [("branch_id", .int 1), ("status_id", .int 2), ("user_id", .int 1),
      ("phone_category_id", .int 1), ("priority", .text "Medium"), ("priority_level", .int 2),
      ("sort", .int 1), ("pickup_method", .text "Self"), ("delivery_method", .text "Self"),
      ("status", .text openState), ("is_active", .int 1), ("created_by", .int 1)]⟩] }

/-- At the sample shop: moving the first order on to `In repair` obeys the workflow; a phone
brought in starts at a live status of the shop; and an order in repair cannot be moved back to
`New`, which no transition allows. -/
theorem Scenario.sample_shop_follows_workflow :
    Obeys (afterSteps (sampleRun.take 3) sampleSession).db
      (request (sampleMove 1 2) (afterSteps (sampleRun.take 3) sampleSession)).2.db ∧
    ⦃fun s => ⌜s.db = sampleShop ∧ s.settled = sampleShop⌝⦄
      Orders.createOrder sampleManager 1 sampleOrder
      ⦃post⟨fun _ s => ⌜Placed sampleShop 1 (Orders.StartsAt sampleShop 1 sampleOrder) s.db⌝,
        fun _ s => ⌜Placed sampleShop 1 (Orders.StartsAt sampleShop 1 sampleOrder) s.db⌝⟩⦄ ∧
    ∃ s' m, Orders.moveOrder sampleManager (.int 1) 1 none
        { db := sampleRepairShop, kv := {}, wired := false } =
      .error (.domain
        { kind := .badRequest, message := m, location := .str "status_id"
          details := [("from_status_id", .int 2), ("to_status_id", .int 1)] }) s' ∧
      s'.db = sampleRepairShop := by
  obtain ⟨hrun, hcreate, hmove⟩ := Scenario.orders_follow_branch_workflow
  have hsteps : ∀ step ∈ sampleRun, step.field "op" ≠ .str "set" := by
    simp only [sampleRun, List.mem_cons, List.not_mem_nil, or_false]
    rintro step (rfl | rfl | rfl | rfl | rfl) <;>
      simp [sampleCreation, sampleMove, sampleDeletion, Json.Value.field, Json.Value.get?]
  have hshop : Workflow sampleShop := ⟨List.Pairwise.nil, by simp [sampleShop]⟩
  refine ⟨(hrun sampleRun sampleSession hsteps hshop).2 3 (by decide),
    hcreate _ _ _ _ List.Pairwise.nil (by unfold SortsStored; decide), ?_⟩
  exact hmove _ _ _ _ _ _ _ _ _ rfl rfl rfl (by decide) (by decide) (by decide) rfl rfl rfl rfl
    (by decide) rfl (by decide) (by decide)

end Workflow

end RepairShop
