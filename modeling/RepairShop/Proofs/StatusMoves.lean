import RepairShop.Proofs.StatusChecks

/- Status changes inside a request.

   From the database `D` a step starts on to the database it leaves, the statuses of the
   orders are steered (`Status.Steering`) when

   * the status rows stay as they were;
   * the orders stay in key order, each keeping its key and its branch, and every new order
     stands at a live status of its branch;
   * every order whose status changed moved from its status `a` in `D` to a live status `b`
     of its branch, along a move its branch configures in `D`.

   A step is steered (`Status.Steered`) when, besides, its change trail records each such
   move. A steered step keeps every order at a status of its own branch
   (`Status.Steering.workflow`).

   Inside a request the database last committed is the `D` of the step, and a move may be
   recorded later than it is made, or never when a held write was refused, which keeps the
   request from committing. `Status.Steers` is the invariant that carries this: it holds when
   the request starts (`Status.Steers.start`), every write outside the order's statuses, the
   statuses and the transition rows keeps it (`Status.Steers.frame`), a checked status write
   adds a move due to be recorded (`Status.Steers.write`), the record settles it
   (`Status.Steers.settle`), and at the commit the step is steered (`Status.Steers.commit`). -/

namespace RepairShop

open Std.Do Store Cache Json

set_option autoImplicit false
set_option mvcgen.warning false

/-! ## Held writes -/

/-- A held update is skipped after a refusal, refused, or made. -/
theorem Txn.update_cases {t : TableId} {id : Int} {given : List (String × Value)}
    {s s' : Session} {u : Unit} (h : Txn.update t id given s = .ok u s') :
    (s' = s ∧ s.waiting.isSome = true) ∨ (∃ r, s' = { s with waiting := some r }) ∨
      ∃ db, s.db.update t id given = .ok db ∧ s' = { s with db } := by
  unfold Txn.update at h
  simp only [bind, EStateM.bind, MonadState.get, getThe, MonadStateOf.get, EStateM.get] at h
  by_cases hw : s.waiting.isSome = true
  · simp only [hw, if_true, pure, EStateM.pure, EStateM.Result.ok.injEq] at h
    exact .inl ⟨h.2.symm, hw⟩
  · simp only [hw, Bool.false_eq_true, if_false] at h
    cases hu : s.db.update t id given with
    | ok db =>
      simp only [hu, set, EStateM.set, EStateM.Result.ok.injEq] at h
      exact .inr (.inr ⟨db, rfl, h.2.symm⟩)
    | error r =>
      simp only [hu, set, EStateM.set, EStateM.Result.ok.injEq] at h
      exact .inr (.inl ⟨r, h.2.symm⟩)

/-- A held insert is skipped after a refusal, refused, or made. -/
theorem Txn.insert_cases {t : TableId} {given : List (String × Value)} {s s' : Session} {id : Int}
    (h : Txn.insert t given s = .ok id s') :
    (s' = s ∧ s.waiting.isSome = true) ∨ (∃ r, s' = { s with waiting := some r }) ∨
      ∃ db, s.db.insert t given = .ok (db, id) ∧ s' = { s with db } := by
  unfold Txn.insert at h
  simp only [bind, EStateM.bind, MonadState.get, getThe, MonadStateOf.get, EStateM.get] at h
  by_cases hw : s.waiting.isSome = true
  · simp only [hw, if_true, pure, EStateM.pure, EStateM.Result.ok.injEq] at h
    exact .inl ⟨h.2.symm, hw⟩
  · simp only [hw, Bool.false_eq_true, if_false] at h
    cases hi : s.db.insert t given with
    | ok p =>
      obtain ⟨db, id'⟩ := p
      simp only [hi, set, EStateM.set, EStateM.bind, pure, EStateM.pure, EStateM.Result.ok.injEq] at h
      exact .inr (.inr ⟨db, h.1 ▸ rfl, h.2.symm⟩)
    | error r =>
      simp only [hi, set, EStateM.set, EStateM.bind, pure, EStateM.pure, EStateM.Result.ok.injEq] at h
      exact .inr (.inl ⟨r, h.2.symm⟩)

namespace Status

/-! ## Steered steps -/

/-- Order row `o` is new to `D` and stands at a live status `b` of its branch `β` in `D`. -/
def Fresh (D : Db) (o : Row) : Prop :=
  (∀ o₀ ∈ D.orders, o₀.id ≠ o.id) ∧
    ∃ β b, o.get "branch_id" = .int β ∧ o.get "status_id" = .int b ∧ Live D β b

/-- The cell a document column stores for a value: its text, read as a number where the
database reads it as one. -/
def documentCell (v : Value) : Cell := (Cell.text v.render).withAffinity .numeric

/-- The change trail of `db` records that order `x` moved from status `a` to status `b`. -/
def Logged (db : Db) (x a b : Int) : Prop :=
  ∃ h ∈ db.history, h.get "repair_order_id" = .int x ∧ h.get "field" = .text "status_id" ∧
    h.get "old_value" = documentCell (.int a) ∧ h.get "new_value" = documentCell (.int b)

/-- From `D` to `db` the statuses of the orders are steered, and `R` holds of every move. -/
structure Steering (R : Int → Int → Int → Prop) (D db : Db) : Prop where
  statuses : db.statuses = D.statuses
  keyed : db.Keyed
  persist : ∀ o ∈ D.orders, ∃ o' ∈ db.orders, o'.id = o.id
  kept : ∀ o' ∈ db.orders,
    (∃ o ∈ D.orders, o.id = o'.id ∧ o'.get "branch_id" = o.get "branch_id") ∨ Fresh D o'
  moved : ∀ o ∈ D.orders, ∀ o' ∈ db.orders, o'.id = o.id →
    o'.get "status_id" ≠ o.get "status_id" →
    ∃ β a b, o.get "branch_id" = .int β ∧ o.get "status_id" = .int a ∧
      o'.get "status_id" = .int b ∧ Live D β b ∧ Configured D β a b ∧ R o.id a b

/-- A step from `D` to `D'` steers the statuses, and the trail of `D'` records every move. -/
abbrev Steered (D D' : Db) : Prop := Steering (Logged D') D D'

/-- Order `o` stands at a status of its own branch: its branch `β` and status `a` are
integers, and a status row of key `a` belongs to `β`, read as the status check reads it. -/
def AtOwnStatus (db : Db) (o : Row) : Prop :=
  ∃ β a, o.get "branch_id" = .int β ∧ o.get "status_id" = .int a ∧
    ∃ st ∈ db.statuses, st.id = a ∧ (TableId.statuses.field st "branch_id").same (.int β) = true

/-- Every order stands at a status of its own branch, and the orders are in key order. -/
structure Workflow (db : Db) : Prop where
  keyed : db.Keyed
  own : ∀ o ∈ db.orders, AtOwnStatus db o

variable {R R' : Int → Int → Int → Prop} {D db db' : Db}

/-- A live status of a branch is a status row of that branch. -/
theorem Live.row {β b : Int} (h : Live D β b) :
    ∃ st ∈ D.statuses, st.id = b ∧ (TableId.statuses.field st "branch_id").same (.int β) = true := by
  obtain ⟨st, hst, hlive⟩ := h
  have hid : st.id = b := by simpa using List.find?_some hst
  simp only [LiveRow, Bool.and_eq_true] at hlive
  exact ⟨st, List.mem_of_find?_eq_some hst, hid, hlive.1.1⟩

/-- **A steered step keeps every order at a status of its own branch.** -/
theorem Steering.workflow (h : Steering R D db) (hD : Workflow D) : Workflow db := by
  refine ⟨h.keyed, fun o' ho' => ?_⟩
  rw [AtOwnStatus, h.statuses]
  rcases h.kept o' ho' with ⟨o, ho, hid, hbranch⟩ | ⟨-, β, b, hβ, hb, hlive⟩
  · obtain ⟨β, a, hβ, ha, hown⟩ := hD.own o ho
    by_cases hs : o'.get "status_id" = o.get "status_id"
    · -- the order kept its status, which is a status of its branch
      exact ⟨β, a, hbranch.trans hβ, hs.trans ha, hown⟩
    · -- the order moved to a live status of its branch
      obtain ⟨β', a', b, hβ', -, hb, hlive, -⟩ := h.moved o ho o' ho' hid.symm hs
      exact ⟨β', b, hbranch.trans hβ', hb, hlive.row⟩
  · exact ⟨β, b, hβ, hb, hlive.row⟩

/-- A database in key order steers to itself: nothing moved. -/
theorem Steering.refl (hk : D.Keyed) : Steering R D D where
  statuses := rfl
  keyed := hk
  persist o ho := ⟨o, ho, rfl⟩
  kept o' ho' := .inl ⟨o', ho', rfl, rfl⟩
  moved _ ho _ ho' hid hs := absurd (congrArg (·.get "status_id") (eq_of_mem_of_id hk ho' ho hid)) hs

end Status

/-- Every order of a database a guard keeps stands where an order stood before, with the same
key and the same guarded columns. -/
theorem Guard.Keeps.counterpart {g : Guard} {db db' : Db} (h : g.Keeps db db') (hk : db.Keyed)
    {o' : Row} (ho' : o' ∈ db'.orders) :
    ∃ o ∈ db.orders, o.id = o'.id ∧ ∀ c ∈ g.columns, o'.get c = o.get c := by
  have hcut : g.cut o' ∈ db.orders.map g.cut := (h.orders hk).2 ▸ List.mem_map_of_mem ho'
  obtain ⟨o, ho, heq⟩ := List.mem_map.1 hcut
  simp only [Guard.cut, Prod.mk.injEq] at heq
  exact ⟨o, ho, heq.1, fun c hc => (List.map_inj_left.1 heq.2 c hc).symm⟩

namespace Status

variable {R R' : Int → Int → Int → Prop} {D db db' : Db}

/-- **A write that keeps the statuses, and the branch and status of every order, keeps the
statuses steered.** -/
theorem Steering.keeps {g : Guard} (hst : TableId.statuses ∈ g.tables)
    (hb : "branch_id" ∈ g.columns) (hs : "status_id" ∈ g.columns) (h : Steering R D db)
    (hg : g.Keeps db db') (hR : ∀ x a b, a ≠ b → R x a b → R' x a b) : Steering R' D db' where
  statuses := (hg.tables .statuses hst).trans h.statuses
  keyed := (hg.orders h.keyed).1
  persist o ho := by
    obtain ⟨o', ho', hid⟩ := h.persist o ho
    have hcut : g.cut o' ∈ db'.orders.map g.cut := (hg.orders h.keyed).2 ▸ List.mem_map_of_mem ho'
    obtain ⟨o'', ho'', heq⟩ := List.mem_map.1 hcut
    exact ⟨o'', ho'', (congrArg Prod.fst heq).trans hid⟩
  kept o'' ho'' := by
    obtain ⟨o', ho', hid, hcols⟩ := hg.counterpart h.keyed ho''
    rcases h.kept o' ho' with ⟨o, ho, hid', hbranch⟩ | ⟨hnew, β, b, hβ, hb', hlive⟩
    · exact .inl ⟨o, ho, hid'.trans hid, (hcols _ hb).trans hbranch⟩
    · exact .inr ⟨fun o₀ ho₀ => hid ▸ hnew o₀ ho₀, β, b, (hcols _ hb).trans hβ,
        (hcols _ hs).trans hb', hlive⟩
  moved o ho o'' ho'' hid hne := by
    obtain ⟨o', ho', hid', hcols⟩ := hg.counterpart h.keyed ho''
    rw [hcols _ hs] at hne
    obtain ⟨β, a, b, hβ, ha, hb', hlive, hconf, hR'⟩ := h.moved o ho o' ho' (hid'.trans hid) hne
    exact ⟨β, a, b, hβ, ha, (hcols _ hs).trans hb', hlive, hconf,
      hR _ _ _ (fun hab => hne (by rw [hb', ha, hab])) hR'⟩

/-- A trail that keeps its rows keeps recording each move. -/
theorem Logged.mono {x a b : Int} (h : Logged db x a b) (hh : ∀ r ∈ db.history, r ∈ db'.history) :
    Logged db' x a b := by
  obtain ⟨r, hr, hrow⟩ := h
  exact ⟨r, hh r hr, hrow⟩

/-! ## Within a request -/

/-- What the statuses of the orders depend on within a request: the status rows and the
transition rows, and the branch and the status of every order. -/
instance guard : Guard where
  tables := [.statuses, .transitions]
  columns := ["branch_id", "status_id"]
  orders_free := by decide
  trail_free := by decide

/-- Within a request, the statuses are steered from the database last committed to the
database as it stands, whose transition rows are as they were; each move is recorded, or a
held write was refused (so the request cannot commit), or it is one of the moves `due` to be
recorded. -/
structure Steers (due : Int → Int → Int → Prop) (s : Session) : Prop where
  steering : Steering (fun x a b => Logged s.db x a b ∨ s.waiting.isSome = true ∨ due x a b)
    s.settled s.db
  transitions : s.db.transitions = s.settled.transitions
  settled : s.settled.Keyed

variable {due due' : Int → Int → Int → Prop} {s s' : Session}

/-- No move is due. -/
def Settled : Int → Int → Int → Prop := fun _ _ _ => False

theorem Steers.start (h : s.db = s.settled) (hk : s.db.Keyed) : Steers due s :=
  ⟨h ▸ Steering.refl (h ▸ hk), congrArg Db.transitions h, h ▸ hk⟩

theorem Steers.mono (h : Steers due s) (hd : ∀ x a b, due x a b → due' x a b) : Steers due' s :=
  ⟨Steering.keeps (by decide) (by decide) (by decide) h.steering
    (Guard.Keeps.refl guard s.db) fun x a b _ => Or.imp_right (Or.imp_right (hd x a b)),
    h.transitions, h.settled⟩

/-- **A write that keeps the frame of the statuses keeps them steered.** -/
theorem Steers.frame (h : Steers due s) (hf : Frame guard s s') : Steers due s' := by
  have hset : s'.settled = s.settled := hf.settled
  refine ⟨hset ▸ Steering.keeps (by decide) (by decide) (by decide) h.steering hf.keeps
    fun _ _ _ _ => Or.imp (fun hl => hl.mono hf.keeps.trail) (Or.imp_left hf.held), ?_,
    hset ▸ h.settled⟩
  rw [hset, ← h.transitions]
  exact hf.keeps.tables .transitions (by decide)

/-- Moves the trail records, or that a refused held write keeps from committing, are no
longer due. -/
theorem Steers.settle {done : Int → Int → Int → Prop} (h : Steers due s)
    (hrec : ∀ x a b, a ≠ b → done x a b → Logged s.db x a b ∨ s.waiting.isSome = true) :
    Steers (fun x a b => due x a b ∧ ¬ done x a b) s := by
  refine ⟨Steering.keeps (by decide) (by decide) (by decide) h.steering
    (Guard.Keeps.refl guard s.db) fun x a b hab hR => ?_, h.transitions, h.settled⟩
  rcases hR with hl | hw | hd
  · exact .inl hl
  · exact .inr (.inl hw)
  · by_cases hdone : done x a b
    · exact (hrec x a b hab hdone).imp_right .inl
    · exact .inr (.inr ⟨hd, hdone⟩)

/-- **At the commit the step is steered**: with no move due and no write refused, every move
is recorded. -/
theorem Steers.commit (h : Steers Settled s) (hw : s.waiting = none) : Steered s.settled s.db :=
  Steering.keeps (by decide) (by decide) (by decide) h.steering
    (Guard.Keeps.refl guard s.db) fun x a b _ hR => by
      rcases hR with hl | hw' | hd
      · exact hl
      · simp [hw] at hw'
      · exact hd.elim

/-! ## The status write -/

/-- Order row `r` after the status of order `x` is written to `b`: the status it holds is
replaced, every other column kept. -/
def written (x b : Int) (r : Row) : Row :=
  if r.id = x then
    ⟨r.id, r.cells.map fun e => (e.1, ([("status_id", Cell.int b)].lookup e.1).getD e.2)⟩
  else r

theorem written_id (x b : Int) (r : Row) : (written x b r).id = r.id := by
  unfold written
  split <;> rfl

theorem written_of_ne {x b : Int} {r : Row} (h : r.id ≠ x) : written x b r = r := if_neg h

theorem written_get_ne {x b : Int} (r : Row) {c : String} (hc : c ≠ "status_id") :
    (written x b r).get c = r.get c := by
  unfold written
  split
  · by_cases hid : c = "id"
    · subst hid
      rfl
    · have hne : (c == "status_id") = false := by simpa using hc
      have hl : ([("status_id", Cell.int b)].lookup c) = none := by simp [List.lookup, hne]
      rw [Orders.Boards.get_rewritten _ _ hid, hl]
      simp only [Option.getD_none, Option.map_id']
      simp [Row.get, hid]
  · rfl

/-- An order that holds a status takes the written one when it is the order written. -/
theorem written_status {x b a : Int} {r : Row} (ha : r.get "status_id" = .int a) :
    (written x b r).get "status_id" = if r.id = x then .int b else .int a := by
  unfold written
  split
  · have hl : r.cells.lookup "status_id" = some (.int a) := by
      simp only [Row.get, String.reduceBEq, Bool.false_eq_true, if_false] at ha
      cases h : r.cells.lookup "status_id" with
      | none => rw [h] at ha; cases ha
      | some c => rw [h] at ha; exact congrArg some ha
    rw [Orders.Boards.get_rewritten _ _ (by decide), hl]
    rfl
  · exact ha

/-- What a status write hands to the database: the status alone, as an integer. -/
theorem status_stored {b : Int} (hb : fitsInt64 b = true) :
    (passAll ((({ name := "id", kind := .integer } : Column) :: TableId.orders.schema.columns).filterMap
      fun c => ([("status_id", Value.int b)].lookup c.name).map (c, ·)) >>= storeAll 1) =
      .ok [("status_id", .int b)] := by
  have hcols : ((({ name := "id", kind := .integer } : Column) ::
      TableId.orders.schema.columns).filterMap
        fun c => ([("status_id", Value.int b)].lookup c.name).map (c, ·)) =
      [(intCol "status_id", .int b)] := rfl
  rw [hcols]
  simp only [passAll, storeAll, storeValue, passKind, bind, Except.bind, pure, Except.pure, intCol,
    bindValue, hb, if_true]
  rfl

/-- The status write of an order, in a database whose orders are in key order, rewrites that
order's status alone. -/
theorem update_status {db db' : Db} {x b : Int} (hk : db.Keyed) (hb : fitsInt64 b = true)
    (h : db.update .orders x [("status_id", .int b)] = .ok db') :
    db' = db.withRows .orders (db.orders.map (written x b)) := by
  unfold Db.update at h
  cases hr : updateRow TableId.orders.schema (db.rows .orders) (·.id == x)
      [("status_id", .int b)] with
  | error e => rw [hr] at h; cases h
  | ok rows =>
    rw [hr] at h
    cases h
    exact congrArg _ (updateRow_eq_map hr hk (status_stored hb) rfl)


/-- Liveness reads the status rows alone. -/
theorem Live.of_statuses {db db' : Db} {β b : Int} (h : db.statuses = db'.statuses)
    (hl : Live db β b) : Live db' β b := by
  unfold Live at *
  rwa [← h]

/-- A configured move reads the transition rows alone. -/
theorem Configured.of_transitions {db db' : Db} {β a b : Int} (h : db.transitions = db'.transitions)
    (hc : Configured db β a b) : Configured db' β a b := by
  unfold Configured at *
  rwa [← h]

/-- Holding a refused write keeps the statuses steered. -/
theorem Steers.with_waiting (h : Steers due s) (r : Refusal) :
    Steers due { s with waiting := some r } :=
  h.frame (Frame.refl guard s).with_waiting

/-- The database after a checked status write of an order of the committed database keeps the
statuses steered, with that move due. -/
theorem Steers.stored {o : Row} {β a b : Int} (h : Steers due s) (ho : o ∈ s.settled.orders)
    (hβ : o.get "branch_id" = .int β) (ha : o.get "status_id" = .int a)
    (hlive : Live s.db β b) (hconf : Configured s.db β a b) :
    Steers (fun x a' b' => due x a' b' ∨ (x = o.id ∧ a' = a ∧ b' = b))
      { s with db := s.db.withRows .orders (s.db.orders.map (written o.id b)) } := by
  have hS := h.steering
  have hord : (s.db.withRows .orders (s.db.orders.map (written o.id b))).orders =
      s.db.orders.map (written o.id b) := rfl
  refine ⟨⟨hS.statuses, ?_, fun o₀ ho₀ => ?_, fun o'' ho'' => ?_, fun o₁ ho₁ o'' ho'' hid hne => ?_⟩,
    h.transitions, h.settled⟩
  · show (s.db.orders.map (written o.id b)).Pairwise _
    exact List.pairwise_map.2 (hS.keyed.imp fun {r r'} hr => by rwa [written_id, written_id])
  · obtain ⟨o₁, ho₁, hid⟩ := hS.persist o₀ ho₀
    exact ⟨written o.id b o₁, hord ▸ List.mem_map_of_mem ho₁, (written_id _ _ _).trans hid⟩
  · rw [hord] at ho''
    obtain ⟨o', ho', rfl⟩ := List.mem_map.1 ho''
    rcases hS.kept o' ho' with ⟨o₀, ho₀, hid, hbr⟩ | ⟨hnew, hfresh⟩
    · exact .inl ⟨o₀, ho₀, hid.trans (written_id _ _ _).symm,
        (written_get_ne o' (by decide)).trans hbr⟩
    · -- a new order is not the one written
      rw [written_of_ne fun hx => hnew o ho hx.symm]
      exact .inr ⟨hnew, hfresh⟩
  · rw [hord] at ho''
    obtain ⟨o', ho', rfl⟩ := List.mem_map.1 ho''
    rw [written_id] at hid
    by_cases hx : o'.id = o.id
    · -- the written order: it moved from `a` to `b`, which the checks allowed
      obtain rfl : o₁ = o := eq_of_mem_of_id h.settled ho₁ ho (hid.symm.trans hx)
      have hcell : ∃ c : Int, o'.get "status_id" = .int c := by
        by_cases hs : o'.get "status_id" = o₁.get "status_id"
        · exact ⟨a, hs.trans ha⟩
        · obtain ⟨-, -, c, -, -, hc, -⟩ := hS.moved o₁ ho₁ o' ho' hid hs
          exact ⟨c, hc⟩
      obtain ⟨c, hc⟩ := hcell
      refine ⟨β, a, b, hβ, ha, by rw [written_status hc, if_pos hx], hlive.of_statuses hS.statuses,
        hconf.of_transitions h.transitions, .inr (.inr (.inr ⟨rfl, rfl, rfl⟩))⟩
    · rw [written_of_ne hx] at hne ⊢
      obtain ⟨β', a', b', hβ', ha', hb', hl, hc, hR⟩ := hS.moved o₁ ho₁ o' ho' hid hne
      exact ⟨β', a', b', hβ', ha', hb', hl, hc, hR.imp id (Or.imp_right .inl)⟩

/-- **A checked status write makes a move due.** Writing the live status `b` of branch `β` to
an order of the committed database that stands in `β` at status `a`, along a move `β`
configures, keeps the statuses steered, with the move from `a` to `b` due to be recorded. -/
theorem Steers.write {o : Row} {β a b : Int} (h : Steers due s) (ho : o ∈ s.settled.orders)
    (hβ : o.get "branch_id" = .int β) (ha : o.get "status_id" = .int a) (hb : fitsInt64 b = true)
    (hlive : Live s.db β b) (hconf : Configured s.db β a b)
    (hu : Txn.update .orders o.id [("status_id", .int b)] s = .ok () s') :
    Steers (fun x a' b' => due x a' b' ∨ (x = o.id ∧ a' = a ∧ b' = b)) s' := by
  have hmono : ∀ x a' b', due x a' b' → due x a' b' ∨ (x = o.id ∧ a' = a ∧ b' = b) :=
    fun _ _ _ => .inl
  rcases Txn.update_cases hu with ⟨rfl, -⟩ | ⟨r, rfl⟩ | ⟨db, hdb, rfl⟩
  · exact h.mono hmono
  · exact (h.with_waiting r).mono hmono
  · rw [update_status h.steering.keyed hb hdb]
    exact h.stored ho hβ ha hlive hconf

end Status

/-! ## New orders and trail rows -/

namespace Store

/-- A row placed into a table is one of its rows. -/
theorem mem_placeRow_self (row : Row) : ∀ t : Table, row ∈ placeRow row t
  | [] => List.mem_singleton_self row
  | x :: xs => by
    unfold placeRow
    split
    · exact List.mem_cons_self ..
    · exact List.mem_cons_of_mem _ (mem_placeRow_self row xs)

/-- An inserted order stores the integers it is given for its branch and its status, and takes
the next key. -/
theorem Db.insert_order_status {db db' : Db} {given : List (String × Value)} {id β b : Int}
    (h : db.insert .orders given = .ok (db', id))
    (hβ : given.lookup "branch_id" = some (.int β)) (hb : given.lookup "status_id" = some (.int b)) :
    ∃ row : Row, db'.orders = placeRow row db.orders ∧ row.id = id ∧ id = nextId db.orders ∧
      row.get "branch_id" = .int β ∧ row.get "status_id" = .int b := by
  unfold Db.insert at h
  split at h
  · rename_i rows id' hrow
    cases h
    obtain ⟨row, hrows, hid, hnext, hget⟩ := insertRow_get hrow
    refine ⟨row, hrows, hid, hnext, ?_, ?_⟩
    · obtain ⟨v', cell, hv', hcell, hrow'⟩ := @hget "branch_id" _ (.int β) (by decide) rfl
        (insertValues_find rfl (by simp [intCol, hβ]))
      cases hv'
      simp only [bindValue] at hcell
      split at hcell
      · cases hcell; exact hrow'
      · cases hcell
    · obtain ⟨v', cell, hv', hcell, hrow'⟩ := @hget "status_id" _ (.int b) (by decide) rfl
        (insertValues_find rfl (by simp [intCol, hb]))
      cases hv'
      simp only [bindValue] at hcell
      split at hcell
      · cases hcell; exact hrow'
      · cases hcell
  · cases h

/-- The trail row of a change of status records the order and both statuses, as the trail's
columns store them. -/
theorem Db.insert_status_change {db db' : Db} {id x a b : Int} {actor : Value}
    (h : db.insert .history [("repair_order_id", .int x), ("field", .str "status_id"),
      ("old_value", .int a), ("new_value", .int b), ("created_by", actor)] = .ok (db', id)) :
    Status.Logged db' x a b := by
  unfold Db.insert at h
  split at h
  · rename_i rows id' hrow
    cases h
    obtain ⟨row, hrows, -, -, hget⟩ := insertRow_get hrow
    refine ⟨row, by show row ∈ rows; rw [hrows]; exact mem_placeRow_self row _, ?_, ?_, ?_, ?_⟩
    · obtain ⟨v', cell, hv', hcell, hrow'⟩ := @hget "repair_order_id" _ (.int x) (by decide) rfl
        (insertValues_find rfl (by simp [intCol]))
      cases hv'
      simp only [bindValue] at hcell
      split at hcell
      · cases hcell; exact hrow'
      · cases hcell
    · obtain ⟨v', cell, hv', hcell, hrow'⟩ := @hget "field" _ (.str "status_id") (by decide) rfl
        (insertValues_find rfl rfl)
      cases hv'
      cases hcell
      exact hrow'
    · obtain ⟨v', cell, hv', hcell, hrow'⟩ := @hget "old_value" _ (.int a) (by decide) rfl
        (insertValues_find rfl rfl)
      cases hv'
      cases hcell
      exact hrow'
    · obtain ⟨v', cell, hv', hcell, hrow'⟩ := @hget "new_value" _ (.int b) (by decide) rfl
        (insertValues_find rfl rfl)
      cases hv'
      cases hcell
      exact hrow'
  · cases h

end Store

namespace Status

variable {due : Int → Int → Int → Prop} {s s' : Session}

/-- **A new order at a live status of its branch keeps the statuses steered.** The insert takes
a key past every key of the database, so the order is new to the committed database. -/
theorem Steers.insert {given : List (String × Value)} {β b id : Int} (h : Steers due s)
    (hβ : given.lookup "branch_id" = some (.int β)) (hb : given.lookup "status_id" = some (.int b))
    (hlive : Live s.db β b) (hi : Txn.insert .orders given s = .ok id s') : Steers due s' := by
  rcases Txn.insert_cases hi with ⟨rfl, -⟩ | ⟨r, rfl⟩ | ⟨db, hdb, rfl⟩
  · exact h
  · exact h.with_waiting r
  · obtain ⟨row, hrows, hid, hnext, hrβ, hrb⟩ := Db.insert_order_status hdb hβ hb
    have hS := h.steering
    have hlt : ∀ r ∈ s.db.orders, r.id < row.id := fun r hr => hid ▸ hnext ▸ lt_nextId hr
    have hord : db.orders = s.db.orders ++ [row] := hrows.trans (placeRow_of_lt hlt)
    -- the other tables are as they were
    have hstat : db.statuses = s.db.statuses := (Db.insert_rows hdb).1 .statuses (by decide)
    have htrans : db.transitions = s.db.transitions := (Db.insert_rows hdb).1 .transitions (by decide)
    have hhist : db.history = s.db.history := (Db.insert_rows hdb).1 .history (by decide)
    have hnew : ∀ o₀ ∈ s.settled.orders, o₀.id ≠ row.id := fun o₀ ho₀ heq => by
      obtain ⟨o', ho', hid'⟩ := hS.persist o₀ ho₀
      have hlt' := hlt o' ho'
      rw [hid', heq] at hlt'
      exact lt_irrefl _ hlt'
    refine ⟨⟨hstat.trans hS.statuses, ?_, fun o₀ ho₀ => ?_, fun o'' ho'' => ?_,
      fun o ho o'' ho'' hid' hne => ?_⟩, htrans.trans h.transitions, h.settled⟩
    · show db.orders.Pairwise _
      rw [hord]
      exact List.pairwise_append.2 ⟨hS.keyed, List.pairwise_singleton _ _,
        fun a ha c hc => (List.mem_singleton.1 hc) ▸ hlt a ha⟩
    · obtain ⟨o', ho', hid'⟩ := hS.persist o₀ ho₀
      exact ⟨o', hord ▸ List.mem_append_left _ ho', hid'⟩
    · rw [hord] at ho''
      rcases List.mem_append.1 ho'' with ho' | hrow
      · exact hS.kept o'' ho'
      · obtain rfl := List.mem_singleton.1 hrow
        exact .inr ⟨hnew, β, b, hrβ, hrb, hlive.of_statuses hS.statuses⟩
    · rw [hord] at ho''
      rcases List.mem_append.1 ho'' with ho' | hrow
      · obtain ⟨β', a', b', hβ', ha', hb', hl, hc, hR⟩ := hS.moved o ho o'' ho' hid' hne
        exact ⟨β', a', b', hβ', ha', hb', hl, hc,
          hR.imp_left fun hlog => hlog.mono fun r hr => hhist ▸ hr⟩
      · obtain rfl := List.mem_singleton.1 hrow
        exact absurd hid' (hnew o ho).symm

end Status

end RepairShop
