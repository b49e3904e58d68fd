import RepairShop.Proofs.StatusMoves

/- The services that change statuses keep them steered.

   A request runs its unit of work from a session in which nothing the statuses depend on was
   written since the last commit (`Status.Untouched`). This file proves that

   1. a change of status made by the services, which checks the target and the move on the
      database as it stands, makes the move due (`Status.Steers.changeStatus`), and the record
      of it in the trail settles it (`Status.Steers.logIfChanged`);
   2. a unit of work whose body ends with no move due commits a steered step, and a unit rolled
      back leaves the committed database (`Txn.atomically_rests`);
   3. moving an order, updating it and creating one each leave the database steered from the
      one the request started on, whether they succeed or fail (`Orders.moveOrder_rests`,
      `Orders.updateOrder_rests`, `Orders.createOrder_rests`).

   The update performs its edits in one loop and records them in a second one: between the
   two, the moves it made are due, which the invariants of the two loops say. -/

namespace RepairShop

open Std.Do Store Cache Json

set_option autoImplicit false
set_option mvcgen.warning false

namespace Status

/-! ## Sessions of a request -/

/-- The move of order `x` from the status `current` to the status `target`, both values. -/
def Move (x : Int) (current target : Value) : Int → Int → Int → Prop :=
  fun x' a b => x' = x ∧ current = .int a ∧ target = .int b

/-- Nothing the statuses depend on was written since the last commit, and the last commit
keeps every order at a status of its own branch. -/
structure Untouched (s : Session) : Prop where
  keeps : guard.Keeps s.settled s.db
  workflow : Workflow s.settled

/-- Order row `o`, whose status reads as `current`, stands as a row of the same key stands in
`D`: in the same branch and at the same status, both integers. -/
def Origin (o : Row) (current : Value) (D : Db) : Prop :=
  TableId.orders.read o "status_id" = .ok current ∧
    ∃ o₀ ∈ D.orders, o₀.id = o.id ∧ ∃ β a, o₀.get "branch_id" = .int β ∧
      o₀.get "status_id" = .int a ∧ o.get "branch_id" = .int β ∧ o.get "status_id" = .int a

/-- From `D` to the database as a session stands and to the database it last committed, the
statuses are steered: whether the request ends now or fails now, its step is steered. -/
def Rests (D : Db) (s : Session) : Prop := Steered D s.db ∧ Steered D s.settled

variable {s s' : Session} {due : Int → Int → Int → Prop}

@[grind →] theorem Untouched.frame (h : Untouched s) (hf : Frame guard s s') : Untouched s' where
  keeps := hf.settled ▸ h.keeps.trans hf.keeps
  workflow := hf.settled ▸ h.workflow

theorem Untouched.steers (h : Untouched s) : Steers due s :=
  ⟨Steering.keeps (by decide) (by decide) (by decide) (Steering.refl h.workflow.keyed) h.keeps
    fun _ _ _ _ => id, h.keeps.tables .transitions (by decide), h.workflow.keyed⟩

/-- An order loaded in an untouched session stands as it stands in the last commit. -/
theorem Untouched.origin {o : Row} {current : Value} (h : Untouched s) (ho : o ∈ s.db.orders)
    (hcur : TableId.orders.read o "status_id" = .ok current) : Origin o current s.settled := by
  obtain ⟨o₀, ho₀, hid, hcols⟩ := h.keeps.counterpart h.workflow.keyed ho
  obtain ⟨β, a, hβ, ha, -⟩ := h.workflow.own o₀ ho₀
  exact ⟨hcur, o₀, ho₀, hid, β, a, hβ, ha, (hcols _ (by decide)).trans hβ,
    (hcols _ (by decide)).trans ha⟩

theorem Origin.current_int {o : Row} {current : Value} {D : Db} (h : Origin o current D) :
    ∃ a, current = .int a ∧ o.get "status_id" = .int a := by
  obtain ⟨hcur, -, -, -, -, a, -, -, -, ha⟩ := h
  rw [TableId.read_integer o rfl rfl, ha] at hcur
  exact ⟨a, (Except.ok.inj hcur).symm, ha⟩

end Status

/-! ## Running a change of status -/

/-- A lifted result that succeeds is the result, and leaves the session. -/
theorem Txn.lift_ok {α : Type} {r : Result α} {a : α} {s s' : Session}
    (h : Txn.lift r s = .ok a s') : r = .ok a ∧ s' = s := by
  cases r with
  | ok b =>
    obtain ⟨rfl, rfl⟩ := EStateM.Result.ok.inj h
    exact ⟨rfl, rfl⟩
  | error e => cases h

/-- A run that succeeds through a bind runs its first part to success. -/
theorem Txn.bind_ok {α β : Type} {x : Txn α} {f : α → Txn β} {b : β} {s s' : Session}
    (h : (x >>= f) s = .ok b s') : ∃ a s1, x s = .ok a s1 ∧ f a s1 = .ok b s' := by
  simp only [bind, EStateM.bind] at h
  cases hx : x s with
  | ok a s1 => rw [hx] at h; exact ⟨a, s1, rfl, h⟩
  | error e s1 => rw [hx] at h; cases h

/-- A key too large for the database fails as a query parameter. -/
theorem Txn.param_too_large {n : Int} {s : Session} (hn : fitsInt64 n = false) :
    Txn.param (.int n) s = .error (.fault .tooLargeForStore) s := by
  simp only [Txn.param, bindValue, hn, Bool.false_eq_true, if_false]
  rfl

/-- A change of status that succeeds passed both checks on the database as it stood, and then
made its write. -/
theorem Orders.changeStatus_ok {o : Row} {β a b : Int} {s s' : Session} {u : Unit}
    (hβ : o.get "branch_id" = .int β) (h : Orders.changeStatus o (.int a) (.int b) s = .ok u s') :
    Status.Live s.db β b ∧ Status.Configured s.db β a b ∧ fitsInt64 b = true ∧
      Txn.update .orders o.id [("status_id", .int b)] s = .ok u s' := by
  cases hfb : fitsInt64 b
  · -- the target is refused as a parameter before anything is read
    have hs : Orders.statusInBranch (.int b) (.int β) s = .error (.fault .tooLargeForStore) s := by
      unfold Orders.statusInBranch
      rw [Txn.bind_of_fail (Txn.param_too_large hfb)]
    unfold Orders.changeStatus at h
    rw [Txn.bind_of_run (Orders.orderField_int_run rfl rfl hβ), Txn.bind_of_fail hs] at h
    cases h
  cases hfβ : fitsInt64 β
  · -- the status check may pass, but the branch is refused as a parameter of the move check
    have hm : Status.checkMove (.int β) (.int a) (.int b) s = .error (.fault .tooLargeForStore) s := by
      unfold Status.checkMove
      rw [Txn.bind_of_fail (Txn.param_too_large hfβ)]
    unfold Orders.changeStatus at h
    rw [Txn.bind_of_run (Orders.orderField_int_run rfl rfl hβ)] at h
    by_cases hl : Status.Live s.db β b
    · have hs : Orders.statusInBranch (.int b) (.int β) s = .ok () s := by
        rw [Orders.statusInBranch_run hfb, if_pos hl]
      rw [Txn.bind_of_run hs, Txn.bind_of_fail hm] at h
      cases h
    · have hs := Orders.statusInBranch_run (s := s) (β := β) hfb
      rw [if_neg hl] at hs
      rw [Txn.bind_of_fail hs] at h
      cases h
  rw [Orders.changeStatus_run hβ hfβ hfb] at h
  by_cases hl : Status.Live s.db β b
  · by_cases hc : Status.Configured s.db β a b
    · rw [if_neg (not_not_intro hl), if_neg (not_not_intro hc)] at h
      exact ⟨hl, hc, rfl, h⟩
    · rw [if_neg (not_not_intro hl), if_pos hc] at h
      cases h
  · rw [if_pos hl] at h
    cases h

namespace Status

variable {s s' : Session} {due : Int → Int → Int → Prop}

/-- **A change of status makes its move due.** A change of status of an order that stands as
it stood at the last commit, if it succeeds, keeps the statuses steered, with the move from
the order's status to the target due to be recorded. -/
theorem Steers.changeStatus {o : Row} {current : Value} {b : Int} {u : Unit} (h : Steers due s)
    (ho : Origin o current s.settled) (hrun : Orders.changeStatus o current (.int b) s = .ok u s') :
    Steers (fun x a' b' => due x a' b' ∨ Move o.id current (.int b) x a' b') s' := by
  obtain ⟨hcur, o₀, ho₀, hid, β, a, hβ₀, ha₀, hβ, ha⟩ := ho
  obtain ⟨a', rfl, ha'⟩ := Origin.current_int ⟨hcur, o₀, ho₀, hid, β, a, hβ₀, ha₀, hβ, ha⟩
  obtain rfl : a' = a := Cell.int.inj (ha'.symm.trans ha)
  obtain ⟨hlive, hconf, hfb, hu⟩ := Orders.changeStatus_ok hβ hrun
  rw [← hid] at hu
  refine (h.write ho₀ hβ₀ ha₀ hfb hlive hconf hu).mono fun x a' b' hm => hm.imp_right ?_
  rintro ⟨rfl, rfl, rfl⟩
  exact ⟨hid, rfl, rfl⟩

/-- What the trail records of a change of status that the canonical forms see: the rendered
statuses, or nothing when a held write was refused. -/
theorem logIfChanged_records {x a b : Int} {actor : Value} {r : Bool} (hab : a ≠ b)
    (hrun : Orders.logIfChanged x "status_id" (.int a) (.int b) actor s = .ok r s') :
    Logged s'.db x a b ∨ s'.waiting.isSome = true := by
  unfold Orders.logIfChanged at hrun
  obtain ⟨o, s1, hlo, hrun₁⟩ := Txn.bind_ok hrun
  obtain ⟨n, s2, hln, hrun₂⟩ := Txn.bind_ok hrun₁
  obtain ⟨ho, rfl⟩ := Txn.lift_ok hlo
  obtain ⟨hn, rfl⟩ := Txn.lift_ok hln
  -- both statuses had canonical forms, which are the statuses themselves
  rw [Audit.canonical_int ho, Audit.canonical_int hn] at hrun₂
  simp only [Json.Value.same_int, hab, decide_false, Bool.false_eq_true, if_false] at hrun₂
  obtain ⟨_, s1, hrec, hret⟩ := Txn.bind_ok hrun₂
  obtain ⟨-, rfl⟩ := EStateM.Result.ok.inj hret
  unfold Orders.record at hrec
  obtain ⟨id, s2, hins, hpure⟩ := Txn.bind_ok hrec
  obtain ⟨-, rfl⟩ := EStateM.Result.ok.inj hpure
  rcases Txn.insert_cases hins with ⟨rfl, hw⟩ | ⟨r, rfl⟩ | ⟨db, hdb, rfl⟩
  · exact .inr hw
  · exact .inr rfl
  · exact .inl (Db.insert_status_change hdb)

/-- **The record of a change settles its move.** After a change is recorded for a field, the
move of the status it names, when the field is the status, is no longer due. -/
theorem Steers.logIfChanged {x : Int} {field : String} {old new actor : Value} {r : Bool}
    (h : Steers due s) (hrun : Orders.logIfChanged x field old new actor s = .ok r s') :
    Steers (fun x' a b => due x' a b ∧ ¬ (field = "status_id" ∧ Move x old new x' a b)) s' := by
  have hf : Frame guard s s' := by
    have hrec := (Txn.triple_iff _ _ _ _).1
      (Orders.logIfChanged_frame s x field old new actor) s (Frame.refl guard s)
    rwa [hrun] at hrec
  refine (h.frame hf).settle ?_
  rintro x' a b hab ⟨rfl, rfl, rfl, rfl⟩
  exact logIfChanged_records hab hrun

end Status

/-! ## Specifications -/

namespace Status

/-- The guard of nothing: its frames are the calm changes that keep the keys of the orders in
key order and every row of the trail. -/
@[reducible] def bare : Guard where
  tables := []
  columns := []
  orders_free := by decide
  trail_free := by decide

variable {s s' : Session}

@[grind →] theorem frame_settled {g : Guard} (h : Frame g s s') : s'.settled = s.settled :=
  h.settled

/-- A live status stays live while the status rows stay as they were. -/
@[grind →] theorem Live.frame {β b : Int} (hf : Frame guard s s') (h : Live s.db β b) :
    Live s'.db β b :=
  h.of_statuses (hf.keeps.tables .statuses (by decide)).symm

@[grind →] theorem Steers.frame_settled {due : Int → Int → Int → Prop} (h : Steers due s)
    (hf : Frame guard s s') : Steers due s' := h.frame hf

@[grind →] theorem Untouched.steers_settled (h : Untouched s) : Steers Settled s := h.steers

@[grind →] theorem Untouched.steers_frame (h : Untouched s) (hf : Frame guard s s') :
    Steers Settled s' :=
  (h.frame hf).steers

/-- An untouched session rests at its last commit. -/
@[grind →] theorem Untouched.rests (h : Untouched s) : Rests s.settled s :=
  ⟨Steering.keeps (by decide) (by decide) (by decide)
    (@Steering.refl (Logged s.settled) s.settled h.workflow.keyed) h.keeps
    fun _ _ _ _ hl => hl.mono h.keeps.trail, Steering.refl h.workflow.keyed⟩

/-- Reads and writes outside what the statuses depend on keep a session at rest. -/
@[grind →] theorem Rests.frame {D : Db} (h : Rests D s) (hf : Frame guard s s') : Rests D s' :=
  ⟨Steering.keeps (by decide) (by decide) (by decide) h.1 hf.keeps
    fun _ _ _ _ hl => hl.mono hf.keeps.trail, hf.settled ▸ h.2⟩

/-- A move inside a bucket keeps what the statuses depend on. -/
theorem keeps_reorder (branch : Cell) (id : Int) (current target : Cell) (db : Db) :
    guard.Keeps db (db.withRows .orders (Orders.reorder db.orders branch id current target)) :=
  Guard.Keeps.reorder (by decide) branch id current target

/-- An order loaded in a session the last commit is reached from by a frame stands as it stood
there. -/
@[grind →] theorem Untouched.origin_read {o : Row} {current : Value} (h : Untouched s)
    (ho : o ∈ s.db.orders) (hcur : TableId.orders.read o "status_id" = .ok current) :
    Origin o current s.settled := h.origin ho hcur

end Status

section Specs

open Status

variable (s0 : Session)

/-- A change of status in an untouched session makes its move due. -/
@[spec 2300] theorem Orders.changeStatus_untouched (o : Row) (current : Value) (b : Int)
    (h0 : Untouched s0) (ho : Origin o current s0.settled) :
    ⦃fun s => ⌜Frame guard s0 s⌝⦄ Orders.changeStatus o current (.int b)
      ⦃post⟨fun _ s => ⌜Steers (Move o.id current (.int b)) s ∧ s.settled = s0.settled⌝,
        fun _ s => ⌜s.settled = s0.settled⌝⟩⦄ := by
  rw [Txn.triple_iff]
  intro s hf
  have hcalm := (Txn.triple_iff _ _ _ _).1
    (@Orders.changeStatus_frame bare s o current (.int b) (by decide)) s (Frame.refl bare s)
  cases hrun : Orders.changeStatus o current (.int b) s with
  | ok u s' =>
    rw [hrun] at hcalm
    have hs : Steers Settled s := (h0.frame hf).steers
    exact ⟨(hs.changeStatus (hf.settled ▸ ho) hrun).mono fun _ _ _ h => h.resolve_left id,
      (show Frame bare s s' from hcalm).settled.trans hf.settled⟩
  | error e s' =>
    rw [hrun] at hcalm
    exact (show Frame bare s s' from hcalm).settled.trans hf.settled

/-- The moves an edit makes: the status edit moves the order to its target. -/
def Orders.Edit.moves (x : Int) (current : Value) : Orders.Edit → Int → Int → Int → Prop
  | .status n => Move x current (.int n)
  | _ => fun _ _ _ => False

/-- An edit of an order that stands as it stood at the last commit keeps the statuses
steered, with the moves it makes due. -/
@[spec 2300] theorem Orders.Edit.perform_steers (o : Row) (current : Value) (e : Orders.Edit)
    (D : Db) {due : Int → Int → Int → Prop} (ho : Origin o current D) :
    ⦃fun s => ⌜Steers due s ∧ s.settled = D⌝⦄ e.perform o current
      ⦃post⟨fun _ s => ⌜Steers (fun x a b => due x a b ∨ e.moves o.id current x a b) s ∧
        s.settled = D⌝, fun _ s => ⌜s.settled = D⌝⟩⦄ := by
  rw [Txn.triple_iff]
  rintro s ⟨h, rfl⟩
  have hcalm := (Txn.triple_iff _ _ _ _).1
    (@Orders.Edit.perform_frame bare s o current e fun _ _ => List.not_mem_nil) s
      (Frame.refl bare s)
  cases hrun : e.perform o current s with
  | error e' s' =>
    rw [hrun] at hcalm
    exact hcalm.settled
  | ok u s' =>
    rw [hrun] at hcalm
    refine ⟨?_, hcalm.settled⟩
    by_cases hst : ∃ n, e = .status n
    · obtain ⟨n, rfl⟩ := hst
      exact h.changeStatus ho hrun
    · -- the other edits write columns the statuses do not depend on
      have hcols : ∀ c ∈ e.columns, c ∉ guard.columns := by
        cases e <;> simp_all [Orders.Edit.columns, Orders.Edit.field] <;> decide
      have hf := (Txn.triple_iff _ _ _ _).1
        (Orders.Edit.perform_frame s o current e hcols) s (Frame.refl guard s)
      rw [hrun] at hf
      exact (h.frame hf).mono fun _ _ _ => .inl

/-- Recording a change keeps the statuses steered and settles the move of the status it
names. -/
theorem Orders.logIfChanged_settles (order : Int) (field : String) (old new actor : Value) (D : Db)
    {due : Int → Int → Int → Prop} :
    ⦃fun s => ⌜Steers due s ∧ s.settled = D⌝⦄ Orders.logIfChanged order field old new actor
      ⦃post⟨fun _ s => ⌜Steers (fun x a b => due x a b ∧
        ¬ (field = "status_id" ∧ Move order old new x a b)) s ∧ s.settled = D⌝,
        fun _ s => ⌜s.settled = D⌝⟩⦄ := by
  rw [Txn.triple_iff]
  rintro s ⟨h, rfl⟩
  have hf := (Txn.triple_iff _ _ _ _).1
    (Orders.logIfChanged_frame s order field old new actor) s (Frame.refl guard s)
  cases hrun : Orders.logIfChanged order field old new actor s with
  | ok r s' =>
    rw [hrun] at hf
    exact ⟨h.logIfChanged hrun, hf.settled⟩
  | error e s' =>
    rw [hrun] at hf
    exact hf.settled

/-- The record of a change of status settles the move the change made. -/
@[spec 2300] theorem Orders.logIfChanged_status (order : Int) (old new actor : Value) (D : Db) :
    ⦃fun s => ⌜Steers (Move order old new) s ∧ s.settled = D⌝⦄
      Orders.logIfChanged order "status_id" old new actor
      ⦃post⟨fun _ s => ⌜Steers Settled s ∧ s.settled = D⌝, fun _ s => ⌜s.settled = D⌝⟩⦄ := by
  rw [Txn.triple_iff]
  intro s hs
  have hrec := (Txn.triple_iff _ _ _ _).1
    (Orders.logIfChanged_settles order "status_id" old new actor D) s hs
  cases hrun : Orders.logIfChanged order "status_id" old new actor s with
  | ok r s' =>
    rw [hrun] at hrec
    exact ⟨hrec.1.mono fun _ _ _ hm => hm.2 ⟨rfl, hm.1⟩, hrec.2⟩
  | error e s' =>
    rw [hrun] at hrec
    exact hrec

end Specs

/-! ## Units of work -/

/-- **A unit of work that ends with no move due commits a steered step.** From a session
reached by a frame from an untouched one, a unit of work whose body, run from an untouched
session, ends with no move due and the last commit as it was, leaves the database and the last
commit steered from the commit it started from: rolled back, both are that commit; committed,
both are the body's database, steered by `Status.Steers.commit`; the sweeps after the commit
touch the cache alone. -/
theorem Txn.atomically_rests {α : Type} (body : Txn α) (s0 : Session) (h0 : Status.Untouched s0)
    (hbody : ∀ D, ⦃fun s => ⌜Status.Untouched s ∧ s.settled = D⌝⦄ body
      ⦃post⟨fun _ s => ⌜Status.Steers Status.Settled s ∧ s.settled = D⌝,
        fun _ s => ⌜s.settled = D⌝⟩⦄) :
    ⦃fun s => ⌜Frame Status.guard s0 s⌝⦄ Txn.atomically body
      ⦃post⟨fun _ s => ⌜Status.Rests s0.settled s⌝, fun _ s => ⌜Status.Rests s0.settled s⌝⟩⦄ := by
  rw [Txn.triple_iff]
  intro s hf
  have hstart : Status.Untouched { s with waiting := none, sweeps := [] } :=
    let h := h0.frame hf
    ⟨h.keeps, h.workflow⟩
  have hrefl : Status.Steered s0.settled s0.settled := Status.Steering.refl h0.workflow.keyed
  have hb := (Txn.triple_iff _ _ _ _).1 (hbody s0.settled) _ ⟨hstart, hf.settled⟩
  unfold Txn.atomically
  dsimp only
  cases hrun : body { s with waiting := none, sweeps := [] } with
  | error e s' =>
    -- rolled back to the commit the unit started from
    rw [hrun] at hb
    exact ⟨by rw [show s'.settled = s0.settled from hb]; exact hrefl,
      by rw [show s'.settled = s0.settled from hb]; exact hrefl⟩
  | ok a s' =>
    rw [hrun] at hb
    obtain ⟨hst, hD⟩ := hb
    dsimp only
    cases hwait : s'.waiting with
    | some r => exact ⟨by rw [hD]; exact hrefl, by rw [hD]; exact hrefl⟩
    | none =>
      have hstep : Status.Steered s0.settled s'.db := hD ▸ hst.commit hwait
      have hw := (Txn.triple_iff _ _ _ _).1 (Txn.sweepAll_keeps s'.sweeps s'.db s'.db)
        { s' with waiting := none, sweeps := [], settled := s'.db } ⟨rfl, rfl⟩
      dsimp only
      cases hsw : Txn.sweepAll s'.sweeps { s' with waiting := none, sweeps := [], settled := s'.db } with
      | ok u s'' =>
        rw [hsw] at hw
        exact ⟨hw.1 ▸ hstep, hw.2 ▸ hstep⟩
      | error e s'' =>
        rw [hsw] at hw
        exact ⟨hw.1 ▸ hstep, hw.2 ▸ hstep⟩

/-! ## The update's two loops -/

namespace Status

variable {s : Session} {x : Int} {start : Value}

/-- The moves the status edits among `changes` make, each from the value the change recorded
as the old one. -/
def Edits (x : Int) (changes : List (Orders.Edit × Value)) : Int → Int → Int → Prop :=
  fun x' a b => ∃ p ∈ changes, p.1.moves x p.2 x' a b

@[grind →] theorem Steers.edits_nil (h : Steers (Edits x []) s) : Steers Settled s :=
  h.mono fun _ _ _ ⟨_, hp, _⟩ => absurd hp List.not_mem_nil

/-- Performing one more edit, from the status its change recorded, adds the moves it makes. -/
theorem Edits.snoc {pref : List (Orders.Edit × Value)} {cur : Orders.Edit × Value} {x' a b : Int}
    (hold : ∀ n, cur.1 = .status n → cur.2 = start)
    (h : Edits x pref x' a b ∨ cur.1.moves x start x' a b) : Edits x (pref ++ [cur]) x' a b := by
  rcases h with ⟨p, hp, hm⟩ | hm
  · exact ⟨p, List.mem_append_left _ hp, hm⟩
  · refine ⟨cur, List.mem_append_right _ (List.mem_singleton_self cur), ?_⟩
    obtain ⟨e, old⟩ := cur
    cases e with
    | status n => rwa [hold n rfl]
    | _ => exact hm.elim

/-- Recording the change an edit made settles the moves it made. -/
theorem Edits.recorded {cur : Orders.Edit × Value} {suff : List (Orders.Edit × Value)} {x' a b : Int}
    (h : Edits x (cur :: suff) x' a b ∧
      ¬ (cur.1.field = "status_id" ∧ Move x cur.2 cur.1.newValue x' a b)) :
    Edits x suff x' a b := by
  obtain ⟨⟨p, hp, hm⟩, hn⟩ := h
  rcases List.mem_cons.1 hp with rfl | hp
  · -- the edit just recorded: only a status edit makes a move, and its record names it
    obtain ⟨e, old⟩ := p
    cases e with
    | status n => exact absurd ⟨rfl, hm⟩ hn
    | _ => exact hm.elim
  · exact ⟨p, hp, hm⟩

end Status

section Specs

open Status

variable (s0 : Session)

/-- Comparing each edit with the column it writes keeps the frame, and every change it keeps
carries the value the order holds in that column. -/
@[spec 2300] theorem Orders.changes_frame (o : Row) (edits : List Orders.Edit) :
    ⦃fun s => ⌜Frame guard s0 s⌝⦄ edits.filterMapM (fun (e : Orders.Edit) => do
        let old ← Orders.orderField o e.field
        let differ ← Txn.lift (Audit.valuesDiffer old e.newValue)
        pure (if differ then some (e, old) else none))
      ⦃post⟨fun cs s => ⌜Frame guard s0 s ∧ ∀ p ∈ cs, TableId.orders.read o p.1.field = .ok p.2⌝,
        fun _ s => ⌜Frame guard s0 s⌝⟩⦄ := by
  induction edits generalizing s0 with
  | nil =>
    simp only [List.filterMapM_nil]
    mvcgen
    all_goals grind -ring -linarith -lia
  | cons e rest ih =>
    simp only [List.filterMapM_cons]
    mvcgen [-List.filterMapM_frame, ih]
    all_goals grind -ring -linarith -lia

/-- **The edits of an update make their moves due.** Performing the edits of the changes, each
from the status the request started at, from a session reached by a frame from an untouched
one, keeps the statuses steered, with the moves of the status edits due. -/
@[spec 2300] theorem Orders.performAll_steers (o : Row) (start : Value)
    (changes : List (Orders.Edit × Value)) (h0 : Untouched s0) (ho : Origin o start s0.settled)
    (hread : ∀ p ∈ changes, TableId.orders.read o p.1.field = .ok p.2) :
    ⦃fun s => ⌜Frame guard s0 s⌝⦄
      forIn changes PUnit.unit (fun (x : Orders.Edit × Value) (_ : PUnit) => match x with
        | (c, _) => do
          c.perform o start
          pure (ForInStep.yield PUnit.unit))
      ⦃post⟨fun _ s => ⌜Steers (Edits o.id changes) s ∧ s.settled = s0.settled⌝,
        fun _ s => ⌜s.settled = s0.settled⌝⟩⦄ := by
  -- a status edit's change recorded the status the order stands at
  have hold : ∀ p ∈ changes, ∀ n, p.1 = .status n → p.2 = start := by
    intro p hp n hn
    have h1 := hread p hp
    rw [hn] at h1
    exact Except.ok.inj (h1.symm.trans ho.1)
  mvcgen [-List.forIn_frame, -List.forIn_quiet]
    invariants
    · post⟨fun ⟨cur, _⟩ s => ⌜Steers (Edits o.id cur.prefix) s ∧ s.settled = s0.settled⌝,
        fun _ s => ⌜s.settled = s0.settled⌝⟩
  · -- the loop starts with no move due
    rename_i s hf
    exact ⟨(h0.frame hf).steers, hf.settled⟩
  · exact fun h1 h2 => ⟨h1, h2⟩
  · -- each edit adds the moves it makes
    rename_i pref cur suff hsplit _ _ _ _ s h
    have hcur : cur ∈ changes := hsplit ▸ List.mem_append_right _ List.mem_cons_self
    exact ⟨h.1.mono fun _ _ _ => Edits.snoc (hold cur hcur), h.2⟩

/-- **Recording the changes of an update settles the moves its edits made.** -/
@[spec 2300] theorem Orders.recordAll_settles (o : Row) (changes : List (Orders.Edit × Value))
    (admin : Value) (h0 : Steers (Edits o.id changes) s0) :
    ⦃fun s => ⌜Frame guard s0 s⌝⦄
      forIn changes PUnit.unit (fun (x : Orders.Edit × Value) (_ : PUnit) => match x with
        | (c, old) => do
          let _ ← Orders.logIfChanged o.id c.field old c.newValue admin
          pure (ForInStep.yield PUnit.unit))
      ⦃post⟨fun _ s => ⌜Steers Settled s ∧ s.settled = s0.settled⌝,
        fun _ s => ⌜s.settled = s0.settled⌝⟩⦄ := by
  mvcgen [-List.forIn_frame, -List.forIn_quiet, -Orders.logIfChanged_frame,
      -Orders.logIfChanged_quiet, Orders.logIfChanged_settles]
    invariants
    · post⟨fun ⟨cur, _⟩ s => ⌜Steers (Edits o.id cur.suffix) s ∧ s.settled = s0.settled⌝,
        fun _ s => ⌜s.settled = s0.settled⌝⟩
  · rename_i s hf
    exact ⟨h0.frame hf, hf.settled⟩
  · -- every change recorded, no move is due
    exact fun h1 h2 => ⟨h1.edits_nil, h2⟩
  · -- each record settles the moves of its edit
    rename_i _ _ _ _ _ _ _ _ s h
    exact ⟨h.1.mono fun _ _ _ => Edits.recorded, h.2⟩

/-! ## The creation's checks and insert -/

/-- The initial status of a branch is a key. -/
@[spec 2300] theorem Orders.initialStatus_key (branch : Value) :
    ⦃fun s => ⌜Frame guard s0 s⌝⦄ Orders.initialStatus branch
      ⦃post⟨fun v s => ⌜Frame guard s0 s ∧ ∃ b, v = .int b⌝, fun _ s => ⌜Frame guard s0 s⌝⟩⦄ := by
  unfold Orders.initialStatus
  mvcgen
  all_goals grind -ring -linarith -lia

/-- A status check that passes leaves a live status. -/
@[spec 2300] theorem Orders.statusInBranch_live (status : Value) (β : Int) :
    ⦃fun s => ⌜Frame guard s0 s⌝⦄ Orders.statusInBranch status (.int β)
      ⦃post⟨fun _ s => ⌜Frame guard s0 s ∧ ∀ b, status = .int b → Live s.db β b⌝,
        fun _ s => ⌜Frame guard s0 s⌝⟩⦄ := by
  rw [Txn.triple_iff]
  intro s hf
  have hfr := (Txn.triple_iff _ _ _ _).1 (Orders.statusInBranch_frame s0 status (.int β)) s hf
  cases hrun : Orders.statusInBranch status (.int β) s with
  | error e s' =>
    rw [hrun] at hfr
    exact hfr
  | ok u s' =>
    rw [hrun] at hfr
    refine ⟨hfr, ?_⟩
    rintro b rfl
    cases hfb : fitsInt64 b
    · -- a key too large is refused as a parameter
      have hs : Orders.statusInBranch (.int b) (.int β) s = .error (.fault .tooLargeForStore) s := by
        unfold Orders.statusInBranch
        rw [Txn.bind_of_fail (Txn.param_too_large hfb)]
      rw [hs] at hrun
      cases hrun
    · rw [Orders.statusInBranch_run hfb] at hrun
      split_ifs at hrun with hl
      cases hrun
      exact hl

/-- **A new order at a live status of its branch keeps the statuses steered.** -/
@[spec 2300] theorem Txn.insert_order_steers (given : List (String × Value)) (h0 : Untouched s0)
    (hplace : ∃ β b, given.lookup "branch_id" = some (.int β) ∧
      given.lookup "status_id" = some (.int b) ∧ Live s0.db β b) :
    ⦃fun s => ⌜Frame guard s0 s⌝⦄ Txn.insert .orders given
      ⦃post⟨fun _ s => ⌜Steers Settled s ∧ s.settled = s0.settled⌝,
        fun _ s => ⌜s.settled = s0.settled⌝⟩⦄ := by
  obtain ⟨β, b, hβ, hb, hlive⟩ := hplace
  rw [Txn.triple_iff]
  intro s hf
  have hcalm := (Txn.triple_iff _ _ _ _).1 (Txn.insert_value .orders given s) s rfl
  cases hrun : Txn.insert .orders given s with
  | ok id s' =>
    rw [hrun] at hcalm
    exact ⟨(h0.frame hf).steers.insert hβ hb (hlive.frame hf) hrun,
      hcalm.1.settled.trans hf.settled⟩
  | error e s' =>
    rw [hrun] at hcalm
    exact hcalm.elim

end Specs

/-! ## The services that change statuses -/

section Services

open Status

variable (s0 : Session)

/-- **Moving an order keeps the statuses steered.** A move to another status checks the
target and the move and records it; a move inside the bucket rewrites positions alone. -/
@[spec 2300] theorem Orders.moveOrder_rests (actor : Access.Actor) (order : Value) (target : Nat)
    (targetSort : Option Nat) (h0 : Untouched s0) :
    ⦃fun s => ⌜Frame guard s0 s⌝⦄ Orders.moveOrder actor order target targetSort
      ⦃post⟨fun _ s => ⌜Rests s0.settled s⌝, fun _ s => ⌜Rests s0.settled s⌝⟩⦄ := by
  unfold Orders.moveOrder Orders.mutate
  mvcgen [Txn.atomically_rests]
  all_goals grind -ring -linarith -lia [keeps_reorder]

/-- **Updating an order keeps the statuses steered.** Its status edit checks the target and
the move from the status the request started at, and the second loop records it. -/
@[spec 2300] theorem Orders.updateOrder_rests (actor : Access.Actor) (order : Value)
    (req : Request.OrderChange) (h0 : Untouched s0) :
    ⦃fun s => ⌜Frame guard s0 s⌝⦄ Orders.updateOrder actor order req
      ⦃post⟨fun _ s => ⌜Rests s0.settled s⌝, fun _ s => ⌜Rests s0.settled s⌝⟩⦄ := by
  unfold Orders.updateOrder Orders.mutate
  mvcgen [Txn.atomically_rests]
  all_goals grind -ring -linarith -lia

/-- **Creating an order keeps the statuses steered.** The new order takes a live status of its
branch: the one given, or the initial one, each checked. -/
@[spec 2300] theorem Orders.createOrder_rests (actor : Access.Actor) (branch : Int)
    (req : Request.NewOrder) (h0 : Untouched s0) :
    ⦃fun s => ⌜Frame guard s0 s⌝⦄ Orders.createOrder actor branch req
      ⦃post⟨fun _ s => ⌜Rests s0.settled s⌝, fun _ s => ⌜Rests s0.settled s⌝⟩⦄ := by
  unfold Orders.createOrder
  mvcgen [Txn.atomically_rests]
  all_goals grind -ring -linarith -lia

end Services

end RepairShop
