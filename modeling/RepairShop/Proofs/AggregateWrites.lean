import RepairShop.Proofs.OrderAggregate

/- The writers of the order aggregate, within a unit of work.

   Within a unit of work the database may hold a refused write, which fails the unit at its
   next flush or at its commit; until then inserts and updates do nothing, but deletes still
   run. So what a writer keeps is stated of the database only when no refused write is held
   (`Orders.Pending`): the last commit holds the aggregate, and the database holds it too, with
   the order written still there, unless a refusal is held. This file proves that

   1. a read, and a write outside what the aggregate reads, keeps a pending session
      (`Orders.Pending.frame`), and a write does when the database write it makes does
      (`Orders.Pending.wrote`);
   2. the writers of the order's own lists keep it: the staff links
      (`Orders.writeStaff_pending`), and the problem lists (`Orders.replaceProblems_pending`,
      `Orders.applyProblems_pending`, after the checks of `Orders.validateProblems_distinct`);
   3. the writer of a place keeps it (`Orders.applyPlace_pending`): clearing it sets the
      method to `Self` (`Orders.Pending.place_clear`), setting it to the courier's
      (`Orders.Pending.place_put`);
   4. an edit of an order's own columns keeps it (`Orders.Edit.perform_pending`): only a new
      priority writes columns the aggregate reads, its name and level together. -/

namespace RepairShop

open Std.Do Store Json

set_option autoImplicit false
set_option mvcgen.warning false

namespace Orders

/-! ## Sessions within a unit of work -/

/-- The aggregate holds, and order `x` is there. -/
def Holds (x : Int) (db : Db) : Prop := Aggregate db ∧ ∃ o ∈ db.orders, o.id = x

/-- Within a unit of work: the last commit holds the aggregate, and the database holds `P`
unless a refused write is held, which fails the unit. -/
structure Pending (P : Db → Prop) (s : Session) : Prop where
  settled : Aggregate s.settled
  current : s.waiting.isSome = true ∨ P s.db

/-- What a writer ends in: a pending session on success, the last commit kept on failure. -/
abbrev Pending.post {α : Type} (P : Db → Prop) :
    PostCond α (.except Failure (.arg Session .pure)) :=
  post⟨fun _ s => ⌜Pending P s⌝, fun _ s => ⌜Aggregate s.settled⌝⟩

/-- From `s0` to `s` the last commit is kept, and when no refused write is held at the end,
none was held at the start and the database went by `w`. -/
def Wrote (w : Db → Db → Prop) (s0 s : Session) : Prop :=
  s.settled = s0.settled ∧ (s.waiting = none → s0.waiting = none ∧ w s0.db s.db)

variable {P Q : Db → Prop} {w : Db → Db → Prop} {x : Int} {db db' : Db} {s0 s s' : Session}

theorem Holds.stable : aggregateGuard.Stable (Holds x) := fun _ _ hk ⟨ha, _, ho, hx⟩ =>
  ⟨ha.keeps hk, (hk.image ha.keyed ho).imp fun _ h => ⟨h.1, h.2.trans hx⟩⟩

/-- A write that keeps the aggregate and leaves the orders keeps it holding at `x`. -/
theorem Holds.of_orders (h : Holds x db) (ha : Aggregate db') (hor : db'.orders = db.orders) :
    Holds x db' :=
  ⟨ha, hor ▸ h.2⟩

/-- Deleting staff links keeps the aggregate holding at an order. -/
theorem Holds.delete_staff (h : Holds x db) (p : Row → Bool) :
    Holds x (db.delete .assignments p) :=
  h.of_orders (h.1.delete_staff p) rfl

/-- Linking an account to the order keeps the aggregate holding there. -/
theorem Holds.insert_staff {a id : Int} (h : Holds x db)
    (hins : db.insert .assignments [("repair_order_id", .int x), ("admin_id", .int a)] =
      .ok (db', id)) : Holds x db' :=
  h.of_orders (h.1.insert_staff hins rfl h.2 rfl) ((Db.insert_rows hins).1 .orders (by decide))

theorem Pending.frame (hP : aggregateGuard.Stable P) (h : Pending P s)
    (hf : Frame aggregateGuard s s') : Pending P s' := by
  refine ⟨hf.settled ▸ h.settled, ?_⟩
  rcases h.current with hw | hp
  · exact .inl (hf.held hw)
  · exact .inr (hP _ _ hf.keeps hp)

@[grind →] theorem Pending.frame_holds (h : Pending (Holds x) s)
    (hf : Frame aggregateGuard s s') : Pending (Holds x) s' :=
  h.frame Holds.stable hf

@[grind →] theorem Pending.settled_aggregate (h : Pending P s) : Aggregate s.settled := h.settled

theorem Pending.wrote (h : Pending P s0) (hw : Wrote w s0 s)
    (hkeep : ∀ db', P s0.db → w s0.db db' → Q db') : Pending Q s := by
  refine ⟨hw.1 ▸ h.settled, ?_⟩
  cases hs : s.waiting with
  | some r => exact .inl rfl
  | none =>
    obtain ⟨h0, hdb⟩ := hw.2 hs
    rcases h.current with hw0 | hp
    · rw [h0] at hw0
      cases hw0
    · exact .inr (hkeep _ hp hdb)

theorem Pending.mono (h : Pending P s) (hPQ : P s.db → Q s.db) : Pending Q s :=
  ⟨h.settled, h.current.imp id hPQ⟩

@[grind →] theorem Wrote.settled (h : Wrote w s0 s) : s.settled = s0.settled := h.1

@[grind →] theorem frame_settled_eq {g : Guard} (hf : Frame g s s') : s'.settled = s.settled :=
  hf.settled

/-- Two writes in a row write their composite. -/
theorem Wrote.trans {w' : Db → Db → Prop} (h : Wrote w s0 s) (h' : Wrote w' s s') :
    Wrote (fun db db'' => ∃ db', w db db' ∧ w' db' db'') s0 s' := by
  refine ⟨h'.1.trans h.1, fun hs => ?_⟩
  obtain ⟨hs', hw'⟩ := h'.2 hs
  obtain ⟨hs0, hw⟩ := h.2 hs'
  exact ⟨hs0, _, hw, hw'⟩

@[grind →] theorem Pending.frame_settled {g : Guard} (h : Pending P s) (hf : Frame g s s') :
    Aggregate s'.settled :=
  hf.settled ▸ h.settled

end Orders

/-! ## The writes, as a unit of work sees them -/

section Writes

open Orders

variable (s0 : Session)

theorem Txn.insert_wrote (t : TableId) (given : List (String × Value)) :
    ⦃fun s => ⌜s = s0⌝⦄ Txn.insert t given
      ⦃post⟨fun id s => ⌜Wrote (fun db db' => db.insert t given = .ok (db', id)) s0 s⌝,
        fun _ _ => ⌜False⌝⟩⦄ := by
  unfold Txn.insert
  mvcgen
  case vc1.isTrue s hs hw =>
    subst hs
    exact ⟨rfl, fun h => by simp [h] at hw⟩
  case vc2.isFalse.h_1 s hs _ db id hi =>
    subst hs
    exact ⟨rfl, fun h => ⟨h, hi⟩⟩
  case vc3.isFalse.h_2 s hs _ r _ =>
    subst hs
    exact ⟨rfl, fun h => by cases h⟩

theorem Txn.update_wrote (t : TableId) (id : Int) (given : List (String × Value)) :
    ⦃fun s => ⌜s = s0⌝⦄ Txn.update t id given
      ⦃post⟨fun _ s => ⌜Wrote (fun db db' => db.update t id given = .ok db') s0 s⌝,
        fun _ _ => ⌜False⌝⟩⦄ := by
  unfold Txn.update
  mvcgen
  case vc1.isTrue s hs hw =>
    subst hs
    exact ⟨rfl, fun h => by simp [h] at hw⟩
  case vc2.isFalse.h_1 s hs _ db hu =>
    subst hs
    exact ⟨rfl, fun h => ⟨h, hu⟩⟩
  case vc3.isFalse.h_2 s hs _ r _ =>
    subst hs
    exact ⟨rfl, fun h => by cases h⟩

theorem Txn.delete_wrote (t : TableId) (p : Row → Bool) :
    ⦃fun s => ⌜s = s0⌝⦄ Txn.delete t p
      ⦃post⟨fun _ s => ⌜Wrote (fun db db' => db' = db.delete t p) s0 s⌝, fun _ _ => ⌜False⌝⟩⦄ := by
  unfold Txn.delete
  mvcgen
  rename_i s hs _
  subst hs
  exact ⟨rfl, fun h => ⟨h, rfl⟩⟩

end Writes

/-! ## Staff -/

section Staff

open Orders

attribute [local instance] Orders.aggregateGuard

/-- **Writing staff links keeps the aggregate holding at the order**: the links deleted are
the order's, and each link added is of an account. -/
@[spec 2500] theorem Orders.writeStaff_pending (x : Int) (toAdd toRemove : List Value)
    (hadd : ∀ v ∈ toAdd, ∃ a : Int, v = .int a) :
    ⦃fun s => ⌜Pending (Holds x) s⌝⦄ writeStaff x toAdd toRemove ⦃Pending.post (Holds x)⦄ := by
  unfold writeStaff
  mvcgen [Txn.delete_wrote, Txn.insert_wrote, -Txn.delete_frame, -Txn.delete_quiet,
    -Txn.insert_frame, -Txn.insert_quiet, -Txn.insert_order_steers, -List.forIn_frame,
    -List.forIn_quiet]
    invariants
    · post⟨fun _ s => ⌜Pending (Holds x) s⌝, fun _ s => ⌜Aggregate s.settled⌝⟩
    · post⟨fun _ s => ⌜Pending (Holds x) s⌝, fun _ s => ⌜Aggregate s.settled⌝⟩
  case vc3.step.post.success | vc11.step.post.success =>
    rename_i cur _ hsplit _ _ h1 _ _ hw
    obtain ⟨a, rfl⟩ := hadd cur (by simp [hsplit])
    exact h1.wrote hw fun _ hh hi => hh.insert_staff hi
  case vc4.isTrue.post.success.post.success.post.success.pre =>
    rename_i h0 _ _ hf1 _ _ hf2 _ _ hw
    exact ((h0.frame_holds hf1.1).frame_holds hf2).wrote hw fun _ hh h => h ▸ hh.delete_staff _
  all_goals grind only [Frame.refl, → Pending.frame_holds, Pending.settled_aggregate, → Frame.trans]

/-- The ids of a set of accounts are integers. -/
theorem Orders.idSet_int {ids : List Nat} {v : Value} (h : v ∈ idSet ids) :
    ∃ a : Int, v = .int a := by
  obtain ⟨i, -, rfl⟩ := List.mem_map.1 h
  exact ⟨_, rfl⟩

@[spec 2500] theorem Orders.replaceStaff_pending (x : Int) (ids : List Nat)
    (actor : Access.Actor) :
    ⦃fun s => ⌜Pending (Holds x) s⌝⦄ replaceStaff x ids actor ⦃Pending.post (Holds x)⦄ := by
  unfold replaceStaff
  mvcgen
  case hadd => exact fun _ hv => idSet_int (List.mem_of_mem_filter hv)
  all_goals grind only [Frame.refl, → Pending.frame_holds, Pending.settled_aggregate, → Frame.trans]

@[spec 2500] theorem Orders.addStaff_pending (x : Int) (branch status : Value) (ids : List Nat)
    (actor : Access.Actor) :
    ⦃fun s => ⌜Pending (Holds x) s⌝⦄ addStaff x branch status ids actor ⦃Pending.post (Holds x)⦄ := by
  unfold addStaff
  mvcgen
  case hadd => exact fun _ hv => idSet_int hv
  all_goals grind only [Frame.refl, → Pending.frame_holds, Pending.settled_aggregate, → Frame.trans]

@[spec 2500] theorem Orders.removeStaff_pending (x : Int) (branch status : Value) (ids : List Nat)
    (actor : Access.Actor) :
    ⦃fun s => ⌜Pending (Holds x) s⌝⦄ removeStaff x branch status ids actor
      ⦃Pending.post (Holds x)⦄ := by
  unfold removeStaff
  mvcgen
  case hadd => exact fun _ hv => absurd hv List.not_mem_nil
  all_goals grind only [Frame.refl, → Pending.frame_holds, Pending.settled_aggregate, → Frame.trans]

end Staff

/-! ## Problem lists -/

namespace Orders

/-- The categories of a problem list are distinct, and the parts of each of its lines. -/
def Distinct (lines : List Request.ProblemLine) : Prop :=
  (lines.map (·.categoryId)).Nodup ∧ ∀ l ∈ lines, (l.parts.map (·.partId)).Nodup

/-- A value of an element is not among those of the elements before it, in a list whose
values are distinct. -/
theorem not_mem_map_front {α β : Type} {f : α → β} {xs pre suf : List α} {a : α}
    (hnd : (xs.map f).Nodup) (hs : xs = pre ++ a :: suf) : f a ∉ pre.map f := by
  subst hs
  rw [List.map_append, List.map_cons, List.nodup_append] at hnd
  exact fun hmem => hnd.2.2 _ hmem _ List.mem_cons_self rfl

/-- The lines of list `side` of order `x` are, by category, the lines `pref`, and the aggregate
holds there. -/
def LinesSoFar (side : ProblemSide) (x : Int) (pref : List Request.ProblemLine) (db : Db) :
    Prop :=
  Holds x db ∧
    (owned side.table db x).map (·.get "problem_category_id") = pref.map fun l => .int l.categoryId

/-- The lines so far are `pref`, and the last of them, under key `line`, has the parts `ppref`. -/
def PartsSoFar (side : ProblemSide) (x line : Int) (pref : List Request.ProblemLine)
    (ppref : List Request.PartLine) (db : Db) : Prop :=
  LinesSoFar side x pref db ∧
    (∃ r ∈ db.rows side.table, r.id = line ∧ r.get "repair_order_id" = .int x) ∧
    (partsOf side db line).map (·.get "repair_part_id") = ppref.map fun p => .int p.partId

variable {x : Int} {db db' : Db} {side : ProblemSide} {pref : List Request.ProblemLine}

/-- **Clearing a problem list keeps the aggregate holding at its order**: the parts of its
lines go first, so no part hangs from a line deleted, and the order has no lines left. -/
theorem Holds.clear_lines (h : Holds x db) (side : ProblemSide) {ids : List Int}
    (hids : ids = (owned side.table db x).map Row.id) :
    LinesSoFar side x []
      ((db.delete .orderParts fun p => p.isAny .orderParts side.link (ids.map .int)).delete
        side.table fun r => ids.contains r.id) := by
  have hside : (db.delete .orderParts fun p => p.isAny .orderParts side.link (ids.map .int)).rows
      side.table = db.rows side.table :=
    Db.delete_rows_ne db _ (show side.table ≠ .orderParts by cases side <;> decide)
  -- no part left hangs from a line of the order
  have hfree : ∀ q ∈ (db.delete .orderParts fun p =>
      p.isAny .orderParts side.link (ids.map .int)).orderParts,
      ∀ r ∈ (db.delete .orderParts fun p => p.isAny .orderParts side.link (ids.map .int)).rows
        side.table, ids.contains r.id = true → q.get side.link ≠ .int r.id := by
    intro q hq r _ hr hlink
    have hq' := (Db.mem_delete_rows.1 (show q ∈ (db.delete .orderParts _).rows .orderParts from hq)).2
      rfl
    rw [Row.isAny, List.any_eq_false] at hq'
    exact hq' _ (List.mem_map_of_mem (List.elem_iff.1 hr))
      (by rw [Row.is_int side.link_affinity hlink, decide_eq_true_eq])
  have hor : ((db.delete .orderParts fun p => p.isAny .orderParts side.link (ids.map .int)).delete
      side.table fun r => ids.contains r.id).orders = db.orders :=
    (Db.delete_rows_ne _ _ (show TableId.orders ≠ side.table by cases side <;> decide)).trans
      (Db.delete_rows_ne _ _ (show TableId.orders ≠ .orderParts by decide))
  refine ⟨⟨(h.1.delete_parts _).delete_lines side _ hfree, hor ▸ h.2⟩, ?_⟩
  · -- every line of the order was among those deleted
    rw [List.map_nil, List.map_eq_nil_iff]
    unfold owned
    rw [Db.delete_rows_self, hside, List.filter_filter, List.filter_eq_nil_iff]
    intro r hr hown
    rw [Bool.and_eq_true, Bool.not_eq_true'] at hown
    have hmem : r.id ∈ ids := hids ▸ List.mem_map_of_mem (List.mem_filter.2 ⟨hr, hown.1⟩)
    have hc : ids.contains r.id = true := List.elem_iff.2 hmem
    rw [hown.2] at hc
    cases hc

/-- With no lines of the list left, the lines so far are none. -/
theorem Holds.lines_nil (h : Holds x db) (hown : (owned side.table db x).map Row.id = []) :
    LinesSoFar side x [] db :=
  ⟨h, by rw [List.map_eq_nil_iff.1 hown]; rfl⟩

/-- **Adding a line of a new category keeps the lines so far**, with the line last, holding no
parts yet. -/
theorem LinesSoFar.insert_line (h : LinesSoFar side x pref db) {l : Request.ProblemLine}
    {id : Int} {rest : List (String × Value)}
    (hins : db.insert side.table (("repair_order_id", .int x) ::
      ("problem_category_id", .int l.categoryId) :: rest) = .ok (db', id))
    (hnew : Cell.int l.categoryId ∉ pref.map fun l => Cell.int l.categoryId) :
    PartsSoFar side x id (pref ++ [l]) [] db' := by
  have ha := h.1.1.insert_line hins rfl h.1.2 rfl (h.2 ▸ hnew)
  obtain ⟨row, rfl, hid, hnext, hst, -, -⟩ := Db.insert_row hins
  have hrx : row.get "repair_order_id" = .int x := hst.int (by decide) (by cases side <;> rfl) rfl
  have hrc : row.get "problem_category_id" = .int l.categoryId :=
    hst.int (by decide) (by cases side <;> rfl) rfl
  have hparts : (db.withRows side.table (db.rows side.table ++ [row])).orderParts = db.orderParts :=
    Db.rows_withRows_ne _ (show TableId.orderParts ≠ side.table by cases side <;> decide)
  refine ⟨⟨h.1.of_orders ha (Db.rows_withRows_ne _
      (show TableId.orders ≠ side.table by cases side <;> decide)), ?_⟩,
    ⟨row, by rw [Db.rows_withRows_self]; exact List.mem_append_right _ (List.mem_singleton_self _),
      hid, hrx⟩, ?_⟩
  · rw [owned_append, Row.is_int (owned_affinity side.table_owned) hrx, if_pos (decide_eq_true rfl),
      List.map_append, h.2, List.map_append, List.map_singleton, List.map_singleton, hrc]
  · -- no part hangs from the new key yet
    have hnone := h.1.1.lists.partsOf_next side
    rw [← hnext] at hnone
    unfold partsOf at hnone ⊢
    rw [hparts, hnone]
    rfl

/-- **Adding a part new to the last line keeps the parts so far**, with the part last. -/
theorem PartsSoFar.insert_part {line : Int} {ppref : List Request.PartLine}
    (h : PartsSoFar side x line pref ppref db) {p : Request.PartLine} {id : Int} {admin : Value}
    (hins : db.insert .orderParts [("repair_order_id", .int x), ("repair_part_id", .int p.partId),
      ("quantity", .int p.quantity), ("part_price", .float p.price), ("created_by", admin),
      (side.link, .int line)] = .ok (db', id))
    (hnew : Cell.int p.partId ∉ ppref.map fun p => Cell.int p.partId) :
    PartsSoFar side x line pref (ppref ++ [p]) db' := by
  obtain ⟨⟨hh, hcats⟩, hline, hpp⟩ := h
  have ha := hh.1.insert_part hins rfl (by cases side <;> rfl) (by cases side <;> rfl) hline rfl
    (hpp ▸ hnew)
  obtain ⟨row, rfl, -, -, hst, -, -⟩ := Db.insert_row hins
  have hrl : row.get side.link = .int line :=
    hst.int (by cases side <;> decide) (by cases side <;> rfl) (by cases side <;> rfl)
  have hrp : row.get "repair_part_id" = .int p.partId := hst.int (by decide) rfl rfl
  have hside : (db.withRows .orderParts (db.rows .orderParts ++ [row])).rows side.table =
      db.rows side.table :=
    Db.rows_withRows_ne _ (show side.table ≠ .orderParts by cases side <;> decide)
  refine ⟨⟨hh.of_orders ha rfl, ?_⟩, hside ▸ hline, ?_⟩
  · unfold owned
    rw [hside]
    exact hcats
  · rw [partsOf_append, Row.is_int side.link_affinity hrl, if_pos (decide_eq_true rfl), List.map_append,
      hpp, List.map_append, List.map_singleton, List.map_singleton, hrp]

theorem Distinct.of_isEmpty {lines : List Request.ProblemLine} (h : lines.isEmpty = true) :
    Distinct lines := by
  rw [List.isEmpty_iff] at h
  subst h
  exact ⟨List.nodup_nil, fun _ h => absurd h List.not_mem_nil⟩

/-- Numbers with no repeats are distinct. -/
theorem nodup_of_unrepeated {xs : List Nat} (h : ¬ (!(repeated xs).isEmpty) = true) : xs.Nodup := by
  rw [Bool.not_eq_true, Bool.not_eq_false', List.isEmpty_iff] at h
  exact repeated_eq_nil.1 h

theorem LinesSoFar.stable : aggregateGuard.Stable (LinesSoFar side x pref) := by
  intro db db' hk ⟨hh, hcats⟩
  refine ⟨Holds.stable _ _ hk hh, ?_⟩
  rw [owned_keeps hk (ProblemSide.table_owned side)]
  exact hcats

theorem PartsSoFar.stable {line : Int} {ppref : List Request.PartLine} :
    aggregateGuard.Stable (PartsSoFar side x line pref ppref) := by
  intro db db' hk ⟨hl, hline, hparts⟩
  have hpo : db'.orderParts = db.orderParts := hk.tables .orderParts (by decide)
  have hpartsOf : partsOf side db' line = partsOf side db line := by
    simp only [partsOf, hpo]
  exact ⟨LinesSoFar.stable _ _ hk hl, hk.tables _ side.table_owned ▸ hline, hpartsOf ▸ hparts⟩

/-- Distinct numbers are distinct as integer cells. -/
theorem nodup_int_cells {α : Type} {f : α → Nat} {xs : List α} (h : (xs.map f).Nodup) :
    (xs.map fun a => Cell.int (f a)).Nodup := by
  have hinj : Function.Injective fun n : Nat => Cell.int n := fun a b h => by
    simpa using h
  simpa [List.map_map, Function.comp_def] using h.map hinj

end Orders

section Checks

open Orders

variable [g : Guard] (s0 : Session)

/-- **A problem list that passes the checks is distinct**: no category twice, no part twice in
one line. -/
@[spec 2500] theorem Orders.validateProblems_distinct (side : ProblemSide) (pc : Value)
    (lines : List Request.ProblemLine) :
    ⦃fun s => ⌜Frame g s0 s⌝⦄ validateProblems side pc lines
      ⦃post⟨fun _ s => ⌜Frame g s0 s ∧ Distinct lines⌝, fun _ s => ⌜Frame g s0 s⌝⟩⦄ := by
  unfold validateProblems
  mvcgen [-List.forIn_frame, -List.forIn_quiet]
    invariants
    · post⟨fun ⟨cur, _⟩ s => ⌜Frame g s0 s ∧ (lines.map (·.categoryId)).Nodup ∧
        ∀ p ∈ cur.prefix, (p.2.parts.map (·.partId)).Nodup⌝, fun _ s => ⌜Frame g s0 s⌝⟩
    · post⟨fun _ s => ⌜Frame g s0 s ∧ Distinct lines⌝, fun _ s => ⌜Frame g s0 s⌝⟩
  case vc1.isTrue => exact ⟨‹_›, Distinct.of_isEmpty ‹_›⟩
  case vc9.step.isFalse =>
    -- the line passed adds its parts, checked distinct
    rename_i _ hdup _ hinv
    refine ⟨hinv.1, hinv.2.1, fun p hp => ?_⟩
    rcases List.mem_append.1 hp with hp | hp
    · exact hinv.2.2 p hp
    · rw [List.mem_singleton.1 hp]
      exact nodup_of_unrepeated hdup
  case vc10.isFalse.isFalse.post.success.post.success.isFalse.post.success.isFalse.pre =>
    exact ⟨by grind only [→ Frame.trans], nodup_of_unrepeated ‹_›,
      fun _ hp => absurd hp List.not_mem_nil⟩
  case vc14.isFalse.isFalse.post.success.post.success.isFalse.post.success.isFalse.post.success.post.success.pre =>
    rename_i hinv _ _ hf
    refine ⟨hinv.1.trans hf, hinv.2.1, fun l hl => ?_⟩
    obtain ⟨i, hi⟩ := mem_indexed.2 hl
    exact hinv.2.2 _ hi
  all_goals grind only [Frame.refl, → Frame.trans]

end Checks

section Lists

open Orders

attribute [local instance] Orders.aggregateGuard

/-- **Adding the lines of a list keeps the lines so far**, each of a new category, its parts
after it. -/
theorem Orders.insertLines_pending (side : ProblemSide) (x : Int)
    (lines : List Request.ProblemLine) (admin : Value) (hd : Distinct lines) :
    ⦃fun s => ⌜Pending (LinesSoFar side x []) s⌝⦄
      forIn lines PUnit.unit (fun (line : Request.ProblemLine) (_ : PUnit) => do
        let rowId ← Txn.insert side.table [("repair_order_id", .int x),
          ("problem_category_id", .int line.categoryId), ("price", .float line.price),
          ("estimated_minutes", .int line.minutes), ("created_by", admin)]
        Txn.flush
        forIn line.parts PUnit.unit (fun (p : Request.PartLine) (_ : PUnit) => do
          let _ ← Txn.insert .orderParts [("repair_order_id", .int x),
            ("repair_part_id", .int p.partId), ("quantity", .int p.quantity),
            ("part_price", .float p.price), ("created_by", admin), (side.link, .int rowId)]
          pure (ForInStep.yield PUnit.unit))
        pure (ForInStep.yield PUnit.unit))
      ⦃Pending.post (LinesSoFar side x lines)⦄ := by
  mvcgen [Txn.insert_wrote, -Txn.insert_frame, -Txn.insert_quiet, -Txn.insert_order_steers,
    -List.forIn_frame, -List.forIn_quiet]
  case inv1 => exact post⟨fun ⟨cur, _⟩ s => ⌜Pending (LinesSoFar side x cur.prefix) s⌝,
    fun _ s => ⌜Aggregate s.settled⌝⟩
  case inv2 =>
    -- the parts of the line just added, under its key
    rename_i pref cur _ _ _ _ _ line _ _ _ _ _
    exact post⟨fun ⟨pc, _⟩ s => ⌜Pending (PartsSoFar side x line (pref ++ [cur]) pc.prefix) s⌝,
      fun _ s => ⌜Aggregate s.settled⌝⟩
  case vc5.step.post.success =>
    -- a part new to its line
    rename_i _ l _ hl _ _ _ _ _ _ _ _ _ _ _ _ hsplit _ _ h1 _ _ hw
    have hparts : (l.parts.map (·.partId)).Nodup := hd.2 l (by simp [hl])
    exact h1.wrote hw fun _ hp hi =>
      hp.insert_part hi (not_mem_map_front (nodup_int_cells hparts) hsplit)
  case vc6.post.success.post.success.pre =>
    -- a line of a new category, flushed: its key is the one the parts link
    rename_i hsplit _ _ h1 _ _ hw _ _ hf
    exact (h1.wrote hw fun _ hl hi =>
      hl.insert_line hi (not_mem_map_front (nodup_int_cells hd.1) hsplit)).frame
        PartsSoFar.stable hf.1
  case vc7.post.success.post.success.post.success =>
    rename_i h
    exact h.mono fun hp => hp.1
  case vc1.pre => assumption
  case vc2.post.success => exact id
  case vc3.post.except | vc8.post.success.post.success.post.except =>
    exact ExceptConds.entails.refl _
  case vc4.post.success.pre => exact Frame.refl _ _
  case vc9.post.success.post.except.handle =>
    rename_i h1 _ _ hw _
    intro _ hf
    show Aggregate _
    exact hf.settled ▸ hw.settled ▸ Pending.settled_aggregate h1

attribute [local spec 2500] Orders.insertLines_pending

@[grind →] theorem Orders.Pending.frame_lines {side : ProblemSide} {x : Int}
    {pref : List Request.ProblemLine} {s s' : Session} (h : Pending (LinesSoFar side x pref) s)
    (hf : Frame aggregateGuard s s') : Pending (Holds x) s' :=
  (h.frame LinesSoFar.stable hf).mono fun hl => hl.1

/-- **Replacing a problem list keeps the aggregate holding at its order**, the list being
free of repeats. -/
@[spec 2500] theorem Orders.replaceProblems_pending (side : ProblemSide) (x : Int)
    (lines : List Request.ProblemLine) (actor : Access.Actor) (hd : Distinct lines) :
    ⦃fun s => ⌜Pending (Holds x) s⌝⦄ replaceProblems side x lines actor
      ⦃Pending.post (Holds x)⦄ := by
  unfold replaceProblems
  mvcgen [Txn.delete_wrote, -Txn.delete_frame, -Txn.delete_quiet]
  case vc4.post.success.post.success.isTrue.post.success.post.success.pre =>
    -- the stored lines are deleted, their parts first
    rename_i _ h0 cell _ hb db ids _ _ _ hq _ _ hw1 _ _ hw2
    obtain ⟨hf, rfl⟩ := hq
    obtain rfl := hb.2.int
    exact ((h0.frame_holds hb.1).frame_holds hf).wrote (hw1.trans hw2)
      fun _ hh ⟨_, h1, h2⟩ => h2 ▸ h1 ▸ hh.clear_lines side rfl
  case vc9.post.success.post.success.isFalse.pre =>
    -- no line stored, none deleted
    rename_i _ h0 cell _ hb db ids _ hne _ hq
    obtain ⟨hf, rfl⟩ := hq
    obtain rfl := hb.2.int
    have hnil : ids = [] := by simpa using hne
    exact ((h0.frame_holds hb.1).frame_holds hf).mono fun hh => hh.lines_nil hnil
  all_goals grind only [Frame.refl, → Pending.frame_lines, → Pending.frame_settled]

/-- **Making a problem list the submitted one keeps the aggregate holding at its order**: a
list that passes the checks is free of repeats. -/
@[spec 2500] theorem Orders.applyProblems_pending (side : ProblemSide) (x : Int) (pc : Value)
    (lines : List Request.ProblemLine) (actor : Access.Actor) :
    ⦃fun s => ⌜Pending (Holds x) s⌝⦄ applyProblems side x pc lines actor
      ⦃Pending.post (Holds x)⦄ := by
  unfold applyProblems
  mvcgen [-Orders.logIfChanged_status]
  case vc4.hd =>
    rename_i hv _ _ _ _ _
    exact hv.2
  all_goals grind only [Frame.refl, → Pending.frame_holds, → Pending.frame_settled]

end Lists

namespace Orders

variable {x : Int} {db db' db₁ : Db} {kind : PlaceKind}

/-- An update of the orders that writes no key, after writes that left the orders as they
were, keeps every key. -/
theorem order_of_update {y : Int} {given : List (String × Value)} (hk : db.Keyed)
    (hor : db₁.orders = db.orders) (hu : db₁.update .orders y given = .ok db')
    (hid : ∀ q ∈ given, q.1 ≠ "id") (ho : ∃ o ∈ db.orders, o.id = x) :
    ∃ o ∈ db'.orders, o.id = x := by
  obtain ⟨o, ho, rfl⟩ := ho
  have hk₁ : db₁.Keyed := by
    unfold Db.Keyed
    rw [hor]
    exact hk
  have hkeep : staffGuard.Keeps db₁ db' :=
    Guard.Keeps.update hu (by decide) (by decide) (.inr fun q hq => ⟨List.not_mem_nil, hid q hq⟩)
  exact hkeep.image hk₁ (hor ▸ ho)

/-- Clearing the place of a kind keeps the aggregate holding at its order. -/
theorem Holds.clear_place (h : Holds x db)
    (hu : (db.delete kind.table (·.is kind.table "repair_order_id" (.int x))).update .orders x
      [(kind.methodColumn, .str selfMethod)] = .ok db') : Holds x db' := by
  have hdel : (db.delete kind.table (·.is kind.table "repair_order_id" (.int x))).orders =
      db.orders := Db.delete_rows_ne db _ (Ne.symm kind.table_ne_orders)
  exact ⟨h.1.clear_place hu, order_of_update h.1.keyed hdel hu
    (by simpa using kind.methodColumn_ne_id) h.2⟩

/-- Setting the place of a kind keeps the aggregate holding at its order. -/
theorem Holds.put_place {id : Int} {given : List (String × Value)} (h : Holds x db)
    (hins : (db.delete kind.table (·.is kind.table "repair_order_id" (.int x))).insert kind.table
      given = .ok (db₁, id))
    (hx : given.lookup "repair_order_id" = some (.int x))
    (hu : db₁.update .orders x [(kind.methodColumn, .str kind.courierMethod)] = .ok db') :
    Holds x db' := by
  have hor : db₁.orders = db.orders :=
    ((Db.insert_rows hins).1 .orders (Ne.symm kind.table_ne_orders)).trans
      (Db.delete_rows_ne db _ (Ne.symm kind.table_ne_orders))
  exact ⟨h.1.put_place h.2 hins hx hu, order_of_update h.1.keyed hor hu
    (by simpa using kind.methodColumn_ne_id) h.2⟩

variable {s0 s₁ s₂ s : Session} {cell : Cell} {m : String}

/-- The writes that clear a place: its rows deleted, then the order's method made `Self`. -/
theorem Pending.place_clear (h : Pending (Holds x) s0) (hb : BoundAs (.int x) cell)
    (hd : Wrote (fun db db' => db' = db.delete kind.table fun r =>
      r.is kind.table "repair_order_id" cell) s0 s₁)
    (hm : m = selfMethod)
    (hu : Wrote (fun db db' => db.update .orders x [(kind.methodColumn, .str m)] = .ok db') s₁ s) :
    Pending (Holds x) s := by
  obtain rfl := hb.int
  subst hm
  exact h.wrote (hd.trans hu) fun _ hh ⟨_, h1, h2⟩ => hh.clear_place (h1 ▸ h2)

/-- The writes that set a place: its rows deleted, the new one added, then the order's method
made the courier's. -/
theorem Pending.place_put {id : Int} {given : List (String × Value)}
    (h : Pending (Holds x) s0) (hb : BoundAs (.int x) cell)
    (hd : Wrote (fun db db' => db' = db.delete kind.table fun r =>
      r.is kind.table "repair_order_id" cell) s0 s₁)
    (hi : Wrote (fun db db' => db.insert kind.table given = .ok (db', id)) s₁ s₂)
    (hx : given.lookup "repair_order_id" = some (.int x)) (hm : m = kind.courierMethod)
    (hu : Wrote (fun db db' => db.update .orders x [(kind.methodColumn, .str m)] = .ok db') s₂ s) :
    Pending (Holds x) s := by
  obtain rfl := hb.int
  subst hm
  exact h.wrote (hd.trans (hi.trans hu)) fun _ hh ⟨_, h1, _, h2, h3⟩ =>
    hh.put_place (h1 ▸ h2) hx h3

end Orders

section Places

open Orders

attribute [local instance] Orders.aggregateGuard

/-- **Making the place of a kind the given one keeps the aggregate holding at its order**. -/
@[spec 2500] theorem Orders.applyPlace_pending (kind : PlaceKind) (x : Int)
    (place : Option Request.Place) (actor : Access.Actor) :
    ⦃fun s => ⌜Pending (Holds x) s⌝⦄ applyPlace kind x place actor ⦃Pending.post (Holds x)⦄ := by
  unfold applyPlace
  mvcgen [Txn.delete_wrote, Txn.insert_wrote, Txn.update_wrote, -Txn.delete_frame,
    -Txn.delete_quiet, -Txn.insert_frame, -Txn.insert_quiet, -Txn.insert_order_steers,
    -Txn.update_frame, -Txn.update_quiet, -Orders.logIfChanged_status]
  -- a place given, a courier named
  case vc7.h_1.h_1.post.success.post.success.isFalse.post.success.post.success.h_1.post.success.post.success.post.success.post.success =>
    rename_i h0 _ _ hf1 _ _ _ _ hf2 _ _ hb _ _ _ hp _ hwd _ _ hwi _ _ hwu _ _ hfl _ _ hlog
    exact ((((h0.frame_holds hf1).frame_holds hf2).frame_holds hb.1).place_put hb.2 hwd hwi rfl
      (by simp [hp]) hwu |>.frame_holds hfl.1).frame_holds hlog
  -- a place given, no courier named
  case vc23.h_1.h_2.post.success.isFalse.post.success.post.success.h_1.post.success.post.success.post.success.post.success =>
    rename_i h0 _ _ _ _ hf2 _ _ hb _ _ _ hp _ hwd _ _ hwi _ _ hwu _ _ hfl _ _ hlog
    exact (((h0.frame_holds hf2).frame_holds hb.1).place_put hb.2 hwd hwi rfl
      (by simp [hp]) hwu |>.frame_holds hfl.1).frame_holds hlog
  -- no place given
  case vc43.h_2.post.success.isFalse.post.success.post.success.h_2.post.success.post.success.post.success =>
    rename_i h0 _ _ _ _ hf2 _ _ hb _ _ _ hnone heq _ hwd _ _ hwu _ _ hfl _ _ hlog
    subst heq
    have hpl := Option.eq_none_iff_forall_ne_some.2 hnone
    exact (((h0.frame_holds hf2).frame_holds hb.1).place_clear hb.2 hwd (by rw [hpl]; rfl)
      hwu |>.frame_holds hfl.1).frame_holds hlog
  all_goals grind only [Frame.refl, → Pending.frame_holds, → Pending.frame_settled,
    → Wrote.settled, → frame_settled_eq, Pending.settled_aggregate]

/-- **An edit of an order's own columns keeps the aggregate holding at its order**: a new
priority writes its name and level together, and the other edits write no column the
aggregate reads. -/
@[spec 2500] theorem Orders.Edit.perform_pending (x : Int) (o : Row) (current : Value) (e : Edit) :
    ⦃fun s => ⌜Pending (Holds x) s⌝⦄ e.perform o current ⦃Pending.post (Holds x)⦄ := by
  cases e with
  | priority p =>
    unfold Edit.perform
    mvcgen [Txn.update_wrote, -Txn.update_frame, -Txn.update_quiet]
    rename_i h0 _ _
    intro hw
    exact h0.wrote hw fun _ hh hu =>
      ⟨hh.1.update_priority p hu, order_of_update hh.1.keyed rfl hu (by simp) hh.2⟩
  | _ =>
    unfold Edit.perform
    mvcgen [-Orders.changeStatus_untouched]
    -- the columns written are none the aggregate reads
    all_goals first
      | (intros; exact Guard.orders_free)
      | (intros; decide)
      | (intros; refine .inr fun q hq => ?_; rw [List.mem_singleton.1 hq]
         exact ⟨by dsimp only; decide, by dsimp only; decide⟩)
      | grind only [Frame.refl, → Pending.frame_holds, → Pending.frame_settled]

end Places

end RepairShop
