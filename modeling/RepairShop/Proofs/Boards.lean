import Mathlib
import RepairShop.Proofs.Positions

/- The board of a database, and the writes that move it.

   `Boards B db` is the board the orders of `db` form: they are in key order, each
   names its branch by an integer, and for every branch `b` the list `B b` lists its
   bucket (`Lays`, from `Proofs/Positions`). A database without orders has the empty
   board (`Boards.empty`); the board is read off the seats of the orders alone
   (`Boards.of_seats`), so a request that keeps every seat keeps it, and a database
   has one board (`Boards.unique`).

   The order services write positions in three ways, and this file proves what each
   does to the board:

   1. `Boards.insert`: creating an order appends its fresh key to the list of its
      branch, from what the insert stores (`Db.insert_orders`, through the store's
      `insertRow_get`);
   2. `Boards.reorder`: a move takes the order out of its list and puts it back at its
      target index;
   3. `Boards.retire`: a soft delete followed by `closeGap` takes the order out of its
      list (`updateRow_eq_map` gives the update as a rewrite of one row).

   In each case every other branch keeps its list. -/

namespace RepairShop

open Store Json

namespace Store

/-- An integer the database holds is below 2^63. -/
theorem lt_of_fitsInt64 {n : Int} (h0 : 0 ≤ n) (h : fitsInt64 n = true) : n < Nat.pow 2 63 := by
  obtain ⟨k, rfl⟩ := Int.eq_ofNat_of_zero_le h0
  simp only [fitsInt64, decide_eq_true_eq] at h
  omega

/-- Every key of a table is below the next key it hands out. -/
theorem lt_nextId {t : Table} {r : Row} (hr : r ∈ t) : r.id < nextId t := by
  -- the running maximum never drops and passes every key it meets
  have key : ∀ (rs : List Row) (m : Int),
      m ≤ rs.foldl (fun m r => max m r.id) m ∧ ∀ r ∈ rs, r.id ≤ rs.foldl (fun m r => max m r.id) m := by
    intro rs
    induction rs with
    | nil => simp
    | cons r rest ih =>
      intro m
      obtain ⟨h1, h2⟩ := ih (max m r.id)
      refine ⟨le_trans (le_max_left _ _) h1, fun r' hr' => ?_⟩
      rcases List.mem_cons.1 hr' with rfl | hr'
      · exact le_trans (le_max_right _ _) h1
      · exact h2 r' hr'
  have := (key t 0).2 r hr
  unfold nextId
  omega

/-- A row with a key above every key of a table goes to its end. -/
theorem placeRow_of_lt {row : Row} :
    ∀ {t : Table}, (∀ r ∈ t, r.id < row.id) → placeRow row t = t ++ [row]
  | [], _ => rfl
  | x :: xs, h => by
    have hx : ¬ row.id < x.id := not_lt.2 (le_of_lt (h x (List.mem_cons_self ..)))
    simp only [placeRow, hx, if_false, List.cons_append,
      placeRow_of_lt fun r hr => h r (List.mem_cons_of_mem _ hr)]

/-- The stored value of the first passed column of a name. -/
theorem storeAll_find {name : String} {c : Column} {v : Value} :
    ∀ {pos : Nat} {passed : List (Column × Value)} {stored : List (String × Cell)},
      storeAll pos passed = .ok stored →
      passed.find? (fun p => p.1.name == name) = some (c, v) →
      ∃ cell, bindValue v = .ok cell ∧ stored.lookup name = some (cell.withAffinity c.kind.affinity)
  | _, [], _, _, hf => by cases hf
  | pos, (c', v') :: rest, stored, h, hf => by
    simp only [storeAll, bind, Except.bind] at h
    split at h
    · cases h
    · rename_i cell hcell
      split at h
      · cases h
      · rename_i tail htail
        cases h
        by_cases hn : c'.name = name
        · simp only [List.find?_cons, hn, beq_self_eq_true, Option.some.injEq, Prod.mk.injEq] at hf
          obtain ⟨rfl, rfl⟩ := hf
          unfold storeValue at hcell
          split at hcell
          · rename_i c0 hb
            cases hcell
            exact ⟨c0, hb, by simp [List.lookup, hn]⟩
          all_goals cases hcell
        · have hn' : (c'.name == name) = false := by simpa using hn
          have hn'' : (name == c'.name) = false := by simpa using Ne.symm hn
          simp only [List.find?_cons, hn'] at hf
          obtain ⟨cell', hb, hl⟩ := storeAll_find htail hf
          exact ⟨cell', hb, by simp only [List.lookup, hn'', hl]⟩

/-- Passing values on by their kinds keeps the first column of a name where it was. -/
theorem passAll_find {name : String} {c : Column} {v : Value} :
    ∀ {cols passed : List (Column × Value)}, passAll cols = .ok passed →
      cols.find? (fun p => p.1.name == name) = some (c, v) →
      ∃ v', passKind c.kind v = .ok v' ∧ passed.find? (fun p => p.1.name == name) = some (c, v')
  | [], _, _, hf => by cases hf
  | (c', v') :: rest, passed, h, hf => by
    simp only [passAll, bind, Except.bind] at h
    split at h
    · cases h
    · rename_i v'' hv
      split at h
      · cases h
      · rename_i tail htail
        cases h
        by_cases hn : c'.name = name
        · simp only [List.find?_cons, hn, beq_self_eq_true, Option.some.injEq, Prod.mk.injEq] at hf
          obtain ⟨rfl, rfl⟩ := hf
          exact ⟨v'', hv, by simp [hn]⟩
        · have hn' : (c'.name == name) = false := by simpa using hn
          simp only [List.find?_cons, hn'] at hf
          obtain ⟨w, hw, hf'⟩ := passAll_find htail hf
          exact ⟨w, hw, by simp only [List.find?_cons, hn', hf']⟩

/-- The values an insert hands over keep the first column of a name, with its chosen value. -/
theorem filterMap_find {name : String} {c : Column} {v : Value} (f : Column → Option Value) :
    ∀ {cols : List Column}, cols.find? (·.name == name) = some c → f c = some v →
      (cols.filterMap fun c => (f c).map (c, ·)).find? (fun p => p.1.name == name) = some (c, v)
  | [], hc, _ => by cases hc
  | c' :: rest, hc, hv => by
    by_cases hn : c'.name = name
    · simp only [List.find?_cons, hn, beq_self_eq_true, Option.some.injEq] at hc
      subst hc
      simp [hv, hn]
    · have hn' : (c'.name == name) = false := by simpa using hn
      simp only [List.find?_cons, hn'] at hc
      rw [List.filterMap_cons]
      cases hf : f c' with
      | none => exact filterMap_find f hc hv
      | some w => simp only [Option.map_some, List.find?_cons, hn', filterMap_find f hc hv]

theorem lookup_columns {name : String} {c : Column} (g : String → Cell) :
    ∀ {cols : List Column}, cols.find? (·.name == name) = some c →
      (cols.map fun c => (c.name, g c.name)).lookup name = some (g name)
  | [], hc => by cases hc
  | c' :: rest, hc => by
    by_cases hn : c'.name = name
    · simp [hn]
    · have hn' : (c'.name == name) = false := by simpa using hn
      have hn'' : (name == c'.name) = false := by simpa using Ne.symm hn
      simp only [List.find?_cons, hn'] at hc
      simp only [List.map_cons, List.lookup, hn'', lookup_columns g hc]

/-- What an insert stores in a column: the value chosen for it (given, else the column's
default), passed on by the column's kind and handed over to the database. -/
theorem insertRow_get {s : Schema} {t t' : Table} {given : List (String × Value)} {id : Int}
    (h : insertRow s t given = .ok (t', id)) :
    ∃ row : Row, t' = placeRow row t ∧ row.id = id ∧ id = nextId t ∧
      ∀ {name : String} {c : Column} {v : Value}, name ≠ "id" →
        s.columns.find? (·.name == name) = some c →
        (insertValues s given).find? (fun p => p.1.name == name) = some (c, v) →
        ∃ v' cell, passKind c.kind v = .ok v' ∧ bindValue v' = .ok cell ∧
          row.get name = cell.withAffinity c.kind.affinity := by
  simp only [insertRow, bind, Except.bind] at h
  split at h
  · cases h
  · rename_i passed hp
    split at h
    · cases h
    · rename_i stored hs
      split at h
      · cases h
      · cases h
        refine ⟨_, rfl, rfl, rfl, fun {name c v} hid hc hv => ?_⟩
        obtain ⟨v', hv', hpf⟩ := passAll_find hp hv
        obtain ⟨cell, hb, hl⟩ := storeAll_find hs hpf
        refine ⟨v', cell, hv', hb, ?_⟩
        have hid' : (name == "id") = false := by simpa using hid
        simp only [Row.get, hid', Bool.false_eq_true, if_false,
          lookup_columns (fun n => (stored.lookup n).getD .null) hc, hl, Option.getD_some]

/-- The chosen value of a column of a table: the one given, else its default. -/
theorem insertValues_find {s : Schema} {given : List (String × Value)} {name : String} {c : Column}
    {v : Value} (hc : s.columns.find? (·.name == name) = some c)
    (hv : (match given.lookup c.name with
      | some .null => if c.kind == Kind.document then some Value.null else c.default
      | some v => some v
      | none => c.default) = some v) :
    (insertValues s given).find? (fun p => p.1.name == name) = some (c, v) :=
  filterMap_find (fun c => match given.lookup c.name with
      | some .null => if c.kind == Kind.document then some Value.null else c.default
      | some v => some v
      | none => c.default) hc hv

/-- An inserted order stores the integers it is given for its branch and position, and takes
the open state when it is given none. -/
theorem Db.insert_orders {db db' : Db} {given : List (String × Value)} {id b n : Int}
    (h : db.insert .orders given = .ok (db', id))
    (hb : given.lookup "branch_id" = some (.int b)) (hn : given.lookup "sort" = some (.int n))
    (hst : given.lookup "status" = none) :
    ∃ row : Row, db'.orders = placeRow row db.orders ∧ row.id = id ∧ id = nextId db.orders ∧
      row.get "branch_id" = .int b ∧ row.get "status" = .text openState ∧
      row.get "sort" = .int n ∧ fitsInt64 n = true := by
  unfold Db.insert at h
  split at h
  · rename_i rows id' hrow
    cases h
    obtain ⟨row, hrows, hid, hnext, hget⟩ := insertRow_get hrow
    refine ⟨row, hrows, hid, hnext, ?_, ?_, ?_⟩
    · obtain ⟨v', cell, hv', hcell, hrow'⟩ := @hget "branch_id" _ (.int b) (by decide) rfl
        (insertValues_find rfl (by simp [intCol, hb]))
      cases hv'
      simp only [bindValue] at hcell
      split at hcell
      · cases hcell; exact hrow'
      · cases hcell
    · obtain ⟨v', cell, hv', hcell, hrow'⟩ := @hget "status" _ (.str openState) (by decide) rfl
        (insertValues_find rfl (by simp [lifecycleCol, textCol, hst]))
      cases hv'
      cases hcell
      exact hrow'
    · obtain ⟨v', cell, hv', hcell, hrow'⟩ := @hget "sort" _ (.int n) (by decide) rfl
        (insertValues_find rfl (by simp [intCol, hn]))
      cases hv'
      simp only [bindValue] at hcell
      split at hcell
      · rename_i hfits
        cases hcell
        exact ⟨hrow', hfits⟩
      · cases hcell
  · cases h

/-- An update of the row of a key, in a table in key order, that stores `stored` and no new
key: that row with the stored columns rewritten, every other row as it was. -/
theorem updateRow_eq_map {s : Schema} {t t' : Table} {x : Int} {given : List (String × Value)}
    {stored : List (String × Cell)} (hu : updateRow s t (·.id == x) given = .ok t')
    (hk : t.Pairwise (·.id < ·.id))
    (hs : (passAll ((({ name := "id", kind := .integer } : Column) :: s.columns).filterMap fun c =>
      (given.lookup c.name).map (c, ·)) >>= storeAll 1) = .ok stored)
    (hid : stored.lookup "id" = none) :
    t' = t.map fun r =>
      if r.id = x then ⟨r.id, r.cells.map fun e => (e.1, (stored.lookup e.1).getD e.2)⟩ else r := by
  simp only [updateRow, bind, Except.bind] at hu hs
  split at hs
  · cases hs
  · rename_i passed hp
    rw [hp] at hu
    dsimp only at hu
    rw [hs] at hu
    dsimp only at hu
    split at hu
    · -- no row has the key: nothing changes
      rename_i hnone
      cases hu
      refine (List.map_congr_left fun r hr => ?_).trans (List.map_id' t) |>.symm
      have : r.id ≠ x := fun h => by
        have := List.find?_eq_none.1 hnone r hr
        simp [h] at this
      simp [this]
    · rename_i old hold
      rw [hid] at hu
      simp only [pure, Except.pure, bne_self_eq_false, Bool.false_and, Bool.false_eq_true,
        if_false] at hu
      split at hu
      · cases hu
      · cases hu
        have hmem : old ∈ t := List.mem_of_find?_eq_some hold
        have hox : old.id = x := by simpa using List.find?_some hold
        rw [placeRow_filter ⟨old.id, old.cells.map fun e => (e.1, (stored.lookup e.1).getD e.2)⟩
          old hk hmem rfl]
        refine List.map_congr_left fun r hr => ?_
        by_cases hr' : r.id = old.id
        · have := eq_of_mem_of_id hk hr hmem hr'
          subst this
          simp [hox]
        · simp [hr', hox ▸ hr']

end Store

namespace Orders

/-- The rows a soft delete writes into an order: inactive, and deleted. -/
theorem retired_stored :
    (passAll ((({ name := "id", kind := .integer } : Column) :: TableId.orders.schema.columns).filterMap
      fun c => ([("status", Value.str deletedState), ("is_active", .bool false)].lookup c.name).map
        (c, ·)) >>= storeAll 1) =
      .ok [("is_active", .int 0), ("status", .text deletedState)] := by
  rfl

/-- The board of a database: its orders in key order, each naming its branch by an integer,
and `B b` the list of the bucket of branch `b`. -/
structure Boards (B : Int → List Int) (db : Db) : Prop where
  keyed : db.Keyed
  branches : ∀ o ∈ db.orders, ∃ c : Int, o.get "branch_id" = .int c
  lays : ∀ b, Lays db.orders b (B b)

namespace Boards

variable {B : Int → List Int} {db : Db}

/-- A database without orders has an empty board. -/
theorem empty (h : db.orders = []) : Boards (fun _ => []) db where
  keyed := by simp [Db.Keyed, h]
  branches := by simp [h]
  lays b := h ▸ Lays.nil b

/-- The board is read off the seats of the orders. -/
theorem of_seats {db' : Db} (h : Boards B db) (hk : db'.Keyed) (hs : db'.seats = db.seats) :
    Boards B db' where
  keyed := hk
  branches o ho := by
    obtain ⟨p, hp, -, hseat⟩ := Lays.exists_seat hs ho
    obtain ⟨c, hc⟩ := h.branches p hp
    simp only [Row.seat, Prod.mk.injEq] at hseat
    exact ⟨c, hseat.1 ▸ hc⟩
  lays b := (h.lays b).of_seats hs

/-- A database has one board. -/
theorem unique {B' : Int → List Int} (h : Boards B db) (h' : Boards B' db) : B = B' :=
  funext fun b => (h.lays b).unique (h'.lays b)

/-- An open order of the table stands in the list of its branch, at the index one below its
position. -/
theorem loaded (h : Boards B db) {o : Row} (ho : o ∈ db.orders) (hopen : o.isOpen .orders = true) :
    ∃ b : Int, ∃ k : Nat, o.get "branch_id" = .int b ∧ inBucket (.int b) o = true ∧
      (B b)[k]? = some o.id ∧ o.get "sort" = .int (k + 1) := by
  obtain ⟨b, hb⟩ := h.branches o ho
  have hin : inBucket (.int b) o = true := by
    have : TableId.orders.affinityOf "branch_id" = .numeric := rfl
    simp [inBucket, Row.is, this, hb, hopen]
  obtain ⟨k, hk, hs⟩ := (h.lays b).placed o ho hin
  exact ⟨b, k, hb, hin, hk, hs⟩

/-- `orders'` is `orders` with every order rewritten in place, keeping its key and its branch. -/
def Rewrites (orders orders' : Table) : Prop :=
  ∃ g : Row → Row, orders' = orders.map g ∧ ∀ o, (g o).id = o.id ∧
    (g o).get "branch_id" = o.get "branch_id"

theorem Rewrites.trans {t t' t'' : Table} (h : Rewrites t t') (h' : Rewrites t' t'') :
    Rewrites t t'' := by
  obtain ⟨g, rfl, hg⟩ := h
  obtain ⟨g', rfl, hg'⟩ := h'
  exact ⟨g' ∘ g, by rw [List.map_map], fun o =>
    ⟨(hg' (g o)).1.trans (hg o).1, (hg' (g o)).2.trans (hg o).2⟩⟩

/-- A move rewrites positions only. -/
theorem rewrites_reorder (orders : Table) (branch : Cell) (id : Int) (current target : Cell) :
    Rewrites orders (Orders.reorder orders branch id current target) := by
  refine ⟨_, by simp only [Orders.reorder]; exact List.map_map .., fun o => ?_⟩
  have hb : ∀ (r : Row) (s : Cell), (placeAt r s).get "branch_id" = r.get "branch_id" :=
    fun r s => Row.get_put_of_ne _ _ (by decide)
  dsimp only [Function.comp_apply]
  split_ifs <;> simp [hb]

/-- Closing a gap rewrites positions only. -/
theorem rewrites_closeGap (orders : Table) (branch removed : Cell) :
    Rewrites orders (Orders.closeGap orders branch removed) := by
  refine ⟨_, rfl, fun o => ?_⟩
  have hb : ∀ (r : Row) (s : Cell), (placeAt r s).get "branch_id" = r.get "branch_id" :=
    fun r s => Row.get_put_of_ne _ _ (by decide)
  dsimp only
  split_ifs <;> simp [hb]

/-- Orders rewritten in place stay in key order. -/
theorem Rewrites.keyed {orders orders' : Table} (h : Rewrites orders orders')
    (hk : orders.Pairwise (·.id < ·.id)) : orders'.Pairwise (·.id < ·.id) := by
  obtain ⟨g, rfl, hg⟩ := h
  exact List.pairwise_map.2 (hk.imp fun {a b} hab => by rwa [(hg a).1, (hg b).1])

/-- Orders rewritten in place keep naming their branches by integers. -/
theorem Rewrites.branches {orders orders' : Table} (h : Rewrites orders orders')
    (hb : ∀ o ∈ orders, ∃ c : Int, o.get "branch_id" = .int c) :
    ∀ o ∈ orders', ∃ c : Int, o.get "branch_id" = .int c := by
  obtain ⟨g, rfl, hg⟩ := h
  intro o' ho'
  obtain ⟨o, ho, rfl⟩ := List.mem_map.1 ho'
  rw [(hg o).2]
  exact hb o ho

/-- **Creating an order appends it to the list of its branch.** An order inserted with the
integer branch `b`, the position one past the size of `b`'s bucket and no lifecycle state of
its own, so that it is open, takes a key that no list holds, extends `B b` by it, and leaves
every other list as it was. -/
theorem insert (h : Boards B db) {db' : Db} {given : List (String × Value)} {id b : Int}
    (hi : db.insert .orders given = .ok (db', id))
    (hb : given.lookup "branch_id" = some (.int b))
    (hn : given.lookup "sort" = some (.int ((B b).length + 1)))
    (hst : given.lookup "status" = none) :
    (∀ c, id ∉ B c) ∧ Boards (Function.update B b (B b ++ [id])) db' := by
  obtain ⟨row, hrows, hid, hnext, hrb, hrst, hrsort, hfits⟩ := Db.insert_orders hi hb hn hst
  have hlt : ∀ o ∈ db.orders, o.id < id := fun o ho => hnext ▸ lt_nextId ho
  have hend : db'.orders = db.orders ++ [row] := by
    rw [hrows]
    exact placeRow_of_lt fun r hr => hid ▸ hlt r hr
  have hfresh : ∀ c, id ∉ B c := fun c hx => by
    obtain ⟨o, ho, hoid, -⟩ := (h.lays c).listed id hx
    have := hlt o ho
    omega
  -- the new order is open, so it is in the bucket of its branch and no other
  have hin : ∀ c, inBucket (.int c) row = decide (b = c) := fun c => by
    have h1 : TableId.orders.affinityOf "branch_id" = .numeric := rfl
    have h2 : (Cell.text openState).sqlEq
        ((Cell.text openState).withAffinity (TableId.orders.affinityOf "status")) = true := by
      decide
    simp [inBucket, Row.is, Row.isOpen, h1, hrb, hrst, h2]
  refine ⟨hfresh, ⟨?_, ?_, fun c => ?_⟩⟩
  · show db'.orders.Pairwise _
    rw [hend]
    refine List.pairwise_append.2 ⟨h.keyed, List.pairwise_singleton _ _, fun a ha r hr => ?_⟩
    rw [List.mem_singleton.1 hr, hid]
    exact hlt a ha
  · intro o ho
    rw [hend] at ho
    rcases List.mem_append.1 ho with ho | ho
    · exact h.branches o ho
    · exact ⟨b, List.mem_singleton.1 ho ▸ hrb⟩
  · have hlays := (h.lays c).append (r := row) (fun o ho => hid ▸ ne_of_lt (hlt o ho))
      (fun hbc => by
        rw [hin c, decide_eq_true_eq] at hbc
        subst hbc
        have hlen := lt_of_fitsInt64 (by omega) hfits
        exact ⟨hrsort, by omega⟩)
    rw [hend]
    by_cases hc : c = b
    · subst hc
      simpa [hin, hid] using hlays
    · simpa [hin, hid, hc, Ne.symm hc] using hlays

/-- **Moving an order reinserts it in the list of its branch.** Moving the order at index
`i` of `B b` to position `j + 1` turns `B b` into `moveTo (B b) x j` and leaves every other
list as it was. -/
theorem reorder (h : Boards B db) {b x : Int} {i j : Nat} (hi : (B b)[i]? = some x)
    (hj : j < (B b).length) :
    Boards (Function.update B b (moveTo (B b) x j))
      (db.withRows .orders (Orders.reorder db.orders (.int b) x (.int (i + 1)) (.int (j + 1)))) := by
  have hrows : ∀ rows, (db.withRows .orders rows).orders = rows := fun _ => rfl
  have hre := rewrites_reorder db.orders (.int b) x (.int (i + 1)) (.int (j + 1))
  refine ⟨?_, ?_, fun c => ?_⟩
  · show (db.withRows .orders _).orders.Pairwise _
    rw [hrows]
    exact hre.keyed h.keyed
  · rw [hrows]
    exact hre.branches h.branches
  · rw [hrows]
    by_cases hc : c = b
    · subst hc
      simpa using (h.lays c).reorder hi hj
    · obtain ⟨o, ho, hoid, hob⟩ := (h.lays b).listed x (List.mem_of_getElem? hi)
      simpa [hc] using (h.lays c).reorder_other h.keyed h.branches ⟨o, ho, hoid, hob⟩ hc

/-- A column of a row after an update stored `stored`: the stored value where the row has the
column and the update wrote it, the old value where it did not. -/
theorem get_rewritten (r : Row) (stored : List (String × Cell)) {k : String} (hk : k ≠ "id") :
    (⟨r.id, r.cells.map fun e => (e.1, (stored.lookup e.1).getD e.2)⟩ : Row).get k =
      ((r.cells.lookup k).map fun v => (stored.lookup k).getD v).getD .null := by
  have hk' : (k == "id") = false := by simpa using hk
  simp only [Row.get, hk', Bool.false_eq_true, if_false,
    lookup_map_snd r.cells (fun k v => (stored.lookup k).getD v) k]

/-- **Deleting an order takes it out of the list of its branch.** Marking the order at index
`i` of `B b` deleted and closing its gap turns `B b` into `(B b).erase x` and leaves every
other list as it was. -/
theorem retire (h : Boards B db) {b x : Int} {i : Nat} {db1 : Db} (hi : (B b)[i]? = some x)
    (hu : db.update .orders x [("status", .str deletedState), ("is_active", .bool false)] =
      .ok db1) :
    Boards (Function.update B b ((B b).erase x))
      (db1.withRows .orders (Orders.closeGap db1.orders (.int b) (.int (i + 1)))) := by
  -- the soft delete rewrites the lifecycle state and the flag of `x` alone
  let retired : Row → Row := fun r => if r.id = x then
    ⟨r.id, r.cells.map fun e => (e.1, ([("is_active", Cell.int 0), ("status", .text deletedState)].lookup
      e.1).getD e.2)⟩ else r
  have hdb1 : db1.orders = db.orders.map retired := by
    unfold Db.update at hu
    cases hr : updateRow TableId.orders.schema (db.rows .orders) (·.id == x)
        [("status", .str deletedState), ("is_active", .bool false)] with
    | error e => rw [hr] at hu; cases hu
    | ok rows =>
      rw [hr] at hu
      cases hu
      exact updateRow_eq_map hr h.keyed retired_stored rfl
  have hid : ∀ o, (retired o).id = o.id := fun o => by
    simp only [retired]
    split_ifs <;> rfl
  have hother : ∀ o, o.id ≠ x → retired o = o := fun o ho => by simp [retired, ho]
  have hout : ∀ o, o.id = x → (retired o).isOpen .orders = false := fun o ho => by
    simp only [retired]
    rw [if_pos ho, Row.isOpen, Row.is, get_rewritten _ _ (by decide)]
    cases o.cells.lookup "status" <;> rfl
  have hre : Rewrites db.orders db1.orders := by
    refine ⟨retired, hdb1, fun o => ⟨hid o, ?_⟩⟩
    by_cases ho : o.id = x
    · simp only [retired]
      rw [if_pos ho, get_rewritten _ _ (by decide)]
      simp only [Row.get, show ("branch_id" == "id") = false by decide, Bool.false_eq_true, if_false]
      cases o.cells.lookup "branch_id" <;> rfl
    · rw [hother o ho]
  have hrows : ∀ rows, (db1.withRows .orders rows).orders = rows := fun _ => rfl
  have hre' := hre.trans (rewrites_closeGap db1.orders (.int b) (.int (i + 1)))
  refine ⟨?_, ?_, fun c => ?_⟩
  · show (db1.withRows .orders _).orders.Pairwise _
    rw [hrows]
    exact hre'.keyed h.keyed
  · rw [hrows]
    exact hre'.branches h.branches
  · rw [hrows, hdb1]
    by_cases hc : c = b
    · subst hc
      simpa using (h.lays c).closeGap hi retired hid hother hout
    · obtain ⟨o, ho, hoid, hob⟩ := (h.lays b).listed x (List.mem_of_getElem? hi)
      simpa [hc] using
        (h.lays c).closeGap_other h.keyed h.branches ⟨o, ho, hoid, hob⟩ hc retired hid hother hout

end Boards

end Orders

end RepairShop
