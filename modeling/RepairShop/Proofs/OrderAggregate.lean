import RepairShop.Proofs.InsertRuns

/- The aggregate of an order: what its own row and the rows hanging from it must satisfy.

   An order owns rows in six tables, each pointing back by `repair_order_id`: its staff
   links, the lines of its two problem lists, the parts of those lines, and its pickup and
   delivery places. The aggregate says that

   1. the priority is one of the four, with its level beside it;
   2. the order is open and active, or deleted and inactive;
   3. of each kind of place there is at most one, and the method column says which;
   4. the categories of each problem list are distinct;
   5. every part hangs from exactly one problem line, of its own order, and the parts of a
      line are distinct;
   6. the staff assigned to an order are distinct;

   and, to keep these across the creation of an order, that every owned row hangs from an
   existing order and every owned table is in key order (`Orders.Aggregate`).

   The aggregate is cut into components by what they read, each kept by a guard of its own
   tables and columns; a write outside a component's guard keeps it (`Orders.Heads.keeps`,
   `Orders.PlacesKept.keeps`, `Orders.ListsKept.keeps`, `Orders.StaffKept.keeps`). The writes
   that the services make inside a component keep the whole aggregate, one by one, with what
   the service checked before them (`Orders.Aggregate.insert_order`,
   `Orders.Aggregate.insert_staff`, `Orders.Aggregate.delete_lines`,
   `Orders.Aggregate.insert_line`, `Orders.Aggregate.insert_part`,
   `Orders.Aggregate.update_priority`, `Orders.Aggregate.update_deleted`); a place is written
   in two or three steps, kept as a whole (`Orders.Aggregate.clear_place`,
   `Orders.Aggregate.put_place`). -/

namespace RepairShop

open Store Json

set_option autoImplicit false

section Keys

variable {g : Guard} {db db' : Db}

/-- A write that keeps a guard keeps the keys of the orders, in order. -/
theorem Guard.Keeps.ids (h : g.Keeps db db') (hk : db.Keyed) :
    db'.orders.map Row.id = db.orders.map Row.id := by
  have hcut := congrArg (List.map Prod.fst) (h.orders hk).2
  have hfst : (Prod.fst ∘ g.cut) = Row.id := rfl
  simpa only [List.map_map, hfst] using hcut

/-- An order of `db` has an order of the same key after a write that keeps a guard. -/
theorem Guard.Keeps.image (h : g.Keeps db db') (hk : db.Keyed) {o : Row} (ho : o ∈ db.orders) :
    ∃ o' ∈ db'.orders, o'.id = o.id := by
  have hmem : o.id ∈ db'.orders.map Row.id := (h.ids hk).symm ▸ List.mem_map_of_mem ho
  exact List.mem_map.1 hmem

end Keys

namespace Orders

open Request

/-- The other problem list. -/
def ProblemSide.other : ProblemSide → ProblemSide
  | .initial => .final
  | .final => .initial

/-- The tables whose rows an order owns. -/
def ownedTables : List TableId :=
  [.assignments, .initialProblems, .finalProblems, .orderParts, .pickups, .deliveries]

/-- The rows of table `t` that order `x` owns, as the services select them. -/
def owned (t : TableId) (db : Db) (x : Int) : Table :=
  (db.rows t).filter (·.is t "repair_order_id" (.int x))

/-- The parts that hang from the line of key `line` of a problem list. -/
def partsOf (side : ProblemSide) (db : Db) (line : Int) : Table :=
  db.orderParts.filter (·.is .orderParts side.link (.int line))

/-! ## The clauses -/

/-- The priority is one of the four, its level beside it. -/
def PriorityKept (o : Row) : Prop :=
  ∃ p : Priority, o.get "priority" = .text p.name ∧ o.get "priority_level" = .int p.level

/-- The order is open and active, or deleted and inactive. -/
def LifecycleKept (o : Row) : Prop :=
  (o.get "status" = .text openState ∧ o.get "is_active" = .int 1) ∨
    (o.get "status" = .text deletedState ∧ o.get "is_active" = .int 0)

/-- What the order's row says of itself: its priority and its lifecycle. -/
def HeadKept (o : Row) : Prop := PriorityKept o ∧ LifecycleKept o

/-- The order has no place of a kind and does that leg itself, or one place and a courier. -/
def PlaceMatches (kind : PlaceKind) (db : Db) (o : Row) : Prop :=
  (owned kind.table db o.id = [] ∧ o.get kind.methodColumn = .text selfMethod) ∨
    ∃ r, owned kind.table db o.id = [r] ∧ o.get kind.methodColumn = .text kind.courierMethod

/-- The categories of a problem list of order `x` are distinct. -/
def LinesDistinct (side : ProblemSide) (db : Db) (x : Int) : Prop :=
  ((owned side.table db x).map (·.get "problem_category_id")).Nodup

/-- A part hangs from exactly one problem line, a line of its own order: one link is empty,
the other holds the key of such a line. -/
def PartHangs (db : Db) (p : Row) : Prop :=
  ∃ side : ProblemSide, p.get side.other.link = .null ∧
    ∃ r ∈ db.rows side.table, p.get side.link = .int r.id ∧
      r.get "repair_order_id" = p.get "repair_order_id"

/-- The parts of a problem line are distinct. -/
def PartsDistinct (side : ProblemSide) (db : Db) (r : Row) : Prop :=
  ((partsOf side db r.id).map (·.get "repair_part_id")).Nodup

/-- The staff assigned to order `x` are distinct. -/
def StaffDistinct (db : Db) (x : Int) : Prop :=
  ((owned .assignments db x).map (·.get "admin_id")).Nodup

/-! ## Components and the aggregate -/

/-- The rows of table `t` are in key order and each hangs from an order of `db`. -/
structure Hangs (t : TableId) (db : Db) : Prop where
  keyed : (db.rows t).Pairwise (·.id < ·.id)
  linked : ∀ r ∈ db.rows t, ∃ o ∈ db.orders, r.get "repair_order_id" = .int o.id

/-- Every order's head is kept. -/
def Heads (db : Db) : Prop := ∀ o ∈ db.orders, HeadKept o

/-- The places of a kind hang from orders, and every order's method matches them. -/
structure PlacesKept (kind : PlaceKind) (db : Db) : Prop where
  hangs : Hangs kind.table db
  matched : ∀ o ∈ db.orders, PlaceMatches kind db o

/-- The problem lists and their parts hang from orders, categories and parts distinct. -/
structure ListsKept (db : Db) : Prop where
  lines : ∀ side : ProblemSide, Hangs side.table db
  parts : Hangs .orderParts db
  distinct : ∀ side : ProblemSide, ∀ o ∈ db.orders, LinesDistinct side db o.id
  partsHang : ∀ p ∈ db.orderParts, PartHangs db p
  partsDistinct : ∀ side : ProblemSide, ∀ r ∈ db.rows side.table, PartsDistinct side db r

/-- The staff links hang from orders, and every order's staff are distinct. -/
structure StaffKept (db : Db) : Prop where
  hangs : Hangs .assignments db
  distinct : ∀ o ∈ db.orders, StaffDistinct db o.id

/-- **The aggregate of every order**, with the orders in key order. -/
structure Aggregate (db : Db) : Prop where
  keyed : db.Keyed
  heads : Heads db
  places : ∀ kind : PlaceKind, PlacesKept kind db
  lists : ListsKept db
  staff : StaffKept db

/-! ## Guards of the components -/

/-- What the heads read: four columns of the orders. -/
@[reducible] def headGuard : Guard where
  tables := []
  columns := ["priority", "priority_level", "status", "is_active"]
  orders_free := List.not_mem_nil
  trail_free := List.not_mem_nil

/-- What the places of a kind read: their table and the method column of the orders. -/
@[reducible] def placeGuard (kind : PlaceKind) : Guard where
  tables := [kind.table]
  columns := [kind.methodColumn]
  orders_free := by cases kind <;> decide
  trail_free := by cases kind <;> decide

/-- What the problem lists read: their two tables and the parts. -/
@[reducible] def listsGuard : Guard where
  tables := [.initialProblems, .finalProblems, .orderParts]
  columns := []
  orders_free := by decide
  trail_free := by decide

/-- What the staff read: the staff links. -/
@[reducible] def staffGuard : Guard where
  tables := [.assignments]
  columns := []
  orders_free := by decide
  trail_free := by decide

/-- What the aggregate reads: every owned table, and six columns of the orders. -/
@[reducible] def aggregateGuard : Guard where
  tables := ownedTables
  columns := ["priority", "priority_level", "status", "is_active", "pickup_method",
    "delivery_method"]
  orders_free := by decide
  trail_free := by decide

theorem ProblemSide.table_mem_lists (side : ProblemSide) : side.table ∈ listsGuard.tables := by
  cases side <;> decide

theorem ProblemSide.table_ne {side side' : ProblemSide} (h : side' ≠ side) :
    side'.table ≠ side.table := by
  cases side <;> cases side' <;> first | exact absurd rfl h | decide

/-! ## What a guard keeps of the components -/

variable {g : Guard} {db db' : Db}

/-- A table keeps hanging when its rows are as they were and every order's key is still
there. -/
theorem Hangs.of_ids {t' : TableId} (hrows : db'.rows t' = db.rows t')
    (hor : ∀ o ∈ db.orders, ∃ o' ∈ db'.orders, o'.id = o.id) (hh : Hangs t' db) : Hangs t' db' := by
  refine ⟨hrows ▸ hh.keyed, fun r hr => ?_⟩
  obtain ⟨o, ho, hro⟩ := hh.linked r (hrows ▸ hr)
  obtain ⟨o', ho', hid⟩ := hor o ho
  exact ⟨o', ho', hid ▸ hro⟩

/-- Rows of another table keep hanging when only this one changed. -/
theorem Hangs.of_eq {t' : TableId} (hrows : db'.rows t' = db.rows t') (hor : db'.orders = db.orders)
    (hh : Hangs t' db) : Hangs t' db' :=
  hh.of_ids hrows fun o ho => ⟨o, hor ▸ ho, rfl⟩

theorem Hangs.keeps {t : TableId} (h : g.Keeps db db') (hk : db.Keyed) (ht : t ∈ g.tables)
    (hh : Hangs t db) : Hangs t db' :=
  hh.of_ids (h.tables t ht) fun _ ho => h.image hk ho

/-- The owned rows of a table a guard keeps are kept. -/
theorem owned_keeps {t : TableId} (h : g.Keeps db db') (ht : t ∈ g.tables) (x : Int) :
    owned t db' x = owned t db x := by
  simp only [owned, h.tables t ht]

theorem Heads.keeps (h : g.Keeps db db') (hk : db.Keyed)
    (hc : ∀ c ∈ headGuard.columns, c ∈ g.columns) (hh : Heads db) : Heads db' := by
  intro o' ho'
  obtain ⟨o, ho, -, hsame⟩ := h.counterpart hk ho'
  have hcol : ∀ c ∈ headGuard.columns, o'.get c = o.get c := fun c hc' => hsame c (hc c hc')
  unfold HeadKept PriorityKept LifecycleKept
  rw [hcol "priority" (by decide), hcol "priority_level" (by decide), hcol "status" (by decide),
    hcol "is_active" (by decide)]
  exact hh o ho

theorem PlacesKept.keeps {kind : PlaceKind} (h : g.Keeps db db') (hk : db.Keyed)
    (ht : kind.table ∈ g.tables) (hc : kind.methodColumn ∈ g.columns)
    (hp : PlacesKept kind db) : PlacesKept kind db' := by
  refine ⟨hp.hangs.keeps h hk ht, fun o' ho' => ?_⟩
  obtain ⟨o, ho, hid, hsame⟩ := h.counterpart hk ho'
  unfold PlaceMatches
  rw [owned_keeps h ht, ← hid, hsame _ hc]
  exact hp.matched o ho

theorem ListsKept.keeps (h : g.Keeps db db') (hk : db.Keyed)
    (ht : ∀ t ∈ listsGuard.tables, t ∈ g.tables) (hl : ListsKept db) : ListsKept db' := by
  have hside : ∀ side : ProblemSide, db'.rows side.table = db.rows side.table := fun side =>
    h.tables _ (ht _ side.table_mem_lists)
  have hparts : db'.orderParts = db.orderParts := h.tables .orderParts (ht _ (by decide))
  have hpartsOf : ∀ side line, partsOf side db' line = partsOf side db line := fun side line => by
    simp only [partsOf, hparts]
  refine ⟨fun side => (hl.lines side).keeps h hk (ht _ side.table_mem_lists),
    hl.parts.keeps h hk (ht _ (by decide)), fun side o' ho' => ?_, fun p hp => ?_,
    fun side r hr => ?_⟩
  · obtain ⟨o, ho, hid, -⟩ := h.counterpart hk ho'
    unfold LinesDistinct
    rw [owned_keeps h (ht _ side.table_mem_lists), ← hid]
    exact hl.distinct side o ho
  · obtain ⟨side, hother, r, hr, hlink, hown⟩ := hl.partsHang p (hparts ▸ hp)
    exact ⟨side, hother, r, hside side ▸ hr, hlink, hown⟩
  · unfold PartsDistinct
    rw [hpartsOf]
    exact hl.partsDistinct side r (hside side ▸ hr)

theorem StaffKept.keeps (h : g.Keeps db db') (hk : db.Keyed) (ht : .assignments ∈ g.tables)
    (hs : StaffKept db) : StaffKept db' := by
  refine ⟨hs.hangs.keeps h hk ht, fun o' ho' => ?_⟩
  obtain ⟨o, ho, hid, -⟩ := h.counterpart hk ho'
  unfold StaffDistinct
  rw [owned_keeps h ht, ← hid]
  exact hs.distinct o ho

/-- **What the aggregate reads, kept, keeps it.** -/
theorem Aggregate.keeps (h : aggregateGuard.Keeps db db') (ha : Aggregate db) : Aggregate db' where
  keyed := (h.orders ha.keyed).1
  heads := ha.heads.keeps h ha.keyed (by decide)
  places kind := (ha.places kind).keeps h ha.keyed (by cases kind <;> decide)
    (by cases kind <;> decide)
  lists := ha.lists.keeps h ha.keyed (by decide)
  staff := ha.staff.keeps h ha.keyed (by decide)

theorem Aggregate.stable : aggregateGuard.Stable Aggregate := fun _ _ h ha => ha.keeps h

/-! ## Deleting owned rows -/

variable {t : TableId} {p : Row → Bool}

theorem Db.delete_rows_self (db : Db) (t : TableId) (p : Row → Bool) :
    (db.delete t p).rows t = (db.rows t).filter fun r => !p r :=
  Db.rows_withRows_self _ _ _

theorem Db.delete_rows_ne (db : Db) {t t' : TableId} (p : Row → Bool) (h : t' ≠ t) :
    (db.delete t p).rows t' = db.rows t' :=
  Db.rows_withRows_ne _ h

/-- Deleting rows of a table keeps its rows hanging, in key order. -/
theorem Hangs.delete (ht : t ≠ .orders) (hh : Hangs t db) : Hangs t (db.delete t p) := by
  have hor : (db.delete t p).orders = db.orders := Db.delete_rows_ne db p (Ne.symm ht)
  refine ⟨?_, fun r hr => ?_⟩
  · rw [Db.delete_rows_self]
    exact hh.keyed.sublist List.filter_sublist
  · rw [Db.delete_rows_self] at hr
    rw [hor]
    exact hh.linked r (List.mem_filter.1 hr).1

/-- What an order owns after a delete is some of what it owned. -/
theorem owned_delete_sublist (x : Int) : List.Sublist (owned t (db.delete t p) x) (owned t db x) := by
  unfold owned
  rw [Db.delete_rows_self]
  exact List.filter_sublist.filter _

/-- **Deleting staff links keeps the aggregate.** -/
theorem Aggregate.delete_staff (ha : Aggregate db) (p : Row → Bool) :
    Aggregate (db.delete .assignments p) := by
  have hk : ∀ g' : Guard, TableId.assignments ∉ g'.tables → g'.Keeps db (db.delete .assignments p) :=
    fun g' ht => Guard.Keeps.delete p ht (by decide) (by decide)
  have hor : (db.delete .assignments p).orders = db.orders := rfl
  refine ⟨ha.keyed, ha.heads.keeps (hk headGuard (by decide)) ha.keyed fun _ h => h,
    fun kind => (ha.places kind).keeps (hk (placeGuard kind) (by cases kind <;> decide)) ha.keyed
      List.mem_cons_self List.mem_cons_self,
    ha.lists.keeps (hk listsGuard (by decide)) ha.keyed fun _ h => h,
    ⟨ha.staff.hangs.delete (by decide), fun o ho => ?_⟩⟩
  exact ((owned_delete_sublist o.id).map _).nodup (ha.staff.distinct o (hor ▸ ho))

/-- **Deleting parts keeps the aggregate.** -/
theorem Aggregate.delete_parts (ha : Aggregate db) (p : Row → Bool) :
    Aggregate (db.delete .orderParts p) := by
  have hk : ∀ g' : Guard, TableId.orderParts ∉ g'.tables → g'.Keeps db (db.delete .orderParts p) :=
    fun g' ht => Guard.Keeps.delete p ht (by decide) (by decide)
  have hor : (db.delete .orderParts p).orders = db.orders := rfl
  have hside : ∀ side : ProblemSide, (db.delete .orderParts p).rows side.table = db.rows side.table :=
    fun side => Db.delete_rows_ne db p (by cases side <;> decide)
  have hparts : (db.delete .orderParts p).orderParts = db.orderParts.filter fun r => !p r :=
    Db.delete_rows_self db .orderParts p
  refine ⟨ha.keyed, ha.heads.keeps (hk headGuard (by decide)) ha.keyed fun _ h => h,
    fun kind => (ha.places kind).keeps (hk (placeGuard kind) (by cases kind <;> decide)) ha.keyed
      List.mem_cons_self List.mem_cons_self, ⟨fun side => ?_, ha.lists.parts.delete (by decide),
      fun side o ho => ?_, fun q hq => ?_, fun side r hr => ?_⟩,
    ha.staff.keeps (hk staffGuard (by decide)) ha.keyed List.mem_cons_self⟩
  · exact ⟨hside side ▸ (ha.lists.lines side).keyed, fun r hr =>
      (ha.lists.lines side).linked r (hside side ▸ hr)⟩
  · unfold LinesDistinct owned
    rw [hside side]
    exact ha.lists.distinct side o ho
  · -- a part left hangs from the line it hung from, which is still there
    rw [hparts] at hq
    obtain ⟨side, hother, r, hr, hlink⟩ := ha.lists.partsHang q (List.mem_filter.1 hq).1
    exact ⟨side, hother, r, (hside side).symm ▸ hr, hlink⟩
  · have hsub : List.Sublist (partsOf side (db.delete .orderParts p) r.id) (partsOf side db r.id) := by
      unfold partsOf
      rw [hparts]
      exact List.filter_sublist.filter _
    exact (hsub.map _).nodup (ha.lists.partsDistinct side r (hside side ▸ hr))

/-- A row is left by a delete when it was there and, in the table deleted from, the test
spares it. -/
theorem Db.mem_delete_rows {t' : TableId} {r : Row} :
    r ∈ (db.delete t p).rows t' ↔ r ∈ db.rows t' ∧ (t' = t → p r = false) := by
  by_cases h : t' = t
  · subst h
    simp [Db.delete_rows_self]
  · simp [Db.delete_rows_ne db p h, h]

/-- **Deleting lines of a problem list that no part hangs from keeps the aggregate.** -/
theorem Aggregate.delete_lines (ha : Aggregate db) (side : ProblemSide) (p : Row → Bool)
    (hfree : ∀ q ∈ db.orderParts, ∀ r ∈ db.rows side.table, p r = true →
      q.get side.link ≠ .int r.id) :
    Aggregate (db.delete side.table p) := by
  have hk : ∀ g' : Guard, side.table ∉ g'.tables → g'.Keeps db (db.delete side.table p) :=
    fun g' ht => Guard.Keeps.delete p ht (by cases side <;> decide) (by cases side <;> decide)
  have hor : (db.delete side.table p).orders = db.orders :=
    Db.delete_rows_ne db p (show TableId.orders ≠ side.table by cases side <;> decide)
  have hparts : (db.delete side.table p).orderParts = db.orderParts :=
    Db.delete_rows_ne db p (show TableId.orderParts ≠ side.table by cases side <;> decide)
  -- a line left is a line that was there; every other table is as it was
  have hsub : ∀ side' : ProblemSide, ∀ r ∈ (db.delete side.table p).rows side'.table,
      r ∈ db.rows side'.table := fun side' r hr => (Db.mem_delete_rows.1 hr).1
  refine ⟨show (db.delete side.table p).orders.Pairwise _ from hor ▸ ha.keyed,
    ha.heads.keeps (hk headGuard (by cases side <;> decide)) ha.keyed fun _ h => h,
    fun kind => (ha.places kind).keeps (hk (placeGuard kind) (by cases side <;> cases kind <;> decide))
      ha.keyed List.mem_cons_self List.mem_cons_self,
    ⟨fun side' => ?_, ha.lists.parts.of_eq hparts hor, fun side' o ho => ?_, fun q hq => ?_,
      fun side' r hr => ?_⟩,
    ha.staff.keeps (hk staffGuard (by cases side <;> decide)) ha.keyed List.mem_cons_self⟩
  · by_cases hs : side' = side
    · subst hs
      exact (ha.lists.lines side').delete (by cases side' <;> decide)
    · exact (ha.lists.lines side').of_eq (Db.delete_rows_ne db p (ProblemSide.table_ne hs)) hor
  · have hsub' : List.Sublist (owned side'.table (db.delete side.table p) o.id)
        (owned side'.table db o.id) := by
      by_cases hs : side' = side
      · subst hs
        exact owned_delete_sublist o.id
      · unfold owned
        rw [Db.delete_rows_ne db p (ProblemSide.table_ne hs)]
    exact (hsub'.map _).nodup (ha.lists.distinct side' o (hor ▸ ho))
  · -- a part hangs from a line the delete spared: no part hangs from a line deleted
    obtain ⟨side', hother, r, hr, hlink, hown⟩ := ha.lists.partsHang q (hparts ▸ hq)
    refine ⟨side', hother, r, Db.mem_delete_rows.2 ⟨hr, fun hs => ?_⟩, hlink, hown⟩
    have hs' : side' = side := by
      by_contra hne
      exact ProblemSide.table_ne hne hs
    subst hs'
    cases hp : p r
    · rfl
    · exact absurd hlink (hfree q (hparts ▸ hq) r hr hp)
  · unfold PartsDistinct partsOf
    rw [hparts]
    exact ha.lists.partsDistinct side' r (hsub side' r hr)

/-! ## Writing the head of an order -/

/-- Order `x` with the cells of `stored` written over its own; every other order as it is. -/
def rewriteOrder (x : Int) (stored : List (String × Cell)) (r : Row) : Row :=
  if r.id = x then ⟨r.id, r.cells.map fun e => (e.1, (stored.lookup e.1).getD e.2)⟩ else r

section Rewrite

variable {x : Int} {stored : List (String × Cell)} {r : Row} {c : String}

@[simp] theorem rewriteOrder_id : (rewriteOrder x stored r).id = r.id := by
  unfold rewriteOrder
  split <;> rfl

theorem rewriteOrder_of_ne (h : r.id ≠ x) : rewriteOrder x stored r = r := if_neg h

/-- A column the write does not store keeps its cell. -/
theorem rewriteOrder_get_kept (h : stored.lookup c = none) :
    (rewriteOrder x stored r).get c = r.get c := by
  unfold rewriteOrder
  split
  · by_cases hc : c = "id"
    · subst hc
      rfl
    · rw [Boards.get_rewritten _ _ hc, h]
      simp only [Option.getD_none, Option.map_id']
      simp [Row.get, hc]
  · rfl

/-- A column the write stores takes the stored cell, in the order written, when the order has
the column. -/
theorem rewriteOrder_get_written {v : Cell} (hx : r.id = x) (hcid : c ≠ "id")
    (h : stored.lookup c = some v) (hr : r.get c ≠ .null) : (rewriteOrder x stored r).get c = v := by
  unfold rewriteOrder
  rw [if_pos hx, Boards.get_rewritten _ _ hcid, h]
  have hc' : (c == "id") = false := by simpa using hcid
  cases hl : r.cells.lookup c with
  | none => simp [Row.get, hc', hl] at hr
  | some w => rfl

end Rewrite

/-- An update of an order, in a database whose orders are in key order, that stores `stored`
and no key: that order rewritten, every other table as it was. -/
theorem Db.update_order {x : Int} {given : List (String × Value)} {stored : List (String × Cell)}
    (hk : db.Keyed)
    (hs : (passAll ((({ name := "id", kind := .integer } : Column) ::
      TableId.orders.schema.columns).filterMap fun c => (given.lookup c.name).map (c, ·)) >>=
        storeAll 1) = .ok stored)
    (hid : stored.lookup "id" = none) (hu : db.update .orders x given = .ok db') :
    db' = db.withRows .orders (db.orders.map (rewriteOrder x stored)) := by
  unfold Db.update at hu
  cases hr : updateRow TableId.orders.schema (db.rows .orders) (·.id == x) given with
  | error e => rw [hr] at hu; cases hu
  | ok rows =>
    rw [hr] at hu
    cases hu
    exact congrArg _ (updateRow_eq_map hr hk hs hid)

/-- A column of the heads is none of the method columns, nor the key. -/
theorem head_column_spared (kind : PlaceKind) {c : String} (h : c ∈ headGuard.columns) :
    c ∉ (placeGuard kind).columns ∧ c ≠ "id" := by
  change c ∈ ["priority", "priority_level", "status", "is_active"] at h
  simp only [List.mem_cons, List.not_mem_nil, or_false] at h
  rcases h with rfl | rfl | rfl | rfl <;> cases kind <;> decide

/-- **An update of the head of an order that keeps it kept keeps the aggregate.** -/
theorem Aggregate.update_head {x : Int} {given : List (String × Value)}
    {stored : List (String × Cell)} (ha : Aggregate db)
    (hs : (passAll ((({ name := "id", kind := .integer } : Column) ::
      TableId.orders.schema.columns).filterMap fun c => (given.lookup c.name).map (c, ·)) >>=
        storeAll 1) = .ok stored)
    (hid : stored.lookup "id" = none) (hcols : ∀ q ∈ given, q.1 ∈ headGuard.columns)
    (hu : db.update .orders x given = .ok db')
    (hhead : ∀ o ∈ db.orders, o.id = x → HeadKept (rewriteOrder x stored o)) : Aggregate db' := by
  have hk : ∀ g' : Guard, (∀ q ∈ given, q.1 ∉ g'.columns ∧ q.1 ≠ "id") → g'.tables = [] ∨
      TableId.orders ∉ g'.tables → g'.Keeps db db' := fun g' hc _ =>
    Guard.Keeps.update hu g'.orders_free (by decide) (.inr hc)
  have hk' : ∀ g' : Guard, g'.columns = [] → g'.Keeps db db' := fun g' hc =>
    hk g' (fun q _ => ⟨by rw [hc]; exact List.not_mem_nil, (head_column_spared .pickup
      (hcols q ‹_›)).2⟩) (.inr g'.orders_free)
  have hplace : ∀ kind, (placeGuard kind).Keeps db db' := fun kind =>
    hk _ (fun q hq => head_column_spared kind (hcols q hq)) (.inr (placeGuard kind).orders_free)
  have hdb := Db.update_order ha.keyed hs hid hu
  refine ⟨((hplace .pickup).orders ha.keyed).1, fun o' ho' => ?_,
    fun kind => (ha.places kind).keeps (hplace kind) ha.keyed List.mem_cons_self List.mem_cons_self,
    ha.lists.keeps (hk' listsGuard rfl) ha.keyed fun _ h => h,
    ha.staff.keeps (hk' staffGuard rfl) ha.keyed List.mem_cons_self⟩
  -- the order written has its head kept; every other order is as it was
  rw [hdb] at ho'
  obtain ⟨o, ho, rfl⟩ := List.mem_map.1 ho'
  by_cases hx : o.id = x
  · exact hhead o ho hx
  · rw [rewriteOrder_of_ne hx]
    exact ha.heads o ho

/-- What a change of priority stores: the name and the level, each as itself. -/
theorem priority_stored (p : Priority) :
    (passAll ((({ name := "id", kind := .integer } : Column) ::
      TableId.orders.schema.columns).filterMap fun c =>
        ([("priority", Value.str p.name), ("priority_level", .int p.level)].lookup c.name).map
          (c, ·)) >>= storeAll 1) =
      .ok [("priority", .text p.name), ("priority_level", .int p.level)] := by
  cases p <;> rfl

/-- **A change of priority keeps the aggregate**: name and level are written together. -/
theorem Aggregate.update_priority {x : Int} (p : Priority) (ha : Aggregate db)
    (hu : db.update .orders x [("priority", .str p.name), ("priority_level", .int p.level)] =
      .ok db') : Aggregate db' := by
  refine ha.update_head (priority_stored p) rfl (by simp; decide) hu fun o ho hx => ?_
  obtain ⟨⟨p₀, hp₀, hl₀⟩, hlife⟩ := ha.heads o ho
  refine ⟨⟨p, rewriteOrder_get_written hx (by decide) rfl (by rw [hp₀]; exact Cell.noConfusion),
    rewriteOrder_get_written hx (by decide) rfl (by rw [hl₀]; exact Cell.noConfusion)⟩, ?_⟩
  unfold LifecycleKept
  rw [rewriteOrder_get_kept rfl, rewriteOrder_get_kept rfl]
  exact hlife

/-- **Marking an order deleted keeps the aggregate**: state and flag are written together. -/
theorem Aggregate.update_deleted {x : Int} (ha : Aggregate db)
    (hu : db.update .orders x [("status", .str deletedState), ("is_active", .bool false)] =
      .ok db') : Aggregate db' := by
  refine ha.update_head retired_stored rfl (by simp; decide) hu fun o ho hx => ?_
  obtain ⟨⟨p₀, hp₀, hl₀⟩, hlife⟩ := ha.heads o ho
  have hstatus : o.get "status" ≠ .null := by
    rcases hlife with ⟨h, -⟩ | ⟨h, -⟩ <;> rw [h] <;> exact Cell.noConfusion
  have hactive : o.get "is_active" ≠ .null := by
    rcases hlife with ⟨-, h⟩ | ⟨-, h⟩ <;> rw [h] <;> exact Cell.noConfusion
  refine ⟨⟨p₀, ?_, ?_⟩, .inr ⟨rewriteOrder_get_written hx (by decide) rfl hstatus,
    rewriteOrder_get_written hx (by decide) rfl hactive⟩⟩
  · rw [rewriteOrder_get_kept rfl]
    exact hp₀
  · rw [rewriteOrder_get_kept rfl]
    exact hl₀

/-! ## Inserting owned rows -/

/-- A row that passes the checks of a table breaks none of its unique combinations. -/
theorem checkRow_spares {sc : Schema} {others : Table} {r : Row}
    (h : checkRow sc others r = .ok ()) :
    ∀ grp ∈ sc.unique, ∀ o ∈ others, clashes grp r o = false := by
  intro grp hg o ho
  simp only [checkRow, bind, Except.bind] at h
  split at h
  · cases h
  · split at h
    · cases h
    · rename_i hnone
      have hb : brokenUnique sc others r = none := by
        cases hbu : brokenUnique sc others r with
        | none => rfl
        | some g' => exact absurd hbu (hnone g')
      have hall := List.find?_eq_none.1 hb grp hg
      simp only [List.any_eq_true, not_exists, not_and, Bool.not_eq_true] at hall
      exact hall o ho

/-- What an accepted insert does: it appends one row under the next key; the row stores in
each column the value chosen for it, nothing in a column given nothing and with no default,
and breaks no unique combination of the table. -/
theorem Db.insert_row {t : TableId} {given : List (String × Value)} {id : Int}
    (h : db.insert t given = .ok (db', id)) :
    ∃ row : Row, db' = db.withRows t (db.rows t ++ [row]) ∧ row.id = id ∧
      id = nextId (db.rows t) ∧ Stores t.schema given row ∧
      (∀ {name : String}, given.lookup name = none →
        (∀ c ∈ t.schema.columns, c.name = name → c.default.isNone = true) →
        row.get name ≠ .null → name = "id") ∧
      ∀ grp ∈ t.schema.unique, ∀ r ∈ db.rows t, clashes grp row r = false := by
  obtain ⟨row, hdb, hid, hnext, hst⟩ := Db.insert_appends h
  refine ⟨row, hdb, hid, hnext, hst, ?_⟩
  unfold Db.insert at h
  split at h
  · rename_i rows id' hrow
    cases h
    have hrows : rows = db.rows t ++ [row] := by
      simpa [Db.rows_withRows_self] using congrArg (fun d => d.rows t) hdb
    simp only [insertRow, bind, Except.bind] at hrow
    split at hrow
    · cases hrow
    · rename_i passed hp
      split at hrow
      · cases hrow
      · rename_i stored hs
        split at hrow
        · cases hrow
        · rename_i hcheck
          simp only [pure, Except.pure, Except.ok.injEq, Prod.mk.injEq] at hrow
          obtain ⟨hplace, -⟩ := hrow
          -- the row the insert made goes last, so it is `row`
          rw [placeRow_of_lt fun r hr => lt_nextId hr, hrows] at hplace
          obtain rfl := List.singleton_inj.1 (List.append_cancel_left hplace)
          refine ⟨fun {name} hgiven hdef hne => ?_, checkRow_spares hcheck⟩
          by_contra hname
          have hstored : stored.lookup name = none := by
            cases hl : stored.lookup name with
            | none => rfl
            | some cell =>
              obtain ⟨q, hq, hqn⟩ := storeAll_names hs _ (lookup_mem hl)
              obtain ⟨v, hv⟩ := passAll_columns hp q hq
              obtain ⟨c, hc, hcv⟩ := List.mem_filterMap.1 hv
              obtain ⟨w, hw, hpair⟩ := Option.map_eq_some_iff.1 hcv
              have hcq : c = q.1 := congrArg Prod.fst hpair
              have hcn : c.name = name := hcq ▸ hqn
              -- a column given nothing takes its default, and it has none
              rw [hcn, hgiven, Option.isNone_iff_eq_none.1 (hdef c hc hcn)] at hw
              cases hw
          have hne' : (name == "id") = false := by simpa using hname
          apply hne
          simp only [Row.get, hne', Bool.false_eq_true, if_false]
          cases hl : (t.schema.columns.map fun c => (c.name, (stored.lookup c.name).getD Cell.null)).lookup
              name with
          | none => rfl
          | some cell =>
            obtain ⟨c, -, hc⟩ := List.mem_map.1 (lookup_mem hl)
            simp only [Prod.mk.injEq] at hc
            rw [← hc.2, hc.1, hstored]
            rfl
  · cases h

/-- A row appended under the next key, hanging from an order, keeps its table hanging. -/
theorem Hangs.append {t : TableId} {row : Row} (ht : t ≠ .orders) (hh : Hangs t db)
    (hid : row.id = nextId (db.rows t))
    (hlink : ∃ o ∈ db.orders, row.get "repair_order_id" = .int o.id) :
    Hangs t (db.withRows t (db.rows t ++ [row])) := by
  have hor : (db.withRows t (db.rows t ++ [row])).orders = db.orders :=
    Db.rows_withRows_ne _ (Ne.symm ht)
  refine ⟨?_, fun r hr => ?_⟩
  · rw [Db.rows_withRows_self, List.pairwise_append]
    refine ⟨hh.keyed, List.pairwise_singleton _ _, fun a ha b hb => ?_⟩
    rw [List.mem_singleton.1 hb, hid]
    exact lt_nextId ha
  · rw [hor]
    rw [Db.rows_withRows_self, List.mem_append, List.mem_singleton] at hr
    rcases hr with hr | rfl
    · exact hh.linked r hr
    · exact hlink

/-- A row appended to a table leaves every row of every table there. -/
theorem Db.mem_append_rows {t t' : TableId} {row r : Row} (hr : r ∈ db.rows t') :
    r ∈ (db.withRows t (db.rows t ++ [row])).rows t' := by
  by_cases h : t' = t
  · subst h
    rw [Db.rows_withRows_self]
    exact List.mem_append_left _ hr
  · rw [Db.rows_withRows_ne _ h]
    exact hr

/-- What an order owns after a row is appended: what it owned, and the row if it is its. -/
theorem owned_append {t : TableId} (row : Row) (x : Int) :
    owned t (db.withRows t (db.rows t ++ [row])) x =
      owned t db x ++ (if row.is t "repair_order_id" (.int x) then [row] else []) := by
  unfold owned
  rw [Db.rows_withRows_self, List.filter_append]
  congr 1
  by_cases h : row.is t "repair_order_id" (.int x) <;> simp [h]

/-- The parts of a line after a part is appended: those it had, and the part if it is its. -/
theorem partsOf_append (side : ProblemSide) (row : Row) (line : Int) :
    partsOf side (db.withRows .orderParts (db.rows .orderParts ++ [row])) line =
      partsOf side db line ++ (if row.is .orderParts side.link (.int line) then [row] else []) := by
  unfold partsOf
  change List.filter _ (db.orderParts ++ [row]) = _
  rw [List.filter_append]
  congr 1
  by_cases h : row.is .orderParts side.link (.int line) <;> simp [h]

/-- Appending to rows whose cells are distinct a row whose cell is new keeps them distinct. -/
theorem nodup_map_append_if {f : Row → Cell} {xs : Table} {row : Row} {b : Bool}
    (hxs : (xs.map f).Nodup) (hnew : b = true → f row ∉ xs.map f) :
    ((xs ++ if b then [row] else []).map f).Nodup := by
  cases b with
  | false => simpa using hxs
  | true =>
    simp only [if_true, List.map_append, List.map_singleton, List.nodup_append,
      List.nodup_singleton, List.mem_singleton]
    refine ⟨hxs, trivial, fun a ha c hc => ?_⟩
    rw [hc]
    rintro rfl
    exact hnew rfl ha

/-- No value equals an empty cell. -/
theorem Row.is_null {t : TableId} {column : String} {r : Row} (h : r.get column = .null) (c : Cell) :
    r.is t column c = false := by
  simp [Row.is, h, Cell.sqlEq, Cell.isNull]

/-- The owned tables hold the order's key as an integer. -/
theorem owned_affinity {t : TableId} (ht : t ∈ ownedTables) :
    t.affinityOf "repair_order_id" = .numeric := by
  simp only [ownedTables, List.mem_cons, List.not_mem_nil, or_false] at ht
  rcases ht with rfl | rfl | rfl | rfl | rfl | rfl <;> rfl

theorem ProblemSide.table_owned (side : ProblemSide) : side.table ∈ ownedTables := by
  cases side <;> decide

theorem PlaceKind.table_owned (kind : PlaceKind) : kind.table ∈ ownedTables := by
  cases kind <;> decide

/-- The parts hold the key of their line as an integer. -/
theorem ProblemSide.link_affinity (side : ProblemSide) :
    TableId.orderParts.affinityOf side.link = .numeric := by
  cases side <;> rfl

/-- A side that is not this one is the other. -/
theorem ProblemSide.eq_other {side side' : ProblemSide} (h : side' ≠ side) : side' = side.other := by
  cases side <;> cases side' <;> first | exact absurd rfl h | rfl

/-- Rows that hang from orders of other keys are owned by none of them. -/
theorem Hangs.owned_eq_nil {t : TableId} {x : Int} (hh : Hangs t db) (ht : t ∈ ownedTables)
    (hx : ∀ o ∈ db.orders, o.id ≠ x) : owned t db x = [] := by
  unfold owned
  rw [List.filter_eq_nil_iff]
  intro r hr
  obtain ⟨o, ho, hro⟩ := hh.linked r hr
  rw [Row.is_int (owned_affinity ht) hro, decide_eq_true_eq]
  exact hx o ho

/-- No part hangs from a line under the next key of its table. -/
theorem ListsKept.partsOf_next (hl : ListsKept db) (side : ProblemSide) :
    partsOf side db (nextId (db.rows side.table)) = [] := by
  unfold partsOf
  rw [List.filter_eq_nil_iff]
  intro q hq
  obtain ⟨side', hother, r, hr, hlink, -⟩ := hl.partsHang q hq
  by_cases hs : side' = side
  · subst hs
    rw [Row.is_int side'.link_affinity hlink, decide_eq_true_eq]
    exact ne_of_lt (lt_nextId hr)
  · -- the part hangs from a line of the other list: its link to this one is empty
    obtain rfl := ProblemSide.eq_other (Ne.symm hs)
    cases side' <;> simp_all [ProblemSide.other, Row.is_null]

/-- The staff links' table keeps one link of an order to an account. -/
theorem assignments_unique :
    ["repair_order_id", "admin_id"] ∈ TableId.assignments.schema.unique := by
  decide

/-- **Adding a staff link keeps the aggregate**: the table refuses a second link of an order
to an account. -/
theorem Aggregate.insert_staff {given : List (String × Value)} {id x a : Int} (ha : Aggregate db)
    (hins : db.insert .assignments given = .ok (db', id))
    (hx : given.lookup "repair_order_id" = some (.int x)) (hxo : ∃ o ∈ db.orders, o.id = x)
    (ha' : given.lookup "admin_id" = some (.int a)) : Aggregate db' := by
  have hk : ∀ g' : Guard, TableId.assignments ∉ g'.tables → g'.Keeps db db' := fun g' ht =>
    Guard.Keeps.insert hins ht (by decide)
  obtain ⟨row, rfl, hid, hnext, hst, -, huniq⟩ := Db.insert_row hins
  have hrx : row.get "repair_order_id" = .int x := hst.int (by decide) rfl hx
  have hra : row.get "admin_id" = .int a := hst.int (by decide) rfl ha'
  have haff : TableId.assignments.affinityOf "repair_order_id" = .numeric := rfl
  refine ⟨ha.keyed, ha.heads.keeps (hk headGuard (by decide)) ha.keyed fun _ h => h,
    fun kind => (ha.places kind).keeps (hk (placeGuard kind) (by cases kind <;> decide)) ha.keyed
      List.mem_cons_self List.mem_cons_self,
    ha.lists.keeps (hk listsGuard (by decide)) ha.keyed fun _ h => h,
    ⟨ha.staff.hangs.append (by decide) (hid.trans hnext) ?_, fun o ho => ?_⟩⟩
  · obtain ⟨o, ho, rfl⟩ := hxo
    exact ⟨o, ho, hrx⟩
  · unfold StaffDistinct
    rw [owned_append, Row.is_int haff hrx]
    refine nodup_map_append_if (ha.staff.distinct o ho) fun hox hmem => ?_
    -- the order linked already has the account: the two links would clash
    rw [decide_eq_true_eq] at hox
    subst hox
    obtain ⟨r, hr, heq⟩ := List.mem_map.1 hmem
    obtain ⟨hrm, hrown⟩ := List.mem_filter.1 hr
    obtain ⟨o', -, hro'⟩ := ha.staff.hangs.linked r hrm
    rw [Row.is_int haff hro', decide_eq_true_eq] at hrown
    have hclash := huniq _ assignments_unique r hrm
    simp only [clashes, List.all_cons, List.all_nil, Bool.and_true, hrx, hro', hrown, heq, hra,
      Cell.sqlEq_int, decide_true, Bool.true_eq_false] at hclash

/-- **Adding a line to a problem list keeps the aggregate**, when its category is new to the
list of its order. -/
theorem Aggregate.insert_line {side : ProblemSide} {given : List (String × Value)} {id x c : Int}
    (ha : Aggregate db) (hins : db.insert side.table given = .ok (db', id))
    (hx : given.lookup "repair_order_id" = some (.int x)) (hxo : ∃ o ∈ db.orders, o.id = x)
    (hc : given.lookup "problem_category_id" = some (.int c))
    (hnew : Cell.int c ∉ (owned side.table db x).map (·.get "problem_category_id")) :
    Aggregate db' := by
  have hk : ∀ g' : Guard, side.table ∉ g'.tables → g'.Keeps db db' := fun g' ht =>
    Guard.Keeps.insert hins ht (by cases side <;> decide)
  obtain ⟨row, rfl, hid, hnext, hst, -, -⟩ := Db.insert_row hins
  have hrx : row.get "repair_order_id" = .int x := hst.int (by decide) (by cases side <;> rfl) hx
  have hrc : row.get "problem_category_id" = .int c :=
    hst.int (by decide) (by cases side <;> rfl) hc
  have hor : (db.withRows side.table (db.rows side.table ++ [row])).orders = db.orders :=
    Db.rows_withRows_ne _ (show TableId.orders ≠ side.table by cases side <;> decide)
  have hparts : (db.withRows side.table (db.rows side.table ++ [row])).orderParts = db.orderParts :=
    Db.rows_withRows_ne _ (show TableId.orderParts ≠ side.table by cases side <;> decide)
  refine ⟨show (db.withRows side.table _).orders.Pairwise _ from hor ▸ ha.keyed,
    ha.heads.keeps (hk headGuard (by cases side <;> decide)) ha.keyed fun _ h => h,
    fun kind => (ha.places kind).keeps
      (hk (placeGuard kind) (by cases side <;> cases kind <;> decide)) ha.keyed
      List.mem_cons_self List.mem_cons_self,
    ⟨fun side' => ?_, ha.lists.parts.of_eq hparts hor, fun side' o ho => ?_, fun q hq => ?_,
      fun side' r hr => ?_⟩,
    ha.staff.keeps (hk staffGuard (by cases side <;> decide)) ha.keyed List.mem_cons_self⟩
  · by_cases hs : side' = side
    · subst hs
      refine (ha.lists.lines side').append (by cases side' <;> decide) (hid.trans hnext) ?_
      obtain ⟨o, ho, rfl⟩ := hxo
      exact ⟨o, ho, hrx⟩
    · exact (ha.lists.lines side').of_eq (Db.rows_withRows_ne _ (ProblemSide.table_ne hs)) hor
  · rw [hor] at ho
    unfold LinesDistinct
    by_cases hs : side' = side
    · subst hs
      rw [owned_append, Row.is_int (owned_affinity side'.table_owned) hrx]
      refine nodup_map_append_if (ha.lists.distinct side' o ho) fun hox => ?_
      rw [decide_eq_true_eq] at hox
      rw [hrc, ← hox]
      exact hnew
    · unfold owned
      rw [Db.rows_withRows_ne _ (ProblemSide.table_ne hs)]
      exact ha.lists.distinct side' o ho
  · -- a part hangs from the line it hung from, which is still there
    rw [hparts] at hq
    obtain ⟨side', hother, r, hr, hlink, hown⟩ := ha.lists.partsHang q hq
    exact ⟨side', hother, r, Db.mem_append_rows hr, hlink, hown⟩
  · unfold PartsDistinct partsOf
    rw [hparts]
    by_cases hs : side' = side
    · subst hs
      rw [Db.rows_withRows_self, List.mem_append, List.mem_singleton] at hr
      rcases hr with hr | rfl
      · exact ha.lists.partsDistinct side' r hr
      · -- the new line has no parts yet
        have hnone := ha.lists.partsOf_next side'
        unfold partsOf at hnone
        rw [hid.trans hnext, hnone]
        exact List.nodup_nil
    · rw [Db.rows_withRows_ne _ (ProblemSide.table_ne hs)] at hr
      exact ha.lists.partsDistinct side' r hr

/-- **Adding a part to a line keeps the aggregate**, when the line is one of its order's and
the part is new to it; its link to the other list is left empty. -/
theorem Aggregate.insert_part {side : ProblemSide} {given : List (String × Value)}
    {id x l p : Int} (ha : Aggregate db) (hins : db.insert .orderParts given = .ok (db', id))
    (hx : given.lookup "repair_order_id" = some (.int x))
    (hl : given.lookup side.link = some (.int l)) (hother : given.lookup side.other.link = none)
    (hline : ∃ r ∈ db.rows side.table, r.id = l ∧ r.get "repair_order_id" = .int x)
    (hp : given.lookup "repair_part_id" = some (.int p))
    (hnew : Cell.int p ∉ (partsOf side db l).map (·.get "repair_part_id")) : Aggregate db' := by
  have hk : ∀ g' : Guard, TableId.orderParts ∉ g'.tables → g'.Keeps db db' := fun g' ht =>
    Guard.Keeps.insert hins ht (by decide)
  obtain ⟨row, rfl, hid, hnext, hst, hnull, -⟩ := Db.insert_row hins
  have hrx : row.get "repair_order_id" = .int x := hst.int (by decide) rfl hx
  have hrl : row.get side.link = .int l :=
    hst.int (by cases side <;> decide) (by cases side <;> rfl) hl
  have hrp : row.get "repair_part_id" = .int p := hst.int (by decide) rfl hp
  -- the other link has no default, so it is left empty
  have hro : row.get side.other.link = .null := by
    by_contra hne
    exact absurd (hnull hother (by cases side <;> decide) hne) (by cases side <;> decide)
  have hor : (db.withRows .orderParts (db.rows .orderParts ++ [row])).orders = db.orders := rfl
  have hside : ∀ side' : ProblemSide,
      (db.withRows .orderParts (db.rows .orderParts ++ [row])).rows side'.table =
        db.rows side'.table :=
    fun side' => Db.rows_withRows_ne _ (show side'.table ≠ .orderParts by cases side' <;> decide)
  obtain ⟨r, hr, rfl, hrx'⟩ := hline
  refine ⟨ha.keyed, ha.heads.keeps (hk headGuard (by decide)) ha.keyed fun _ h => h,
    fun kind => (ha.places kind).keeps (hk (placeGuard kind) (by cases kind <;> decide)) ha.keyed
      List.mem_cons_self List.mem_cons_self,
    ⟨fun side' => (ha.lists.lines side').of_eq (hside side') hor,
      ha.lists.parts.append (by decide) (hid.trans hnext) ?_, fun side' o ho => ?_, fun q hq => ?_,
      fun side' r' hr' => ?_⟩,
    ha.staff.keeps (hk staffGuard (by decide)) ha.keyed List.mem_cons_self⟩
  · -- the part hangs from the order of its line
    obtain ⟨o, ho, hro'⟩ := (ha.lists.lines side).linked r hr
    exact ⟨o, ho, hrx.trans (hrx'.symm.trans hro')⟩
  · unfold LinesDistinct owned
    rw [hside side']
    exact ha.lists.distinct side' o ho
  · change q ∈ db.orderParts ++ [row] at hq
    rw [List.mem_append, List.mem_singleton] at hq
    rcases hq with hq | rfl
    · obtain ⟨side', hother', r', hr', hlink, hown⟩ := ha.lists.partsHang q hq
      exact ⟨side', hother', r', (hside side').symm ▸ hr', hlink, hown⟩
    · exact ⟨side, hro, r, (hside side).symm ▸ hr, hrl, hrx'.trans hrx.symm⟩
  · unfold PartsDistinct
    rw [hside side'] at hr'
    rw [partsOf_append]
    refine nodup_map_append_if (ha.lists.partsDistinct side' r' hr') fun hpart => ?_
    -- the part belongs to the line it links: of this list, the line given
    by_cases hs : side' = side
    · subst hs
      rw [Row.is_int side'.link_affinity hrl, decide_eq_true_eq] at hpart
      rw [hrp, ← hpart]
      exact hnew
    · obtain rfl := ProblemSide.eq_other hs
      rw [Row.is_null hro] at hpart
      cases hpart
/-- **Adding an order keeps the aggregate**, when it is given a priority with its level and
nothing for the other columns the aggregate reads, which take their defaults: open, active, no
courier. It owns nothing yet: every owned row hangs from an order of a smaller key. -/
theorem Aggregate.insert_order {given : List (String × Value)} {id : Int} (p : Priority)
    (ha : Aggregate db) (hins : db.insert .orders given = .ok (db', id))
    (hp : given.lookup "priority" = some (.str p.name))
    (hl : given.lookup "priority_level" = some (.int p.level))
    (hrest : ∀ c ∈ ["status", "is_active", "pickup_method", "delivery_method"],
      given.lookup c = none) : Aggregate db' := by
  obtain ⟨row, rfl, hid, hnext, hst, -, -⟩ := Db.insert_row hins
  have hfresh : ∀ o ∈ db.orders, o.id < row.id := fun o ho => hid ▸ hnext ▸ lt_nextId ho
  have hor : (db.withRows .orders (db.rows .orders ++ [row])).orders = db.orders ++ [row] := rfl
  have hids : ∀ o ∈ db.orders, ∃ o' ∈ (db.withRows .orders (db.rows .orders ++ [row])).orders,
      o'.id = o.id := fun o ho => ⟨o, hor ▸ List.mem_append_left _ ho, rfl⟩
  have hrows : ∀ t, t ≠ .orders → (db.withRows .orders (db.rows .orders ++ [row])).rows t =
      db.rows t := fun t ht => Db.rows_withRows_ne _ ht
  have howned : ∀ t, t ≠ .orders → ∀ y,
      owned t (db.withRows .orders (db.rows .orders ++ [row])) y = owned t db y := fun t ht y => by
    simp only [owned, hrows t ht]
  -- the new order owns nothing, in any owned table
  have hnone : ∀ t ∈ ownedTables, Hangs t db →
      owned t (db.withRows .orders (db.rows .orders ++ [row])) row.id = [] := fun t ht hh => by
    rw [howned t (fun h => by subst h; exact absurd ht (by decide))]
    exact hh.owned_eq_nil ht fun o ho => ne_of_lt (hfresh o ho)
  -- its head, from what it is given and the defaults
  have hhead : HeadKept row :=
    ⟨⟨p, hst.text (show "priority" ≠ "id" by decide) rfl hp,
        hst.int (show "priority_level" ≠ "id" by decide) rfl hl⟩,
      .inl ⟨hst.text_default (show "status" ≠ "id" by decide) rfl (hrest _ (by decide)),
        hst.flag_default (show "is_active" ≠ "id" by decide) rfl (hrest _ (by decide))⟩⟩
  have hself : ∀ kind : PlaceKind, row.get kind.methodColumn = .text selfMethod := by
    intro kind
    cases kind
    · exact hst.text_default (show "pickup_method" ≠ "id" by decide) rfl (hrest _ (by decide))
    · exact hst.text_default (show "delivery_method" ≠ "id" by decide) rfl (hrest _ (by decide))
  have hmem : ∀ {o}, o ∈ (db.withRows .orders (db.rows .orders ++ [row])).orders →
      o ∈ db.orders ∨ o = row := fun ho => by
    rw [hor, List.mem_append, List.mem_singleton] at ho
    exact ho
  refine ⟨?_, fun o ho => ?_, fun kind => ⟨?_, fun o ho => ?_⟩, ⟨fun side => ?_, ?_,
    fun side o ho => ?_, fun q hq => ?_, fun side r hr => ?_⟩, ⟨?_, fun o ho => ?_⟩⟩
  · show (db.orders ++ [row]).Pairwise _
    exact List.pairwise_append.2 ⟨ha.keyed, List.pairwise_singleton _ _,
      fun a ha' b hb => (List.mem_singleton.1 hb) ▸ hfresh a ha'⟩
  · rcases hmem ho with ho | rfl
    · exact ha.heads o ho
    · exact hhead
  · exact (ha.places kind).hangs.of_ids (hrows _ kind.table_ne_orders) hids
  · unfold PlaceMatches
    rcases hmem ho with ho | rfl
    · rw [howned _ kind.table_ne_orders]
      exact (ha.places kind).matched o ho
    · exact .inl ⟨hnone _ kind.table_owned (ha.places kind).hangs, hself kind⟩
  · exact (ha.lists.lines side).of_ids (hrows _ side.table_ne_orders) hids
  · exact ha.lists.parts.of_ids (hrows _ (by decide)) hids
  · unfold LinesDistinct
    rcases hmem ho with ho | rfl
    · rw [howned _ side.table_ne_orders]
      exact ha.lists.distinct side o ho
    · rw [hnone _ side.table_owned (ha.lists.lines side)]
      exact List.nodup_nil
  · obtain ⟨side', hother, r, hr, hlink, hown⟩ := ha.lists.partsHang q hq
    exact ⟨side', hother, r, (hrows _ side'.table_ne_orders).symm ▸ hr, hlink, hown⟩
  · exact ha.lists.partsDistinct side r ((hrows _ side.table_ne_orders) ▸ hr)
  · exact ha.staff.hangs.of_ids (hrows _ (by decide)) hids
  · unfold StaffDistinct
    rcases hmem ho with ho | rfl
    · rw [howned _ (by decide)]
      exact ha.staff.distinct o ho
    · rw [hnone _ (by decide) ha.staff.hangs]
      exact List.nodup_nil

/-! ## Replacing a place -/

/-- An order owns no rows of a table once they are deleted. -/
theorem owned_delete_self (t : TableId) (x : Int) :
    owned t (db.delete t (·.is t "repair_order_id" (.int x))) x = [] := by
  unfold owned
  rw [Db.delete_rows_self, List.filter_filter, List.filter_eq_nil_iff]
  intro r _
  simp

/-- Deleting an order's rows of a table leaves every other order's. -/
theorem Hangs.owned_delete_other {t : TableId} {x y : Int} (hh : Hangs t db)
    (ht : t ∈ ownedTables) (hxy : y ≠ x) :
    owned t (db.delete t (·.is t "repair_order_id" (.int x))) y = owned t db y := by
  unfold owned
  rw [Db.delete_rows_self, List.filter_filter]
  refine List.filter_congr fun r hr => ?_
  obtain ⟨o, -, hro⟩ := hh.linked r hr
  simp only [Row.is_int (owned_affinity ht) hro]
  by_cases h : o.id = y
  · subst h
    simp [hxy]
  · simp [h]

/-- What a change of method stores: the method, as a text. -/
theorem method_stored (kind : PlaceKind) {m : String} (hm : m = selfMethod ∨ m = kind.courierMethod) :
    (passAll ((({ name := "id", kind := .integer } : Column) ::
      TableId.orders.schema.columns).filterMap fun c =>
        ([(kind.methodColumn, Value.str m)].lookup c.name).map (c, ·)) >>= storeAll 1) =
      .ok [(kind.methodColumn, .text m)] := by
  rcases hm with rfl | rfl <;> cases kind <;> rfl

/-- **Writing the method of an order after its places of a kind were rewritten keeps the
aggregate**, when nothing but those places was written, they hang, every other order owns the
places it owned, and the order owns none or one, as the method says. -/
theorem Aggregate.write_method {kind : PlaceKind} {x : Int} {m : String} {db₁ : Db}
    (ha : Aggregate db) (hk : ∀ g : Guard, kind.table ∉ g.tables → g.Keeps db db₁)
    (hor : db₁.orders = db.orders) (hhangs : Hangs kind.table db₁)
    (hother : ∀ y, y ≠ x → owned kind.table db₁ y = owned kind.table db y)
    (hmine : (owned kind.table db₁ x = [] ∧ m = selfMethod) ∨
      ∃ r, owned kind.table db₁ x = [r] ∧ m = kind.courierMethod)
    (hu : db₁.update .orders x [(kind.methodColumn, .str m)] = .ok db') : Aggregate db' := by
  have hk' : ∀ g : Guard, kind.table ∉ g.tables → kind.methodColumn ∉ g.columns →
      g.Keeps db db' := fun g ht hc =>
    (hk g ht).trans (Guard.Keeps.update hu g.orders_free (by decide)
      (.inr (by simpa using ⟨hc, kind.methodColumn_ne_id⟩)))
  have hm : m = selfMethod ∨ m = kind.courierMethod := by
    rcases hmine with ⟨-, h⟩ | ⟨-, -, h⟩
    · exact .inl h
    · exact .inr h
  have hk₁ : db₁.Keyed := show db₁.orders.Pairwise _ from hor ▸ ha.keyed
  have hdb := Db.update_order hk₁ (method_stored kind hm) (by cases kind <;> rfl) hu
  have hrows : db'.rows kind.table = db₁.rows kind.table := by
    rw [hdb]
    exact Db.rows_withRows_ne _ kind.table_ne_orders
  refine ⟨((hk' headGuard (by cases kind <;> decide) (by cases kind <;> decide)).orders
      ha.keyed).1,
    ha.heads.keeps (hk' headGuard (by cases kind <;> decide) (by cases kind <;> decide)) ha.keyed
      fun _ h => h,
    fun kind' => ?_,
    ha.lists.keeps (hk' listsGuard (by cases kind <;> decide) (by cases kind <;> decide)) ha.keyed
      fun _ h => h,
    ha.staff.keeps (hk' staffGuard (by cases kind <;> decide) (by cases kind <;> decide)) ha.keyed
      List.mem_cons_self⟩
  by_cases hkind : kind' = kind
  · subst hkind
    refine ⟨hhangs.of_ids hrows fun o ho =>
        ⟨rewriteOrder x [(kind'.methodColumn, .text m)] o, ?_, rewriteOrder_id⟩,
      fun o' ho' => ?_⟩
    · rw [hdb]
      exact List.mem_map_of_mem ho
    · -- every order is the rewrite of one of `db`: the one written takes the method given
      rw [hdb] at ho'
      obtain ⟨o, ho, rfl⟩ := List.mem_map.1 ho'
      rw [hor] at ho
      have hown : ∀ y, owned kind'.table db' y = owned kind'.table db₁ y := fun y => by
        simp only [owned, hrows]
      unfold PlaceMatches
      rw [hown, rewriteOrder_id]
      by_cases hx : o.id = x
      · have hcell : o.get kind'.methodColumn ≠ .null := by
          rcases (ha.places kind').matched o ho with ⟨-, h⟩ | ⟨-, -, h⟩ <;> rw [h] <;>
            exact Cell.noConfusion
        rw [rewriteOrder_get_written hx kind'.methodColumn_ne_id (by cases kind' <;> rfl) hcell, hx]
        rcases hmine with ⟨h, rfl⟩ | ⟨r, h, rfl⟩
        · exact .inl ⟨h, rfl⟩
        · exact .inr ⟨r, h, rfl⟩
      · rw [rewriteOrder_of_ne hx, hother o.id hx]
        exact (ha.places kind').matched o ho
  · exact (ha.places kind').keeps
      (hk' (placeGuard kind') (by cases kind <;> cases kind' <;> first | exact absurd rfl hkind | decide)
        (by cases kind <;> cases kind' <;> first | exact absurd rfl hkind | decide))
      ha.keyed List.mem_cons_self List.mem_cons_self

/-- **Removing the place of a kind of an order keeps the aggregate**: its places are deleted and
the order does that leg itself. -/
theorem Aggregate.clear_place {kind : PlaceKind} {x : Int} (ha : Aggregate db)
    (hu : (db.delete kind.table (·.is kind.table "repair_order_id" (.int x))).update .orders x
      [(kind.methodColumn, .str selfMethod)] = .ok db') : Aggregate db' :=
  ha.write_method
    (fun _ ht => Guard.Keeps.delete _ ht kind.table_ne_orders kind.table_ne_history)
    (Db.delete_rows_ne db _ (Ne.symm kind.table_ne_orders))
    ((ha.places kind).hangs.delete kind.table_ne_orders)
    (fun _ hy => (ha.places kind).hangs.owned_delete_other kind.table_owned hy)
    (.inl ⟨owned_delete_self _ _, rfl⟩) hu

/-- **Setting the place of a kind of an order keeps the aggregate**: its places are deleted, the
new one is added, and a courier does that leg. -/
theorem Aggregate.put_place {kind : PlaceKind} {x id : Int} {given : List (String × Value)}
    {db₁ : Db} (ha : Aggregate db) (hxo : ∃ o ∈ db.orders, o.id = x)
    (hins : (db.delete kind.table (·.is kind.table "repair_order_id" (.int x))).insert kind.table
      given = .ok (db₁, id))
    (hx : given.lookup "repair_order_id" = some (.int x))
    (hu : db₁.update .orders x [(kind.methodColumn, .str kind.courierMethod)] = .ok db') :
    Aggregate db' := by
  obtain ⟨row, rfl, hid, hnext, hst, -, -⟩ := Db.insert_row hins
  have hrx : row.get "repair_order_id" = .int x := hst.int (by decide) (by cases kind <;> rfl) hx
  have haff := owned_affinity kind.table_owned
  have hdel : (db.delete kind.table (·.is kind.table "repair_order_id" (.int x))).orders =
      db.orders := Db.delete_rows_ne db _ (Ne.symm kind.table_ne_orders)
  refine ha.write_method (fun g ht => (Guard.Keeps.delete _ ht kind.table_ne_orders
      kind.table_ne_history).trans (Guard.Keeps.insert hins ht kind.table_ne_orders))
    ((Db.rows_withRows_ne _ (Ne.symm kind.table_ne_orders)).trans hdel)
    (((ha.places kind).hangs.delete kind.table_ne_orders).append kind.table_ne_orders
      (hid.trans hnext) ?_) (fun y hy => ?_) (.inr ⟨row, ?_, rfl⟩) hu
  · obtain ⟨o, ho, rfl⟩ := hxo
    exact ⟨o, hdel.symm ▸ ho, hrx⟩
  · rw [owned_append, Row.is_int haff hrx, decide_eq_false (Ne.symm hy), if_neg Bool.false_ne_true,
      List.append_nil]
    exact (ha.places kind).hangs.owned_delete_other kind.table_owned hy
  · rw [owned_append, owned_delete_self, Row.is_int haff hrx]
    simp

end Orders

end RepairShop
