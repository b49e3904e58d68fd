import RepairShop.Proofs.BoardRuns

/- Guarded frames: what a request leaves of the tables and order columns a property reads.

   A guard names the tables whose rows a property of the database reads, and the columns
   of the orders it reads. `Frame g s s'` says that from `s` to `s'` the request was calm,
   the guarded tables kept their rows, the orders (in key order) kept their keys and their
   guarded columns, and the change trail kept every row it had. Unlike `Quiet`, which fixes
   the seats of the board, a frame is chosen by the property it serves: the workflow of
   statuses guards the statuses and the orders' status and branch; the aggregate of an
   order guards its places, problems and staff.

   This file

   1. proves what inserts, updates and deletes leave of the other tables, and that an update
      of an order naming no guarded column keeps the guarded view of the orders
      (`Store.updateRow_cut`);
   2. defines `Guard.Keeps` on databases and `Frame` on sessions, preorders that the cache,
      held refusals and sweeps do not disturb;
   3. proves the frame of the primitives of `Txn`: reads always, a held write when its table
      is not guarded and, for an order, when it names no guarded column;
   4. lifts frames through the loops a request runs. -/

namespace RepairShop

open Std.Do Store Cache Json

set_option mvcgen.warning false

/-! ## Writes and the other tables -/

namespace Store

theorem Db.rows_withRows_ne {db : Db} {t t' : TableId} (rows : Table) (h : t' ≠ t) :
    (db.withRows t rows).rows t' = db.rows t' := by
  cases t <;> cases t' <;> first | exact absurd rfl h | rfl

theorem Db.rows_withRows_self (db : Db) (t : TableId) (rows : Table) :
    (db.withRows t rows).rows t = rows := by
  cases t <;> rfl

/-- Placing a row keeps every row that was there. -/
theorem mem_placeRow {row r : Row} : ∀ {t : Table}, r ∈ t → r ∈ placeRow row t
  | [], h => absurd h List.not_mem_nil
  | x :: xs, h => by
    unfold placeRow
    split
    · exact List.mem_cons_of_mem _ h
    · rcases List.mem_cons.1 h with rfl | h
      · exact List.mem_cons_self ..
      · exact List.mem_cons_of_mem _ (mem_placeRow h)

/-- An insert changes its own table alone, and keeps every row that table had. -/
theorem Db.insert_rows {db db' : Db} {t : TableId} {given : List (String × Value)} {id : Int}
    (hi : db.insert t given = .ok (db', id)) :
    (∀ t', t' ≠ t → db'.rows t' = db.rows t') ∧ ∀ r ∈ db.rows t, r ∈ db'.rows t := by
  unfold Db.insert at hi
  split at hi
  · rename_i rows id' hrow
    cases hi
    obtain ⟨row, rfl, -⟩ := insertRow_get hrow
    exact ⟨fun t' h => Db.rows_withRows_ne _ h,
      fun r hr => (Db.rows_withRows_self db t _).symm ▸ mem_placeRow hr⟩
  · cases hi

/-- An update changes its own table alone. -/
theorem Db.update_rows_ne {db db' : Db} {t t' : TableId} {id : Int}
    {given : List (String × Value)} (hu : db.update t id given = .ok db') (h : t' ≠ t) :
    db'.rows t' = db.rows t' := by
  unfold Db.update at hu
  cases hr : updateRow t.schema (db.rows t) (·.id == id) given with
  | error e => rw [hr] at hu; cases hu
  | ok rows =>
    rw [hr] at hu
    cases hu
    exact Db.rows_withRows_ne _ h

/-- What an update stores comes from the columns it was given, so a column it was not given
keeps its cell. -/
theorem stored_lookup_none {s : Schema} {given : List (String × Value)}
    {passed : List (Column × Value)} {stored : List (String × Cell)}
    (hp : passAll ((({ name := "id", kind := .integer } : Column) :: s.columns).filterMap fun c =>
      (given.lookup c.name).map (c, ·)) = .ok passed)
    (hs : storeAll 1 passed = .ok stored) {k : String} (hk : ∀ p ∈ given, p.1 ≠ k) :
    stored.lookup k = none := by
  cases hl : stored.lookup k with
  | none => rfl
  | some c =>
    obtain ⟨v, hv⟩ := stored_given hp hs hl
    exact absurd rfl (hk _ hv)

/-- **An update of one row that names no column of `cs` keeps the keys in order and, for
every row, its key and its cells in `cs`.** -/
theorem updateRow_cut {s : Schema} {t t' : Table} {id : Int} {given : List (String × Value)}
    (cs : List String) (hu : updateRow s t (·.id == id) given = .ok t')
    (hg : ∀ p ∈ given, p.1 ∉ cs ∧ p.1 ≠ "id") (hk : t.Pairwise (·.id < ·.id)) :
    t'.Pairwise (·.id < ·.id) ∧
      t'.map (fun r => (r.id, cs.map r.get)) = t.map fun r => (r.id, cs.map r.get) := by
  simp only [updateRow, bind, Except.bind] at hu
  split at hu
  · cases hu
  · rename_i passed hp
    split at hu
    · cases hu
    · rename_i stored hs
      split at hu
      · cases hu; exact ⟨hk, rfl⟩
      · rename_i old hold
        rw [stored_lookup_none hp hs fun p hp => (hg p hp).2] at hu
        simp only [pure, Except.pure, bne_self_eq_false, Bool.false_and, Bool.false_eq_true,
          if_false] at hu
        split at hu
        · cases hu
        · cases hu
          have hmem : old ∈ t := List.mem_of_find?_eq_some hold
          -- the rewritten row keeps every cell of `cs`: none of them was given
          have hcol : ∀ k ∈ cs,
              Row.get ⟨old.id, old.cells.map fun e => (e.1, (stored.lookup e.1).getD e.2)⟩ k =
                old.get k := fun k hks => by
            have hl := lookup_map_snd old.cells (fun k v => (stored.lookup k).getD v) k
            simp only [stored_lookup_none hp hs fun p hp h => (hg p hp).1 (h ▸ hks),
              Option.getD_none] at hl
            simp only [Row.get, hl, Option.map_id']
          rw [placeRow_filter ⟨old.id, old.cells.map fun e => (e.1, (stored.lookup e.1).getD e.2)⟩
            old hk hmem rfl]
          refine ⟨List.pairwise_map.2 (hk.imp fun {a b} h => ?_), ?_⟩
          · by_cases ha : a.id = old.id <;> by_cases hb : b.id = old.id <;> simp_all
          · rw [List.map_map]
            refine List.map_congr_left fun r hr => ?_
            by_cases hr' : r.id = old.id
            · have := eq_of_mem_of_id hk hr hmem hr'
              subst this
              simp [List.map_congr_left hcol]
            · simp [hr']

/-- Writing one column of a row leaves every other column. -/
theorem Row.get_put_ne {r : Row} {column k : String} {c : Cell} (h : k ≠ column) :
    (r.put column c).get k = r.get k := by
  have hmap : r.cells.map (fun e => if e.1 == column then (column, c) else e) =
      r.cells.map fun e => (e.1, if e.1 == column then c else e.2) :=
    List.map_congr_left fun e _ => by
      by_cases he : e.1 = column
      · simp [he]
      · simp [he]
  have hk : (k == column) = false := by simpa using h
  have hl := lookup_map_snd r.cells (fun k' v => if (k' == column) = true then c else v) k
  simp only [hk, Bool.false_eq_true, if_false, Option.map_id'] at hl
  simp only [Row.get, Row.put, hmap, hl]

end Store

/-! ## Guards and frames -/

/-- What a property of the database reads: tables whose rows it reads, and columns of the
orders it reads, with the orders' keys. No guard takes the orders as a table (their columns
are guarded one by one) or the change trail (which every request may add to). -/
class Guard where
  tables : List TableId
  columns : List String
  orders_free : TableId.orders ∉ tables
  trail_free : TableId.history ∉ tables

attribute [grind .] Guard.orders_free Guard.trail_free

namespace Guard

/-- An order as a guard sees it: its key and its guarded columns. -/
def cut (g : Guard) (r : Row) : Int × List Cell := (r.id, g.columns.map r.get)

/-- From `db` to `db'` the guarded tables keep their rows, the orders in key order stay so
with their keys and guarded columns, and the change trail keeps every row. -/
structure Keeps (g : Guard) (db db' : Db) : Prop where
  tables : ∀ t ∈ g.tables, db'.rows t = db.rows t
  orders : db.Keyed → db'.Keyed ∧ db'.orders.map g.cut = db.orders.map g.cut
  trail : ∀ r ∈ db.history, r ∈ db'.history

variable {g : Guard} {db db' db'' : Db}

theorem Keeps.refl (g : Guard) (db : Db) : g.Keeps db db :=
  ⟨fun _ _ => rfl, fun h => ⟨h, rfl⟩, fun _ h => h⟩

theorem Keeps.trans (h1 : g.Keeps db db') (h2 : g.Keeps db' db'') : g.Keeps db db'' where
  tables t ht := (h2.tables t ht).trans (h1.tables t ht)
  orders hk :=
    have h1' := h1.orders hk
    have h2' := h2.orders h1'.1
    ⟨h2'.1, h2'.2.trans h1'.2⟩
  trail r hr := h2.trail r (h1.trail r hr)

/-- Orders that are untouched keep their order and guarded view. -/
theorem orders_of_eq (hor : db'.rows .orders = db.rows .orders) :
    db.Keyed → db'.Keyed ∧ db'.orders.map g.cut = db.orders.map g.cut := by
  simp only [Db.rows] at hor
  intro h
  unfold Db.Keyed
  rw [hor]
  exact ⟨h, rfl⟩

/-- A trail that is untouched keeps its rows. -/
theorem trail_of_eq (hh : db'.rows .history = db.rows .history) :
    ∀ r ∈ db.history, r ∈ db'.history := by
  simp only [Db.rows] at hh
  rw [hh]
  exact fun _ h => h

/-- An insert into a table that is not guarded, nor the orders. -/
theorem Keeps.insert {t : TableId} {given : List (String × Value)} {id : Int}
    (hi : db.insert t given = .ok (db', id)) (ht : t ∉ g.tables) (hto : t ≠ .orders) :
    g.Keeps db db' := by
  obtain ⟨hne, hmem⟩ := Db.insert_rows hi
  have hguard : ∀ t' ∈ g.tables, db'.rows t' = db.rows t' := fun t' ht' =>
    hne t' fun h => ht (h ▸ ht')
  refine ⟨hguard, orders_of_eq (hne .orders (Ne.symm hto)), ?_⟩
  by_cases hth : t = .history
  · subst hth
    exact hmem
  · exact trail_of_eq (hne .history (Ne.symm hth))

/-- An update of a table that is not guarded nor the trail; of an order, when it names no
guarded column and not the key. -/
theorem Keeps.update {t : TableId} {id : Int} {given : List (String × Value)}
    (hu : db.update t id given = .ok db') (ht : t ∉ g.tables) (hth : t ≠ .history)
    (hc : t ≠ .orders ∨ ∀ p ∈ given, p.1 ∉ g.columns ∧ p.1 ≠ "id") : g.Keeps db db' := by
  have hguard : ∀ t' ∈ g.tables, db'.rows t' = db.rows t' := fun t' ht' =>
    Db.update_rows_ne hu fun h => ht (h ▸ ht')
  have hh : db'.rows .history = db.rows .history := Db.update_rows_ne hu (Ne.symm hth)
  by_cases hto : t = .orders
  · subst hto
    have hcols := hc.resolve_left (not_not_intro rfl)
    refine ⟨hguard, fun hk => ?_, trail_of_eq hh⟩
    unfold Db.update at hu
    cases hr : updateRow TableId.orders.schema db.orders (·.id == id) given with
    | error e => simp only [Db.rows, hr] at hu; cases hu
    | ok rows =>
      simp only [Db.rows, hr, Functor.map, Except.map] at hu
      cases hu
      exact updateRow_cut g.columns hr hcols hk
  · exact ⟨hguard, orders_of_eq (Db.update_rows_ne hu (Ne.symm hto)), trail_of_eq hh⟩

/-- A delete from a table that is not guarded, nor the orders or the trail. -/
theorem Keeps.delete {t : TableId} (p : Row → Bool) (ht : t ∉ g.tables) (hto : t ≠ .orders)
    (hth : t ≠ .history) : g.Keeps db (db.delete t p) :=
  ⟨fun _ ht' => Db.rows_withRows_ne _ fun h => ht (h ▸ ht'),
    orders_of_eq (Db.rows_withRows_ne _ (Ne.symm hto)),
    trail_of_eq (Db.rows_withRows_ne _ (Ne.symm hth))⟩

/-- A rewrite of every order that keeps its key and guarded columns. -/
theorem Keeps.orders_map {f : Row → Row} (hf : ∀ r, g.cut (f r) = g.cut r) :
    g.Keeps db (db.withRows .orders (db.orders.map f)) := by
  have hrows : ∀ t, t ≠ .orders → (db.withRows .orders (db.orders.map f)).rows t = db.rows t :=
    fun t h => Db.rows_withRows_ne _ h
  have hor : (db.withRows .orders (db.orders.map f)).orders = db.orders.map f :=
    Db.rows_withRows_self db .orders _
  refine ⟨fun t ht => hrows t fun h => g.orders_free (h ▸ ht), fun hk => ?_,
    trail_of_eq (hrows .history (by decide))⟩
  have hid : ∀ r, (f r).id = r.id := fun r => congrArg Prod.fst (hf r)
  unfold Db.Keyed
  rw [hor, List.pairwise_map, List.map_map]
  exact ⟨hk.imp fun {a b} h => by rw [hid a, hid b]; exact h,
    List.map_congr_left fun r _ => hf r⟩

/-- A new position leaves an order's key and every other column. -/
theorem cut_placeAt (hs : "sort" ∉ g.columns) (o : Row) (c : Cell) :
    g.cut (Orders.placeAt o c) = g.cut o :=
  Prod.ext rfl (List.map_congr_left fun _ hk => Row.get_put_ne fun h => hs (h ▸ hk))

/-- A move inside a bucket rewrites positions alone. -/
theorem Keeps.reorder (hs : "sort" ∉ g.columns) (branch : Cell) (id : Int) (current target : Cell) :
    g.Keeps db (db.withRows .orders (Orders.reorder db.orders branch id current target)) := by
  unfold Orders.reorder
  rw [List.map_map]
  exact Keeps.orders_map fun r => by
    simp only [Function.comp_apply]
    split <;> split <;> simp only [cut_placeAt hs]

/-- Closing the gap of a removed order rewrites positions alone. -/
theorem Keeps.closeGap (hs : "sort" ∉ g.columns) (branch removed : Cell) :
    g.Keeps db (db.withRows .orders (Orders.closeGap db.orders branch removed)) :=
  Keeps.orders_map fun r => by
    simp only
    split <;> simp only [cut_placeAt hs]

end Guard

/-- From `s` to `s'` a request was calm and kept what the guard `g` reads of the database;
a write the database refused stays refused, so the unit of work cannot commit. -/
structure Frame (g : Guard) (s s' : Session) : Prop extends Calm s s' where
  keeps : g.Keeps s.db s'.db
  held : s.waiting.isSome → s'.waiting.isSome

namespace Frame

variable {g : Guard} {s0 s s' s'' : Session}

@[grind .] theorem refl (g : Guard) (s : Session) : Frame g s s :=
  ⟨Calm.refl s, Guard.Keeps.refl g s.db, id⟩

@[grind →] theorem calm (h : Frame g s s') : Calm s s' := h.toCalm

@[grind →] theorem trans (h1 : Frame g s s') (h2 : Frame g s' s'') : Frame g s s'' :=
  ⟨h1.toCalm.trans h2.toCalm, h1.keeps.trans h2.keeps, h2.held ∘ h1.held⟩

/-- A change of the database alone that the guard keeps. -/
theorem with_db {db : Db} (h : Frame g s0 s) (hdb : g.Keeps s.db db) : Frame g s0 { s with db } :=
  h.trans ⟨⟨rfl, Cache.Filled.refl _⟩, hdb, id⟩

/-- Holding a refusal. -/
theorem with_waiting {r : Refusal} (h : Frame g s0 s) :
    Frame g s0 { s with waiting := some r } :=
  h.trans ⟨⟨rfl, Cache.Filled.refl _⟩, Guard.Keeps.refl g s.db, fun _ => rfl⟩

/-- Holding sweeps for after the commit. -/
theorem with_sweeps {ws : List Sweep} (h : Frame g s0 s) : Frame g s0 { s with sweeps := ws } :=
  h.trans ⟨⟨rfl, Cache.Filled.refl _⟩, Guard.Keeps.refl g s.db, id⟩

/-- Storing cache entries. -/
theorem with_kv {kv : Kv} (h : Frame g s0 s) (hf : Cache.Filled s.kv kv) :
    Frame g s0 { s with kv } :=
  h.trans ⟨⟨rfl, hf⟩, Guard.Keeps.refl g s.db, id⟩

/-- The postcondition of a computation that keeps the frame of `s0`, on success and on
failure. -/
abbrev post {α : Type} (g : Guard) (s0 : Session) :
    PostCond α (.except Failure (.arg Session .pure)) :=
  post⟨fun _ s => ⌜Frame g s0 s⌝, fun _ s => ⌜Frame g s0 s⌝⟩

end Frame

/-! ## The primitives of a request -/

section Primitives

variable [g : Guard] (s0 : Session)

/-! The reads of a request keep the frame and say what they read. They take precedence over
the exact-state reads of `Proofs/BoardSteps`, so that a chain of specs stays in one frame. -/

@[spec 1200] theorem Txn.query_frame :
    ⦃fun s => ⌜Frame g s0 s⌝⦄ Txn.query
      ⦃post⟨fun d s => ⌜Frame g s0 s ∧ d = s.db⌝, fun _ _ => ⌜False⌝⟩⦄ := by
  unfold Txn.query Txn.db
  mvcgen

@[spec 1200] theorem Txn.db_frame :
    ⦃fun s => ⌜Frame g s0 s⌝⦄ Txn.db
      ⦃post⟨fun d s => ⌜Frame g s0 s ∧ d = s.db⌝, fun _ _ => ⌜False⌝⟩⦄ := by
  unfold Txn.db
  mvcgen

@[spec 1200] theorem Txn.flush_frame :
    ⦃fun s => ⌜Frame g s0 s⌝⦄ Txn.flush
      ⦃post⟨fun _ s => ⌜Frame g s0 s ∧ s.waiting = none⌝, fun _ s => ⌜Frame g s0 s⌝⟩⦄ := by
  rw [Txn.triple_iff]
  rintro ⟨db, kv, wired, waiting, sweeps, settled⟩ h
  cases waiting with
  | none => exact ⟨h, rfl⟩
  | some r => exact h

@[spec 1200] theorem Txn.lift_frame {α : Type} (r : Result α) :
    ⦃fun s => ⌜Frame g s0 s⌝⦄ Txn.lift r
      ⦃post⟨fun a s => ⌜Frame g s0 s ∧ r = .ok a⌝, fun e s => ⌜Frame g s0 s ∧ r = .error e⌝⟩⦄ := by
  rw [Txn.triple_iff]
  intro s h
  cases r with
  | ok a => exact ⟨h, rfl⟩
  | error e => exact ⟨h, rfl⟩

/-- A parameter is the cell the database takes the value as. -/
@[spec 1200] theorem Txn.param_frame (v : Value) :
    ⦃fun s => ⌜Frame g s0 s⌝⦄ Txn.param v
      ⦃post⟨fun c s => ⌜Frame g s0 s ∧ Store.BoundAs v c⌝, fun _ s => ⌜Frame g s0 s⌝⟩⦄ := by
  rw [Txn.triple_iff]
  intro s h
  cases hb : bindValue v with
  | ok c => simp only [Txn.param, hb]; exact ⟨h, .inl hb⟩
  | error f =>
    cases f with
    | unsupported kind => simp only [Txn.param, hb]; exact ⟨h, .inr ⟨rfl, kind, hb⟩⟩
    | _ => simp only [Txn.param, hb]; exact h

/-- Reading a column gives what the table reads there. -/
@[spec 1200] theorem Txn.read_frame (t : TableId) (r : Row) (column : String) :
    ⦃fun s => ⌜Frame g s0 s⌝⦄ Txn.read t r column
      ⦃post⟨fun v s => ⌜Frame g s0 s ∧ t.read r column = .ok v⌝, fun _ s => ⌜Frame g s0 s⌝⟩⦄ := by
  rw [Txn.triple_iff]
  intro s h
  cases hr : t.read r column with
  | ok v => simp only [Txn.read, hr]; exact ⟨h, rfl⟩
  | error f => cases f; simp only [Txn.read, hr]; exact h

@[spec 1200] theorem Orders.orderField_frame (o : Row) (column : String) :
    ⦃fun s => ⌜Frame g s0 s⌝⦄ Orders.orderField o column
      ⦃post⟨fun v s => ⌜Frame g s0 s ∧ TableId.orders.read o column = .ok v⌝,
        fun _ s => ⌜Frame g s0 s⌝⟩⦄ := by
  unfold Orders.orderField
  exact Txn.read_frame s0 .orders o column

/-- The order a request loads is an open order of the database. -/
@[spec 1200] theorem Orders.loadOrder_frame (actor : Access.Actor) (order : Value) :
    ⦃fun s => ⌜Frame g s0 s⌝⦄ Orders.loadOrder actor order
      ⦃post⟨fun o s => ⌜Frame g s0 s ∧ o ∈ s.db.orders ∧ o.isOpen .orders = true⌝,
        fun _ s => ⌜Frame g s0 s⌝⟩⦄ := by
  -- loading writes nothing: the exact-state spec ends where it started
  rw [Txn.triple_iff]
  intro s h
  have hl := (Txn.triple_iff _ _ _ _).1 (Orders.loadOrder_value s actor order) s rfl
  cases hrun : Orders.loadOrder actor order s with
  | ok o s' =>
    rw [hrun] at hl
    obtain ⟨rfl, hmem, hopen⟩ := hl
    exact ⟨h, hmem, hopen⟩
  | error e s' =>
    rw [hrun] at hl
    exact hl ▸ h

@[spec 1050] theorem Txn.fail_frame {α : Type} (e : Failure) :
    ⦃fun s => ⌜Frame g s0 s⌝⦄ (Txn.fail e : Txn α) ⦃Frame.post g s0⦄ := by
  unfold Txn.fail
  mvcgen

@[spec 1050] theorem Txn.afterCommit_frame (w : Sweep) :
    ⦃fun s => ⌜Frame g s0 s⌝⦄ Txn.afterCommit w ⦃Frame.post g s0⦄ := by
  unfold Txn.afterCommit
  mvcgen
  exact Frame.with_sweeps ‹_›

@[spec 1050] theorem Txn.cacheRead_frame {α : Type} (none_ : α) (read : Kv → Result α) :
    ⦃fun s => ⌜Frame g s0 s⌝⦄ Txn.cacheRead none_ read ⦃Frame.post g s0⦄ := by
  unfold Txn.cacheRead
  mvcgen [Txn.withCache]
  exact Frame.with_kv ‹_› (Cache.Storing.read read _ _ _ ‹_›)

@[spec 1050] theorem Txn.cachePut_frame (key v ttl : Json.Value) :
    ⦃fun s => ⌜Frame g s0 s⌝⦄ Txn.cachePut key v ttl ⦃Frame.post g s0⦄ := by
  unfold Txn.cachePut
  mvcgen [Txn.withCache]
  exact Frame.with_kv ‹_› (Cache.Storing.put key v ttl _ _ _ ‹_›)

/-- A held insert into a table that is not guarded nor the orders; a refused one only waits. -/
@[spec 1050] theorem Txn.insert_frame (t : TableId) (given : List (String × Value))
    (ht : t ∉ g.tables) (hto : t ≠ .orders) :
    ⦃fun s => ⌜Frame g s0 s⌝⦄ Txn.insert t given ⦃Frame.post g s0⦄ := by
  unfold Txn.insert
  mvcgen
  · exact Frame.with_db ‹_› (Guard.Keeps.insert ‹_› ht hto)
  · exact Frame.with_waiting ‹_›

/-- A held update of a table that is not guarded nor the trail, naming for an order no
guarded column and not its key. For a write of known columns the side condition is decided
at each call. -/
@[spec 1050] theorem Txn.update_frame (t : TableId) (id : Int) (given : List (String × Value))
    (ht : t ∉ g.tables) (hth : t ≠ .history)
    (hc : t ≠ .orders ∨ ∀ p ∈ given, p.1 ∉ g.columns ∧ p.1 ≠ "id") :
    ⦃fun s => ⌜Frame g s0 s⌝⦄ Txn.update t id given ⦃Frame.post g s0⦄ := by
  unfold Txn.update
  mvcgen
  · exact Frame.with_db ‹_› (Guard.Keeps.update ‹_› ht hth hc)
  · exact Frame.with_waiting ‹_›

@[spec 1050] theorem Txn.delete_frame (t : TableId) (p : Row → Bool) (ht : t ∉ g.tables)
    (hto : t ≠ .orders) (hth : t ≠ .history) :
    ⦃fun s => ⌜Frame g s0 s⌝⦄ Txn.delete t p ⦃Frame.post g s0⦄ := by
  unfold Txn.delete
  mvcgen
  exact Frame.with_db ‹_› (Guard.Keeps.delete p ht hto hth)

/-- A statement run at once, when every database it makes keeps the guard. -/
@[spec 1050] theorem Txn.execute_frame (f : Db → Except Refusal Db)
    (hf : ∀ db db', f db = .ok db' → g.Keeps db db') :
    ⦃fun s => ⌜Frame g s0 s⌝⦄ Txn.execute f ⦃Frame.post g s0⦄ := by
  unfold Txn.execute
  mvcgen
  exact Frame.with_db ‹_› (hf _ _ ‹_›)

end Primitives

/-! ## Loops -/

section Loops

variable {α β : Type} [g : Guard] (s0 : Session)

@[spec 1050] theorem List.mapM_frame (f : α → Txn β) (xs : List α)
    (hf : ∀ x s0, ⦃fun s => ⌜Frame g s0 s⌝⦄ f x ⦃Frame.post g s0⦄) :
    ⦃fun s => ⌜Frame g s0 s⌝⦄ xs.mapM f ⦃Frame.post g s0⦄ := by
  induction xs generalizing s0 with
  | nil => simp only [List.mapM_nil]; mvcgen
  | cons x rest ih =>
    simp only [List.mapM_cons]
    mvcgen [hf, ih]
    all_goals grind -ring -linarith -lia

@[spec 1050] theorem List.forM_frame (xs : List α) (f : α → Txn PUnit)
    (hf : ∀ x s0, ⦃fun s => ⌜Frame g s0 s⌝⦄ f x ⦃Frame.post g s0⦄) :
    ⦃fun s => ⌜Frame g s0 s⌝⦄ xs.forM f ⦃Frame.post g s0⦄ := by
  induction xs generalizing s0 with
  | nil => simp only [List.forM]; mvcgen
  | cons x rest ih =>
    simp only [List.forM]
    mvcgen [hf, ih]
    all_goals grind -ring -linarith -lia

@[spec 1050] theorem List.filterMapM_frame (f : α → Txn (Option β)) (xs : List α)
    (hf : ∀ x s0, ⦃fun s => ⌜Frame g s0 s⌝⦄ f x ⦃Frame.post g s0⦄) :
    ⦃fun s => ⌜Frame g s0 s⌝⦄ xs.filterMapM f ⦃Frame.post g s0⦄ := by
  induction xs generalizing s0 with
  | nil => simp only [List.filterMapM_nil]; mvcgen
  | cons x rest ih =>
    simp only [List.filterMapM_cons]
    mvcgen [hf, ih]
    all_goals grind -ring -linarith -lia

@[spec 1050] theorem Option.forM_frame (o : Option α) (f : α → Txn PUnit)
    (hf : ∀ x s0, ⦃fun s => ⌜Frame g s0 s⌝⦄ f x ⦃Frame.post g s0⦄) :
    ⦃fun s => ⌜Frame g s0 s⌝⦄ o.forM f ⦃Frame.post g s0⦄ := by
  cases o with
  | none => simp only [Option.forM]; mvcgen
  | some x => simp only [Option.forM]; mvcgen [hf]

@[spec 2100] theorem List.forIn_frame (xs : List α) (init : β) (f : α → β → Txn (ForInStep β))
    (hf : ∀ x b s0, ⦃fun s => ⌜Frame g s0 s⌝⦄ f x b ⦃Frame.post g s0⦄) :
    ⦃fun s => ⌜Frame g s0 s⌝⦄ forIn xs init f ⦃Frame.post g s0⦄ := by
  -- the loop keeps the frame of `s0` whether a pass yields or stops
  refine @Spec.forIn_list_const_inv _ _ _ _ _ _ xs init f (Frame.post g s0) fun x b => ?_
  mvcgen [hf]
  case vc1 => exact Frame.refl g _
  case vc2 r => intro s h; cases r <;> exact Frame.trans ‹_› h
  case vc3 => exact Frame.trans ‹_›

end Loops

/-! ## Units of work -/

/-- A property of databases that a frame of `g` keeps. -/
def Guard.Stable (g : Guard) (I : Db → Prop) : Prop := ∀ db db', g.Keeps db db' → I db → I db'

/-- From `s` to `s'` every property that the guard `g` keeps, held by both the database and the
last committed one, still holds of both: whatever happens next, a rollback or a commit, it
holds. -/
def Upholds (g : Guard) (s s' : Session) : Prop :=
  ∀ I, g.Stable I → I s.db ∧ I s.settled → I s'.db ∧ I s'.settled

section Upholding

variable {g : Guard} {s s' s'' : Session}

@[grind .] theorem Upholds.refl (g : Guard) (s : Session) : Upholds g s s := fun _ _ h => h

@[grind →] theorem Upholds.trans (h : Upholds g s s') (h' : Upholds g s' s'') : Upholds g s s'' :=
  fun I hI hs => h' I hI (h I hI hs)

/-- A frame upholds: it keeps the database's properties and does not commit. -/
@[grind →] theorem Upholds.of_frame (h : Frame g s s') : Upholds g s s' :=
  fun _ hI hs => ⟨hI _ _ h.keeps hs.1, h.settled ▸ hs.2⟩

/-- Changing the cache alone upholds. -/
theorem Upholds.with_kv (s : Session) (kv : Kv) : Upholds g s { s with kv } := fun _ _ h => h

/-- The postcondition of a computation that upholds what `s0` holds, on success and on
failure. -/
abbrev Upholds.post {α : Type} (g : Guard) (s0 : Session) :
    PostCond α (.except Failure (.arg Session .pure)) :=
  post⟨fun _ s => ⌜Upholds g s0 s⌝, fun _ s => ⌜Upholds g s0 s⌝⟩

/-- **A unit of work whose body keeps the frame upholds.** Rolled back, the session is back at
the committed database; committed, the new database is the one the body left, which keeps
every property the guard keeps; the sweeps after the commit touch the cache alone. -/
theorem Txn.atomically_upholds {α : Type} (body : Txn α)
    (hbody : ∀ s1, ⦃fun s => ⌜Frame g s1 s⌝⦄ body ⦃Frame.post g s1⦄) (s0 : Session) :
    ⦃fun s => ⌜Upholds g s0 s⌝⦄ Txn.atomically body ⦃Upholds.post g s0⦄ := by
  rw [Txn.triple_iff]
  intro s hs
  have hstart : Upholds g s0 { s with waiting := none, sweeps := [] } := fun I hI h => hs I hI h
  have hb := (Txn.triple_iff _ _ _ _).1 (hbody { s with waiting := none, sweeps := [] }) _
    (Frame.refl g _)
  unfold Txn.atomically
  dsimp only
  cases hrun : body { s with waiting := none, sweeps := [] } with
  | error e s' =>
    rw [hrun] at hb
    have hend := hstart.trans (Upholds.of_frame hb)
    exact fun I hI h => ⟨(hend I hI h).2, (hend I hI h).2⟩
  | ok a s' =>
    rw [hrun] at hb
    have hend := hstart.trans (Upholds.of_frame hb)
    dsimp only
    cases hwait : s'.waiting with
    | some r => exact fun I hI h => ⟨(hend I hI h).2, (hend I hI h).2⟩
    | none =>
      -- committed: the sweeps keep the new database, now also the committed one
      have hw := (Txn.triple_iff _ _ _ _).1 (Txn.sweepAll_keeps s'.sweeps s'.db s'.db)
        { s' with waiting := none, sweeps := [], settled := s'.db } ⟨rfl, rfl⟩
      dsimp only
      cases hsw : Txn.sweepAll s'.sweeps { s' with waiting := none, sweeps := [], settled := s'.db } with
      | ok u s'' =>
        rw [hsw] at hw
        exact fun I hI h => ⟨hw.1 ▸ (hend I hI h).1, hw.2 ▸ (hend I hI h).1⟩
      | error e s'' =>
        rw [hsw] at hw
        exact fun I hI h => ⟨hw.1 ▸ (hend I hI h).1, hw.2 ▸ (hend I hI h).1⟩

end Upholding

end RepairShop
