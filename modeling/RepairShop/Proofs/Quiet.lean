import Mathlib
import RepairShop.Session.Txn

/- Quiet computations: what a request may do before its commit.

   A unit of work (`Txn.atomically`) commits the database, or rolls it back to what
   was last committed, and runs its cache sweeps after the commit. Before that, a
   request is calm (`Calm s s'`): the committed database stays as it was, and the
   cache only gains entries stored by the cache store (`Cache.Filled`: no key
   removed, `Cache.Filled.keys_subset`, and no counter bumped). It is quiet
   (`Quiet s s'`) when moreover, with the orders in key order, they stay so and
   every order keeps its seat on the board (its branch, lifecycle state and
   position).

   This file

   1. defines both relations and shows they are preorders (`Calm.refl`,
      `Calm.trans`, `Quiet.refl`, `Quiet.trans`);
   2. states quietness as a Hoare triple (`⦃Quiet s0⦄ x ⦃Quiet.post s0⦄`) that
      `mvcgen` threads through a request, with a stronger form for code that fails
      only with faults (`Quiet.faultsOnly`), and proves it of every primitive of
      `Txn` that a request uses before its commit: reads, parameters, held inserts
      and updates of rows that are not orders or leave the seats alone, deletes,
      flushes, cache reads and stores;
   3. proves the loops a request runs quiet when their bodies are
      (`mapM_quiet`, `forIn_quiet`, `filterMapM_quiet`, ...).

   The unit of work itself is not quiet: its commit moves `settled`. What it does
   is proved in `Proofs/Rollback`. -/

namespace RepairShop

open Std.Do Store Cache

set_option mvcgen.warning false

/-! ## Entries stored by the cache store -/

/-- `b` is `a` with one value stored under a key, as the cache store stores it. -/
def Cache.Stored (a b : Kv) : Prop := ∃ key v ttl, b = (Cache.put a key v ttl).2

/-- `b` is `a` with entries stored by the cache store, and nothing else: no key removed and
no counter incremented. -/
def Cache.Filled : Kv → Kv → Prop := Relation.ReflTransGen Cache.Stored

theorem Cache.Filled.refl (kv : Kv) : Cache.Filled kv kv := Relation.ReflTransGen.refl

theorem Cache.Filled.trans {a b c : Kv} (h1 : Cache.Filled a b) (h2 : Cache.Filled b c) :
    Cache.Filled a c :=
  Relation.ReflTransGen.trans h1 h2

theorem Cache.Filled.put (kv : Kv) (key v ttl : Json.Value) :
    Cache.Filled kv (Cache.put kv key v ttl).2 :=
  Relation.ReflTransGen.single ⟨key, v, ttl, rfl⟩

/-- Writing a value keeps every key. -/
theorem Cache.Kv.keys_write (kv : Kv) (key stored : Json.Value) (ttl : Option Json.Value) :
    kv.entries.map (·.key) ⊆ (kv.write key stored ttl).entries.map (·.key) := by
  unfold Kv.write
  split
  · simp only [List.map_map]
    intro k hk
    simpa [Function.comp_def, apply_ite Entry.key] using hk
  · simp

/-- The cache store removes no key: every key of `a` is a key of `b`. -/
theorem Cache.Filled.keys_subset {a b : Kv} (h : Cache.Filled a b) :
    a.entries.map (·.key) ⊆ b.entries.map (·.key) := by
  induction h with
  | refl => exact List.Subset.refl _
  | tail _ hstored ih =>
    obtain ⟨key, v, ttl, rfl⟩ := hstored
    refine List.Subset.trans ih ?_
    unfold Cache.put
    split
    · exact Kv.keys_write _ _ _ _
    · exact List.Subset.refl _

/-- A cache operation of the services that at most stores entries. -/
def Cache.Storing {α : Type} (op : Kv → Result (α × Kv)) : Prop :=
  ∀ kv a kv', op kv = .ok (a, kv') → Cache.Filled kv kv'

/-- A read hands the store back as it was. -/
theorem Cache.Storing.read {α : Type} (r : Kv → Result α) :
    Cache.Storing fun kv => (do let x ← r kv; pure (x, kv) : Result (α × Kv)) := by
  intro kv a kv' h
  simp only at h
  cases hr : r kv with
  | error e => rw [hr] at h; cases h
  | ok x => rw [hr] at h; cases h; exact Cache.Filled.refl _

/-- A store of one value. -/
theorem Cache.Storing.put (key v ttl : Json.Value) :
    Cache.Storing fun kv => (pure (Cache.put kv key v ttl) : Result (Bool × Kv)) := by
  intro kv a kv' h
  have hput : Cache.put kv key v ttl = (a, kv') := Except.ok.inj h
  rw [show kv' = (Cache.put kv key v ttl).2 by rw [hput]]
  exact Cache.Filled.put kv key v ttl

/-! ## Seats on the board -/

/-- Where an order sits on the board: its branch, its lifecycle state and its position. -/
def Store.Row.seat (r : Row) : Cell × Cell × Cell :=
  (r.get "branch_id", r.get "status", r.get "sort")

/-- The seat of every order, with its key, in table order. -/
def Store.Db.seats (db : Db) : List (Int × (Cell × Cell × Cell)) :=
  db.orders.map fun r => (r.id, r.seat)

/-- The orders are in strictly increasing key order. -/
def Store.Db.Keyed (db : Db) : Prop :=
  db.orders.Pairwise (·.id < ·.id)

/-- The columns that place an order on the board, its key included. -/
def seatColumns : List String := ["id", "branch_id", "status", "sort"]

/-- A write names a column that places an order on the board. -/
def touchesSeat (given : List (String × Json.Value)) : Bool :=
  given.any fun p => seatColumns.contains p.1

/-! ## Writes through the seat view -/

theorem Store.Db.orders_withRows {db : Db} {t : TableId} (rows : Table) (h : t ≠ .orders) :
    (db.withRows t rows).orders = db.orders := by
  cases t <;> first | exact absurd rfl h | rfl

theorem Store.Db.orders_insert {db db' : Db} {t : TableId} {given : List (String × Json.Value)}
    {id : Int} (hi : db.insert t given = .ok (db', id)) (h : t ≠ .orders) :
    db'.orders = db.orders := by
  unfold Db.insert at hi
  split at hi
  · cases hi; exact Db.orders_withRows _ h
  · cases hi

theorem Store.Db.orders_delete (db : Db) {t : TableId} (p : Row → Bool) (h : t ≠ .orders) :
    (db.delete t p).orders = db.orders :=
  Db.orders_withRows _ h

/-- Putting a row back among the others of a table in key order, in place of the row of its
key, replaces that row where it stood. -/
theorem Store.placeRow_filter (row old : Row) :
    ∀ {xs : Table}, xs.Pairwise (·.id < ·.id) → old ∈ xs → row.id = old.id →
      placeRow row (xs.filter (·.id != old.id)) = xs.map fun r => if r.id = old.id then row else r
  | [], _, hm, _ => absurd hm List.not_mem_nil
  | x :: rest, hp, hm, hid => by
    obtain ⟨hx, hrest⟩ := List.pairwise_cons.1 hp
    by_cases hxo : x.id = old.id
    · -- `x` is the row replaced: every later key is larger, so nothing else goes
      have hkeep : ∀ r ∈ rest, r.id ≠ old.id := fun r hr => by have := hx r hr; omega
      have hf : rest.filter (·.id != old.id) = rest :=
        List.filter_eq_self.2 fun r hr => by simpa using hkeep r hr
      have hm' : rest.map (fun r => if r.id = old.id then row else r) = rest :=
        (List.map_congr_left fun r hr => if_neg (hkeep r hr)).trans (List.map_id' rest)
      simp only [List.filter_cons, hxo, bne_self_eq_false, Bool.false_eq_true, if_false, hf,
        List.map_cons, if_true, hm']
      cases rest with
      | nil => rfl
      | cons y ys => simp [placeRow, hid, ← hxo, hx y (by simp)]
    · -- `old` is further on, so its key is larger than `x`'s
      have ho : old ∈ rest := by
        rcases List.mem_cons.1 hm with rfl | h
        · exact absurd rfl hxo
        · exact h
      have hlt : ¬ row.id < x.id := by have := hx old ho; omega
      simp only [List.filter_cons, bne_iff_ne, ne_eq, hxo, not_false_eq_true, if_true,
        List.map_cons, if_false]
      simp only [placeRow, hlt, if_false, placeRow_filter row old hrest ho hid]

/-- The row of a key in a table in key order is the one `find?` picks by that key. -/
theorem Store.eq_of_mem_of_id {xs : Table} (hp : xs.Pairwise (·.id < ·.id)) {a b : Row}
    (ha : a ∈ xs) (hb : b ∈ xs) (hid : a.id = b.id) : a = b := by
  induction xs with
  | nil => exact absurd ha List.not_mem_nil
  | cons x rest ih =>
    obtain ⟨hx, hrest⟩ := List.pairwise_cons.1 hp
    rcases List.mem_cons.1 ha with rfl | ha' <;> rcases List.mem_cons.1 hb with rfl | hb'
    · rfl
    · have := hx b hb'; omega
    · have := hx a ha'; omega
    · exact ih hrest ha' hb'

theorem Store.lookup_mem {β : Type} {l : List (String × β)} {k : String} {v : β}
    (h : l.lookup k = some v) : (k, v) ∈ l := by
  induction l with
  | nil => simp at h
  | cons e rest ih =>
    obtain ⟨a, b⟩ := e
    by_cases hk : k = a
    · subst hk; simp [List.lookup] at h; simp [h]
    · have : (k == a) = false := by simpa using hk
      simp only [List.lookup, this] at h
      exact List.mem_cons_of_mem _ (ih h)

theorem Store.lookup_map_snd {β : Type} (l : List (String × β)) (g : String → β → β) (k : String) :
    (l.map fun e => (e.1, g e.1 e.2)).lookup k = (l.lookup k).map (g k) := by
  induction l with
  | nil => rfl
  | cons e rest ih =>
    obtain ⟨a, b⟩ := e
    by_cases hk : k = a
    · subst hk; simp [List.lookup]
    · have : (k == a) = false := by simpa using hk
      simp [List.lookup, this, ih]

/-- Values passed on by their columns' kinds keep their columns. -/
theorem Store.passAll_columns :
    ∀ {cols passed : List (Column × Json.Value)}, passAll cols = .ok passed →
      ∀ p ∈ passed, ∃ v, (p.1, v) ∈ cols
  | [], passed, h => by cases h; simp
  | (c, v) :: rest, passed, h => by
    simp only [passAll, bind, Except.bind] at h
    split at h
    · cases h
    · rename_i v' _
      split at h
      · cases h
      · rename_i tail htail
        cases h
        intro p hp
        rcases List.mem_cons.1 hp with rfl | hp
        · exact ⟨v, List.mem_cons_self ..⟩
        · obtain ⟨w, hw⟩ := passAll_columns htail p hp
          exact ⟨w, List.mem_cons_of_mem _ hw⟩

/-- Values handed to the database are stored under their columns' names. -/
theorem Store.storeAll_names :
    ∀ {pos : Nat} {passed : List (Column × Json.Value)} {stored : List (String × Cell)},
      storeAll pos passed = .ok stored → ∀ e ∈ stored, ∃ p ∈ passed, p.1.name = e.1
  | _, [], stored, h => by cases h; simp
  | pos, (c, v) :: rest, stored, h => by
    simp only [storeAll, bind, Except.bind] at h
    split at h
    · cases h
    · split at h
      · cases h
      · rename_i tail htail
        cases h
        intro e he
        rcases List.mem_cons.1 he with rfl | he
        · exact ⟨(c, v), List.mem_cons_self .., rfl⟩
        · obtain ⟨p, hp, hn⟩ := storeAll_names htail e he
          exact ⟨p, List.mem_cons_of_mem _ hp, hn⟩

/-- What an update stores comes from the columns it was given. -/
theorem Store.stored_given {s : Schema} {given : List (String × Json.Value)}
    {passed : List (Column × Json.Value)} {stored : List (String × Cell)}
    (hp : passAll ((({ name := "id", kind := .integer } : Column) :: s.columns).filterMap fun c =>
      (given.lookup c.name).map (c, ·)) = .ok passed)
    (hs : storeAll 1 passed = .ok stored) {k : String} {c : Cell} (hk : stored.lookup k = some c) :
    ∃ v, (k, v) ∈ given := by
  obtain ⟨p, hpm, hname⟩ := storeAll_names hs _ (lookup_mem hk)
  obtain ⟨v, hv⟩ := passAll_columns hp p hpm
  obtain ⟨col, -, hcol⟩ := List.mem_filterMap.1 hv
  obtain ⟨w, hw, hpair⟩ := Option.map_eq_some_iff.1 hcol
  have hc : col = p.1 := congrArg Prod.fst hpair
  have hk' : col.name = k := by rw [hc]; exact hname
  exact ⟨w, hk' ▸ lookup_mem hw⟩

/-- An update that names no seat column leaves nothing of the seat in what it stores. -/
theorem Store.stored_seat_none {s : Schema} {given : List (String × Json.Value)}
    {passed : List (Column × Json.Value)} {stored : List (String × Cell)}
    (hp : passAll ((({ name := "id", kind := .integer } : Column) :: s.columns).filterMap fun c =>
      (given.lookup c.name).map (c, ·)) = .ok passed)
    (hs : storeAll 1 passed = .ok stored) (ht : touchesSeat given = false) {k : String}
    (hk : k ∈ seatColumns) : stored.lookup k = none := by
  cases hl : stored.lookup k with
  | none => rfl
  | some c =>
    obtain ⟨v, hv⟩ := stored_given hp hs hl
    have : touchesSeat given = true := List.any_eq_true.2 ⟨(k, v), hv, by simpa using hk⟩
    simp [ht] at this

/-- An update of one row of a table in key order that names no seat column keeps the keys in
order and every seat. -/
theorem Store.updateRow_seats {s : Schema} {t t' : Table} {id : Int}
    {given : List (String × Json.Value)} (hu : updateRow s t (·.id == id) given = .ok t')
    (ht : touchesSeat given = false) (hk : t.Pairwise (·.id < ·.id)) :
    t'.Pairwise (·.id < ·.id) ∧
      t'.map (fun r => (r.id, r.seat)) = t.map fun r => (r.id, r.seat) := by
  simp only [updateRow, bind, Except.bind] at hu
  split at hu
  · cases hu
  · rename_i passed hp
    split at hu
    · cases hu
    · rename_i stored hs
      have hnone := fun k hk => stored_seat_none hp hs ht (k := k) hk
      split at hu
      · cases hu; exact ⟨hk, rfl⟩
      · rename_i old hold
        rw [hnone "id" (by decide)] at hu
        simp only [pure, Except.pure, bne_self_eq_false, Bool.false_and, Bool.false_eq_true,
          if_false] at hu
        split at hu
        · cases hu
        · cases hu
          have hmem : old ∈ t := List.mem_of_find?_eq_some hold
          -- the rewritten row keeps every seat column of the old one
          have hcol : ∀ k ∈ seatColumns, k ≠ "id" →
              Row.get ⟨old.id, old.cells.map fun e => (e.1, (stored.lookup e.1).getD e.2)⟩ k =
                old.get k := fun k hks hid => by
            have hl := lookup_map_snd old.cells (fun k v => (stored.lookup k).getD v) k
            simp only [hnone k hks, Option.getD_none] at hl
            simp only [Row.get, beq_iff_eq, hid, if_false, hl, Option.map_id']
          have hseat : Row.seat ⟨old.id, old.cells.map fun e => (e.1, (stored.lookup e.1).getD e.2)⟩ =
              old.seat := by
            simp only [Row.seat, hcol "branch_id" (by decide) (by decide),
              hcol "status" (by decide) (by decide), hcol "sort" (by decide) (by decide)]
          rw [placeRow_filter ⟨old.id, old.cells.map fun e => (e.1, (stored.lookup e.1).getD e.2)⟩
            old hk hmem rfl]
          refine ⟨List.pairwise_map.2 (hk.imp fun {a b} h => ?_), ?_⟩
          · by_cases ha : a.id = old.id <;> by_cases hb : b.id = old.id <;> simp_all
          · rw [List.map_map]
            refine List.map_congr_left fun r hr => ?_
            by_cases hr' : r.id = old.id
            · have := eq_of_mem_of_id hk hr hmem hr'
              subst this
              simp [hseat]
            · simp [hr']

theorem Store.Db.update_seats {db db' : Db} {t : TableId} {id : Int}
    {given : List (String × Json.Value)} (hu : db.update t id given = .ok db')
    (h : t ≠ .orders ∨ touchesSeat given = false) (hk : db.Keyed) :
    db'.Keyed ∧ db'.seats = db.seats := by
  unfold Db.update at hu
  cases hr : updateRow t.schema (db.rows t) (·.id == id) given with
  | error e => rw [hr] at hu; cases hu
  | ok rows =>
    rw [hr] at hu
    cases hu
    by_cases ht : t = .orders
    · subst ht
      exact updateRow_seats hr (h.resolve_left (not_not_intro rfl)) hk
    · simpa [Db.Keyed, Db.seats, Db.orders_withRows rows ht] using hk

/-! ## The relations -/

/-- A failure below the workflow, as opposed to a refusal the workflow states. -/
def Failure.IsFault : Failure → Prop
  | .domain _ => False
  | .fault _ => True

@[simp] theorem Failure.isFault_fault (f : Fault) : (Failure.fault f).IsFault := trivial

@[simp] theorem Failure.not_isFault_domain (d : DomainError) : ¬(Failure.domain d).IsFault :=
  id

/-- What a request may do to its session before it commits, whatever it writes: the committed
database stays, and the cache only gains stored entries. -/
structure Calm (s s' : Session) : Prop where
  settled : s'.settled = s.settled
  filled : Cache.Filled s.kv s'.kv

/-- A calm change that moves no order: orders in key order stay in key order, each keeping
its seat. -/
structure Quiet (s s' : Session) : Prop extends Calm s s' where
  seats : s.db.Keyed → s'.db.Keyed ∧ s'.db.seats = s.db.seats

namespace Calm

@[grind .] theorem refl (s : Session) : Calm s s := ⟨rfl, Cache.Filled.refl _⟩

-- stated forward for `grind`, which closes the chains of states that `mvcgen` leaves
@[grind →] theorem trans {a b c : Session} (h1 : Calm a b) (h2 : Calm b c) : Calm a c :=
  ⟨h2.settled.trans h1.settled, h1.filled.trans h2.filled⟩

/-- Any change of the database alone is calm. -/
theorem with_db {s0 s : Session} {db : Db} (h : Calm s0 s) : Calm s0 { s with db } :=
  h.trans ⟨rfl, Cache.Filled.refl _⟩

/-- The postcondition of a calm computation started from `s0`, on success and on failure. -/
abbrev post {α : Type} (s0 : Session) : PostCond α (.except Failure (.arg Session .pure)) :=
  post⟨fun _ s => ⌜Calm s0 s⌝, fun _ s => ⌜Calm s0 s⌝⟩

end Calm

namespace Quiet

@[grind .] theorem refl (s : Session) : Quiet s s :=
  ⟨Calm.refl s, fun h => ⟨h, rfl⟩⟩

/-- A quiet change is calm. -/
@[grind →] theorem calm {a b : Session} (h : Quiet a b) : Calm a b := h.toCalm

@[grind →] theorem trans {a b c : Session} (h1 : Quiet a b) (h2 : Quiet b c) : Quiet a c where
  toCalm := h1.toCalm.trans h2.toCalm
  seats := fun ha =>
    have hb := h1.seats ha
    have hc := h2.seats hb.1
    ⟨hc.1, hc.2.trans hb.2⟩

/-- A change of the database alone that keeps the orders' seats is quiet. -/
theorem with_db {s0 s : Session} {db : Db} (h : Quiet s0 s)
    (hdb : s.db.Keyed → db.Keyed ∧ db.seats = s.db.seats) :
    Quiet s0 { s with db } :=
  h.trans ⟨⟨rfl, Cache.Filled.refl _⟩, hdb⟩

/-- Holding a refusal for the next flush is quiet. -/
theorem with_waiting {s0 s : Session} {w : Option Refusal} (h : Quiet s0 s) :
    Quiet s0 { s with waiting := w } :=
  h.trans ⟨⟨rfl, Cache.Filled.refl _⟩, fun hk => ⟨hk, rfl⟩⟩

/-- Registering sweeps is quiet: they run only after a commit. -/
theorem with_sweeps {s0 s : Session} {ws : List Sweep} (h : Quiet s0 s) :
    Quiet s0 { s with sweeps := ws } :=
  h.trans ⟨⟨rfl, Cache.Filled.refl _⟩, fun hk => ⟨hk, rfl⟩⟩

/-- Storing cache entries is quiet. -/
theorem with_kv {s0 s : Session} {kv : Kv} (h : Quiet s0 s) (hf : Cache.Filled s.kv kv) :
    Quiet s0 { s with kv } :=
  h.trans ⟨⟨rfl, hf⟩, fun hk => ⟨hk, rfl⟩⟩

/-- The postcondition of a quiet computation started from `s0`, on success and on failure. -/
abbrev post {α : Type} (s0 : Session) : PostCond α (.except Failure (.arg Session .pure)) :=
  post⟨fun _ s => ⌜Quiet s0 s⌝, fun _ s => ⌜Quiet s0 s⌝⟩

/-- The postcondition of a quiet computation that refuses nothing: it fails only with a
fault. Code that runs after a commit must be of this kind, so that a refusal always finds the
commit not yet made. -/
abbrev faultsOnly {α : Type} (s0 : Session) : PostCond α (.except Failure (.arg Session .pure)) :=
  post⟨fun _ s => ⌜Quiet s0 s⌝, fun e s => ⌜Quiet s0 s ∧ e.IsFault⌝⟩

end Quiet

/-! ## The primitives of a request -/

section Primitives

variable (s0 : Session)

@[spec] theorem Txn.db_quiet : ⦃fun s => ⌜Quiet s0 s⌝⦄ Txn.db ⦃Quiet.faultsOnly s0⦄ := by
  mvcgen [Txn.db]

@[spec] theorem Txn.query_quiet : ⦃fun s => ⌜Quiet s0 s⌝⦄ Txn.query ⦃Quiet.faultsOnly s0⦄ := by
  mvcgen [Txn.query]

/-- Handing over a parameter fails only when the database cannot hold it. -/
@[spec] theorem Txn.param_quiet (v : Json.Value) :
    ⦃fun s => ⌜Quiet s0 s⌝⦄ Txn.param v ⦃Quiet.faultsOnly s0⦄ := by
  mvcgen [Txn.param]

/-- Reading a column fails only on a stored decimal that is no numeral. -/
@[spec] theorem Txn.read_quiet (t : TableId) (r : Row) (column : String) :
    ⦃fun s => ⌜Quiet s0 s⌝⦄ Txn.read t r column ⦃Quiet.faultsOnly s0⦄ := by
  mvcgen [Txn.read]

/-- Lifting a result gives its value, or fails with its failure. -/
@[spec] theorem Txn.lift_quiet {α : Type} (r : Result α) :
    ⦃fun s => ⌜Quiet s0 s⌝⦄ Txn.lift r
      ⦃post⟨fun a s => ⌜r = .ok a ∧ Quiet s0 s⌝, fun e s => ⌜r = .error e ∧ Quiet s0 s⌝⟩⦄ := by
  mvcgen [Txn.lift]

@[spec] theorem Txn.fail_quiet {α : Type} (e : Failure) :
    ⦃fun s => ⌜Quiet s0 s⌝⦄ (Txn.fail e : Txn α) ⦃Quiet.post s0⦄ := by
  mvcgen [Txn.fail]

@[spec] theorem Txn.flush_quiet : ⦃fun s => ⌜Quiet s0 s⌝⦄ Txn.flush ⦃Quiet.post s0⦄ := by
  mvcgen [Txn.flush]

@[spec] theorem Txn.afterCommit_quiet (w : Sweep) :
    ⦃fun s => ⌜Quiet s0 s⌝⦄ Txn.afterCommit w ⦃Quiet.faultsOnly s0⦄ := by
  mvcgen [Txn.afterCommit]
  exact Quiet.with_sweeps ‹_›

/-- A held insert of a row that is not an order is quiet; a refused one only waits. -/
@[spec 500] theorem Txn.insert_quiet (t : TableId) (given : List (String × Json.Value))
    (ht : t ≠ .orders) :
    ⦃fun s => ⌜Quiet s0 s⌝⦄ Txn.insert t given ⦃Quiet.faultsOnly s0⦄ := by
  mvcgen [Txn.insert]
  · exact Quiet.with_db ‹_› fun hk => by
      simpa [Db.Keyed, Db.seats, Db.orders_insert ‹_› ht] using hk
  · exact Quiet.with_waiting ‹_›

/-- A held update is quiet when it names no seat column of an order. The side condition is
decidable from the table and the column names alone, so `mvcgen` discharges it at each call. -/
@[spec 500] theorem Txn.update_quiet (t : TableId) (id : Int) (given : List (String × Json.Value))
    (ht : t ≠ .orders ∨ touchesSeat given = false) :
    ⦃fun s => ⌜Quiet s0 s⌝⦄ Txn.update t id given ⦃Quiet.faultsOnly s0⦄ := by
  mvcgen [Txn.update]
  · exact Quiet.with_db ‹_› fun hk => Db.update_seats ‹_› ht hk
  · exact Quiet.with_waiting ‹_›

/-- Removing rows that are not orders is quiet. -/
@[spec] theorem Txn.delete_quiet (t : TableId) (p : Row → Bool) (ht : t ≠ .orders) :
    ⦃fun s => ⌜Quiet s0 s⌝⦄ Txn.delete t p ⦃Quiet.faultsOnly s0⦄ := by
  mvcgen [Txn.delete]
  exact Quiet.with_db ‹_› fun hk => by
    simpa [Db.Keyed, Db.seats, Db.orders_delete _ p ht] using hk

/-- Reading the cache is quiet. -/
@[spec] theorem Txn.cacheRead_quiet {α : Type} (none_ : α) (read : Kv → Result α) :
    ⦃fun s => ⌜Quiet s0 s⌝⦄ Txn.cacheRead none_ read ⦃Quiet.post s0⦄ := by
  mvcgen [Txn.cacheRead, Txn.withCache]
  exact Quiet.with_kv ‹_› (Cache.Storing.read read _ _ _ ‹_›)

/-- Storing a value in the cache is quiet. -/
@[spec] theorem Txn.cachePut_quiet (key v ttl : Json.Value) :
    ⦃fun s => ⌜Quiet s0 s⌝⦄ Txn.cachePut key v ttl ⦃Quiet.post s0⦄ := by
  mvcgen [Txn.cachePut, Txn.withCache]
  exact Quiet.with_kv ‹_› (Cache.Storing.put key v ttl _ _ _ ‹_›)

end Primitives

/-! ## Loops -/

section Loops

variable {α β : Type} (s0 : Session)

@[spec 500] theorem List.mapM_quiet (f : α → Txn β) (xs : List α)
    (hf : ∀ x s0, ⦃fun s => ⌜Quiet s0 s⌝⦄ f x ⦃Quiet.post s0⦄) :
    ⦃fun s => ⌜Quiet s0 s⌝⦄ xs.mapM f ⦃Quiet.post s0⦄ := by
  induction xs generalizing s0 with
  | nil => mvcgen [List.mapM_nil]
  | cons x rest ih =>
    mvcgen [List.mapM_cons, hf, ih]
    all_goals grind -ring -linarith -lia

@[spec 500] theorem List.forM_quiet (xs : List α) (f : α → Txn PUnit)
    (hf : ∀ x s0, ⦃fun s => ⌜Quiet s0 s⌝⦄ f x ⦃Quiet.post s0⦄) :
    ⦃fun s => ⌜Quiet s0 s⌝⦄ xs.forM f ⦃Quiet.post s0⦄ := by
  induction xs generalizing s0 with
  | nil => mvcgen [List.forM]
  | cons x rest ih =>
    mvcgen [List.forM, hf, ih]
    all_goals grind -ring -linarith -lia

@[spec 500] theorem List.filterMapM_quiet (f : α → Txn (Option β)) (xs : List α)
    (hf : ∀ x s0, ⦃fun s => ⌜Quiet s0 s⌝⦄ f x ⦃Quiet.post s0⦄) :
    ⦃fun s => ⌜Quiet s0 s⌝⦄ xs.filterMapM f ⦃Quiet.post s0⦄ := by
  induction xs generalizing s0 with
  | nil => mvcgen [List.filterMapM_nil]
  | cons x rest ih =>
    mvcgen [List.filterMapM_cons, hf, ih]
    all_goals grind -ring -linarith -lia

/-- A map over a list whose passes refuse nothing refuses nothing. -/
theorem List.mapM_faultsOnly (f : α → Txn β) (xs : List α)
    (hf : ∀ x s0, ⦃fun s => ⌜Quiet s0 s⌝⦄ f x ⦃Quiet.faultsOnly s0⦄) :
    ⦃fun s => ⌜Quiet s0 s⌝⦄ xs.mapM f ⦃Quiet.faultsOnly s0⦄ := by
  -- unfolded by hand, so that the general spec of `mapM` does not step in
  induction xs generalizing s0 with
  | nil => simp only [List.mapM_nil]; mvcgen
  | cons x rest ih =>
    simp only [List.mapM_cons]
    mvcgen [hf, ih]
    all_goals grind -ring -linarith -lia

@[spec] theorem Option.forM_quiet (o : Option α) (f : α → Txn PUnit)
    (hf : ∀ x s0, ⦃fun s => ⌜Quiet s0 s⌝⦄ f x ⦃Quiet.post s0⦄) :
    ⦃fun s => ⌜Quiet s0 s⌝⦄ o.forM f ⦃Quiet.post s0⦄ := by
  cases o with
  | none => mvcgen [Option.forM]
  | some x => mvcgen [Option.forM, hf]

@[spec 2000] theorem List.forIn_quiet (xs : List α) (init : β) (f : α → β → Txn (ForInStep β))
    (hf : ∀ x b s0, ⦃fun s => ⌜Quiet s0 s⌝⦄ f x b ⦃Quiet.post s0⦄) :
    ⦃fun s => ⌜Quiet s0 s⌝⦄ forIn xs init f ⦃Quiet.post s0⦄ := by
  -- the loop keeps `Quiet s0` whether a pass yields or stops
  refine @Spec.forIn_list_const_inv _ _ _ _ _ _ xs init f (Quiet.post s0) fun x b => ?_
  mvcgen [hf]
  case vc1 => exact Quiet.refl _
  case vc2 r => intro s h; cases r <;> exact Quiet.trans ‹_› h
  case vc3 => exact Quiet.trans ‹_›

end Loops

end RepairShop
