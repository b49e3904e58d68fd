import RepairShop.Proofs.Boards
import RepairShop.Proofs.Rollback

/- The board through a request.

   `Proofs/Boards` says what each write of positions does to the board of a database.
   This file follows the board through the services. A session shows the board `B`
   (`Shows B s`) when its database and its last committed database both have it;
   `Kept s s'` says that `s'` shows every board `s` shows, and `Steps E s s'` that every
   board `s` shows is taken to one that `E` allows and `s'` shows. It proves

   1. that the reads of a request can be read off the session: a parameter is the cell
      the database binds (`Txn.param_value`), a query sees the session's database, a
      flush that passes leaves no write held, a loaded order is an open order of the
      database, and a new order's position is one past its bucket
      (`Orders.nextSortValue_value`);
   2. that a unit of work with a quiet body keeps the board (`Txn.atomically_kept`), and
      one whose body moves it commits the move or, rolled back, nothing
      (`Txn.atomically_steps`);
   3. that creating an order appends it to the list of its branch
      (`Orders.createOrder_steps`), a move to a target position takes the order out and
      puts it back there (`Orders.moveOrder_steps`), a soft delete takes it out
      (`Orders.deleteOrder_steps`), and every other service that writes keeps the board
      (`Orders.updateOrder_kept` and the others). -/

namespace RepairShop

open Std.Do Store Cache Json

set_option mvcgen.warning false

/-! ## Sessions that show a board -/

/-- A board: the list of each branch's bucket, in position order. -/
abbrev Board := Int → List Int

/-- The session's database and its committed database both have the board `B`: whatever
happens next, a rollback or a commit, the board stays `B` until a write moves it. -/
structure Shows (B : Board) (s : Session) : Prop where
  db : Orders.Boards B s.db
  settled : Orders.Boards B s.settled

attribute [grind →] Shows.db

/-- A quiet change keeps the board: it moves no seat and commits nothing. -/
@[grind →] theorem Shows.quiet {B : Board} {s s' : Session} (h : Shows B s) (hq : Quiet s s') :
    Shows B s' := by
  obtain ⟨hk, hs⟩ := hq.seats h.db.keyed
  exact ⟨h.db.of_seats hk hs, hq.settled ▸ h.settled⟩

/-- From `s` to `s'` the board stays: `s'` shows every board `s` shows. -/
def Kept (s s' : Session) : Prop := ∀ B, Shows B s → Shows B s'

/-- From `s` to `s'` the board moves as `E` says: every board `s` shows is taken to one that
`E` allows and `s'` shows. -/
def Steps (E : Board → Board → Prop) (s s' : Session) : Prop :=
  ∀ B, Shows B s → ∃ B', E B B' ∧ Shows B' s'

/-- A move that `E` allows, or none: what a failed request leaves, rolled back or not. -/
def OrStays (E : Board → Board → Prop) (B B' : Board) : Prop := E B B' ∨ B' = B

section Relations

variable {E : Board → Board → Prop} {s s' s'' : Session}

@[grind .] theorem Kept.refl (s : Session) : Kept s s := fun _ h => h

@[grind →] theorem Kept.trans (h : Kept s s') (h' : Kept s' s'') : Kept s s'' :=
  fun B hB => h' B (h B hB)

@[grind →] theorem Kept.of_quiet (h : Quiet s s') : Kept s s' := fun _ hB => hB.quiet h

/-- Changing the cache alone keeps the board. -/
theorem Kept.with_kv (s : Session) (kv : Kv) : Kept s { s with kv } :=
  fun _ hB => ⟨hB.db, hB.settled⟩

/-- The postcondition of a computation that keeps the board of `s0`, on success and on
failure. -/
abbrev Kept.post {α : Type} (s0 : Session) : PostCond α (.except Failure (.arg Session .pure)) :=
  post⟨fun _ s => ⌜Kept s0 s⌝, fun _ s => ⌜Kept s0 s⌝⟩

@[grind →] theorem Steps.kept_left (h : Kept s s') (h' : Steps E s' s'') : Steps E s s'' :=
  fun B hB => h' B (h B hB)

@[grind →] theorem Steps.kept_right (h : Steps E s s') (h' : Kept s' s'') : Steps E s s'' := by
  intro B hB
  obtain ⟨B', hE, hB'⟩ := h B hB
  exact ⟨B', hE, h' B' hB'⟩

theorem Steps.mono {F : Board → Board → Prop} (h : Steps E s s') (hEF : ∀ B B', E B B' → F B B') :
    Steps F s s' := by
  intro B hB
  obtain ⟨B', hE, hB'⟩ := h B hB
  exact ⟨B', hEF B B' hE, hB'⟩

/-- A move that was made is one a failure may leave. -/
@[grind <=] theorem Steps.orStays (h : Steps E s s') : Steps (OrStays E) s s' :=
  h.mono fun _ _ hE => .inl hE

/-- A session that keeps the board has moved it as far as a failure may. -/
@[grind <=] theorem Steps.of_kept (h : Kept s s') : Steps (OrStays E) s s' :=
  fun B hB => ⟨B, .inr rfl, h B hB⟩

end Relations

/-- The body of a unit of work, started at `s1`, has moved the board to one that `E` allows. -/
structure Moves (E : Board → Prop) (s1 s : Session) : Prop where
  calm : Calm s1 s
  board : ∃ B', E B' ∧ Orders.Boards B' s.db

@[grind →] theorem Moves.quiet {E : Board → Prop} {s1 s s' : Session}
    (h : Moves E s1 s) (hq : Quiet s s') : Moves E s1 s' := by
  obtain ⟨hc, B', hE, hB'⟩ := h
  obtain ⟨hk, hs⟩ := hq.seats hB'.keyed
  exact ⟨hc.trans hq.calm, B', hE, hB'.of_seats hk hs⟩

@[grind →] theorem Moves.quiet_left {E : Board → Prop} {s1 s s' : Session}
    (hq : Quiet s1 s) (h : Moves E s s') : Moves E s1 s' :=
  ⟨hq.calm.trans h.calm, h.board⟩

attribute [grind →] Moves.calm

/-! ## Reads of a request, read off the session -/

section Reads

variable (s0 : Session)

@[spec 1100] theorem Txn.query_value :
    ⦃fun s => ⌜s = s0⌝⦄ Txn.query ⦃post⟨fun d s => ⌜s = s0 ∧ d = s0.db⌝, fun _ _ => ⌜False⌝⟩⦄ := by
  rw [Txn.triple_iff]
  rintro s rfl
  exact ⟨rfl, rfl⟩

@[spec 1100] theorem Txn.flush_value :
    ⦃fun s => ⌜s = s0⌝⦄ Txn.flush
      ⦃post⟨fun _ s => ⌜s = s0 ∧ s0.waiting = none⌝, fun _ s => ⌜s = s0⌝⟩⦄ := by
  rw [Txn.triple_iff]
  rintro ⟨db, kv, wired, waiting, sweeps, settled⟩ rfl
  cases waiting with
  | none => exact ⟨rfl, rfl⟩
  | some r => rfl

@[spec 1100] theorem Txn.db_value :
    ⦃fun s => ⌜s = s0⌝⦄ Txn.db ⦃post⟨fun d s => ⌜s = s0 ∧ d = s0.db⌝, fun _ _ => ⌜False⌝⟩⦄ := by
  rw [Txn.triple_iff]
  rintro s rfl
  exact ⟨rfl, rfl⟩

@[spec 1100] theorem Txn.lift_value {α : Type} (r : Result α) :
    ⦃fun s => ⌜s = s0⌝⦄ Txn.lift r
      ⦃post⟨fun a s => ⌜s = s0 ∧ r = .ok a⌝, fun e s => ⌜s = s0 ∧ r = .error e⌝⟩⦄ := by
  rw [Txn.triple_iff]
  rintro s rfl
  cases r with
  | ok a => exact ⟨rfl, rfl⟩
  | error e => exact ⟨rfl, rfl⟩

/-- The database takes the value `v` as the parameter `c`: the cell it binds, or nothing for
a value of a kind it cannot bind. -/
def Store.BoundAs (v : Value) (c : Cell) : Prop :=
  bindValue v = .ok c ∨ c = .null ∧ ∃ kind, bindValue v = .error (.unsupported kind)

/-- An integer handed over as a parameter is that integer. -/
theorem Store.BoundAs.int {n : Int} {c : Cell} (h : Store.BoundAs (.int n) c) : c = .int n := by
  rcases h with h | ⟨-, kind, h⟩ <;> simp only [bindValue] at h <;> split at h <;> cases h
  rfl

/-- A parameter is the cell the database takes the value as. -/
@[spec 1100] theorem Txn.param_value (v : Value) :
    ⦃fun s => ⌜s = s0⌝⦄ Txn.param v
      ⦃post⟨fun c s => ⌜s = s0 ∧ Store.BoundAs v c⌝, fun _ s => ⌜s = s0⌝⟩⦄ := by
  rw [Txn.triple_iff]
  rintro s rfl
  cases hb : bindValue v with
  | ok c => simp only [Txn.param, hb]; exact ⟨rfl, .inl hb⟩
  | error f =>
    cases f with
    | unsupported kind => simp only [Txn.param, hb]; exact ⟨rfl, .inr ⟨rfl, kind, hb⟩⟩
    | _ => simp only [Txn.param, hb]; rfl

/-- Reading a column gives what the table reads there. -/
@[spec 1100] theorem Txn.read_value (t : TableId) (r : Row) (column : String) :
    ⦃fun s => ⌜s = s0⌝⦄ Txn.read t r column
      ⦃post⟨fun v s => ⌜s = s0 ∧ t.read r column = .ok v⌝, fun _ s => ⌜s = s0⌝⟩⦄ := by
  rw [Txn.triple_iff]
  rintro s rfl
  cases hr : t.read r column with
  | ok v => simp only [Txn.read, hr]; exact ⟨rfl, rfl⟩
  | error f => cases f; simp only [Txn.read, hr]; rfl

@[spec 1100] theorem Orders.orderField_value (o : Row) (column : String) :
    ⦃fun s => ⌜s = s0⌝⦄ Orders.orderField o column
      ⦃post⟨fun v s => ⌜s = s0 ∧ TableId.orders.read o column = .ok v⌝, fun _ s => ⌜s = s0⌝⟩⦄ := by
  unfold Orders.orderField
  exact Txn.read_value s0 .orders o column

/-- The order a request loads is an open order of the database. -/
@[spec 1100] theorem Orders.loadOrder_value (actor : Access.Actor) (order : Value) :
    ⦃fun s => ⌜s = s0⌝⦄ Orders.loadOrder actor order
      ⦃post⟨fun o s => ⌜s = s0 ∧ o ∈ s0.db.orders ∧ o.isOpen .orders = true⌝,
        fun _ s => ⌜s = s0⌝⟩⦄ := by
  unfold Orders.loadOrder
  mvcgen
  all_goals grind -ring -linarith -lia [List.mem_of_find?_eq_some]

/-- The largest position of a bucket, as the program reads it: the bucket's size, or nothing. -/
theorem Orders.Boards.topSort_value {B : Int → List Int} {db : Db} (h : Orders.Boards B db)
    (b : Int) :
    (Orders.topSort db.orders (.int b)).toValue = if B b = [] then .null else .int (B b).length := by
  rw [(h.lays b).topSort_eq h.keyed]
  split <;> rfl

/-- The position a new order takes is one past the size of its bucket. -/
@[spec 1100] theorem Orders.nextSortValue_value (b : Int) :
    ⦃fun s => ⌜s = s0⌝⦄ Orders.nextSortValue (.int b)
      ⦃post⟨fun v s => ⌜s = s0 ∧ s0.waiting = none ∧
        ∀ B, Orders.Boards B s0.db → v = .int ((B b).length + 1)⌝, fun _ s => ⌜s = s0⌝⟩⦄ := by
  unfold Orders.nextSortValue
  mvcgen
  all_goals grind [Orders.Boards.topSort_value, Store.BoundAs, bindValue]

end Reads

/-! ## Units of work -/

/-- The sweeps after a commit touch the cache alone. -/
theorem Txn.sweepAll_keeps (ws : List Sweep) (d d' : Db) :
    ⦃fun s => ⌜s.db = d ∧ s.settled = d'⌝⦄ Txn.sweepAll ws
      ⦃post⟨fun _ s => ⌜s.db = d ∧ s.settled = d'⌝, fun _ s => ⌜s.db = d ∧ s.settled = d'⌝⟩⦄ := by
  induction ws with
  | nil => mvcgen [Txn.sweepAll]
  | cons w ws ih =>
    cases w <;> mvcgen [Txn.sweepAll, Txn.sweep, Txn.withCache, ih]

section Units

variable {α : Type}

/-- **A quiet unit of work keeps the board.** Rolled back, the session is back at the
committed database, which shows the board; committed, the new database has the seats the
body found, so it shows it too; the sweeps after the commit touch the cache alone. -/
theorem Txn.atomically_kept (body : Txn α)
    (hbody : ∀ s1, ⦃fun s => ⌜Quiet s1 s⌝⦄ body ⦃Quiet.post s1⦄) (s0 : Session) :
    ⦃fun s => ⌜Kept s0 s⌝⦄ Txn.atomically body ⦃Kept.post s0⦄ := by
  rw [Txn.triple_iff]
  intro s hs
  have hstart : Kept s0 { s with waiting := none, sweeps := [] } :=
    fun B hB => ⟨(hs B hB).db, (hs B hB).settled⟩
  have hb := (Txn.triple_iff _ _ _ _).1 (hbody { s with waiting := none, sweeps := [] }) _
    (Quiet.refl _)
  unfold Txn.atomically
  dsimp only
  cases hrun : body { s with waiting := none, sweeps := [] } with
  | error e s' =>
    rw [hrun] at hb
    have hend := hstart.trans (Kept.of_quiet hb)
    exact fun B hB => ⟨(hend B hB).settled, (hend B hB).settled⟩
  | ok a s' =>
    rw [hrun] at hb
    have hend := hstart.trans (Kept.of_quiet hb)
    dsimp only
    cases hwait : s'.waiting with
    | some r => exact fun B hB => ⟨(hend B hB).settled, (hend B hB).settled⟩
    | none =>
      -- committed: the sweeps keep the new database, now also the committed one
      have hw := (Txn.triple_iff _ _ _ _).1 (Txn.sweepAll_keeps s'.sweeps s'.db s'.db)
        { s' with waiting := none, sweeps := [], settled := s'.db } ⟨rfl, rfl⟩
      dsimp only
      cases hsw : Txn.sweepAll s'.sweeps { s' with waiting := none, sweeps := [], settled := s'.db } with
      | ok u s'' =>
        rw [hsw] at hw
        exact fun B hB => ⟨hw.1 ▸ (hend B hB).db, hw.2 ▸ (hend B hB).db⟩
      | error e s'' =>
        rw [hsw] at hw
        exact fun B hB => ⟨hw.1 ▸ (hend B hB).db, hw.2 ▸ (hend B hB).db⟩

/-- A held insert: with no write held before it and none after, the database took the row. -/
theorem Txn.insert_value (t : TableId) (given : List (String × Value)) (s0 : Session) :
    ⦃fun s => ⌜s = s0⌝⦄ Txn.insert t given
      ⦃post⟨fun id s => ⌜Calm s0 s ∧ (s.waiting = none → s0.db.insert t given = .ok (s.db, id))⌝,
        fun _ _ => ⌜False⌝⟩⦄ := by
  unfold Txn.insert
  mvcgen
  case vc1 => grind
  case vc2 => exact ⟨Calm.with_db (‹_ = s0› ▸ Calm.refl _), fun _ => ‹_ = s0› ▸ ‹_›⟩
  case vc3 => exact ⟨Calm.with_pending (‹_ = s0› ▸ Calm.refl _) _ _, fun h => by cases h⟩

/-- A board with one new order appended to the list of a branch. -/
def Appended (B B' : Board) : Prop :=
  ∃ b x, (∀ c, x ∉ B c) ∧ B' = Function.update B b (B b ++ [x])

/-- The insert of a new order, at the position one past its bucket, appends it. -/
@[grind →] theorem Moves.created {B : Board} {s1 s s' : Session} {b id : Int}
    {status user phone imei prio level sort admin : Value}
    (hs1 : Shows B s1) (hq : Quiet s1 s)
    (hsort : ∀ B, Orders.Boards B s.db → sort = .int ((B b).length + 1)) (hc : Calm s s')
    (hi : s.db.insert .orders [("branch_id", .int b), ("status_id", status), ("user_id", user),
      ("phone_category_id", phone), ("imei", imei), ("priority", prio), ("priority_level", level),
      ("sort", sort), ("created_by", admin)] = .ok (s'.db, id)) :
    Moves (Appended B) s1 s' := by
  have hB : Orders.Boards B s.db := (hs1.quiet hq).db
  obtain ⟨hfresh, hB'⟩ := hB.insert hi rfl (by rw [hsort B hB]; rfl) rfl
  exact ⟨hq.calm.trans hc, _, ⟨b, id, hfresh, rfl⟩, hB'⟩

/-- A read of a position column of an order gives the integer it holds. -/
theorem Orders.read_int {o : Row} {c : String} {n : Int}
    (hc : c = "branch_id" ∨ c = "status_id" ∨ c = "sort") (h : o.get c = .int n) :
    TableId.orders.read o c = .ok (.int n) := by
  rcases hc with rfl | rfl | rfl <;> simp [TableId.read, Row.read, h, readCell] <;> rfl

theorem Orders.mutate_kept (actor : Access.Actor) (order : Value) (action : Row → Txn α)
    (haction : ∀ o s1, ⦃fun s => ⌜Quiet s1 s⌝⦄ action o ⦃Quiet.post s1⦄) (s0 : Session) :
    ⦃fun s => ⌜Kept s0 s⌝⦄ Orders.mutate actor order action ⦃Kept.post s0⦄ := by
  unfold Orders.mutate
  mvcgen [Txn.atomically_kept, haction]
  all_goals grind -ring -linarith -lia

/-- Two integers are the same value exactly when they are equal. -/
theorem Json.Value.same_int {a b : Int} : (Value.int a).same (.int b) = decide (a = b) := by
  rw [Bool.eq_iff_iff]
  simp [Value.same, Value.num?, Num.same, Num.compare?]

/-- Where a move leaves the board: with no target position it stays; with target `t` the
order `x` is taken out of its list and put back at position `t`. -/
def MovedTo (x : Int) : Option Nat → Board → Board → Prop
  | none => fun B B' => B' = B
  | some t => fun B B' => ∃ b, x ∈ B b ∧ 1 ≤ t ∧ t ≤ (B b).length ∧
      B' = Function.update B b (Orders.moveTo (B b) x (t - 1))

/-- A board one move away: some order reinserted, or none. -/
def Reinserted (B B' : Board) : Prop := ∃ x t, MovedTo x t B B'

@[grind →] theorem MovedTo.reinserted {x : Int} {t : Option Nat} {B B' : Board}
    (h : MovedTo x t B B') : Reinserted B B' :=
  ⟨x, t, h⟩

section Loaded

variable {B : Board} {s1 s s' : Session} {o : Row}

end Loaded

/-- A board with the order `x` taken out of the list of its branch. -/
def Retired (x : Int) (B B' : Board) : Prop :=
  ∃ b, x ∈ B b ∧ B' = Function.update B b ((B b).erase x)

/-- A board with some order taken out. -/
def Removed (B B' : Board) : Prop := ∃ x, Retired x B B'

@[grind →] theorem Retired.removed {x : Int} {B B' : Board} (h : Retired x B B') : Removed B B' :=
  ⟨x, h⟩

/-- **The soft delete and the gap it closes take the order out of its list.** -/
theorem Moves.retired {B : Board} {s1 su s s' : Session} {o : Row} {branch removed : Value}
    {bc rc : Cell}
    (hdb : Except.ok (s.db.withRows .orders (Orders.closeGap s.db.orders bc rc)) =
      (Except.ok s'.db : Except Refusal Db))
    (hu : su.db.update .orders o.id [("status", .str deletedState), ("is_active", .bool false)] =
      .ok s.db)
    (hq : Quiet s1 su) (hs1 : Shows B s1) (hbc : Store.BoundAs branch bc)
    (hrc : Store.BoundAs removed rc) (ho : o ∈ s1.db.orders) (hopen : o.isOpen .orders = true)
    (hbr : TableId.orders.read o "branch_id" = .ok branch)
    (hrem : TableId.orders.read o "sort" = .ok removed) (hcu : Calm su s) (hc : Calm s s') :
    Moves (Retired o.id B) s1 s' := by
  have hB : Orders.Boards B su.db := (hs1.quiet hq).db
  obtain ⟨b, k, hob, -, hk, hos⟩ := hs1.db.loaded ho hopen
  rw [Orders.read_int (.inl rfl) hob, Except.ok.injEq] at hbr
  rw [Orders.read_int (.inr (.inr rfl)) hos, Except.ok.injEq] at hrem
  subst hbr hrem
  obtain rfl := hbc.int
  obtain rfl := hrc.int
  exact ⟨(hq.calm.trans hcu).trans hc, _, ⟨b, List.mem_of_getElem? hk, rfl⟩,
    (Except.ok.inj hdb) ▸ hB.retire hk hu⟩

@[spec] theorem Orders.updateOrder_kept (actor : Access.Actor) (order : Value) (req : Request.OrderChange)
    (s0 : Session) :
    ⦃fun s => ⌜Kept s0 s⌝⦄ Orders.updateOrder actor order req ⦃Kept.post s0⦄ := by
  unfold Orders.updateOrder
  mvcgen [Orders.mutate_kept]
  all_goals grind -ring -linarith -lia

@[spec] theorem Orders.assignStaff_kept (actor : Access.Actor) (order : Value) (ids : List Nat)
    (s0 : Session) :
    ⦃fun s => ⌜Kept s0 s⌝⦄ Orders.assignStaff actor order ids ⦃Kept.post s0⦄ := by
  unfold Orders.assignStaff
  mvcgen [Orders.mutate_kept]
  all_goals grind -ring -linarith -lia

@[spec] theorem Orders.unassignStaff_kept (actor : Access.Actor) (order : Value) (ids : List Nat)
    (s0 : Session) :
    ⦃fun s => ⌜Kept s0 s⌝⦄ Orders.unassignStaff actor order ids ⦃Kept.post s0⦄ := by
  unfold Orders.unassignStaff
  mvcgen [Orders.mutate_kept]
  all_goals grind -ring -linarith -lia

@[spec] theorem Orders.setProblems_kept (actor : Access.Actor) (side : ProblemSide) (order : Value)
    (lines : List Request.ProblemLine) (s0 : Session) :
    ⦃fun s => ⌜Kept s0 s⌝⦄ Orders.setProblems actor side order lines ⦃Kept.post s0⦄ := by
  unfold Orders.setProblems
  mvcgen [Orders.mutate_kept]
  all_goals grind -ring -linarith -lia

@[spec] theorem Orders.addComment_kept (actor : Access.Actor) (order text : Value) (s0 : Session) :
    ⦃fun s => ⌜Kept s0 s⌝⦄ Orders.addComment actor order text ⦃Kept.post s0⦄ := by
  unfold Orders.addComment
  mvcgen [Orders.mutate_kept]
  all_goals grind -ring -linarith -lia

@[spec] theorem Orders.updateComment_kept (actor : Access.Actor) (order comment text : Value)
    (s0 : Session) :
    ⦃fun s => ⌜Kept s0 s⌝⦄ Orders.updateComment actor order comment text ⦃Kept.post s0⦄ := by
  unfold Orders.updateComment
  mvcgen [Orders.mutate_kept]
  all_goals grind -ring -linarith -lia

@[spec] theorem Orders.removeComment_kept (actor : Access.Actor) (order comment : Value)
    (s0 : Session) :
    ⦃fun s => ⌜Kept s0 s⌝⦄ Orders.removeComment actor order comment ⦃Kept.post s0⦄ := by
  unfold Orders.removeComment
  mvcgen [Orders.mutate_kept]
  all_goals grind -ring -linarith -lia

@[spec] theorem Orders.setPlace_kept (actor : Access.Actor) (kind : PlaceKind) (order : Value)
    (place : Option Request.Place) (s0 : Session) :
    ⦃fun s => ⌜Kept s0 s⌝⦄ Orders.setPlace actor kind order place ⦃Kept.post s0⦄ := by
  unfold Orders.setPlace
  mvcgen [Orders.mutate_kept]
  all_goals grind -ring -linarith -lia

@[spec] theorem Orders.setRental_kept (actor : Access.Actor) (order : Value) (req : Option Request.RentalRequest)
    (s0 : Session) :
    ⦃fun s => ⌜Kept s0 s⌝⦄ Orders.setRental actor order req ⦃Kept.post s0⦄ := by
  unfold Orders.setRental
  mvcgen [Orders.mutate_kept]
  all_goals grind -ring -linarith -lia

@[spec] theorem Orders.openRental_kept (actor : Access.Actor) (order : Value) (req : Request.RentalRequest)
    (s0 : Session) :
    ⦃fun s => ⌜Kept s0 s⌝⦄ Orders.openRental actor order req ⦃Kept.post s0⦄ := by
  unfold Orders.openRental
  mvcgen [Orders.mutate_kept]
  all_goals grind -ring -linarith -lia

@[spec] theorem Orders.changeOrderRental_kept (actor : Access.Actor) (order : Value) (req : Request.RentalRequest)
    (s0 : Session) :
    ⦃fun s => ⌜Kept s0 s⌝⦄ Orders.changeOrderRental actor order req ⦃Kept.post s0⦄ := by
  unfold Orders.changeOrderRental
  mvcgen [Orders.mutate_kept]
  all_goals grind -ring -linarith -lia

@[spec] theorem Orders.closeRental_kept (actor : Access.Actor) (order : Value) (s0 : Session) :
    ⦃fun s => ⌜Kept s0 s⌝⦄ Orders.closeRental actor order ⦃Kept.post s0⦄ := by
  unfold Orders.closeRental
  mvcgen [Orders.mutate_kept]
  all_goals grind -ring -linarith -lia

@[spec] theorem Access.assign_kept (role branch : Int) (statusIds : List Int)
    (capabilities : List (String × Value)) (s0 : Session) :
    ⦃fun s => ⌜Kept s0 s⌝⦄ Access.assign role branch statusIds capabilities ⦃Kept.post s0⦄ := by
  unfold Access.assign
  mvcgen [Txn.atomically_kept, Access.afterCommitAll]
  all_goals grind -ring -linarith -lia

@[spec] theorem Access.revokeRole_kept (role : Value) (s0 : Session) :
    ⦃fun s => ⌜Kept s0 s⌝⦄ Access.revokeRole role ⦃Kept.post s0⦄ := by
  unfold Access.revokeRole
  mvcgen [Txn.atomically_kept, Access.afterCommitAll]
  all_goals grind -ring -linarith -lia

@[spec] theorem Access.revokeBranch_kept (branch : Value) (s0 : Session) :
    ⦃fun s => ⌜Kept s0 s⌝⦄ Access.revokeBranch branch ⦃Kept.post s0⦄ := by
  unfold Access.revokeBranch
  mvcgen [Txn.atomically_kept, Access.afterCommitAll]
  all_goals grind -ring -linarith -lia

@[spec] theorem Access.revokeStatus_kept (status : Value) (s0 : Session) :
    ⦃fun s => ⌜Kept s0 s⌝⦄ Access.revokeStatus status ⦃Kept.post s0⦄ := by
  unfold Access.revokeStatus
  mvcgen [Txn.atomically_kept, Access.afterCommitAll]
  all_goals grind -ring -linarith -lia

@[spec] theorem Status.replaceMoves_kept (fromId : Value) (targets : List Int) (s0 : Session) :
    ⦃fun s => ⌜Kept s0 s⌝⦄ Status.replaceMoves fromId targets ⦃Kept.post s0⦄ := by
  unfold Status.replaceMoves
  mvcgen [Txn.atomically_kept]
  all_goals grind -ring -linarith -lia

end Units

end RepairShop
