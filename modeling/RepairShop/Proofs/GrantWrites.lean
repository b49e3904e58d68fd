import Mathlib
import RepairShop.Access.Assign
import RepairShop.Proofs.BoardSteps
import RepairShop.Proofs.Guarded
import RepairShop.Proofs.ProblemLists
import RepairShop.Proofs.StatusServices

/- Writing grants: each writer touches exactly its rows.

   `Access.assign` replaces the grant rows of one role at some statuses of a branch, after
   checking the capability names, the statuses, the role and the branch; the revocations
   delete every grant row of a role, of a status or of a branch. Rows are matched by their
   keys as the database compares values (`Access.GrantAt`).

   This file proves

   1. that a new grant row is stored at the end of the table, under the next key, with a 0 or
      a 1 for each capability (`Access.insertRow_grant`), and that one row per status, inserted
      where no row stands at those keys, is stored in the order of the statuses
      (`Access.insertGrants_run`);
   2. that an assignment refuses with the first failed check, in the order the service checks
      (`Access.assignRefusal`), changing no row, and that otherwise it commits the grants
      `Access.reassigned`: the rows at the assigned statuses replaced by one new row each, with
      the capabilities the request marks truthy, every other row kept in its place
      (`Access.assign_outcome`);
   3. that each revocation commits the grants less the rows it names and counts them
      (`Access.revokeRole_outcome` and its two siblings);
   4. that a failure after the commit is a fault of the cache store, the rows written;

   and assembles these into the outcome of every grant writer. -/

namespace RepairShop

open Store Json

/-! ## Keys of grant rows -/

/-- Equality with an integer, as the database tests it, does not depend on the side. -/
theorem Store.Cell.sqlEq_int_comm (x : Cell) (n : Int) :
    x.sqlEq (.int n) = (Cell.int n).sqlEq x := by
  cases x with
  | null => rfl
  | int m => simp [eq_comm]
  | real y =>
    simp only [Cell.sqlEq, Cell.isNull, Cell.compare, Cell.rank, Cell.compareNumbers]
    cases Number.compareInt y n with
    | none => rfl
    | some o => cases o <;> rfl
  | text t => rfl

namespace Access

/-- A grant row stands at a branch, a role and a status: its three keys equal them, as the
database compares values. -/
def GrantAt (g : Row) (branch role status : Int) : Bool :=
  g.is .grants "branch_id" (.int branch) && g.is .grants "role_id" (.int role) &&
    g.is .grants "status_id" (.int status)

/-- The cells of a new grant row: its three keys, a 1 for each capability held and a 0 for the
others, and no stamp. -/
def grantCells (branch role status : Int) (held : Capability → Bool) : List (String × Cell) :=
  [("branch_id", .int branch), ("role_id", .int role), ("status_id", .int status)] ++
    Capability.all.map (fun c => (c.name, Cell.int (if held c then 1 else 0))) ++
    [("updated_at", .null)]

/-- What an assignment hands to the insert of the row at one status. -/
abbrev grantGiven (branch role status : Int) (held : Capability → Bool) : List (String × Value) :=
  [("branch_id", .int branch), ("role_id", .int role), ("status_id", .int status)] ++
    Capability.all.map fun c => (c.name, Value.bool (held c))

/-- The capabilities an assignment grants: those the request marks truthy. -/
abbrev heldBy (capabilities : List (String × Value)) (c : Capability) : Bool :=
  ((capabilities.lookup c.name).getD .null).truthy

theorem fitsInt64_flag (b : Bool) : fitsInt64 (if b then 1 else 0) = true := by
  cases b <;> rfl

/-- A new grant row clashes with a row exactly where that row stands at its keys. -/
theorem clashes_grant (x : Row) (id branch role status : Int) (held : Capability → Bool) :
    clashes ["branch_id", "role_id", "status_id"] ⟨id, grantCells branch role status held⟩ x =
      GrantAt x branch role status := by
  have hb : (⟨id, grantCells branch role status held⟩ : Row).get "branch_id" = .int branch := rfl
  have hr : (⟨id, grantCells branch role status held⟩ : Row).get "role_id" = .int role := rfl
  have hs : (⟨id, grantCells branch role status held⟩ : Row).get "status_id" = .int status := rfl
  simp only [clashes, List.all_cons, List.all_nil, Bool.and_true, hb, hr, hs,
    ← Cell.sqlEq_int_comm]
  rw [← Bool.and_assoc]
  rfl

/-- A new grant row stands at its own keys only. -/
@[simp] theorem grantAt_grantCells (id branch role status : Int) (held : Capability → Bool)
    (b r s : Int) :
    GrantAt ⟨id, grantCells branch role status held⟩ b r s =
      (decide (branch = b) && decide (role = r) && decide (status = s)) := by
  have hb : (⟨id, grantCells branch role status held⟩ : Row).get "branch_id" = .int branch := rfl
  have hr : (⟨id, grantCells branch role status held⟩ : Row).get "role_id" = .int role := rfl
  have hs : (⟨id, grantCells branch role status held⟩ : Row).get "status_id" = .int status := rfl
  simp only [GrantAt, @Orders.Row.is_int .grants "branch_id" _ _ rfl hb,
    @Orders.Row.is_int .grants "role_id" _ _ rfl hr, @Orders.Row.is_int .grants "status_id" _ _ rfl hs]

/-- A new grant row stores a 1 under each capability held and a 0 under the others. -/
theorem grantCells_get (id branch role status : Int) (held : Capability → Bool) (c : Capability) :
    (⟨id, grantCells branch role status held⟩ : Row).get c.name = .int (if held c then 1 else 0) := by
  cases c <;> rfl

/-- A new grant row holds exactly the capabilities it was given. -/
@[simp] theorem grantCapabilities_grantCells (id branch role status : Int)
    (held : Capability → Bool) :
    grantCapabilities ⟨id, grantCells branch role status held⟩ = Capability.all.filter held := by
  unfold grantCapabilities
  refine List.filter_congr fun c _ => ?_
  rw [grantCells_get]
  cases held c <;> rfl

/-- Inserting the row at one status where no row stands at its keys stores it at the end of
the table, under the next key. -/
theorem insertRow_grant {t : Table} {branch role status : Int} (held : Capability → Bool)
    (hb : fitsInt64 branch = true) (hr : fitsInt64 role = true) (hs : fitsInt64 status = true)
    (hfree : ∀ g ∈ t, GrantAt g branch role status = false) :
    insertRow TableId.grants.schema t (grantGiven branch role status held) =
      .ok (t ++ [⟨nextId t, grantCells branch role status held⟩], nextId t) := by
  -- the values handed over: the three keys, then each capability's flag as 0 or 1
  have hvals : insertValues TableId.grants.schema (grantGiven branch role status held) =
      [(intCol "branch_id", .int branch), (intCol "role_id", .int role),
        (intCol "status_id", .int status)] ++
        Capability.all.map (fun c => (flagCol c.name false true, .bool (held c))) := rfl
  have hpass : passAll ([(intCol "branch_id", .int branch), (intCol "role_id", .int role),
        (intCol "status_id", .int status)] ++
        Capability.all.map (fun c => (flagCol c.name false true, .bool (held c)))) =
      .ok ([(intCol "branch_id", .int branch), (intCol "role_id", .int role),
        (intCol "status_id", .int status)] ++
        Capability.all.map (fun c => (flagCol c.name false true, .int (if held c then 1 else 0)))) :=
    rfl
  have hstore : storeAll 1 ([(intCol "branch_id", .int branch), (intCol "role_id", .int role),
        (intCol "status_id", .int status)] ++
        Capability.all.map (fun c => (flagCol c.name false true, .int (if held c then 1 else 0)))) =
      .ok ([("branch_id", .int branch), ("role_id", .int role), ("status_id", .int status)] ++
        Capability.all.map (fun c => (c.name, Cell.int (if held c then 1 else 0)))) := by
    simp only [List.cons_append, List.nil_append, Capability.all, List.map, storeAll, storeValue,
      bindValue, hb, hr, hs, fitsInt64_flag, if_true]
    rfl
  have hcells : TableId.grants.schema.columns.map (fun c => (c.name,
      (([("branch_id", Cell.int branch), ("role_id", Cell.int role), ("status_id", Cell.int status)] ++
        Capability.all.map (fun c => (c.name, Cell.int (if held c then 1 else 0)))).lookup
          c.name).getD .null)) =
      grantCells branch role status held := rfl
  -- no required column is empty, and no row stands at the new row's keys
  have hcheck : checkRow TableId.grants.schema t ⟨nextId t, grantCells branch role status held⟩ =
      .ok () := by
    have hmiss : missingRequired TableId.grants.schema (grantCells branch role status held) = none :=
      rfl
    have hany : t.any (clashes ["branch_id", "role_id", "status_id"]
        ⟨nextId t, grantCells branch role status held⟩) = false := by
      rw [List.any_eq_false]
      intro x hx
      rw [clashes_grant, hfree x hx]
      simp
    have huniq : brokenUnique TableId.grants.schema t
        ⟨nextId t, grantCells branch role status held⟩ = none := by
      simp only [brokenUnique, TableId.schema, List.find?_cons, hany, List.find?_nil]
    simp only [checkRow, hmiss, huniq]
    rfl
  simp only [insertRow, hvals, hpass, hstore, bind, Except.bind]
  rw [hcells, hcheck, placeRow_of_lt (fun r hr => lt_nextId hr)]
  rfl

/-- The key after the last one is one above it. -/
theorem nextId_append_next (t : Table) (cells : List (String × Cell)) :
    nextId (t ++ [⟨nextId t, cells⟩]) = nextId t + 1 := by
  simp only [nextId, List.foldl_append, List.foldl_cons, List.foldl_nil]
  omega

/-- Inserting the row at one status where no row stands at its keys. -/
theorem Db.insert_grant {db : Db} {branch role status : Int} (held : Capability → Bool)
    (hb : fitsInt64 branch = true) (hr : fitsInt64 role = true) (hs : fitsInt64 status = true)
    (hfree : ∀ g ∈ db.grants, GrantAt g branch role status = false) :
    db.insert .grants (grantGiven branch role status held) =
      .ok (db.withRows .grants (db.grants ++ [⟨nextId db.grants, grantCells branch role status held⟩]),
        nextId db.grants) := by
  unfold Store.Db.insert
  rw [show db.rows .grants = db.grants from rfl, insertRow_grant held hb hr hs hfree]

end Access

/-! ## Runs of the steps of a unit of work -/

/-- The result of a request that refused with `e`, the database as `db`. -/
def Refuses {α : Type} (r : EStateM.Result Failure Session α) (db : Db) (e : Failure) : Prop :=
  ∃ s', r = .error e s' ∧ s'.db = db

/-- The result of a request that committed `db`: its answer `a`, or a fault of a cache sweep
run after the commit. -/
def Commits {α : Type} (r : EStateM.Result Failure Session α) (db : Db) (a : α) : Prop :=
  ∃ s', s'.db = db ∧ (r = .ok a s' ∨ ∃ e, e.IsFault ∧ r = .error e s')

theorem Store.Db.withRows_rows (db : Db) (t : TableId) : db.withRows t (db.rows t) = db := by
  cases t <;> rfl

theorem Store.Db.withRows_withRows (db : Db) (t : TableId) (rows rows' : Table) :
    (db.withRows t rows).withRows t rows' = db.withRows t rows' := by
  cases t <;> rfl

namespace Txn

variable {s : Session}

/-- Handing over integers stops at the first one beyond 64 bits. -/
theorem params_too_large_run :
    ∀ {xs : List Int}, (∃ x ∈ xs, fitsInt64 x = false) →
      Txn.params (xs.map .int) s = .error (.fault .tooLargeForStore) s
  | [], ⟨_, hx, _⟩ => absurd hx List.not_mem_nil
  | x :: xs, ⟨y, hy, hfit⟩ => by
    unfold Txn.params
    rw [List.map_cons, List.mapM_cons]
    cases hx : fitsInt64 x with
    | false => exact Txn.bind_of_fail (Txn.param_too_large hx)
    | true =>
      have hrest : ∃ z ∈ xs, fitsInt64 z = false := by
        rcases List.mem_cons.1 hy with rfl | hy
        · rw [hx] at hfit; cases hfit
        · exact ⟨y, hy, hfit⟩
      have hp : bindValue (.int x) = .ok (.int x) := by simp [bindValue, hx]
      rw [Txn.bind_of_run (Txn.param_run hp)]
      exact Txn.bind_of_fail (params_too_large_run hrest)

theorem delete_run (t : TableId) (p : Row → Bool) :
    Txn.delete t p s = .ok () { s with db := s.db.delete t p } := rfl

theorem insert_run {t : TableId} {given : List (String × Value)} {db : Db} {id : Int}
    (hw : s.waiting = none) (h : s.db.insert t given = .ok (db, id)) :
    Txn.insert t given s = .ok id { s with db } := by
  simp only [Txn.insert, bind, EStateM.bind, get, getThe, MonadStateOf.get, EStateM.get, hw, h,
    Option.isSome_none, Bool.false_eq_true, if_false]
  rfl

theorem afterCommitAll_run (ws : List Sweep) :
    Access.afterCommitAll ws s = .ok () { s with sweeps := s.sweeps ++ ws } := by
  induction ws generalizing s with
  | nil => simp only [Access.afterCommitAll, List.forM, List.append_nil]; rfl
  | cons w ws ih =>
    unfold Access.afterCommitAll at ih ⊢
    have hw : Txn.afterCommit w s = .ok () { s with sweeps := s.sweeps ++ [w] } := rfl
    simp only [List.forM]
    rw [Txn.bind_of_ok hw, ih]
    simp

/-- The sweeps after a commit leave the database, and fail only with faults. -/
theorem sweepAll_run (ws : List Sweep) (s : Session) :
    match Txn.sweepAll ws s with
    | .ok _ s' => s'.db = s.db
    | .error e s' => s'.db = s.db ∧ e.IsFault := by
  have hkeep := (Txn.triple_iff _ _ _ _).1 (Txn.sweepAll_keeps ws s.db s.settled) s ⟨rfl, rfl⟩
  have hfault := (Txn.triple_iff _ _ _ _).1 (Txn.sweepAll_faults ws) s trivial
  revert hkeep hfault
  cases Txn.sweepAll ws s with
  | ok _ s' => exact fun hkeep _ => hkeep.1
  | error e s' => exact fun hkeep hfault => ⟨hkeep.1, hfault⟩

/-- A unit of work whose body fails is rolled back to what was last committed. -/
theorem atomically_of_error {α : Type} {body : Txn α} {e : Failure} {s' : Session}
    (h : body { s with waiting := none, sweeps := [] } = .error e s') :
    Txn.atomically body s = .error e { s' with db := s'.settled, waiting := none, sweeps := [] } := by
  simp only [Txn.atomically, h]

/-- A unit of work whose body succeeds with no write held commits what the body wrote. -/
theorem atomically_of_ok {α : Type} {body : Txn α} {a : α} {s' : Session}
    (h : body { s with waiting := none, sweeps := [] } = .ok a s') (hw : s'.waiting = none) :
    Commits (Txn.atomically body s) s'.db a := by
  have hsw := sweepAll_run s'.sweeps { s' with sweeps := [], settled := s'.db }
  simp only [Txn.atomically, h, hw]
  simp only [hw] at hsw
  split
  · next s'' hr => rw [hr] at hsw; exact ⟨s'', hsw, .inl rfl⟩
  · next e s'' hr => rw [hr] at hsw; exact ⟨s'', hsw.1, .inr ⟨e, hsw.2, rfl⟩⟩

end Txn

namespace Access

/-! ## One new row per status -/

/-- The rows an assignment inserts: one per status, in order, under consecutive keys from
`next`. -/
def newGrants (branch role : Int) (held : Capability → Bool) : Int → List Int → Table
  | _, [] => []
  | next, status :: rest =>
    ⟨next, grantCells branch role status held⟩ :: newGrants branch role held (next + 1) rest

/-- Inserting one row per status, the statuses distinct and no row standing at their keys,
stores the rows in the order of the statuses, under consecutive keys. Induction on the
statuses: each insert leaves the next status free, since the new row stands at its own
status only. -/
theorem insertGrants_run {branch role : Int} (held : Capability → Bool)
    (hb : fitsInt64 branch = true) (hr : fitsInt64 role = true) :
    ∀ (statuses : List Int) (s : Session), s.waiting = none → statuses.Nodup →
      (∀ x ∈ statuses, fitsInt64 x = true) →
      (∀ g ∈ s.db.grants, ∀ x ∈ statuses, GrantAt g branch role x = false) →
      statuses.mapM (fun x => Txn.insert .grants (grantGiven branch role x held)) s =
        .ok ((newGrants branch role held (nextId s.db.grants) statuses).map (·.id))
          { s with
            db := s.db.withRows .grants (s.db.grants ++ newGrants branch role held (nextId s.db.grants) statuses) }
  | [], s, _, _, _, _ => by
    simp only [List.mapM_nil, newGrants, List.map_nil, List.append_nil]
    rw [show s.db.grants = s.db.rows .grants from rfl, Store.Db.withRows_rows]
    rfl
  | x :: xs, s, hw, hnd, hfit, hfree => by
    have hx := hfit x List.mem_cons_self
    have hins := Txn.insert_run hw
      (Db.insert_grant held hb hr hx fun g hg => hfree g hg x List.mem_cons_self)
    set row : Row := ⟨nextId s.db.grants, grantCells branch role x held⟩
    -- after the insert, no row stands at the keys of a later status
    have hfree' : ∀ g ∈ s.db.grants ++ [row], ∀ y ∈ xs, GrantAt g branch role y = false := by
      intro g hg y hy
      rcases List.mem_append.1 hg with hg | hg
      · exact hfree g hg y (List.mem_cons_of_mem x hy)
      · rw [List.mem_singleton.1 hg]
        have hxy : x ≠ y := fun h => (List.nodup_cons.1 hnd).1 (h ▸ hy)
        simp [row, hxy]
    have hrest := insertGrants_run held hb hr xs
      { s with db := s.db.withRows .grants (s.db.grants ++ [row]) } hw (List.nodup_cons.1 hnd).2
      (fun y hy => hfit y (List.mem_cons_of_mem x hy)) hfree'
    have hnext : nextId (s.db.grants ++ [row]) = nextId s.db.grants + 1 := nextId_append_next _ _
    rw [List.mapM_cons, Txn.bind_of_ok hins, Txn.bind_of_ok hrest]
    simp only [Store.Db.withRows_withRows, show (s.db.withRows .grants (s.db.grants ++ [row])).grants =
      s.db.grants ++ [row] from Store.Db.rows_withRows_self _ .grants _, hnext,
      newGrants, List.map_cons, List.append_assoc, List.singleton_append]
    rfl

/-! ## The checks, as lists -/

theorem insertText_perm (s : String) : ∀ l : List String, (Board.insertText s l).Perm (s :: l)
  | [] => .refl _
  | t :: ts => by
    unfold Board.insertText
    split
    · exact .refl _
    · exact ((insertText_perm s ts).cons t).trans (.swap s t ts)

theorem insertText_sorted (s : String) :
    ∀ {l : List String}, l.Pairwise (· ≤ ·) → (Board.insertText s l).Pairwise (· ≤ ·)
  | [], _ => List.pairwise_singleton _ _
  | t :: ts, h => by
    have hts := List.pairwise_cons.1 h
    unfold Board.insertText
    split
    · next hlt =>
      refine List.pairwise_cons.2 ⟨fun u hu => ?_, h⟩
      rcases List.mem_cons.1 hu with rfl | hu
      · exact le_of_lt hlt
      · exact (le_of_lt hlt).trans (hts.1 u hu)
    · next hlt =>
      refine List.pairwise_cons.2 ⟨fun u hu => ?_, insertText_sorted s hts.2⟩
      rcases List.mem_cons.1 ((insertText_perm s ts).mem_iff.1 hu) with rfl | hu
      · exact not_lt.1 hlt
      · exact hts.1 u hu

/-- Inserting texts one by one into a sorted list keeps it sorted and keeps every text. -/
theorem foldl_insertText :
    ∀ (xs acc : List String), acc.Pairwise (· ≤ ·) →
      (xs.foldl (fun acc s => Board.insertText s acc) acc).Pairwise (· ≤ ·) ∧
        (xs.foldl (fun acc s => Board.insertText s acc) acc).Perm (acc ++ xs)
  | [], acc, h => ⟨h, by simp⟩
  | x :: xs, acc, h => by
    obtain ⟨hsorted, hperm⟩ := foldl_insertText xs (Board.insertText x acc) (insertText_sorted x h)
    exact ⟨hsorted, hperm.trans (((insertText_perm x acc).append_right xs).trans List.perm_middle.symm)⟩

/-- The texts the service sorts come out as the standard sort puts them. -/
theorem sortTexts_eq_mergeSort (xs : List String) : Board.sortTexts xs = xs.mergeSort := by
  obtain ⟨hsorted, hperm⟩ := foldl_insertText xs [] List.Pairwise.nil
  exact List.Perm.eq_of_sortedLE hsorted.sortedLE List.sortedLE_mergeSort
    (hperm.trans (List.mergeSort_perm xs _).symm)

/-- Keeping the first occurrence of each key is erasing the later duplicates. -/
theorem firstOccurrences_eq_eraseDups {α : Type} [BEq α] [LawfulBEq α] (xs : List α) :
    firstOccurrences xs = xs.eraseDups := by
  -- the keys kept so far, then the first occurrences of the keys not yet kept
  have key : ∀ (ys acc : List α),
      ys.foldl (fun acc i => if acc.contains i then acc else acc ++ [i]) acc =
        acc ++ (ys.filter fun y => !acc.contains y).eraseDups := by
    intro ys
    induction ys with
    | nil => simp
    | cons y ys ih =>
      intro acc
      by_cases hy : acc.contains y
      · rw [List.foldl_cons, if_pos hy, ih, List.filter_cons_of_neg (by simpa using hy)]
      · simp only [List.foldl_cons, hy, Bool.false_eq_true, if_false, ih, List.filter_cons,
          Bool.not_false, if_true, List.eraseDups_cons, List.filter_filter, List.append_assoc,
          List.singleton_append]
        congr 3
        refine List.filter_congr fun z _ => ?_
        simp only [List.contains_append, List.contains_cons, List.contains_nil, Bool.or_false,
          Bool.not_or]
        rw [Bool.and_comm]
  simpa [firstOccurrences] using key xs []

theorem ofName?_isNone_iff (c : String) :
    (Capability.ofName? c).isNone = true ↔ c ∉ Capability.all.map Capability.name := by
  simp only [Capability.ofName?, Option.isNone_iff_eq_none, List.find?_eq_none, beq_iff_eq,
    List.mem_map, not_exists, not_and]

/-! ## What an assignment decides -/

/-- The role is open under its key. -/
def RoleOpen (db : Db) (role : Int) : Bool :=
  db.roles.any fun r => r.id == role && r.isOpen .roles

/-- The status is an open status of the branch. -/
def StatusOpenIn (db : Db) (branch status : Int) : Bool :=
  db.statuses.any fun st =>
    st.id == status && st.is .statuses "branch_id" (.int branch) && st.isOpen .statuses

/-- The names a request marks that name no capability. -/
def unknownNames (capabilities : List (String × Value)) : List String :=
  (capabilities.map (·.1)).filter fun c => decide (c ∉ Capability.all.map Capability.name)

/-- The refusals an assignment makes before it looks at the database: unknown capability
names, sorted, then an empty list of statuses. -/
def requestRefusal (statusIds : List Int) (capabilities : List (String × Value)) :
    Option Failure :=
  if unknownNames capabilities ≠ [] then
    some (badRequest "Unknown capabilities" (some "capabilities")
      [("invalid", .arr ((unknownNames capabilities).mergeSort.map .str))])
  else if statusIds.eraseDups = [] then some (badRequest "status_ids required" (some "status_ids"))
  else none

/-- The refusals an assignment makes against the database: the role, which must be open, then
the statuses, each of which must be an open status of the branch, listed in the order given.
Keys beyond 64 bits fail as the database receives them: the role's before the role is looked
up, the statuses' and the branch's before the statuses are. -/
def storedRefusal (db : Db) (role branch : Int) (statuses : List Int) : Option Failure :=
  let invalid := statuses.filter fun x => !StatusOpenIn db branch x
  if fitsInt64 role = false then some (.fault .tooLargeForStore)
  else if RoleOpen db role = false then
    some (badRequest "Role not found or deleted" (some "role_id"))
  else if (statuses.all fitsInt64 && fitsInt64 branch) = false then
    some (.fault .tooLargeForStore)
  else if invalid ≠ [] then
    some (badRequest "Some statuses not found or not assigned to the specified branch"
      (some "status_ids") [("invalid_ids", .arr (invalid.map .int))])
  else none

/-- The first check an assignment fails, in the order the service checks, or `none` when it
commits. -/
def assignRefusal (db : Db) (role branch : Int) (statusIds : List Int)
    (capabilities : List (String × Value)) : Option Failure :=
  (requestRefusal statusIds capabilities).or (storedRefusal db role branch statusIds.eraseDups)

/-- The grant rows an assignment keeps: those at no assigned key. -/
def keptGrants (grants : Table) (role branch : Int) (statuses : List Int) : Table :=
  grants.filter fun g => !statuses.any (GrantAt g branch role)

/-- The grants once an assignment commits: the rows at other keys kept in place, then one new
row per status, in the order of the statuses, under the keys after the kept rows'. -/
def reassigned (grants : Table) (role branch : Int) (statuses : List Int)
    (held : Capability → Bool) : Table :=
  keptGrants grants role branch statuses ++
    newGrants branch role held (nextId (keptGrants grants role branch statuses)) statuses

/-- The keys of the rows an assignment adds, in the order of the statuses. -/
def reassignedKeys (grants : Table) (role branch : Int) (statuses : List Int)
    (held : Capability → Bool) : List Int :=
  (newGrants branch role held (nextId (keptGrants grants role branch statuses)) statuses).map
    (·.id)

/-- What the unit of work of an assignment does from a state with no write held: refuse with
the first failed check against the database, or write the reassigned grants and register the
sweeps of the branch. -/
def assignEffect (role branch : Int) (statuses : List Int) (held : Capability → Bool) :
    Txn (List Int) := fun st =>
  match storedRefusal st.db role branch statuses with
  | some e => .error e st
  | none =>
    .ok (reassignedKeys st.db.grants role branch statuses held)
      { st with
        db := st.db.withRows .grants (reassigned st.db.grants role branch statuses held)
        sweeps := st.sweeps ++ retireBranch (.int branch) }

/-! ## The checks of the service, read as the reference -/

theorem unknown_eq_unknownNames (capabilities : List (String × Value)) :
    ((capabilities.map (·.1)).filter fun c => (Capability.ofName? c).isNone) =
      unknownNames capabilities :=
  List.filter_congr fun c _ => by rw [Bool.eq_iff_iff, ofName?_isNone_iff, decide_eq_true_iff]

/-- The role lookup, on a key the database receives. -/
theorem roleLookup_eq (db : Db) (role : Int) :
    (db.roles.any fun r => r.is .roles "id" (.int role) && r.isOpen .roles) = RoleOpen db role :=
  List.any_congr rfl fun r => by
    rw [@Orders.Row.is_int .roles "id" r r.id rfl rfl role]
    rfl

/-- The statuses the service finds wanting, on keys the database receives. -/
theorem statusLookup_eq (db : Db) (branch : Int) (statuses : List Int) :
    statuses.filter (fun x => !(db.statuses.filter fun st =>
        st.isAny .statuses "id" (statuses.map .int) && st.is .statuses "branch_id" (.int branch) &&
          st.isOpen .statuses).any (·.id == x)) =
      statuses.filter fun x => !StatusOpenIn db branch x := by
  refine List.filter_congr fun x hx => ?_
  rw [List.any_filter, StatusOpenIn]
  congr 1
  refine List.any_congr rfl fun st => ?_
  -- a status under the key `x` is among those asked for
  by_cases hst : st.id = x
  · have hin : st.isAny .statuses "id" (statuses.map .int) = true := by
      rw [Row.isAny, List.any_map, List.any_eq_true]
      exact ⟨x, hx, by simp [@Orders.Row.is_int .statuses "id" st st.id rfl rfl, hst]⟩
    simp [hin, hst]
  · have hne : (st.id == x) = false := by simpa using hst
    simp [hne]

/-- The rows the service deletes are those at an assigned key. -/
theorem grantKeys_any (g : Row) (branch role : Int) (statuses : List Int) :
    (g.is .grants "branch_id" (.int branch) && g.is .grants "role_id" (.int role) &&
      g.isAny .grants "status_id" (statuses.map .int)) = statuses.any (GrantAt g branch role) := by
  have hat : GrantAt g branch role = fun x => g.is .grants "branch_id" (.int branch) &&
      g.is .grants "role_id" (.int role) && g.is .grants "status_id" (.int x) := rfl
  rw [hat, Row.isAny, List.any_map]
  cases g.is .grants "branch_id" (.int branch) <;> cases g.is .grants "role_id" (.int role) <;>
    simp [Function.comp_def]

theorem nodup_eraseDups {α : Type} [BEq α] [LawfulBEq α] : ∀ l : List α, l.eraseDups.Nodup
  | [] => List.nodup_nil
  | a :: as => by
    rw [List.eraseDups_cons]
    refine List.nodup_cons.2 ⟨fun h => ?_, nodup_eraseDups _⟩
    simpa using (List.mem_filter.1 (List.mem_eraseDups.1 h)).2
termination_by l => l.length
decreasing_by exact Nat.lt_succ_of_le (List.length_filter_le _ _)

/-- A unit of work depends only on what its body does from states with no write held. -/
theorem Txn.atomically_congr {α : Type} {body body' : Txn α} {s : Session}
    (h : ∀ st : Session, st.waiting = none → body st = body' st) :
    Txn.atomically body s = Txn.atomically body' s := by
  simp only [Txn.atomically, h { s with waiting := none, sweeps := [] } rfl]

/-- Deleting the rows at the assigned keys and inserting one row per status writes the
reassigned grants. -/
theorem replaceGrants_run {β : Type} {st : Session} {branch role : Int} {statuses : List Int}
    (held : Capability → Bool) (f : List Int → Txn β) (hw : st.waiting = none)
    (hb : fitsInt64 branch = true) (hr : fitsInt64 role = true)
    (hfit : ∀ x ∈ statuses, fitsInt64 x = true) (hnd : statuses.Nodup) :
    (Txn.delete .grants (fun g => g.is .grants "branch_id" (.int branch) &&
        g.is .grants "role_id" (.int role) && g.isAny .grants "status_id" (statuses.map .int)) >>=
      fun _ => statuses.mapM (fun x => Txn.insert .grants (grantGiven branch role x held)) >>= f) st =
      f (reassignedKeys st.db.grants role branch statuses held)
        { st with db := st.db.withRows .grants (reassigned st.db.grants role branch statuses held) } := by
  have hkept : (st.db.delete .grants fun g => g.is .grants "branch_id" (.int branch) &&
      g.is .grants "role_id" (.int role) && g.isAny .grants "status_id" (statuses.map .int)).grants =
      keptGrants st.db.grants role branch statuses :=
    List.filter_congr fun g _ => by simp only [grantKeys_any]
  -- no kept row stands at an assigned key
  have hfree : ∀ g ∈ keptGrants st.db.grants role branch statuses, ∀ x ∈ statuses,
      GrantAt g branch role x = false := by
    intro g hg x hx
    have hnone := (List.mem_filter.1 hg).2
    rw [Bool.not_eq_true', List.any_eq_false] at hnone
    simpa using hnone x hx
  rw [Txn.bind_of_ok (Txn.delete_run _ _)]
  refine (Txn.bind_of_ok (insertGrants_run held hb hr statuses
    { st with db := st.db.delete .grants _ } hw hnd hfit ?_)).trans ?_
  · rw [hkept]; exact hfree
  · dsimp only
    rw [hkept]
    simp only [Store.Db.delete, Store.Db.withRows_withRows]
    rfl

/-- An assignment refuses a bad request at once; otherwise its unit of work does
`assignEffect`. -/
theorem assign_run (s : Session) (role branch : Int) (statusIds : List Int)
    (capabilities : List (String × Value)) :
    assign role branch statusIds capabilities s =
      match requestRefusal statusIds capabilities with
      | some e => .error e s
      | none => Txn.atomically
          (assignEffect role branch statusIds.eraseDups (heldBy capabilities)) s := by
  unfold assign requestRefusal
  simp only [unknown_eq_unknownNames, sortTexts_eq_mergeSort, firstOccurrences_eq_eraseDups]
  by_cases hu : unknownNames capabilities = []
  swap
  · simp only [hu, List.isEmpty_eq_false_iff.2 hu, ne_eq, not_false_eq_true, Bool.not_false,
      if_true]
    rfl
  by_cases he : statusIds.eraseDups = []
  · simp only [hu, he, List.isEmpty_nil, Bool.not_true, Bool.false_eq_true, if_false, ne_eq,
      not_true_eq_false, if_true]
    rfl
  simp only [hu, List.isEmpty_nil, Bool.not_true, Bool.false_eq_true, if_false, ne_eq,
    not_true_eq_false, he, List.isEmpty_eq_false_iff.2 he]
  refine Txn.atomically_congr fun st hw => ?_
  -- the unit of work, check by check
  unfold assignEffect storedRefusal
  cases hrole : fitsInt64 role with
  | false =>
    simp only [if_true]
    exact Txn.bind_of_fail (Txn.param_too_large hrole)
  | true =>
  have hprole : bindValue (.int role) = .ok (.int role) := by simp [bindValue, hrole]
  simp only [Txn.bind_of_run (Txn.param_run hprole), Txn.bind_of_run Txn.query_run, roleLookup_eq]
  cases hopen : RoleOpen st.db role with
  | false =>
    simp only [Bool.false_eq_true, if_false, if_true]
    rfl
  | true =>
  simp only [if_true, Bool.true_eq_false, if_false]
  cases hall : statusIds.eraseDups.all fitsInt64 with
  | false =>
    obtain ⟨x, hx, hxfit⟩ : ∃ x ∈ statusIds.eraseDups, fitsInt64 x = false := by simpa using hall
    simp only [Bool.false_and, if_true]
    exact Txn.bind_of_fail (Txn.params_too_large_run ⟨x, hx, hxfit⟩)
  | true =>
  have hparams : Txn.params (statusIds.eraseDups.map .int) st =
      .ok (statusIds.eraseDups.map .int) st := by
    simpa using Orders.params_ints id (List.all_eq_true.1 hall)
  cases hbr : fitsInt64 branch with
  | false =>
    simp only [Bool.and_false, if_true]
    rw [Txn.bind_of_run hparams]
    exact Txn.bind_of_fail (Txn.param_too_large hbr)
  | true =>
  have hpbranch : bindValue (.int branch) = .ok (.int branch) := by simp [bindValue, hbr]
  simp only [Bool.and_self, Bool.true_eq_false, if_false, Txn.bind_of_run hparams,
    Txn.bind_of_run (Txn.param_run hpbranch), Txn.bind_of_run Txn.query_run, statusLookup_eq]
  by_cases hinv : statusIds.eraseDups.filter (fun x => !StatusOpenIn st.db branch x) = []
  · simp only [hinv, List.isEmpty_nil, Bool.not_true, Bool.false_eq_true, if_false, ne_eq,
      not_true_eq_false]
    rw [replaceGrants_run (heldBy capabilities) _ hw hbr hrole
      (fun x hx => List.all_eq_true.1 hall x hx) (nodup_eraseDups _)]
    rw [Txn.bind_of_ok (Txn.afterCommitAll_run _)]
    rfl
  · simp only [List.isEmpty_eq_false_iff.2 hinv, Bool.not_false, if_true, ne_eq, hinv,
      not_false_eq_true]
    rfl

/-- An assignment refuses with the first check it fails, the database left as last committed;
otherwise it commits the reassigned grants and answers the keys of the new rows. -/
theorem assign_outcome (s : Session) (hs : s.settled = s.db) (role branch : Int)
    (statusIds : List Int) (capabilities : List (String × Value)) :
    match assignRefusal s.db role branch statusIds capabilities with
    | some e => Refuses (assign role branch statusIds capabilities s) s.db e
    | none => Commits (assign role branch statusIds capabilities s)
        (s.db.withRows .grants
          (reassigned s.db.grants role branch statusIds.eraseDups (heldBy capabilities)))
        (reassignedKeys s.db.grants role branch statusIds.eraseDups (heldBy capabilities)) := by
  rw [assign_run]
  unfold assignRefusal
  cases hreq : requestRefusal statusIds capabilities with
  | some e => exact ⟨s, rfl, rfl⟩
  | none =>
    simp only [Option.none_or]
    cases hstored : storedRefusal s.db role branch statusIds.eraseDups with
    | some e =>
      have hbody : assignEffect role branch statusIds.eraseDups (heldBy capabilities)
          { s with waiting := none, sweeps := [] } = .error e { s with waiting := none, sweeps := [] } := by
        simp only [assignEffect, hstored]
      exact ⟨_, Txn.atomically_of_error hbody, hs⟩
    | none =>
      have hbody : assignEffect role branch statusIds.eraseDups (heldBy capabilities)
          { s with waiting := none, sweeps := [] } =
          .ok (reassignedKeys s.db.grants role branch statusIds.eraseDups (heldBy capabilities))
            { s with
              db := s.db.withRows .grants
                (reassigned s.db.grants role branch statusIds.eraseDups (heldBy capabilities))
              waiting := none
              sweeps := retireBranch (.int branch) } := by
        simp only [assignEffect, hstored]
        rfl
      exact Txn.atomically_of_ok hbody rfl

/-! ## The rows an assignment leaves -/

section Reassigned

variable {branch role : Int} {held : Capability → Bool}

/-- The new rows stand at their statuses: none at a status not assigned. -/
theorem newGrants_not_at {x : Int} :
    ∀ {next : Int} {statuses : List Int}, x ∉ statuses →
      (newGrants branch role held next statuses).filter (GrantAt · branch role x) = []
  | _, [], _ => rfl
  | next, y :: ys, hx => by
    have hyx : y ≠ x := fun h => hx (h ▸ List.mem_cons_self)
    rw [newGrants, List.filter_cons_of_neg (by simp [hyx])]
    exact newGrants_not_at fun h => hx (List.mem_cons_of_mem y h)

/-- One new row stands at each assigned status, when the statuses are distinct. -/
theorem newGrants_at {x : Int} :
    ∀ {next : Int} {statuses : List Int}, statuses.Nodup → x ∈ statuses →
      ∃ k, (newGrants branch role held next statuses).filter (GrantAt · branch role x) =
        [⟨k, grantCells branch role x held⟩]
  | _, [], _, hx => absurd hx List.not_mem_nil
  | next, y :: ys, hnd, hx => by
    obtain ⟨hy, hys⟩ := List.nodup_cons.1 hnd
    rw [newGrants]
    by_cases hyx : y = x
    · subst hyx
      exact ⟨next, by rw [List.filter_cons_of_pos (by simp), newGrants_not_at hy]⟩
    · rw [List.filter_cons_of_neg (by simp [hyx])]
      exact newGrants_at hys ((List.mem_cons.1 hx).resolve_left (Ne.symm hyx))

/-- Every new row stands at an assigned status. -/
theorem newGrants_assigned :
    ∀ {next : Int} {statuses : List Int}, ∀ g ∈ newGrants branch role held next statuses,
      statuses.any (GrantAt g branch role) = true
  | _, [], _, hg => absurd hg List.not_mem_nil
  | next, y :: ys, g, hg => by
    rw [newGrants] at hg
    rw [List.any_cons, Bool.or_eq_true]
    rcases List.mem_cons.1 hg with rfl | hg
    · left; simp
    · right; exact newGrants_assigned g hg

/-- The new rows, one per status in order, under consecutive keys from `next`. -/
theorem newGrants_eq_mapIdx :
    ∀ {next : Int} {statuses : List Int},
      newGrants branch role held next statuses =
        statuses.mapIdx fun i x => ⟨next + i, grantCells branch role x held⟩
  | _, [] => rfl
  | next, y :: ys => by
    rw [newGrants, List.mapIdx_cons, newGrants_eq_mapIdx]
    simp only [Nat.cast_zero, add_zero, Nat.cast_add, Nat.cast_one]
    congr 2
    funext i x
    congr 1
    ring

/-- After an assignment, exactly one row stands at each assigned status: the new one. -/
theorem reassigned_at {grants : Table} {statuses : List Int} {x : Int} (hnd : statuses.Nodup)
    (hx : x ∈ statuses) :
    ∃ k, (reassigned grants role branch statuses held).filter (GrantAt · branch role x) =
      [⟨k, grantCells branch role x held⟩] := by
  -- no kept row stands at an assigned status
  have hkept : (keptGrants grants role branch statuses).filter (GrantAt · branch role x) = [] := by
    refine List.filter_eq_nil_iff.2 fun g hg hat => ?_
    have hnone := (List.mem_filter.1 hg).2
    simp only [Bool.not_eq_true', List.any_eq_false] at hnone
    exact hnone x hx hat
  rw [reassigned, List.filter_append, hkept, List.nil_append]
  exact newGrants_at hnd hx

/-- After an assignment, the rows at every other key are those that stood there, in place. -/
theorem reassigned_elsewhere (grants : Table) (statuses : List Int) :
    (reassigned grants role branch statuses held).filter
        (fun g => !statuses.any (GrantAt g branch role)) =
      grants.filter fun g => !statuses.any (GrantAt g branch role) := by
  have hnew : (newGrants branch role held (nextId (keptGrants grants role branch statuses))
      statuses).filter (fun g => !statuses.any (GrantAt g branch role)) = [] :=
    List.filter_eq_nil_iff.2 fun g hg => by simp [newGrants_assigned g hg]
  rw [reassigned, List.filter_append, hnew, List.append_nil, keptGrants, List.filter_filter]
  simp

/-- The answer of an assignment: the keys after the kept rows', one per status in order. -/
theorem reassignedKeys_eq (grants : Table) (statuses : List Int) :
    reassignedKeys grants role branch statuses held =
      statuses.mapIdx fun i _ => nextId (keptGrants grants role branch statuses) + i := by
  rw [reassignedKeys, newGrants_eq_mapIdx]
  exact List.ext_getElem (by simp) fun i _ _ => by simp

end Reassigned

/-! ## Revocations -/

/-- A value handed to the database either becomes one cell or fails, whatever the state. -/
theorem Txn.param_cases (v : Value) :
    (∃ c, ∀ st, Txn.param v st = .ok c st) ∨ (∃ e, ∀ st, Txn.param v st = .error e st) := by
  unfold Txn.param
  cases bindValue v with
  | ok c => exact .inl ⟨c, fun _ => rfl⟩
  | error f =>
    cases f with
    | tooLarge => exact .inr ⟨_, fun _ => rfl⟩
    | unsupported _ => exact .inl ⟨.null, fun _ => rfl⟩
    | unencodable ps => exact .inr ⟨_, fun _ => rfl⟩

/-- What a revocation leaves: a failure as the key is handed over, or the grants less the rows
at the key committed, with their count. -/
def Revoked (s : Session) (key : Value) (column : String) (r : EStateM.Result Failure Session Nat) :
    Prop :=
  match Txn.param key s with
  | .error e _ => Refuses r s.db e
  | .ok c _ =>
    Commits r (s.db.withRows .grants (s.db.grants.filter fun g => !g.is .grants column c))
      (s.db.grants.filter fun g => g.is .grants column c).length

section Revocations

variable {s : Session}

/-- A revocation whose key fails as it is handed over is rolled back. -/
theorem revoked_of_param_error {body : Txn Nat} {key : Value} {column : String} {e : Failure}
    (hs : s.settled = s.db) (he : ∀ st, Txn.param key st = .error e st)
    (hbody : ∀ st, body st = .error e st) :
    Revoked s key column (Txn.atomically body s) := by
  rw [Revoked, he s]
  exact ⟨_, Txn.atomically_of_error (hbody _), hs⟩

/-- A revocation whose body deletes the rows at its key and answers their count commits it. -/
theorem revoked_of_run {body : Txn Nat} {key : Value} {column : String} {c : Cell}
    (hc : ∀ st, Txn.param key st = .ok c st)
    (hbody : ∃ ws, body { s with waiting := none, sweeps := [] } =
      .ok (s.db.grants.filter fun g => g.is .grants column c).length
        { s with
          db := s.db.delete .grants (fun g => g.is .grants column c)
          waiting := none
          sweeps := ws }) :
    Revoked s key column (Txn.atomically body s) := by
  obtain ⟨_, hbody⟩ := hbody
  rw [Revoked, hc s]
  exact Txn.atomically_of_ok hbody rfl

theorem revokeRole_outcome (hs : s.settled = s.db) (role : Value) :
    Revoked s role "role_id" (revokeRole role s) := by
  unfold revokeRole
  rcases Txn.param_cases role with ⟨c, hc⟩ | ⟨e, he⟩
  · refine revoked_of_run hc ?_
    -- the branches of the deleted rows are read, each an integer column
    have hreads : ∀ (rows : Table) (st : Session),
        (rows.mapM fun g => Txn.read .grants g "branch_id") st =
          .ok (rows.map fun g => (g.get "branch_id").toValue) st :=
      fun _ _ => List.mapM_run fun g _ => Txn.read_run (TableId.read_integer g (by decide) rfl)
    simp only [Txn.bind_of_run (hc _), Txn.bind_of_run Txn.query_run, Txn.bind_of_run (hreads _ _),
      Txn.bind_of_ok (Txn.delete_run _ _), Txn.bind_of_ok (Txn.afterCommitAll_run _)]
    exact ⟨_, rfl⟩
  · exact revoked_of_param_error hs he fun st => Txn.bind_of_fail (he st)

theorem revokeBranch_outcome (hs : s.settled = s.db) (branch : Value) :
    Revoked s branch "branch_id" (revokeBranch branch s) := by
  unfold revokeBranch
  rcases Txn.param_cases branch with ⟨c, hc⟩ | ⟨e, he⟩
  · refine revoked_of_run hc ?_
    simp only [Txn.bind_of_run (hc _), Txn.bind_of_run Txn.query_run,
      Txn.bind_of_ok (Txn.delete_run _ _), Txn.bind_of_ok (Txn.afterCommitAll_run _)]
    exact ⟨_, rfl⟩
  · exact revoked_of_param_error hs he fun st => Txn.bind_of_fail (he st)

theorem revokeStatus_outcome (hs : s.settled = s.db) (status : Value) :
    Revoked s status "status_id" (revokeStatus status s) := by
  unfold revokeStatus
  rcases Txn.param_cases status with ⟨c, hc⟩ | ⟨e, he⟩
  · refine revoked_of_run hc ?_
    simp only [Txn.bind_of_run (hc _), Txn.bind_of_run Txn.query_run,
      Txn.bind_of_ok (Txn.delete_run _ _)]
    -- the sweeps name the branch of the status, when the status exists
    cases hfound : s.db.statuses.find? fun st => st.is .statuses "id" c with
    | none => exact ⟨_, rfl⟩
    | some st =>
      have hread : ∀ t : Session, Txn.read .statuses st "branch_id" t =
          .ok (st.get "branch_id").toValue t :=
        fun t => Txn.read_run (TableId.read_integer st (by decide) rfl)
      simp only [Txn.bind_of_run (hread _), Txn.bind_of_ok (Txn.afterCommitAll_run _)]
      exact ⟨_, rfl⟩
  · exact revoked_of_param_error hs he fun st => Txn.bind_of_fail (he st)

end Revocations

/-! ## The grant writers -/

/-- The grant writers touch exactly their rows. From a state between requests:

* an assignment refuses with the first check it fails, in the order the service checks
  (`assignRefusal`), the database as it stood; otherwise it commits `reassigned` and answers the
  keys of the new rows, unless a cache sweep after the commit fails;
* in `reassigned`, exactly one row stands at each distinct status, with a flag set for each
  capability held; the rows at every other key are those that stood there, in place; and the
  new rows follow the kept ones, one per status in the order first given, under the keys the
  assignment answers;
* each revocation fails as its key is handed over, or commits the grants less the rows at its
  key and answers how many it deleted. -/
theorem grant_writers_touch_their_rows (s : Session) (hs : s.settled = s.db) :
    (∀ role branch statusIds capabilities,
      match assignRefusal s.db role branch statusIds capabilities with
      | some e => Refuses (assign role branch statusIds capabilities s) s.db e
      | none => Commits (assign role branch statusIds capabilities s)
          (s.db.withRows .grants
            (reassigned s.db.grants role branch statusIds.eraseDups (heldBy capabilities)))
          (reassignedKeys s.db.grants role branch statusIds.eraseDups (heldBy capabilities))) ∧
    (∀ (grants : Table) role branch (statusIds : List Int) (held : Capability → Bool),
      (∀ x ∈ statusIds.eraseDups, ∃ k,
        (reassigned grants role branch statusIds.eraseDups held).filter (GrantAt · branch role x) =
          [⟨k, grantCells branch role x held⟩] ∧
        grantCapabilities ⟨k, grantCells branch role x held⟩ = Capability.all.filter held) ∧
      (reassigned grants role branch statusIds.eraseDups held).filter
          (fun g => !statusIds.eraseDups.any (GrantAt g branch role)) =
        grants.filter (fun g => !statusIds.eraseDups.any (GrantAt g branch role)) ∧
      reassigned grants role branch statusIds.eraseDups held =
        keptGrants grants role branch statusIds.eraseDups ++
          statusIds.eraseDups.mapIdx (fun i x =>
            ⟨nextId (keptGrants grants role branch statusIds.eraseDups) + i,
              grantCells branch role x held⟩) ∧
      reassignedKeys grants role branch statusIds.eraseDups held =
        statusIds.eraseDups.mapIdx fun i _ =>
          nextId (keptGrants grants role branch statusIds.eraseDups) + i) ∧
    (∀ role, Revoked s role "role_id" (revokeRole role s)) ∧
    (∀ branch, Revoked s branch "branch_id" (revokeBranch branch s)) ∧
    (∀ status, Revoked s status "status_id" (revokeStatus status s)) := by
  refine ⟨assign_outcome s hs, fun grants role branch statusIds held => ⟨?_, ?_, ?_, ?_⟩,
    revokeRole_outcome hs, revokeBranch_outcome hs, revokeStatus_outcome hs⟩
  · intro x hx
    obtain ⟨k, hk⟩ := reassigned_at (nodup_eraseDups statusIds) hx
    exact ⟨k, hk, grantCapabilities_grantCells k branch role x held⟩
  · exact reassigned_elsewhere grants statusIds.eraseDups
  · rw [reassigned, newGrants_eq_mapIdx]
  · exact reassignedKeys_eq grants statusIds.eraseDups

/-- On the sample shop, where role 1 holds every capability at both statuses of branch 1,
assigning it only the view capability at `In repair` passes every check and commits: the grant
at `New` stays, and the grant at `In repair` gives way to a row of that one flag under key 2. -/
theorem sample_assignment_narrows_grant :
    assignRefusal Scenario.sampleSession.db 1 1 [2] [("can_view", .bool true)] = none ∧
    Commits (assign 1 1 [2] [("can_view", .bool true)] Scenario.sampleSession)
      (Scenario.sampleShop.withRows .grants
        [Scenario.sampleGrant 1 1, ⟨2, grantCells 1 1 2 (heldBy [("can_view", .bool true)])⟩])
      [2] := by
  have href : assignRefusal Scenario.sampleSession.db 1 1 [2] [("can_view", .bool true)] =
      none := by decide
  have h := (grant_writers_touch_their_rows Scenario.sampleSession rfl).1 1 1 [2]
    [("can_view", .bool true)]
  rw [href] at h
  exact ⟨href, h⟩

/-- A store holding one role, open, under key 1. -/
def openRoleSession : Session := { db := { roles := [⟨1, [("status", .text openState)]⟩] }, kv := {} }

/-- A status key beyond 64 bits fails as the database receives it, before the statuses are
looked up: a fault, where a refusal listing the key among `invalid_ids` is expected. -/
theorem huge_status_key_faults :
    Refuses (assign 1 1 [9223372036854775808] [] openRoleSession) openRoleSession.db
      (.fault .tooLargeForStore) := by
  have h := assign_outcome openRoleSession rfl 1 1 [9223372036854775808] []
  have href : assignRefusal openRoleSession.db 1 1 [9223372036854775808] [] =
      some (.fault .tooLargeForStore) := rfl
  rw [href] at h
  exact h

end Access

end RepairShop
