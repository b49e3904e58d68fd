import Mathlib
import RepairShop.Seed
import RepairShop.Proofs.InsertRuns
import RepairShop.Proofs.KeyValue

/- The steps of the seed, one at a time.

   Each step of `Seed.seedWorkflow` looks up what it is to make sure of and inserts what is
   missing. For each step this file states what it makes sure of, as a reader of the database
   and a predicate on it, and proves two things:

   * `_settled`: a run of the step that ends with no refused write held appended rows to the
     step's own tables only, after which what it makes sure of holds;
   * `_idle`: where it holds already, the step creates nothing and leaves the session as it
     was.

   The codes and the roles share one loop (`insertMissing_settled`); the moves and the grant
   rows are made by nested loops, whose inner loops have lemmas of their own
   (`moveLoop_settled`, `grantLoop_settled`). -/

namespace RepairShop

open Store Json

namespace Seed

theorem texts_run (t : TableId) (column : String) (st : Session) :
    texts t column st = .ok ((st.db.rows t).map (·.text column)) st := rfl

/-! ## Inserting what is missing

The codes and the roles are made sure of by one loop: for each element, a row is inserted
when no row held its key in one column before the loop. -/

section Missing

variable {α : Type} {t : TableId} {column : String} {key : α → String}
  {given : α → List (String × Value)} {xs : List α}

/-- A run of the loop that ends with no refused write held appends rows to its table, under
new keys, after which every key of the list is held. -/
theorem insertMissing_settled {n r : Nat} {st st' : Session}
    (h : (forIn xs n (fun x c =>
      if (!((st.db.rows t).map (·.text column)).contains (key x)) = true then do
        let _ ← Txn.insert t (given x)
        pure (ForInStep.yield (c + 1))
      else pure (ForInStep.yield c)) : Txn Nat) st = .ok r st')
    (hw : st'.waiting = none)
    (hkey : ∀ x row, Stores t.schema (given x) row → row.text column = key x) :
    st.waiting = none ∧ ∃ d, st' = { st with db := d } ∧ Db.Grows [t] st.db d ∧
      (((st.db.rows t).map Row.id).Nodup → ((d.rows t).map Row.id).Nodup) ∧
      ∀ x ∈ xs, key x ∈ (d.rows t).map (·.text column) := by
  -- the rows appended so far hold the keys of the elements passed, under new keys
  let I : List α → Nat → Session → Prop := fun pre _ st1 =>
    ∃ d, st1 = { st with db := d } ∧ Db.Grows [t] st.db d ∧
      (((st.db.rows t).map Row.id).Nodup → ((d.rows t).map Row.id).Nodup) ∧
      ∀ x ∈ pre, key x ∈ (d.rows t).map (·.text column)
  have hpass := List.forIn_settled I ?_ h hw
  · obtain ⟨hw0, hI⟩ := hpass
    exact ⟨hw0, hI ⟨st.db, rfl, Db.Grows.refl _ _, id, fun _ h => absurd h List.not_mem_nil⟩⟩
  · intro pre x c st1 step st2 _ hrun hw2
    split at hrun
    · obtain ⟨id, st3, hins, hrest⟩ := Txn.bind_ok hrun
      cases hrest
      obtain ⟨hw1, row, rfl, hid, hnext, hst⟩ := Txn.insert_settled hins hw2
      refine ⟨hw1, _, rfl, fun ⟨d, hst1, hgrow, hnd, hkeys⟩ => ?_⟩
      subst hst1
      have hrows : (d.withRows t (d.rows t ++ [row])).rows t = d.rows t ++ [row] :=
        Db.rows_withRows_self _ _ _
      refine ⟨_, rfl, hgrow.trans (Db.grows_append _ _), fun h0 => ?_, fun y hy => ?_⟩
      · dsimp only
        rw [hrows]
        exact nodup_append_next (hid.trans hnext) (hnd h0)
      · dsimp only
        rw [hrows, List.map_append, List.mem_append]
        rcases List.mem_append.1 hy with hy | hy
        · exact Or.inl (hkeys y hy)
        · rw [List.mem_singleton.1 hy]
          exact Or.inr (by simp [hkey x row hst])
    · next hold =>
      cases hrun
      refine ⟨hw2, _, rfl, fun ⟨d, hst1, hgrow, hnd, hkeys⟩ => ⟨d, hst1, hgrow, hnd, fun y hy => ?_⟩⟩
      rcases List.mem_append.1 hy with hy | hy
      · exact hkeys y hy
      · rw [List.mem_singleton.1 hy]
        -- the key was held before the loop, and rows are only appended
        have hin : key x ∈ (st.db.rows t).map (·.text column) := by simpa using hold
        exact ((hgrow.rows_extend t).map (·.text column)).subset hin

/-- With every key held, the loop inserts nothing. -/
theorem insertMissing_idle {n : Nat} {st : Session}
    (hall : ∀ x ∈ xs, key x ∈ (st.db.rows t).map (·.text column)) :
    (forIn xs n (fun x c =>
      if (!((st.db.rows t).map (·.text column)).contains (key x)) = true then do
        let _ ← Txn.insert t (given x)
        pure (ForInStep.yield (c + 1))
      else pure (ForInStep.yield c)) : Txn Nat) st = .ok n st :=
  List.forIn_idle fun x hx => by
    have hin : ((st.db.rows t).map (·.text column)).contains (key x) := by simpa using hall x hx
    simp only [hin, Bool.not_true, Bool.false_eq_true, if_false]
    rfl

end Missing

/-! ## The global codes -/

/-- The codes the permission rows of a database hold. -/
def codesIn (d : Db) : List String := d.permissions.map (·.text "code")

/-- The codes the seed makes sure of, one per service and action. -/
theorem permissionCodes_eq :
    (serviceActions.flatMap fun x => x.2.map fun a => (x.1, a)).map (fun p => p.1 ++ "." ++ p.2) =
      permissionCodes := rfl

/-- A run of `ensurePermissions` that ends with no refused write held appends permission rows,
under new keys, after which every global code is held by some row. -/
theorem ensurePermissions_settled {st st' : Session} {n : Nat}
    (h : ensurePermissions st = .ok n st') (hw : st'.waiting = none)
    (hk : (st.db.permissions.map Row.id).Nodup) :
    st.waiting = none ∧ ∃ d, st' = { st with db := d } ∧ Db.Grows [.permissions] st.db d ∧
      (d.permissions.map Row.id).Nodup ∧ ∀ c ∈ permissionCodes, c ∈ codesIn d := by
  unfold ensurePermissions at h
  dsimp only at h
  rw [Txn.bind_of_run (texts_run _ _ _)] at h
  obtain ⟨r, st1, hloop, h⟩ := Txn.bind_ok h
  obtain ⟨_, st2, hflush, h⟩ := Txn.bind_ok h
  have hst2 := Txn.flush_ok hflush
  simp only [pure, EStateM.pure, EStateM.Result.ok.injEq] at h
  obtain ⟨rfl, rfl⟩ := h
  subst hst2
  obtain ⟨hw0, d, rfl, hgrow, hnd, hcodes⟩ :=
    insertMissing_settled hloop hw fun _ _ hst => Row.text_text (Stores.text hst (by decide) rfl rfl)
  refine ⟨hw0, d, rfl, hgrow, hnd hk, fun c hc => ?_⟩
  rw [← permissionCodes_eq] at hc
  obtain ⟨p, hp, rfl⟩ := List.mem_map.1 hc
  exact hcodes p hp

/-- With every code held, `ensurePermissions` creates nothing. -/
theorem ensurePermissions_idle {st : Session} (hw : st.waiting = none)
    (hcodes : ∀ c ∈ permissionCodes, c ∈ codesIn st.db) : ensurePermissions st = .ok 0 st := by
  unfold ensurePermissions
  dsimp only
  rw [Txn.bind_of_run (texts_run _ _ _), Txn.bind_of_run (insertMissing_idle fun x hx => ?_),
    Txn.bind_of_run (Txn.flush_run hw)]
  · rfl
  · exact hcodes _ (permissionCodes_eq ▸ List.mem_map_of_mem hx)

/-! ## The preset roles and the codes of the super role -/

/-- The names of the role rows. -/
def namesIn (d : Db) : List String := d.roles.map (·.text "name")

/-- The super role: the first role of its name. -/
def superIn (d : Db) : Option Row := d.roles.find? (·.text "name" == superAdminRole)

/-- The links of a role to permissions. -/
def linksOf (d : Db) (role : Row) : Table :=
  d.rolePermissions.filter fun rp => (rp.get "role_id").sqlEq (.int role.id)

/-- The code of the permission a link names, when some permission has its key. -/
def codeOfLink (d : Db) (rp : Row) : Option String :=
  (d.permissions.find? fun p => (p.get "id").sqlEq (rp.get "permission_id")).map (·.text "code")

/-- The codes a role holds, when each of its links names a permission. -/
def heldIn (d : Db) (role : Row) : Option (List String) := (linksOf d role).mapM (codeOfLink d)

/-- The super role exists, each of its links names a permission, and it holds every global
code. -/
def SuperHolds (d : Db) : Prop :=
  ∃ sup ∈ superIn d, ∃ held ∈ heldIn d sup, ∀ c ∈ permissionCodes, c ∈ held

/-- With every preset role named, the super role is found. -/
theorem superIn_isSome {d : Db} (hnames : ∀ p ∈ rolePresets, p.1 ∈ namesIn d) :
    (superIn d).isSome := by
  obtain ⟨r, hr, hname⟩ := List.mem_map.1 (hnames (superAdminRole, ["*"]) List.mem_cons_self)
  exact List.find?_isSome.2 ⟨r, hr, by simp [hname]⟩

/-- Reading the codes of links in a run, one link at a time, gives their codes, or fails at a
link that names no permission. -/
theorem linkCodes_run {d : Db} {st : Session} {f : Row → Txn String}
    (hf : ∀ rp, f rp st = match codeOfLink d rp with
      | some c => .ok c st
      | none => .error (.fault (.noAttribute .null "code")) st) :
    ∀ links : List Row, links.mapM f st = match links.mapM (codeOfLink d) with
      | some held => .ok held st
      | none => .error (.fault (.noAttribute .null "code")) st
  | [] => rfl
  | rp :: links => by
    have ih := linkCodes_run hf links
    rw [List.mapM_cons, List.mapM_cons]
    have hrp := hf rp
    cases hc : codeOfLink d rp with
    | none =>
      rw [hc] at hrp
      rw [Txn.bind_of_fail hrp]
      rfl
    | some c =>
      rw [hc] at hrp
      rw [Txn.bind_of_run hrp]
      cases hl : links.mapM (codeOfLink d) with
      | none =>
        rw [hl] at ih
        rw [Txn.bind_of_fail ih]
        rfl
      | some held =>
        rw [hl] at ih
        rw [Txn.bind_of_run ih]
        rfl

/-- A link to a permission names its code, permission keys being distinct. -/
theorem codeOfLink_of_mem {d : Db} {p rp : Row} (hk : (d.permissions.map Row.id).Nodup)
    (hp : p ∈ d.permissions) (hrp : rp.get "permission_id" = .int p.id) :
    codeOfLink d rp = some (p.text "code") := by
  have hget : ∀ q : Row, q.get "id" = .int q.id := fun q => rfl
  obtain ⟨q, hq⟩ := Option.isSome_iff_exists.1
    (List.find?_isSome.2 ⟨p, hp, by simp [hget, hrp]⟩ :
      (d.permissions.find? fun q => (q.get "id").sqlEq (rp.get "permission_id")).isSome)
  have hqid : q.id = p.id := by simpa [hget, hrp] using List.find?_some hq
  have hqp : q = p := List.inj_on_of_nodup_map hk (List.mem_of_find?_eq_some hq) hp hqid
  simp [codeOfLink, hq, hqp]

/-- A link of the role to a permission appends the permission's code to what it holds. -/
theorem heldIn_append_link {d : Db} {role p row : Row} {held : List String}
    (hk : (d.permissions.map Row.id).Nodup) (hp : p ∈ d.permissions)
    (hrole : row.get "role_id" = .int role.id) (hperm : row.get "permission_id" = .int p.id)
    (hheld : heldIn d role = some held) :
    heldIn (d.withRows .rolePermissions (d.rolePermissions ++ [row])) role =
      some (held ++ [p.text "code"]) := by
  have hlinks : linksOf (d.withRows .rolePermissions (d.rolePermissions ++ [row])) role =
      linksOf d role ++ [row] := by
    simp [linksOf, Db.withRows, hrole]
  have hcodes : codeOfLink (d.withRows .rolePermissions (d.rolePermissions ++ [row])) =
      codeOfLink d := rfl
  unfold heldIn at hheld ⊢
  simp [hlinks, hcodes, List.mapM_append, hheld, codeOfLink_of_mem hk hp hperm]

/-- A run of the loop that links the super role to permissions, ending with no refused write
held, appends the links; the role then holds the codes of those permissions too. -/
theorem linkLoop_settled {sup : Row} {held : List String} {ps : List Row} {st st' : Session}
    {u : PUnit}
    (h : (forIn ps PUnit.unit (fun p _ => do
        let _ ← Txn.insert .rolePermissions [("role_id", .int sup.id), ("permission_id", .int p.id)]
        pure (ForInStep.yield PUnit.unit)) : Txn PUnit) st = .ok u st')
    (hw : st'.waiting = none) :
    st.waiting = none ∧ ((st.db.permissions.map Row.id).Nodup → (∀ p ∈ ps, p ∈ st.db.permissions) →
      heldIn st.db sup = some held → ∃ d, st' = { st with db := d } ∧
        Db.Grows [.rolePermissions] st.db d ∧ heldIn d sup = some (held ++ ps.map (·.text "code"))) := by
  -- the links appended so far name the permissions passed
  let I : List Row → PUnit → Session → Prop := fun pre _ st1 =>
    (st.db.permissions.map Row.id).Nodup ∧ (∀ p ∈ ps, p ∈ st.db.permissions) ∧
      ∃ d, st1 = { st with db := d } ∧ Db.Grows [.rolePermissions] st.db d ∧
        heldIn d sup = some (held ++ pre.map (·.text "code"))
  have hpass := List.forIn_settled I ?_ h hw
  · obtain ⟨hw0, hI⟩ := hpass
    refine ⟨hw0, fun hk hps hheld => ?_⟩
    obtain ⟨-, -, hrest⟩ := hI ⟨hk, hps, st.db, rfl, Db.Grows.refl _ _, by simpa using hheld⟩
    exact hrest
  · intro pre p _ st1 step st2 hp hrun hw2
    obtain ⟨id, st3, hins, hrest⟩ := Txn.bind_ok hrun
    cases hrest
    obtain ⟨hw1, row, rfl, -, -, hst⟩ := Txn.insert_settled hins hw2
    refine ⟨hw1, _, rfl, fun ⟨hk, hps, d, hst1, hgrow, hheld⟩ => ⟨hk, hps, ?_⟩⟩
    subst hst1
    have hrole : row.get "role_id" = .int sup.id := Stores.int hst (by decide) rfl rfl
    have hperm : row.get "permission_id" = .int p.id := Stores.int hst (by decide) rfl rfl
    -- the links leave the permissions as they were
    have hsame : d.permissions = st.db.permissions := hgrow.rows_eq (t := .permissions) (by decide)
    refine ⟨_, rfl, hgrow.trans (Db.grows_append _ _), ?_⟩
    rw [List.map_append, List.map_singleton, ← List.append_assoc]
    exact heldIn_append_link (hsame ▸ hk) (hsame ▸ hps p hp) hrole hperm hheld

/-- The codes the super role lacks are those of permission rows, and the links made to them
leave it holding every global code. -/
theorem codes_held_after_links {d : Db} {held : List String}
    (hcodes : ∀ c ∈ permissionCodes, c ∈ codesIn d) :
    ∀ c ∈ permissionCodes, c ∈ held ++ ((d.permissions.filter fun p =>
      (permissionCodes.filter fun c => !held.contains c).contains (p.text "code")).mergeSort
        fun p q => decide (p.text "code" ≤ q.text "code")).map (·.text "code") := by
  intro c hc
  by_cases hh : c ∈ held
  · exact List.mem_append_left _ hh
  · obtain ⟨p, hp, rfl⟩ := List.mem_map.1 (hcodes _ hc)
    refine List.mem_append_right _
      (List.mem_map_of_mem (List.mem_mergeSort.2 (List.mem_filter.2 ⟨hp, ?_⟩)))
    simpa [hh] using hc

/-- A run of `ensureRoles` that ends with no refused write held appends roles and links; when
every global code was held by a permission row, under distinct keys, every preset role is then
named and the super role holds every code. -/
theorem ensureRoles_settled {st st' : Session} {n : Nat}
    (h : ensureRoles st = .ok n st') (hw : st'.waiting = none) :
    st.waiting = none ∧ ((st.db.permissions.map Row.id).Nodup →
      (∀ c ∈ permissionCodes, c ∈ codesIn st.db) → ∃ d, st' = { st with db := d } ∧
        Db.Grows [.roles, .rolePermissions] st.db d ∧ (∀ p ∈ rolePresets, p.1 ∈ namesIn d) ∧
          SuperHolds d) := by
  have hkey : ∀ (x : String × List String) row,
      Stores TableId.roles.schema [("name", .str x.1), ("is_system", .bool true),
        ("description_i18n", .obj [("en", .str x.1)])] row → row.text "name" = x.1 :=
    fun _ _ hst => Row.text_text (Stores.text hst (by decide) rfl rfl)
  unfold ensureRoles at h
  dsimp only at h
  rw [Txn.bind_of_run (texts_run _ _ _)] at h
  obtain ⟨r, st1, hloop, h⟩ := Txn.bind_ok h
  obtain ⟨_, st2, hflush, h⟩ := Txn.bind_ok h
  cases Txn.flush_ok hflush
  rw [Txn.bind_of_run Txn.query_run] at h
  rw [show List.find? (fun x => x.text "name" == superAdminRole) st1.db.roles = superIn st1.db
    from rfl] at h
  cases hsup : superIn st1.db with
  | none =>
    -- the roles were made sure of, so the super role is found
    rw [hsup] at h
    cases h
    obtain ⟨-, d1, rfl, -, -, hnames⟩ := insertMissing_settled hloop hw hkey
    have hfound := superIn_isSome hnames
    rw [hsup] at hfound
    cases hfound
  | some sup =>
    rw [hsup] at h
    obtain ⟨held, st3, hmap, h⟩ := Txn.bind_ok h
    rw [linkCodes_run (d := st1.db) (fun rp => ?_)] at hmap
    swap
    · unfold codeOfLink
      cases List.find? (fun p => (p.get "id").sqlEq (rp.get "permission_id")) st1.db.permissions <;> rfl
    split at hmap
    · next held' hheld =>
      cases hmap
      obtain ⟨_, st4, hlinks, h⟩ := Txn.bind_ok h
      cases h
      obtain ⟨hw1, hlink⟩ := linkLoop_settled hlinks hw
      obtain ⟨hw0, d1, rfl, hgrow1, -, hnames⟩ := insertMissing_settled hloop hw1 hkey
      refine ⟨hw0, fun hk hcodes => ?_⟩
      have hperm : d1.permissions = st.db.permissions := hgrow1.rows_eq (t := .permissions) (by decide)
      obtain ⟨d2, rfl, hgrow2, hheld2⟩ :=
        hlink (hperm ▸ hk) (fun p hp => (List.mem_filter.1 (List.mem_mergeSort.1 hp)).1) hheld
      -- the links leave the roles as they were
      have hroles : d2.roles = d1.roles := hgrow2.rows_eq (t := .roles) (by decide)
      refine ⟨d2, rfl, (hgrow1.mono (by simp)).trans (hgrow2.mono (by simp)), ?_, sup, ?_, _,
        hheld2, ?_⟩
      · intro p hp
        unfold namesIn
        rw [hroles]
        exact hnames p hp
      · simpa [superIn, hroles] using hsup
      · exact codes_held_after_links (by simpa [codesIn, hperm] using hcodes)
    · cases hmap

/-- With every preset role named and the super role holding every code, `ensureRoles` creates
nothing. -/
theorem ensureRoles_idle {st : Session} (hw : st.waiting = none)
    (hnames : ∀ p ∈ rolePresets, p.1 ∈ namesIn st.db) (hsuper : SuperHolds st.db) :
    ensureRoles st = .ok 0 st := by
  obtain ⟨sup, hsup, held, hheld, hall⟩ := hsuper
  -- no code is missing, so no link is to be made
  have hnone : (permissionCodes.filter fun c => !held.contains c) = [] :=
    List.filter_eq_nil_iff.2 fun c hc => by simpa using hall c hc
  have hfind : List.find? (fun x => x.text "name" == superAdminRole) st.db.roles = some sup := hsup
  unfold ensureRoles
  dsimp only
  rw [Txn.bind_of_run (texts_run _ _ _), Txn.bind_of_run (insertMissing_idle hnames),
    Txn.bind_of_run (Txn.flush_run hw), Txn.bind_of_run Txn.query_run]
  simp only [hfind]
  rw [Txn.bind_of_run (a := held) ((linkCodes_run (d := st.db) (fun rp => ?_) _).trans ?_)]
  · simp only [hnone, List.contains_nil, List.filter_false, List.mergeSort_nil, List.forIn_nil]
    rfl
  · rw [show (st.db.rolePermissions.filter fun rp => (rp.get "role_id").sqlEq (.int sup.id)).mapM
      (codeOfLink st.db) = some held from hheld]
  · unfold codeOfLink
    cases List.find? (fun p => (p.get "id").sqlEq (rp.get "permission_id")) st.db.permissions <;> rfl

/-! ## The branch -/

/-- The branches of a name, as a lookup by name finds them. -/
def branchesNamed (d : Db) (name : String) : Table :=
  d.branches.filter (·.is .branches "name" (.text name))

/-- A run of `ensureBranch` that ends with no refused write held leaves one branch of the name,
the one whose key it gives. -/
theorem ensureBranch_settled {st st' : Session} {name : String} {b : Int}
    (h : ensureBranch (.str name) st = .ok b st') (hw : st'.waiting = none) :
    st.waiting = none ∧ ∃ d, st' = { st with db := d } ∧ Db.Grows [.branches] st.db d ∧
      ∃ br, branchesNamed d name = [br] ∧ br.id = b := by
  unfold ensureBranch at h
  simp only [bindValue] at h
  rw [Txn.bind_of_run (show (pure (Cell.text name) : Txn Cell) st = .ok (.text name) st from rfl),
    Txn.bind_of_run Txn.query_run] at h
  rw [show st.db.branches.filter (·.is .branches "name" (.text name)) = branchesNamed st.db name
    from rfl] at h
  cases hb : branchesNamed st.db name with
  | nil =>
    -- no branch of the name: it is created, and is then the only one
    rw [hb] at h
    obtain ⟨id, st1, hins, h⟩ := Txn.bind_ok h
    obtain ⟨_, st2, hflush, h⟩ := Txn.bind_ok h
    cases Txn.flush_ok hflush
    cases h
    obtain ⟨hw0, row, rfl, hid, -, hst⟩ := Txn.insert_settled hins hw
    have hname : row.get "name" = .text name := Stores.text hst (by decide) rfl rfl
    refine ⟨hw0, _, rfl, Db.grows_append _ _, row, ?_, hid⟩
    show (st.db.branches ++ [row]).filter _ = [row]
    rw [List.filter_append, show st.db.branches.filter _ = [] from hb, List.filter_singleton,
      Row.is_text_self rfl hname]
    rfl
  | cons br rest =>
    cases rest with
    | nil =>
      rw [hb] at h
      cases h
      exact ⟨hw, st.db, rfl, Db.Grows.refl _ _, br, hb, rfl⟩
    | cons _ _ =>
      rw [hb] at h
      cases h

/-- With one branch of the name, `ensureBranch` gives its key and creates nothing. -/
theorem ensureBranch_idle {st : Session} {name : String} {br : Row}
    (hbr : branchesNamed st.db name = [br]) : ensureBranch (.str name) st = .ok br.id st := by
  unfold ensureBranch
  simp only [bindValue]
  rw [Txn.bind_of_run (show (pure (Cell.text name) : Txn Cell) st = .ok (.text name) st from rfl),
    Txn.bind_of_run Txn.query_run]
  rw [show st.db.branches.filter (·.is .branches "name" (.text name)) = branchesNamed st.db name
    from rfl, hbr]
  rfl

/-! ## The statuses of the branch -/

/-- The statuses of a branch. -/
def statusesOf (d : Db) (branch : Int) : Table :=
  d.statuses.filter (·.is .statuses "branch_id" (.int branch))

/-- The statuses of a branch by English name, as the seed reads them: a later status of a name
takes the place of the first. -/
def knownIn (d : Db) (branch : Int) : List (Value × Int) :=
  (statusesOf d branch).foldl (fun known s => setKeyed known (s.get "name_en").toValue s.id) []

/-- Every default status has its English name among the statuses of the branch. -/
def StatusesKnown (d : Db) (branch : Int) : Prop :=
  ∀ e ∈ defaultStatuses, (knownIn d branch).any (·.1.sameMember (.str e.2.2.1)) = true

/-- A key no entry has is set at the end. -/
theorem setKeyed_fresh {β : Type} {m : List (Value × β)} {k : Value} {b : β}
    (h : m.any (·.1.sameMember k) = false) : setKeyed m k b = m ++ [(k, b)] := by
  simp [setKeyed, h]

/-- A status of the branch appended to the table is set in the statuses by name. -/
theorem knownIn_append_status {d : Db} {b : Int} {row : Row} (hb : row.get "branch_id" = .int b) :
    knownIn (d.withRows .statuses (d.statuses ++ [row])) b =
      setKeyed (knownIn d b) (row.get "name_en").toValue row.id := by
  have hrow : row.is .statuses "branch_id" (.int b) = true := by
    rw [Orders.Row.is_int rfl hb]
    simp
  simp [knownIn, statusesOf, Db.withRows, List.filter_append, hrow]

/-- A run of `ensureStatuses` that ends with no refused write held appends statuses of the
branch, after which every default status has its name among them; it gives the statuses of
the branch by name. -/
theorem ensureStatuses_settled {st st' : Session} {b : Int} {known : List (Value × Int)}
    (h : ensureStatuses b st = .ok known st') (hw : st'.waiting = none) :
    st.waiting = none ∧ fitsInt64 b = true ∧ ∃ d, st' = { st with db := d } ∧
      Db.Grows [.statuses] st.db d ∧ known = knownIn d b ∧ StatusesKnown d b := by
  unfold ensureStatuses at h
  dsimp only at h
  obtain ⟨cell, st1, hparam, hbody⟩ := Txn.bind_ok h
  obtain ⟨hfits, rfl, hst1⟩ := Txn.param_int_ok hparam
  subst st1
  rw [Txn.bind_of_run Txn.query_run] at hbody
  obtain ⟨known0, st2, hread, h⟩ := Txn.bind_ok hbody
  rw [List.forIn_fold (g := fun known s => setKeyed known (s.get "name_en").toValue s.id)
    fun s _ k => ?_] at hread
  swap
  · rw [Txn.bind_of_run (Txn.read_run (TableId.read_text _ rfl rfl))]
    rfl
  cases hread
  obtain ⟨known1, st3, hloop, h⟩ := Txn.bind_ok h
  obtain ⟨_, st4, hflush, h⟩ := Txn.bind_ok h
  cases Txn.flush_ok hflush
  cases h
  -- the statuses by name stay those of the branch, and hold the defaults passed
  let I : List (Nat × String × String × String × Option String) → List (Value × Int) → Session →
      Prop := fun pre known st1 =>
    ∃ d, st1 = { st with db := d } ∧ Db.Grows [.statuses] st.db d ∧ known = knownIn d b ∧
      ∀ e ∈ pre, known.any (·.1.sameMember (.str e.2.2.2.1)) = true
  have hpass := List.forIn_settled I ?_ hloop hw
  · obtain ⟨hw0, hI⟩ := hpass
    obtain ⟨d, rfl, hgrow, rfl, hall⟩ :=
      hI ⟨st.db, rfl, Db.Grows.refl _ _, rfl, fun _ h => absurd h List.not_mem_nil⟩
    refine ⟨hw0, hfits, d, rfl, hgrow, rfl, fun e he => ?_⟩
    -- each default status stands in the list numbered from 1
    have hzip : ((List.range defaultStatuses.length).zip defaultStatuses).map Prod.snd =
        defaultStatuses := List.map_snd_zip (by simp)
    obtain ⟨x, hx, rfl⟩ := List.mem_map.1 (hzip ▸ he)
    exact hall x hx
  · intro pre ⟨i, uz, ru, en, kind⟩ known st1 step st2 _ hrun hw2
    dsimp only at hrun
    split at hrun
    · next hnew =>
      obtain ⟨id, st3, hins, hrest⟩ := Txn.bind_ok hrun
      cases hrest
      obtain ⟨hw1, row, rfl, hid, -, hst⟩ := Txn.insert_settled hins hw2
      refine ⟨hw1, _, rfl, fun ⟨d, hst1, hgrow, hknown, hall⟩ => ?_⟩
      subst hst1 hknown
      have hbranch : row.get "branch_id" = .int b := Stores.int hst (by decide) rfl rfl
      have hname : row.get "name_en" = .text en := Stores.text hst (by decide) rfl rfl
      have hfresh : (knownIn d b).any (·.1.sameMember (.str en)) = false := by simpa using hnew
      refine ⟨_, rfl, hgrow.trans (Db.grows_append _ _), ?_, fun e he => ?_⟩
      · show _ = knownIn (d.withRows .statuses (d.statuses ++ [row])) b
        rw [knownIn_append_status hbranch, hname, hid]
        exact (setKeyed_fresh hfresh).symm
      · rw [List.any_append, Bool.or_eq_true]
        rcases List.mem_append.1 he with he | he
        · exact Or.inl (hall e he)
        · rw [List.mem_singleton.1 he]
          exact Or.inr (by simp [Json.Value.sameMember_str])
    · next hold =>
      cases hrun
      refine ⟨hw2, _, rfl, fun ⟨d, hst1, hgrow, hknown, hall⟩ =>
        ⟨d, hst1, hgrow, hknown, fun e he => ?_⟩⟩
      rcases List.mem_append.1 he with he | he
      · exact hall e he
      · rw [List.mem_singleton.1 he]
        simpa using hold

/-- With every default status named among those of the branch, `ensureStatuses` creates nothing
and gives the statuses of the branch by name. -/
theorem ensureStatuses_idle {st : Session} {b : Int} (hw : st.waiting = none)
    (hfits : fitsInt64 b = true) (hknown : StatusesKnown st.db b) :
    ensureStatuses b st = .ok (knownIn st.db b) st := by
  unfold ensureStatuses
  dsimp only
  rw [Txn.bind_of_run (Txn.param_run (show bindValue (.int b) = .ok (.int b) by
      simp [bindValue, hfits])),
    Txn.bind_of_run Txn.query_run,
    Txn.bind_of_run (List.forIn_fold (g := fun known s => setKeyed known (s.get "name_en").toValue s.id)
      fun s _ k => ?_),
    Txn.bind_of_run (List.forIn_idle fun x hx => ?_), Txn.bind_of_run (Txn.flush_run hw)]
  · rfl
  · have hin := hknown x.2 (List.of_mem_zip hx).2
    unfold knownIn statusesOf at hin
    simp only [hin, Bool.not_true, Bool.false_eq_true, if_false]
    rfl
  · rw [Txn.bind_of_run (Txn.read_run (TableId.read_text _ rfl rfl))]
    rfl

/-! ## The moves of the branch -/

/-- A pair of keys is among pairs of stored keys. -/
def hasPair (pairs : List (Value × Value)) (a b : Int) : Bool :=
  pairs.any fun p => p.1.sameMember (.int a) && p.2.sameMember (.int b)

/-- The moves of a branch, as pairs of stored status keys. -/
def movesIn (d : Db) (branch : Int) : List (Value × Value) :=
  (d.transitions.filter (·.is .transitions "branch_id" (.int branch))).map fun t =>
    ((t.get "from_status_id").toValue, (t.get "to_status_id").toValue)

/-- Every default move, between the statuses of its names, is a move of the branch. -/
def MovesKnown (d : Db) (branch : Int) (statuses : List (Value × Int)) : Prop :=
  ∀ m ∈ defaultMoves, ∀ dst ∈ m.2,
    hasPair (movesIn d branch) (statusId statuses m.1) (statusId statuses dst) = true

theorem hasPair_append_self (pairs : List (Value × Value)) (a b : Int) :
    hasPair (pairs ++ [(.int a, .int b)]) a b = true := by
  simp [hasPair, Json.Value.sameMember_int]

theorem hasPair_of_prefix {pairs pairs' : List (Value × Value)} {a b : Int}
    (h : pairs <+: pairs') (hp : hasPair pairs a b = true) : hasPair pairs' a b = true := by
  obtain ⟨rest, rfl⟩ := h
  simp only [hasPair, List.any_append] at hp ⊢
  rw [hp, Bool.true_or]

/-- A move of the branch appended to the table is a move of the branch. -/
theorem movesIn_append {d : Db} {b f t : Int} {row : Row} (hb : row.get "branch_id" = .int b)
    (hf : row.get "from_status_id" = .int f) (ht : row.get "to_status_id" = .int t) :
    movesIn (d.withRows .transitions (d.transitions ++ [row])) b = movesIn d b ++ [(.int f, .int t)] := by
  have hrow : row.is .transitions "branch_id" (.int b) = true := by
    rw [Orders.Row.is_int rfl hb]
    simp
  simp [movesIn, Db.withRows, List.filter_append, hrow, hf, ht, Cell.toValue]

/-- A run of the loop over the moves from one status, ending with no refused write held,
appends moves of the branch; the pairs it keeps stay those of the branch, and hold each move
from the status. -/
theorem moveLoop_settled {b : Int} {statuses : List (Value × Int)} {src : String}
    {dsts : List String} {ex ex' : List (Value × Value)} {c c' : Nat} {st st' : Session}
    (h : (forIn dsts (ex, c) (fun dst s =>
      if (!s.1.any fun x => x.1.sameMember (.int (statusId statuses src)) &&
          x.2.sameMember (.int (statusId statuses dst))) = true then do
        let _ ← Txn.insert .transitions [("branch_id", .int b),
          ("from_status_id", .int (statusId statuses src)), ("to_status_id", .int (statusId statuses dst))]
        pure (ForInStep.yield (s.1 ++ [(.int (statusId statuses src), .int (statusId statuses dst))],
          s.2 + 1))
      else pure (ForInStep.yield (s.1, s.2))) : Txn (List (Value × Value) × Nat)) st = .ok (ex', c') st')
    (hw : st'.waiting = none) :
    st.waiting = none ∧ (ex = movesIn st.db b → ∃ d, st' = { st with db := d } ∧
      Db.Grows [.transitions] st.db d ∧ ex' = movesIn d b ∧ ex <+: ex' ∧
        ∀ dst ∈ dsts, hasPair ex' (statusId statuses src) (statusId statuses dst) = true) := by
  -- the pairs kept are the moves of the branch, and hold the moves passed
  let I : List String → List (Value × Value) × Nat → Session → Prop := fun pre s st1 =>
    ex = movesIn st.db b → ∃ d, st1 = { st with db := d } ∧ Db.Grows [.transitions] st.db d ∧
      s.1 = movesIn d b ∧ ex <+: s.1 ∧
        ∀ dst ∈ pre, hasPair s.1 (statusId statuses src) (statusId statuses dst) = true
  have hpass := List.forIn_settled I ?_ h hw
  · obtain ⟨hw0, hI⟩ := hpass
    exact ⟨hw0, hI fun hex => ⟨st.db, rfl, Db.Grows.refl _ _, hex, List.prefix_refl _,
      fun _ h => absurd h List.not_mem_nil⟩⟩
  · intro pre dst ⟨e, k⟩ st1 step st2 _ hrun hw2
    dsimp only at hrun
    split at hrun
    · obtain ⟨id, st3, hins, hrest⟩ := Txn.bind_ok hrun
      cases hrest
      obtain ⟨hw1, row, rfl, -, -, hst⟩ := Txn.insert_settled hins hw2
      refine ⟨hw1, _, rfl, fun hI hex => ?_⟩
      obtain ⟨d, hst1, hgrow, he, hpre, hall⟩ := hI hex
      subst hst1 he
      have hb : row.get "branch_id" = .int b := Stores.int hst (by decide) rfl rfl
      have hf : row.get "from_status_id" = .int (statusId statuses src) :=
        Stores.int hst (by decide) rfl rfl
      have ht : row.get "to_status_id" = .int (statusId statuses dst) :=
        Stores.int hst (by decide) rfl rfl
      refine ⟨_, rfl, hgrow.trans (Db.grows_append _ _), (movesIn_append hb hf ht).symm,
        hpre.trans (List.prefix_append _ _), fun y hy => ?_⟩
      rcases List.mem_append.1 hy with hy | hy
      · exact hasPair_of_prefix (List.prefix_append _ _) (hall y hy)
      · rw [List.mem_singleton.1 hy]
        exact hasPair_append_self _ _ _
    · next hold =>
      cases hrun
      refine ⟨hw2, _, rfl, fun hI hex => ?_⟩
      obtain ⟨d, hst1, hgrow, he, hpre, hall⟩ := hI hex
      refine ⟨d, hst1, hgrow, he, hpre, fun y hy => ?_⟩
      rcases List.mem_append.1 hy with hy | hy
      · exact hall y hy
      · rw [List.mem_singleton.1 hy]
        simpa [hasPair] using hold

/-- A run of `ensureMoves` that ends with no refused write held appends moves of the branch,
after which every default move is among them. -/
theorem ensureMoves_settled {st st' : Session} {b : Int} {statuses : List (Value × Int)} {n : Nat}
    (h : ensureMoves b statuses st = .ok n st') (hw : st'.waiting = none) :
    st.waiting = none ∧ ∃ d, st' = { st with db := d } ∧ Db.Grows [.transitions] st.db d ∧
      MovesKnown d b statuses := by
  unfold ensureMoves at h
  dsimp only at h
  obtain ⟨cell, st1, hparam, hbody⟩ := Txn.bind_ok h
  obtain ⟨-, rfl, hst1⟩ := Txn.param_int_ok hparam
  subst st1
  rw [Txn.bind_of_run Txn.query_run] at hbody
  obtain ⟨ex, st2, hread, h⟩ := Txn.bind_ok hbody
  rw [List.mapM_run (g := fun t => ((t.get "from_status_id").toValue, (t.get "to_status_id").toValue))
    fun t _ => ?_] at hread
  swap
  · rw [Txn.bind_of_run (Txn.read_run (TableId.read_integer _ rfl rfl)),
      Txn.bind_of_run (Txn.read_run (TableId.read_integer _ rfl rfl))]
    rfl
  cases hread
  obtain ⟨⟨ex', k⟩, st3, hloop, h⟩ := Txn.bind_ok h
  cases h
  -- the pairs kept are the moves of the branch, and hold the default moves passed
  let I : List (String × List String) → List (Value × Value) × Nat → Session → Prop :=
    fun pre s st1 => ∃ d, st1 = { st with db := d } ∧ Db.Grows [.transitions] st.db d ∧
      s.1 = movesIn d b ∧ ∀ m ∈ pre, ∀ dst ∈ m.2,
        hasPair s.1 (statusId statuses m.1) (statusId statuses dst) = true
  have hpass := List.forIn_settled I ?_ hloop hw
  · obtain ⟨hw0, hI⟩ := hpass
    obtain ⟨d, rfl, hgrow, he, hall⟩ :=
      hI ⟨st.db, rfl, Db.Grows.refl _ _, rfl, fun _ h => absurd h List.not_mem_nil⟩
    exact ⟨hw0, d, rfl, hgrow, fun m hm dst hdst => he ▸ hall m hm dst hdst⟩
  · intro pre ⟨src, dsts⟩ ⟨e, k⟩ st1 step st2 _ hrun hw2
    obtain ⟨⟨e', k'⟩, st3, hinner, hrest⟩ := Txn.bind_ok hrun
    cases hrest
    obtain ⟨hw1, hmoves⟩ := moveLoop_settled hinner hw2
    refine ⟨hw1, _, rfl, fun ⟨d, hst1, hgrow, he, hall⟩ => ?_⟩
    subst hst1
    obtain ⟨d', rfl, hgrow', he', hpre, hnew⟩ := hmoves he
    refine ⟨d', rfl, hgrow.trans hgrow', he', fun m hm dst hdst => ?_⟩
    rcases List.mem_append.1 hm with hm | hm
    · exact hasPair_of_prefix hpre (hall m hm dst hdst)
    · rw [List.mem_singleton.1 hm] at hdst ⊢
      exact hnew dst hdst

/-- With every default move among those of the branch, `ensureMoves` creates nothing. -/
theorem ensureMoves_idle {st : Session} {b : Int} {statuses : List (Value × Int)}
    (hfits : fitsInt64 b = true) (hmoves : MovesKnown st.db b statuses) :
    ensureMoves b statuses st = .ok 0 st := by
  unfold ensureMoves
  dsimp only
  rw [Txn.bind_of_run (Txn.param_run (show bindValue (.int b) = .ok (.int b) by
      simp [bindValue, hfits])),
    Txn.bind_of_run Txn.query_run,
    Txn.bind_of_run (List.mapM_run
      (g := fun t => ((t.get "from_status_id").toValue, (t.get "to_status_id").toValue)) fun t _ => ?_),
    Txn.bind_of_run (List.forIn_idle fun m hm => ?_)]
  · rfl
  · rw [Txn.bind_of_run (List.forIn_idle fun dst hdst => ?_)]
    · rfl
    · have hin := hmoves m hm dst hdst
      unfold movesIn hasPair at hin
      simp only [hin, Bool.not_true, Bool.false_eq_true, if_false]
      rfl
  · rw [Txn.bind_of_run (Txn.read_run (TableId.read_integer _ rfl rfl)),
      Txn.bind_of_run (Txn.read_run (TableId.read_integer _ rfl rfl))]
    rfl

/-! ## The grant rows of the preset roles -/

/-- The roles of preset names. -/
def presetRolesIn (d : Db) : Table :=
  d.roles.filter fun r => (rolePresets.map (·.1)).contains (r.text "name")

/-- The role the grant rows of a preset go to: the last preset role of its name. -/
def roleFor (d : Db) (name : String) : Option Row :=
  (presetRolesIn d).reverse.find? (·.text "name" == name)

/-- The grant rows of a branch, as pairs of stored role and status keys. -/
def grantKeysIn (d : Db) (branch : Int) : List (Value × Value) :=
  (d.grants.filter (·.is .grants "branch_id" (.int branch))).map fun g =>
    ((g.get "role_id").toValue, (g.get "status_id").toValue)

/-- Every preset role found has a grant row at every status given. -/
def GrantsKnown (d : Db) (branch : Int) (statuses : List (Value × Int)) : Prop :=
  ∀ p ∈ rolePresets, ∀ role ∈ roleFor d p.1, ∀ s ∈ statuses,
    hasPair (grantKeysIn d branch) role.id s.2 = true

/-- A grant row as the seed makes it: in the branch, for a role of a preset's name, holding
exactly the capabilities of the preset. -/
def GrantMade (d : Db) (branch : Int) (g : Row) : Prop :=
  g.get "branch_id" = .int branch ∧ ∃ p ∈ rolePresets, ∃ role ∈ d.roles,
    role.text "name" = p.1 ∧ g.get "role_id" = .int role.id ∧
      Access.grantCapabilities g = expandPreset p.2

/-- The role found for a preset is a role of its name. -/
theorem roleFor_spec {d : Db} {name : String} {role : Row} (h : roleFor d name = some role) :
    role ∈ d.roles ∧ role.text "name" = name := by
  have hmem := List.mem_of_find?_eq_some h
  have hname := List.find?_some h
  exact ⟨(List.mem_filter.1 (List.mem_reverse.1 hmem)).1, by simpa using hname⟩

/-- A grant row stored from flags holds exactly the capabilities flagged. -/
theorem grantCapabilities_stored {b r s : Int} {held : Capability → Bool} {row : Row}
    (hst : Stores TableId.grants.schema (Access.grantGiven b r s held) row) :
    Access.grantCapabilities row = Capability.all.filter held := by
  unfold Access.grantCapabilities
  refine List.filter_congr fun c _ => ?_
  have hc : row.get c.name = .int (if held c then 1 else 0) :=
    Stores.flag hst (by cases c <;> decide) (by cases c <;> rfl) (by cases c <;> rfl)
  rw [hc]
  cases held c <;> rfl

/-- Flagging each capability by membership in an expanded preset flags the preset itself. -/
theorem filter_contains_expandPreset (codes : List String) :
    Capability.all.filter (fun c => (expandPreset codes).contains c) = expandPreset codes := by
  unfold expandPreset expandPresetBy CapSet.ofPred
  split
  · exact List.filter_eq_self.2 fun c hc => by simpa using hc
  · exact List.filter_congr fun c hc => by simp [hc]

/-- Rows of other tables leave the grant rows of a branch a prefix. -/
theorem grantKeysIn_extend {ts : List TableId} {d d' : Db} (h : Db.Grows ts d d') (b : Int) :
    grantKeysIn d b <+: grantKeysIn d' b :=
  ((h.rows_extend .grants).filter _).map _

/-- A grant row of the branch appended to the table adds its keys. -/
theorem grantKeysIn_append {d : Db} {b r s : Int} {row : Row} (hb : row.get "branch_id" = .int b)
    (hr : row.get "role_id" = .int r) (hs : row.get "status_id" = .int s) :
    grantKeysIn (d.withRows .grants (d.grants ++ [row])) b = grantKeysIn d b ++ [(.int r, .int s)] := by
  have hrow : row.is .grants "branch_id" (.int b) = true := by
    rw [Orders.Row.is_int rfl hb]
    simp
  simp [grantKeysIn, Db.withRows, List.filter_append, hrow, hr, hs, Cell.toValue]

/-- A run of the loop that gives one role its grant rows, ending with no refused write held,
appends rows of the branch for the role holding the preset; when the keys it checks were
those of the branch, the role then has a row at every status. -/
theorem grantLoop_settled {b : Int} {role : Row} {preset : List String}
    {statuses : List (Value × Int)} {existing : List (Value × Value)} {c c' : Nat}
    {st st' : Session}
    (h : (forIn statuses c (fun x k =>
      if (!existing.any fun e => e.1.sameMember (.int role.id) && e.2.sameMember (.int x.2)) = true
      then do
        let _ ← Txn.insert .grants ([("branch_id", .int b), ("role_id", .int role.id),
          ("status_id", .int x.2)] ++
          Capability.all.map fun cap => (cap.name, .bool ((expandPreset preset).contains cap)))
        pure (ForInStep.yield (k + 1))
      else pure (ForInStep.yield k)) : Txn Nat) st = .ok c' st')
    (hw : st'.waiting = none) :
    st.waiting = none ∧ ∃ d, st' = { st with db := d } ∧ Db.Grows [.grants] st.db d ∧
      (∃ new, d.grants = st.db.grants ++ new ∧ ∀ g ∈ new, g.get "branch_id" = .int b ∧
        g.get "role_id" = .int role.id ∧ Access.grantCapabilities g = expandPreset preset) ∧
      (existing <+: grantKeysIn st.db b →
        ∀ s ∈ statuses, hasPair (grantKeysIn d b) role.id s.2 = true) := by
  -- the rows appended so far are the role's, and it has a row at the statuses passed
  let I : List (Value × Int) → Nat → Session → Prop := fun pre _ st1 =>
    ∃ d, st1 = { st with db := d } ∧ Db.Grows [.grants] st.db d ∧
      (∃ new, d.grants = st.db.grants ++ new ∧ ∀ g ∈ new, g.get "branch_id" = .int b ∧
        g.get "role_id" = .int role.id ∧ Access.grantCapabilities g = expandPreset preset) ∧
      (existing <+: grantKeysIn st.db b → ∀ s ∈ pre, hasPair (grantKeysIn d b) role.id s.2 = true)
  have hpass := List.forIn_settled I ?_ h hw
  · obtain ⟨hw0, hI⟩ := hpass
    exact ⟨hw0, hI ⟨st.db, rfl, Db.Grows.refl _ _, ⟨[], by simp, fun _ h => absurd h List.not_mem_nil⟩,
      fun _ _ h => absurd h List.not_mem_nil⟩⟩
  · intro pre x k st1 step st2 _ hrun hw2
    split at hrun
    · obtain ⟨id, st3, hins, hrest⟩ := Txn.bind_ok hrun
      cases hrest
      obtain ⟨hw1, row, rfl, -, -, hst⟩ := Txn.insert_settled hins hw2
      refine ⟨hw1, _, rfl, fun ⟨d, hst1, hgrow, ⟨new, hnew, hmade⟩, hall⟩ => ?_⟩
      subst hst1
      have hb : row.get "branch_id" = .int b := Stores.int hst (by decide) rfl rfl
      have hr : row.get "role_id" = .int role.id := Stores.int hst (by decide) rfl rfl
      have hs : row.get "status_id" = .int x.2 := Stores.int hst (by decide) rfl rfl
      have hcaps : Access.grantCapabilities row = expandPreset preset := by
        rw [grantCapabilities_stored hst, filter_contains_expandPreset]
      refine ⟨_, rfl, hgrow.trans (Db.grows_append _ _), ⟨new ++ [row], ?_, fun g hg => ?_⟩,
        fun hex y hy => ?_⟩
      · show d.grants ++ [row] = _
        rw [hnew, List.append_assoc]
      · rcases List.mem_append.1 hg with hg | hg
        · exact hmade g hg
        · rw [List.mem_singleton.1 hg]
          exact ⟨hb, hr, hcaps⟩
      · show hasPair (grantKeysIn (d.withRows .grants (d.grants ++ [row])) b) role.id y.2 = true
        rw [grantKeysIn_append hb hr hs]
        rcases List.mem_append.1 hy with hy | hy
        · exact hasPair_of_prefix (List.prefix_append _ _) (hall hex y hy)
        · rw [List.mem_singleton.1 hy]
          exact hasPair_append_self _ _ _
    · next hold =>
      cases hrun
      refine ⟨hw2, _, rfl, fun ⟨d, hst1, hgrow, hmade, hall⟩ =>
        ⟨d, hst1, hgrow, hmade, fun hex y hy => ?_⟩⟩
      rcases List.mem_append.1 hy with hy | hy
      · exact hall hex y hy
      · rw [List.mem_singleton.1 hy]
        -- the row was among the keys checked, which only grew
        have hin : hasPair existing role.id x.2 = true := by simpa [hasPair] using hold
        exact hasPair_of_prefix (hex.trans (grantKeysIn_extend hgrow b)) hin

/-- A run of `ensureGrants` that ends with no refused write held appends grant rows of the
branch, each for a preset role and holding its preset, after which every preset role found
has a row at every status given. -/
theorem ensureGrants_settled {st st' : Session} {b : Int} {statuses : List (Value × Int)}
    {r : Nat × List String} (h : ensureGrants b statuses st = .ok r st')
    (hw : st'.waiting = none) :
    st.waiting = none ∧ ∃ d, st' = { st with db := d } ∧ Db.Grows [.grants] st.db d ∧
      GrantsKnown d b statuses ∧
        ∃ new, d.grants = st.db.grants ++ new ∧ ∀ g ∈ new, GrantMade st.db b g := by
  unfold ensureGrants at h
  dsimp only at h
  rw [Txn.bind_of_run Txn.query_run] at h
  obtain ⟨cell, st1, hparam, hbody⟩ := Txn.bind_ok h
  obtain ⟨-, rfl, hst1⟩ := Txn.param_int_ok hparam
  subst st1
  obtain ⟨ex, st2, hread, h⟩ := Txn.bind_ok hbody
  rw [List.mapM_run (g := fun g => ((g.get "role_id").toValue, (g.get "status_id").toValue))
    fun g _ => ?_] at hread
  swap
  · rw [Txn.bind_of_run (Txn.read_run (TableId.read_integer _ rfl rfl)),
      Txn.bind_of_run (Txn.read_run (TableId.read_integer _ rfl rfl))]
    rfl
  cases hread
  obtain ⟨s, st3, hloop, h⟩ := Txn.bind_ok h
  obtain ⟨_, st4, hflush, h⟩ := Txn.bind_ok h
  cases Txn.flush_ok hflush
  cases h
  -- the rows appended so far are as the seed makes them, and the presets passed are covered
  let I : List (String × List String) → Nat × List String → Session → Prop := fun pre _ st1 =>
    ∃ d, st1 = { st with db := d } ∧ Db.Grows [.grants] st.db d ∧
      (∃ new, d.grants = st.db.grants ++ new ∧ ∀ g ∈ new, GrantMade st.db b g) ∧
      ∀ p ∈ pre, ∀ role, roleFor st.db p.1 = some role → ∀ s ∈ statuses,
        hasPair (grantKeysIn d b) role.id s.2 = true
  have hpass := List.forIn_settled I ?_ hloop hw
  · obtain ⟨hw0, hI⟩ := hpass
    obtain ⟨d, rfl, hgrow, hmade, hall⟩ := hI ⟨st.db, rfl, Db.Grows.refl _ _,
      ⟨[], by simp, fun _ h => absurd h List.not_mem_nil⟩, fun _ h => absurd h List.not_mem_nil⟩
    -- the grant rows leave the roles as they were
    have hroles : d.roles = st.db.roles := hgrow.rows_eq (t := .roles) (by decide)
    have hfor : roleFor d = roleFor st.db := by
      unfold roleFor presetRolesIn
      rw [hroles]
    exact ⟨hw0, d, rfl, hgrow, fun p hp role hrole => hall p hp role (hfor ▸ hrole), hmade⟩
  · intro pre ⟨name, preset⟩ ⟨k, notes⟩ st1 step st2 hx hrun hw2
    dsimp only at hrun
    rw [show (st.db.roles.filter fun r => (rolePresets.map (·.1)).contains (r.text "name")).reverse.find?
      (·.text "name" == name) = roleFor st.db name from rfl] at hrun
    cases hrole : roleFor st.db name with
    | none =>
      -- no role of the name: a warning, and nothing written
      rw [hrole] at hrun
      cases hrun
      refine ⟨hw2, _, rfl, fun ⟨d, hst1, hgrow, hmade, hall⟩ =>
        ⟨d, hst1, hgrow, hmade, fun p hp role hr => ?_⟩⟩
      rcases List.mem_append.1 hp with hp | hp
      · exact hall p hp role hr
      · rw [List.mem_singleton.1 hp, hrole] at hr
        cases hr
    | some role =>
      rw [hrole] at hrun
      obtain ⟨k', st3, hinner, hrest⟩ := Txn.bind_ok hrun
      cases hrest
      obtain ⟨hw1, d', rfl, hgrow', ⟨new', hnew', hmade'⟩, hcover⟩ := grantLoop_settled hinner hw2
      refine ⟨hw1, _, rfl, fun ⟨d, hst1, hgrow, ⟨new, hnew, hmade⟩, hall⟩ => ?_⟩
      subst hst1
      obtain ⟨hmem, hname⟩ := roleFor_spec hrole
      refine ⟨d', rfl, hgrow.trans hgrow', ⟨new ++ new', by rw [hnew', hnew, List.append_assoc],
        fun g hg => ?_⟩, fun p hp role' hr => ?_⟩
      · rcases List.mem_append.1 hg with hg | hg
        · exact hmade g hg
        · obtain ⟨hb, hr, hcaps⟩ := hmade' g hg
          exact ⟨hb, (name, preset), hx, role, hmem, hname, hr, hcaps⟩
      · rcases List.mem_append.1 hp with hp | hp
        · exact fun s hs => hasPair_of_prefix (grantKeysIn_extend hgrow' b) (hall p hp role' hr s hs)
        · rw [List.mem_singleton.1 hp, hrole] at hr
          cases hr
          exact hcover (grantKeysIn_extend hgrow b)

/-- With every preset role found having a row at every status given, `ensureGrants` creates
nothing. -/
theorem ensureGrants_idle {st : Session} {b : Int} {statuses : List (Value × Int)}
    (hw : st.waiting = none) (hfits : fitsInt64 b = true) (hgrants : GrantsKnown st.db b statuses) :
    ∃ r, ensureGrants b statuses st = .ok r st ∧ r.1 = 0 := by
  unfold ensureGrants
  dsimp only
  rw [Txn.bind_of_run Txn.query_run,
    Txn.bind_of_run (Txn.param_run (show bindValue (.int b) = .ok (.int b) by
      simp [bindValue, hfits])),
    Txn.bind_of_run (List.mapM_run
      (g := fun g => ((g.get "role_id").toValue, (g.get "status_id").toValue)) fun g _ => ?_)]
  · refine Txn.bind_stays (List.forIn_stays (fun s : Nat × List String => s.1 = 0)
      (fun x hx s hs => ?_) _ rfl) fun s hs => ⟨s, ?_, hs⟩
    · obtain ⟨k, notes⟩ := s
      dsimp only at hs
      subst hs
      rw [show (st.db.roles.filter fun r => (rolePresets.map (·.1)).contains (r.text "name")).reverse.find?
        (·.text "name" == x.1) = roleFor st.db x.1 from rfl]
      cases hrole : roleFor st.db x.1 with
      | none => exact ⟨_, rfl, rfl⟩
      | some role =>
        refine ⟨(0, notes), ?_, rfl⟩
        dsimp only
        rw [Txn.bind_of_run (List.forIn_idle fun y hy => ?_)]
        · rfl
        · have hin := hgrants x hx role hrole y hy
          unfold hasPair grantKeysIn at hin
          simp only [hin, Bool.not_true, Bool.false_eq_true, if_false]
          rfl
    · rw [Txn.bind_of_run (Txn.flush_run hw)]
      rfl
  · rw [Txn.bind_of_run (Txn.read_run (TableId.read_integer _ rfl rfl)),
      Txn.bind_of_run (Txn.read_run (TableId.read_integer _ rfl rfl))]
    rfl

/-! ## The first administrator -/

/-- The roles of the super role's name, as a lookup by name finds them. -/
def superRolesNamed (d : Db) : Table := d.roles.filter (·.is .roles "name" (.text superAdminRole))

/-- The administrators of the first administrator's e-mail. -/
def adminsNamed (d : Db) : Table := d.admins.filter (·.is .admins "email" (.text adminEmail))

/-- The links of an administrator to a branch. -/
def adminLinks (d : Db) (admin branch : Int) : Table :=
  d.adminBranches.filter fun ab =>
    ab.is .adminBranches "admin_id" (.int admin) && ab.is .adminBranches "branch_id" (.int branch)

/-- The first administrator exists and works in the branch, unless no role has the super
role's name. -/
def AdminReady (d : Db) (branch : Int) : Prop :=
  superRolesNamed d = [] ∨
    ∃ sup a ab, superRolesNamed d = [sup] ∧ adminsNamed d = [a] ∧ adminLinks d a.id branch = [ab]

/-- Linking an administrator that has no link to the branch leaves one link. -/
theorem adminLink_settled {st st' : Session} {a b id : Int}
    (h : Txn.insert .adminBranches [("admin_id", .int a), ("branch_id", .int b)] st = .ok id st')
    (hw : st'.waiting = none) (hnone : adminLinks st.db a b = []) :
    st.waiting = none ∧ ∃ d, st' = { st with db := d } ∧ Db.Grows [.adminBranches] st.db d ∧
      ∃ ab, adminLinks d a b = [ab] := by
  obtain ⟨hw0, row, rfl, -, -, hst⟩ := Txn.insert_settled h hw
  have ha : row.get "admin_id" = .int a := Stores.int hst (by decide) rfl rfl
  have hb : row.get "branch_id" = .int b := Stores.int hst (by decide) rfl rfl
  refine ⟨hw0, _, rfl, Db.grows_append _ _, row, ?_⟩
  show (st.db.adminBranches ++ [row]).filter _ = [row]
  rw [List.filter_append, show st.db.adminBranches.filter _ = [] from hnone, List.filter_singleton,
    Orders.Row.is_int rfl ha, Orders.Row.is_int rfl hb]
  simp

/-- A run of `ensureAdmin` that ends with no refused write held leaves the first administrator,
working in the branch, unless no role has the super role's name. -/
theorem ensureAdmin_settled {st st' : Session} {b : Int} {notes : List String}
    (h : ensureAdmin b st = .ok notes st') (hw : st'.waiting = none) :
    st.waiting = none ∧ ∃ d, st' = { st with db := d } ∧
      Db.Grows [.admins, .adminRoles, .adminBranches] st.db d ∧ AdminReady d b := by
  unfold ensureAdmin at h
  dsimp only at h
  rw [Txn.bind_of_run Txn.query_run] at h
  rw [show st.db.roles.filter (·.is .roles "name" (.text superAdminRole)) = superRolesNamed st.db
    from rfl] at h
  cases hsup : superRolesNamed st.db with
  | nil =>
    rw [hsup] at h
    cases h
    exact ⟨hw, st.db, rfl, Db.Grows.refl _ _, Or.inl hsup⟩
  | cons sup rest =>
    cases rest with
    | cons _ _ =>
      rw [hsup] at h
      cases h
    | nil =>
      rw [hsup] at h
      dsimp only at h
      rw [show st.db.admins.filter (·.is .admins "email" (.text adminEmail)) = adminsNamed st.db
        from rfl] at h
      cases ha : adminsNamed st.db with
      | nil =>
        -- the administrator is created and given the super role, then linked when unlinked
        rw [ha] at h
        obtain ⟨id, st1, hins, h⟩ := Txn.bind_ok h
        obtain ⟨_, st2, hflush, h⟩ := Txn.bind_ok h
        cases Txn.flush_ok hflush
        obtain ⟨_, st3, hrole, h⟩ := Txn.bind_ok h
        rw [Txn.bind_of_run (show (pure (id, _) : Txn (Int × List String)) st3 = .ok (id, _) st3
          from rfl), Txn.bind_of_run Txn.query_run] at h
        dsimp only at h
        rw [show st3.db.adminBranches.filter (fun ab => ab.is .adminBranches "admin_id" (.int id) &&
          ab.is .adminBranches "branch_id" (.int b)) = adminLinks st3.db id b from rfl] at h
        have hlinked : st3.waiting = none ∧ ∃ d3, st' = { st3 with db := d3 } ∧
            Db.Grows [.adminBranches] st3.db d3 ∧ ∃ ab, adminLinks d3 id b = [ab] := by
          cases hl : adminLinks st3.db id b with
          | nil =>
            rw [hl] at h
            obtain ⟨_, st4, hlink, h⟩ := Txn.bind_ok h
            cases h
            exact adminLink_settled hlink hw hl
          | cons l rest =>
            cases rest with
            | nil =>
              rw [hl] at h
              cases h
              exact ⟨hw, _, rfl, Db.Grows.refl _ _, l, hl⟩
            | cons _ _ =>
              rw [hl] at h
              cases h
        obtain ⟨hw3, d3, rfl, hgrow3, ab, hab⟩ := hlinked
        obtain ⟨hw2, row2, rfl, -, -, -⟩ := Txn.insert_settled hrole hw3
        obtain ⟨hw0, row, rfl, hid, -, hst⟩ := Txn.insert_settled hins hw2
        have hemail : row.get "email" = .text adminEmail := Stores.text hst (by decide) rfl rfl
        have hgrow : Db.Grows [.admins, .adminRoles, .adminBranches] st.db d3 :=
          ((Db.grows_append (t := .admins) _ _).mono (by simp)).trans
            (((Db.grows_append (t := .adminRoles) _ _).mono (by simp)).trans (hgrow3.mono (by simp)))
        have hroles : d3.roles = st.db.roles := hgrow.rows_eq (t := .roles) (by decide)
        -- the links and the role grants leave the administrators as the insert left them
        have hadmins : d3.admins = st.db.admins ++ [row] := by
          rw [show d3.admins = d3.rows .admins from rfl, hgrow3.rows_eq (by decide)]
          rfl
        refine ⟨hw0, d3, rfl, hgrow, Or.inr ⟨sup, row, ab, ?_, ?_, hid ▸ hab⟩⟩
        · unfold superRolesNamed
          rw [hroles]
          exact hsup
        · unfold adminsNamed
          rw [hadmins, List.filter_append, show st.db.admins.filter _ = [] from ha,
            List.filter_singleton, Row.is_text_self rfl hemail]
          rfl
      | cons a rest =>
        cases rest with
        | cons _ _ =>
          rw [ha] at h
          obtain ⟨_, _, hthrow, _⟩ := Txn.bind_ok h
          cases hthrow
        | nil =>
          -- the administrator exists, and is linked when unlinked
          rw [ha] at h
          dsimp only at h
          rw [Txn.bind_of_run (show (pure (a.id, []) : Txn (Int × List String)) st = .ok (a.id, []) st
            from rfl), Txn.bind_of_run Txn.query_run] at h
          dsimp only at h
          rw [show st.db.adminBranches.filter (fun ab => ab.is .adminBranches "admin_id" (.int a.id) &&
            ab.is .adminBranches "branch_id" (.int b)) = adminLinks st.db a.id b from rfl] at h
          have hlinked : st.waiting = none ∧ ∃ d3, st' = { st with db := d3 } ∧
              Db.Grows [.adminBranches] st.db d3 ∧ ∃ ab, adminLinks d3 a.id b = [ab] := by
            cases hl : adminLinks st.db a.id b with
            | nil =>
              rw [hl] at h
              obtain ⟨_, st4, hlink, h⟩ := Txn.bind_ok h
              cases h
              exact adminLink_settled hlink hw hl
            | cons l rest =>
              cases rest with
              | nil =>
                rw [hl] at h
                cases h
                exact ⟨hw, _, rfl, Db.Grows.refl _ _, l, hl⟩
              | cons _ _ =>
                rw [hl] at h
                cases h
          obtain ⟨hw0, d3, rfl, hgrow3, ab, hab⟩ := hlinked
          have hroles : d3.roles = st.db.roles := hgrow3.rows_eq (t := .roles) (by decide)
          have hadmins : d3.admins = st.db.admins := hgrow3.rows_eq (t := .admins) (by decide)
          refine ⟨hw0, d3, rfl, hgrow3.mono (by simp), Or.inr ⟨sup, a, ab, ?_, ?_, hab⟩⟩
          · unfold superRolesNamed
            rw [hroles]
            exact hsup
          · unfold adminsNamed
            rw [hadmins]
            exact ha

/-- With the first administrator ready, `ensureAdmin` creates nothing. -/
theorem ensureAdmin_idle {st : Session} {b : Int} (hready : AdminReady st.db b) :
    ∃ notes, ensureAdmin b st = .ok notes st := by
  unfold ensureAdmin
  dsimp only
  rw [Txn.bind_of_run Txn.query_run,
    show st.db.roles.filter (·.is .roles "name" (.text superAdminRole)) = superRolesNamed st.db
      from rfl]
  rcases hready with hnone | ⟨sup, a, ab, hsup, ha, hab⟩
  · rw [hnone]
    exact ⟨_, rfl⟩
  · rw [hsup]
    dsimp only
    rw [show st.db.admins.filter (·.is .admins "email" (.text adminEmail)) = adminsNamed st.db
      from rfl, ha]
    dsimp only
    rw [Txn.bind_of_run (show (pure (a.id, []) : Txn (Int × List String)) st = .ok (a.id, []) st
      from rfl), Txn.bind_of_run Txn.query_run]
    dsimp only
    rw [show st.db.adminBranches.filter (fun x => x.is .adminBranches "admin_id" (.int a.id) &&
      x.is .adminBranches "branch_id" (.int b)) = adminLinks st.db a.id b from rfl, hab]
    exact ⟨_, rfl⟩

end Seed

end RepairShop
