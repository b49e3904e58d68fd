import Mathlib
import RepairShop.Proofs.SeedSteps

/- Seeding twice creates nothing the second time.

   `Seed.seedWorkflow` makes sure, step by step, that the global codes, the preset roles, the
   codes of the super role, the branch, its default statuses and moves, the grant rows of the
   preset roles and the first administrator exist, creating what is missing. Every step only
   inserts, and what each step makes sure of is about tables the later steps do not write.

   This file gathers what the steps make sure of as `Seed.Seeded`, and proves that

   1. a seed run that ends with no refused write held leaves the database seeded, only
      appending rows, each grant row it appends holding exactly the preset of its role
      (`Seed.seedWorkflow_settled`);
   2. on a seeded database a seed run creates nothing (`Seed.seedWorkflow_idle`);
   3. so a committed seed run, run again, creates nothing and gives the same branch.

   The seed sorts with `List.mergeSort`; for a total and transitive order it is insertion sort
   (`Seed.mergeSort_eq_insertionSort_of_total`), so a seed run of the empty store evaluates. -/

namespace RepairShop

open Store Json

namespace Seed

/-! ## Seeded databases -/

/-- The tables the seed writes. -/
def seedTables : List TableId :=
  [.permissions, .roles, .rolePermissions, .branches, .statuses, .transitions, .grants, .admins,
    .adminRoles, .adminBranches]

/-- What a seed run leaves for the branch of a name under a key: every global code held, every
preset role named, the super role holding every code, one branch of the name, its default
statuses, moves and grant rows, and the first administrator working in it. -/
structure Seeded (d : Db) (name : String) (branch : Int) : Prop where
  codes : ∀ c ∈ permissionCodes, c ∈ codesIn d
  roles : ∀ p ∈ rolePresets, p.1 ∈ namesIn d
  superHolds : SuperHolds d
  named : ∃ br, branchesNamed d name = [br] ∧ br.id = branch
  fits : fitsInt64 branch = true
  statuses : StatusesKnown d branch
  moves : MovesKnown d branch (knownIn d branch)
  grants : GrantsKnown d branch (knownIn d branch)
  admin : AdminReady d branch

/-- On a seeded database, a seed run of the branch's name creates nothing and gives the
branch's key. -/
theorem seedWorkflow_idle {st : Session} {name : String} {b : Int} (hw : st.waiting = none)
    (hs : Seeded st.db name b) :
    ∃ notes, seedWorkflow (.str name) st = .ok (⟨0, 0, 0, 0, b⟩, notes) st := by
  obtain ⟨br, hbr, rfl⟩ := hs.named
  obtain ⟨⟨k, warnings⟩, hgrants, hk⟩ := ensureGrants_idle hw hs.fits hs.grants
  obtain ⟨notices, hadmin⟩ := ensureAdmin_idle hs.admin
  dsimp only at hk
  subst hk
  unfold seedWorkflow
  rw [Txn.bind_of_run (ensurePermissions_idle hw hs.codes),
    Txn.bind_of_run (ensureRoles_idle hw hs.roles hs.superHolds),
    Txn.bind_of_run (ensureBranch_idle hbr), Txn.bind_of_run (ensureStatuses_idle hw hs.fits hs.statuses),
    Txn.bind_of_run (ensureMoves_idle hs.fits hs.moves), Txn.bind_of_run hgrants]
  dsimp only
  rw [Txn.bind_of_run hadmin]
  exact ⟨_, rfl⟩

/-- A seed run that ends with no refused write held, on permission rows of distinct keys,
only appends rows to the seed's tables and leaves the database seeded for the branch whose key
it gives; the grant rows it appends are as the seed makes them. -/
theorem seedWorkflow_settled {st st' : Session} {name : String} {c : Counters}
    {notes : List String} (h : seedWorkflow (.str name) st = .ok (c, notes) st')
    (hw : st'.waiting = none) (hk : (st.db.permissions.map Row.id).Nodup) :
    st.waiting = none ∧ ∃ d, st' = { st with db := d } ∧ Db.Grows seedTables st.db d ∧
      Seeded d name c.branchId ∧
        ∃ new, d.grants = st.db.grants ++ new ∧ ∀ g ∈ new, GrantMade d c.branchId g := by
  unfold seedWorkflow at h
  obtain ⟨n1, st1, h1, h⟩ := Txn.bind_ok h
  obtain ⟨n2, st2, h2, h⟩ := Txn.bind_ok h
  obtain ⟨b, st3, h3, h⟩ := Txn.bind_ok h
  obtain ⟨known, st4, h4, h⟩ := Txn.bind_ok h
  obtain ⟨n5, st5, h5, h⟩ := Txn.bind_ok h
  obtain ⟨⟨n6, warnings⟩, st6, h6, h⟩ := Txn.bind_ok h
  obtain ⟨notices, st7, h7, h⟩ := Txn.bind_ok h
  cases h
  -- each step ends with no refused write held, as the run does; followed back from the end
  obtain ⟨hw6, d7, rfl, hg7, hadmin⟩ := ensureAdmin_settled h7 hw
  obtain ⟨hw5, d6, rfl, hg6, hgrants, new, hnew, hmade⟩ := ensureGrants_settled h6 hw6
  obtain ⟨hw4, d5, rfl, hg5, hmoves⟩ := ensureMoves_settled h5 hw5
  obtain ⟨hw3, hfits, d4, rfl, hg4, rfl, hstatuses⟩ := ensureStatuses_settled h4 hw4
  obtain ⟨hw2, d3, rfl, hg3, br, hbr, rfl⟩ := ensureBranch_settled h3 hw3
  obtain ⟨hw1, hroles⟩ := ensureRoles_settled h2 hw2
  obtain ⟨hw0, d1, rfl, hg1, hk1, hcodes⟩ := ensurePermissions_settled h1 hw1 hk
  obtain ⟨d2, rfl, hg2, hnames, hsuper⟩ := hroles hk1 hcodes
  -- each step's facts are about its own tables, which the later steps leave as they were
  have g67 : Db.Grows [.grants, .admins, .adminRoles, .adminBranches] d5 d7 :=
    (hg6.mono (by simp)).trans (hg7.mono (by simp))
  have g57 : Db.Grows [.transitions, .grants, .admins, .adminRoles, .adminBranches] d4 d7 :=
    (hg5.mono (by simp)).trans (g67.mono (by simp))
  have g47 : Db.Grows [.statuses, .transitions, .grants, .admins, .adminRoles, .adminBranches]
      d3 d7 := (hg4.mono (by simp)).trans (g57.mono (by simp))
  have g37 : Db.Grows [.branches, .statuses, .transitions, .grants, .admins, .adminRoles,
      .adminBranches] d2 d7 := (hg3.mono (by simp)).trans (g47.mono (by simp))
  have g27 : Db.Grows [.roles, .rolePermissions, .branches, .statuses, .transitions, .grants,
      .admins, .adminRoles, .adminBranches] d1 d7 := (hg2.mono (by simp)).trans (g37.mono (by simp))
  have g07 : Db.Grows seedTables st.db d7 := (hg1.mono (by simp [seedTables])).trans
    (g27.mono (by simp [seedTables]))
  have hperm : d7.permissions = d1.permissions := g27.rows_eq (t := .permissions) (by decide)
  have hperm2 : d7.permissions = d2.permissions := g37.rows_eq (t := .permissions) (by decide)
  have hroles7 : d7.roles = d2.roles := g37.rows_eq (t := .roles) (by decide)
  have hlinks7 : d7.rolePermissions = d2.rolePermissions :=
    g37.rows_eq (t := .rolePermissions) (by decide)
  have hbranches : d7.branches = d3.branches := g47.rows_eq (t := .branches) (by decide)
  have hstat : d7.statuses = d4.statuses := g57.rows_eq (t := .statuses) (by decide)
  have hmoves7 : d7.transitions = d5.transitions := g67.rows_eq (t := .transitions) (by decide)
  have hgrants7 : d7.grants = d6.grants := hg7.rows_eq (t := .grants) (by decide)
  have hroles6 : d7.roles = d6.roles := hg7.rows_eq (t := .roles) (by decide)
  have hroles5 : d7.roles = d5.roles := g67.rows_eq (t := .roles) (by decide)
  have hgrants5 : d5.grants = st.db.grants := by
    have g05 : Db.Grows [.permissions, .roles, .rolePermissions, .branches, .statuses,
        .transitions] st.db d5 := (hg1.mono (by simp)).trans ((hg2.mono (by simp)).trans
          ((hg3.mono (by simp)).trans ((hg4.mono (by simp)).trans (hg5.mono (by simp)))))
    exact g05.rows_eq (t := .grants) (by decide)
  have hknown : knownIn d7 br.id = knownIn d4 br.id := by
    unfold knownIn statusesOf
    rw [hstat]
  refine ⟨hw0, d7, rfl, g07, ⟨?_, ?_, ?_, ?_, hfits, ?_, ?_, ?_, hadmin⟩, new, ?_, ?_⟩
  · intro c hc
    unfold codesIn
    rw [hperm]
    exact hcodes c hc
  · intro p hp
    unfold namesIn
    rw [hroles7]
    exact hnames p hp
  · unfold SuperHolds superIn heldIn linksOf codeOfLink
    rw [hroles7, hlinks7, hperm2]
    exact hsuper
  · unfold branchesNamed
    rw [hbranches]
    exact ⟨br, hbr, rfl⟩
  · unfold StatusesKnown
    rw [hknown]
    exact hstatuses
  · unfold MovesKnown movesIn
    rw [hknown, hmoves7]
    exact hmoves
  · unfold GrantsKnown grantKeysIn roleFor presetRolesIn
    rw [hknown, hgrants7, hroles6]
    exact hgrants
  · rw [hgrants7, hnew, hgrants5]
  · intro g hg
    unfold GrantMade
    rw [hroles5]
    exact hmade g hg

/-- A committed seed run of a name, on permission rows of distinct keys, leaves the database
seeded for the branch whose key it gives, only appending rows to the seed's tables, each grant
row it appends holding exactly the preset of its role; and a second committed seed run of the
name then creates nothing, gives the same key and leaves the session as it was. -/
theorem reseeding_creates_nothing {s s1 : Session} {name : String} {c : Counters}
    {notes : List String} (hk : (s.db.permissions.map Row.id).Nodup)
    (h : Txn.atomically (seedWorkflow (.str name)) s = .ok (c, notes) s1) :
    (∃ notes', Txn.atomically (seedWorkflow (.str name)) s1 =
        .ok (⟨0, 0, 0, 0, c.branchId⟩, notes') s1) ∧
      Seeded s1.db name c.branchId ∧ Db.Grows seedTables s.db s1.db ∧
        ∃ new, s1.db.grants = s.db.grants ++ new ∧ ∀ g ∈ new, GrantMade s1.db c.branchId g := by
  obtain ⟨s', hbody, hw', hsweep⟩ := Txn.atomically_ok_inv h
  obtain ⟨-, d, rfl, hgrow, hseeded, hmade⟩ := seedWorkflow_settled hbody hw' hk
  -- the seed registers no sweeps, so the commit leaves the seeded database settled
  cases hsweep
  refine ⟨?_, hseeded, hgrow, hmade⟩
  obtain ⟨notes', hidle⟩ := seedWorkflow_idle
    (show ({ s with db := d, waiting := none, sweeps := [], settled := d } : Session).waiting = none
      from rfl) hseeded
  exact ⟨notes', Txn.atomically_idle rfl rfl rfl hidle⟩

/-! ## Seeding the empty store

The seed sorts the codes the super role lacks with `List.mergeSort`, whose recursion is well
founded and does not reduce in the kernel. For a total and transitive order merge sort is
insertion sort, which is structural; with it a whole seed run evaluates. -/

/-- Inserting `a` into `l₁ ++ l₂`, where `a` follows every element of `l₁` and precedes the
head of `l₂`, puts it between them. -/
theorem orderedInsert_append {α : Type} (r : α → α → Prop) [DecidableRel r] (a : α)
    (l₁ l₂ : List α) (h₁ : ∀ b ∈ l₁, ¬ r a b) (h₂ : ∀ c ∈ l₂.head?, r a c) :
    (l₁ ++ l₂).orderedInsert r a = l₁ ++ a :: l₂ := by
  induction l₁ with
  | nil =>
    cases l₂ with
    | nil => rfl
    | cons c l₂ => simp [h₂ c rfl]
  | cons b l₁ ih =>
    have hb : ¬ r a b := h₁ b List.mem_cons_self
    simp [hb, ih fun b' hb' => h₁ b' (List.mem_cons_of_mem b hb')]

/-- Merge sort is stable: sorting `a :: l` inserts `a` into the sorted `l` before the first
element it does not follow. -/
theorem mergeSort_cons_eq_orderedInsert {α : Type} {le : α → α → Bool}
    (trans : ∀ a b c, le a b → le b c → le a c) (total : ∀ a b, le a b || le b a)
    (a : α) (l : List α) :
    (a :: l).mergeSort le = (l.mergeSort le).orderedInsert (fun x y => le x y = true) a := by
  obtain ⟨l₁, l₂, h, hl, hlt⟩ := List.mergeSort_cons trans total a l
  -- the sorted result has `a` before every element of `l₂`
  have hsorted := List.pairwise_mergeSort trans total (a :: l)
  rw [h, List.pairwise_append] at hsorted
  rw [h, hl]
  refine (orderedInsert_append _ a l₁ l₂ (fun b hb => by simpa using hlt b hb) ?_).symm
  intro c hc
  exact List.rel_of_pairwise_cons hsorted.2.1 (List.mem_of_mem_head? hc)

/-- For a total and transitive order, merge sort is insertion sort; no antisymmetry is needed,
as both sorts are stable. -/
theorem mergeSort_eq_insertionSort_of_total {α : Type} {le : α → α → Bool}
    (trans : ∀ a b c, le a b → le b c → le a c) (total : ∀ a b, le a b || le b a)
    (l : List α) : l.mergeSort le = l.insertionSort (fun x y => le x y = true) := by
  induction l with
  | nil => simp
  | cons a l ih =>
    rw [mergeSort_cons_eq_orderedInsert trans total, ih]
    rfl

/-- The seed's order on permission rows, by code, is insertion sort. -/
theorem mergeSort_byCode (l : Table) :
    l.mergeSort (fun p q => decide (p.text "code" ≤ q.text "code")) =
      l.insertionSort (fun p q => decide (p.text "code" ≤ q.text "code") = true) :=
  mergeSort_eq_insertionSort_of_total
    (fun _ _ _ hab hbc => by
      simp only [decide_eq_true_eq] at *
      exact le_trans hab hbc)
    (fun a b => by simp [le_total]) l

/-- A store with no rows, and nothing held. -/
def emptyStore : Session := { db := {}, kv := {} }

/-- From the empty store a seed run of `Main` commits and writes grant rows; the theorem above
applies to it, so each appended grant row holds the preset of its role, and a second run
creates nothing. -/
theorem emptyStore_seeds_once :
    ∃ c notes s1, Txn.atomically (seedWorkflow (.str "Main")) emptyStore = .ok (c, notes) s1 ∧
      0 < c.grants ∧ s1.db.grants ≠ [] ∧
      ((∃ notes', Txn.atomically (seedWorkflow (.str "Main")) s1 =
          .ok (⟨0, 0, 0, 0, c.branchId⟩, notes') s1) ∧
        Seeded s1.db "Main" c.branchId ∧ Db.Grows seedTables emptyStore.db s1.db ∧
          ∃ new, s1.db.grants = emptyStore.db.grants ++ new ∧
            ∀ g ∈ new, GrantMade s1.db c.branchId g) := by
  have hrun : (match Txn.atomically (seedWorkflow (.str "Main")) emptyStore with
      | .ok (c, _) s1 => decide (0 < c.grants) && !s1.db.grants.isEmpty
      | .error _ _ => false) = true := by
    simp only [seedWorkflow, ensureRoles, mergeSort_byCode]
    decide +kernel
  cases h : Txn.atomically (seedWorkflow (.str "Main")) emptyStore with
  | error e s1 =>
    rw [h] at hrun
    cases hrun
  | ok r s1 =>
    obtain ⟨c, notes⟩ := r
    rw [h] at hrun
    simp only [Bool.and_eq_true, decide_eq_true_eq, Bool.not_eq_true',
      List.isEmpty_eq_false_iff] at hrun
    exact ⟨c, notes, s1, rfl, hrun.1, hrun.2, reseeding_creates_nothing List.nodup_nil h⟩

end Seed

end RepairShop
