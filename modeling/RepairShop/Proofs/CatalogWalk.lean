import Mathlib
import RepairShop.Orders.Problems
import RepairShop.Proofs.Positions

/- The ancestor walk over the problem catalogue.

   A submitted problem category is allowed for a phone category when its chain (the category,
   its parent, its parent's parent, ..., continued while the current category is open and
   active) repeats no category and passes one mapped to the phone category. The service does not
   walk the database: it first loads the parent links of the submitted categories and of all
   their ancestors, one query per level (`Orders.parentLinks`), and then walks that map
   (`Catalog.ancestors`), comparing keys as values.

   The chain is defined here on the rows of the database (`Catalog.chainAt`), keys compared as
   the database compares them. For a catalogue as the database holds it (`Catalog.Stored`:
   distinct keys strictly inside the 64-bit range, stored cells), this file proves

   1. that a stored cell names a key the same way for the database and for a value comparison
      (`Store.Row.is_id`, `Json.Value.sameMember_int`, `Catalog.parent_read`);
   2. that loading parent links ends with an entry for every category on the chain of every
      submitted one, each entry the category's own link (`Catalog.parentLinks_loads`): a
      breadth-first search whose frontier never names a loaded category, so that every round
      that finds something loads a new category;
   3. that the walk over the loaded map follows the chain: it reports a cycle exactly when the
      chain repeats a category, and otherwise gives the keys of the chain
      (`Catalog.ancestors_follows`). -/

namespace RepairShop

open Store Json

/-! ## Reads that leave the session as it was -/

namespace Txn

variable {α β : Type} {s : Session}

theorem bind_of_run {x : Txn α} {f : α → Txn β} {a : α} (h : x s = .ok a s) :
    (x >>= f) s = f a s := by
  simp only [bind, EStateM.bind, h]

theorem bind_of_fail {x : Txn α} {f : α → Txn β} {e : Failure} (h : x s = .error e s) :
    (x >>= f) s = .error e s := by
  simp only [bind, EStateM.bind, h]

theorem bind_of_ok {x : Txn α} {f : α → Txn β} {a : α} {s' : Session} (h : x s = .ok a s') :
    (x >>= f) s = f a s' := by
  simp only [bind, EStateM.bind, h]

theorem bind_of_error {x : Txn α} {f : α → Txn β} {e : Failure} {s' : Session}
    (h : x s = .error e s') : (x >>= f) s = .error e s' := by
  simp only [bind, EStateM.bind, h]

theorem query_run : Txn.query s = .ok s.db s := rfl

theorem param_run {v : Value} {c : Cell} (h : bindValue v = .ok c) : Txn.param v s = .ok c s := by
  simp only [Txn.param, h]
  rfl

theorem read_run {t : TableId} {r : Row} {column : String} {v : Value}
    (h : t.read r column = .ok v) : Txn.read t r column s = .ok v s := by
  simp only [Txn.read, h]
  rfl

end Txn

theorem List.mapM_run {α β : Type} {s : Session} {f : α → Txn β} {g : α → β} :
    ∀ {xs : List α}, (∀ a ∈ xs, f a s = .ok (g a) s) → xs.mapM f s = .ok (xs.map g) s
  | [], _ => rfl
  | x :: xs, h => by
    rw [List.mapM_cons, Txn.bind_of_run (h x List.mem_cons_self),
      Txn.bind_of_run (List.mapM_run fun a ha => h a (List.mem_cons_of_mem x ha))]
    rfl

/-! ## Keys compared as the database and as values -/

namespace Store

theorem Row.is_id (r : Row) (x : Int) : r.is .problems "id" (.int x) = decide (r.id = x) := by
  have h : TableId.problems.affinityOf "id" = .numeric := rfl
  simp [Row.is, Row.get, h]

/-- A column of integers reads as the value of its cell. -/
theorem TableId.read_integer {t : TableId} {column : String} (r : Row)
    (hid : (column == "id") = false)
    (hkind : (t.schema.column? column).map Column.kind = some .integer) :
    t.read r column = .ok (r.get column).toValue := by
  cases h : t.schema.column? column with
  | none => simp [h] at hkind
  | some c =>
    simp only [h, Option.map_some, Option.some.injEq] at hkind
    simp only [TableId.read, Row.read, hid, h, hkind]
    cases r.get column <;> rfl

end Store

namespace Json.Value

theorem sameMember_int (a b : Int) : Value.sameMember (.int a) (.int b) = (a == b) := by
  simp [Value.sameMember, Value.isNaN, Value.same, Value.num?, Value.Num.same, Value.Num.compare?]

/-- Integer keys of a map compare as integers. -/
@[simp] theorem keyEq_int (a b : Int) : @BEq.beq Value keyEq (.int a) (.int b) = (a == b) :=
  sameMember_int a b

@[simp] theorem contains_int (xs : List Int) (x : Int) :
    @List.contains Value keyEq (xs.map .int) (.int x) = xs.contains x := by
  induction xs with
  | nil => rfl
  | cons y ys ih => simp [List.contains_cons, ih, beq_eq_decide]

end Json.Value

/-! ## The catalogue as the database holds it -/

namespace Catalog

/-- A stored reference to a category or a part: no value, or a 64-bit integer. -/
def IsRef (c : Cell) : Prop := c = .null ∨ ∃ n, c = .int n ∧ fitsInt64 n = true

/-- A catalogue as the database holds it: category keys are distinct, and every reference to a
category or a part (parent links, mappings, part assignments) is no value or a 64-bit
integer. -/
structure Stored (db : Db) : Prop where
  keys : (db.problems.map Row.id).Nodup
  parents : ∀ r ∈ db.problems, IsRef (r.get "parent_id")
  mapped : ∀ m ∈ db.mappings, IsRef (m.get "problem_category_id")
  assigned : ∀ a ∈ db.partAssignments,
    IsRef (a.get "repair_part_id") ∧ IsRef (a.get "problem_category_id")

/-- An open, active category. -/
def Live (r : Row) : Bool := r.isOpen .problems && r.holds "is_active"

/-- The open, active category with key `x`. -/
def liveRow (db : Db) (x : Int) : Option Row := db.problems.find? fun r => r.id == x && Live r

/-- The key a category's parent link holds. -/
def parentKey (r : Row) : Option Int :=
  match r.get "parent_id" with
  | .int p => some p
  | _ => none

/-- The chain of `c`: the category `c`, its parent, its parent's parent, and so on, each step
taken while the category reached is open and active. -/
def chainAt (db : Db) (c : Int) : Nat → Option Row
  | 0 => liveRow db c
  | k + 1 => (chainAt db c k).bind fun r => (parentKey r).bind (liveRow db)

/-- The chain of `c` meets no category twice. -/
def NoRepeat (db : Db) (c : Int) : Prop :=
  ∀ i j a b, i < j → chainAt db c i = some a → chainAt db c j = some b → a.id ≠ b.id

/-- The category is mapped to the phone category given as a query parameter. -/
def Mapped (db : Db) (phone : Cell) (r : Row) : Prop :=
  ∃ m ∈ db.mappings, m.is .mappings "phone_category_id" phone = true ∧
    m.get "problem_category_id" = .int r.id

/-- The chain of `c` meets no category twice and passes one mapped to the phone category. -/
def Reaches (db : Db) (phone : Cell) (c : Int) : Prop :=
  NoRepeat db c ∧ ∃ k a, chainAt db c k = some a ∧ Mapped db phone a

/-- The parent link of a category as the service loads it. -/
def link (r : Row) : Value × Option Value := (.int r.id, (parentKey r).map .int)

/-- Every entry of a loaded map is the link of an open, active category. -/
def Describes (db : Db) (M : ParentMap Value) : Prop :=
  ∀ e ∈ M, ∃ r ∈ db.problems, Live r = true ∧ e = link r

section

variable {db : Db} (hs : Stored db)
include hs

theorem Stored.row_eq {r r' : Row} (hr : r ∈ db.problems) (hr' : r' ∈ db.problems)
    (h : r.id = r'.id) : r = r' :=
  List.inj_on_of_nodup_map hs.keys hr hr' h

theorem liveRow_eq_some {x : Int} {r : Row} :
    liveRow db x = some r ↔ r ∈ db.problems ∧ r.id = x ∧ Live r = true := by
  constructor
  · intro h
    have hp := List.find?_some h
    simp only [Bool.and_eq_true, beq_iff_eq] at hp
    exact ⟨List.mem_of_find?_eq_some h, hp⟩
  · rintro ⟨hr, rfl, hl⟩
    have hsome : (liveRow db r.id).isSome := List.find?_isSome.2 ⟨r, hr, by simp [hl]⟩
    obtain ⟨r', hr'⟩ := Option.isSome_iff_exists.1 hsome
    have hp := List.find?_some hr'
    simp only [Bool.and_eq_true, beq_iff_eq] at hp
    rw [hr', hs.row_eq (List.mem_of_find?_eq_some hr') hr hp.1]

/-- A loaded category is found under its key, with its own parent. -/
theorem parentOf_link {M : ParentMap Value} (hD : Describes db M) {r : Row}
    (hr : r ∈ db.problems) (hl : link r ∈ M) :
    @parentOf? Value Value.keyEq M (.int r.id) = some ((parentKey r).map .int) := by
  have hsome : (M.find? fun e => @BEq.beq Value Value.keyEq e.1 (.int r.id)).isSome :=
    List.find?_isSome.2 ⟨link r, hl, by simp [link]⟩
  obtain ⟨e, he⟩ := Option.isSome_iff_exists.1 hsome
  obtain ⟨r', hr', -, rfl⟩ := hD e (List.mem_of_find?_eq_some he)
  have hid : r'.id = r.id := by simpa [link] using List.find?_some he
  obtain rfl := hs.row_eq hr' hr hid
  simp [parentOf?, he, link]

/-- A key is found in a loaded map exactly when the map holds the link of an open, active
category with that key. -/
theorem parentOf_isSome {M : ParentMap Value} (hD : Describes db M) {x : Int} :
    (@parentOf? Value Value.keyEq M (.int x)).isSome ↔
      ∃ r ∈ db.problems, Live r = true ∧ r.id = x ∧ link r ∈ M := by
  constructor
  · intro h
    unfold parentOf? at h
    rw [Option.isSome_map] at h
    obtain ⟨e, he⟩ := Option.isSome_iff_exists.1 h
    have hmem := List.mem_of_find?_eq_some he
    obtain ⟨r, hr, hl, rfl⟩ := hD e hmem
    exact ⟨r, hr, hl, by simpa [link] using List.find?_some he, hmem⟩
  · rintro ⟨r, hr, -, rfl, hl⟩
    simp [parentOf_link hs hD hr hl]

theorem parentKey_fits {r : Row} (hr : r ∈ db.problems) {p : Int} (h : parentKey r = some p) :
    fitsInt64 p = true := by
  unfold parentKey at h
  rcases hs.parents r hr with hn | ⟨n, hn, hfit⟩ <;> simp_all

/-- The parent the service reads from a category row. -/
theorem parent_read {r : Row} (hr : r ∈ db.problems) :
    (if (r.get "parent_id").toValue.isNull then none else some (r.get "parent_id").toValue) =
      (parentKey r).map .int := by
  unfold parentKey
  rcases hs.parents r hr with hn | ⟨n, hn, _⟩ <;> simp [hn, Cell.toValue, Value.isNull]

end

/-! ## The walk over a loaded map follows the chain -/

/-- A chain that has ended stays ended. -/
theorem chainAt_none_of_le {db : Db} {c : Int} {k : Nat} (h : chainAt db c k = none) :
    ∀ {j}, k ≤ j → chainAt db c j = none := by
  intro j hj
  induction j, hj using Nat.le_induction with
  | base => exact h
  | succ j _ ih => simp [chainAt, ih]

/-- What the outcome of a walk from `c` says about the chain of `c`: a cycle exactly when the
chain meets a category twice; otherwise the keys of the chain. -/
def Follows (db : Db) (c : Int) : Walk Value → Prop
  | .chain vs => NoRepeat db c ∧ ∀ v, v ∈ vs ↔ ∃ k a, chainAt db c k = some a ∧ v = .int a.id
  | .cycle _ => ¬ NoRepeat db c

/-- The map holds the link of every category on the chain of `c`. -/
def Covers (db : Db) (c : Int) (M : ParentMap Value) : Prop :=
  ∀ k a, chainAt db c k = some a → link a ∈ M

/-- The walk's list of visited keys (last first) after `k` steps along the chain of `c`: the
keys of the first `k` categories, all distinct. -/
structure Visited (db : Db) (c : Int) (k : Nat) (seen : List Int) : Prop where
  length : seen.length = k
  nodup : seen.Nodup
  mem : ∀ y, y ∈ seen ↔ ∃ i < k, ∃ a, chainAt db c i = some a ∧ a.id = y
  distinct : ∀ i j a b, i < j → j < k → chainAt db c i = some a → chainAt db c j = some b →
    a.id ≠ b.id

namespace Visited

variable {db : Db} {c : Int} {k : Nat} {seen : List Int}

theorem nil : Visited db c 0 [] :=
  ⟨rfl, List.nodup_nil, by simp, by omega⟩

/-- One more step of the walk, to a category it has not visited. -/
theorem cons (hv : Visited db c k seen) {a : Row} (ha : chainAt db c k = some a)
    (hnew : a.id ∉ seen) : Visited db c (k + 1) (a.id :: seen) where
  length := by simp [hv.length]
  nodup := List.nodup_cons.2 ⟨hnew, hv.nodup⟩
  mem y := by
    rw [List.mem_cons]
    constructor
    · rintro (rfl | hy)
      · exact ⟨k, by omega, a, ha, rfl⟩
      · obtain ⟨i, hi, b, hb, rfl⟩ := (hv.mem y).1 hy
        exact ⟨i, by omega, b, hb, rfl⟩
    · rintro ⟨i, hi, b, hb, rfl⟩
      rcases Nat.lt_succ_iff_lt_or_eq.1 hi with hi | rfl
      · exact Or.inr ((hv.mem _).2 ⟨i, hi, b, hb, rfl⟩)
      · exact Or.inl (by rw [Option.some_injective _ (hb.symm.trans ha)])
  distinct i j a' b hij hj ha' hb := by
    rcases Nat.lt_succ_iff_lt_or_eq.1 hj with hj | rfl
    · exact hv.distinct i j a' b hij hj ha' hb
    · obtain rfl : b = a := Option.some_injective _ (hb.symm.trans ha)
      intro hid
      exact hnew ((hv.mem _).2 ⟨i, hij, a', ha', hid.symm ▸ rfl⟩)

/-- The walk stops where the chain ends: it has visited the whole chain. -/
theorem follows_of_end (hv : Visited db c k seen) (hend : chainAt db c k = none) :
    Follows db c (.chain (seen.map .int).reverse) := by
  have hlt : ∀ {j a}, chainAt db c j = some a → j < k := fun {j a} h => by
    by_contra hj
    simp [chainAt_none_of_le hend (Nat.le_of_not_lt hj)] at h
  refine ⟨fun i j a b hij ha hb => hv.distinct i j a b hij (hlt hb) ha hb, fun v => ?_⟩
  simp only [List.mem_reverse, List.mem_map]
  constructor
  · rintro ⟨y, hy, rfl⟩
    obtain ⟨i, -, a, ha, rfl⟩ := (hv.mem y).1 hy
    exact ⟨i, a, ha, rfl⟩
  · rintro ⟨i, a, ha, rfl⟩
    exact ⟨a.id, (hv.mem _).2 ⟨i, hlt ha, a, ha, rfl⟩, rfl⟩

/-- A walk that has visited the categories of a loaded chain has visited at most as many
categories as the map holds. -/
theorem length_le {M : ParentMap Value} (hv : Visited db c k seen) (hC : Covers db c M) :
    k ≤ M.length := by
  have hsub : seen.map Value.int ⊆ M.map Prod.fst := by
    intro v hv'
    obtain ⟨y, hy, rfl⟩ := List.mem_map.1 hv'
    obtain ⟨i, -, a, ha, rfl⟩ := (hv.mem y).1 hy
    exact List.mem_map.2 ⟨link a, hC i a ha, rfl⟩
  have hnd : (seen.map Value.int).Nodup :=
    hv.nodup.map fun x y h => by injection h
  simpa [hv.length] using (hnd.subperm hsub).length_le

end Visited

section

variable {db : Db} (hs : Stored db) {c : Int} {M : ParentMap Value}
  (hD : Describes db M) (hC : Covers db c M)
include hs hD hC

/-- The walk from the `k`-th key of the chain, with the first `k` keys visited and fuel to
spare for every entry of the map, follows the chain. Induction on the fuel: each step either
meets a visited key (a repeat of the chain), leaves the map (the chain's end), or visits one
more category of the chain. -/
theorem walkUp_follows : ∀ (fuel k : Nat) (x : Int) (seen : List Int),
    chainAt db c k = liveRow db x → Visited db c k seen → M.length + 1 ≤ fuel + k →
    Follows db c (@walkUp Value Value.keyEq M fuel (some (.int x)) (seen.map .int))
  | fuel, k, x, seen, hx, hv, hfuel => by
    cases hlive : liveRow db x with
    | none =>
      -- the key names no open, active category: the map has no entry for it
      have hnone : @parentOf? Value Value.keyEq M (.int x) = none := by
        apply Option.not_isSome_iff_eq_none.1
        rintro h
        obtain ⟨r, hr, hl, rfl, -⟩ := (parentOf_isSome hs hD).1 h
        simp [(liveRow_eq_some hs).2 ⟨hr, rfl, hl⟩] at hlive
      have hend := hv.follows_of_end (hx.trans hlive)
      cases fuel with
      | zero => simpa [walkUp] using hend
      | succ fuel => simpa [walkUp, hnone] using hend
    | some a =>
      obtain ⟨ha, rfl, -⟩ := (liveRow_eq_some hs).1 hlive
      have hk : chainAt db c k = some a := hx.trans hlive
      cases fuel with
      | zero =>
        have := hv.length_le hC
        omega
      | succ fuel =>
        have hlink := parentOf_link hs hD ha (hC k a hk)
        by_cases hseen : a.id ∈ seen
        · -- a repeat: the chain meets `a` a second time
          have hrep : ¬ NoRepeat db c := by
            obtain ⟨i, hi, b, hb, hid⟩ := (hv.mem _).1 hseen
            exact fun h => h i k b a hi hb hk hid
          simpa [walkUp, hlink, hseen, Follows] using hrep
        · have hv' := hv.cons hk hseen
          simp only [walkUp, hlink, Json.Value.contains_int, hseen, List.contains_iff_mem,
            if_false]
          cases hp : parentKey a with
          | none =>
            have hend : chainAt db c (k + 1) = none := by simp [chainAt, hk, hp]
            simpa [walkUp] using hv'.follows_of_end hend
          | some p =>
            have hnext : chainAt db c (k + 1) = liveRow db p := by simp [chainAt, hk, hp]
            simpa using walkUp_follows fuel (k + 1) p (a.id :: seen) hnext hv' (by omega)

/-- The ancestor walk over a map that holds the chain of `c` follows that chain. -/
theorem ancestors_follows : Follows db c (@ancestors Value Value.keyEq M (.int c)) :=
  walkUp_follows hs hD hC (M.length + 1) 0 c [] rfl Visited.nil (by omega)

end

/-! ## The folds of a loading round -/

theorem memSame_of_subset {v : Value} {xs ys : List Value} (hsub : ∀ w ∈ xs, w ∈ ys)
    (h : v.memSame xs = true) : v.memSame ys = true := by
  obtain ⟨w, hw, hvw⟩ := List.any_eq_true.1 h
  exact List.any_eq_true.2 ⟨w, hsub w hw, hvw⟩

/-- Putting links whose keys are new, and distinct among themselves, appends them. -/
theorem putParentLinks_fresh : ∀ (es : List (Value × Option Value)) (acc : ParentMap Value),
    (∀ e ∈ es, ∀ e' ∈ acc, e'.1.sameMember e.1 = false) →
    es.Pairwise (fun e e' => e.1.sameMember e'.1 = false) →
    es.foldl (fun acc (c, p) => Orders.putParentLink acc c p) acc = acc ++ es
  | [], acc, _, _ => by simp
  | (c, p) :: es, acc, hfresh, hpair => by
    rw [List.pairwise_cons] at hpair
    have hnew : (acc.any fun e => e.1.sameMember c) = false := by
      simpa using fun e he => hfresh (c, p) List.mem_cons_self e he
    have hput : Orders.putParentLink acc c p = acc ++ [(c, p)] := by
      simp [Orders.putParentLink, hnew]
    rw [List.foldl_cons]
    dsimp only
    rw [hput, putParentLinks_fresh es _ ?_ hpair.2]
    · simp
    · intro e he e' he'
      rcases List.mem_append.1 he' with h | h
      · exact hfresh e (List.mem_cons_of_mem _ he) e' h
      · obtain rfl := List.mem_singleton.1 h
        exact hpair.1 e he

/-- One step of the frontier fold keeps what was collected and adds at most its own parent,
only when the map lacks it; afterwards that parent is in the map or among the collected. -/
theorem nextParent_step (known : ParentMap Value) (acc : List Value) (p : Option Value) :
    let acc' := match p with
      | some q =>
        if (@parentOf? Value Value.keyEq known q).isNone && !q.memSame acc then acc ++ [q]
        else acc
      | none => acc
    (∀ q ∈ acc, q ∈ acc') ∧
      (∀ q ∈ acc', q ∈ acc ∨ (p = some q ∧ @parentOf? Value Value.keyEq known q = none)) ∧
      (∀ q, p = some q →
        (@parentOf? Value Value.keyEq known q).isSome ∨ q.memSame acc' ∨ q ∈ acc') := by
  intro acc'
  cases p with
  | none => exact ⟨fun q hq => hq, fun q hq => Or.inl hq, by simp⟩
  | some q₀ =>
    by_cases hadd : ((@parentOf? Value Value.keyEq known q₀).isNone && !q₀.memSame acc) = true
    · have hacc : acc' = acc ++ [q₀] := if_pos hadd
      have hn : @parentOf? Value Value.keyEq known q₀ = none := by
        simpa using (Bool.and_eq_true_iff.1 hadd).1
      rw [hacc]
      refine ⟨fun q hq => List.mem_append_left _ hq, fun q hq => ?_, fun q hq => ?_⟩
      · rcases List.mem_append.1 hq with h | h
        · exact Or.inl h
        · obtain rfl := List.mem_singleton.1 h
          exact Or.inr ⟨rfl, hn⟩
      · obtain rfl : q₀ = q := Option.some.inj hq
        exact Or.inr (Or.inr (by simp))
    · have hacc : acc' = acc := if_neg hadd
      rw [hacc]
      refine ⟨fun q hq => hq, fun q hq => Or.inl hq, fun q hq => ?_⟩
      -- not added: the map has the parent already, or it was collected before
      obtain rfl : q₀ = q := Option.some.inj hq
      simp only [Bool.and_eq_true, Bool.not_eq_true', not_and, Bool.not_eq_false] at hadd
      by_cases hsome : (@parentOf? Value Value.keyEq known q₀).isSome
      · exact Or.inl hsome
      · exact Or.inr (Or.inl (hadd (by simpa using hsome)))

/-- The next frontier a round collects: parents of the new links that the map lacks, each once.
Every parent collected is a parent of a link and missing from the map, and every parent of a
link is in the map or collected. -/
theorem nextParents_spec (known : ParentMap Value) :
    ∀ (es : List (Value × Option Value)) (acc out : List Value),
    out = es.foldl (fun acc (_, p) =>
      match p with
      | some q =>
        if (@parentOf? Value Value.keyEq known q).isNone && !q.memSame acc then acc ++ [q]
        else acc
      | none => acc) acc →
    (∀ q ∈ acc, q ∈ out) ∧
      (∀ q ∈ out, q ∈ acc ∨
        ((∃ e ∈ es, e.2 = some q) ∧ @parentOf? Value Value.keyEq known q = none)) ∧
      (∀ e ∈ es, ∀ q, e.2 = some q →
        (@parentOf? Value Value.keyEq known q).isSome ∨ q.memSame out ∨ q ∈ out)
  | [], acc, out, hout => by
    subst hout
    exact ⟨fun q hq => hq, fun q hq => Or.inl hq, by simp⟩
  | (c, p) :: es, acc, out, hout => by
    rw [List.foldl_cons] at hout
    obtain ⟨s1, s2, s3⟩ := nextParent_step known acc p
    obtain ⟨h1, h2, h3⟩ := nextParents_spec known es _ out hout
    refine ⟨fun q hq => h1 q (s1 q hq), fun q hq => ?_, ?_⟩
    · -- collected by this step or by a later one
      rcases h2 q hq with h | ⟨⟨e, he, hq'⟩, hn⟩
      · rcases s2 q h with h | ⟨hp, hn⟩
        · exact Or.inl h
        · exact Or.inr ⟨⟨(c, p), List.mem_cons_self, hp⟩, hn⟩
      · exact Or.inr ⟨⟨e, List.mem_cons_of_mem _ he, hq'⟩, hn⟩
    · rintro e (_ | ⟨_, he⟩) q hq
      · rcases s3 q hq with h | h | h
        · exact Or.inl h
        · exact Or.inr (Or.inl (memSame_of_subset h1 h))
        · exact Or.inr (Or.inr (h1 q h))
      · exact h3 e he q hq

/-- Values kept once each: every kept value is given, and every given value is kept or matches
a kept one. -/
theorem distinctValues_spec : ∀ (vs acc out : List Value),
    out = vs.foldl (fun acc v => if v.memSame acc then acc else acc ++ [v]) acc →
    (∀ w ∈ acc, w ∈ out) ∧ (∀ w ∈ out, w ∈ acc ∨ w ∈ vs) ∧
      (∀ v ∈ vs, v.memSame out = true ∨ v ∈ out)
  | [], acc, out, hout => by
    subst hout
    exact ⟨fun w hw => hw, fun w hw => Or.inl hw, by simp⟩
  | v :: vs, acc, out, hout => by
    rw [List.foldl_cons] at hout
    by_cases hv : v.memSame acc = true
    · simp only [hv, if_true] at hout
      obtain ⟨h1, h2, h3⟩ := distinctValues_spec vs acc out hout
      refine ⟨h1, fun w hw => (h2 w hw).imp_right (List.mem_cons_of_mem _), ?_⟩
      rintro w (_ | ⟨_, hw⟩)
      · exact Or.inl (memSame_of_subset h1 hv)
      · exact h3 w hw
    · simp only [hv, if_false, Bool.false_eq_true] at hout
      obtain ⟨h1, h2, h3⟩ := distinctValues_spec vs _ out hout
      refine ⟨fun w hw => h1 w (List.mem_append_left _ hw), fun w hw => ?_, ?_⟩
      · rcases h2 w hw with h | h
        · rcases List.mem_append.1 h with h | h
          · exact Or.inl h
          · exact Or.inr (by simp [List.mem_singleton.1 h])
        · exact Or.inr (List.mem_cons_of_mem _ h)
      · rintro w (_ | ⟨_, hw⟩)
        · exact Or.inr (h1 v (by simp))
        · exact h3 w hw

/-! ## Loading the parent links, round by round -/

/-- The open, active categories a round finds: those whose keys are in the frontier. -/
def roundRows (db : Db) (frontier : List Value) : List Row :=
  db.problems.filter fun r => (Value.int r.id).memSame frontier && Live r

/-- The open, active categories a map has no entry for. -/
def pending (db : Db) (M : ParentMap Value) : Nat :=
  db.problems.countP fun r => Live r && (@parentOf? Value Value.keyEq M (.int r.id)).isNone

/-- What holds between two rounds of loading the chains of `starts`: the map holds links of open,
active categories; the frontier holds 64-bit keys the map lacks; and every category the map
or the start keys lead to is in the map or named by the frontier. -/
structure Loading (db : Db) (starts : List Int) (frontier : List Value)
    (known : ParentMap Value) : Prop where
  describes : Describes db known
  ints : ∀ v ∈ frontier, ∃ x, v = .int x ∧ fitsInt64 x = true
  fresh : ∀ v ∈ frontier, @parentOf? Value Value.keyEq known v = none
  closed : ∀ r ∈ db.problems, link r ∈ known → ∀ b, (parentKey r).bind (liveRow db) = some b →
    link b ∈ known ∨ (Value.int b.id).memSame frontier = true
  starts : ∀ c ∈ starts, ∀ b, liveRow db c = some b →
    link b ∈ known ∨ (Value.int b.id).memSame frontier = true

theorem List.countP_lt_of_mono {α : Type} {p q : α → Bool} :
    ∀ {l : List α}, (∀ x ∈ l, q x = true → p x = true) →
      ∀ a ∈ l, p a = true → q a = false → l.countP q < l.countP p
  | [], _, a, ha, _, _ => absurd ha List.not_mem_nil
  | x :: xs, hmono, a, ha, hpa, hqa => by
    simp only [List.countP_cons]
    have htail : xs.countP q ≤ xs.countP p :=
      List.countP_mono_left fun y hy => hmono y (List.mem_cons_of_mem _ hy)
    rcases List.mem_cons.1 ha with rfl | ha
    · simp [hpa, hqa]
      omega
    · have hlt := List.countP_lt_of_mono (fun y hy => hmono y (List.mem_cons_of_mem _ hy)) a ha
        hpa hqa
      have hx := hmono x List.mem_cons_self
      split <;> split <;> simp_all

theorem mem_roundRows {db : Db} {frontier : List Value} {r : Row} :
    r ∈ roundRows db frontier ↔
      r ∈ db.problems ∧ (Value.int r.id).memSame frontier = true ∧ Live r = true := by
  simp [roundRows]

section

variable {db : Db} (hs : Stored db)
include hs

/-- A category of the chain is an open, active category of the catalogue. -/
theorem chainAt_mem {c : Int} {k : Nat} {a : Row} (h : chainAt db c k = some a) :
    a ∈ db.problems ∧ Live a = true := by
  cases k with
  | zero => exact ⟨((liveRow_eq_some hs).1 h).1, ((liveRow_eq_some hs).1 h).2.2⟩
  | succ k =>
    simp only [chainAt, Option.bind_eq_some_iff] at h
    obtain ⟨_, _, p, _, hp⟩ := h
    exact ⟨((liveRow_eq_some hs).1 hp).1, ((liveRow_eq_some hs).1 hp).2.2⟩

/-- A category with its link loaded is one the map finds. -/
theorem link_mem_iff {M : ParentMap Value} (hD : Describes db M) {b : Row} (hb : b ∈ db.problems) :
    link b ∈ M ↔ (@parentOf? Value Value.keyEq M (.int b.id)).isSome := by
  rw [parentOf_isSome hs hD]
  constructor
  · intro hl
    obtain ⟨r, hr, hlive, he⟩ := hD _ hl
    obtain rfl := hs.row_eq hb hr (by simpa [link] using congrArg Prod.fst he)
    exact ⟨b, hb, hlive, rfl, hl⟩
  · rintro ⟨r, hr, -, hid, hl⟩
    rwa [← hs.row_eq hr hb hid]

end

namespace Loading

variable {db : Db} {starts : List Int} {frontier : List Value} {known : ParentMap Value}

/-- A category a round finds has no entry in the map yet. -/
theorem fresh_row (hL : Loading db starts frontier known) {r : Row}
    (hr : r ∈ roundRows db frontier) : @parentOf? Value Value.keyEq known (.int r.id) = none := by
  obtain ⟨v, hv, hsame⟩ := List.any_eq_true.1 (mem_roundRows.1 hr).2.1
  obtain ⟨x, rfl, -⟩ := hL.ints v hv
  obtain rfl : r.id = x := by simpa [Json.Value.sameMember_int] using hsame
  exact hL.fresh _ hv

/-- The map after a round describes open, active categories. -/
theorem describes_round (hL : Loading db starts frontier known) :
    Describes db (known ++ (roundRows db frontier).map link) := by
  intro e he
  rcases List.mem_append.1 he with he | he
  · exact hL.describes e he
  · obtain ⟨r, hr, rfl⟩ := List.mem_map.1 he
    exact ⟨r, (mem_roundRows.1 hr).1, (mem_roundRows.1 hr).2.2, rfl⟩

/-- An open, active category named by the frontier is loaded by the round. -/
theorem link_mem_round {b : Row} (hb : b ∈ db.problems) (hlive : Live b = true)
    (hname : (Value.int b.id).memSame frontier = true) :
    link b ∈ known ++ (roundRows db frontier).map link :=
  List.mem_append_right _ (List.mem_map_of_mem (mem_roundRows.2 ⟨hb, hname, hlive⟩))

/-- A link loaded before the round or by it: in either case in the map after the round. -/
theorem loaded_after {b : Row}
    (h : link b ∈ known ∨ (Value.int b.id).memSame frontier = true)
    (hb : b ∈ db.problems) (hlive : Live b = true) :
    link b ∈ known ++ (roundRows db frontier).map link :=
  h.elim (List.mem_append_left _) (link_mem_round hb hlive)

/-- One round keeps the invariant, given what the round's next frontier is known to satisfy,
and it either ends the loading or loads a category that was pending. -/
theorem round (hs : Stored db) (hL : Loading db starts frontier known) {next : List Value}
    (hnext : ∀ q ∈ next, (∃ r ∈ roundRows db frontier, (parentKey r).map .int = some q) ∧
      @parentOf? Value Value.keyEq (known ++ (roundRows db frontier).map link) q = none)
    (hcover : ∀ r ∈ roundRows db frontier, ∀ p, parentKey r = some p →
      (@parentOf? Value Value.keyEq (known ++ (roundRows db frontier).map link) (.int p)).isSome ∨
        (Value.int p).memSame next = true) :
    Loading db starts next (known ++ (roundRows db frontier).map link) ∧
      (next = [] ∨ pending db (known ++ (roundRows db frontier).map link) < pending db known) := by
  have hD' := hL.describes_round
  have hlive_of {b : Row} {x : Int} (h : liveRow db x = some b) := (liveRow_eq_some hs).1 h
  refine ⟨⟨hD', fun q hq => ?_, fun q hq => (hnext q hq).2, ?_, ?_⟩, ?_⟩
  · -- the next frontier holds the parents of loaded rows, 64-bit keys of the database
    obtain ⟨⟨r, hr, hq⟩, -⟩ := hnext q hq
    obtain ⟨p, hp, rfl⟩ := Option.map_eq_some_iff.1 hq
    exact ⟨p, rfl, parentKey_fits hs (mem_roundRows.1 hr).1 hp⟩
  · intro r hr hl b hb
    obtain ⟨p, hp, hbp⟩ := Option.bind_eq_some_iff.1 hb
    obtain ⟨hbmem, rfl, hblive⟩ := hlive_of hbp
    rcases List.mem_append.1 hl with hl | hl
    · exact Or.inl (loaded_after (hL.closed r hr hl _ hb) hbmem hblive)
    · -- a row loaded by this round: its parent is in the map or in the next frontier
      obtain ⟨r', hr', he⟩ := List.mem_map.1 hl
      have hid : r'.id = r.id := by simpa [link] using congrArg Prod.fst he
      obtain rfl := hs.row_eq (mem_roundRows.1 hr').1 hr hid
      exact (hcover r' hr' _ hp).imp_left (link_mem_iff hs hD' hbmem).2
  · intro c hc b hb
    obtain ⟨hbmem, -, hblive⟩ := hlive_of hb
    exact Or.inl (loaded_after (hL.starts c hc b hb) hbmem hblive)
  · by_cases hrows : roundRows db frontier = []
    · refine Or.inl (List.eq_nil_iff_forall_not_mem.2 fun q hq => ?_)
      obtain ⟨⟨r, hr, -⟩, -⟩ := hnext q hq
      simp [hrows] at hr
    · -- a row found by the round was pending before it and is loaded after it
      right
      obtain ⟨r, hr⟩ := List.exists_mem_of_ne_nil _ hrows
      have hrmem := mem_roundRows.1 hr
      have hmono : ∀ x ∈ db.problems,
          (@parentOf? Value Value.keyEq known (.int x.id)).isSome →
            (@parentOf? Value Value.keyEq (known ++ (roundRows db frontier).map link)
              (.int x.id)).isSome := by
        intro x _ hx
        obtain ⟨r', hr', hl', hid, hm⟩ := (parentOf_isSome hs hL.describes).1 hx
        exact (parentOf_isSome hs hD').2 ⟨r', hr', hl', hid, List.mem_append_left _ hm⟩
      have hnow : (@parentOf? Value Value.keyEq (known ++ (roundRows db frontier).map link)
          (.int r.id)).isSome :=
        (link_mem_iff hs hD' hrmem.1).1 (link_mem_round hrmem.1 hrmem.2.2 hrmem.2.1)
      refine List.countP_lt_of_mono (fun x hx hq => ?_) r hrmem.1 ?_ ?_
      · simp only [Bool.and_eq_true, Option.isNone_iff_eq_none] at hq ⊢
        refine ⟨hq.1, Option.not_isSome_iff_eq_none.1 fun h => ?_⟩
        exact absurd (hmono x hx h) (by simp [hq.2])
      · simp [hrmem.2.2, hL.fresh_row hr]
      · simp [hnow]

end Loading

/-- A frontier of 64-bit keys is handed over as those keys: a category is among the cells
exactly when its key is among the frontier's values. -/
theorem frontier_params {s : Session} {frontier : List Value}
    (hints : ∀ v ∈ frontier, ∃ x, v = .int x ∧ fitsInt64 x = true) :
    ∃ cells, Txn.params frontier s = .ok cells s ∧
      ∀ r : Row, r.isAny .problems "id" cells = (Value.int r.id).memSame frontier := by
  let keyCell : Value → Cell := fun v => match v with
    | .int x => .int x
    | _ => .null
  refine ⟨frontier.map keyCell, List.mapM_run fun v hv => ?_, fun r => ?_⟩
  · obtain ⟨x, rfl, hx⟩ := hints v hv
    exact Txn.param_run (by simp [bindValue, hx, keyCell])
  · rw [Bool.eq_iff_iff]
    simp only [Row.isAny, Json.Value.memSame, List.any_map, List.any_eq_true, Function.comp]
    constructor <;> rintro ⟨v, hv, h⟩ <;> obtain ⟨x, rfl, -⟩ := hints v hv <;>
      exact ⟨_, hv, by simpa [keyCell, Row.is_id, Json.Value.sameMember_int] using h⟩

/-- A round of the loading, run: it finds the rows of `roundRows`, appends their links, and
leaves a next frontier of parents of those rows that the map lacks, holding every parent of
theirs that the map lacks. Nothing in the session changes. -/
theorem parentRound_spec {s : Session} {starts : List Int} {frontier : List Value}
    {known : ParentMap Value} (hs : Stored s.db) (hL : Loading s.db starts frontier known) :
    ∃ next, Orders.parentRound frontier known s =
        .ok (known ++ (roundRows s.db frontier).map link, next) s ∧
      (∀ q ∈ next, (∃ r ∈ roundRows s.db frontier, (parentKey r).map .int = some q) ∧
        @parentOf? Value Value.keyEq (known ++ (roundRows s.db frontier).map link) q = none) ∧
      (∀ r ∈ roundRows s.db frontier, ∀ p, parentKey r = some p →
        (@parentOf? Value Value.keyEq (known ++ (roundRows s.db frontier).map link)
          (.int p)).isSome ∨ (Value.int p).memSame next = true) := by
  set rows := roundRows s.db frontier with hrows
  obtain ⟨cells, hparams, hany⟩ := @frontier_params s frontier hL.ints
  have hfound : (s.db.problems.filter fun c => c.isAny .problems "id" cells &&
      c.isOpen .problems && c.holds "is_active") = rows :=
    List.filter_congr fun r _ => by simp [hany, Live, Bool.and_assoc]
  have hlinks : (rows.mapM fun c => do
      let parent ← Txn.read .problems c "parent_id"
      pure (Value.int c.id, if parent.isNull then none else some parent)) s =
      .ok (rows.map link) s := by
    refine List.mapM_run fun r hr => ?_
    have hread : Txn.read .problems r "parent_id" s = .ok (r.get "parent_id").toValue s :=
      Txn.read_run (TableId.read_integer r (by decide) rfl)
    rw [Txn.bind_of_run hread, parent_read hs (mem_roundRows.1 hr).1]
    rfl
  -- the new links have new keys, distinct among themselves: putting them appends them
  have hfresh : ∀ e ∈ rows.map link, ∀ e' ∈ known, e'.1.sameMember e.1 = false := by
    intro e he e' he'
    obtain ⟨r, hr, rfl⟩ := List.mem_map.1 he
    obtain ⟨r', hr', hlive', rfl⟩ := hL.describes e' he'
    refine Bool.eq_false_iff.2 fun h => ?_
    have hid : r'.id = r.id := by simpa [link, Json.Value.sameMember_int] using h
    have hsome := (parentOf_isSome hs hL.describes).2 ⟨r', hr', hlive', hid, he'⟩
    simp [hL.fresh_row hr] at hsome
  have hpair : (rows.map link).Pairwise fun e e' => e.1.sameMember e'.1 = false := by
    have hnd : (rows.map Row.id).Nodup :=
      hs.keys.sublist (List.filter_sublist.map Row.id)
    refine List.pairwise_map.2 ((List.pairwise_map.1 hnd).imp fun hne => ?_)
    simpa [link, Json.Value.sameMember_int] using hne
  unfold Orders.parentRound
  simp only [Txn.bind_of_run hparams, Txn.bind_of_run Txn.query_run, hfound,
    Txn.bind_of_run hlinks, putParentLinks_fresh _ known hfresh hpair]
  obtain ⟨-, hnext, hcover⟩ := nextParents_spec (known ++ rows.map link) (rows.map link) [] _ rfl
  refine ⟨_, rfl, fun q hq => ?_, fun r hr p hp => ?_⟩
  · rcases hnext q hq with h | ⟨⟨e, he, hq'⟩, hn⟩
    · simp at h
    · obtain ⟨r, hr, rfl⟩ := List.mem_map.1 he
      exact ⟨⟨r, hr, hq'⟩, hn⟩
  · rcases hcover (link r) (List.mem_map_of_mem hr) (.int p) (by simp [link, hp]) with
      h | h | h
    · exact Or.inl h
    · exact Or.inr h
    · exact Or.inr (List.any_eq_true.2 ⟨_, h, by simp [Json.Value.sameMember_int]⟩)


/-- A round of the loading, run: it keeps the invariant, and either ends the loading or loads
a pending category. -/
theorem parentRound_run {s : Session} {starts : List Int} {frontier : List Value}
    {known : ParentMap Value} (hs : Stored s.db) (hL : Loading s.db starts frontier known) :
    ∃ next, Orders.parentRound frontier known s =
        .ok (known ++ (roundRows s.db frontier).map link, next) s ∧
      Loading s.db starts next (known ++ (roundRows s.db frontier).map link) ∧
      (next = [] ∨
        pending s.db (known ++ (roundRows s.db frontier).map link) < pending s.db known) := by
  obtain ⟨next, hrun, hnext, hcover⟩ := parentRound_spec hs hL
  exact ⟨next, hrun, Loading.round hs hL hnext hcover⟩

/-- Once the frontier is empty, the map holds the whole chain of every start key. Induction
along the chain: its first category is loaded because it was a start, each next one because
its child was loaded and the map is closed under parents. -/
theorem Loading.covers {db : Db} (hs : Stored db) {starts : List Int} {M : ParentMap Value}
    (hL : Loading db starts [] M) : ∀ c ∈ starts, Covers db c M := by
  intro c hc k
  induction k with
  | zero =>
    intro a ha
    simpa [Json.Value.memSame] using hL.starts c hc a ha
  | succ k ih =>
    intro b hb
    simp only [chainAt, Option.bind_eq_some_iff] at hb
    obtain ⟨a, ha, hab⟩ := hb
    have hamem := (chainAt_mem hs ha).1
    simpa [Json.Value.memSame] using hL.closed a hamem (ih a ha) b (Option.bind_eq_some_iff.2 hab)

/-- The loading, run with fuel to spare for every pending category, ends with the whole frontier
explored. Induction on the fuel: a round either empties the frontier or loads a pending
category. -/
theorem parentLinks_run {s : Session} {starts : List Int} (hs : Stored s.db) :
    ∀ (fuel : Nat) (frontier : List Value) (known : ParentMap Value),
      Loading s.db starts frontier known → (frontier = [] ∨ pending s.db known < fuel) →
      ∃ M, Orders.parentLinks fuel frontier known s = .ok M s ∧ Loading s.db starts [] M
  | 0, frontier, known, hL, hfuel => by
    rcases hfuel with rfl | h
    · exact ⟨known, rfl, hL⟩
    · omega
  | fuel + 1, frontier, known, hL, hfuel => by
    cases frontier with
    | nil => exact ⟨known, rfl, hL⟩
    | cons v vs =>
      obtain ⟨next, hrun, hL', hprog⟩ := parentRound_run hs hL
      have hfuel' : next = [] ∨ pending s.db (known ++ (roundRows s.db (v :: vs)).map link) < fuel := by
        rcases hfuel with h | h
        · simp at h
        · exact hprog.imp_right fun h' => by omega
      obtain ⟨M, hM, hLM⟩ := parentLinks_run hs fuel next _ hL' hfuel'
      refine ⟨M, ?_, hLM⟩
      simp only [Orders.parentLinks, List.isEmpty_cons, Bool.false_eq_true, if_false]
      rw [Txn.bind_of_run hrun]
      exact hM

/-- The first frontier, the given 64-bit keys each once, starts the loading with an empty
map. -/
theorem Loading.start {db : Db} (hs : Stored db) {starts : List Int}
    (hfit : ∀ c ∈ starts, fitsInt64 c = true) :
    Loading db starts (Access.distinctValues (starts.map .int)) [] := by
  obtain ⟨-, hkept, hgiven⟩ := distinctValues_spec (starts.map .int) [] _ rfl
  refine ⟨by simp [Describes], fun v hv => ?_, fun _ _ => rfl, by simp, fun c hc b hb => ?_⟩
  · rcases hkept v hv with h | h
    · simp at h
    · obtain ⟨c, hc, rfl⟩ := List.mem_map.1 h
      exact ⟨c, rfl, hfit c hc⟩
  · obtain ⟨-, rfl, -⟩ := (liveRow_eq_some hs).1 hb
    right
    rcases hgiven _ (List.mem_map_of_mem hc) with h | h
    · exact h
    · exact List.any_eq_true.2 ⟨_, h, by simp [Json.Value.sameMember_int]⟩

/-- Loading the parent links of the given 64-bit keys, as the validation runs it, succeeds
without changing the session, and gives a map of links of open, active categories that holds
the whole chain of every given key. -/
theorem parentLinks_loads {s : Session} (hs : Stored s.db) {starts : List Int}
    (hfit : ∀ c ∈ starts, fitsInt64 c = true) :
    ∃ M, Orders.parentLinks (s.db.problems.length + 1) (Access.distinctValues (starts.map .int)) []
        s = .ok M s ∧ Describes s.db M ∧ ∀ c ∈ starts, Covers s.db c M := by
  have hfuel : pending s.db [] < s.db.problems.length + 1 :=
    Nat.lt_succ_of_le List.countP_le_length
  obtain ⟨M, hM, hLM⟩ := parentLinks_run hs _ _ _ (Loading.start hs hfit) (Or.inr hfuel)
  exact ⟨M, hM, hLM.describes, hLM.covers hs⟩

/-! ## The two catalogue checks over the loaded map -/

section

variable {db : Db} (hs : Stored db) {M : ParentMap Value} (hD : Describes db M)
  {starts : List Int} (hC : ∀ c ∈ starts, Covers db c M)
include hs hD hC

/-- A start key is in the loaded map exactly when it names an open, active category. -/
theorem parentOf_start {c : Int} (hc : c ∈ starts) :
    (@parentOf? Value Value.keyEq M (.int c)).isNone = (liveRow db c).isNone := by
  cases hlive : liveRow db c with
  | none =>
    simp only [Option.isNone_none, Option.isNone_iff_eq_none]
    apply Option.not_isSome_iff_eq_none.1
    intro h
    obtain ⟨r, hr, hl, rfl, -⟩ := (parentOf_isSome hs hD).1 h
    simp [(liveRow_eq_some hs).2 ⟨hr, rfl, hl⟩] at hlive
  | some b =>
    obtain ⟨hb, rfl, -⟩ := (liveRow_eq_some hs).1 hlive
    simp [parentOf_link hs hD hb (hC b.id hc 0 b hlive)]

/-- The inactive check reports the start keys that name no open, active category. -/
theorem findInactive_loaded :
    @findInactive Value Value.keyEq (starts.map .int) M =
      (starts.filter fun c => (liveRow db c).isNone).map .int := by
  unfold findInactive
  rw [List.filter_map]
  exact congrArg _ (List.filter_congr fun c hc => parentOf_start hs hD hC hc)

open Classical in
/-- When every start key names an open, active category, the reachability check reports those
whose chain repeats a category or passes none mapped to the phone category. -/
theorem findUnreachable_loaded {phone : Cell} {mapped : List Value}
    (hmapped : ∀ a : Row, @List.contains Value Value.keyEq mapped (.int a.id) = true ↔
      Mapped db phone a)
    (hlive : ∀ c ∈ starts, (liveRow db c).isSome) :
    @findUnreachable Value Value.keyEq (starts.map .int) mapped M =
      (starts.filter fun c => !decide (Reaches db phone c)).map .int := by
  unfold findUnreachable
  rw [List.filter_map]
  refine congrArg _ (List.filter_congr fun c hc => ?_)
  obtain ⟨b, hb⟩ := Option.isSome_iff_exists.1 (hlive c hc)
  obtain ⟨hbmem, rfl, -⟩ := (liveRow_eq_some hs).1 hb
  have hfollows := ancestors_follows hs hD (hC b.id hc)
  simp only [Function.comp, parentOf_link hs hD hbmem (hC b.id hc 0 b hb)]
  cases hwalk : @ancestors Value Value.keyEq M (.int b.id) with
  | cycle x =>
    rw [hwalk] at hfollows
    simp [Reaches, show ¬ NoRepeat db b.id from hfollows]
  | chain vs =>
    rw [hwalk] at hfollows
    obtain ⟨hnorep, hmem⟩ := hfollows
    -- the walk's keys are the chain's: it passes a mapped key exactly when the chain does
    have hany : vs.any (@List.contains Value Value.keyEq mapped) = true ↔
        ∃ k a, chainAt db b.id k = some a ∧ Mapped db phone a := by
      rw [List.any_eq_true]
      constructor
      · rintro ⟨v, hv, hcont⟩
        obtain ⟨k, a, ha, rfl⟩ := (hmem v).1 hv
        exact ⟨k, a, ha, (hmapped a).1 hcont⟩
      · rintro ⟨k, a, ha, hmap⟩
        exact ⟨_, (hmem _).2 ⟨k, a, ha, rfl⟩, (hmapped a).2 hmap⟩
    simp only [Reaches, hnorep, true_and]
    by_cases h : ∃ k a, chainAt db b.id k = some a ∧ Mapped db phone a
    · simp [hany.2 h, h]
    · simp [h, Bool.eq_false_iff.2 (mt hany.1 h)]

end

end Catalog

end RepairShop
