import Mathlib
import RepairShop.Catalog.Tree

/- Chains of parent links.

   `Catalog.ancestors` walks a map of parent links up from a category: the category, its
   parent, its parent's parent, and so on, for as long as the category reached is in the map.
   The map may be any finite list of links, whose parents may dangle (name no entry) or loop.
   The walk keeps only the categories it has visited, and it runs on fuel one above the size
   of the map; nothing in it bounds the length of a chain.

   `walkAt M c i` is the `i`-th category of that walk, defined without fuel and without a
   record of visits. For keys compared by a lawful equality, this file proves

   1. that every category of the walk is a key of the map, so that a stretch of the walk that
      repeats nothing is no longer than the map (`Trail.length_le`): the fuel is the number of
      keys not yet visited, not the length of a chain;
   2. that `ancestors` gives the whole walk when it repeats no category, and otherwise the
      first category it reaches a second time (`ancestors_eq_iff`), which for a tail running
      into a loop is the category where the tail enters it;
   3. that the reachability check reports, in order and with repeats, exactly the submitted
      categories missing from the map, those whose walk repeats and those whose walk meets no
      mapped category, and the activity check exactly those missing from the map. -/

namespace RepairShop.Catalog

variable {α : Type} [BEq α]

/-- The category has an entry in the map, with a parent or with none. -/
def isKey (M : ParentMap α) (x : α) : Bool := (parentOf? M x).isSome

/-- The `i`-th category of the walk up from `c`: `c` itself, then the parent of the category
before, each taken only while the category reached is in the map. -/
def walkAt (M : ParentMap α) (c : α) : Nat → Option α
  | 0 => (some c).filter (isKey M)
  | i + 1 => ((walkAt M c i).bind fun x => (parentOf? M x).join).filter (isKey M)

/-- The walk from `c` reaches some category twice. -/
def Repeats (M : ParentMap α) (c : α) : Prop :=
  ∃ i j x, i < j ∧ walkAt M c i = some x ∧ walkAt M c j = some x

/-- `x` is the first category that the walk from `c` reaches a second time: the walk reaches
it at step `j`, reached it before, and its first `j` categories are distinct. -/
def FirstRepeat (M : ParentMap α) (c x : α) : Prop :=
  ∃ j, walkAt M c j = some x ∧ (∃ i < j, walkAt M c i = some x) ∧
    ∀ k < j, ∀ i < k, walkAt M c i ≠ walkAt M c k

/-- The outcome the walk from `c` calls for: the list of its categories when it repeats none,
or the first category it reaches twice. -/
def Walk.Matches (M : ParentMap α) (c : α) : Walk α → Prop
  | .chain L => (∀ i, walkAt M c i = L[i]?) ∧ L.Nodup
  | .cycle x => FirstRepeat M c x

section Walk

variable {M : ParentMap α} {c : α}

theorem walkAt_isKey {i : Nat} {x : α} (h : walkAt M c i = some x) : isKey M x = true := by
  cases i <;> exact (Option.filter_eq_some_iff.1 h).2

/-- The step after a category of the walk goes to its parent, if that is in the map. -/
theorem walkAt_succ {i : Nat} {x : α} (h : walkAt M c i = some x) :
    walkAt M c (i + 1) = ((parentOf? M x).join).filter (isKey M) := by
  rw [walkAt, h, Option.bind_some]

/-- A walk that has ended stays ended. -/
theorem walkAt_none_of_le {i j : Nat} (h : walkAt M c i = none) (hij : i ≤ j) :
    walkAt M c j = none := by
  induction j, hij using Nat.le_induction with
  | base => exact h
  | succ j _ ih => rw [walkAt, ih]; rfl

/-- A category reached twice, or a walk laid out as a list of distinct categories: not both. -/
theorem not_repeats_of_list {L : List α} (hL : ∀ i, walkAt M c i = L[i]?) (hnd : L.Nodup) :
    ¬ Repeats M c := by
  rintro ⟨i, j, x, hij, hi, hj⟩
  have hjL : j < L.length := by
    by_contra hge
    rw [hL, List.getElem?_eq_none (Nat.le_of_not_lt hge)] at hj
    cases hj
  exact List.nodup_iff_getElem?_ne_getElem?.1 hnd i j hij hjL (by rw [← hL, ← hL, hi, hj])

theorem FirstRepeat.repeats {x : α} (h : FirstRepeat M c x) : Repeats M c := by
  obtain ⟨j, hj, ⟨i, hij, hi⟩, -⟩ := h
  exact ⟨i, j, x, hij, hi, hj⟩

/-- The first repeat happens at one step only: a repeat at `j` is no step before another first
repeat at `j'`, whose first `j'` categories are distinct. -/
theorem FirstRepeat.unique {x y : α} (hx : FirstRepeat M c x) (hy : FirstRepeat M c y) :
    x = y := by
  obtain ⟨j, hj, ⟨i, hij, hi⟩, hd⟩ := hx
  obtain ⟨j', hj', ⟨i', hij', hi'⟩, hd'⟩ := hy
  rcases Nat.lt_trichotomy j j' with hlt | rfl | hgt
  · exact absurd (hi.trans hj.symm) (hd' j hlt i hij)
  · exact Option.some_injective _ (hj.symm.trans hj')
  · exact absurd (hi'.trans hj'.symm) (hd j' hgt i' hij')

/-- The outcome a walk calls for is unique. -/
theorem Walk.Matches.unique {w w' : Walk α} (h : Walk.Matches M c w)
    (h' : Walk.Matches M c w') : w = w' := by
  cases w with
  | chain L =>
    cases w' with
    | chain L' => exact congrArg _ (List.ext_getElem? fun i => (h.1 i).symm.trans (h'.1 i))
    | cycle y => exact absurd h'.repeats (not_repeats_of_list h.1 h.2)
  | cycle x =>
    cases w' with
    | chain L' => exact absurd h.repeats (not_repeats_of_list h'.1 h'.2)
    | cycle y => exact congrArg _ (FirstRepeat.unique h h')

/-! ## The categories visited so far -/

/-- The first categories of the walk, in order and distinct: what the walk has visited. -/
structure Trail (M : ParentMap α) (c : α) (vs : List α) : Prop where
  nodup : vs.Nodup
  walk : ∀ i < vs.length, walkAt M c i = vs[i]?

namespace Trail

variable {vs : List α}

theorem nil : Trail M c [] := ⟨List.nodup_nil, fun _ h => absurd h (Nat.not_lt_zero _)⟩

/-- The walk moves on to a category it has not visited. -/
theorem snoc (ht : Trail M c vs) {x : α} (hx : walkAt M c vs.length = some x) (hnew : x ∉ vs) :
    Trail M c (vs ++ [x]) where
  nodup := List.nodup_append.2 ⟨ht.nodup, List.nodup_singleton x,
    fun a ha b hb => by rw [List.mem_singleton.1 hb]; rintro rfl; exact hnew ha⟩
  walk i hi := by
    rw [List.length_append, List.length_singleton] at hi
    rcases Nat.lt_succ_iff_lt_or_eq.1 hi with hi | rfl
    · rw [List.getElem?_append_left hi]
      exact ht.walk i hi
    · rw [List.getElem?_concat_length]
      exact hx

/-- Where the walk ends, the visited categories are the whole walk. -/
theorem matches_chain (ht : Trail M c vs) (hend : walkAt M c vs.length = none) :
    Walk.Matches M c (.chain vs) := by
  refine ⟨fun i => ?_, ht.nodup⟩
  by_cases hi : i < vs.length
  · exact ht.walk i hi
  · rw [List.getElem?_eq_none (Nat.le_of_not_lt hi)]
    exact walkAt_none_of_le hend (Nat.le_of_not_lt hi)

/-- Where the walk comes back to a visited category, that category is its first repeat. -/
theorem matches_cycle (ht : Trail M c vs) {x : α} (hx : walkAt M c vs.length = some x)
    (hold : x ∈ vs) : Walk.Matches M c (.cycle x) := by
  obtain ⟨i, hi⟩ := List.mem_iff_getElem?.1 hold
  have hlt : i < vs.length := (List.getElem?_eq_some_iff.1 hi).1
  refine ⟨vs.length, hx, ⟨i, hlt, (ht.walk i hlt).trans hi⟩, fun k hk i hik => ?_⟩
  rw [ht.walk i (hik.trans hk), ht.walk k hk]
  exact List.nodup_iff_getElem?_ne_getElem?.1 ht.nodup i k hik hk

end Trail

/-! ## Keys compared by a lawful equality -/

variable [LawfulBEq α]

theorem parentOf?_eq_none_iff {x : α} : parentOf? M x = none ↔ x ∉ M.map Prod.fst := by
  simp only [parentOf?, Option.map_eq_none_iff, List.find?_eq_none, beq_iff_eq, List.mem_map]
  exact ⟨fun h ⟨e, he, hex⟩ => h e he hex, fun h e he hex => h ⟨e, he, hex⟩⟩

theorem isKey_iff {x : α} : isKey M x = true ↔ x ∈ M.map Prod.fst := by
  rw [isKey, Option.isSome_iff_ne_none, ne_eq, parentOf?_eq_none_iff, not_not]

/-- The visited categories are distinct keys of the map, so there are no more of them than
the map has entries. -/
theorem Trail.length_le {vs : List α} (ht : Trail M c vs) : vs.length ≤ M.length := by
  have hsub : vs ⊆ M.map Prod.fst := fun x hx => by
    obtain ⟨i, hi⟩ := List.mem_iff_getElem?.1 hx
    have hlt : i < vs.length := (List.getElem?_eq_some_iff.1 hi).1
    exact isKey_iff.1 (walkAt_isKey ((ht.walk i hlt).trans hi))
  simpa using (ht.nodup.subperm hsub).length_le

/-- The walk from the category after the visited ones, with fuel to spare for every key not
yet visited, gives the outcome the whole walk calls for. Induction on the fuel: each step
either leaves the map (the walk ends), meets a visited category (its first repeat), or visits
one more category, a key the fuel has room for. -/
theorem walkUp_matches : ∀ (fuel : Nat) (vs : List α) (cur : Option α), Trail M c vs →
    cur.filter (isKey M) = walkAt M c vs.length → M.length + 1 ≤ fuel + vs.length →
    Walk.Matches M c (walkUp M fuel cur vs.reverse)
  | _, vs, none, ht, hcur, _ => by
    -- the last category had no parent: the walk has ended
    simpa [walkUp] using ht.matches_chain hcur.symm
  | 0, _, some _, ht, _, hfuel => absurd ht.length_le (by omega)
  | fuel + 1, vs, some y, ht, hcur, hfuel => by
    cases hp : parentOf? M y with
    | none =>
      -- the parent reached names no entry: the walk ended before it
      have hend : walkAt M c vs.length = none := by
        rw [← hcur, Option.filter_some, isKey, hp]; rfl
      simpa [walkUp, hp] using ht.matches_chain hend
    | some p =>
      have hy : walkAt M c vs.length = some y := by
        rw [← hcur, Option.filter_some, isKey, hp]; rfl
      by_cases hold : y ∈ vs
      · simpa [walkUp, hp, hold] using ht.matches_cycle hy hold
      · have hnext : p.filter (isKey M) = walkAt M c (vs ++ [y]).length := by
          rw [List.length_append, List.length_singleton, walkAt_succ hy, hp]; rfl
        have hrest := walkUp_matches fuel (vs ++ [y]) p (ht.snoc hy hold) hnext
          (by rw [List.length_append, List.length_singleton]; omega)
        simpa [walkUp, hp, hold] using hrest

/-- The ancestor walk gives the outcome its walk calls for. -/
theorem ancestors_matches : Walk.Matches M c (ancestors M c) :=
  walkUp_matches (M.length + 1) [] (some c) Trail.nil rfl (Nat.le_add_right _ _)

/-- **The ancestor walk follows the walk of parent links.** It gives the list of the walk's
categories when the walk repeats none, and otherwise the first category reached twice. -/
theorem ancestors_eq_iff {w : Walk α} : ancestors M c = w ↔ Walk.Matches M c w :=
  ⟨fun h => h ▸ ancestors_matches, fun h => ancestors_matches.unique h⟩

end Walk

/-! ## The two checks over a map of links -/

section Checks

variable [LawfulBEq α] {M : ParentMap α}

open Classical in
/-- A submitted category is refused by the reachability check when it is missing from the
map, when its walk repeats, or when its walk meets no mapped category. -/
theorem unreachable_iff (mapped : List α) (c : α) :
    (match parentOf? M c with
      | none => true
      | some _ =>
        match ancestors M c with
        | .cycle _ => true
        | .chain chain => !chain.any mapped.contains) =
    decide (c ∉ M.map Prod.fst ∨ Repeats M c ∨ ∀ i x, walkAt M c i = some x → x ∉ mapped) := by
  cases hc : parentOf? M c with
  | none => simp [parentOf?_eq_none_iff.1 hc]
  | some e =>
    have hkey : c ∈ M.map Prod.fst := not_not.1 (mt parentOf?_eq_none_iff.2 (by simp [hc]))
    have hmatch : Walk.Matches M c (ancestors M c) := ancestors_matches
    cases hw : ancestors M c with
    | cycle x =>
      rw [hw] at hmatch
      simp [hmatch.repeats]
    | chain L =>
      rw [hw] at hmatch
      obtain ⟨hL, hnd⟩ := hmatch
      -- the walk's categories are the chain's: it meets a mapped one exactly when the chain does
      have hmeets : (∀ i x, walkAt M c i = some x → x ∉ mapped) ↔ ∀ x ∈ L, x ∉ mapped := by
        constructor
        · intro h x hx
          obtain ⟨i, hi⟩ := List.mem_iff_getElem?.1 hx
          exact h i x ((hL i).trans hi)
        · intro h i x hx
          exact h x (List.mem_iff_getElem?.2 ⟨i, (hL i).symm.trans hx⟩)
      have hany : L.any mapped.contains = true ↔ ¬ ∀ x ∈ L, x ∉ mapped := by
        simp [List.any_eq_true]
      simp only [hkey, not_repeats_of_list hL hnd, hmeets, not_true_eq_false, false_or]
      rw [Bool.eq_iff_iff, Bool.not_eq_true', Bool.eq_false_iff, ne_eq, hany, not_not,
        decide_eq_true_iff]

end Checks

open Classical in
/-- **Chains of parent links.** For every finite map of parent links, loops and dangling
parents allowed, the ancestor walk from any category gives exactly the outcome its walk calls
for (the walk as a list of distinct categories, or the first category it reaches twice); the
reachability check keeps, in order and with repeats, the submitted categories missing from the
map, whose walk repeats, or whose walk meets no mapped category; and the activity check keeps
those missing from the map. -/
theorem chains_of_parent_links [LawfulBEq α] (M : ParentMap α) :
    (∀ c w, ancestors M c = w ↔ Walk.Matches M c w) ∧
    (∀ ids mapped : List α, findUnreachable ids mapped M = ids.filter fun c =>
      decide (c ∉ M.map Prod.fst ∨ Repeats M c ∨ ∀ i x, walkAt M c i = some x → x ∉ mapped)) ∧
    (∀ ids : List α, findInactive ids M = ids.filter fun c => decide (c ∉ M.map Prod.fst)) := by
  refine ⟨fun c w => ancestors_eq_iff, fun ids mapped => ?_, fun ids => ?_⟩
  · exact List.filter_congr fun c _ => unreachable_iff mapped c
  · refine List.filter_congr fun c _ => ?_
    rw [Bool.eq_iff_iff, Option.isNone_iff_eq_none, parentOf?_eq_none_iff, decide_eq_true_iff]

/-- A tail `1 → 2` that runs into the loop `2 → 3 → 2` is reported where it enters the loop. -/
theorem tail_into_loop_reports_entry :
    FirstRepeat [((1 : Int), some 2), (2, some 3), (3, some 2)] 1 2 :=
  ((chains_of_parent_links [((1 : Int), some 2), (2, some 3), (3, some 2)]).1 1 (.cycle 2)).1
    (by decide)

end RepairShop.Catalog
