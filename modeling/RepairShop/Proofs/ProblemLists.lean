import Mathlib
import RepairShop.Proofs.CatalogWalk

/- Checking a submitted problem list against the catalogue.

   `Orders.problemVerdict` is the reference: five conditions on the list, taken in order, and
   for the first that fails the refusal it documents:

   1. the categories are pairwise distinct (else the repeated ones, in increasing order);
   2. each is an open, active category (else those that are not, in submission order);
   3. the chain of each meets no category twice and passes one mapped to the phone category
      (else those whose chain does not, in submission order);
   4. within each line the parts are pairwise distinct (else at the first line where they are
      not);
   5. the catalogue assigns every part of a line to the line's category and the part is open
      (else at the first line with a part that is not).

   This file proves that the check refuses a list exactly with the
   reference's refusal and accepts it exactly when all five hold, for a catalogue as the
   database holds it and ids the database can take (64-bit integers). An id beyond 64 bits is
   handed to the database as a query parameter and fails there before any check sees it. -/

namespace RepairShop

open Store Json Request

/-! ## Loops that stop at the first refusal -/

/-- A loop whose body refuses some items and passes the others, leaving the session as it was,
refuses with the first refusal, or finishes. -/
theorem List.forIn_first_refusal {α : Type} {s : Session} (check : α → Option Failure)
    (body : α → PUnit → Txn (ForInStep PUnit)) :
    ∀ {xs : List α}, (∀ x ∈ xs, body x PUnit.unit s =
      match check x with
      | none => .ok (.yield PUnit.unit) s
      | some e => .error e s) →
    forIn xs PUnit.unit body s =
      match xs.findSome? check with
      | none => .ok PUnit.unit s
      | some e => .error e s
  | [], _ => rfl
  | x :: xs, hbody => by
    have hx := hbody x List.mem_cons_self
    rw [List.forIn_cons, List.findSome?_cons]
    cases hcheck : check x with
    | none =>
      rw [hcheck] at hx
      rw [Txn.bind_of_run hx]
      exact List.forIn_first_refusal check body fun y hy => hbody y (List.mem_cons_of_mem _ hy)
    | some e =>
      rw [hcheck] at hx
      exact Txn.bind_of_fail hx

/-- Such a loop followed by the rest of a computation. -/
theorem Txn.bind_forIn_refusal {α β : Type} {s : Session} {xs : List α}
    (check : α → Option Failure) {body : α → PUnit → Txn (ForInStep PUnit)}
    {rest : PUnit → Txn β}
    (hbody : ∀ x ∈ xs, body x PUnit.unit s =
      match check x with
      | none => .ok (.yield PUnit.unit) s
      | some e => .error e s) :
    (forIn xs PUnit.unit body >>= rest) s =
      match xs.findSome? check with
      | none => rest PUnit.unit s
      | some e => .error e s := by
  have hloop := List.forIn_first_refusal check body hbody
  cases hfind : xs.findSome? check with
  | none =>
    rw [hfind] at hloop
    exact Txn.bind_of_run hloop
  | some e =>
    rw [hfind] at hloop
    exact Txn.bind_of_fail hloop

/-- A step that refuses when a test holds, and otherwise passes. -/
theorem Txn.ite_throw_run {β : Type} {s : Session} (c : Bool) (e : Failure) (y : β) :
    (if c = true then ((throw e : Txn PUnit) >>= fun _ => pure y) else pure y) s =
      match (if c = true then some e else none) with
      | none => .ok y s
      | some e => .error e s := by
  cases c <;> rfl

namespace Orders

/-! ## Ids that occur more than once -/

/-- The ids that occur more than once, each once, in increasing order. -/
def sortedRepeats (xs : List Nat) : List Nat :=
  (xs.filter fun x => 1 < xs.count x).toFinset.sort (· ≤ ·)

theorem mem_repeated {xs : List Nat} {x : Nat} : x ∈ repeated xs ↔ 1 < xs.count x := by
  simp only [repeated, sortedNats, List.mem_eraseDups, List.mem_mergeSort, List.mem_filter,
    decide_eq_true_eq, gt_iff_lt, and_iff_right_iff_imp]
  intro h
  exact List.count_pos_iff.1 (by omega)

/-- Dropping later copies from a list sorted upwards leaves it strictly increasing. Induction on
a bound of the length, since each step filters the rest. -/
theorem eraseDups_pairwise_lt : ∀ (n : Nat) (l : List Nat), l.length ≤ n →
    l.Pairwise (· ≤ ·) → l.eraseDups.Pairwise (· < ·)
  | _, [], _, _ => by simp [List.eraseDups]
  | 0, _ :: _, hlen, _ => by simp at hlen
  | n + 1, a :: as, hlen, hsorted => by
    rw [List.pairwise_cons] at hsorted
    rw [List.eraseDups_cons, List.pairwise_cons]
    refine ⟨fun b hb => ?_, eraseDups_pairwise_lt n _ ?_ (hsorted.2.filter _)⟩
    · obtain ⟨hb, hne⟩ := List.mem_filter.1 (List.mem_eraseDups.1 hb)
      have hle := hsorted.1 b hb
      have hne' : b ≠ a := by simpa using hne
      omega
    · have := List.length_filter_le (fun b => !b == a) as
      simp only [List.length_cons] at hlen
      omega

/-- The repeated ids the check reports are the repeated ids, each once, in increasing order. -/
theorem repeated_eq_sortedRepeats (xs : List Nat) : repeated xs = sortedRepeats xs := by
  have hlt : (repeated xs).SortedLT := by
    rw [List.sortedLT_iff_pairwise]
    exact eraseDups_pairwise_lt _ _ le_rfl (List.sortedLE_mergeSort.pairwise)
  refine hlt.eq_of_mem_iff (Finset.sortedLT_sort _) fun x => ?_
  rw [mem_repeated, sortedRepeats, Finset.mem_sort, List.mem_toFinset, List.mem_filter,
    decide_eq_true_eq]
  exact ⟨fun h => ⟨List.count_pos_iff.1 (by omega), h⟩, fun h => h.2⟩

theorem repeated_eq_nil {xs : List Nat} : repeated xs = [] ↔ xs.Nodup := by
  rw [List.nodup_iff_count_le_one, List.eq_nil_iff_forall_not_mem]
  simp only [mem_repeated, not_lt]

theorem mem_firstOccurrences {α : Type} [BEq α] [LawfulBEq α] {xs : List α} {x : α} :
    x ∈ Access.firstOccurrences xs ↔ x ∈ xs := by
  suffices h : ∀ acc : List α,
      x ∈ xs.foldl (fun acc i => if acc.contains i then acc else acc ++ [i]) acc ↔
        x ∈ acc ∨ x ∈ xs by
    unfold Access.firstOccurrences
    rw [h []]
    simp
  induction xs with
  | nil => simp
  | cons y ys ih =>
    intro acc
    rw [List.foldl_cons, ih]
    by_cases hy : acc.contains y = true
    · simp only [hy, if_true, List.mem_cons]
      have : y ∈ acc := List.contains_iff_mem.1 hy
      constructor
      · rintro (h | h)
        · exact Or.inl h
        · exact Or.inr (Or.inr h)
      · rintro (h | rfl | h)
        · exact Or.inl h
        · exact Or.inl this
        · exact Or.inr h
    · simp only [hy, Bool.false_eq_true, if_false, List.mem_append, List.mem_cons]
      tauto

/-! ## What the checks read from the catalogue -/

/-- The catalogue offers the part for the category: an assignment of the two, and the part is
open. -/
def Offered (db : Db) (part cat : Int) : Prop :=
  ∃ a ∈ db.partAssignments, a.get "repair_part_id" = .int part ∧
    a.get "problem_category_id" = .int cat ∧ ∃ p ∈ db.parts, p.id = part ∧ p.isOpen .parts = true

/-- A stored reference names an integer, as a value comparison sees it, exactly when it holds
that integer. -/
theorem sameMember_ref {c : Cell} (hc : Catalog.IsRef c) (x : Int) :
    Value.sameMember (.int x) c.toValue = true ↔ c = .int x := by
  rcases hc with rfl | ⟨n, rfl, -⟩
  · have hnull : Value.sameMember (.int x) .null = false := rfl
    exact ⟨fun h => absurd (hnull ▸ h) Bool.false_ne_true, fun h => by cases h⟩
  · simp only [Cell.toValue, Json.Value.sameMember_int, beq_iff_eq, Cell.int.injEq]
    exact eq_comm

/-- The same comparison with the stored value on the left, as the part check makes it. -/
theorem ref_sameMember {c : Cell} (hc : Catalog.IsRef c) (x : Int) :
    Value.sameMember c.toValue (.int x) = true ↔ c = .int x := by
  rcases hc with rfl | ⟨n, rfl, -⟩
  · have hnull : Value.sameMember .null (.int x) = false := rfl
    exact ⟨fun h => absurd (hnull ▸ h) Bool.false_ne_true, fun h => by cases h⟩
  · simp [Cell.toValue, Json.Value.sameMember_int]

/-- A column of numeric affinity holding an integer equals an integer parameter exactly when
the two integers are equal. -/
theorem Row.is_int {t : TableId} {column : String} {r : Row} {y : Int}
    (haff : t.affinityOf column = .numeric) (h : r.get column = .int y) (x : Int) :
    r.is t column (.int x) = decide (y = x) := by
  simp [Row.is, haff, h]

variable {s : Session}

/-- Integer ids that fit in 64 bits are handed over as themselves. -/
theorem params_ints {α : Type} (f : α → Int) :
    ∀ {xs : List α}, (∀ x ∈ xs, fitsInt64 (f x) = true) →
      Txn.params (xs.map fun x => .int (f x)) s = .ok (xs.map fun x => .int (f x)) s := by
  intro xs hfit
  unfold Txn.params
  rw [List.mapM_map]
  exact List.mapM_run fun x hx => Txn.param_run (by simp [bindValue, hfit x hx])

/-- The categories mapped to the phone category, read in table order. -/
theorem mappedCategories_run {phone : Value} {pc : Cell} (hpc : bindValue phone = .ok pc) :
    mappedCategories phone s = .ok ((s.db.mappings.filter fun m =>
      m.is .mappings "phone_category_id" pc).map fun m => (m.get "problem_category_id").toValue) s := by
  unfold mappedCategories
  rw [Txn.bind_of_run (Txn.param_run hpc), Txn.bind_of_run Txn.query_run]
  exact List.mapM_run fun m _ => Txn.read_run (TableId.read_integer m (by decide) rfl)

theorem mapped_contains (hs : Catalog.Stored s.db) (pc : Cell) (a : Row) :
    @List.contains Value Value.keyEq ((s.db.mappings.filter fun m =>
      m.is .mappings "phone_category_id" pc).map fun m => (m.get "problem_category_id").toValue)
      (.int a.id) = true ↔ Catalog.Mapped s.db pc a := by
  rw [@List.contains_iff_exists_mem_beq Value Value.keyEq]
  constructor
  · rintro ⟨v, hv, hsame⟩
    obtain ⟨m, hm, rfl⟩ := List.mem_map.1 hv
    obtain ⟨hm, hphone⟩ := List.mem_filter.1 hm
    exact ⟨m, hm, hphone, (sameMember_ref (hs.mapped m hm) a.id).1 hsame⟩
  · rintro ⟨m, hm, hphone, hcat⟩
    exact ⟨_, List.mem_map_of_mem (List.mem_filter.2 ⟨hm, hphone⟩),
      (sameMember_ref (hs.mapped m hm) a.id).2 hcat⟩

/-- The assignments among the submitted parts and categories whose part is open, read as the
part check compares them: a pair of a submitted part and its line's category is among them
exactly when the catalogue offers the part for the category. -/
theorem allowedParts_run (hs : Catalog.Stored s.db) {lines : List ProblemLine}
    (hfit : ∀ line ∈ lines,
      fitsInt64 line.categoryId = true ∧ ∀ p ∈ line.parts, fitsInt64 p.partId = true) :
    ∃ allowed, allowedParts lines s = .ok allowed s ∧
      ∀ line ∈ lines, ∀ p ∈ line.parts,
        (allowed.any fun e =>
          e.1.sameMember (.int p.partId) && e.2.sameMember (.int line.categoryId)) = true ↔
          Offered s.db p.partId line.categoryId := by
  unfold allowedParts
  set partIds := Access.firstOccurrences
    (lines.flatMap fun l => l.parts.map fun x => (x.partId : Int)) with hpartIds
  have hpart : ∀ line ∈ lines, ∀ p ∈ line.parts, (p.partId : Int) ∈ partIds :=
    fun line hl p hp => mem_firstOccurrences.2 (List.mem_flatMap.2 ⟨line, hl, List.mem_map_of_mem hp⟩)
  by_cases hempty : partIds.isEmpty = true
  · -- no line has a part
    refine ⟨[], by rw [if_pos hempty]; rfl, fun line hl p hp => ?_⟩
    have := hpart line hl p hp
    simp [List.isEmpty_iff.1 hempty] at this
  rw [if_neg hempty]
  have hpartFit : ∀ x ∈ partIds, fitsInt64 x = true := by
    intro x hx
    obtain ⟨l, hl, hx⟩ := List.mem_flatMap.1 (mem_firstOccurrences.1 hx)
    obtain ⟨p, hp, rfl⟩ := List.mem_map.1 hx
    exact (hfit l hl).2 p hp
  rw [Txn.bind_of_run (params_ints (fun i => i) hpartFit),
    Txn.bind_of_run (params_ints (fun l => (l.categoryId : Int)) fun l hl => (hfit l hl).1),
    Txn.bind_of_run Txn.query_run]
  set rows := s.db.partAssignments.filter fun a =>
    a.isAny .partAssignments "repair_part_id" (partIds.map fun i => .int i) &&
      a.isAny .partAssignments "problem_category_id"
        (lines.map fun l => .int (l.categoryId : Int)) &&
      s.db.parts.any fun p => (p.get "id").sqlEq (a.get "repair_part_id") && p.isOpen .parts
    with hrows
  refine ⟨rows.map fun a => ((a.get "repair_part_id").toValue,
    (a.get "problem_category_id").toValue), ?_, fun line hl p hp => ?_⟩
  · refine List.mapM_run fun a _ => ?_
    rw [Txn.bind_of_run (Txn.read_run (TableId.read_integer a (by decide) rfl)),
      Txn.bind_of_run (Txn.read_run (TableId.read_integer a (by decide) rfl))]
    rfl
  have hpaff : TableId.partAssignments.affinityOf "repair_part_id" = .numeric := rfl
  have hcaff : TableId.partAssignments.affinityOf "problem_category_id" = .numeric := rfl
  have hid : ∀ q : Row, q.get "id" = .int q.id := fun q => by simp [Row.get]
  rw [List.any_map, List.any_eq_true]
  constructor
  · rintro ⟨a, ha, hmatch⟩
    obtain ⟨hamem, hsel⟩ := List.mem_filter.1 ha
    obtain ⟨hpref, hcref⟩ := hs.assigned a hamem
    simp only [Function.comp, Bool.and_eq_true] at hmatch hsel
    have hpcell := (ref_sameMember hpref _).1 hmatch.1
    refine ⟨a, hamem, hpcell, (ref_sameMember hcref _).1 hmatch.2, ?_⟩
    obtain ⟨q, hq, hqmatch⟩ := List.any_eq_true.1 hsel.2
    rw [Bool.and_eq_true, hid, hpcell, Cell.sqlEq_int, decide_eq_true_eq] at hqmatch
    exact ⟨q, hq, hqmatch.1, hqmatch.2⟩
  · rintro ⟨a, hamem, hpcell, hccell, q, hq, hqid, hqopen⟩
    refine ⟨a, List.mem_filter.2 ⟨hamem, ?_⟩, ?_⟩
    · simp only [Bool.and_eq_true, Row.isAny, List.any_map, List.any_eq_true, Function.comp]
      refine ⟨⟨⟨_, hpart line hl p hp, by simp [Row.is_int hpaff hpcell]⟩,
        ⟨line, hl, by simp [Row.is_int hcaff hccell]⟩⟩, ⟨q, hq, ?_⟩⟩
      simp [hid, hpcell, hqid, Cell.sqlEq_int, hqopen]
    · simp [hpcell, hccell, Cell.toValue, Json.Value.sameMember_int]

theorem mem_indexed {α : Type} {xs : List α} {x : α} : (∃ i, (i, x) ∈ indexed xs) ↔ x ∈ xs := by
  constructor
  · rintro ⟨i, hi⟩
    exact (List.of_mem_zip hi).2
  · intro hx
    obtain ⟨i, hi, rfl⟩ := List.mem_iff_getElem.1 hx
    have hlen : i < ((List.range xs.length).zip xs).length := by simp [hi]
    have hmem := List.getElem_mem hlen
    rw [List.getElem_zip, List.getElem_range] at hmem
    exact ⟨i, hmem⟩

/-! ## The reference -/

/-- The five conditions under which the catalogue accepts a problem list. -/
structure ProblemsAccepted (db : Db) (phone : Cell) (lines : List ProblemLine) : Prop where
  distinct : (lines.map (·.categoryId)).Nodup
  active : ∀ line ∈ lines, (Catalog.liveRow db line.categoryId).isSome
  reachable : ∀ line ∈ lines, Catalog.Reaches db phone line.categoryId
  partsDistinct : ∀ line ∈ lines, (line.parts.map (·.partId)).Nodup
  offered : ∀ line ∈ lines, ∀ p ∈ line.parts, Offered db p.partId line.categoryId

/-- The submitted categories that are not open, active ones, in submission order. -/
def inactiveIds (db : Db) (ids : List Nat) : List Nat :=
  ids.filter fun (c : Nat) => (Catalog.liveRow db c).isNone

open Classical in
/-- The submitted categories whose chain repeats a category or passes none mapped to the phone
category, in submission order. -/
noncomputable def unreachableIds (db : Db) (phone : Cell) (ids : List Nat) : List Nat :=
  ids.filter fun (c : Nat) => !decide (Catalog.Reaches db phone c)

/-- Where a refusal about the parts of the line at index `i` points. -/
def partsLocation (loc : String) (i : Nat) : Option String :=
  some (loc ++ "[" ++ toString i ++ "].parts")

/-- The fourth condition at one line: its parts are distinct. -/
def repeatedPartsAt (loc : String) : Nat × ProblemLine → Option Failure
  | (i, line) =>
    if (line.parts.map (·.partId)).Nodup then none
    else some (badRequest "Duplicate parts in one problem" (partsLocation loc i)
      [("duplicate_ids", idsValue (sortedRepeats (line.parts.map (·.partId))))])

open Classical in
/-- The parts of a line that the catalogue does not offer for the line's category, in order. -/
noncomputable def unofferedParts (db : Db) (line : ProblemLine) : List Nat :=
  (line.parts.filter fun p => !decide (Offered db p.partId line.categoryId)).map (·.partId)

/-- The fifth condition at one line: the catalogue offers each of its parts. -/
noncomputable def unofferedPartsAt (db : Db) (loc : String) : Nat × ProblemLine → Option Failure
  | (i, line) =>
    if unofferedParts db line = [] then none
    else some (badRequest "Parts not assigned to this problem category" (partsLocation loc i)
      [("invalid_part_ids", idsValue (unofferedParts db line))])

/-- The refusal the catalogue gives a problem list: the first of the five conditions that fails,
with what the refusal reports; `none` when the list is accepted. -/
noncomputable def problemVerdict (db : Db) (phone : Cell) (side : ProblemSide)
    (lines : List ProblemLine) : Option Failure :=
  let loc := side.aspect.location
  let ids := lines.map (·.categoryId)
  if ¬ ids.Nodup then
    some (badRequest "Duplicate problem categories" (some loc)
      [("duplicate_ids", idsValue (sortedRepeats ids))])
  else if inactiveIds db ids ≠ [] then
    some (badRequest "Problem categories not found or inactive" (some loc)
      [("invalid_problem_ids", idsValue (inactiveIds db ids))])
  else if unreachableIds db phone ids ≠ [] then
    some (badRequest "Problem categories not allowed for this phone category" (some loc)
      [("invalid_problem_ids", idsValue (unreachableIds db phone ids))])
  else
    ((indexed lines).findSome? (repeatedPartsAt loc)).or
      ((indexed lines).findSome? (unofferedPartsAt db loc))

theorem findSome?_indexed_eq_none {α β : Type} {xs : List α} {f : Nat × α → Option β}
    {P : α → Prop} (hf : ∀ i x, f (i, x) = none ↔ P x) :
    (indexed xs).findSome? f = none ↔ ∀ x ∈ xs, P x := by
  rw [List.findSome?_eq_none_iff]
  constructor
  · intro h x hx
    obtain ⟨i, hi⟩ := mem_indexed.2 hx
    exact (hf i x).1 (h _ hi)
  · rintro h ⟨i, x⟩ hi
    exact (hf i x).2 (h x (mem_indexed.1 ⟨i, hi⟩))

section

variable {db : Db} {phone : Cell} {lines : List ProblemLine}

theorem inactiveIds_eq_nil :
    inactiveIds db (lines.map (·.categoryId)) = [] ↔
      ∀ line ∈ lines, (Catalog.liveRow db line.categoryId).isSome := by
  simp [inactiveIds, List.filter_eq_nil_iff, Option.isSome_iff_ne_none]

theorem unreachableIds_eq_nil :
    unreachableIds db phone (lines.map (·.categoryId)) = [] ↔
      ∀ line ∈ lines, Catalog.Reaches db phone line.categoryId := by
  simp [unreachableIds, List.filter_eq_nil_iff]

theorem repeatedParts_eq_none (loc : String) :
    (indexed lines).findSome? (repeatedPartsAt loc) = none ↔
      ∀ line ∈ lines, (line.parts.map (·.partId)).Nodup :=
  findSome?_indexed_eq_none fun i line => by by_cases h : (line.parts.map (·.partId)).Nodup <;>
    simp [repeatedPartsAt, h]

theorem unofferedParts_eq_none (loc : String) :
    (indexed lines).findSome? (unofferedPartsAt db loc) = none ↔
      ∀ line ∈ lines, ∀ p ∈ line.parts, Offered db p.partId line.categoryId := by
  refine findSome?_indexed_eq_none fun i line => ?_
  have hnil : unofferedParts db line = [] ↔ ∀ p ∈ line.parts, Offered db p.partId line.categoryId := by
    simp [unofferedParts, List.filter_eq_nil_iff]
  by_cases h : unofferedParts db line = [] <;> simp [unofferedPartsAt, h, ← hnil]

/-- The fourth check, as the service tests it. -/
theorem repeatedPartsAt_eq (loc : String) (i : Nat) (line : ProblemLine) :
    repeatedPartsAt loc (i, line) =
      if (!(repeated (line.parts.map (·.partId))).isEmpty) = true then
        some (badRequest "Duplicate parts in one problem" (some (loc ++ "[" ++ toString i ++ "].parts"))
          [("duplicate_ids", idsValue (repeated (line.parts.map (·.partId))))])
      else none := by
  by_cases h : (line.parts.map (·.partId)).Nodup
  · simp [repeatedPartsAt, h, repeated_eq_nil]
  · have hrep : (!(repeated (line.parts.map (·.partId))).isEmpty) = true := by
      simpa [List.isEmpty_iff, repeated_eq_nil] using h
    rw [if_pos hrep]
    simp only [repeatedPartsAt, h, if_false, repeated_eq_sortedRepeats, partsLocation]

/-- The fifth check, as the service tests it against the assignments it loaded. -/
theorem unofferedPartsAt_eq {allowed : List (Value × Value)} (loc : String) (i : Nat)
    {line : ProblemLine}
    (hoffer : ∀ p ∈ line.parts,
      (allowed.any fun e =>
        e.1.sameMember (.int p.partId) && e.2.sameMember (.int line.categoryId)) = true ↔
        Offered db p.partId line.categoryId) :
    unofferedPartsAt db loc (i, line) =
      let invalid := (line.parts.filter fun p => !allowed.any fun e =>
        e.1.sameMember (.int p.partId) && e.2.sameMember (.int line.categoryId)).map (·.partId)
      if (!invalid.isEmpty) = true then
        some (badRequest "Parts not assigned to this problem category"
          (some (loc ++ "[" ++ toString i ++ "].parts")) [("invalid_part_ids", idsValue invalid)])
      else none := by
  have hinvalid : ((line.parts.filter fun p => !allowed.any fun e =>
      e.1.sameMember (.int p.partId) && e.2.sameMember (.int line.categoryId)).map
      (·.partId)) = unofferedParts db line := by
    unfold unofferedParts
    refine congrArg _ (List.filter_congr fun p hp => ?_)
    by_cases h : Offered db p.partId line.categoryId
    · simp [(hoffer p hp).2 h, h]
    · simp [h, Bool.eq_false_iff.2 (mt (hoffer p hp).1 h)]
  simp only [hinvalid, unofferedPartsAt, partsLocation]
  by_cases h : unofferedParts db line = [] <;> simp [h]

/-- The reference refuses nothing exactly when the five conditions hold. -/
theorem problemVerdict_eq_none {side : ProblemSide} :
    problemVerdict db phone side lines = none ↔ ProblemsAccepted db phone lines := by
  unfold problemVerdict
  by_cases hdist : (lines.map (·.categoryId)).Nodup
  · by_cases hact : inactiveIds db (lines.map (·.categoryId)) = []
    · by_cases hreach : unreachableIds db phone (lines.map (·.categoryId)) = []
      · simp only [hdist, hact, hreach, not_true_eq_false, ne_eq, if_false, Option.or_eq_none_iff,
          repeatedParts_eq_none, unofferedParts_eq_none]
        constructor
        · rintro ⟨hparts, hoffer⟩
          exact ⟨hdist, inactiveIds_eq_nil.1 hact, unreachableIds_eq_nil.1 hreach, hparts, hoffer⟩
        · rintro ⟨-, -, -, hparts, hoffer⟩
          exact ⟨hparts, hoffer⟩
      · simp only [hdist, hact, hreach, not_true_eq_false, ne_eq, not_false_eq_true, if_false,
          if_true, reduceCtorEq, false_iff]
        exact fun h => hreach (unreachableIds_eq_nil.2 h.reachable)
    · simp only [hdist, hact, not_true_eq_false, ne_eq, not_false_eq_true, if_false, if_true,
        reduceCtorEq, false_iff]
      exact fun h => hact (inactiveIds_eq_nil.2 h.active)
  · simp only [hdist, not_false_eq_true, if_true, reduceCtorEq, false_iff]
    exact fun h => hdist h.distinct

end


/-! ## The check against the reference -/

theorem fitsInt64_natCast {n : Nat} (h : n < 2 ^ 63) : fitsInt64 (n : Int) = true :=
  Store.fitsInt64_of_lt (Int.natCast_nonneg n) (by rw [Nat.pow_eq]; exact_mod_cast h)

/-- The values of the categories the inactive check reports, as the reference lists them. -/
theorem inactive_values (db : Db) (ids : List Nat) :
    ((ids.map Int.ofNat).filter fun c => (Catalog.liveRow db c).isNone).map Value.int =
      (inactiveIds db ids).map fun i => Value.int (Int.ofNat i) := by
  simp [inactiveIds, List.filter_map, Function.comp_def]

open Classical in
/-- The values of the categories the reachability check reports, as the reference lists them. -/
theorem unreachable_values (db : Db) (phone : Cell) (ids : List Nat) :
    ((ids.map Int.ofNat).filter fun c => !decide (Catalog.Reaches db phone c)).map Value.int =
      (unreachableIds db phone ids).map fun i => Value.int (Int.ofNat i) := by
  simp [unreachableIds, List.filter_map, Function.comp_def]

/-- Checking a problem list against a catalogue as the database holds it, with 64-bit ids and a
phone category the database can take: the check refuses exactly with the reference's refusal,
accepts exactly when the five conditions hold, and changes nothing. -/
theorem validateProblems_eq_verdict {s : Session} (hs : Catalog.Stored s.db) (side : ProblemSide)
    {phone : Value} {pc : Cell} (hpc : bindValue phone = .ok pc) (lines : List ProblemLine)
    (hfit : ∀ line ∈ lines, line.categoryId < 2 ^ 63 ∧ ∀ p ∈ line.parts, p.partId < 2 ^ 63) :
    validateProblems side phone lines s =
        (match problemVerdict s.db pc side lines with
         | none => .ok () s
         | some e => .error e s) ∧
      (problemVerdict s.db pc side lines = none ↔ ProblemsAccepted s.db pc lines) := by
  refine ⟨?_, problemVerdict_eq_none⟩
  unfold validateProblems problemVerdict
  by_cases hnil : lines.isEmpty = true
  · rw [List.isEmpty_iff.1 hnil]
    rfl
  rw [if_neg hnil]
  dsimp only
  set ids := lines.map (·.categoryId) with hids
  set loc := side.aspect.location with hloc
  have hvals : (ids.map fun i => Value.int (Int.ofNat i)) = (ids.map Int.ofNat).map Value.int := by
    simp
  rw [hvals]
  -- the first check: distinct categories
  by_cases hdist : ids.Nodup
  swap
  · have hdup : (!(repeated ids).isEmpty) = true := by
      simpa [List.isEmpty_iff, repeated_eq_nil] using hdist
    rw [if_pos hdup, if_pos hdist, repeated_eq_sortedRepeats]
    exact Txn.bind_of_fail rfl
  have hdup : ¬ (!(repeated ids).isEmpty) = true := by
    simpa [List.isEmpty_iff, repeated_eq_nil] using hdist
  rw [if_neg hdup, if_neg (not_not.2 hdist)]
  -- the parent links of the submitted categories and their ancestors
  have hstarts : ∀ c ∈ ids.map Int.ofNat, fitsInt64 c = true := by
    simp only [hids, List.forall_mem_map]
    exact fun line hl => fitsInt64_natCast (hfit line hl).1
  obtain ⟨M, hM, hD, hC⟩ := Catalog.parentLinks_loads hs hstarts
  rw [Txn.bind_of_run Txn.query_run, Txn.bind_of_run hM, Catalog.findInactive_loaded hs hD hC,
    inactive_values]
  -- the second check: open, active categories
  by_cases hact : inactiveIds s.db ids = []
  swap
  · rw [if_pos (by simpa [List.isEmpty_iff] using hact), if_pos hact]
    exact Txn.bind_of_fail rfl
  rw [if_neg (by simp [hact]), if_neg (not_not.2 hact)]
  have hlive : ∀ c ∈ ids.map Int.ofNat, (Catalog.liveRow s.db c).isSome := by
    simp only [hids, List.forall_mem_map]
    exact inactiveIds_eq_nil.1 hact
  rw [Txn.bind_of_run (mappedCategories_run hpc),
    Catalog.findUnreachable_loaded hs hD hC (mapped_contains hs pc) hlive, unreachable_values]
  -- the third check: categories reachable from the phone category
  by_cases hreach : unreachableIds s.db pc ids = []
  swap
  · rw [if_pos (by simpa [List.isEmpty_iff] using hreach), if_pos hreach]
    exact Txn.bind_of_fail rfl
  rw [if_neg (by simp [hreach]), if_neg (not_not.2 hreach)]
  -- the fourth check: distinct parts within each line
  refine (Txn.bind_forIn_refusal (repeatedPartsAt loc) ?_).trans ?_
  · rintro ⟨i, line⟩ -
    rw [repeatedPartsAt_eq]
    exact Txn.ite_throw_run _ _ _
  cases hrepeated : (indexed lines).findSome? (repeatedPartsAt loc) with
  | some e => rfl
  | none =>
    -- the fifth check: parts offered for their line's category
    have hfit' : ∀ line ∈ lines,
        fitsInt64 line.categoryId = true ∧ ∀ p ∈ line.parts, fitsInt64 p.partId = true :=
      fun line hl => ⟨fitsInt64_natCast (hfit line hl).1,
        fun p hp => fitsInt64_natCast ((hfit line hl).2 p hp)⟩
    obtain ⟨allowed, hallowed, hoffer⟩ := allowedParts_run hs hfit'
    dsimp only
    rw [Txn.bind_of_run hallowed]
    refine (Txn.bind_forIn_refusal (unofferedPartsAt s.db loc) ?_).trans ?_
    · rintro ⟨i, line⟩ hi
      rw [unofferedPartsAt_eq loc i (hoffer line (mem_indexed.1 ⟨i, hi⟩))]
      exact Txn.ite_throw_run _ _ _
    · cases (indexed lines).findSome? (unofferedPartsAt s.db loc) <;> rfl

/-- A catalogue of two categories, a screen category under a display category; phone
category 1 is mapped to the display category, and an open part is assigned to the screen
category. -/
def sampleCatalogue : Db :=
  { problems := [⟨1, [("status", .text "Open"), ("is_active", .int 1)]⟩,
      ⟨2, [("parent_id", .int 1), ("status", .text "Open"), ("is_active", .int 1)]⟩],
    mappings := [⟨1, [("phone_category_id", .int 1), ("problem_category_id", .int 1)]⟩],
    parts := [⟨1, [("status", .text "Open")]⟩],
    partAssignments := [⟨1, [("repair_part_id", .int 1), ("problem_category_id", .int 2)]⟩] }

/-- The screen category with the part assigned to it. -/
def sampleLines : List ProblemLine := [⟨2, 0.0, 30, [⟨1, 0.0, 1⟩]⟩]

theorem sampleCatalogue_stored : Catalog.Stored sampleCatalogue where
  keys := by decide
  parents r hr := by
    simp only [sampleCatalogue, List.mem_cons, List.not_mem_nil, or_false] at hr
    rcases hr with rfl | rfl
    · exact Or.inl rfl
    · exact Or.inr ⟨1, rfl, rfl⟩
  mapped m hm := by
    simp only [sampleCatalogue, List.mem_cons, List.not_mem_nil, or_false] at hm
    subst hm
    exact Or.inr ⟨1, rfl, rfl⟩
  assigned a ha := by
    simp only [sampleCatalogue, List.mem_cons, List.not_mem_nil, or_false] at ha
    subst ha
    exact ⟨Or.inr ⟨1, rfl, rfl⟩, Or.inr ⟨2, rfl, rfl⟩⟩

/-- The screen category's chain is the screen and the display category, and the display
category is mapped to phone category 1. -/
theorem sample_reaches : Catalog.Reaches sampleCatalogue (.int 1) 2 := by
  have hchain0 : Catalog.chainAt sampleCatalogue 2 0 = some
      ⟨2, [("parent_id", .int 1), ("status", .text "Open"), ("is_active", .int 1)]⟩ := rfl
  have hchain1 : Catalog.chainAt sampleCatalogue 2 1 =
      some ⟨1, [("status", .text "Open"), ("is_active", .int 1)]⟩ := rfl
  have hend : Catalog.chainAt sampleCatalogue 2 2 = none := rfl
  refine ⟨fun i j a b hij ha hb => ?_, 1, _, hchain1,
    ⟨1, [("phone_category_id", .int 1), ("problem_category_id", .int 1)]⟩,
    List.mem_singleton_self _, rfl, rfl⟩
  -- the chain has two categories, with different keys
  have hj : j < 2 := by
    by_contra hj
    simp [Catalog.chainAt_none_of_le hend (Nat.le_of_not_lt hj)] at hb
  obtain rfl : i = 0 := by omega
  obtain rfl : j = 1 := by omega
  rw [hchain0] at ha
  rw [hchain1] at hb
  cases ha
  cases hb
  decide

theorem sample_lines_pass : ProblemsAccepted sampleCatalogue (.int 1) sampleLines where
  distinct := by decide
  active line hl := by
    obtain rfl := List.mem_singleton.1 hl
    rfl
  reachable line hl := by
    obtain rfl := List.mem_singleton.1 hl
    exact sample_reaches
  partsDistinct line hl := by
    obtain rfl := List.mem_singleton.1 hl
    decide
  offered line hl p hp := by
    obtain rfl := List.mem_singleton.1 hl
    obtain rfl := List.mem_singleton.1 hp
    exact ⟨_, List.mem_singleton_self _, rfl, rfl, _, List.mem_singleton_self _, rfl, rfl⟩

/-- The sample list passes the five conditions, so the check accepts it. -/
theorem sample_problem_list_accepted :
    validateProblems .initial (.int 1) sampleLines { db := sampleCatalogue, kv := {} } =
      .ok () { db := sampleCatalogue, kv := {} } := by
  have hs : Catalog.Stored ({ db := sampleCatalogue, kv := {} } : Session).db :=
    sampleCatalogue_stored
  have hpc : bindValue (.int 1) = .ok (.int 1) := rfl
  obtain ⟨hrun, hiff⟩ := validateProblems_eq_verdict hs .initial hpc sampleLines
    (by simp [sampleLines])
  rw [hrun, hiff.2 sample_lines_pass]

/-- A category id one above the largest 64-bit integer. -/
def hugeLine : ProblemLine := ⟨9223372036854775808, 0.0, 1, []⟩

/-- The id is handed to the database as a query parameter while the parent links are loaded,
and the database cannot take it: the check fails with a storage fault, where the reference
refuses the category as not open and active. -/
theorem validateProblems_huge_category :
    validateProblems .initial (.int 1) [hugeLine] { db := {}, kv := {} } =
        .error (.fault .tooLargeForStore) { db := {}, kv := {} } ∧
      problemVerdict {} (.int 1) .initial [hugeLine] =
        some (badRequest "Problem categories not found or inactive" (some "initial_problems")
          [("invalid_problem_ids", idsValue [9223372036854775808])]) := by
  refine ⟨?_, ?_⟩
  · have hrep : repeated ([hugeLine].map (·.categoryId)) = [] := repeated_eq_nil.2 (by simp)
    unfold validateProblems
    dsimp only
    rw [hrep]
    rfl
  · simp [problemVerdict, hugeLine, inactiveIds, Catalog.liveRow, ProblemSide.aspect]

end Orders

end RepairShop
