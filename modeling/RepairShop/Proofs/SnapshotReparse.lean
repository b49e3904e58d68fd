import Mathlib
import RepairShop.Proofs.NearestDouble
import RepairShop.Proofs.IntegerFields
import RepairShop.Request.Fragment

/- Reading back what was read.

   A place is kept and compared in its object form (`Place.toValue`) and a problem line in its
   compared form (`ProblemLine.snapshot`: parts sorted by id, amounts as doubles). Feeding
   either form back to its reader gives what was read, the parts of each line sorted, so the
   two normal forms agree: reading is idempotent on its
   own image, and the compared form of what is read back is the compared form read from.

   Each reader reads back its own output: a trimmed text is trimmed (`textField_reparse`), an id
   is a whole number at least one, and a rounded amount stays within the range it was checked
   against (`roundPlaces_bounded`, `roundPlaces_nonneg`) and is left as it is when rounded
   again (`money_money`, `coordinate_coordinate`). Lists are read item by item, so a list
   reads back when each item does (`itemsField_arr_map`). `sortBy` is an insertion sort that
   puts an item after those of equal key; it sorts, only reorders, and leaves a sorted list
   alone. -/

namespace RepairShop.Request

open Json Number

/-! ## Readings that succeed -/

theorem bind_eq_ok {ε α β : Type} {x : Except ε α} {f : α → Except ε β} {b : β} :
    (x >>= f) = .ok b ↔ ∃ a, x = .ok a ∧ f a = .ok b := by
  cases x <;> simp [bind, Except.bind]

theorem mapM_eq_ok_iff {ε α β : Type} {f : α → Except ε β} :
    ∀ {xs : List α} {ys : List β},
      xs.mapM f = .ok ys ↔ List.Forall₂ (fun x y => f x = .ok y) xs ys
  | [], ys => by cases ys <;> simp [pure, Except.pure]
  | x :: xs, ys => by
    rw [List.mapM_cons, bind_eq_ok]
    cases ys with
    | nil => simp [bind_eq_ok, pure, Except.pure]
    | cons y ys =>
      simp [bind_eq_ok, pure, Except.pure, mapM_eq_ok_iff]

/-- Every item of a list that was read is the reading of some value, at some location. -/
theorem itemsField_mem {α : Type} {read : Value → String → Result α} {v : Value} {loc : String}
    {xs : List α} (h : itemsField read v loc = .ok xs) :
    ∀ a ∈ xs, ∃ item at_, read item at_ = .ok a := by
  unfold itemsField listField at h
  cases v with
  | arr items =>
    obtain ⟨_, ⟨⟩, h⟩ := bind_eq_ok.1 h
    have hall := List.forall₂_iff_get.1 (mapM_eq_ok_iff.1 h)
    intro a ha
    obtain ⟨i, hi, rfl⟩ := List.mem_iff_getElem.1 ha
    exact ⟨_, _, hall.2 i (by omega) hi⟩
  | _ => simp [bind, Except.bind, throw, throwThe, MonadExceptOf.throw] at h

/-- A list of values that each read back as `f` of what they came from reads back whole. -/
theorem itemsField_arr_map {α : Type} {read : Value → String → Result α} {snap : α → Value}
    {f : α → α} {ys : List α} (h : ∀ a ∈ ys, ∀ at_, read (snap a) at_ = .ok (f a))
    (loc : String) : itemsField read (.arr (ys.map snap)) loc = .ok (ys.map f) := by
  unfold itemsField listField
  refine bind_eq_ok.2 ⟨_, rfl, mapM_eq_ok_iff.2 (List.forall₂_iff_get.2 ⟨by simp [indexed], ?_⟩)⟩
  intro i h1 h2
  simp only [indexed, List.get_eq_getElem, List.getElem_zip, List.getElem_range,
    List.getElem_map]
  exact h _ (List.getElem_mem _) _

/-! ## Texts -/

/-- A prefix of a list that starts with no dropped item starts with none either. -/
theorem dropWhile_prefix_self {α : Type} {p : α → Bool} {u w : List α} (hw : w.dropWhile p = w)
    (h : u <+: w) : u.dropWhile p = u := by
  rw [List.dropWhile_eq_self_iff] at hw ⊢
  intro hu
  rw [h.getElem hu]
  exact hw _

/-- Trimming both ends with the same test is idempotent. -/
theorem trim_idem {α : Type} (p : α → Bool) (l : List α) :
    List.rdropWhile p (List.dropWhile p (List.rdropWhile p (List.dropWhile p l))) =
      List.rdropWhile p (List.dropWhile p l) := by
  rw [dropWhile_prefix_self (List.dropWhile_idempotent p l) (List.rdropWhile_prefix p _),
    List.rdropWhile_idempotent]

theorem trim_trim (s : String) : Text.trim (Text.trim s) = Text.trim s := by
  unfold Text.trim Text.trimBy
  rw [String.toList_ofList]
  exact congrArg String.ofList (trim_idem Text.isBlank s.toList)

theorem trimPoints_trimPoints (ps : List Nat) : trimPoints (trimPoints ps) = trimPoints ps :=
  trim_idem _ ps

/-- Trimming the characters of code points trims the code points. -/
theorem trimBy_map (ps : List Nat) :
    Text.trimBy Text.isBlank (ps.map Char.ofNat) = (trimPoints ps).map Char.ofNat := by
  simp only [Text.trimBy, trimPoints, List.dropWhile_map, ← List.map_reverse]
  rfl

/-- A text read from a field reads back as itself, at any location: trimming is idempotent,
and trimmed code points with no lone surrogate make a string that trims to the same points. -/
theorem textField_reparse {v t : Value} {loc : String} {maxLen : Nat} {allowEmpty : Bool}
    (h : textField v loc maxLen allowEmpty = .ok t) (loc' : String) :
    textField t loc' maxLen allowEmpty = .ok t := by
  cases v with
  | str s =>
    simp only [textField] at h
    split_ifs at h with h1 h2
    cases h
    simp [textField, trim_trim, h1, h2, pure, Except.pure]
  | unpaired ps =>
    simp only [textField] at h
    split_ifs at h with h1 h2
    cases h
    by_cases hs : (trimPoints ps).any isSurrogate
    · simp [textField, Value.ofPoints, hs, trimPoints_trimPoints, h1, h2, pure, Except.pure]
    · simp [textField, Value.ofPoints, hs, Text.trim, trimBy_map, trimPoints_trimPoints, h1, h2,
        pure, Except.pure]
  | _ => simp [textField, throw, throwThe, MonadExceptOf.throw] at h

/-! ## Numbers and identifiers -/

/-- An integer read from a field is at least its minimum. -/
theorem intField_ge {v : Value} {loc : String} {m n : Int} (h : intField v loc m = .ok n) :
    m ≤ n := by
  unfold intField at h
  obtain ⟨r, _, h⟩ := bind_eq_ok.1 h
  cases r with
  | none => cases h
  | some k =>
    dsimp only at h
    split_ifs at h with hk
    cases h
    omega

theorem natField_ge {v : Value} {loc : String} {b n : Nat} (h : natField v loc b = .ok n) :
    b ≤ n := by
  unfold natField at h
  cases hi : intField v loc b with
  | error e => rw [hi] at h; cases h
  | ok k =>
    rw [hi] at h
    cases h
    have := intField_ge hi
    omega

/-- A whole number at least the minimum reads back as itself. -/
theorem natField_int {n b : Nat} (h : b ≤ n) (loc : String) : natField (.int n) loc b = .ok n := by
  rw [natField, intField_of_some rfl, if_neg (by omega)]
  rfl

theorem idField_int {n : Nat} (h : 1 ≤ n) (loc : String) : idField (.int n) loc = .ok n :=
  natField_int h loc

/-- Money rounded to two places is settled: rounding it again leaves it. -/
theorem money_money (x : Float) : money (money x) = money x :=
  roundPlaces_roundPlaces (by norm_num) x

/-- A coordinate rounded to seven places is settled. -/
theorem coordinate_coordinate (x : Float) : coordinate (coordinate x) = coordinate x :=
  roundPlaces_roundPlaces (by norm_num) x

/-- A double that is not below the minimum reads as itself. -/
theorem numberField_float {x : Float} {n : Int} (h : compareInt x n ≠ some .lt) (loc : String) :
    numberField (.float x) loc n = .ok x := by
  simp [numberField, h, pure, Except.pure]

/-- A double of positive sign is not below any minimum of at most zero. -/
theorem not_below_of_positive {y : Float} {n : Int}
    (hy : (∃ m e, shape y = .finite false m e) ∨ shape y = .infinite false) (hn : n ≤ 0) :
    compareInt y n ≠ some .lt := by
  rcases hy with ⟨m, e, hs⟩ | hs
  · rw [compareInt_finite hs]
    have : n * (pow2 (-e) : Int) ≤ 0 := Int.mul_nonpos_of_nonpos_of_nonneg hn (by positivity)
    simp only [Bool.false_eq_true, if_false, ne_eq, Option.some.injEq, compare_lt_iff_lt, not_lt]
    omega
  · simp [compareInt, hs]

/-- The double an integer field value becomes. -/
theorem ofInt?_eq_some {j : Int} {x : Float} (h : ofInt? j = some x) :
    x = ofRatio (decide (j < 0)) j.natAbs 1 := by
  unfold ofInt? at h
  dsimp only at h
  split at h <;> cases h
  rfl

/-- A number read with a minimum of at most zero is not below it: a double passed the exact
comparison, and an integer at least the minimum has a nearest double at least the minimum. -/
theorem numberField_not_below {v : Value} {loc : String} {n : Int} {y : Float}
    (hn : -2 ^ 53 < n) (hn0 : n ≤ 0) (h : numberField v loc n = .ok y) :
    compareInt y n ≠ some .lt := by
  cases v with
  | int j =>
    simp only [numberField] at h
    split_ifs at h with hj
    · cases h
    cases hx : ofInt? j with
    | none => rw [hx] at h; cases h
    | some x =>
      rw [hx] at h
      cases h
      rw [ofInt?_eq_some hx]
      by_cases hneg : j < 0
      · -- a negative integer at least `n` is at most `|n|` in size, which the double keeps
        obtain ⟨m, e, hs, hb⟩ := ofRatio_le (decide (j < 0)) (p := j.natAbs) (q := 1) (B := n.natAbs)
          (by omega) (by omega) (by simp at hj; omega)
        have := ((bounded_iff hs n.natAbs).2 hb).1
        rwa [show -(n.natAbs : Int) = n by omega] at this
      · rw [decide_eq_false hneg]
        exact not_below_of_positive (shape_ofRatio_sign false _ _) hn0
  | float x =>
    simp only [numberField] at h
    split_ifs at h with hx
    · cases h
    · cases h
      simpa using hx
  | _ => simp [numberField, throw, throwThe, MonadExceptOf.throw] at h

/-! ## Places -/

/-- A place that was read reads back from its object form as itself: a coordinate checked
against its range stays within it when rounded and is settled, the description is a trimmed
text, and the courier is an id or `null`. -/
theorem placeField_reparse {v : Value} {loc : String} {p : Place}
    (h : placeField v loc = .ok (some p)) (loc' : String) :
    placeField p.toValue loc' = .ok (some p) := by
  unfold placeField at h
  split_ifs at h with hnull
  · cases h
  obtain ⟨fields, -, h⟩ := bind_eq_ok.1 h
  obtain ⟨lat, hlat0, h⟩ := bind_eq_ok.1 h
  obtain ⟨long, hlong0, h⟩ := bind_eq_ok.1 h
  dsimp only at h
  by_cases h90 : 90.0 < lat
  · rw [if_pos h90] at h; cases h
  rw [if_neg h90] at h
  by_cases h180 : 180.0 < long
  · rw [if_pos h180] at h; cases h
  rw [if_neg h180] at h
  obtain ⟨d, hd, h⟩ := bind_eq_ok.1 h
  obtain ⟨c, hc, rfl⟩ : ∃ c : Option Nat, (∀ n, c = some n → 1 ≤ n) ∧
      p = { lat := coordinate lat, long := coordinate long, description := d, courierId := c } := by
    split_ifs at h
    · cases h; exact ⟨none, by simp, rfl⟩
    · cases hid : idField ((Value.obj fields).field "courier_id") (toString loc ++ toString ".courier_id") with
      | error e => rw [hid] at h; cases h
      | ok n =>
        rw [hid] at h
        cases h
        exact ⟨some n, fun k hk => by cases hk; exact natField_ge hid, rfl⟩
  have hlatB : Bounded 90 (coordinate lat) :=
    roundPlaces_bounded (by norm_num)
      ⟨by simpa using numberField_not_below (by norm_num) (by norm_num) hlat0,
        by simpa [ninety_lt_iff] using h90⟩ 7
  have hlongB : Bounded 180 (coordinate long) :=
    roundPlaces_bounded (by norm_num)
      ⟨by simpa using numberField_not_below (by norm_num) (by norm_num) hlong0,
        by simpa [oneEighty_lt_iff] using h180⟩ 7
  simp only [Bounded, Nat.cast_ofNat] at hlatB hlongB
  unfold placeField Place.toValue
  cases c with
  | none =>
    simp [Value.isNull, objectField, Value.field, Value.get?, List.lookup, numberField_float,
      hlatB, hlongB, ninety_lt_iff, oneEighty_lt_iff, coordinate_coordinate, textField_reparse hd,
      bind,
      Except.bind, pure, Except.pure]
  | some n =>
    simp [Value.isNull, objectField, Value.field, Value.get?, List.lookup, numberField_float,
      hlatB, hlongB, ninety_lt_iff, oneEighty_lt_iff, coordinate_coordinate, textField_reparse hd,
      bind,
      Except.bind, pure, Except.pure, idField_int (hc n rfl), Functor.map, Except.map]

/-! ## Sorting by a key -/

section Sorting

variable {α : Type} (key : α → Nat)

theorem insertBy_perm (x : α) : ∀ l : List α, List.Perm (insertBy key x l) (x :: l)
  | [] => .refl _
  | y :: ys => by
    unfold insertBy
    split
    · exact .refl _
    · exact ((insertBy_perm x ys).cons y).trans (.swap x y ys)

theorem foldl_insertBy_perm : ∀ (l acc : List α),
    List.Perm (l.foldl (fun acc x => insertBy key x acc) acc) (l ++ acc)
  | [], acc => .refl _
  | x :: xs, acc => by
    rw [List.foldl_cons]
    exact ((foldl_insertBy_perm xs _).trans ((insertBy_perm key x acc).append_left xs)).trans
      List.perm_middle

/-- Sorting only reorders. -/
theorem sortBy_perm (l : List α) : List.Perm (sortBy key l) l := by
  unfold sortBy
  simpa using foldl_insertBy_perm key l []

/-- Inserting into a list sorted by the key keeps it sorted. -/
theorem insertBy_sorted (x : α) : ∀ {l : List α}, l.Pairwise (fun a b => key a ≤ key b) →
    (insertBy key x l).Pairwise (fun a b => key a ≤ key b)
  | [], _ => List.pairwise_singleton _ x
  | y :: ys, h => by
    rw [List.pairwise_cons] at h
    unfold insertBy
    split
    · exact List.pairwise_cons.2 ⟨fun z hz => by
        rcases List.mem_cons.1 hz with rfl | hz
        · omega
        · have := h.1 z hz; omega, List.pairwise_cons.2 h⟩
    · refine List.pairwise_cons.2 ⟨fun z hz => ?_, insertBy_sorted x h.2⟩
      rcases List.mem_cons.1 ((insertBy_perm key x ys).mem_iff.1 hz) with rfl | hz
      · omega
      · exact h.1 z hz

theorem foldl_insertBy_sorted : ∀ (l : List α) {acc : List α},
    acc.Pairwise (fun a b => key a ≤ key b) →
      (l.foldl (fun acc x => insertBy key x acc) acc).Pairwise (fun a b => key a ≤ key b)
  | [], _, h => h
  | x :: xs, _, h => foldl_insertBy_sorted xs (insertBy_sorted key x h)

/-- Sorting sorts: the keys do not decrease along the result. -/
theorem sortBy_sorted (l : List α) : (sortBy key l).Pairwise (fun a b => key a ≤ key b) :=
  foldl_insertBy_sorted key l List.Pairwise.nil

/-- An item whose key is at least every key of the list goes to its end. -/
theorem insertBy_of_le (x : α) : ∀ {l : List α}, (∀ y ∈ l, key y ≤ key x) →
    insertBy key x l = l ++ [x]
  | [], _ => rfl
  | y :: ys, h => by
    unfold insertBy
    rw [if_neg (by have := h y List.mem_cons_self; omega),
      insertBy_of_le x fun z hz => h z (List.mem_cons_of_mem y hz)]
    rfl

theorem foldl_insertBy_of_sorted : ∀ (l : List α) {acc : List α},
    (acc ++ l).Pairwise (fun a b => key a ≤ key b) →
      l.foldl (fun acc x => insertBy key x acc) acc = acc ++ l
  | [], acc, _ => by simp
  | x :: xs, acc, h => by
    have hx : ∀ y ∈ acc, key y ≤ key x :=
      fun y hy => (List.pairwise_append.1 h).2.2 y hy x List.mem_cons_self
    rw [List.foldl_cons, insertBy_of_le key x hx, foldl_insertBy_of_sorted xs (by simpa using h)]
    simp

/-- A list already sorted by the key is left as it is, so sorting twice sorts once. -/
theorem sortBy_of_sorted {l : List α} (h : l.Pairwise (fun a b => key a ≤ key b)) :
    sortBy key l = l := by
  unfold sortBy
  simpa using @foldl_insertBy_of_sorted α key l [] (by simpa using h)

theorem sortBy_sortBy (l : List α) : sortBy key (sortBy key l) = sortBy key l :=
  sortBy_of_sorted key (sortBy_sorted key l)

end Sorting

/-! ## Problem lines -/

/-- A part that was read reads back from its object form as itself; its quantity is now
sent. -/
theorem partLine_reparse {item : Value} {at_ : String} {pt : PartLine}
    (h : partLine item at_ = .ok pt) (at' : String) :
    partLine pt.toValue at' = .ok pt := by
  unfold partLine at h
  obtain ⟨fields, -, h⟩ := bind_eq_ok.1 h
  obtain ⟨partId, hid, h⟩ := bind_eq_ok.1 h
  obtain ⟨price, hprice0, h⟩ := bind_eq_ok.1 h
  obtain ⟨quantity, hq, h⟩ := bind_eq_ok.1 h
  cases h
  have hnn : Nonneg (money price) :=
    roundPlaces_nonneg (numberField_not_below (by norm_num) le_rfl hprice0) 2
  unfold partLine PartLine.toValue
  simp [objectField, Value.field, Value.get?, List.lookup, idField_int (natField_ge hid),
    idField_int (natField_ge hq), numberField_float hnn, money_money, bind, Except.bind, pure,
    Except.pure]

/-- A problem line's parts, once sorted, read back from their object forms. -/
theorem partsField_sorted_reparse {v : Value} {loc : String} {parts : List PartLine}
    (h : partsField v loc = .ok parts) (loc' : String) :
    partsField (.arr ((sortBy (·.partId) parts).map PartLine.toValue)) loc' =
      .ok (sortBy (·.partId) parts) := by
  have hsorted : itemsField partLine (.arr ((sortBy (·.partId) parts).map PartLine.toValue)) loc' =
      .ok ((sortBy (·.partId) parts).map id) :=
    itemsField_arr_map (fun pt hpt at' => by
      have hpt := (sortBy_perm _ parts).mem_iff.1 hpt
      obtain ⟨item, at_, hread⟩ := itemsField_mem h pt hpt
      exact partLine_reparse hread at') loc'
  simpa [partsField] using hsorted

/-- A problem line read back from its compared form: the same line, its parts sorted by id. -/
theorem problemLine_reparse {item : Value} {at_ : String} {l : ProblemLine}
    (h : problemLine item at_ = .ok l) (at' : String) :
    problemLine l.snapshot at' = .ok { l with parts := sortBy (·.partId) l.parts } := by
  unfold problemLine at h
  obtain ⟨fields, -, h⟩ := bind_eq_ok.1 h
  obtain ⟨categoryId, hid, h⟩ := bind_eq_ok.1 h
  obtain ⟨price, hprice0, h⟩ := bind_eq_ok.1 h
  obtain ⟨minutes, -, h⟩ := bind_eq_ok.1 h
  obtain ⟨parts, hparts0, h⟩ := bind_eq_ok.1 h
  cases h
  have hnn : Nonneg (money price) :=
    roundPlaces_nonneg (numberField_not_below (by norm_num) le_rfl hprice0) 2
  unfold problemLine ProblemLine.snapshot
  simp [objectField, Value.field, Value.get?, List.lookup, idField_int (natField_ge hid),
    natField_int (Nat.zero_le minutes), numberField_float hnn, money_money,
    partsField_sorted_reparse hparts0, bind, Except.bind, pure, Except.pure]

/-- A list of problem lines read back from their compared forms: the same lines, each with its
parts sorted by id. -/
theorem problemsField_reparse {v : Value} {loc : String} {lines : List ProblemLine}
    (h : problemsField v loc = .ok lines) (loc' : String) :
    problemsField (.arr (lines.map ProblemLine.snapshot)) loc' =
      .ok (lines.map fun l => { l with parts := sortBy (·.partId) l.parts }) :=
  itemsField_arr_map (fun l hl at' => by
      obtain ⟨item, at_, hread⟩ := itemsField_mem h l hl
      exact problemLine_reparse hread at') loc'

/-- Sorting a line's parts does not change its compared form. -/
theorem snapshot_sortParts (l : ProblemLine) :
    ({ l with parts := sortBy (·.partId) l.parts } : ProblemLine).snapshot = l.snapshot := by
  simp [ProblemLine.snapshot, sortBy_sortBy]

/-! ## Compared forms read back -/

/-- **Compared forms read back.** A place that was read reads back from its object form as
itself, and problem lines that were read read back from their compared forms as the same lines
with each line's parts sorted by id, whose compared forms are those read from. -/
theorem compared_forms_read_back :
    (∀ v loc p, placeField v loc = .ok (some p) → placeField p.toValue loc = .ok (some p)) ∧
    (∀ v loc lines, problemsField v loc = .ok lines →
      problemsField (.arr (lines.map ProblemLine.snapshot)) loc =
          .ok (lines.map fun l => { l with parts := sortBy (·.partId) l.parts }) ∧
        (lines.map fun l => { l with parts := sortBy (·.partId) l.parts }).map
          ProblemLine.snapshot = lines.map ProblemLine.snapshot) := by
  refine ⟨fun v loc p h => placeField_reparse h loc,
    fun v loc lines h => ⟨problemsField_reparse h loc, ?_⟩⟩
  simp only [List.map_map]
  exact List.map_congr_left fun l _ => snapshot_sortParts l

/-- A pickup at whole coordinates with a padded description, and a problem line priced to three
places whose two parts come out of order, read back from their compared forms. -/
theorem sample_forms_read_back :
    (∃ p, placeField (.obj [("lat", .int 41), ("long", .int (-69)),
        ("description", .str " Depot "), ("courier_id", .int 7)]) "pickup" = .ok (some p) ∧
      placeField p.toValue "pickup" = .ok (some p)) ∧
    (∃ lines, problemsField (.arr [.obj [("problem_category_id", .int 3),
        ("price", .float 12.345), ("estimated_minutes", .int 30),
        ("parts", .arr [.obj [("id", .int 9), ("part_price", .int 5)],
          .obj [("id", .int 4), ("part_price", .float 0.125), ("quantity", .int 2)]])]])
        "problems" = .ok lines ∧
      problemsField (.arr (lines.map ProblemLine.snapshot)) "problems" =
        .ok (lines.map fun l => { l with parts := sortBy (·.partId) l.parts })) := by
  refine ⟨⟨?p, ?place, compared_forms_read_back.1 _ _ _ ?place⟩,
    ⟨?ls, ?lines, (compared_forms_read_back.2 _ _ _ ?lines).1⟩⟩
  case place => rfl
  case lines => rfl

end RepairShop.Request