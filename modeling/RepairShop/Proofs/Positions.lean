import Mathlib
import RepairShop.Proofs.Quiet
import RepairShop.Orders.Position

/- Board positions as lists.

   The open orders of a branch form its bucket, and their positions (`sort`) order the
   board. This file says what it means for a bucket to be a list: `Lays orders b L`
   holds when the bucket of branch `b` holds exactly the orders of `L` and the order at
   index `k` holds position `k + 1`. It proves

   1. that the list of a bucket is unique (`Lays.unique`), that its positions are
      exactly 1..N, each held once (`Lays.positions`), and that the size and the
      largest position the services read are its length (`Lays.bucketSize_eq`,
      `Lays.topSort_eq`);
   2. that it depends on the orders' seats alone (`Lays.of_seats`);
   3. that each bulk write of positions acts on it as a list operation: an order with a
      fresh key at position N + 1 is appended (`Lays.append`); `reorder` takes one order
      out and puts it back at its target index (`Lays.reorder`, with `moveTo` and
      `movedIndex`); `closeGap`, once the removed order has left the bucket, erases it
      (`Lays.closeGap`);
   4. that the buckets of the other branches stay as they were (`Lays.reorder_other`,
      `Lays.closeGap_other`, and the `if` of `Lays.append`). -/

namespace RepairShop

open Store

namespace Store.Row

theorem lookup_put_of_ne {col col' : String} (c : Cell) (h : col' ≠ col) :
    ∀ cells : List (String × Cell),
      (cells.map fun e => if e.1 == col then (col, c) else e).lookup col' = cells.lookup col'
  | [] => rfl
  | (k, v) :: rest => by
    have ih := lookup_put_of_ne c h rest
    by_cases hk : k = col
    · subst hk
      have h1 : (col' == k) = false := by simpa using h
      simp only [List.map_cons, beq_self_eq_true, if_true, List.lookup, h1, ih]
    · have h1 : (k == col) = false := by simpa using hk
      simp only [List.map_cons, h1, Bool.false_eq_true, if_false, List.lookup, ih]

theorem lookup_put_self {col : String} (c : Cell) :
    ∀ cells : List (String × Cell), (cells.lookup col).isSome →
      (cells.map fun e => if e.1 == col then (col, c) else e).lookup col = some c
  | [], h => by simp at h
  | (k, v) :: rest, h => by
    by_cases hk : k = col
    · subst hk
      simp
    · have h1 : (k == col) = false := by simpa using hk
      have h2 : (col == k) = false := by simpa using Ne.symm hk
      simp only [List.lookup, h2] at h
      simp only [List.map_cons, h1, Bool.false_eq_true, if_false, List.lookup, h2]
      exact lookup_put_self c rest h

@[simp] theorem id_put (r : Row) (col : String) (c : Cell) : (r.put col c).id = r.id := rfl

theorem get_put_of_ne (r : Row) {col col' : String} (c : Cell) (h : col' ≠ col) :
    (r.put col c).get col' = r.get col' := by
  unfold get put
  split
  · rfl
  · rw [lookup_put_of_ne c h]

/-- Writing a column the row holds a value in replaces that value. -/
theorem get_put_self (r : Row) {col : String} (c : Cell) (hid : col ≠ "id")
    (h : r.get col ≠ .null) : (r.put col c).get col = c := by
  have hcol : (col == "id") = false := by simpa using hid
  have hs : (r.cells.lookup col).isSome := by
    cases hl : r.cells.lookup col with
    | none => simp [get, hcol, hl] at h
    | some v => rfl
  simp only [get, put, hcol, Bool.false_eq_true, if_false, lookup_put_self c r.cells hs,
    Option.getD_some]

end Store.Row

theorem Store.fitsInt64_of_lt {n : Int} (h0 : 0 ≤ n) (h : n < Nat.pow 2 63) : fitsInt64 n = true := by
  obtain ⟨k, rfl⟩ := Int.eq_ofNat_of_zero_le h0
  simp only [fitsInt64, decide_eq_true_eq]
  omega

namespace Store.Cell

@[simp] theorem compare_int_eq_lt {a b : Int} : (Cell.int a).compare (.int b) = .lt ↔ a < b :=
  compare_lt_iff_lt

@[simp] theorem compare_int_eq_gt {a b : Int} : (Cell.int a).compare (.int b) = .gt ↔ b < a :=
  compare_gt_iff_gt

@[simp] theorem compare_int_eq_eq {a b : Int} : (Cell.int a).compare (.int b) = .eq ↔ a = b :=
  compare_eq_iff_eq

@[simp] theorem isNull_int (n : Int) : (Cell.int n).isNull = false := rfl

@[simp] theorem isNull_null : Cell.null.isNull = true := rfl

@[simp] theorem withAffinity_numeric_int (n : Int) : (Cell.int n).withAffinity .numeric = .int n := rfl

theorem plus_int {n k : Int} (h : fitsInt64 (n + k) = true) : (Cell.int n).plus k = .int (n + k) := by
  simp [plus, asNumber, h]

@[simp] theorem sqlEq_int {a b : Int} : (Cell.int a).sqlEq (.int b) = decide (a = b) := by
  by_cases h : a = b <;> simp [sqlEq, h]

end Store.Cell

namespace Orders

/-- Where the order at index `k` of a bucket stands after the order at index `i` moved to
index `j`: the orders between shift by one toward `i`. -/
def movedIndex (i j k : Nat) : Nat :=
  let k' := if k < i then k else k - 1
  if k' < j then k' else k' + 1

/-- A shift of positions, on positions that are integers of the database: the position `s`
moves by one toward `c` when it lies between the target `t` and `c`. -/
theorem shifted_int {c t s : Int} (hs : 1 ≤ s) (hcb : c < Nat.pow 2 63)
    (hsb : s < Nat.pow 2 63) :
    shifted (.int c) (.int t) (.int s) =
      .int (if t < c then (if t ≤ s ∧ s < c then s + 1 else s)
        else (if c < s ∧ s ≤ t then s - 1 else s)) := by
  unfold shifted
  by_cases htc : t < c
  · by_cases hmid : t ≤ s ∧ s < c
    · have hfit : fitsInt64 (s + 1) = true := fitsInt64_of_lt (by omega) (by omega)
      simp [htc, hmid, not_lt.2 hmid.1, Cell.plus_int hfit]
    · simp only [htc, hmid, if_true, if_false]
      simp only [htc, Cell.compare_int_eq_lt, Cell.isNull_int, ne_eq, bne_iff_ne, beq_iff_eq,
        Bool.and_eq_true, Bool.not_false, and_true, not_lt, if_true]
      rw [if_neg hmid]
  · by_cases hmid : c < s ∧ s ≤ t
    · have hfit : fitsInt64 (s + -1) = true := fitsInt64_of_lt (by omega) (by omega)
      simp [htc, hmid, not_lt.2 hmid.2, Cell.plus_int hfit, Int.sub_eq_add_neg]
    · simp only [htc, hmid, if_false]
      simp only [Cell.compare_int_eq_lt, htc, Cell.compare_int_eq_gt, Cell.isNull_int, ne_eq,
        bne_iff_ne, beq_iff_eq, Bool.and_eq_true, Bool.not_false, and_true,
        not_lt, if_false]
      rw [if_neg hmid]

/-- The bucket with the order `x` taken out and put back at index `j`. -/
def moveTo (L : List Int) (x : Int) (j : Nat) : List Int := (L.erase x).insertIdx j x

section MoveTo

variable {L : List Int} {x : Int} {j : Nat}

/-- A move keeps the orders of the bucket. -/
theorem moveTo_perm (hx : x ∈ L) (hj : j < L.length) : (moveTo L x j).Perm L := by
  have hlen : j ≤ (L.erase x).length := by rw [List.length_erase_of_mem hx]; omega
  exact (List.perm_insertIdx x _ hlen).trans (List.perm_cons_erase hx).symm

/-- The moved order lands at the target index. -/
theorem getElem?_moveTo_self (hx : x ∈ L) (hj : j < L.length) : (moveTo L x j)[j]? = some x := by
  have hlen : j ≤ (L.erase x).length := by rw [List.length_erase_of_mem hx]; omega
  simp [moveTo, List.getElem?_insertIdx_self, hlen]

/-- Every other order of the bucket lands at `movedIndex`. -/
theorem getElem?_moveTo {i k : Nat} {y : Int} (hnd : L.Nodup) (hi : L[i]? = some x)
    (hk : L[k]? = some y) (hki : k ≠ i) :
    (moveTo L x j)[movedIndex i j k]? = some y := by
  obtain ⟨hil, rfl⟩ := List.getElem?_eq_some_iff.1 hi
  have hkl : k < L.length := (List.getElem?_eq_some_iff.1 hk).1
  have herase : L.erase L[i] = L.eraseIdx i := hnd.erase_getElem i hil
  -- the index of `y` once `x` is out, then once `x` is back in
  have hout : (L.eraseIdx i)[if k < i then k else k - 1]? = some y := by
    by_cases h : k < i
    · rw [if_pos h, List.getElem?_eraseIdx, if_pos h]
      exact hk
    · rw [if_neg h, List.getElem?_eraseIdx, if_neg (by omega), show k - 1 + 1 = k by omega]
      exact hk
  unfold moveTo movedIndex
  rw [herase]
  generalize (if k < i then k else k - 1) = k' at hout ⊢
  by_cases h : k' < j
  · rw [if_pos h, List.getElem?_insertIdx_of_lt h, hout]
  · rw [if_neg h, List.getElem?_insertIdx, if_neg (by omega), if_neg (by omega),
      show k' + 1 - 1 = k' by omega, hout]

end MoveTo

/-! ## Rows in buckets -/

section Rows

variable {o : Row} {b c : Int}

/-- A row is in a bucket by its branch and its lifecycle state alone. -/
theorem inBucket_congr {o o' : Row} (hb : o.get "branch_id" = o'.get "branch_id")
    (hs : o.get "status" = o'.get "status") (branch : Cell) :
    inBucket branch o = inBucket branch o' := by
  simp [inBucket, Row.is, Row.isOpen, hb, hs]

/-- Rows in one seat are in the same buckets. -/
theorem inBucket_congr_seat {o o' : Row} (h : o.seat = o'.seat) (branch : Cell) :
    inBucket branch o = inBucket branch o' := by
  simp only [Row.seat, Prod.mk.injEq] at h
  exact inBucket_congr h.1 h.2.1 branch

/-- Placing an order elsewhere keeps it in its bucket. -/
@[simp] theorem inBucket_placeAt (branch : Cell) (o : Row) (sort : Cell) :
    inBucket branch (placeAt o sort) = inBucket branch o :=
  inBucket_congr (Row.get_put_of_ne _ _ (by decide)) (Row.get_put_of_ne _ _ (by decide)) branch

@[simp] theorem id_placeAt (o : Row) (sort : Cell) : (placeAt o sort).id = o.id := rfl

/-- An order that holds a position takes the new one. -/
theorem sort_placeAt (o : Row) {s : Int} (h : o.get "sort" ≠ .null) :
    (placeAt o (.int s)).get "sort" = .int s :=
  Row.get_put_self o _ (by decide) h

/-- A row that is not open is in no bucket. -/
theorem inBucket_of_not_open (branch : Cell) (h : o.isOpen .orders = false) :
    inBucket branch o = false := by
  simp [inBucket, h]

/-- An order with an integer branch is in that branch's bucket only. -/
theorem eq_of_inBucket (hc : o.get "branch_id" = .int c) (h : inBucket (.int b) o = true) :
    c = b := by
  have : TableId.orders.affinityOf "branch_id" = .numeric := rfl
  simp only [inBucket, Row.is, this, hc, Cell.withAffinity_numeric_int, Cell.sqlEq_int,
    Bool.and_eq_true, decide_eq_true_eq] at h
  exact h.1

end Rows

/-! ## A bucket as a list -/

/-- `L` lists the bucket of branch `b` in position order: the orders of the bucket are those
of `L`, the order at index `k` holds position `k + 1`, and every position is an integer the
database holds. -/
structure Lays (orders : Table) (b : Int) (L : List Int) : Prop where
  nodup : L.Nodup
  placed : ∀ o ∈ orders, inBucket (.int b) o = true →
    ∃ k : Nat, L[k]? = some o.id ∧ o.get "sort" = .int (k + 1)
  listed : ∀ x ∈ L, ∃ o ∈ orders, o.id = x ∧ inBucket (.int b) o = true
  fits : L.length < Nat.pow 2 63

namespace Lays

variable {orders : Table} {b : Int} {L : List Int}

theorem idx_eq (h : Lays orders b L) {k k' : Nat} {x : Int} (hk : L[k]? = some x)
    (hk' : L[k']? = some x) : k = k' :=
  (List.getElem?_inj (List.getElem?_eq_some_iff.1 hk).1 h.nodup).1 (hk.trans hk'.symm)

/-- The list of a bucket is the table's: two lists of one bucket are equal. -/
theorem unique {L' : List Int} (h : Lays orders b L) (h' : Lays orders b L') : L = L' := by
  -- the order at index `k` of one list holds position `k + 1`, so it is at `k` in the other
  have key : ∀ {L L'}, Lays orders b L → Lays orders b L' →
      ∀ (k : Nat) (y : Int), L[k]? = some y → L'[k]? = some y := by
    intro L L' h h' k y hk
    obtain ⟨o, ho, rfl, hb⟩ := h.listed y (List.mem_of_getElem? hk)
    obtain ⟨k1, hk1, hs1⟩ := h.placed o ho hb
    obtain ⟨k2, hk2, hs2⟩ := h'.placed o ho hb
    have h12 : k1 = k2 := by
      rw [hs1] at hs2
      have := Cell.int.inj hs2
      omega
    rw [h.idx_eq hk hk1, h12]
    exact hk2
  refine List.ext_getElem? fun k => ?_
  cases hk : L[k]? with
  | some y => exact (key h h' k y hk).symm
  | none =>
    cases hk' : L'[k]? with
    | none => rfl
    | some y => rw [key h' h k y hk'] at hk; cases hk

/-- The table in key order: the keys of the bucket's orders are the list's, in some order. -/
theorem ids_perm (h : Lays orders b L) (hkeys : orders.Pairwise (·.id < ·.id)) :
    ((orders.filter (inBucket (.int b))).map (·.id)).Perm L := by
  have hnd : ((orders.filter (inBucket (.int b))).map (·.id)).Nodup :=
    ((hkeys.filter _).map (fun o : Row => o.id) fun _ _ h => h).nodup
  refine (List.perm_ext_iff_of_nodup hnd h.nodup).2 fun x => ?_
  simp only [List.mem_map, List.mem_filter]
  constructor
  · rintro ⟨o, ⟨ho, hb⟩, rfl⟩
    obtain ⟨k, hk, -⟩ := h.placed o ho hb
    exact List.mem_of_getElem? hk
  · intro hx
    obtain ⟨o, ho, rfl, hb⟩ := h.listed x hx
    exact ⟨o, ⟨ho, hb⟩, rfl⟩

/-- A table without orders has empty buckets. -/
theorem nil (b : Int) : Lays [] b [] where
  nodup := List.nodup_nil
  placed := fun _ h => absurd h List.not_mem_nil
  listed := fun _ h => absurd h List.not_mem_nil
  fits := by decide

/-- A row of one of two tables with the same seats has a row of the other in its seat. -/
theorem exists_seat {t t' : Table}
    (hseats : t'.map (fun r => (r.id, r.seat)) = t.map fun r => (r.id, r.seat)) {o : Row}
    (ho : o ∈ t') : ∃ p ∈ t, p.id = o.id ∧ p.seat = o.seat := by
  have hmem := List.mem_map_of_mem (f := fun r : Row => (r.id, r.seat)) ho
  rw [hseats] at hmem
  obtain ⟨p, hp, hpo⟩ := List.mem_map.1 hmem
  exact ⟨p, hp, (Prod.mk.inj hpo).1, (Prod.mk.inj hpo).2⟩

/-- A bucket is listed by the seats of the orders alone. -/
theorem of_seats {orders' : Table} (h : Lays orders b L)
    (hseats : orders'.map (fun r => (r.id, r.seat)) = orders.map fun r => (r.id, r.seat)) :
    Lays orders' b L where
  nodup := h.nodup
  placed o ho hb := by
    obtain ⟨p, hp, hid, hseat⟩ := exists_seat hseats ho
    obtain ⟨k, hk, hs⟩ := h.placed p hp (by rwa [inBucket_congr_seat hseat])
    refine ⟨k, hid ▸ hk, ?_⟩
    simp only [Row.seat, Prod.mk.injEq] at hseat
    rw [← hseat.2.2, hs]
  listed x hx := by
    obtain ⟨p, hp, rfl, hb⟩ := h.listed x hx
    obtain ⟨o, ho, hid, hseat⟩ := exists_seat hseats.symm hp
    exact ⟨o, ho, hid, by rwa [inBucket_congr_seat hseat]⟩
  fits := h.fits

/-- A bucket after every order was rewritten by `g`, which keeps keys: what the bucket holds
now, told of the orders before. -/
theorem of_map {L' : List Int} (g : Row → Row) (hid : ∀ o, (g o).id = o.id) (hnd : L'.Nodup)
    (hfits : L'.length < Nat.pow 2 63)
    (hsort : ∀ o ∈ orders, inBucket (.int b) (g o) = true →
      ∃ k : Nat, L'[k]? = some o.id ∧ (g o).get "sort" = .int (k + 1))
    (hlisted : ∀ x ∈ L', ∃ o ∈ orders, o.id = x ∧ inBucket (.int b) (g o) = true) :
    Lays (orders.map g) b L' where
  nodup := hnd
  placed o' ho' hb := by
    obtain ⟨o, ho, rfl⟩ := List.mem_map.1 ho'
    rw [hid]
    exact hsort o ho hb
  listed x hx := by
    obtain ⟨o, ho, rfl, hb⟩ := hlisted x hx
    exact ⟨g o, List.mem_map_of_mem ho, hid o, hb⟩
  fits := hfits

/-- A rewrite that leaves the bucket's orders alone and brings no order into it keeps the
bucket's list. -/
theorem map_fixed (h : Lays orders b L) (g : Row → Row) (hid : ∀ o, (g o).id = o.id)
    (hfix : ∀ o ∈ orders, inBucket (.int b) o = true → g o = o)
    (hin : ∀ o ∈ orders, inBucket (.int b) (g o) = true → inBucket (.int b) o = true) :
    Lays (orders.map g) b L :=
  of_map g hid h.nodup h.fits
    (fun o ho hb => by
      have hb' := hin o ho hb
      rw [hfix o ho hb']
      exact h.placed o ho hb')
    (fun x hx => by
      obtain ⟨o, ho, rfl, hb⟩ := h.listed x hx
      exact ⟨o, ho, rfl, by rwa [hfix o ho hb]⟩)

/-- **A new order goes to the end of its bucket.** An order with a fresh key that enters the
bucket at position N + 1 extends the list by its key; one that does not leaves it. -/
theorem append {r : Row} (h : Lays orders b L) (hfresh : ∀ o ∈ orders, o.id ≠ r.id)
    (hr : inBucket (.int b) r = true →
      r.get "sort" = .int (L.length + 1) ∧ L.length + 1 < Nat.pow 2 63) :
    Lays (orders ++ [r]) b (if inBucket (.int b) r then L ++ [r.id] else L) := by
  by_cases hb : inBucket (.int b) r = true
  · obtain ⟨hsort, hfits⟩ := hr hb
    have hnew : r.id ∉ L := fun hx => by
      obtain ⟨o, ho, hid, -⟩ := h.listed _ hx
      exact hfresh o ho hid
    rw [if_pos hb]
    refine ⟨List.nodup_append.2 ⟨h.nodup, List.nodup_singleton _, ?_⟩, ?_, ?_, ?_⟩
    · intro x hx y hy
      rw [List.mem_singleton.1 hy]
      rintro rfl
      exact hnew hx
    · intro o ho hbo
      rcases List.mem_append.1 ho with ho | ho
      · obtain ⟨k, hk, hs⟩ := h.placed o ho hbo
        exact ⟨k, List.getElem?_append_left (List.getElem?_eq_some_iff.1 hk).1 ▸ hk, hs⟩
      · rw [List.mem_singleton.1 ho]
        refine ⟨L.length, by simp, hsort⟩
    · intro x hx
      rcases List.mem_append.1 hx with hx | hx
      · obtain ⟨o, ho, hid, hbo⟩ := h.listed x hx
        exact ⟨o, List.mem_append_left _ ho, hid, hbo⟩
      · exact ⟨r, by simp, (List.mem_singleton.1 hx).symm, hb⟩
    · simpa using hfits
  · rw [if_neg hb]
    refine ⟨h.nodup, ?_, ?_, h.fits⟩
    · intro o ho hbo
      rcases List.mem_append.1 ho with ho | ho
      · exact h.placed o ho hbo
      · rw [List.mem_singleton.1 ho] at hbo
        exact absurd hbo hb
    · intro x hx
      obtain ⟨o, ho, hid, hbo⟩ := h.listed x hx
      exact ⟨o, List.mem_append_left _ ho, hid, hbo⟩

/-- **A move reinserts the order at its target.** Moving the order at index `i` to position
`j + 1` turns the list into `moveTo L x j`. -/
theorem reorder {i j : Nat} {x : Int} (h : Lays orders b L) (hi : L[i]? = some x)
    (hj : j < L.length) :
    Lays (Orders.reorder orders (.int b) x (.int (i + 1)) (.int (j + 1))) b (moveTo L x j) := by
  have hx : x ∈ L := List.mem_of_getElem? hi
  have hil : i < L.length := (List.getElem?_eq_some_iff.1 hi).1
  have hperm := moveTo_perm hx hj
  unfold Orders.reorder
  rw [List.map_map]
  refine of_map _ (fun o => by dsimp only [Function.comp_apply]; split_ifs <;> rfl)
    (hperm.nodup_iff.2 h.nodup) (hperm.length_eq ▸ h.fits) ?_ ?_
  · intro o ho hb
    dsimp only [Function.comp_apply] at hb ⊢
    have hb0 : inBucket (.int b) o = true := by split_ifs at hb <;> simpa using hb
    obtain ⟨k, hk, hs⟩ := h.placed o ho hb0
    have hkl : k < L.length := (List.getElem?_eq_some_iff.1 hk).1
    have hfits := h.fits
    have hnull : o.get "sort" ≠ .null := by rw [hs]; simp
    rw [if_pos hb0]
    by_cases hox : o.id = x
    · -- `x` itself takes its target position, whatever the shift made of it
      refine ⟨j, by rw [hox]; exact getElem?_moveTo_self hx hj, ?_⟩
      rw [if_pos (by simpa using hox), hs,
        shifted_int (c := i + 1) (t := j + 1) (s := k + 1) (by omega) (by omega) (by omega)]
      exact sort_placeAt _ (by rw [sort_placeAt o hnull]; simp)
    · -- every other order shifts by one toward the old position of `x`
      have hki : k ≠ i := fun e => hox (Option.some.inj ((e ▸ hk).symm.trans hi))
      have hshift : shifted (.int (i + 1)) (.int (j + 1)) (.int (k + 1)) =
          .int (movedIndex i j k + 1) := by
        rw [shifted_int (c := i + 1) (t := j + 1) (s := k + 1) (by omega) (by omega) (by omega)]
        simp only [movedIndex]
        congr 1
        split_ifs <;> omega
      refine ⟨movedIndex i j k, getElem?_moveTo h.nodup hi hk hki, ?_⟩
      rw [if_neg (by simpa using hox), hs, hshift]
      exact sort_placeAt o hnull
  · intro y hy
    obtain ⟨o, ho, rfl, hb⟩ := h.listed y (hperm.subset hy)
    refine ⟨o, ho, rfl, ?_⟩
    dsimp only [Function.comp_apply]
    split_ifs <;> simpa using hb

/-- A move in one branch leaves the bucket of every other branch as it was. -/
theorem reorder_other {b' x : Int} {current target : Cell} (h : Lays orders b L)
    (hkeys : orders.Pairwise (·.id < ·.id))
    (hbranch : ∀ o ∈ orders, ∃ c, o.get "branch_id" = .int c)
    (hx : ∃ o ∈ orders, o.id = x ∧ inBucket (.int b') o = true) (hb : b ≠ b') :
    Lays (Orders.reorder orders (.int b') x current target) b L := by
  obtain ⟨ox, hox, hoxid, hoxb⟩ := hx
  unfold Orders.reorder
  rw [List.map_map]
  refine h.map_fixed _ (fun o => by dsimp only [Function.comp_apply]; split_ifs <;> rfl) ?_ ?_
  · intro o ho hbo
    obtain ⟨c, hc⟩ := hbranch o ho
    -- `o` is neither in the moving bucket nor the moved order, which sits there
    have hout : inBucket (.int b') o = false := by
      cases hb' : inBucket (.int b') o
      · rfl
      · exact absurd ((eq_of_inBucket hc hbo).symm.trans (eq_of_inBucket hc hb')) hb
    have hne : o.id ≠ x := by
      rintro hid
      have := eq_of_mem_of_id hkeys ho hox (hid.trans hoxid.symm)
      rw [this] at hout
      rw [hout] at hoxb
      cases hoxb
    simp [hout, hne]
  · intro o ho hbo
    dsimp only [Function.comp_apply] at hbo
    split_ifs at hbo <;> simpa using hbo

/-- **Removing an order closes its gap.** Once the order `x` at index `i` has left its bucket
(`retire` takes it out and leaves every other order as it was), pulling the orders after it
up by one turns the list into `L.erase x`. -/
theorem closeGap {i : Nat} {x : Int} (h : Lays orders b L) (hi : L[i]? = some x)
    (retire : Row → Row) (hid : ∀ o, (retire o).id = o.id)
    (hother : ∀ o, o.id ≠ x → retire o = o)
    (hout : ∀ o, o.id = x → (retire o).isOpen .orders = false) :
    Lays (Orders.closeGap (orders.map retire) (.int b) (.int (i + 1))) b (L.erase x) := by
  have hil : i < L.length := (List.getElem?_eq_some_iff.1 hi).1
  have herase : L.erase x = L.eraseIdx i := by
    obtain ⟨-, rfl⟩ := List.getElem?_eq_some_iff.1 hi
    exact h.nodup.erase_getElem i hil
  unfold Orders.closeGap
  rw [List.map_map]
  refine of_map _ (fun o => by dsimp only [Function.comp_apply]; split_ifs <;> simp [hid])
    (h.nodup.erase x) (lt_of_le_of_lt List.length_erase_le h.fits) ?_ ?_
  · intro o ho hb
    dsimp only [Function.comp_apply] at hb ⊢
    -- the order is still in the bucket, so it is not `x`, which the retirement took out
    have hb1 : inBucket (.int b) (retire o) = true := by split_ifs at hb <;> simpa using hb
    have hox : o.id ≠ x := fun hx => by
      rw [inBucket_of_not_open _ (hout o hx)] at hb1
      cases hb1
    rw [hother o hox] at hb1 ⊢
    obtain ⟨k, hk, hs⟩ := h.placed o ho hb1
    have hki : k ≠ i := fun e => hox (Option.some.inj ((e ▸ hk).symm.trans hi))
    have hfits := h.fits
    have hkl : k < L.length := (List.getElem?_eq_some_iff.1 hk).1
    rw [herase, hs]
    by_cases hki' : i < k
    · -- after the gap: pulled up by one
      have hfit : fitsInt64 ((k : Int) + 1 + -1) = true := fitsInt64_of_lt (by omega) (by omega)
      refine ⟨k - 1, ?_, ?_⟩
      · rw [List.getElem?_eraseIdx, if_neg (by omega), show k - 1 + 1 = k by omega]
        exact hk
      · rw [if_pos (by simp [hb1]; omega), Cell.plus_int hfit]
        rw [sort_placeAt o (by rw [hs]; simp)]
        congr 1
        omega
    · -- before the gap: unchanged
      refine ⟨k, ?_, ?_⟩
      · rw [List.getElem?_eraseIdx, if_pos (by omega)]
        exact hk
      · rw [if_neg (by simp; omega), hs]
  · intro y hy
    obtain ⟨hyx, hyL⟩ := (h.nodup.mem_erase_iff).1 hy
    obtain ⟨o, ho, rfl, hb⟩ := h.listed _ hyL
    refine ⟨o, ho, rfl, ?_⟩
    dsimp only [Function.comp_apply]
    rw [hother o hyx]
    split_ifs <;> simpa using hb

/-- Closing a gap in one branch leaves the bucket of every other branch as it was. -/
theorem closeGap_other {b' x : Int} {removed : Cell} (h : Lays orders b L)
    (hkeys : orders.Pairwise (·.id < ·.id))
    (hbranch : ∀ o ∈ orders, ∃ c, o.get "branch_id" = .int c)
    (hx : ∃ o ∈ orders, o.id = x ∧ inBucket (.int b') o = true) (hb : b ≠ b')
    (retire : Row → Row) (hid : ∀ o, (retire o).id = o.id)
    (hother : ∀ o, o.id ≠ x → retire o = o)
    (hout : ∀ o, o.id = x → (retire o).isOpen .orders = false) :
    Lays (Orders.closeGap (orders.map retire) (.int b') removed) b L := by
  obtain ⟨ox, hox, hoxid, hoxb⟩ := hx
  unfold Orders.closeGap
  rw [List.map_map]
  refine h.map_fixed _ (fun o => by dsimp only [Function.comp_apply]; split_ifs <;> simp [hid]) ?_ ?_
  · intro o ho hbo
    obtain ⟨c, hc⟩ := hbranch o ho
    have hout' : inBucket (.int b') o = false := by
      cases hb' : inBucket (.int b') o
      · rfl
      · exact absurd ((eq_of_inBucket hc hbo).symm.trans (eq_of_inBucket hc hb')) hb
    have hne : o.id ≠ x := by
      rintro hid
      have := eq_of_mem_of_id hkeys ho hox (hid.trans hoxid.symm)
      rw [this] at hout'
      rw [hout'] at hoxb
      cases hoxb
    simp [hother o hne, hout']
  · intro o ho hbo
    dsimp only [Function.comp_apply] at hbo
    have hb1 : inBucket (.int b) (retire o) = true := by split_ifs at hbo <;> simpa using hbo
    by_cases hox' : o.id = x
    · rw [inBucket_of_not_open _ (hout o hox')] at hb1
      cases hb1
    · rwa [hother o hox'] at hb1

/-- The scan for the largest position reaches `N` when every position is at most `N` and one
of them is `N`. -/
theorem foldl_top {N : Int} :
    ∀ (rs : List Row) (m : Cell),
      (∀ o ∈ rs, ∃ n : Int, o.get "sort" = .int n ∧ n ≤ N) →
      (m = .null ∨ ∃ a : Int, m = .int a ∧ a ≤ N) →
      (m = .int N ∨ ∃ o ∈ rs, o.get "sort" = .int N) →
      rs.foldl (fun m o =>
        let s := o.get "sort"
        if !s.isNull && (m.isNull || s.compare m == .gt) then s else m) m = .int N
  | [], m, _, _, hN => by
    rcases hN with rfl | ⟨_, ho, _⟩
    · rfl
    · cases ho
  | o :: rest, m, hrs, hm, hN => by
    obtain ⟨n, hn, hnN⟩ := hrs o (List.mem_cons_self ..)
    simp only [List.foldl_cons]
    apply foldl_top rest _ (fun o' ho' => hrs o' (List.mem_cons_of_mem _ ho'))
    · -- the larger of the two stays within `N`
      rcases hm with rfl | ⟨a, rfl, ha⟩
      · simp [hn, hnN]
      · by_cases hna : a < n <;> simp [hn, hna, hnN, ha]
    · rcases hN with rfl | ⟨o', ho', hs'⟩
      · left
        by_cases hnN' : n = N
        · simp [hn, hnN']
        · have : ¬ N < n := by omega
          simp [hn, this]
      · rcases List.mem_cons.1 ho' with rfl | ho'
        · left
          rw [hs'] at hn
          cases hn
          rcases hm with rfl | ⟨a, rfl, ha⟩
          · simp [hs']
          · by_cases haN : a = N
            · subst haN; simp [hs']
            · have : a < N := by omega
              simp [hs', this]
        · exact .inr ⟨o', ho', hs'⟩

/-- The largest position of a bucket is its size, and an empty bucket has none. -/
theorem topSort_eq (h : Lays orders b L) (hkeys : orders.Pairwise (·.id < ·.id)) :
    topSort orders (.int b) = if L = [] then .null else .int L.length := by
  unfold topSort
  split_ifs with hL
  · -- no order is in the bucket
    have hnil : orders.filter (inBucket (.int b)) = [] := by
      have := (h.ids_perm hkeys).length_eq
      rw [hL, List.length_map] at this
      exact List.eq_nil_of_length_eq_zero this
    rw [hnil]
    rfl
  · apply foldl_top
    · intro o ho
      obtain ⟨ho, hb⟩ := List.mem_filter.1 ho
      obtain ⟨k, hk, hs⟩ := h.placed o ho hb
      have := (List.getElem?_eq_some_iff.1 hk).1
      exact ⟨k + 1, hs, by omega⟩
    · exact .inl rfl
    · -- the last order of the list holds position N
      right
      have hlen : L.length - 1 < L.length := by
        have : L.length ≠ 0 := fun h0 => hL (List.eq_nil_of_length_eq_zero h0)
        omega
      obtain ⟨o, ho, hid, hb⟩ := h.listed _ (List.getElem_mem hlen)
      obtain ⟨k, hk, hs⟩ := h.placed o ho hb
      have hkk : k = L.length - 1 := h.idx_eq hk (by rw [hid]; exact List.getElem?_eq_getElem hlen)
      refine ⟨o, List.mem_filter.2 ⟨ho, hb⟩, ?_⟩
      rw [hs, hkk]
      congr 1
      omega

end Lays

end Orders

end RepairShop
