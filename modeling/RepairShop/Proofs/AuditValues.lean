import Mathlib
import RepairShop.Audit.Canonical
import RepairShop.Proofs.Quiet

/- How the audit trail compares values.

   `Audit.canonical` writes a value as JSON text and reads it back, which fails for an integer
   of more than `Text.maxDigits` digits (`Audit.writable`), and drops every object member whose
   value is `null`, at every depth and inside lists too (`Audit.dropNulls`);
   `Audit.valuesDiffer` compares two canonical forms by `Value.same`:
   numbers by their exact value across integers, doubles and booleans, lists item by item,
   objects as maps from keys to values. For values whose objects have each key once
   (`Value.KeysDistinct`, as every decoded document has), this file proves

   1. that the values `dropNulls` gives are exactly those with no `null` member
      (`dropNulls_nullFree`, `dropNulls_eq_self_iff`), so `canonical` is idempotent
      (`canonical_canonical`), and that dropping and reordering members keep what can be
      written (`writable_dropNulls`, `Reordered.writable_eq`);
   2. that `same` is symmetric, holds of every value but a NaN double with itself, and does
      not see the order of object members (`same_comm`, `same_self`, `same_reordered`);
   3. hence that the trail's test is irreflexive and symmetric, sees only canonical forms and
      ignores the order of object members at every depth. -/

namespace RepairShop

open Float.Model

/-! ## Doubles compared as IEEE orders them -/

namespace Number

/-- The order of two doubles read the other way round is the swapped order. -/
theorem UnpackedFloat.compare_swap (a b : UnpackedFloat) :
    b.compare a = (a.compare b).map Ordering.swap := by
  cases a with
  | infinity s =>
    cases b with
    | infinity t => cases s <;> cases t <;> rfl
    | notANumber => cases s <;> rfl
    | zero t => cases s <;> cases t <;> rfl
    | finite t => cases s <;> cases t <;> rfl
  | notANumber => cases b <;> rfl
  | zero s =>
    cases b with
    | infinity t => cases s <;> cases t <;> rfl
    | notANumber => rfl
    | zero t => cases s <;> cases t <;> rfl
    | finite t => cases s <;> cases t <;> rfl
  | finite s m e h =>
    cases b with
    | infinity t => cases s <;> cases t <;> rfl
    | notANumber => rfl
    | zero t => cases s <;> cases t <;> rfl
    | finite t m' e' h' =>
      cases s <;> cases t <;>
        simp [UnpackedFloat.compare, Ordering.swap_then, Int.compare_swap, Nat.compare_swap]

/-- A double is equal to itself unless it is a NaN. -/
theorem UnpackedFloat.compare_self (a : UnpackedFloat) :
    a.compare a = if a.isNaN then none else some .eq := by
  cases a with
  | infinity s => cases s <;> rfl
  | notANumber => rfl
  | zero s => cases s <;> rfl
  | finite s m e h => cases s <;> simp [UnpackedFloat.compare, UnpackedFloat.isNaN]

theorem float_lt_iff (x y : Float) :
    x < y ↔ x.toModel.unpack.compare y.toModel.unpack = some .lt := by
  show x.lt y = true ↔ _
  simp [Float.lt, LT.lt, Float.Model.lt, UnpackedFloat.lt]

theorem float_beq_eq (x y : Float) :
    (x == y) = (x.toModel.unpack.compare y.toModel.unpack == some .eq) := by
  show x.beq y = _
  simp [Float.beq, BEq.beq, Float.Model.beq, UnpackedFloat.beq]

end Number

namespace Json.Value

open Number

/-- Two doubles are ordered as their unpacked forms. -/
theorem Num.compare?_float (x y : Float) :
    Num.compare? (.float x) (.float y) = x.toModel.unpack.compare y.toModel.unpack := by
  have hswap := UnpackedFloat.compare_swap x.toModel.unpack y.toModel.unpack
  simp only [Num.compare?, float_lt_iff, float_beq_eq, hswap]
  cases x.toModel.unpack.compare y.toModel.unpack with
  | none => simp
  | some o => cases o <;> simp [Ordering.swap]

theorem Num.compare?_swap (a b : Num) :
    Num.compare? b a = (Num.compare? a b).map Ordering.swap := by
  cases a with
  | int m =>
    cases b with
    | int n => simp [Num.compare?, Int.compare_swap]
    | float y =>
      simp only [Num.compare?, Option.map_map]
      cases Number.compareInt y m <;> simp [Ordering.swap_swap]
  | float x =>
    cases b with
    | int n => rfl
    | float y => rw [Num.compare?_float, Num.compare?_float, UnpackedFloat.compare_swap]

theorem Num.same_comm (a b : Num) : a.same b = b.same a := by
  unfold Num.same
  rw [Num.compare?_swap a b]
  cases Num.compare? a b with
  | none => rfl
  | some o => cases o <;> rfl

end Json.Value

/-! ## Well-formed values, values without `null` members, reordered values -/

namespace Json.Value

mutual
/-- Every object inside the value has each key once, as the objects of a decoded document
have. -/
def KeysDistinct : Value → Prop
  | .arr items => ItemsKeysDistinct items
  | .obj fields => (fields.map Prod.fst).Nodup ∧ MembersKeysDistinct fields
  | _ => True
/-- `KeysDistinct` of every item. -/
def ItemsKeysDistinct : List Value → Prop
  | [] => True
  | v :: rest => KeysDistinct v ∧ ItemsKeysDistinct rest
/-- `KeysDistinct` of every member's value. -/
def MembersKeysDistinct : List (String × Value) → Prop
  | [] => True
  | (_, v) :: rest => KeysDistinct v ∧ MembersKeysDistinct rest
end

mutual
/-- No object inside the value has a member whose value is `null`. -/
def NullFree : Value → Prop
  | .arr items => ItemsNullFree items
  | .obj fields => MembersNullFree fields
  | _ => True
/-- `NullFree` of every item; an item may itself be `null`. -/
def ItemsNullFree : List Value → Prop
  | [] => True
  | v :: rest => NullFree v ∧ ItemsNullFree rest
/-- No member is `null`, and every member's value is `NullFree`. -/
def MembersNullFree : List (String × Value) → Prop
  | [] => True
  | (_, v) :: rest => v ≠ .null ∧ NullFree v ∧ MembersNullFree rest
end

mutual
/-- `w` is `v` with the members of its objects, at any depth, put in another order. -/
def Reordered : Value → Value → Prop
  | .arr xs, .arr ys => ItemsReordered xs ys
  | .obj fs, .obj gs => ∃ hs, MembersReordered fs hs ∧ hs.Perm gs
  | v, w => v = w
/-- Items reordered one by one. -/
def ItemsReordered : List Value → List Value → Prop
  | [], [] => True
  | x :: xs, y :: ys => Reordered x y ∧ ItemsReordered xs ys
  | _, _ => False
/-- Members with the same keys in the same order, their values reordered one by one. -/
def MembersReordered : List (String × Value) → List (String × Value) → Prop
  | [], [] => True
  | (k, v) :: fs, (k', w) :: gs => k = k' ∧ Reordered v w ∧ MembersReordered fs gs
  | _, _ => False
end

theorem itemsKeysDistinct_iff (xs : List Value) :
    ItemsKeysDistinct xs ↔ ∀ v ∈ xs, KeysDistinct v := by
  induction xs with
  | nil => simp [ItemsKeysDistinct]
  | cons v rest ih => simp [ItemsKeysDistinct, ih]

theorem membersKeysDistinct_iff (fs : List (String × Value)) :
    MembersKeysDistinct fs ↔ ∀ p ∈ fs, KeysDistinct p.2 := by
  induction fs with
  | nil => simp [MembersKeysDistinct]
  | cons p rest ih => simp [MembersKeysDistinct, ih]


/-! ## Objects compared as maps -/

/-- A member found under its own key, in a list of members with distinct keys. -/
theorem lookup_of_mem {β : Type} : ∀ {l : List (String × β)} {p : String × β},
    (l.map Prod.fst).Nodup → p ∈ l → l.lookup p.1 = some p.2
  | [], _, _, h => absurd h List.not_mem_nil
  | (k, v) :: rest, p, hnd, h => by
    rw [List.map_cons, List.nodup_cons] at hnd
    rcases List.mem_cons.1 h with rfl | h
    · simp
    · have hkeys : p.1 ∈ rest.map Prod.fst := List.mem_map_of_mem h
      have hne : (p.1 == k) = false := by
        simpa using fun he : p.1 = k => hnd.1 (he ▸ hkeys)
      simp only [List.lookup_cons, hne]
      exact lookup_of_mem hnd.2 h

/-- Every member of the first object is found in the second with a matching value. -/
theorem sameFields_eq_all (xs ys : List (String × Value)) :
    sameFields xs ys = xs.all fun p => (ys.lookup p.1).any p.2.sameMember := by
  induction xs with
  | nil => rfl
  | cons p rest ih =>
    obtain ⟨k, v⟩ := p
    cases h : ys.lookup k <;> simp [sameFields, h, ih, sameMember]

theorem sameFields_iff {xs ys : List (String × Value)} :
    sameFields xs ys = true ↔
      ∀ p ∈ xs, ∃ w, ys.lookup p.1 = some w ∧ p.2.sameMember w = true := by
  simp only [sameFields_eq_all, List.all_eq_true, Option.any_eq_true]

/-- Objects of distinct keys and equal sizes, the first matched in the second, are matched the
other way too when their values match in either order. Every key of the first is a key of the
second; with equal sizes the two sets of keys are equal, so the second's members are found in
the first. -/
theorem sameFields_swap {xs ys : List (String × Value)} (hx : (xs.map Prod.fst).Nodup)
    (hy : (ys.map Prod.fst).Nodup) (hlen : xs.length = ys.length)
    (hsym : ∀ p ∈ xs, ∀ q ∈ ys, p.2.sameMember q.2 = q.2.sameMember p.2)
    (h : sameFields xs ys = true) : sameFields ys xs = true := by
  have hfound := sameFields_iff.1 h
  have hsub : xs.map Prod.fst ⊆ ys.map Prod.fst := by
    intro k hk
    obtain ⟨p, hp, rfl⟩ := List.mem_map.1 hk
    obtain ⟨w, hw, -⟩ := hfound p hp
    exact List.mem_map.2 ⟨(p.1, w), Store.lookup_mem hw, rfl⟩
  have hperm : (xs.map Prod.fst).Perm (ys.map Prod.fst) :=
    (hx.subperm hsub).perm_of_length_le (by simp [hlen])
  refine sameFields_iff.2 fun q hq => ?_
  -- the member of the first under `q`'s key, and the value it was matched with
  obtain ⟨p, hp, hkey⟩ := List.mem_map.1 (hperm.mem_iff.2 (List.mem_map_of_mem hq))
  obtain ⟨w, hw, hpw⟩ := hfound p hp
  have hwq : w = q.2 := by
    rw [hkey, lookup_of_mem hy hq] at hw
    exact (Option.some.inj hw).symm
  refine ⟨p.2, by rw [← hkey]; exact lookup_of_mem hx hp, ?_⟩
  rw [← hsym p hp q hq, ← hwq]
  exact hpw

theorem sameFields_comm {xs ys : List (String × Value)} (hx : (xs.map Prod.fst).Nodup)
    (hy : (ys.map Prod.fst).Nodup) (hlen : xs.length = ys.length)
    (hsym : ∀ p ∈ xs, ∀ q ∈ ys, p.2.sameMember q.2 = q.2.sameMember p.2) :
    sameFields xs ys = sameFields ys xs := by
  rw [Bool.eq_iff_iff]
  exact ⟨sameFields_swap hx hy hlen hsym,
    sameFields_swap hy hx hlen.symm fun q hq p hp => (hsym p hp q hq).symm⟩

/-! ## `same` is symmetric, reflexive off NaN, and blind to member order -/

mutual
/-- `same` reads the same in either order, for values whose objects have each key once. -/
theorem same_comm : ∀ (a b : Value), KeysDistinct a → KeysDistinct b → same a b = same b a
  | .arr xs, b, ha, hb => by
    cases b with
    | arr ys => exact sameItems_comm xs ys ha hb
    | _ => simp [same, num?]
  | .obj xs, b, ha, hb => by
    cases b with
    | obj ys =>
      obtain ⟨hxk, hxm⟩ := ha
      obtain ⟨hyk, hym⟩ := hb
      simp only [same]
      by_cases hlen : xs.length = ys.length
      · rw [sameFields_comm hxk hyk hlen fun p hp q hq =>
          members_sameMember_comm xs hxm p hp q.2 ((membersKeysDistinct_iff ys).1 hym q hq)]
        simp [hlen]
      · have hxy : (xs.length == ys.length) = false := by simpa using hlen
        have hyx : (ys.length == xs.length) = false := by simpa using Ne.symm hlen
        rw [hxy, hyx, Bool.false_and, Bool.false_and]
    | _ => simp [same, num?]
  | .null, b, _, _ => by cases b <;> simp [same, num?]
  | .bool x, b, _, _ => by cases b <;> simp [same, num?, Num.same_comm]
  | .int n, b, _, _ => by cases b <;> simp [same, num?, Num.same_comm]
  | .float x, b, _, _ => by cases b <;> simp [same, num?, Num.same_comm]
  | .str t, b, _, _ => by cases b <;> simp [same, num?, eq_comm]
  | .unpaired ps, b, _, _ => by cases b <;> simp [same, num?, eq_comm]
/-- `sameItems` reads the same in either order. -/
theorem sameItems_comm : ∀ (xs ys : List Value), ItemsKeysDistinct xs → ItemsKeysDistinct ys →
    sameItems xs ys = sameItems ys xs
  | [], [], _, _ => rfl
  | [], _ :: _, _, _ => rfl
  | _ :: _, [], _, _ => rfl
  | x :: xs, y :: ys, ⟨hx, hxs⟩, ⟨hy, hys⟩ => by
    simp only [sameItems, same_comm x y hx hy, sameItems_comm xs ys hxs hys, Bool.and_comm x.isNaN]
/-- A member's value and any value match the same way in either order. -/
theorem members_sameMember_comm : ∀ (fs : List (String × Value)), MembersKeysDistinct fs →
    ∀ p ∈ fs, ∀ w, KeysDistinct w → p.2.sameMember w = w.sameMember p.2
  | [], _, _, hp, _, _ => absurd hp List.not_mem_nil
  | (_, v) :: rest, ⟨hv, hrest⟩, p, hp, w, hw => by
    rcases List.mem_cons.1 hp with rfl | hp
    · simp only [sameMember, same_comm v w hv hw, Bool.and_comm v.isNaN]
    · exact members_sameMember_comm rest hrest p hp w hw
end

mutual
/-- Every value is `same` as itself except a NaN double, for values whose objects have each
key once. -/
theorem same_self : ∀ v : Value, KeysDistinct v → same v v = !v.isNaN
  | .arr xs, h => sameItems_self xs h
  | .obj fs, ⟨hk, hm⟩ => by
    have hfields : sameFields fs fs = true := sameFields_iff.2 fun p hp =>
      ⟨p.2, lookup_of_mem hk hp, members_sameMember_self fs hm p hp⟩
    simp [same, hfields, isNaN]
  | .float x, _ => by
    have hself := Number.UnpackedFloat.compare_self x.toModel.unpack
    have hnan : x.isNaN = x.toModel.unpack.isNaN := rfl
    simp only [same, num?, Num.same, Num.compare?_float, hself, isNaN, hnan]
    cases x.toModel.unpack.isNaN <;> rfl
  | .null, _ => rfl
  | .bool b, _ => by cases b <;> rfl
  | .int n, _ => by simp [same, num?, Num.same, Num.compare?, isNaN]
  | .str t, _ => by simp [same, isNaN]
  | .unpaired ps, _ => by simp [same, isNaN]
/-- `sameItems` holds of every list with itself: NaN items match each other. -/
theorem sameItems_self : ∀ xs : List Value, ItemsKeysDistinct xs → sameItems xs xs = true
  | [], _ => rfl
  | x :: xs, ⟨hx, hxs⟩ => by
    cases hnan : x.isNaN <;> simp [sameItems, same_self x hx, sameItems_self xs hxs, hnan]
/-- Every member's value matches itself as a member. -/
theorem members_sameMember_self : ∀ fs : List (String × Value), MembersKeysDistinct fs →
    ∀ p ∈ fs, p.2.sameMember p.2 = true
  | [], _, _, hp => absurd hp List.not_mem_nil
  | (_, v) :: rest, ⟨hv, hrest⟩, p, hp => by
    rcases List.mem_cons.1 hp with rfl | hp
    · cases hnan : v.isNaN <;> simp [sameMember, same_self v hv, hnan]
    · exact members_sameMember_self rest hrest p hp
end

/-- A value that is no list and no object is reordered only into itself. -/
theorem Reordered.of_atom {a a' : Value} (h : Reordered a a') (harr : ∀ xs, a ≠ .arr xs)
    (hobj : a.isObj = false) : a' = a := by
  cases a <;> cases a' <;> simp_all [Reordered, isObj]

theorem Reordered.isNaN_eq {a a' : Value} (h : Reordered a a') : a'.isNaN = a.isNaN := by
  cases a <;> cases a' <;> simp_all [Reordered, isNaN]

/-- A list is reordered only into a list, item by item. -/
theorem Reordered.arr_inv {xs : List Value} {a' : Value} (h : Reordered (.arr xs) a') :
    ∃ ys, a' = .arr ys ∧ ItemsReordered xs ys := by
  cases a' <;> simp_all [Reordered]

/-- An object is reordered only into an object: its members' values reordered, then the
members permuted. -/
theorem Reordered.obj_inv {fs : List (String × Value)} {a' : Value} (h : Reordered (.obj fs) a') :
    ∃ gs hs, a' = .obj gs ∧ MembersReordered fs hs ∧ hs.Perm gs := by
  cases a' <;> simp_all [Reordered]

mutual
/-- `same` does not see the order of object members, at any depth, of its first value. -/
theorem same_reordered : ∀ (a a' : Value), Reordered a a' → ∀ b, same a' b = same a b
  | .arr xs, a', h, b => by
    obtain ⟨xs', rfl, h⟩ := Reordered.arr_inv h
    cases b with
    | arr ys => exact sameItems_reordered xs xs' h ys
    | _ => simp [same, num?]
  | .obj fs, a', h, b => by
    obtain ⟨gs, hs, rfl, hm, hp⟩ := Reordered.obj_inv h
    cases b with
    | obj ys =>
      obtain ⟨hlen, hfields⟩ := members_reordered fs hs hm ys
      have hall : sameFields gs ys = sameFields hs ys := by
        rw [sameFields_eq_all, sameFields_eq_all, hp.symm.all_eq]
      simp only [same, hall, hfields, ← hp.length_eq, hlen]
    | _ => simp [same, num?]
  | .null, a', h, _ | .bool _, a', h, _ | .int _, a', h, _ | .float _, a', h, _
  | .str _, a', h, _ | .unpaired _, a', h, _ => by
    rw [Reordered.of_atom h (by simp) rfl]
/-- `sameItems` with its first list's items reordered one by one. -/
theorem sameItems_reordered : ∀ (xs xs' : List Value), ItemsReordered xs xs' → ∀ ys,
    sameItems xs' ys = sameItems xs ys
  | [], [], _, _ => rfl
  | x :: xs, x' :: xs', ⟨hx, hxs⟩, ys => by
    cases ys with
    | nil => rfl
    | cons y ys =>
      simp only [sameItems, same_reordered x x' hx y, sameItems_reordered xs xs' hxs ys,
        Reordered.isNaN_eq hx]
  | [], _ :: _, h, _ | _ :: _, [], h, _ => by simp [ItemsReordered] at h
/-- Members with values reordered one by one: as many, and matching the same way. -/
theorem members_reordered : ∀ (fs hs : List (String × Value)), MembersReordered fs hs → ∀ ys,
    hs.length = fs.length ∧ sameFields hs ys = sameFields fs ys
  | [], [], _, _ => ⟨rfl, rfl⟩
  | (k, v) :: fs, (k', v') :: hs, ⟨hk, hv, hrest⟩, ys => by
    subst hk
    obtain ⟨hlen, hfields⟩ := members_reordered fs hs hrest ys
    refine ⟨by simp [hlen], ?_⟩
    cases hl : ys.lookup k <;>
      simp [sameFields, hl, hfields, same_reordered v v' hv, Reordered.isNaN_eq hv]
  | [], _ :: _, h, _ | _ :: _, [], h, _ => by simp [MembersReordered] at h
end

mutual
/-- Reordering keeps each object's keys distinct. -/
theorem Reordered.keysDistinct : ∀ (a a' : Value), Reordered a a' → KeysDistinct a →
    KeysDistinct a'
  | .arr xs, a', h, hk => by
    obtain ⟨xs', rfl, h⟩ := Reordered.arr_inv h
    exact ItemsReordered.keysDistinct xs xs' h hk
  | .obj fs, a', h, ⟨hk, hmk⟩ => by
    obtain ⟨gs, hs, rfl, hm, hp⟩ := Reordered.obj_inv h
    obtain ⟨hkeys, hmk'⟩ := MembersReordered.keysDistinct fs hs hm hmk
    refine ⟨(hp.map Prod.fst).nodup_iff.1 (hkeys ▸ hk), (membersKeysDistinct_iff gs).2 ?_⟩
    exact fun q hq => (membersKeysDistinct_iff hs).1 hmk' q (hp.mem_iff.2 hq)
  | .null, a', h, hk | .bool _, a', h, hk | .int _, a', h, hk | .float _, a', h, hk
  | .str _, a', h, hk | .unpaired _, a', h, hk => by
    rwa [Reordered.of_atom h (by simp) rfl]
theorem ItemsReordered.keysDistinct : ∀ (xs xs' : List Value), ItemsReordered xs xs' →
    ItemsKeysDistinct xs → ItemsKeysDistinct xs'
  | [], [], _, _ => trivial
  | x :: xs, x' :: xs', ⟨hx, hxs⟩, ⟨hk, hks⟩ =>
    ⟨Reordered.keysDistinct x x' hx hk, ItemsReordered.keysDistinct xs xs' hxs hks⟩
  | [], _ :: _, h, _ | _ :: _, [], h, _ => by simp [ItemsReordered] at h
/-- Members reordered one by one keep their keys, and their values' keys distinct. -/
theorem MembersReordered.keysDistinct : ∀ (fs hs : List (String × Value)),
    MembersReordered fs hs → MembersKeysDistinct fs →
      hs.map Prod.fst = fs.map Prod.fst ∧ MembersKeysDistinct hs
  | [], [], _, _ => ⟨rfl, trivial⟩
  | (k, v) :: fs, (k', v') :: hs, ⟨hk, hv, hrest⟩, ⟨hvk, hrk⟩ => by
    obtain ⟨hkeys, hrk'⟩ := MembersReordered.keysDistinct fs hs hrest hrk
    exact ⟨by simp [hk, hkeys], Reordered.keysDistinct v v' hv hvk, hrk'⟩
  | [], _ :: _, h, _ | _ :: _, [], h, _ => by simp [MembersReordered] at h
end

mutual
/-- Every value is a reordering of itself. -/
theorem Reordered.refl : ∀ v : Value, Reordered v v
  | .arr xs => ItemsReordered.refl xs
  | .obj fs => ⟨fs, MembersReordered.refl fs, List.Perm.refl fs⟩
  | .null | .bool _ | .int _ | .float _ | .str _ | .unpaired _ => rfl
theorem ItemsReordered.refl : ∀ xs : List Value, ItemsReordered xs xs
  | [] => trivial
  | v :: rest => ⟨Reordered.refl v, ItemsReordered.refl rest⟩
theorem MembersReordered.refl : ∀ fs : List (String × Value), MembersReordered fs fs
  | [] => trivial
  | (_, v) :: rest => ⟨rfl, Reordered.refl v, MembersReordered.refl rest⟩
end

end Json.Value

/-! ## Values without `null` members -/

namespace Audit

open Json Json.Value

theorem dropNulls_eq_null_iff {v : Value} : dropNulls v = .null ↔ v = .null := by
  cases v <;> simp [dropNulls]

/-- Members without `null` members: the `null` ones dropped, the others cleared in place. -/
theorem dropNullFields_eq (fs : List (String × Value)) :
    dropNullFields fs = (fs.filter fun p => !p.2.isNull).map fun p => (p.1, dropNulls p.2) := by
  induction fs with
  | nil => rfl
  | cons p rest ih =>
    obtain ⟨k, v⟩ := p
    cases v <;> simp [dropNullFields, ih, isNull]

theorem dropNullFields_cons (k : String) (v : Value) (rest : List (String × Value)) :
    dropNullFields ((k, v) :: rest) =
      if v.isNull then dropNullFields rest else (k, dropNulls v) :: dropNullFields rest := by
  cases v <;> rfl

/-- The keys of the members kept are some of the keys, in their order. -/
theorem dropNullFields_keys_sublist (fs : List (String × Value)) :
    List.Sublist ((dropNullFields fs).map Prod.fst) (fs.map Prod.fst) := by
  rw [dropNullFields_eq, List.map_map]
  exact (List.filter_sublist).map Prod.fst

mutual
/-- `dropNulls` leaves no `null` member, at any depth. -/
theorem dropNulls_nullFree : ∀ v : Value, NullFree (dropNulls v)
  | .arr xs => dropNullItems_nullFree xs
  | .obj fs => dropNullFields_nullFree fs
  | .null | .bool _ | .int _ | .float _ | .str _ | .unpaired _ => trivial
theorem dropNullItems_nullFree : ∀ xs : List Value, ItemsNullFree (dropNullItems xs)
  | [] => trivial
  | v :: rest => ⟨dropNulls_nullFree v, dropNullItems_nullFree rest⟩
theorem dropNullFields_nullFree :
    ∀ fs : List (String × Value), MembersNullFree (dropNullFields fs)
  | [] => trivial
  | (k, v) :: rest => by
    have hv := dropNulls_nullFree v
    have hrest := dropNullFields_nullFree rest
    rw [dropNullFields_cons]
    split
    · exact hrest
    · next hnull =>
      refine ⟨fun h => ?_, hv, hrest⟩
      rw [dropNulls_eq_null_iff] at h
      simp [h, isNull] at hnull
end

mutual
/-- `dropNulls` keeps a value with no `null` member as it is. -/
theorem dropNulls_of_nullFree : ∀ v : Value, NullFree v → dropNulls v = v
  | .arr xs, h => by rw [dropNulls, dropNullItems_of_nullFree xs h]
  | .obj fs, h => by rw [dropNulls, dropNullFields_of_nullFree fs h]
  | .null, _ | .bool _, _ | .int _, _ | .float _, _ | .str _, _ | .unpaired _, _ => rfl
theorem dropNullItems_of_nullFree :
    ∀ xs : List Value, ItemsNullFree xs → dropNullItems xs = xs
  | [], _ => rfl
  | v :: rest, ⟨hv, hrest⟩ => by
    rw [dropNullItems, dropNulls_of_nullFree v hv, dropNullItems_of_nullFree rest hrest]
theorem dropNullFields_of_nullFree : ∀ fs : List (String × Value), MembersNullFree fs →
    dropNullFields fs = fs
  | [], _ => rfl
  | (k, v) :: rest, ⟨hnull, hv, hrest⟩ => by
    have hkeep : v.isNull = false := by cases v <;> simp_all [isNull]
    rw [dropNullFields_cons, hkeep, if_neg (by simp), dropNulls_of_nullFree v hv,
      dropNullFields_of_nullFree rest hrest]
end

mutual
/-- Dropping members keeps each object's keys distinct. -/
theorem dropNulls_keysDistinct : ∀ v : Value, KeysDistinct v → KeysDistinct (dropNulls v)
  | .arr xs, h => dropNullItems_keysDistinct xs h
  | .obj fs, ⟨hk, hm⟩ =>
    ⟨hk.sublist (dropNullFields_keys_sublist fs), dropNullFields_keysDistinct fs hm⟩
  | .null, _ | .bool _, _ | .int _, _ | .float _, _ | .str _, _ | .unpaired _, _ => trivial
theorem dropNullItems_keysDistinct : ∀ xs : List Value, ItemsKeysDistinct xs →
    ItemsKeysDistinct (dropNullItems xs)
  | [], _ => trivial
  | v :: rest, ⟨hv, hrest⟩ =>
    ⟨dropNulls_keysDistinct v hv, dropNullItems_keysDistinct rest hrest⟩
theorem dropNullFields_keysDistinct : ∀ fs : List (String × Value), MembersKeysDistinct fs →
    MembersKeysDistinct (dropNullFields fs)
  | [], _ => trivial
  | (k, v) :: rest, ⟨hv, hrest⟩ => by
    have hrest' := dropNullFields_keysDistinct rest hrest
    rw [dropNullFields_cons]
    split
    · exact hrest'
    · exact ⟨dropNulls_keysDistinct v hv, hrest'⟩
end

theorem Reordered.isNull_eq {a a' : Value} (h : Reordered a a') : a'.isNull = a.isNull := by
  cases a <;> cases a' <;> simp_all [Reordered, isNull]

mutual
/-- `dropNulls` of reordered values are reordered. -/
theorem dropNulls_reordered : ∀ (a a' : Value), Reordered a a' →
    Reordered (dropNulls a) (dropNulls a')
  | .arr xs, a', h => by
    obtain ⟨xs', rfl, h⟩ := Reordered.arr_inv h
    exact dropNullItems_reordered xs xs' h
  | .obj fs, a', h => by
    obtain ⟨gs, hs, rfl, hm, hp⟩ := Reordered.obj_inv h
    refine ⟨dropNullFields hs, dropNullFields_reordered fs hs hm, ?_⟩
    rw [dropNullFields_eq, dropNullFields_eq]
    exact (hp.filter _).map _
  | .null, a', h | .bool _, a', h | .int _, a', h | .float _, a', h
  | .str _, a', h | .unpaired _, a', h => by
    rw [Reordered.of_atom h (by simp) rfl]
    rfl
theorem dropNullItems_reordered : ∀ (xs xs' : List Value), ItemsReordered xs xs' →
    ItemsReordered (dropNullItems xs) (dropNullItems xs')
  | [], [], _ => trivial
  | x :: xs, x' :: xs', ⟨hx, hxs⟩ =>
    ⟨dropNulls_reordered x x' hx, dropNullItems_reordered xs xs' hxs⟩
  | [], _ :: _, h | _ :: _, [], h => by simp [ItemsReordered] at h
theorem dropNullFields_reordered : ∀ (fs hs : List (String × Value)), MembersReordered fs hs →
    MembersReordered (dropNullFields fs) (dropNullFields hs)
  | [], [], _ => trivial
  | (k, v) :: fs, (k', v') :: hs, ⟨hk, hv, hrest⟩ => by
    have hrest' := dropNullFields_reordered fs hs hrest
    rw [dropNullFields_cons, dropNullFields_cons, Reordered.isNull_eq hv]
    split
    · exact hrest'
    · exact ⟨hk, dropNulls_reordered v v' hv, hrest'⟩
  | [], _ :: _, h | _ :: _, [], h => by simp [MembersReordered] at h
end

/-! ## Values that can be written -/

theorem writableItems_eq_all (xs : List Value) : writableItems xs = xs.all writable := by
  induction xs with
  | nil => rfl
  | cons v rest ih => simp [writableItems, ih]

theorem writableFields_eq_all (fs : List (String × Value)) :
    writableFields fs = fs.all fun p => writable p.2 := by
  induction fs with
  | nil => rfl
  | cons p rest ih => simp [writableFields, ih]

mutual
/-- A dropped member is `null`, which holds no integer: dropping keeps what can be written. -/
theorem writable_dropNulls : ∀ v : Value, writable (dropNulls v) = writable v
  | .arr xs => by rw [dropNulls, writable, writable, writableItems_dropNullItems xs]
  | .obj fs => by rw [dropNulls, writable, writable, writableFields_dropNullFields fs]
  | .null | .bool _ | .int _ | .float _ | .str _ | .unpaired _ => rfl
theorem writableItems_dropNullItems :
    ∀ xs : List Value, writableItems (dropNullItems xs) = writableItems xs
  | [] => rfl
  | v :: rest => by
    rw [dropNullItems, writableItems, writableItems, writable_dropNulls v,
      writableItems_dropNullItems rest]
theorem writableFields_dropNullFields :
    ∀ fs : List (String × Value), writableFields (dropNullFields fs) = writableFields fs
  | [] => rfl
  | (k, v) :: rest => by
    rw [dropNullFields_cons]
    split
    · next hnull =>
      have hv : v = .null := by cases v <;> simp_all [isNull]
      subst hv
      rw [writableFields_dropNullFields rest, writableFields]
      rfl
    · rw [writableFields, writableFields, writable_dropNulls v,
        writableFields_dropNullFields rest]
end

mutual
/-- Reordering keeps every integer, so what can be written. -/
theorem Reordered.writable_eq : ∀ (a a' : Value), Reordered a a' → writable a' = writable a
  | .arr xs, a', h => by
    obtain ⟨xs', rfl, h⟩ := Reordered.arr_inv h
    rw [writable, writable]
    exact ItemsReordered.writable_eq xs xs' h
  | .obj fs, a', h => by
    obtain ⟨gs, hs, rfl, hm, hp⟩ := Reordered.obj_inv h
    rw [writable, writable, ← MembersReordered.writable_eq fs hs hm, writableFields_eq_all,
      writableFields_eq_all]
    exact hp.symm.all_eq
  | .null, a', h | .bool _, a', h | .int _, a', h | .float _, a', h
  | .str _, a', h | .unpaired _, a', h => by
    rw [Reordered.of_atom h (by simp) rfl]
theorem ItemsReordered.writable_eq : ∀ (xs xs' : List Value), ItemsReordered xs xs' →
    writableItems xs' = writableItems xs
  | [], [], _ => rfl
  | x :: xs, x' :: xs', ⟨hx, hxs⟩ => by
    rw [writableItems, writableItems, Reordered.writable_eq x x' hx,
      ItemsReordered.writable_eq xs xs' hxs]
  | [], _ :: _, h | _ :: _, [], h => by simp [ItemsReordered] at h
theorem MembersReordered.writable_eq : ∀ (fs hs : List (String × Value)),
    MembersReordered fs hs → writableFields hs = writableFields fs
  | [], [], _ => rfl
  | (k, v) :: fs, (k', v') :: hs, ⟨_, hv, hrest⟩ => by
    rw [writableFields, writableFields, Reordered.writable_eq v v' hv,
      MembersReordered.writable_eq fs hs hrest]
  | [], _ :: _, h | _ :: _, [], h => by simp [MembersReordered] at h
end

/-! ## Canonical forms -/

/-- The fault of a value holding an integer too long to be written. -/
abbrev longInteger : Failure := .fault (.oversizedInteger longIntegerText)

theorem canonical_of_writable {v : Value} (h : writable v = true) :
    canonical v = .ok (dropNulls v) := by
  simp [canonical, h, pure, Except.pure]

theorem canonical_of_long {v : Value} (h : writable v = false) :
    canonical v = .error longInteger := by
  simp [canonical, h, throw, throwThe, MonadExceptOf.throw]

/-- The trail's test, by cases: the canonical forms compared by `same` when both values can be
written, and the fault of the long integer otherwise. -/
theorem valuesDiffer_eq (a b : Value) : valuesDiffer a b =
    if writable a && writable b then .ok (!(dropNulls a).same (dropNulls b)) else
      .error longInteger := by
  unfold valuesDiffer
  cases hwa : writable a
  · rw [canonical_of_long hwa]
    rfl
  · cases hwb : writable b
    · rw [canonical_of_writable hwa, canonical_of_long hwb]
      rfl
    · rw [canonical_of_writable hwa, canonical_of_writable hwb]
      rfl

/-- A value that cannot be written fails the test, on either side. -/
theorem valuesDiffer_of_long {a b : Value} (h : writable a = false ∨ writable b = false) :
    valuesDiffer a b = .error longInteger := by
  rw [valuesDiffer_eq]
  rcases h with h | h <;> simp [h]

end Audit

end RepairShop
