import Mathlib
import RepairShop.Request.Order

/- Where the field readers put their refusals.

   A refusal of a request names the location of the offending field: the key of a member of
   the body, followed by the members and items read below it (`pickup.lat`,
   `initial_problems[2].parts[0].id`). `Within key loc` states that `loc` is such a location
   below `key`, and `RefusesWithin key x` that every refusal of `x` is located within `key`
   (faults, which name no field, are not refusals).

   `RefusesWithin` is closed under the ways the readers are built (`ok`, `refused`, `bind`,
   `map`, `ite`, `mapM`, and `mono` for a location nested in another), so each reader's
   lemma follows its code: the lemmas `intField_within` to `rentalField_within` state that
   every reader of the request fields refuses only within the location it is given. -/

namespace RepairShop.Request

open Json

/-! ## Locations below a field -/

/-- The locations at or below the field `key`: the field itself, and below any of them one of
its members (`.lat`) or one of its items (`[2]`). -/
inductive Within (key : String) : String → Prop
  | field : Within key key
  | member {loc : String} (name : String) : Within key loc → Within key (loc ++ "." ++ name)
  | item {loc : String} (i : Nat) : Within key loc → Within key (loc ++ "[" ++ toString i ++ "]")

theorem Within.trans {key loc loc' : String} (h : Within key loc) (h' : Within loc loc') :
    Within key loc' := by
  induction h' with
  | field => exact h
  | member name _ ih => exact ih.member name
  | item i _ ih => exact ih.item i

/-- A member named by one text, as the readers write them (`s!"{loc}.lat"`). -/
theorem Within.dot {key loc : String} (h : Within key loc) (name : String) :
    Within key (loc ++ ("." ++ name)) := by
  rw [← String.append_assoc]
  exact h.member name

/-- A refusal whose location is at or below the field `key`. -/
def LocatedIn (key : String) (d : DomainError) : Prop :=
  ∃ loc, d.location = .str loc ∧ Within key loc

/-- Every refusal of `x` is located at or below the field `key`; faults name no field. -/
def RefusesWithin {α : Type} (key : String) (x : Result α) : Prop :=
  ∀ d, x = .error (.domain d) → LocatedIn key d

/-! ## How refusals combine -/

namespace RefusesWithin

variable {α β : Type} {key : String}

theorem ok (a : α) : RefusesWithin key (.ok a) := fun _ h => by cases h

theorem fault (f : Fault) : RefusesWithin key (.error (.fault f) : Result α) :=
  fun _ h => by cases h

/-- A refusal that names a location within `key`. -/
theorem refused {loc : String} (h : Within key loc) (message : String)
    (details : List (String × Value)) :
    RefusesWithin key (.error (badRequest message (some loc) details) : Result α) :=
  fun _ hd => by cases hd; exact ⟨loc, rfl, h⟩

theorem bind {x : Result α} {f : α → Result β} (hx : RefusesWithin key x)
    (hf : ∀ a, RefusesWithin key (f a)) : RefusesWithin key (x >>= f) := by
  cases x with
  | error e => exact fun d h => hx d (by cases h; rfl)
  | ok a => exact hf a

theorem map {x : Result α} (f : α → β) (hx : RefusesWithin key x) :
    RefusesWithin key (f <$> x) := by
  cases x with
  | error e => exact fun d h => hx d (by cases h; rfl)
  | ok a => exact ok _

theorem ite {c : Prop} [Decidable c] {x y : Result α} (hx : RefusesWithin key x)
    (hy : RefusesWithin key y) : RefusesWithin key (if c then x else y) := by
  split
  · exact hx
  · exact hy

theorem mono {loc : String} {x : Result α} (h : Within key loc) (hx : RefusesWithin loc x) :
    RefusesWithin key x := fun d hd =>
  let ⟨l, hl, hw⟩ := hx d hd
  ⟨l, hl, h.trans hw⟩

theorem mapM {xs : List α} {f : α → Result β} (h : ∀ a ∈ xs, RefusesWithin key (f a)) :
    RefusesWithin key (xs.mapM f) := by
  induction xs with
  | nil => exact ok []
  | cons a xs ih =>
    rw [List.mapM_cons]
    exact (h a (by simp)).bind fun b =>
      (ih fun a' ha' => h a' (by simp [ha'])).bind fun bs => ok _

end RefusesWithin

open RefusesWithin

/-! ## The readers -/

/-- Reading an integer never refuses (an infinite double is a fault), so its refusals lie
within any field. -/
theorem intOf?_within (v : Value) (key : String) : RefusesWithin key (intOf? v) := by
  unfold intOf?
  split
  · exact ok _
  · split
    · exact fault _
    · exact ok _
    · exact ok _
  · exact ok _
  · exact ok _

theorem intField_within (v : Value) (loc : String) (m : Int) :
    RefusesWithin loc (intField v loc m) := by
  unfold intField
  refine (intOf?_within v loc).bind fun r => ?_
  split
  · exact refused .field _ _
  · split
    · exact refused .field _ _
    · exact ok _

theorem natField_within (v : Value) (loc : String) (m : Nat) :
    RefusesWithin loc (natField v loc m) :=
  (intField_within v loc m).map _

theorem idField_within (v : Value) (loc : String) : RefusesWithin loc (idField v loc) :=
  natField_within v loc 1

theorem numberField_within (v : Value) (loc : String) (m : Int) :
    RefusesWithin loc (numberField v loc m) := by
  unfold numberField
  split <;> dsimp only
  · refine .ite ((refused .field _ _).bind fun _ => ?_) ?_ <;> split
    -- converting the integer to a double gives it or faults
    all_goals first | exact ok _ | exact fault _
  · exact .ite ((refused .field _ _).bind fun _ => ok _) (ok _)
  · exact refused .field _ _

theorem textField_within (v : Value) (loc : String) (maxLen : Nat) (allowEmpty : Bool) :
    RefusesWithin loc (textField v loc maxLen allowEmpty) := by
  unfold textField
  split <;> dsimp only
  · exact .ite (refused .field _ _) (.ite (refused .field _ _) (ok _))
  · exact .ite (refused .field _ _) (.ite (refused .field _ _) (ok _))
  · exact refused .field _ _

theorem objectField_within (v : Value) (loc : String) : RefusesWithin loc (objectField v loc) := by
  unfold objectField
  split
  · exact ok _
  · exact refused .field _ _

theorem listField_within (v : Value) (loc : String) : RefusesWithin loc (listField v loc) := by
  unfold listField
  split
  · exact ok _
  · exact refused .field _ _

theorem choice_within (v : Value) (allowed : List Value) (field : String) :
    RefusesWithin field (choice v allowed field) := by
  unfold choice choiceAt
  dsimp only
  split
  · exact ok _
  · intro d h
    cases h
    exact ⟨field, rfl, .field⟩

theorem priorityField_within (v : Value) : RefusesWithin "priority" (priorityField v) := by
  unfold priorityField
  refine (choice_within _ _ _).bind fun w => ?_
  split
  · split
    · exact ok _
    · exact refused .field _ _
  · exact refused .field _ _

theorem imeiField_within (v : Value) : RefusesWithin "imei" (imeiField v) :=
  .ite (ok _) ((textField_within v "imei" 50 false).map _)

theorem adminIdsField_within (v : Value) (loc : String) :
    RefusesWithin loc (adminIdsField v loc) := by
  unfold adminIdsField
  refine (listField_within v loc).bind fun items => ?_
  refine (RefusesWithin.mapM fun item _ => idField_within item loc).bind fun ids => ?_
  dsimp only
  exact .ite ((refused .field _ _).bind fun _ => ok _) (ok _)

/-- A list fragment refuses within its field when each item's reader refuses within the
item's location. -/
theorem itemsField_within {α : Type} {read : Value → String → Result α}
    (hread : ∀ item at_, RefusesWithin at_ (read item at_)) (v : Value) (loc : String) :
    RefusesWithin loc (itemsField read v loc) := by
  unfold itemsField
  refine (listField_within v loc).bind fun items => RefusesWithin.mapM fun p _ => ?_
  exact (hread p.2 _).mono (.item p.1 .field)

theorem partLine_within (item : Value) (at_ : String) : RefusesWithin at_ (partLine item at_) := by
  unfold partLine
  refine (objectField_within item at_).bind fun fields => ?_
  refine ((idField_within _ _).mono (.dot .field "id")).bind fun _ => ?_
  refine ((numberField_within _ _ _).mono (.dot .field "part_price")).bind fun _ => ?_
  refine ((idField_within _ _).mono (.dot .field "quantity")).bind fun _ => ok _

theorem partsField_within (v : Value) (loc : String) : RefusesWithin loc (partsField v loc) :=
  itemsField_within partLine_within v loc

theorem problemLine_within (item : Value) (at_ : String) :
    RefusesWithin at_ (problemLine item at_) := by
  unfold problemLine
  refine (objectField_within item at_).bind fun fields => ?_
  refine ((idField_within _ _).mono (.dot .field "problem_category_id")).bind fun _ => ?_
  refine ((numberField_within _ _ _).mono (.dot .field "price")).bind fun _ => ?_
  refine ((natField_within _ _ _).mono (.dot .field "estimated_minutes")).bind fun _ => ?_
  exact ((partsField_within _ _).mono (.dot .field "parts")).bind fun _ => ok _

theorem problemsField_within (v : Value) (loc : String) :
    RefusesWithin loc (problemsField v loc) :=
  itemsField_within problemLine_within v loc

theorem commentLine_within (item : Value) (at_ : String) :
    RefusesWithin at_ (commentLine item at_) := by
  unfold commentLine
  exact (objectField_within item at_).bind fun fields =>
    (textField_within _ _ _ _).mono (.dot .field "text")

theorem commentsField_within (v : Value) (loc : String) :
    RefusesWithin loc (commentsField v loc) :=
  itemsField_within commentLine_within v loc

/-- A place refuses at its own location, or at one of its members: `lat` and `long` for
their type and their range, then `description` and `courier_id`. -/
theorem placeField_within (v : Value) (loc : String) : RefusesWithin loc (placeField v loc) := by
  unfold placeField
  refine .ite (ok _) ((objectField_within v loc).bind fun fields => ?_)
  refine ((numberField_within _ _ _).mono (.dot .field "lat")).bind fun lat => ?_
  refine ((numberField_within _ _ _).mono (.dot .field "long")).bind fun long => ?_
  dsimp only
  -- the range checks, each followed by the rest of the reading
  refine .ite ((refused (.dot .field "lat") _ _).bind fun _ => ?_) ?_ <;>
    refine .ite ((refused (.dot .field "long") _ _).bind fun _ => ?_) ?_ <;>
    refine ((textField_within _ _ _ _).mono (.dot .field "description")).bind fun _ => ?_ <;>
    exact .ite ((ok _).bind fun _ => ok _)
      ((((idField_within _ _).mono (.dot .field "courier_id")).map _).bind fun _ => ok _)

/-- A rental request refuses at its own location or at one of its members, which it reads
in the order `is_free`, `price`, `currency`, `notes`, `rental_phone_device_id`. -/
theorem rentalField_within (v : Value) (loc : String) : RefusesWithin loc (rentalField v loc) := by
  unfold rentalField
  refine .ite (ok _) ((objectField_within v loc).bind fun fields => ?_)
  extract_lets obj allowed afterFree
  -- each continuation reads the fields after one of them: price, currency, notes, device
  have hAfterFree : ∀ isFree, RefusesWithin loc (afterFree isFree) := by
    intro isFree
    dsimp -zeta only [afterFree]
    extract_lets afterPrice
    have hAfterPrice : ∀ price, RefusesWithin loc (afterPrice price) := by
      intro price
      dsimp -zeta only [afterPrice]
      extract_lets afterCurrency
      have hAfterCurrency : ∀ currency, RefusesWithin loc (afterCurrency currency) := by
        intro currency
        dsimp -zeta only [afterCurrency]
        extract_lets afterNotes
        have hAfterNotes : ∀ notes, RefusesWithin loc (afterNotes notes) := fun notes =>
          ((idField_within _ _).mono (.dot .field "rental_phone_device_id")).bind fun _ => ok _
        split
        · exact (ok _).bind hAfterNotes
        · exact (((textField_within _ _ _ _).mono (.dot .field "notes")).map _).bind hAfterNotes
      split
      · exact (ok _).bind hAfterCurrency
      · refine ((choice_within _ _ _).mono (.dot .field "currency")).bind fun _ => ?_
        split
        · exact (ok _).bind hAfterCurrency
        · exact (ok _).bind hAfterCurrency
    split
    · exact (ok _).bind hAfterPrice
    · exact (((numberField_within _ _ _).mono (.dot .field "price")).map _).bind hAfterPrice
  split
  · exact (ok _).bind hAfterFree
  · exact (ok _).bind hAfterFree
  · exact (refused (.dot .field "is_free") _ _).bind hAfterFree

end RepairShop.Request
