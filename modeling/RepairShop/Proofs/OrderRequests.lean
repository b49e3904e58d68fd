import Mathlib
import RepairShop.Proofs.FieldLocations

/- Order requests are read field by field.

   A request to change an order reads the members of its body in a fixed order, each with the
   reader of its fragment, and only the members that are sent; a request to create one first
   requires its customer and phone category, then reads its fields in its own order. Both are
   here the same scheme: a list of checks, one per field under the field's key
   (`changeChecks`, `creationChecks`), made in order, so that the request fails with the first
   check that fails (`firstFailing`), and otherwise holds what the readers read
   (`changeSent`, `creationSent`). `orderChange_eq` and `newOrder_eq` state that the readers
   are that scheme.

   From it: the checks of a body depend only on the members it sends, so the order of its keys
   does not matter (`orderChange_perm`); every failing check is located within its own field,
   by the location lemmas of the readers (`changeChecks_located`); and a list fragment fails
   with its first failing item (`itemsField_eq_error_iff`). The last theorem gathers what a
   caller sees. -/

namespace RepairShop.Request

open Json

/-! ## Checks made in order -/

/-- The failure of a computation, if it fails. -/
def failureOf {α : Type} : Result α → Option Failure
  | .error e => some e
  | .ok _ => none

/-- The first check that fails: the key of its field and its failure. -/
def firstFailing (checks : List (String × Option Failure)) : Option (String × Failure) :=
  checks.findSome? fun c => c.2.map (c.1, ·)

/-- Checks made in order, each under the key of the field it reads: the first failure, or
else `x`. -/
def failFirst {α : Type} (checks : List (String × Option Failure)) (x : Result α) : Result α :=
  match firstFailing checks with
  | some (_, e) => .error e
  | none => x

/-- A check whose refusals are located within its own field. -/
def CheckLocated (check : String × Option Failure) : Prop :=
  ∀ d, check.2 = some (.domain d) → LocatedIn check.1 d

theorem failureOf_eq_some {α : Type} {x : Result α} {e : Failure} :
    failureOf x = some e ↔ x = .error e := by
  cases x <;> simp [failureOf]

theorem eq_ok_of_failureOf {α : Type} [Inhabited α] {x : Result α} (h : failureOf x = none) :
    x = .ok (x.toOption.getD default) := by
  cases x with
  | error e => cases h
  | ok a => rfl

theorem firstFailing_eq_none {checks : List (String × Option Failure)} :
    firstFailing checks = none ↔ ∀ c ∈ checks, c.2 = none := by
  simp [firstFailing]

theorem failFirst_cons {α : Type} (key : String) (c : Option Failure)
    (checks : List (String × Option Failure)) (x : Result α) :
    failFirst ((key, c) :: checks) x = match c with
      | some e => .error e
      | none => failFirst checks x := by
  cases c <;> rfl

theorem failFirst_append {α : Type} (checks more : List (String × Option Failure))
    (x : Result α) : failFirst (checks ++ more) x = failFirst checks (failFirst more x) := by
  induction checks with
  | nil => rfl
  | cons c checks ih => rw [List.cons_append, failFirst_cons, failFirst_cons, ih]

theorem failFirst_bind {α β : Type} (checks : List (String × Option Failure)) (x : Result α)
    (f : α → Result β) : failFirst checks x >>= f = failFirst checks (x >>= f) := by
  unfold failFirst
  split <;> rfl

theorem failFirst_eq_error_iff {α : Type} {checks : List (String × Option Failure)} {x : α}
    {e : Failure} :
    failFirst checks (pure x) = .error e ↔ ∃ key, firstFailing checks = some (key, e) := by
  unfold failFirst
  split
  · next key e' h => simp [h, eq_comm]
  · next h => simp [h, pure, Except.pure]

theorem failFirst_eq_ok_iff {α : Type} {checks : List (String × Option Failure)} {x r : α} :
    failFirst checks (pure x) = .ok r ↔ firstFailing checks = none ∧ r = x := by
  unfold failFirst
  split
  · next key e h => simp [h]
  · next h => simp [h, pure, Except.pure, eq_comm]

/-- The first failing check of checks that are all located is located within its field. -/
theorem firstFailing_located {checks : List (String × Option Failure)}
    (h : ∀ c ∈ checks, CheckLocated c) {key : String} {d : DomainError}
    (hfirst : firstFailing checks = some (key, .domain d)) : LocatedIn key d := by
  obtain ⟨c, hc, hmap⟩ := List.exists_of_findSome?_eq_some hfirst
  obtain ⟨e, he, hce⟩ := Option.map_eq_some_iff.1 hmap
  cases hce
  exact h c hc d he

/-- A list read item by item fails with the first failure among its items. -/
theorem mapM_eq_error_iff {α β : Type} (f : α → Result β) (xs : List α) (e : Failure) :
    xs.mapM f = .error e ↔ xs.findSome? (fun x => failureOf (f x)) = some e := by
  induction xs with
  | nil => simp [pure, Except.pure]
  | cons x xs ih =>
    rw [List.mapM_cons, List.findSome?_cons]
    cases f x with
    | error e' => simp [failureOf, bind, Except.bind]
    | ok b =>
      show (xs.mapM f >>= fun bs => pure (b :: bs)) = .error e ↔
        xs.findSome? (fun x => failureOf (f x)) = some e
      rw [← ih]
      cases xs.mapM f <;> simp [bind, Except.bind, pure, Except.pure]

/-! ## The fields of an order request -/

/-- The failure of reading the member `key` with `read`, when it is sent and not read. -/
def fieldFailure {α : Type} (body : Value) (key : String) (read : Value → Result α) :
    Option Failure :=
  (body.get? key).bind fun v => failureOf (read v)

/-- The value `read` gives the member `key`: none when it is not sent. -/
def sentValue {α : Type} (body : Value) (key : String) (read : Value → Result α) : Option α :=
  (body.get? key).bind fun v => (read v).toOption

/-- The check of the member `key`, read by `read` when it is sent. -/
def sentCheck {α : Type} (body : Value) (key : String) (read : Value → Result α) :
    String × Option Failure :=
  (key, fieldFailure body key read)

/-- The checks of the fragments of a body, in the order they are read. -/
def fragmentChecks (body : Value) (withRental : Bool) : List (String × Option Failure) :=
  [sentCheck body "admin_ids" (adminIdsField · "admin_ids"),
   sentCheck body "initial_problems" (problemsField · "initial_problems"),
   sentCheck body "final_problems" (problemsField · "final_problems"),
   sentCheck body "comments" (commentsField · "comments"),
   sentCheck body "pickup" (placeField · "pickup"),
   sentCheck body "delivery" (placeField · "delivery")] ++
  if withRental then [sentCheck body "rental_phone" (rentalField · "rental_phone")] else []

/-- The fragments a body sends, each as its reader reads it. -/
def fragmentsSent (body : Value) (withRental : Bool) : Fragments where
  admins := sentValue body "admin_ids" (adminIdsField · "admin_ids")
  initialProblems := sentValue body "initial_problems" (problemsField · "initial_problems")
  finalProblems := sentValue body "final_problems" (problemsField · "final_problems")
  comments := sentValue body "comments" (commentsField · "comments")
  pickup := sentValue body "pickup" (placeField · "pickup")
  delivery := sentValue body "delivery" (placeField · "delivery")
  rental := if withRental then sentValue body "rental_phone" (rentalField · "rental_phone")
    else none

/-- The checks of a change request, in the order its fields are read. -/
def changeChecks (body : Value) : List (String × Option Failure) :=
  [sentCheck body "user_id" (idField · "user_id"),
   sentCheck body "status_id" (idField · "status_id"),
   sentCheck body "phone_category_id" (idField · "phone_category_id"),
   sentCheck body "priority" priorityField,
   sentCheck body "imei" imeiField] ++ fragmentChecks body true

/-- The change a body asks for: every field it sends, as its reader reads it. -/
def changeSent (body : Value) : OrderChange where
  userId := sentValue body "user_id" (idField · "user_id")
  statusId := sentValue body "status_id" (idField · "status_id")
  phoneCategoryId := sentValue body "phone_category_id" (idField · "phone_category_id")
  priority := sentValue body "priority" priorityField
  imei := sentValue body "imei" imeiField
  parts := fragmentsSent body true

/-- A required field: refused as missing when it is not sent or sent as `null`. -/
def requiredCheck (body : Value) (key : String) : String × Option Failure :=
  (key, if (body.field key).isNull then some (badRequest s!"{key} required" (some key)) else none)

/-- The checks of a creation request, in the order they are made: both required fields
first, then the fields read, an absent priority read as `Medium`. -/
def creationChecks (body : Value) : List (String × Option Failure) :=
  [requiredCheck body "user_id", requiredCheck body "phone_category_id",
   ("user_id", failureOf (idField (body.field "user_id") "user_id")),
   ("phone_category_id",
     failureOf (idField (body.field "phone_category_id") "phone_category_id")),
   ("priority", failureOf (priorityField ((body.get? "priority").getD (.str "Medium")))),
   ("imei", failureOf (imeiField (body.field "imei"))),
   ("status_id", if (body.field "status_id").isNull then none
     else failureOf (idField (body.field "status_id") "status_id"))] ++
  fragmentChecks body false

instance : Inhabited Priority := ⟨.medium⟩

/-- The order a body asks for when every check passes; `default` stands in for a value that
is then never used. -/
def creationSent (body : Value) : NewOrder where
  userId := (idField (body.field "user_id") "user_id").toOption.getD default
  phoneCategoryId :=
    (idField (body.field "phone_category_id") "phone_category_id").toOption.getD default
  priority :=
    (priorityField ((body.get? "priority").getD (.str "Medium"))).toOption.getD default
  imei := (imeiField (body.field "imei")).toOption.getD default
  statusId := if (body.field "status_id").isNull then none
    else (idField (body.field "status_id") "status_id").toOption
  parts := fragmentsSent body false

/-! ## Reading a body is making its checks -/

theorem failureOf_pure {α : Type} (a : α) : failureOf (pure a : Result α) = none := rfl

theorem toOption_pure {α : Type} (a : α) : (pure a : Result α).toOption = some a := rfl

theorem failureOf_map {α β : Type} (f : α → β) (x : Result α) :
    failureOf (f <$> x) = failureOf x := by
  cases x <;> rfl

theorem toOption_some_map {α : Type} (x : Result α) :
    (some <$> x).toOption.getD default = x.toOption := by
  cases x <;> rfl

/-- A read followed by more: its failure, or the rest on its value. -/
theorem bind_eq_failFirst {α β : Type} [Inhabited α] (x : Result α) (f : α → Result β) :
    x >>= f = match failureOf x with
      | some e => .error e
      | none => f (x.toOption.getD default) := by
  cases x <;> rfl

/-- A fragment followed by more: its failure when it is sent and not read, or the rest on
what is sent. -/
theorem fragment_bind {α β : Type} (body : Value) (key : String) (read : Value → Result α)
    (f : Option α → Result β) :
    fragment body key read >>= f = match fieldFailure body key read with
      | some e => .error e
      | none => f (sentValue body key read) := by
  unfold fragment fieldFailure sentValue
  cases body.get? key with
  | none => rfl
  | some v =>
    dsimp only [Option.bind]
    cases read v <;> rfl

theorem fragmentsOf_eq (body : Value) (withRental : Bool) :
    fragmentsOf body withRental =
      failFirst (fragmentChecks body withRental) (pure (fragmentsSent body withRental)) := by
  cases withRental <;>
    simp only [fragmentsOf, fragmentChecks, fragmentsSent, fragment_bind, sentCheck,
      failFirst_append, failFirst_cons, Bool.false_eq_true, if_false, if_true] <;> rfl

/-- An object body is read as it is sent. -/
theorem bodyObject_obj (fields : List (String × Value)) :
    bodyObject (.obj fields) = pure (.obj fields) := by
  unfold bodyObject
  cases fields <;> rfl

theorem bodyObject_empty {raw : Value} (h : raw.truthy = false) :
    bodyObject raw = pure (.obj []) := by
  simp [bodyObject, h]

theorem bodyObject_refused {raw : Value} (h : raw.truthy = true) (hobj : raw.isObj = false) :
    bodyObject raw = .error (badRequest "body must be an object" (some "body")) := by
  cases raw <;> simp_all [bodyObject, objectField, Value.isObj] <;> rfl

/-- A change request is the checks of its fields, in their order. -/
theorem orderChange_eq (fields : List (String × Value)) :
    orderChange (.obj fields) =
      failFirst (changeChecks (.obj fields)) (pure (changeSent (.obj fields))) := by
  simp only [orderChange, bodyObject_obj, pure_bind, fragmentsOf_eq, failFirst_bind,
    fragment_bind, changeChecks, sentCheck, failFirst_append, failFirst_cons]
  rfl

-- the key order of the body plays no part: `user_id` is checked before `imei`
example : orderChange (.obj [("imei", .int 5), ("user_id", .bool true)]) =
    .error (badRequest "user_id must be an integer" (some "user_id")) := by rfl

/-- A creation request is its checks, in their order. -/
theorem newOrder_eq (fields : List (String × Value)) :
    newOrder (.obj fields) =
      failFirst (creationChecks (.obj fields)) (pure (creationSent (.obj fields))) := by
  simp only [newOrder, bodyObject_obj, pure_bind, List.forIn_cons, List.forIn_nil,
    fragmentsOf_eq, failFirst_bind, creationChecks, requiredCheck, failFirst_append,
    failFirst_cons]
  generalize Value.obj fields = body
  -- the two presence checks come first, then the reads in order
  by_cases hu : (body.field "user_id").isNull
  · simp only [hu, if_true]; rfl
  by_cases hp : (body.field "phone_category_id").isNull
  · simp only [hu, hp, if_true, Bool.false_eq_true, if_false, pure_bind]; rfl
  by_cases hs : (body.field "status_id").isNull <;>
    simp only [hu, hp, hs, Bool.false_eq_true, if_false, if_true, failureOf_map,
      toOption_some_map, bind_eq_failFirst, failureOf_pure, toOption_pure, Option.getD_some,
      creationSent] <;> rfl

/-! ## Where the checks fail -/

theorem failureOf_located {α : Type} {key : String} {x : Result α} (h : RefusesWithin key x) :
    CheckLocated (key, failureOf x) :=
  fun d hd => h d (failureOf_eq_some.1 hd)

theorem sentCheck_located {α : Type} (body : Value) {key : String} {read : Value → Result α}
    (h : ∀ v, RefusesWithin key (read v)) : CheckLocated (sentCheck body key read) := by
  intro d hd
  obtain ⟨v, -, hv⟩ := Option.bind_eq_some_iff.1 hd
  exact h v d (failureOf_eq_some.1 hv)

theorem requiredCheck_located (body : Value) (key : String) :
    CheckLocated (requiredCheck body key) := by
  intro d hd
  simp only [requiredCheck] at hd
  split at hd
  · cases hd
    exact ⟨key, rfl, .field⟩
  · cases hd

theorem fragmentChecks_located (body : Value) (withRental : Bool) :
    ∀ c ∈ fragmentChecks body withRental, CheckLocated c := by
  simp only [fragmentChecks, List.forall_mem_append, List.forall_mem_cons, List.not_mem_nil,
    IsEmpty.forall_iff, implies_true, and_true]
  refine ⟨⟨sentCheck_located body (adminIdsField_within · _),
    sentCheck_located body (problemsField_within · _),
    sentCheck_located body (problemsField_within · _),
    sentCheck_located body (commentsField_within · _),
    sentCheck_located body (placeField_within · _),
    sentCheck_located body (placeField_within · _)⟩, ?_⟩
  cases withRental
  · simp
  · simpa using sentCheck_located body (rentalField_within · _)

/-- Every check of a change request refuses within its own field. -/
theorem changeChecks_located (body : Value) : ∀ c ∈ changeChecks body, CheckLocated c := by
  simp only [changeChecks, List.forall_mem_append, List.forall_mem_cons, List.not_mem_nil,
    IsEmpty.forall_iff, implies_true, and_true]
  exact ⟨⟨sentCheck_located body (idField_within · _),
    sentCheck_located body (idField_within · _), sentCheck_located body (idField_within · _),
    sentCheck_located body priorityField_within, sentCheck_located body imeiField_within⟩,
    fragmentChecks_located body true⟩

/-- Every check of a creation request refuses within its own field. -/
theorem creationChecks_located (body : Value) : ∀ c ∈ creationChecks body, CheckLocated c := by
  simp only [creationChecks, List.forall_mem_append, List.forall_mem_cons, List.not_mem_nil,
    IsEmpty.forall_iff, implies_true, and_true]
  refine ⟨⟨requiredCheck_located body _, requiredCheck_located body _,
    failureOf_located (idField_within _ _), failureOf_located (idField_within _ _),
    failureOf_located (priorityField_within _), failureOf_located (imeiField_within _), ?_⟩,
    fragmentChecks_located body false⟩
  split
  · intro d hd
    cases hd
  · exact failureOf_located (idField_within _ _)

/-- A list fragment fails with its first failing item, read at the item's location. -/
theorem itemsField_eq_error_iff {α : Type} (read : Value → String → Result α)
    (items : List Value) (loc : String) (e : Failure) :
    itemsField read (.arr items) loc = .error e ↔
      (indexed items).findSome? (fun p => failureOf (read p.2 s!"{loc}[{p.1}]")) = some e :=
  mapM_eq_error_iff _ (indexed items) e

/-! ## The order of the keys -/

theorem fragmentChecks_congr {a b : Value} (h : ∀ k, a.get? k = b.get? k) (withRental : Bool) :
    fragmentChecks a withRental = fragmentChecks b withRental := by
  simp only [fragmentChecks, sentCheck, fieldFailure, h]

theorem fragmentsSent_congr {a b : Value} (h : ∀ k, a.get? k = b.get? k) (withRental : Bool) :
    fragmentsSent a withRental = fragmentsSent b withRental := by
  simp only [fragmentsSent, sentValue, h]

/-- Two bodies that send the same members are read alike as changes. -/
theorem orderChange_congr {fields fields' : List (String × Value)}
    (h : ∀ k, fields.lookup k = fields'.lookup k) :
    orderChange (.obj fields) = orderChange (.obj fields') := by
  have hget : ∀ k, (Value.obj fields).get? k = (Value.obj fields').get? k := h
  simp only [orderChange_eq, changeChecks, changeSent, sentCheck, fieldFailure, sentValue, hget,
    fragmentChecks_congr hget, fragmentsSent_congr hget]

/-- Two bodies that send the same members are read alike as creations. -/
theorem newOrder_congr {fields fields' : List (String × Value)}
    (h : ∀ k, fields.lookup k = fields'.lookup k) :
    newOrder (.obj fields) = newOrder (.obj fields') := by
  have hget : ∀ k, (Value.obj fields).get? k = (Value.obj fields').get? k := h
  simp only [newOrder_eq, creationChecks, creationSent, requiredCheck, Value.field, hget,
    fragmentChecks_congr hget, fragmentsSent_congr hget]
  rfl

/-- Members with distinct keys are found alike in any order. -/
theorem lookup_eq_of_perm {fields fields' : List (String × Value)}
    (hkeys : (fields.map Prod.fst).Nodup) (hperm : fields.Perm fields') (k : String) :
    fields.lookup k = fields'.lookup k := by
  induction hperm with
  | nil => rfl
  | cons p _ ih =>
    obtain ⟨key, v⟩ := p
    rw [List.map_cons, List.nodup_cons] at hkeys
    simp only [List.lookup_cons, ih hkeys.2]
  | swap p q l =>
    obtain ⟨a, u⟩ := p
    obtain ⟨b, w⟩ := q
    simp only [List.map_cons, List.nodup_cons, List.mem_cons, not_or] at hkeys
    have hne : (b == a) = false := by simpa using hkeys.1.1
    simp only [List.lookup_cons]
    cases hb : k == b <;> cases ha : k == a
    -- the two swapped keys differ, so at most one of them is `k`
    case true.true =>
      simp only [beq_iff_eq] at ha hb
      simp [← ha, ← hb] at hne
    all_goals rfl
  | trans h₁ _ ih₁ ih₂ => rw [ih₁ hkeys, ih₂ ((h₁.map Prod.fst).nodup_iff.1 hkeys)]

theorem orderChange_perm {fields fields' : List (String × Value)}
    (hkeys : (fields.map Prod.fst).Nodup) (hperm : fields.Perm fields') :
    orderChange (.obj fields) = orderChange (.obj fields') :=
  orderChange_congr (lookup_eq_of_perm hkeys hperm)

theorem newOrder_perm {fields fields' : List (String × Value)}
    (hkeys : (fields.map Prod.fst).Nodup) (hperm : fields.Perm fields') :
    newOrder (.obj fields) = newOrder (.obj fields') :=
  newOrder_congr (lookup_eq_of_perm hkeys hperm)

/-! ## Whole requests -/

theorem orderChange_empty {raw : Value} (h : raw.truthy = false) :
    orderChange raw = orderChange (.obj []) := by
  simp only [orderChange, bodyObject_empty h, bodyObject_obj]

theorem newOrder_empty {raw : Value} (h : raw.truthy = false) :
    newOrder raw = newOrder (.obj []) := by
  simp only [newOrder, bodyObject_empty h, bodyObject_obj]

theorem orderChange_refused {raw : Value} (h : raw.truthy = true) (hobj : raw.isObj = false) :
    orderChange raw = .error (badRequest "body must be an object" (some "body")) := by
  simp only [orderChange, bodyObject_refused h hobj]
  rfl

theorem newOrder_refused {raw : Value} (h : raw.truthy = true) (hobj : raw.isObj = false) :
    newOrder raw = .error (badRequest "body must be an object" (some "body")) := by
  simp only [newOrder, bodyObject_refused h hobj]
  rfl

/-- What a creation that succeeds holds: each field as its reader reads it. -/
theorem newOrder_ok_reads {fields : List (String × Value)} {o : NewOrder}
    (h : newOrder (.obj fields) = .ok o) :
    idField ((Value.obj fields).field "user_id") "user_id" = .ok o.userId ∧
    idField ((Value.obj fields).field "phone_category_id") "phone_category_id" =
      .ok o.phoneCategoryId ∧
    priorityField (((Value.obj fields).get? "priority").getD (.str "Medium")) = .ok o.priority ∧
    imeiField ((Value.obj fields).field "imei") = .ok o.imei ∧
    o.statusId = (if ((Value.obj fields).field "status_id").isNull then none
      else (idField ((Value.obj fields).field "status_id") "status_id").toOption) ∧
    o.parts = fragmentsSent (.obj fields) false := by
  rw [newOrder_eq, failFirst_eq_ok_iff] at h
  obtain ⟨hnone, rfl⟩ := h
  -- every check passed, so every read gave a value
  have hpass := firstFailing_eq_none.1 hnone
  simp only [creationChecks, List.forall_mem_append, List.forall_mem_cons] at hpass
  obtain ⟨⟨-, -, huser, hcategory, hpriority, himei, -⟩, -⟩ := hpass
  exact ⟨eq_ok_of_failureOf huser, eq_ok_of_failureOf hcategory, eq_ok_of_failureOf hpriority,
    eq_ok_of_failureOf himei, rfl, rfl⟩

/-- **Order requests are read field by field.** An empty body (`null`, `false`, `0`, `""`,
`[]`, `{}`) is read as `{}`, and any other value that is not an object is refused. A change
request fails exactly with the first of its fields, in the order `user_id`, `status_id`,
`phone_category_id`, `priority`, `imei`, `admin_ids`, `initial_problems`, `final_problems`,
`comments`, `pickup`, `delivery`, `rental_phone`, that is sent and not read; otherwise it
holds every field sent, as its reader reads it, and no other. A creation request fails with
the first of its own checks (both required fields, then each field), and otherwise holds what
its readers read. Every refusal is located within the field that failed, and within a line of
a list at the line's location; a list fragment fails with its first failing item; and the
order of the keys of the body does not matter. -/
theorem orderRequests_read_fieldwise :
    (∀ raw : Value, raw.truthy = false →
      orderChange raw = orderChange (.obj []) ∧ newOrder raw = newOrder (.obj [])) ∧
    (∀ raw : Value, raw.truthy = true → raw.isObj = false →
      orderChange raw = .error (badRequest "body must be an object" (some "body")) ∧
      newOrder raw = .error (badRequest "body must be an object" (some "body"))) ∧
    (∀ fields e, orderChange (.obj fields) = .error e ↔
      ∃ key, firstFailing (changeChecks (.obj fields)) = some (key, e)) ∧
    (∀ fields r, orderChange (.obj fields) = .ok r ↔
      firstFailing (changeChecks (.obj fields)) = none ∧ r = changeSent (.obj fields)) ∧
    (∀ fields e, newOrder (.obj fields) = .error e ↔
      ∃ key, firstFailing (creationChecks (.obj fields)) = some (key, e)) ∧
    (∀ fields o, newOrder (.obj fields) = .ok o →
      idField ((Value.obj fields).field "user_id") "user_id" = .ok o.userId ∧
      idField ((Value.obj fields).field "phone_category_id") "phone_category_id" =
        .ok o.phoneCategoryId ∧
      priorityField (((Value.obj fields).get? "priority").getD (.str "Medium")) =
        .ok o.priority ∧
      imeiField ((Value.obj fields).field "imei") = .ok o.imei ∧
      o.statusId = (if ((Value.obj fields).field "status_id").isNull then none
        else (idField ((Value.obj fields).field "status_id") "status_id").toOption) ∧
      o.parts = fragmentsSent (.obj fields) false) ∧
    (∀ body key d, firstFailing (changeChecks body) = some (key, .domain d) ∨
      firstFailing (creationChecks body) = some (key, .domain d) → LocatedIn key d) ∧
    (∀ item at_, RefusesWithin at_ (partLine item at_) ∧
      RefusesWithin at_ (problemLine item at_) ∧ RefusesWithin at_ (commentLine item at_)) ∧
    (∀ (α : Type) (read : Value → String → Result α) (items : List Value) (loc : String) e,
      itemsField read (.arr items) loc = .error e ↔
        (indexed items).findSome? (fun p => failureOf (read p.2 s!"{loc}[{p.1}]")) = some e) ∧
    (∀ fields fields' : List (String × Value), (fields.map Prod.fst).Nodup →
      fields.Perm fields' →
      orderChange (.obj fields) = orderChange (.obj fields') ∧
      newOrder (.obj fields) = newOrder (.obj fields')) :=
  ⟨fun _ h => ⟨orderChange_empty h, newOrder_empty h⟩,
    fun _ h hobj => ⟨orderChange_refused h hobj, newOrder_refused h hobj⟩,
    fun fields _ => by rw [orderChange_eq, failFirst_eq_error_iff],
    fun fields _ => by rw [orderChange_eq, failFirst_eq_ok_iff],
    fun fields _ => by rw [newOrder_eq, failFirst_eq_error_iff],
    fun _ _ => newOrder_ok_reads,
    fun body _ _ h => h.elim (firstFailing_located (changeChecks_located body))
      (firstFailing_located (creationChecks_located body)),
    fun item at_ => ⟨partLine_within item at_, problemLine_within item at_,
      commentLine_within item at_⟩,
    fun _ => itemsField_eq_error_iff,
    fun _ _ hkeys hperm => ⟨orderChange_perm hkeys hperm, newOrder_perm hkeys hperm⟩⟩

/-- A change sent with its keys in the other order is read alike; an empty list is read as
`{}`, and a number that is not zero is no body. -/
theorem reordered_change_read_alike :
    orderChange (.obj [("user_id", .int 7), ("priority", .str "High")]) =
      orderChange (.obj [("priority", .str "High"), ("user_id", .int 7)]) ∧
    newOrder (.arr []) = newOrder (.obj []) ∧
    orderChange (.int 3) = .error (badRequest "body must be an object" (some "body")) :=
  ⟨(orderRequests_read_fieldwise.2.2.2.2.2.2.2.2.2 _ _ (by decide) (.swap _ _ _)).1,
    (orderRequests_read_fieldwise.1 (.arr []) rfl).2,
    (orderRequests_read_fieldwise.2.1 (.int 3) rfl rfl).1⟩

end RepairShop.Request
