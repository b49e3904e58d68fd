import RepairShop.Proofs.GuardedServices
import RepairShop.Proofs.ProblemLists
import RepairShop.Proofs.Generation

/- The checks a change of status passes.

   A status is live in a branch when the status row of its key belongs to the branch, is open
   and is active (`Status.Live`); a branch configures the move from one status to another when
   one of its transition rows leads from the one to the other (`Status.Configured`). Both read
   the rows as the program reads them. This file proves that

   1. the status check passes exactly on a live status, and otherwise refuses the status
      (`Orders.statusInBranch_run`);
   2. the move check passes exactly on a configured move, and otherwise refuses it with the
      transition refusal, which names `status_id` and carries both statuses
      (`Status.checkMove_run`);
   3. a change of status runs both checks on the database as it stands and only then writes
      the new status (`Orders.changeStatus_run`);
   4. the initial status of a branch is the first of its open, active statuses that do not end
      the workflow, by sort and then by key (`Orders.initialStatus_first`). -/

namespace RepairShop

open Std.Do Store Cache Json

set_option autoImplicit false

/-! ## Columns as the program reads them -/

namespace Store

/-- What the program reads from a column of a row, `null` where the read faults. -/
def TableId.field (t : TableId) (r : Row) (column : String) : Value :=
  match t.read r column with
  | .ok v => v
  | .error _ => .null

/-- A table without decimal columns reads every column of every row. -/
theorem TableId.read_eq_field {t : TableId} (ht : ∀ c ∈ t.schema.columns, c.kind ≠ .decimal)
    (r : Row) (column : String) : t.read r column = .ok (t.field r column) := by
  unfold TableId.field
  cases h : t.read r column with
  | ok v => rfl
  | error e =>
    -- only a decimal column holding a text that is no numeral faults
    simp only [TableId.read, Row.read] at h
    split at h
    · cases h
    · split at h
      · rename_i c hc
        have hk := ht c (List.mem_of_find?_eq_some hc)
        unfold readCell at h
        split at h
        all_goals first | cases h | exact absurd ‹c.kind = .decimal› hk
      · cases h

/-- The status table reads every column. -/
theorem TableId.statuses_read (r : Row) (column : String) :
    TableId.statuses.read r column = .ok (TableId.statuses.field r column) :=
  TableId.read_eq_field (by decide) r column

/-- The transition table reads every column. -/
theorem TableId.transitions_read (r : Row) (column : String) :
    TableId.transitions.read r column = .ok (TableId.transitions.field r column) :=
  TableId.read_eq_field (by decide) r column

/-- A key compared with an integer parameter, in any table whose schema does not list `id`. -/
theorem Row.is_key {t : TableId} (ht : t.schema.column? "id" = none) (r : Row) (x : Int) :
    r.is t "id" (.int x) = (r.id == x) := by
  have h : t.affinityOf "id" = .numeric := by simp [TableId.affinityOf, ht]
  simp [Row.is, Row.get, h, beq_eq_decide]

/-- A stored double, which the database orders among numbers by a comparison of doubles. -/
def Cell.IsReal : Cell → Bool
  | .real _ => true
  | _ => false

/-! Without doubles, the database's order of stored values is a linear order: by storage class,
then integers as integers and texts as texts. -/

theorem Cell.compare_swap {a b : Cell} (ha : a.IsReal = false) (hb : b.IsReal = false) :
    b.compare a = (a.compare b).swap := by
  cases a <;> cases b <;> simp only [Cell.IsReal, Bool.true_eq_false] at ha hb <;>
    simp only [Cell.compare, Cell.rank, Cell.compareNumbers] <;> try rfl
  case int.int m n => exact (Int.compare_swap ..).symm
  case text.text s t =>
    by_cases h1 : s < t
    · simp [h1, not_lt_of_gt h1]
    · by_cases h2 : t < s <;> simp [h1, h2]

theorem Cell.eq_of_compare_eq {a b : Cell} (ha : a.IsReal = false) (hb : b.IsReal = false)
    (h : a.compare b = .eq) : a = b := by
  cases a <;> cases b <;> simp only [Cell.IsReal, Bool.true_eq_false] at ha hb <;>
    simp +decide only [Cell.compare, Cell.rank, Cell.compareNumbers, if_false] at h <;>
    try first | rfl | cases h
  case int.int m n => rw [Int.compare_eq_eq.1 h]
  case text.text s t =>
    split_ifs at h with h1 h2
    exact congrArg Cell.text (le_antisymm (not_lt.1 h2) (not_lt.1 h1))

theorem Cell.compare_lt_trans {a b c : Cell} (ha : a.IsReal = false) (hb : b.IsReal = false)
    (hc : c.IsReal = false) (h1 : a.compare b = .lt) (h2 : b.compare c = .lt) :
    a.compare c = .lt := by
  cases a <;> cases b <;> cases c <;> simp only [Cell.IsReal, Bool.true_eq_false] at ha hb hc <;>
    simp +decide only [Cell.compare, Cell.rank, Cell.compareNumbers, if_false, if_true]
      at h1 h2 ⊢ <;>
    try first | rfl | cases h1 | cases h2
  case int.int.int =>
    exact Int.compare_eq_lt.2 (lt_trans (Int.compare_eq_lt.1 h1) (Int.compare_eq_lt.1 h2))
  case text.text.text s t u =>
    split_ifs at h1 with h1'
    split_ifs at h2 with h2'
    rw [if_pos (lt_trans h1' h2')]

end Store

/-! ## Live statuses and configured moves -/

namespace Status

variable {db : Db} {β a b : Int}

/-- A status row belongs to branch `β`, is open and is active, read as the status check reads
it. -/
def LiveRow (β : Int) (st : Row) : Bool :=
  (TableId.statuses.field st "branch_id").same (.int β) &&
    (TableId.statuses.field st "status").same (.str openState) &&
    (TableId.statuses.field st "is_active").truthy

/-- Status `b` is live in branch `β`: the status row of key `b` belongs to `β`, is open and is
active. -/
def Live (db : Db) (β b : Int) : Prop :=
  ∃ st, db.statuses.find? (·.id == b) = some st ∧ LiveRow β st = true

theorem live_iff : Live db β b ↔ (db.statuses.find? (·.id == b)).any (LiveRow β) = true := by
  unfold Live
  cases db.statuses.find? (·.id == b) <;> simp

instance : Decidable (Live db β b) := decidable_of_iff _ live_iff.symm

/-- A transition row leads from status `a` to status `b`, read as the move check reads it. -/
def Leads (a b : Int) (t : Row) : Bool :=
  (TableId.transitions.field t "from_status_id").sameMember (.int a) &&
    (TableId.transitions.field t "to_status_id").sameMember (.int b)

/-- Branch `β` configures the move from status `a` to status `b`: one of its transition rows
leads from `a` to `b`. -/
def Configured (db : Db) (β a b : Int) : Prop :=
  ∃ t ∈ db.transitions, t.is .transitions "branch_id" (.int β) = true ∧ Leads a b t = true

theorem configured_iff : Configured db β a b ↔
    ((db.transitions.filter (·.is .transitions "branch_id" (.int β))).any (Leads a b)) = true := by
  simp [Configured, List.any_eq_true]

instance : Decidable (Configured db β a b) := decidable_of_iff _ configured_iff.symm

/-- A status a new order of branch `β` may start at, as the query for the initial status selects
it: of the branch, open, active, and of no type or of a type that does not end the workflow. -/
def Opens (β : Int) (st : Row) : Bool :=
  st.is .statuses "branch_id" (.int β) && st.isOpen .statuses && st.holds "is_active" &&
    ((st.get "type").isNull || !Orders.endsWorkflow st)

/-- Status row `a` comes no later than status row `b`: by sort, then by key. -/
def Before (a b : Row) : Bool :=
  match (a.get "sort").compare (b.get "sort") with
  | .lt => true
  | .gt => false
  | .eq => a.id ≤ b.id

section Order

variable {x y z : Row} (hx : (x.get "sort").IsReal = false) (hy : (y.get "sort").IsReal = false)
  (hz : (z.get "sort").IsReal = false)
include hx hy

theorem before_total : (Before x y || Before y x) = true := by
  unfold Before
  rw [Cell.compare_swap hx hy]
  cases (x.get "sort").compare (y.get "sort") <;> simp [Ordering.swap]
  omega

include hz in
theorem before_trans (h1 : Before x y = true) (h2 : Before y z = true) : Before x z = true := by
  unfold Before at *
  cases hxy : (x.get "sort").compare (y.get "sort") <;>
    cases hyz : (y.get "sort").compare (z.get "sort") <;>
    simp only [hxy, hyz, Bool.false_eq_true] at h1 h2
  case lt.lt => rw [Cell.compare_lt_trans hx hy hz hxy hyz]
  case lt.eq => rw [← Cell.eq_of_compare_eq hy hz hyz, hxy]
  case eq.lt => rw [Cell.eq_of_compare_eq hx hy hxy, hyz]
  case eq.eq =>
    rw [Cell.eq_of_compare_eq hx hy hxy, hyz]
    simp only [decide_eq_true_eq] at h1 h2 ⊢
    omega

end Order

theorem before_refl {x : Row} (hx : (x.get "sort").IsReal = false) : Before x x = true := by
  simpa using before_total hx hx

end Status

/-! ## The checks -/

section Checks

variable {s : Session}

/-- The status check reads the status row of the key and passes exactly when it is live in
the branch. -/
theorem Orders.statusInBranch_run {b β : Int} (hb : fitsInt64 b = true) :
    Orders.statusInBranch (.int b) (.int β) s =
      if Status.Live s.db β b then .ok () s
      else .error (badRequest "Status not found in this branch" (some "status_id")
        [("status_id", .int b)]) s := by
  have hfind : s.db.statuses.find? (·.is .statuses "id" (.int b)) =
      s.db.statuses.find? (·.id == b) := by
    congr 1
    funext r
    exact Row.is_key rfl r b
  have hp : Txn.param (.int b) s = .ok (.int b) s := Txn.param_run (by simp [bindValue, hb])
  unfold Orders.statusInBranch
  rw [Txn.bind_of_run hp, Txn.bind_of_run Txn.query_run, hfind]
  cases hf : s.db.statuses.find? (·.id == b) with
  | none =>
    have hl : ¬ Status.Live s.db β b := by simp [Status.live_iff, hf]
    rw [if_neg hl]
    rfl
  | some st =>
    have hl : Status.Live s.db β b ↔ Status.LiveRow β st = true := by simp [Status.live_iff, hf]
    simp only [Txn.bind_of_run (Txn.read_run (TableId.statuses_read st _))]
    by_cases h : Status.LiveRow β st = true
    · rw [if_pos (hl.2 h)]
      simp only [Status.LiveRow] at h
      simp only [h, if_true]
      rfl
    · rw [if_neg (mt hl.1 h)]
      simp only [Status.LiveRow] at h
      simp only [h, Bool.false_eq_true, if_false]
      rfl

/-- The move check reads the transition rows of the branch and passes exactly when one of them
leads from the current status to the target. -/
theorem Status.checkMove_run {β a b : Int} (hβ : fitsInt64 β = true) :
    Status.checkMove (.int β) (.int a) (.int b) s =
      if Status.Configured s.db β a b then .ok () s
      else .error (transitionRefused (.str "status_id") (.int a) (.int b)) s := by
  have hp : Txn.param (.int β) s = .ok (.int β) s := Txn.param_run (by simp [bindValue, hβ])
  -- every row of the branch reads as the pair of statuses it leads between
  have hmoves : ∀ rows : Table, (rows.mapM (fun t => (do
      return (← Txn.read .transitions t "from_status_id", ← Txn.read .transitions t "to_status_id") :
        Txn (Value × Value))) : Txn (List (Value × Value))) s = .ok (rows.map fun t => (TableId.transitions.field t "from_status_id",
        TableId.transitions.field t "to_status_id")) s := fun rows =>
    List.mapM_run fun t _ => by
      simp only [Txn.bind_of_run (Txn.read_run (TableId.transitions_read t _))]
      rfl
  unfold Status.checkMove
  rw [Txn.bind_of_run hp, Txn.bind_of_run Txn.query_run, Txn.bind_of_run (hmoves _)]
  have hcan : @canMove Value Value.keyEq ((s.db.transitions.filter
      (·.is .transitions "branch_id" (.int β))).map fun t =>
        (TableId.transitions.field t "from_status_id", TableId.transitions.field t "to_status_id"))
      (.int a) (.int b) =
      (s.db.transitions.filter (·.is .transitions "branch_id" (.int β))).any (Status.Leads a b) := by
    simp only [canMove, List.any_map, List.any_filter, Function.comp_def, Status.Leads]
    rfl
  rw [hcan]
  by_cases h : Status.Configured s.db β a b
  · rw [if_pos h, Status.configured_iff.1 h]
    rfl
  · rw [if_neg h]
    simp only [Status.configured_iff, Bool.not_eq_true] at h
    rw [h]
    rfl

/-- An integer column of an order reads as the integer it holds. -/
theorem Orders.orderField_int_run {o : Row} {column : String} {n : Int}
    (hid : (column == "id") = false)
    (hkind : (TableId.orders.schema.column? column).map Column.kind = some .integer)
    (h : o.get column = .int n) : Orders.orderField o column s = .ok (.int n) s :=
  Txn.read_run (by rw [TableId.read_integer o hid hkind, h]; rfl)

/-- A change of status reads the branch of the order, checks the target and the move on the
database as it stands, and only then writes the target. -/
theorem Orders.changeStatus_run {o : Row} {β a b : Int} (hβ : o.get "branch_id" = .int β)
    (hfβ : fitsInt64 β = true) (hfb : fitsInt64 b = true) :
    Orders.changeStatus o (.int a) (.int b) s =
      if ¬ Status.Live s.db β b then
        .error (badRequest "Status not found in this branch" (some "status_id")
          [("status_id", .int b)]) s
      else if ¬ Status.Configured s.db β a b then
        .error (Status.transitionRefused (.str "status_id") (.int a) (.int b)) s
      else Txn.update .orders o.id [("status_id", .int b)] s := by
  unfold Orders.changeStatus
  rw [Txn.bind_of_run (Orders.orderField_int_run rfl rfl hβ)]
  by_cases hl : Status.Live s.db β b
  · have hs : Orders.statusInBranch (.int b) (.int β) s = .ok () s := by
      rw [Orders.statusInBranch_run hfb, if_pos hl]
    rw [Txn.bind_of_run hs, if_neg (not_not_intro hl)]
    by_cases hc : Status.Configured s.db β a b
    · have hm : Status.checkMove (.int β) (.int a) (.int b) s = .ok () s := by
        rw [Status.checkMove_run hfβ, if_pos hc]
      rw [Txn.bind_of_run hm, if_neg (not_not_intro hc)]
    · have hm : Status.checkMove (.int β) (.int a) (.int b) s =
          .error (Status.transitionRefused (.str "status_id") (.int a) (.int b)) s := by
        rw [Status.checkMove_run hfβ, if_neg hc]
      rw [Txn.bind_of_fail hm, if_pos hc]
  · have hs : Orders.statusInBranch (.int b) (.int β) s =
        .error (badRequest "Status not found in this branch" (some "status_id")
          [("status_id", .int b)]) s := by
      rw [Orders.statusInBranch_run hfb, if_neg hl]
    rw [Txn.bind_of_fail hs, if_pos hl]

/-- The initial status of a branch is the head of its open, active statuses that do not end
the workflow, sorted by sort and key; a branch with none has no initial status. -/
theorem Orders.initialStatus_run {β : Int} (hβ : fitsInt64 β = true) :
    Orders.initialStatus (.int β) s =
      match (s.db.statuses.filter (Status.Opens β)).mergeSort Status.Before with
      | st :: _ => .ok (.int st.id) s
      | [] => .error (badRequest "Branch has no initial status" (some "status_id")) s := by
  have hp : Txn.param (.int β) s = .ok (.int β) s := Txn.param_run (by simp [bindValue, hβ])
  unfold Orders.initialStatus
  rw [Txn.bind_of_run hp, Txn.bind_of_run Txn.query_run]
  show (match (s.db.statuses.filter (Status.Opens β)).mergeSort Status.Before with
    | st :: _ => (pure (Value.int st.id) : Txn Value)
    | [] => throw (badRequest "Branch has no initial status" (some "status_id"))) s = _
  cases (s.db.statuses.filter (Status.Opens β)).mergeSort Status.Before <;> rfl

/-- The head of a merge sort by an order that is transitive and total on the sorted list comes
no later than any of its items. -/
theorem List.mergeSort_head_le {α : Type} {le : α → α → Bool} {l : List α} {x : α} {rest : List α}
    (trans : ∀ a ∈ l, ∀ b ∈ l, ∀ c ∈ l, le a b = true → le b c = true → le a c = true)
    (total : ∀ a ∈ l, ∀ b ∈ l, (le a b || le b a) = true) (h : l.mergeSort le = x :: rest) : ∀ y ∈ l, le x y = true := by
  -- sort the members of `l` as members, where the order is a total preorder
  let le' : {a // a ∈ l} → {a // a ∈ l} → Bool := fun a b => le a.1 b.1
  have hsorted : (l.attach.mergeSort le').Pairwise fun a b => le' a b = true :=
    List.pairwise_mergeSort (fun a b c hab hbc => trans a.1 a.2 b.1 b.2 c.1 c.2 hab hbc)
      (fun a b => total a.1 a.2 b.1 b.2) l.attach
  have hmap : (l.attach.mergeSort le').map Subtype.val = (l.attach.map Subtype.val).mergeSort le :=
    List.map_mergeSort fun a _ b _ => rfl
  rw [List.attach_map_subtype_val, h] at hmap
  have hx : (x :: rest).Pairwise fun a b => le a b = true := by
    rw [← hmap]
    exact List.pairwise_map.2 hsorted
  intro y hy
  have hy' : y ∈ x :: rest := h ▸ List.mem_mergeSort.2 hy
  rcases List.mem_cons.1 hy' with rfl | hrest
  · simpa using total y hy y hy
  · exact List.rel_of_pairwise_cons hx hrest

/-- **The initial status of a branch is its first by sort and key.** When no status the
branch may start at has a double for its sort, the initial status, if the branch has one, is
the key of a status of the branch that is open, active and does not end the workflow, and that
comes no later by sort and key than any other such status. Reading it changes nothing. -/
theorem Orders.initialStatus_first {β : Int} (hβ : fitsInt64 β = true)
    (hsort : ∀ st ∈ s.db.statuses, Status.Opens β st = true → (st.get "sort").IsReal = false)
    {v : Value} {s' : Session} (h : Orders.initialStatus (.int β) s = .ok v s') :
    s' = s ∧ ∃ st ∈ s.db.statuses, v = .int st.id ∧ Status.Opens β st = true ∧
      ∀ t ∈ s.db.statuses, Status.Opens β t = true → Status.Before st t = true := by
  rw [Orders.initialStatus_run hβ] at h
  -- every candidate has a sort the database orders exactly
  have hexact : ∀ t ∈ s.db.statuses.filter (Status.Opens β), (t.get "sort").IsReal = false :=
    fun t ht => hsort t (List.mem_filter.1 ht).1 (List.mem_filter.1 ht).2
  cases hsorted : (s.db.statuses.filter (Status.Opens β)).mergeSort Status.Before with
  | nil => rw [hsorted] at h; cases h
  | cons st rest =>
    rw [hsorted] at h
    cases h
    have hmem : st ∈ s.db.statuses.filter (Status.Opens β) :=
      List.mem_mergeSort.1 (hsorted ▸ List.mem_cons_self)
    have hfirst := @List.mergeSort_head_le Row Status.Before _ st rest
      (fun a ha b hb c hc => Status.before_trans (hexact a ha) (hexact b hb) (hexact c hc))
      (fun a ha b hb => Status.before_total (hexact a ha) (hexact b hb)) hsorted
    refine ⟨rfl, st, (List.mem_filter.1 hmem).1, rfl, (List.mem_filter.1 hmem).2,
      fun t ht ho => hfirst t (List.mem_filter.2 ⟨ht, ho⟩)⟩

end Checks

end RepairShop
