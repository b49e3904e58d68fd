import Mathlib
import RepairShop.Proofs.GrantWrites

/- Runs that only insert.

   A unit of work holds a refused write until its next flush, and a held refusal stays held:
   an insert made while one is held does nothing. So a run that ends with no refusal held had
   every insert of it accepted, and each accepted insert appends one row, under the next key,
   to its own table. This file proves

   1. what an accepted insert stores (`Store.Db.insert_appends`, `Store.Stores`), and that an
      insert in a run ending with no refusal held was accepted (`Txn.insert_settled`);
   2. `Store.Db.Grows`: a database that differs from another by rows appended to some tables,
      a preorder that runs of inserts move along;
   3. how a loop of such a run is followed: an invariant kept by each pass is kept by the loop
      (`List.forIn_settled`), a loop whose passes change nothing changes nothing
      (`List.forIn_idle`, `List.forIn_stays`), and a loop of reads folds (`List.forIn_fold`). -/

namespace RepairShop

open Store Json

/-! ## What an accepted insert stores -/

namespace Store

/-- What a row stores in each column it was given, as an insert stores it. -/
def Stores (s : Schema) (given : List (String × Value)) (row : Row) : Prop :=
  ∀ {name : String} {c : Column} {v : Value}, name ≠ "id" →
    s.columns.find? (·.name == name) = some c →
    (insertValues s given).find? (fun p => p.1.name == name) = some (c, v) →
    ∃ v' cell, passKind c.kind v = .ok v' ∧ bindValue v' = .ok cell ∧
      row.get name = cell.withAffinity c.kind.affinity

/-- An accepted insert appends one row, under the next key, and changes no other table. -/
theorem Db.insert_appends {db db' : Db} {t : TableId} {given : List (String × Value)} {id : Int}
    (h : db.insert t given = .ok (db', id)) :
    ∃ row : Row, db' = db.withRows t (db.rows t ++ [row]) ∧ row.id = id ∧
      id = nextId (db.rows t) ∧ Stores t.schema given row := by
  unfold Db.insert at h
  split at h
  · rename_i rows id' hrow
    cases h
    obtain ⟨row, hrows, hid, hnext, hget⟩ := insertRow_get hrow
    -- the next key is above every key of the table, so the row goes last
    have hlast : placeRow row (db.rows t) = db.rows t ++ [row] :=
      placeRow_of_lt fun r hr => hid ▸ hnext ▸ lt_nextId hr
    exact ⟨row, by rw [hrows, hlast], hid, hnext, hget⟩
  · cases h

/-- An integer given to an integer column is stored as itself. -/
theorem Stores.int {t : TableId} {given : List (String × Value)} {row : Row} {name : String}
    {n : Int} {req : Bool} {dflt : Option Value} (h : Stores t.schema given row) (hid : name ≠ "id")
    (hc : t.schema.columns.find? (·.name == name) = some (intCol name req dflt))
    (hv : given.lookup name = some (.int n)) : row.get name = .int n := by
  obtain ⟨v', cell, hv', hcell, hrow⟩ :=
    @h name _ (.int n) hid hc (insertValues_find hc (by simp [intCol, hv]))
  cases hv'
  simp only [bindValue] at hcell
  split at hcell
  · cases hcell; exact hrow
  · cases hcell

/-- A text given to a text column is stored as itself. -/
theorem Stores.text {t : TableId} {given : List (String × Value)} {row : Row} {name : String}
    {x : String} {req : Bool} {dflt : Option Value} (h : Stores t.schema given row)
    (hid : name ≠ "id") (hc : t.schema.columns.find? (·.name == name) = some (textCol name req dflt))
    (hv : given.lookup name = some (.str x)) : row.get name = .text x := by
  obtain ⟨v', cell, hv', hcell, hrow⟩ :=
    @h name _ (.str x) hid hc (insertValues_find hc (by simp [textCol, hv]))
  cases hv'
  cases hcell
  exact hrow

/-- A boolean given to a flag column is stored as 1 or 0. -/
theorem Stores.flag {t : TableId} {given : List (String × Value)} {row : Row} {name : String}
    {dflt req x : Bool} (h : Stores t.schema given row) (hid : name ≠ "id")
    (hc : t.schema.columns.find? (·.name == name) = some (flagCol name dflt req))
    (hv : given.lookup name = some (.bool x)) : row.get name = .int (if x then 1 else 0) := by
  obtain ⟨v', cell, hv', hcell, hrow⟩ :=
    @h name _ (.bool x) hid hc (insertValues_find hc (by simp [flagCol, hv]))
  simp only [flagCol, passKind, flagValue, Except.ok.injEq] at hv'
  subst hv'
  cases x <;> (simp only [bindValue] at hcell; cases hcell; exact hrow)

/-- A text column given nothing stores its default text. -/
theorem Stores.text_default {t : TableId} {given : List (String × Value)} {row : Row}
    {name x : String} {req : Bool} (h : Stores t.schema given row) (hid : name ≠ "id")
    (hc : t.schema.columns.find? (·.name == name) = some (textCol name req (some (.str x))))
    (hv : given.lookup name = none) : row.get name = .text x := by
  obtain ⟨v', cell, hv', hcell, hrow⟩ :=
    @h name _ (.str x) hid hc (insertValues_find hc (by simp [textCol, hv]))
  cases hv'
  cases hcell
  exact hrow

/-- A flag column given nothing stores its default, as 1 or 0. -/
theorem Stores.flag_default {t : TableId} {given : List (String × Value)} {row : Row}
    {name : String} {dflt req : Bool} (h : Stores t.schema given row) (hid : name ≠ "id")
    (hc : t.schema.columns.find? (·.name == name) = some (flagCol name dflt req))
    (hv : given.lookup name = none) : row.get name = .int (if dflt then 1 else 0) := by
  obtain ⟨v', cell, hv', hcell, hrow⟩ :=
    @h name _ (.bool dflt) hid hc (insertValues_find hc (by simp [flagCol, hv]))
  simp only [flagCol, passKind, flagValue, Except.ok.injEq] at hv'
  subst hv'
  cases dflt <;> (simp only [bindValue] at hcell; cases hcell; exact hrow)

/-- A text stored in a text column equals itself as a parameter. -/
theorem Row.is_text_self {t : TableId} {column x : String} {r : Row}
    (haff : t.affinityOf column = .text) (h : r.get column = .text x) :
    r.is t column (.text x) = true := by
  simp [Row.is, haff, h, Cell.withAffinity, Cell.sqlEq, Cell.isNull, Cell.compare]

/-- The next key is new to the table. -/
theorem nodup_append_next {t : Table} {row : Row} (hid : row.id = nextId t)
    (hk : (t.map Row.id).Nodup) : ((t ++ [row]).map Row.id).Nodup := by
  rw [List.map_append, List.nodup_append]
  refine ⟨hk, List.nodup_singleton _, fun a ha b hb hab => ?_⟩
  obtain ⟨r, hr, rfl⟩ := List.mem_map.1 ha
  rw [List.map_singleton, List.mem_singleton] at hb
  exact absurd (hab.trans (hb.trans hid)) (ne_of_lt (lt_nextId hr))

@[simp] theorem Row.text_text {r : Row} {column x : String} (h : r.get column = .text x) :
    r.text column = x := by
  simp [Row.text, h]

end Store

/-! ## Databases that grow by appended rows -/

namespace Store.Db

/-- `d'` is `d` with rows appended to the tables of `ts`, and every other table as it was. -/
def Grows (ts : List TableId) (d d' : Db) : Prop :=
  ∀ t, ∃ new, d'.rows t = d.rows t ++ new ∧ (t ∉ ts → new = [])

variable {ts ts' : List TableId} {d d' d'' : Db}

theorem Grows.refl (ts : List TableId) (d : Db) : Grows ts d d :=
  fun _ => ⟨[], (List.append_nil _).symm, fun _ => rfl⟩

theorem Grows.trans (h : Grows ts d d') (h' : Grows ts d' d'') : Grows ts d d'' := by
  intro t
  obtain ⟨new, hrows, hnew⟩ := h t
  obtain ⟨new', hrows', hnew'⟩ := h' t
  refine ⟨new ++ new', by rw [hrows', hrows, List.append_assoc], fun ht => ?_⟩
  rw [hnew ht, hnew' ht, List.append_nil]

theorem Grows.mono (h : Grows ts d d') (hsub : ts ⊆ ts') : Grows ts' d d' := by
  intro t
  obtain ⟨new, hrows, hnew⟩ := h t
  exact ⟨new, hrows, fun ht => hnew fun h => ht (hsub h)⟩

/-- A table outside the grown ones is as it was. -/
theorem Grows.rows_eq (h : Grows ts d d') {t : TableId} (ht : t ∉ ts) : d'.rows t = d.rows t := by
  obtain ⟨new, hrows, hnew⟩ := h t
  rw [hrows, hnew ht, List.append_nil]

/-- Every row of a table is still there, in its place. -/
theorem Grows.rows_extend (h : Grows ts d d') (t : TableId) : d.rows t <+: d'.rows t := by
  obtain ⟨new, hrows, -⟩ := h t
  exact ⟨new, hrows.symm⟩

theorem grows_append (d : Db) {t : TableId} (new : Table) :
    Grows [t] d (d.withRows t (d.rows t ++ new)) := by
  intro t'
  by_cases ht : t' = t
  · subst ht
    exact ⟨new, Db.rows_withRows_self _ _ _, fun h => absurd (List.mem_singleton_self _) h⟩
  · exact ⟨[], by rw [Db.rows_withRows_ne _ ht, List.append_nil], fun _ => rfl⟩

end Store.Db

/-! ## Runs that end with no refused write held -/

/-- An insert in a run that ends with no refused write held was accepted: its row was
appended, and nothing else of the session changed. -/
theorem Txn.insert_settled {st st' : Session} {t : TableId} {given : List (String × Value)}
    {id : Int} (h : Txn.insert t given st = .ok id st') (hw : st'.waiting = none) :
    st.waiting = none ∧ ∃ row : Row,
      st' = { st with db := st.db.withRows t (st.db.rows t ++ [row]) } ∧ row.id = id ∧
        id = nextId (st.db.rows t) ∧ Stores t.schema given row := by
  simp only [Txn.insert, bind, EStateM.bind, get, getThe, MonadStateOf.get, EStateM.get] at h
  cases hs : st.waiting with
  | some r =>
    -- a held refusal stays held
    simp only [hs, Option.isSome_some, if_true, pure, EStateM.pure] at h
    cases h
    rw [hs] at hw
    cases hw
  | none =>
    simp only [hs, Option.isSome_none, Bool.false_eq_true, if_false] at h
    refine ⟨rfl, ?_⟩
    cases hi : st.db.insert t given with
    | error e =>
      rw [hi] at h
      cases h
      cases hw
    | ok p =>
      obtain ⟨db', id'⟩ := p
      rw [hi] at h
      cases h
      obtain ⟨row, rfl, hid, hnext, hst⟩ := Db.insert_appends hi
      exact ⟨row, rfl, hid, hnext, hst⟩

/-- A loop keeps an invariant of the elements it has passed, on every run that ends with no
refused write held, when every pass does: a pass yields, and keeps the invariant. -/
theorem List.forIn_settled {α β : Type} {f : α → β → Txn (ForInStep β)} {xs : List α}
    (I : List α → β → Session → Prop)
    (hf : ∀ pre x b st step st', x ∈ xs → f x b st = .ok step st' → st'.waiting = none →
      st.waiting = none ∧ ∃ b', step = .yield b' ∧ (I pre b st → I (pre ++ [x]) b' st'))
    {b r : β} {st st' : Session} (h : forIn xs b f st = .ok r st') (hw : st'.waiting = none) :
    st.waiting = none ∧ (I [] b st → I xs r st') := by
  -- the loop is followed along the elements still to pass, those passed being `pre`
  suffices key : ∀ rest pre b st, pre ++ rest = xs → forIn rest b f st = .ok r st' →
      st.waiting = none ∧ (I pre b st → I xs r st') from key xs [] b st rfl h
  intro rest
  induction rest with
  | nil =>
    intro pre b st hpre h
    simp only [List.forIn_nil, pure, EStateM.pure] at h
    cases h
    rw [List.append_nil] at hpre
    subst hpre
    exact ⟨hw, id⟩
  | cons x rest ih =>
    intro pre b st hpre h
    rw [List.forIn_cons] at h
    obtain ⟨step, st1, hx, hrest⟩ := Txn.bind_ok h
    have hmem : x ∈ xs := hpre ▸ List.mem_append_right _ List.mem_cons_self
    cases step with
    | done b' =>
      simp only [pure, EStateM.pure] at hrest
      cases hrest
      obtain ⟨_, b'', hb'', _⟩ := hf pre x b st _ _ hmem hx hw
      cases hb''
    | yield b' =>
      obtain ⟨hw1, hI⟩ := ih (pre ++ [x]) b' st1 (by simpa using hpre) hrest
      obtain ⟨hw0, b'', hb'', hI0⟩ := hf pre x b st _ _ hmem hx hw1
      cases hb''
      exact ⟨hw0, fun h0 => hI (hI0 h0)⟩

/-- A loop whose every pass changes nothing in the session, and yields a state of a kind from
one of that kind, changes nothing and ends in a state of that kind. -/
theorem List.forIn_stays {α β : Type} {f : α → β → Txn (ForInStep β)} {st : Session}
    (P : β → Prop) :
    ∀ {xs : List α}, (∀ x ∈ xs, ∀ b, P b → ∃ b', f x b st = .ok (.yield b') st ∧ P b') →
      ∀ b, P b → ∃ r, forIn xs b f st = .ok r st ∧ P r
  | [], _, b, hb => ⟨b, rfl, hb⟩
  | x :: xs, h, b, hb => by
    obtain ⟨b', hx, hb'⟩ := h x List.mem_cons_self b hb
    rw [List.forIn_cons, Txn.bind_of_run hx]
    exact List.forIn_stays P (fun y hy => h y (List.mem_cons_of_mem x hy)) b' hb'

/-- Two runs that change nothing, the second from what the first gives, change nothing. -/
theorem Txn.bind_stays {α β : Type} {x : Txn α} {f : α → Txn β} {st : Session} {P : α → Prop}
    {Q : β → Prop} (hx : ∃ a, x st = .ok a st ∧ P a) (hf : ∀ a, P a → ∃ b, f a st = .ok b st ∧ Q b) :
    ∃ b, (x >>= f) st = .ok b st ∧ Q b := by
  obtain ⟨a, hrun, ha⟩ := hx
  rw [Txn.bind_of_run hrun]
  exact hf a ha

/-- A loop whose every pass yields its state back, changing nothing, changes nothing. -/
theorem List.forIn_idle {α β : Type} {f : α → β → Txn (ForInStep β)} {b : β} {st : Session}
    {xs : List α} (h : ∀ x ∈ xs, f x b st = .ok (.yield b) st) : forIn xs b f st = .ok b st := by
  obtain ⟨r, hrun, rfl⟩ := List.forIn_stays (f := f) (· = b)
    (fun x hx b' hb => ⟨b, by rw [hb]; exact h x hx, rfl⟩) b rfl
  exact hrun

/-- A loop whose every pass yields a function of its state and element, changing nothing,
folds that function over the list. -/
theorem List.forIn_fold {α β : Type} {f : α → β → Txn (ForInStep β)} {g : β → α → β}
    {st : Session} :
    ∀ {xs : List α} {b : β}, (∀ x ∈ xs, ∀ b, f x b st = .ok (.yield (g b x)) st) →
      forIn xs b f st = .ok (xs.foldl g b) st
  | [], _, _ => rfl
  | x :: xs, b, h => by
    rw [List.forIn_cons, Txn.bind_of_run (h x List.mem_cons_self b)]
    exact List.forIn_fold fun y hy => h y (List.mem_cons_of_mem x hy)

/-- A committed unit of work ran its body from the session with nothing held or registered,
ended with no refused write held, and then ran its sweeps. -/
theorem Txn.atomically_ok_inv {α : Type} {body : Txn α} {s s1 : Session} {a : α}
    (h : Txn.atomically body s = .ok a s1) :
    ∃ s', body { s with waiting := none, sweeps := [] } = .ok a s' ∧ s'.waiting = none ∧
      Txn.sweepAll s'.sweeps { s' with sweeps := [], settled := s'.db } = .ok () s1 := by
  unfold Txn.atomically at h
  dsimp only at h
  cases hb : body { s with waiting := none, sweeps := [] } with
  | error e s' =>
    rw [hb] at h
    cases h
  | ok a' s' =>
    rw [hb] at h
    cases hw : s'.waiting with
    | some r =>
      simp only [hw] at h
      cases h
    | none =>
      simp only [hw] at h
      split at h
      · next u s'' hs =>
        cases h
        refine ⟨s', rfl, hw, ?_⟩
        simp only [hw]
        exact hs
      · cases h

/-- A unit of work whose body changes nothing, from a committed session with nothing held or
registered, changes nothing. -/
theorem Txn.atomically_idle {α : Type} {body : Txn α} {s : Session} {a : α}
    (hw : s.waiting = none) (hsw : s.sweeps = []) (hset : s.settled = s.db)
    (h : body s = .ok a s) : Txn.atomically body s = .ok a s := by
  obtain ⟨db, kv, wired, waiting, sweeps, settled⟩ := s
  dsimp only at hw hsw hset
  subst hw hsw hset
  unfold Txn.atomically
  dsimp only
  rw [h]
  rfl

/-- A column of texts reads as the value of its cell. -/
theorem Store.TableId.read_text {t : TableId} {column : String} (r : Row)
    (hid : (column == "id") = false)
    (hkind : (t.schema.column? column).map Column.kind = some .text) :
    t.read r column = .ok (r.get column).toValue := by
  cases h : t.schema.column? column with
  | none => simp [h] at hkind
  | some c =>
    simp only [h, Option.map_some, Option.some.injEq] at hkind
    simp only [TableId.read, Row.read, hid, h, hkind]
    cases r.get column <;> rfl

/-- A flush succeeds only where it stands, and with no refused write held it succeeds. -/
theorem Txn.flush_ok {st st' : Session} {u : Unit} (h : Txn.flush st = .ok u st') : st' = st := by
  simp only [Txn.flush, bind, EStateM.bind, get, getThe, MonadStateOf.get, EStateM.get] at h
  cases hs : st.waiting with
  | some r => simp only [hs] at h; cases h
  | none => simp only [hs] at h; cases h; rfl

theorem Txn.flush_run {st : Session} (hw : st.waiting = none) : Txn.flush st = .ok () st := by
  simp only [Txn.flush, bind, EStateM.bind, get, getThe, MonadStateOf.get, EStateM.get, hw]
  rfl

/-- An integer handed to the database as a parameter fits in 64 bits, and is itself. -/
theorem Txn.param_int_ok {st st' : Session} {n : Int} {c : Cell}
    (h : Txn.param (.int n) st = .ok c st') : fitsInt64 n = true ∧ c = .int n ∧ st' = st := by
  cases hn : fitsInt64 n with
  | false => rw [Txn.param_too_large hn] at h; cases h
  | true =>
    rw [Txn.param_run (show bindValue (.int n) = .ok (.int n) by simp [bindValue, hn])] at h
    cases h
    exact ⟨rfl, rfl, rfl⟩

end RepairShop
