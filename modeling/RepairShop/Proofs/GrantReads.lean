import Mathlib
import RepairShop.Proofs.KeyValue

/- Reading grants: the cache store and the database.

   Until it caches what it loaded, a resolver only reads. This file describes such reads as
   computations that leave the session as they found it (`Txn.Reads`, with rules for pure
   values, failures, binds and loops), and states what each read of a resolver gives: the
   grants of one role as the database holds them (`Access.loadGrants_lookup`,
   `GrantCache.loadMissing_reads`), and cached grants as the stored texts of their entries,
   decoded (`GrantCache.cachedGrants_reads`). -/

namespace RepairShop

open Store Json Cache Access

/-! ## Operations that only read -/

/-- A computation that leaves the session as it found it, and whose result, when it has one,
meets `R` in that session. -/
def Txn.Reads {α : Type} (x : Txn α) (R : Session → α → Prop) : Prop :=
  ∀ s, match x s with
    | .ok a s' => s' = s ∧ R s a
    | .error _ s' => s' = s

namespace Txn.Reads

theorem pure {α : Type} (a : α) : Txn.Reads (pure a) fun _ b => b = a := fun _ => ⟨rfl, rfl⟩

theorem throw {α : Type} (e : Failure) : Txn.Reads (throw e : Txn α) fun _ _ => False :=
  fun _ => rfl

theorem mono {α : Type} {x : Txn α} {R S : Session → α → Prop} (h : Txn.Reads x R)
    (hRS : ∀ s a, R s a → S s a) : Txn.Reads x S := fun s => by
  have hs := h s
  cases hxs : x s with
  | ok a s' =>
    rw [hxs] at hs
    exact ⟨hs.1, hRS _ _ hs.2⟩
  | error e s' =>
    rw [hxs] at hs
    exact hs

theorem bind {α β : Type} {x : Txn α} {f : α → Txn β} {R : Session → α → Prop}
    {S : α → Session → β → Prop} (hx : Txn.Reads x R) (hf : ∀ a, Txn.Reads (f a) (S a)) :
    Txn.Reads (x >>= f) fun s b => ∃ a, R s a ∧ S a s b := fun s => by
  have h1 := hx s
  simp only [Bind.bind, EStateM.bind]
  cases hxs : x s with
  | ok a s' =>
    rw [hxs] at h1
    obtain ⟨rfl, ha⟩ := h1
    have h2 := hf a s'
    dsimp only
    cases hfs : f a s' with
    | ok b s'' =>
      rw [hfs] at h2
      exact ⟨h2.1, a, ha, h2.2⟩
    | error e s'' =>
      rw [hfs] at h2
      exact h2
  | error e s' =>
    rw [hxs] at h1
    exact h1

theorem lift {α : Type} (r : Result α) : Txn.Reads (Txn.lift r) fun _ a => r = .ok a := by
  cases r with
  | ok a => exact (Txn.Reads.pure a).mono fun _ _ h => h ▸ rfl
  | error e => exact (Txn.Reads.throw e).mono fun _ _ h => h.elim

theorem mapM {α β : Type} {f : α → Txn β} {P : Session → α → β → Prop}
    (hf : ∀ a, Txn.Reads (f a) fun s b => P s a b) :
    ∀ xs : List α, Txn.Reads (xs.mapM f) fun s bs => List.Forall₂ (P s) xs bs
  | [] => (Txn.Reads.pure []).mono fun _ _ h => h ▸ .nil
  | x :: xs => by
    rw [List.mapM_cons]
    exact ((hf x).bind fun b => (mapM hf xs).bind fun bs => Txn.Reads.pure (b :: bs)).mono
      fun _ _ ⟨_, hb, _, hbs, h⟩ => h ▸ .cons hb hbs

theorem query : Txn.Reads Txn.query fun s d => d = s.db := fun _ => ⟨rfl, rfl⟩

end Txn.Reads

/-- A cache operation runs on the session's store when the services have a cache. -/
theorem Txn.withCache_run {α : Type} (none_ : α) (op : Kv → Result (α × Kv)) (s : Session)
    (hw : s.wired = true) :
    Txn.withCache none_ op s = match op s.kv with
      | .ok (a, kv) => .ok a { s with kv }
      | .error e => .error e s := by
  unfold Txn.withCache
  show (if s.wired = true then (match op s.kv with
      | .ok (a, kv) => (set { s with kv } >>= fun _ => pure a : Txn α)
      | .error e => throw e) else pure none_) s = _
  rw [if_pos hw]
  cases op s.kv with
  | ok p => rfl
  | error e => rfl

theorem Txn.Reads.cacheRead {α : Type} (none_ : α) (read : Kv → Result α) :
    Txn.Reads (Txn.cacheRead none_ read) fun s a => s.wired = true → read s.kv = .ok a :=
  fun s => by
    by_cases hw : s.wired = true
    · unfold Txn.cacheRead
      rw [Txn.withCache_run _ _ _ hw]
      cases h : read s.kv with
      | ok a => simp [h]
      | error e => simp
    · have hrun : Txn.cacheRead none_ read s = .ok none_ s := by
        unfold Txn.cacheRead Txn.withCache
        show (if s.wired = true then _ else (Pure.pure none_ : Txn α)) s = _
        rw [if_neg hw]
        rfl
      rw [hrun]
      exact ⟨rfl, fun h => absurd h hw⟩

/-! ## Grants of one role -/

namespace Access

section SetEntry

variable {β : Type}

theorem lookup_map_set_of_ne (k : Int) (b : β) {r : Int} (hr : r ≠ k) :
    ∀ m : List (Int × β), (m.map fun p => if p.1 == k then (k, b) else p).lookup r = m.lookup r
  | [] => rfl
  | (k', b') :: m => by
    have ih := lookup_map_set_of_ne k b hr m
    rw [List.map_cons]
    by_cases hk : k' = k
    · subst hk
      have hrk : (r == k') = false := by simpa using hr
      rw [if_pos (by simp), List.lookup_cons, List.lookup_cons, hrk]
      exact ih
    · rw [if_neg (by simpa using hk), List.lookup_cons, List.lookup_cons]
      cases r == k'
      · exact ih
      · rfl

theorem lookup_map_set_self (k : Int) (b : β) :
    ∀ m : List (Int × β), m.any (·.1 == k) = true →
      (m.map fun p => if p.1 == k then (k, b) else p).lookup k = some b
  | [], h => by simp at h
  | (k', b') :: m, h => by
    rw [List.map_cons]
    by_cases hk : k' = k
    · subst hk
      rw [if_pos (by simp), List.lookup_cons, beq_self_eq_true]
    · have ht : m.any (·.1 == k) = true := by simpa [hk] using h
      have hne : (k == k') = false := by simpa using Ne.symm hk
      rw [if_neg (by simpa using hk), List.lookup_cons, hne]
      exact lookup_map_set_self k b m ht

/-- Setting an entry of a map changes the lookup of its key only. -/
theorem lookup_setEntry (m : List (Int × β)) (k r : Int) (b : β) :
    (setEntry m k b).lookup r = if r = k then some b else m.lookup r := by
  unfold setEntry
  split
  · rename_i hany
    split
    · rename_i hr
      subst hr
      exact lookup_map_set_self r b m hany
    · exact lookup_map_set_of_ne k b ‹_› m
  · rename_i hany
    rw [Bool.not_eq_true, List.any_eq_false] at hany
    rw [List.lookup_append]
    split
    · rename_i hr
      subst hr
      have : m.lookup r = none := List.lookup_eq_none_iff.2 fun p hp => by
        simp only [bne_iff_ne, ne_eq]
        intro h
        exact hany p hp (by simp [h])
      simp [this]
    · rename_i hr
      have hrk : (r == k) = false := by simpa using hr
      rw [List.lookup_cons, hrk, List.lookup_nil, Option.or_none]

end SetEntry

/-- An integer column of a grant row compared with an integer. -/
theorem grant_role_is {g : Row} {r : Int} (hg : g.get "role_id" = .int r) (r' : Int) :
    g.is .grants "role_id" (.int r') = (r == r') := by
  have ha : TableId.affinityOf .grants "role_id" = .numeric := by decide
  simp only [Row.is, hg, ha, Cell.withAffinity, Cell.sqlEq, Cell.isNull, Cell.compare, Cell.rank,
    Cell.compareNumbers]
  simp

/-- A fold whose step changes a role's entry only at rows of that role, and as a function of
that entry alone, gives the role the same entry over two filters that agree on its rows. -/
theorem foldl_filter_lookup {step : List (Int × GrantMap) → Row → List (Int × GrantMap)}
    {r : Int} (hother : ∀ acc g, g.get "role_id" ≠ .int r → (step acc g).lookup r = acc.lookup r)
    (hlocal : ∀ acc acc' g, acc.lookup r = acc'.lookup r →
      (step acc g).lookup r = (step acc' g).lookup r)
    {P Q : Row → Bool} (hPQ : ∀ g, g.get "role_id" = .int r → P g = Q g) :
    ∀ (xs : List Row) (acc acc' : List (Int × GrantMap)), acc.lookup r = acc'.lookup r →
      ((xs.filter P).foldl step acc).lookup r = ((xs.filter Q).foldl step acc').lookup r
  | [], _, _, h => h
  | x :: xs, acc, acc', h => by
    have ih := foldl_filter_lookup hother hlocal hPQ xs
    rw [List.filter_cons, List.filter_cons]
    by_cases hx : x.get "role_id" = .int r
    · rw [hPQ x hx]
      split
      · exact ih _ _ (hlocal acc acc' x h)
      · exact ih _ _ h
    · -- a row of another role changes nothing the role sees, kept or not
      have hs := hother acc x hx
      have hs' := hother acc' x hx
      split <;> split <;> exact ih _ _ (by simp only [hs, hs', h])

/-- A role's grants do not depend on the other roles loaded with it. -/
theorem loadGrants_lookup (db : Db) (branch : Cell) {r : Int} {rs : List Int} (hr : r ∈ rs) :
    (loadGrants db rs branch).lookup r = (loadGrants db [r] branch).lookup r := by
  unfold loadGrants
  apply foldl_filter_lookup
  · intro acc g hg
    split
    · rename_i role status hrole _
      have hne : r ≠ role := fun h => hg (h ▸ hrole)
      dsimp only
      split
      · rfl
      · rw [lookup_setEntry, if_neg hne]
    · rfl
  · intro acc acc' g h
    split
    · rename_i role status _ _
      dsimp only
      split
      · exact h
      · rw [lookup_setEntry, lookup_setEntry]
        split
        · rename_i hrr
          subst hrr
          rw [h]
        · exact h
    · exact h
  · intro g hg
    have hany : ∀ rs' : List Int, r ∈ rs' →
        g.isAny .grants "role_id" (rs'.map .int) = true := fun rs' hr' => by
      simp only [Row.isAny, List.any_map, List.any_eq_true, Function.comp_apply]
      exact ⟨r, hr', by simp [grant_role_is hg]⟩
    simp only [hany rs hr, hany [r] (List.mem_singleton_self r)]
  · rfl

end Access

/-! ## The store under one generation protocol -/

/-- Values a list of keys reads as, key by key. -/
theorem Cache.getMany_ok {kv : Kv} :
    ∀ {keys : List Value} {found : List (Option Value)}, getMany kv keys = .ok found →
      List.Forall₂ (fun k o => Cache.get kv k = .ok o) keys found
  | [], found, h => by
    simp only [getMany, List.mapM_nil, pure, Except.pure, Except.ok.injEq] at h
    exact h ▸ .nil
  | k :: ks, found, h => by
    simp only [getMany, List.mapM_cons] at h
    cases hk : Cache.get kv k with
    | error e => simp [hk, bind, Except.bind] at h
    | ok o =>
      cases hks : ks.mapM (Cache.get kv) with
      | error e => simp [hk, hks, bind, Except.bind] at h
      | ok os =>
        simp only [hk, hks, bind, Except.bind, pure, Except.pure, Except.ok.injEq] at h
        exact h ▸ .cons hk (getMany_ok hks)

/-- A hit of the cache store is a stored text that decodes. -/
theorem Cache.get_some {kv : Kv} {key v : Value} (h : Cache.get kv key = .ok (some v)) :
    ∃ x, kv.read (fullKey key) = some x ∧ decodeStored x = .ok (some v) := by
  unfold Cache.get at h
  split at h
  · split at h
    · simp [pure, Except.pure] at h
    · simp [pure, Except.pure] at h
    · exact ⟨_, ‹_›, h⟩
  · simp [pure, Except.pure] at h

/-- Two relations along three lists, chained. -/
theorem List.Forall₂.chain {α β γ : Type} {R : α → β → Prop} {S : β → γ → Prop} :
    ∀ {xs : List α} {ys : List β} {zs : List γ}, List.Forall₂ R xs ys → List.Forall₂ S ys zs →
      List.Forall₂ (fun x z => ∃ y, R x y ∧ S y z) xs zs
  | _, _, _, .nil, .nil => .nil
  | _, _, _, .cons h hs, .cons h' hs' => .cons ⟨_, h, h'⟩ (chain hs hs')

namespace GrantCache

/-- The parameter a branch is in a query: the value as the database takes it, or no value. -/
def branchCell (branch : Value) : Cell :=
  match bindValue branch with
  | .ok c => c
  | .error _ => .null

/-- The grants a database holds for one role in a branch, as loading that role gives them. -/
def grantsIn (db : Db) (branch : Value) (role : Int) : GrantMap :=
  ((loadGrants db [role] (branchCell branch)).lookup role).getD []

/-- The store's key of a role's cached grants under a generation. -/
def grantEntry (branch : Value) (role gen : Int) : Value :=
  fullKey (.str (grantKey branch role gen))

/-- The text cached grants are stored as. -/
def cachedText (g : GrantMap) : Value := .str (encodeGrants g).render

theorem param_reads (v : Value) : Txn.Reads (Txn.param v) fun _ c => c = branchCell v := by
  unfold Txn.param branchCell
  split
  · rename_i heq
    exact (Txn.Reads.pure _).mono fun _ _ h => by rw [h, heq]
  · exact (Txn.Reads.throw _).mono fun _ _ h => h.elim
  · rename_i heq
    exact (Txn.Reads.pure _).mono fun _ _ h => by rw [h, heq]
  · exact (Txn.Reads.throw _).mono fun _ _ h => h.elim

/-- Loading the missing roles reads, for each, its grants in the committed database. -/
theorem loadMissing_reads (b : Value) (missing : List Int) :
    Txn.Reads (loadMissing b missing) fun s loaded =>
      ∀ r ∈ missing, (loaded.lookup r).getD [] = grantsIn s.db b r := by
  unfold loadMissing
  split
  · rename_i hnil
    refine (Txn.Reads.pure []).mono fun _ _ _ r hr => ?_
    simp only [List.isEmpty_iff] at hnil
    simp [hnil] at hr
  · refine (((Txn.Reads.mapM (P := fun _ _ _ => True)
      (fun v => (param_reads v).mono fun _ _ _ => trivial) _).bind fun _ =>
      (param_reads b).bind fun cell => Txn.Reads.query.bind fun db =>
        Txn.Reads.pure (loadGrants db missing cell))).mono ?_
    rintro s loaded ⟨_, _, cell, rfl, db, rfl, rfl⟩ r hr
    exact congrArg (·.getD []) (loadGrants_lookup s.db (branchCell b) hr)

/-- The cached grants fetched under a generation are the stored texts of their roles'
entries, decoded. -/
theorem cachedGrants_reads (b : Value) (roles : List Int) (g : Int) :
    Txn.Reads (cachedGrants b roles g) fun s cached => s.wired = true →
      ∀ p ∈ roles.zip cached, ∀ gm, p.2 = some gm →
        ∃ x fields, s.kv.read (grantEntry b p.1 g) = some x ∧
          decodeStored x = .ok (some (.obj fields)) ∧ decodeGrants fields [] = .ok gm := by
  unfold cachedGrants
  refine ((Txn.Reads.cacheRead _ _).bind fun found => Txn.Reads.mapM
    (P := fun _ o c => ∀ gm, c = some gm →
      ∃ fields, o = some (.obj fields) ∧ decodeGrants fields [] = .ok gm)
    (fun o => ?_) found).mono ?_
  · split
    · refine (Txn.Reads.lift _).mono fun _ c h gm hc => ⟨_, rfl, ?_⟩
      cases hd : decodeGrants _ [] with
      | ok g' => simp_all [Except.map]
      | error e => simp [hd, Except.map] at h
    · exact (Txn.Reads.pure none).mono fun _ c h gm hc => by simp_all
  · rintro s cached ⟨found, hfound, hdec⟩ hw ⟨r, c⟩ hp gm hc
    have h1 := List.forall₂_map_left_iff.1 (Cache.getMany_ok (hfound hw))
    obtain ⟨o, hget, hdo⟩ := List.forall₂_zip (List.Forall₂.chain h1 hdec) hp
    obtain ⟨fields, rfl, hfields⟩ := hdo gm hc
    obtain ⟨x, hx, hdx⟩ := Cache.get_some hget
    exact ⟨x, fields, hx, hdx, hfields⟩

end GrantCache

end RepairShop
