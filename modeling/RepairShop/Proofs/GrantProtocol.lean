import Mathlib
import RepairShop.Proofs.GrantReads

/- Resolvers and writers of cached grants, interleaved.

   A resolver (`Access.grantsFor`) reads its branch's generation counter, fetches the cached
   grants of its roles under that generation, loads the roles the cache did not have from the
   database, and caches each loaded role under the generation it read. A writer commits a
   change of grants, then retires the cached grants: it bumps the generation counter of each
   branch it touched and drops the entries by pattern (`Access.retireBranch`,
   `Access.retireRole`). Each of these is one operation on the shared store or database, and
   resolvers and writers may take their operations in any interleaving (`World.run` over a
   schedule of parties).

   This file defines the parties and their world, and says once what one operation can do:
   `World.step_moves` gives one case per kind of step, `Resolver.step_cases` one case per
   phase of a resolver, and the lemmas after them what each does to the counters and the
   grant entries of the store. -/

namespace RepairShop

open Store Json Cache Access

namespace GrantCache

/-! ## Resolvers and writers -/

/-- Where one run of the resolver stands between its operations on the shared state. -/
inductive Resolver where
  /-- Not started; the roles it resolves. -/
  | idle (roles : List Int)
  /-- The generation read: none without roles or without a usable counter. -/
  | counted (roles : List Int) (gen : Option Int)
  /-- The cached entries fetched under the generation, one per role. -/
  | fetched (roles : List Int) (gen : Option Int) (cached : List (Option GrantMap))
  /-- The database read: the grants of every role, and the loaded ones still to be cached. -/
  | storing (gen : Option Int) (perRole : List (Int × GrantMap)) (puts : List (Int × GrantMap))
  /-- Finished with the grants of every role. -/
  | done (gen : Option Int) (perRole : List (Int × GrantMap))
  /-- Stopped by a failure. -/
  | failed

/-- How a writer retires cached grants after its commit. -/
inductive Retirement where
  | branch (b : Value)
  | role (r : Value) (bs : List Value)

/-- The sweeps of a retirement. -/
def Retirement.sweeps : Retirement → List Sweep
  | .branch b => retireBranch b
  | .role r bs => retireRole r bs

/-- Where one writer stands: its change not yet committed, its sweeps running, or finished. -/
inductive Writer where
  | ready (change : Db → Db) (how : Retirement)
  /-- Committed as the database of version `version`; the sweeps still to run. -/
  | retiring (version : Nat) (rest : List Sweep)
  | finished (version : Nat)
  | failed (version : Nat)

/-- A writer after one of its sweeps ran: on to the rest, or stopped by a failure. -/
def Writer.afterSweep (v : Nat) (rest : List Sweep) : Result Unit → Writer
  | .ok _ => .retiring v rest
  | .error _ => .failed v

/-- The party that takes the next step. -/
inductive Party where
  | resolver (i : Nat)
  | writer (j : Nat)

/-- Resolvers and writers on one store and one database. The database of version 0 is
`base`, that of version `k + 1` the `k`-th commit. -/
structure World where
  branch : Value
  base : Db
  commits : List Db
  kv : Kv
  resolvers : List Resolver
  writers : List Writer

namespace World

/-- The database as last committed. -/
def db (w : World) : Db := (w.base :: w.commits).getLast (List.cons_ne_nil _ _)

/-- The database of a version. -/
def dbAt (w : World) (e : Nat) : Option Db := (w.base :: w.commits)[e]?

/-- The session an operation runs in: the committed database and the shared store. -/
def session (w : World) : Session := { db := w.db, kv := w.kv }

/-- Runs one operation of the services: what it gives, and the store after it. -/
def perform {α : Type} (w : World) (x : Txn α) : Result α × Kv :=
  match x w.session with
  | .ok a s => (.ok a, s.kv)
  | .error e s => (.error e, s.kv)

end World

/-- One operation of a resolver, as `grantsFor` makes them: the generation read, the cached
entries fetched under it, the missing roles loaded, and each loaded role cached. -/
def Resolver.step (w : World) : Resolver → Resolver × Kv
  | .idle roles =>
    match w.perform (if roles.isEmpty then pure none else generation w.branch) with
    | (.ok gen, kv) => (.counted roles gen, kv)
    | (.error _, kv) => (.failed, kv)
  | .counted roles gen =>
    match w.perform (match gen with
        | some g => cachedGrants w.branch roles g
        | none => pure (roles.map fun _ => none)) with
    | (.ok cached, kv) => (.fetched roles gen cached, kv)
    | (.error _, kv) => (.failed, kv)
  | .fetched roles gen cached =>
    let pairs := roles.zip cached
    let missing := (pairs.filter (·.2.isNone)).map (·.1)
    match w.perform (loadMissing w.branch missing) with
    | (.ok loaded, kv) =>
      let fresh := fun r => (loaded.lookup r).getD []
      (.storing gen (pairs.map fun p => (p.1, p.2.getD (fresh p.1)))
        (missing.map fun r => (r, fresh r)), kv)
    | (.error _, kv) => (.failed, kv)
  | .storing (some n) perRole ((r, g) :: puts) =>
    (.storing (some n) perRole puts, (w.perform (cacheGrants w.branch r n g)).2)
  | .storing gen perRole _ => (.done gen perRole, w.kv)
  | q => (q, w.kv)

namespace World

/-- One step of one party. A writer commits its change, then runs its sweeps one by one. -/
def step (w : World) : Party → World
  | .resolver i =>
    match w.resolvers[i]? with
    | some q => { w with resolvers := w.resolvers.set i (q.step w).1, kv := (q.step w).2 }
    | none => w
  | .writer j =>
    match w.writers[j]? with
    | some (.ready change how) =>
      { w with commits := w.commits ++ [change w.db],
               writers := w.writers.set j (.retiring (w.commits.length + 1) how.sweeps) }
    | some (.retiring v (x :: rest)) =>
      let (r, kv) := w.perform (Txn.sweep x)
      { w with kv, writers := w.writers.set j (Writer.afterSweep v rest r) }
    | some (.retiring v []) => { w with writers := w.writers.set j (.finished v) }
    | _ => w

/-- The world after the parties take their steps in the order of the schedule. -/
def run (w : World) (sched : List Party) : World := sched.foldl step w

end World

/-- The generation a resolver works under, once it has read one. -/
def Resolver.generation : Resolver → Option Int
  | .counted _ gen | .fetched _ gen _ | .storing gen _ _ | .done gen _ => gen
  | _ => none

/-- What a sweep that ran did to the store. -/
def SweepDone (kv : Kv) : Sweep → Kv → Prop
  | .bump key, kv' => ∃ r, Cache.incr kv (.str key) = .ok (r, kv')
  | .drop pattern, kv' => ∃ n, Cache.deleteMatching kv (.str pattern) = .ok (n, kv')

namespace World

variable (w : World)

@[simp] theorem session_kv : w.session.kv = w.kv := rfl
@[simp] theorem session_db : w.session.db = w.db := rfl
@[simp] theorem session_wired : w.session.wired = true := rfl

theorem perform_reads {α : Type} {x : Txn α} {R : Session → α → Prop} (h : Txn.Reads x R) :
    (w.perform x).2 = w.kv ∧ ∀ a, (w.perform x).1 = .ok a → R w.session a := by
  have hs := h w.session
  unfold perform
  cases hx : x w.session with
  | ok a s =>
    rw [hx] at hs
    obtain ⟨rfl, hR⟩ := hs
    exact ⟨rfl, fun a' ha' => by cases ha'; exact hR⟩
  | error e s =>
    rw [hx] at hs
    subst hs
    exact ⟨rfl, fun a' ha' => by cases ha'⟩

theorem perform_of_reads {α : Type} {x : Txn α} {R : Session → α → Prop} (h : Txn.Reads x R)
    {r : Result α} {kv : Kv} (hx : w.perform x = (r, kv)) :
    kv = w.kv ∧ ∀ a, r = .ok a → R w.session a := by
  have := w.perform_reads h
  rw [hx] at this
  exact this

theorem perform_cacheGrants (b : Value) (r n : Int) (g : GrantMap) :
    (w.perform (cacheGrants b r n g)).2 =
      (Cache.put w.kv (.str (grantKey b r n)) (encodeGrants g) (.int grantTtl)).2 := by
  unfold perform cacheGrants Txn.cachePut
  simp only [Bind.bind, EStateM.bind]
  rw [Txn.withCache_run _ _ _ w.session_wired]
  rfl

/-- A sweep that fails leaves the store; one that runs bumps or deletes. -/
theorem perform_sweep (x : Sweep) :
    match w.perform (Txn.sweep x) with
    | (.ok _, kv) => SweepDone w.kv x kv
    | (.error _, kv) => kv = w.kv := by
  cases x with
  | bump key =>
    simp only [perform, Txn.sweep, Bind.bind, EStateM.bind]
    rw [Txn.withCache_run _ _ _ w.session_wired]
    simp only [session_kv]
    cases h : Cache.incr w.kv (.str key) with
    | ok p =>
      obtain ⟨r, kv⟩ := p
      exact ⟨r, h⟩
    | error e => rfl
  | drop pattern =>
    simp only [perform, Txn.sweep, Bind.bind, EStateM.bind]
    rw [Txn.withCache_run _ _ _ w.session_wired]
    simp only [session_kv]
    cases h : Cache.deleteMatching w.kv (.str pattern) with
    | ok p =>
      obtain ⟨n, kv⟩ := p
      exact ⟨n, h⟩
    | error e => rfl

/-- The steps a world can take. -/
inductive Moves : World → Prop
  | stay : Moves w
  | resolve {i : Nat} {q : Resolver} : w.resolvers[i]? = some q →
      Moves { w with resolvers := w.resolvers.set i (q.step w).1, kv := (q.step w).2 }
  | commit {j : Nat} {change : Db → Db} {how : Retirement} :
      w.writers[j]? = some (.ready change how) →
      Moves { w with commits := w.commits ++ [change w.db],
                     writers := w.writers.set j (.retiring (w.commits.length + 1) how.sweeps) }
  | sweep {j v : Nat} {x : Sweep} {rest : List Sweep} {r : Result Unit} {kv : Kv} :
      w.writers[j]? = some (.retiring v (x :: rest)) → w.perform (Txn.sweep x) = (r, kv) →
      Moves { w with kv, writers := w.writers.set j (Writer.afterSweep v rest r) }
  | finish {j v : Nat} : w.writers[j]? = some (.retiring v []) →
      Moves { w with writers := w.writers.set j (.finished v) }

theorem step_moves (p : Party) : w.Moves (w.step p) := by
  cases p with
  | resolver i =>
    simp only [step]
    split
    · exact .resolve ‹_›
    · exact .stay
  | writer j =>
    simp only [step]
    split
    · exact .commit ‹_›
    · exact .sweep ‹_› rfl
    · exact .finish ‹_›
    · exact .stay

end World

/-- What one operation of a resolver does: it reads the generation, fetches the cached
entries, loads the database, caches one loaded role, or finishes. Only caching a role changes
the store. -/
theorem Resolver.step_cases (w : World) (q : Resolver) :
    (∃ roles, q = .idle roles ∧ (q.step w).2 = w.kv ∧
      ((q.step w).1 = .failed ∨ ∃ gen, (q.step w).1 = .counted roles gen ∧
        ∀ n, gen = some n → Cache.counter w.kv (.str (generationKey w.branch)) = .ok (some n))) ∨
    (∃ roles gen, q = .counted roles gen ∧ (q.step w).2 = w.kv ∧
      ((q.step w).1 = .failed ∨ ∃ cached, (q.step w).1 = .fetched roles gen cached ∧
        ∀ p ∈ roles.zip cached, ∀ gm, p.2 = some gm → ∃ g x fields, gen = some g ∧
          w.kv.read (grantEntry w.branch p.1 g) = some x ∧
          decodeStored x = .ok (some (.obj fields)) ∧ decodeGrants fields [] = .ok gm)) ∨
    (∃ roles gen cached, q = .fetched roles gen cached ∧ (q.step w).2 = w.kv ∧
      ((q.step w).1 = .failed ∨ ∃ perRole puts, (q.step w).1 = .storing gen perRole puts ∧
        (∀ p ∈ perRole, (p.1, some p.2) ∈ roles.zip cached ∨
          p.2 = grantsIn w.db w.branch p.1) ∧
        ∀ p ∈ puts, p.2 = grantsIn w.db w.branch p.1)) ∨
    (∃ n perRole r g puts, q = .storing (some n) perRole ((r, g) :: puts) ∧
      (q.step w).1 = .storing (some n) perRole puts ∧
      (q.step w).2 = (Cache.put w.kv (.str (grantKey w.branch r n)) (encodeGrants g)
        (.int grantTtl)).2) ∨
    (∃ gen perRole puts, q = .storing gen perRole puts ∧ (q.step w).1 = .done gen perRole ∧
      (q.step w).2 = w.kv) ∨
    ((q.step w).1 = q ∧ (q.step w).2 = w.kv) := by
  cases q with
  | idle roles =>
    refine .inl ⟨roles, rfl, ?_⟩
    -- the read leaves the store, and a generation it gives is the counter's
    have hread : Txn.Reads (if roles.isEmpty then pure none else Access.generation w.branch)
        fun s gen => s.wired = true → ∀ n, gen = some n →
          Cache.counter s.kv (.str (generationKey w.branch)) = .ok (some n) := by
      split
      · exact (Txn.Reads.pure none).mono fun _ _ h _ n hn => by simp_all
      · exact (Txn.Reads.cacheRead _ _).mono fun _ _ h hw n hn => hn ▸ h hw
    simp only [Resolver.step]
    split
    · rename_i gen kv heq
      obtain ⟨hkv, hres⟩ := w.perform_of_reads hread heq
      exact ⟨hkv, .inr ⟨gen, rfl, hres gen rfl rfl⟩⟩
    · rename_i kv heq
      exact ⟨(w.perform_of_reads hread heq).1, .inl rfl⟩
  | counted roles gen =>
    refine .inr (.inl ⟨roles, gen, rfl, ?_⟩)
    have hread : Txn.Reads (match gen with
        | some g => cachedGrants w.branch roles g
        | none => pure (roles.map fun _ => none))
        fun s cached => s.wired = true → ∀ p ∈ roles.zip cached, ∀ gm, p.2 = some gm →
          ∃ g x fields, gen = some g ∧ s.kv.read (grantEntry w.branch p.1 g) = some x ∧
            decodeStored x = .ok (some (.obj fields)) ∧ decodeGrants fields [] = .ok gm := by
      cases gen with
      | some g =>
        exact (cachedGrants_reads w.branch roles g).mono fun _ _ h hw p hp gm hgm =>
          let ⟨x, fields, h1, h2, h3⟩ := h hw p hp gm hgm
          ⟨g, x, fields, rfl, h1, h2, h3⟩
      | none =>
        -- without a generation nothing is fetched
        refine (Txn.Reads.pure _).mono fun _ _ h _ p hp gm hgm => ?_
        subst h
        have := (List.of_mem_zip hp).2
        simp [hgm] at this
    simp only [Resolver.step]
    split
    · rename_i cached kv heq
      obtain ⟨hkv, hres⟩ := w.perform_of_reads hread heq
      exact ⟨hkv, .inr ⟨cached, rfl, hres cached rfl rfl⟩⟩
    · rename_i kv heq
      exact ⟨(w.perform_of_reads hread heq).1, .inl rfl⟩
  | fetched roles gen cached =>
    refine .inr (.inr (.inl ⟨roles, gen, cached, rfl, ?_⟩))
    have hread := loadMissing_reads w.branch (((roles.zip cached).filter (·.2.isNone)).map (·.1))
    simp only [Resolver.step]
    split
    · rename_i loaded kv heq
      obtain ⟨hkv, hres⟩ := w.perform_of_reads hread heq
      have hfresh := hres loaded rfl
      refine ⟨hkv, .inr ⟨_, _, rfl, ?_, ?_⟩⟩
      · -- a role's grants are the cached ones, or else loaded
        intro p hp
        obtain ⟨⟨r, c⟩, hrc, rfl⟩ := List.mem_map.1 hp
        cases c with
        | some g => exact .inl hrc
        | none =>
          refine .inr (hfresh r ?_)
          exact List.mem_map.2 ⟨(r, none), List.mem_filter.2 ⟨hrc, rfl⟩, rfl⟩
      · intro p hp
        obtain ⟨r, hr, rfl⟩ := List.mem_map.1 hp
        exact hfresh r hr
    · rename_i kv heq
      exact ⟨(w.perform_of_reads hread heq).1, .inl rfl⟩
  | storing gen perRole puts =>
    cases gen with
    | none => exact .inr (.inr (.inr (.inr (.inl ⟨none, perRole, puts, rfl, rfl, rfl⟩))))
    | some n =>
      cases puts with
      | nil => exact .inr (.inr (.inr (.inr (.inl ⟨some n, perRole, [], rfl, rfl, rfl⟩))))
      | cons p puts =>
        obtain ⟨r, g⟩ := p
        exact .inr (.inr (.inr (.inl ⟨n, perRole, r, g, puts, rfl, rfl,
          w.perform_cacheGrants w.branch r n g⟩)))
  | done gen perRole => exact .inr (.inr (.inr (.inr (.inr ⟨rfl, rfl⟩))))
  | failed => exact .inr (.inr (.inr (.inr (.inr ⟨rfl, rfl⟩))))

/-! ## What the operations do to the keys of the protocol -/

theorem fullKey_ne {a b : String} (h : a ≠ b) : keyPrefix ++ ":" ++ a ≠ keyPrefix ++ ":" ++ b :=
  fun he => h ((String.append_right_inj _).1 he)

/-- Caching under one key leaves every other key. -/
theorem put_read_of_ne {kv : Kv} {k s : String} (h : s ≠ k) (v ttl : Value) :
    (Cache.put kv (.str k) v ttl).2.read (fullKey (.str s)) = kv.read (fullKey (.str s)) := by
  unfold Cache.put
  split
  · rw [Cache.fullKey_str, Cache.fullKey_str, Kv.read_write_of_ne _ (fullKey_ne h)]
  · rfl

theorem put_read_self {kv : Kv} (k : String) (v ttl : Value) :
    (Cache.put kv (.str k) v ttl).2.read (fullKey (.str k)) = some (.str v.render) ∨
      (Cache.put kv (.str k) v ttl).2 = kv := by
  unfold Cache.put
  split
  · exact .inl (by rw [Cache.fullKey_str, Kv.read_write_self])
  · exact .inr rfl

theorem put_online (kv : Kv) (key v ttl : Value) :
    (Cache.put kv key v ttl).2.online = kv.online := by
  unfold Cache.put
  split <;> simp

/-- An increment writes its own key or nothing. -/
theorem incr_cases {kv kv' : Kv} {k : String} {r : Option Int}
    (h : Cache.incr kv (.str k) = .ok (r, kv')) :
    kv' = kv ∨ ∃ t, kv' = kv.write (fullKey (.str k)) (.str t) none := by
  unfold Cache.incr at h
  split at h
  · cases hr : kv.read (fullKey (.str k)) with
    | none =>
      simp only [hr, bind, Except.bind, pure, Except.pure, Except.ok.injEq, Prod.mk.injEq] at h
      exact .inr ⟨_, h.2.symm⟩
    | some v =>
      cases hw : wholeOf v with
      | error e => simp [hr, hw, bind, Except.bind] at h
      | ok n =>
        simp only [hr, hw, bind, Except.bind, pure, Except.pure, Except.ok.injEq,
          Prod.mk.injEq] at h
        exact .inr ⟨_, h.2.symm⟩
  · simp only [pure, Except.pure, Except.ok.injEq, Prod.mk.injEq] at h
    exact .inl h.2.symm

theorem incr_read_of_ne {kv kv' : Kv} {k s : String} {r : Option Int} (hs : s ≠ k)
    (h : Cache.incr kv (.str k) = .ok (r, kv')) :
    kv'.read (fullKey (.str s)) = kv.read (fullKey (.str s)) := by
  rcases incr_cases h with rfl | ⟨t, rfl⟩
  · rfl
  · rw [Cache.fullKey_str, Cache.fullKey_str, Kv.read_write_of_ne _ (fullKey_ne hs)]

theorem incr_online {kv kv' : Kv} {k : String} {r : Option Int}
    (h : Cache.incr kv (.str k) = .ok (r, kv')) : kv'.online = kv.online := by
  rcases incr_cases h with rfl | ⟨t, rfl⟩
  · rfl
  · simp

/-- A counter gives a count only while the store is up. -/
theorem counter_online {kv : Kv} {key : Value} {n : Int} (h : Cache.counter kv key = .ok (some n)) :
    kv.online = true := by
  unfold Cache.counter at h
  split at h
  · assumption
  · cases h

/-- A branch's counter is told apart from every other key by its text. -/
theorem CounterAt.congr {kv kv' : Kv} {k : String} {c : Nat}
    (h : kv'.read (fullKey (.str k)) = kv.read (fullKey (.str k))) :
    Cache.CounterAt kv' k c ↔ Cache.CounterAt kv k c := by
  simp only [Cache.CounterAt, h]

/-- A store holds one count under a counter's key at most. -/
theorem CounterAt.unique {kv : Kv} {k : String} {c c' : Nat} (h : Cache.CounterAt kv k c)
    (h' : Cache.CounterAt kv k c') : c = c' := by
  rcases h with ⟨hn, rfl⟩ | hs <;> rcases h' with ⟨hn', rfl⟩ | hs'
  · rfl
  · rw [hn] at hs'
    cases hs'
  · rw [hs] at hn'
    cases hn'
  · rw [hs] at hs'
    have := Int.toString_inj (Value.str.inj (Option.some.inj hs'))
    omega

/-- Caching a role's grants leaves every counter. -/
theorem put_counter {kv : Kv} {b b' : Value} {r n : Int} {c : Nat} (v ttl : Value) :
    Cache.CounterAt (Cache.put kv (.str (grantKey b r n)) v ttl).2 (generationKey b') c ↔
      Cache.CounterAt kv (generationKey b') c :=
  CounterAt.congr (put_read_of_ne (grantKey_ne_generationKey b b' r n).symm v ttl)

/-- Caching a role's grants under a generation leaves the entries of other roles and
generations. -/
theorem put_entry_of_ne {kv : Kv} {b : Value} {r r' n g : Int} (h : ¬ (r' = r ∧ g = n))
    (v ttl : Value) :
    (Cache.put kv (.str (grantKey b r n)) v ttl).2.read (grantEntry b r' g) =
      kv.read (grantEntry b r' g) :=
  put_read_of_ne (fun he => h (grantKey_inj he)) v ttl

/-! ## Sweeps that spare the counters -/

end GrantCache

/-- A sweep that reaches no counter but its own and no key but grant entries: a bump of a
generation counter, or a drop of a pattern under the grant prefix. -/
def Sweep.Spares : Sweep → Prop
  | .bump key => ∃ b, key = generationKey b
  | .drop pattern => ∃ rest, pattern = "status_permissions:" ++ rest

namespace GrantCache

theorem Retirement.sweeps_spare (how : Retirement) : ∀ x ∈ how.sweeps, x.Spares := by
  cases how with
  | branch b =>
    intro x hx
    simp only [Retirement.sweeps, retireBranch, List.mem_cons, List.not_mem_nil, or_false] at hx
    rcases hx with rfl | rfl
    · exact ⟨b, rfl⟩
    · exact ⟨b.display ++ ":*", String.append_assoc⟩
  | role r bs =>
    intro x hx
    simp only [Retirement.sweeps, retireRole, List.mem_append, List.mem_map,
      List.mem_singleton] at hx
    rcases hx with ⟨b, -, rfl⟩ | rfl
    · exact ⟨b, rfl⟩
    · have hlit : ("status_permissions:*:" : String) = "status_permissions:" ++ "*:" := by decide
      refine ⟨"*:" ++ r.display ++ ":*", ?_⟩
      show "status_permissions:*:" ++ r.display ++ ":*" = _
      rw [hlit]
      simp only [String.append_assoc]

/-- A sweep that spares the counters removes or keeps every grant entry, and keeps every
counter but the one it bumps. -/
theorem SweepDone.spares {kv kv' : Kv} {x : Sweep} (hx : x.Spares) (h : SweepDone kv x kv')
    (b : Value) :
    (∀ r g, kv'.read (grantEntry b r g) = none ∨
      kv'.read (grantEntry b r g) = kv.read (grantEntry b r g)) ∧
    ((∀ c, Cache.CounterAt kv' (generationKey b) c ↔ Cache.CounterAt kv (generationKey b) c) ∨
      ∃ r, Cache.incr kv (.str (generationKey b)) = .ok (r, kv')) ∧
    kv'.online = kv.online := by
  cases x with
  | bump key =>
    obtain ⟨b', rfl⟩ := hx
    obtain ⟨r, hr⟩ := h
    refine ⟨fun r' g => .inr (incr_read_of_ne (grantKey_ne_generationKey b b' r' g) hr),
      ?_, incr_online hr⟩
    by_cases hb : generationKey b = generationKey b'
    · exact .inr ⟨r, hb ▸ hr⟩
    · exact .inl fun c => CounterAt.congr (incr_read_of_ne hb hr)
  | drop pattern =>
    obtain ⟨rest, rfl⟩ := hx
    obtain ⟨n, hn⟩ := h
    refine ⟨fun r g => ?_, .inl fun c => CounterAt.congr ?_, deleteMatching_online hn⟩
    · simp only [grantEntry, Cache.fullKey_str]
      exact (deleteMatching_read hn _).1
    · -- the pattern of a drop never matches a counter
      simp only [Cache.fullKey_str]
      exact (deleteMatching_read hn _).2 (generationKey_unswept b rest)

/-- The version a writer committed; 0 before its commit. -/
def Writer.version : Writer → Nat
  | .ready _ _ => 0
  | .retiring v _ | .finished v | .failed v => v

/-- The sweeps a writer has still to run. -/
def Writer.pending : Writer → List Sweep
  | .ready _ how => how.sweeps
  | .retiring _ rest => rest
  | _ => []

/-- What a resolver's operation does to the store: nothing, or it caches one role. -/
theorem Resolver.step_kv (w : World) (q : Resolver) :
    (q.step w).2 = w.kv ∨ ∃ n perRole r g puts, q = .storing (some n) perRole ((r, g) :: puts) ∧
      (q.step w).1 = .storing (some n) perRole puts ∧
      (q.step w).2 = (Cache.put w.kv (.str (grantKey w.branch r n)) (encodeGrants g)
        (.int grantTtl)).2 := by
  rcases q.step_cases w with ⟨_, _, h, _⟩ | ⟨_, _, _, h, _⟩ | ⟨_, _, _, _, h, _⟩ | h |
    ⟨_, _, _, _, _, h⟩ | ⟨_, h⟩
  · exact .inl h
  · exact .inl h
  · exact .inl h
  · -- caching a loaded role is the one operation that writes
    exact .inr h
  · exact .inl h
  · exact .inl h

/-- A resolver keeps its generation, except that its first operation reads the counter. -/
theorem Resolver.step_generation (w : World) (q : Resolver) (n : Int)
    (hn : (q.step w).1.generation = some n) :
    q.generation = some n ∨ ∃ roles, q = .idle roles ∧
      Cache.counter w.kv (.str (generationKey w.branch)) = .ok (some n) := by
  rcases q.step_cases w with ⟨roles, rfl, -, h | ⟨gen, h, hgen⟩⟩ |
    ⟨roles, gen, rfl, -, h | ⟨cached, h, -⟩⟩ | ⟨roles, gen, cached, rfl, -, h | ⟨_, _, h, -⟩⟩ |
    ⟨_, _, _, _, _, rfl, h, -⟩ | ⟨gen, perRole, puts, rfl, h, -⟩ | ⟨h, -⟩
  all_goals rw [h] at hn
  · -- a failed resolver has no generation
    cases hn
  · exact .inr ⟨_, rfl, hgen n hn⟩
  · cases hn
  · exact .inl hn
  · cases hn
  · exact .inl hn
  · exact .inl hn
  · exact .inl hn
  · exact .inl hn

end GrantCache

end RepairShop
