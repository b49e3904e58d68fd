import Mathlib
import RepairShop.Proofs.GrantProtocol

/- The generation protocol of cached grants rules out stale grants.

   Resolvers and writers take their operations in any interleaving (`Proofs/GrantProtocol`).
   The argument: the counter only grows, and every cached entry sits under a generation the
   counter has reached (`World.Sound`). Once a writer has bumped the counter past `c`, every
   entry under a generation above `c` was put by a resolver that read the counter after the
   bump, and so loaded the database after the writer's commit (`World.Tracks`). A resolver
   that starts after the bump works under such a generation, or under none (`World.Follows`).

   This file proves

   1. `World.Sound.run`: the counter only grows, and no entry or resolver is ahead of it;
   2. `World.Tracks.run`, `World.Follows.run`: what a writer's bump guarantees afterwards;
   3. that a resolver that starts after a writer's bump returns, for every role, the grants
      of the writer's commit or a later database, and works under a generation above every
      generation in use before the bump. -/

namespace RepairShop

open Store Json Cache Access

namespace GrantCache

namespace World

/-- The counter of the resolvers' branch holds `c`. -/
def CounterAt (w : World) (c : Nat) : Prop := Cache.CounterAt w.kv (generationKey w.branch) c

/-- The counter holds `c`, no cached entry of the branch and no resolver works under a
generation above it, and every sweep still to run spares the counters. -/
structure Sound (w : World) (c : Nat) : Prop where
  counter : w.CounterAt c
  entries : ∀ r g x, w.kv.read (grantEntry w.branch r g) = some x → g ≤ c
  readers : ∀ q ∈ w.resolvers, ∀ g, q.generation = some g → g ≤ c
  sweeps : ∀ x ∈ w.writers, ∀ y ∈ x.pending, y.Spares
  versions : ∀ x ∈ w.writers, x.version ≤ w.commits.length

namespace Sound

variable {w : World} {c : Nat}

theorem resolve (hs : w.Sound c) {i : Nat} {q : Resolver} (hq : w.resolvers[i]? = some q) :
    Sound { w with resolvers := w.resolvers.set i (q.step w).1, kv := (q.step w).2 } c := by
  have hqm := List.mem_of_getElem? hq
  refine ⟨?_, ?_, ?_, hs.sweeps, hs.versions⟩
  · -- only a put changes the store, and never at a counter
    rcases q.step_kv w with h | ⟨n, perRole, r, g, puts, -, -, h⟩
    · exact h ▸ hs.counter
    · exact h ▸ (put_counter _ _).2 hs.counter
  · rcases q.step_kv w with h | ⟨n, perRole, r, g, puts, rfl, -, h⟩
    · exact h ▸ hs.entries
    · intro r' g' x hx
      simp only at hx
      rw [h] at hx
      by_cases hrg : r' = r ∧ g' = n
      · -- the new entry sits under the resolver's own generation
        rw [hrg.2]
        exact hs.readers _ hqm n rfl
      · rw [put_entry_of_ne hrg] at hx
        exact hs.entries r' g' x hx
  · intro q' hq' g hg
    rcases List.mem_or_eq_of_mem_set hq' with hq' | rfl
    · exact hs.readers q' hq' g hg
    · rcases q.step_generation w g hg with h | ⟨-, -, h⟩
      · exact hs.readers q hqm g h
      · -- a generation just read is the counter
        rcases Cache.counter_at hs.counter h with h' | h'
        · cases h'
        · simp only [Option.some.injEq] at h'
          omega

theorem commit (hs : w.Sound c) (j : Nat) (change : Db → Db) (how : Retirement) :
    Sound { w with commits := w.commits ++ [change w.db],
                   writers := w.writers.set j (.retiring (w.commits.length + 1) how.sweeps) } c := by
  refine ⟨hs.counter, hs.entries, hs.readers, ?_, ?_⟩
  · intro x hx
    rcases List.mem_or_eq_of_mem_set hx with hx | rfl
    · exact hs.sweeps x hx
    · exact how.sweeps_spare
  · intro x hx
    simp only [List.length_append, List.length_singleton]
    rcases List.mem_or_eq_of_mem_set hx with hx | rfl
    · exact Nat.le_succ_of_le (hs.versions x hx)
    · exact le_refl _

theorem finish (hs : w.Sound c) {j v : Nat} (hj : w.writers[j]? = some (.retiring v [])) :
    Sound { w with writers := w.writers.set j (.finished v) } c := by
  refine ⟨hs.counter, hs.entries, hs.readers, ?_, ?_⟩
  · intro x hx
    rcases List.mem_or_eq_of_mem_set hx with hx | rfl
    · exact hs.sweeps x hx
    · simp [Writer.pending]
  · intro x hx
    rcases List.mem_or_eq_of_mem_set hx with hx | rfl
    · exact hs.versions x hx
    · have := hs.versions _ (List.mem_of_getElem? hj)
      exact this

theorem sweep (hs : w.Sound c) {j v : Nat} {x : Sweep} {rest : List Sweep} {r : Result Unit}
    {kv : Kv} (hj : w.writers[j]? = some (.retiring v (x :: rest)))
    (hp : w.perform (Txn.sweep x) = (r, kv)) :
    ∃ c', (c' = c ∨ c' = c + 1) ∧
      Sound { w with kv, writers := w.writers.set j (Writer.afterSweep v rest r) } c' := by
  have hxm := List.mem_of_getElem? hj
  have hwriters : ∀ y ∈ w.writers.set j (Writer.afterSweep v rest r),
      (∀ z ∈ y.pending, z.Spares) ∧ y.version ≤ w.commits.length := by
    intro y hy
    rcases List.mem_or_eq_of_mem_set hy with hy | rfl
    · exact ⟨hs.sweeps y hy, hs.versions y hy⟩
    · have hsp := hs.sweeps _ hxm
      have hv := hs.versions _ hxm
      cases r with
      | ok u => exact ⟨fun z hz => hsp z (List.mem_cons_of_mem _ hz), hv⟩
      | error e => exact ⟨fun z hz => (by simp [Writer.afterSweep, Writer.pending] at hz), hv⟩
  have hdone := w.perform_sweep x
  rw [hp] at hdone
  cases r with
  | error e =>
    subst hdone
    exact ⟨c, .inl rfl, hs.counter, hs.entries, hs.readers, fun y hy => (hwriters y hy).1,
      fun y hy => (hwriters y hy).2⟩
  | ok u =>
    have hx : x.Spares := hs.sweeps _ hxm x (List.mem_cons_self ..)
    obtain ⟨hent, hctr, -⟩ := hdone.spares hx w.branch
    have hentries : ∀ r g y, kv.read (grantEntry w.branch r g) = some y → g ≤ c := by
      intro r g y hy
      rcases hent r g with h | h
      · rw [h] at hy
        cases hy
      · exact hs.entries r g y (h ▸ hy)
    rcases hctr with hctr | ⟨r', hr'⟩
    · exact ⟨c, .inl rfl, (hctr c).2 hs.counter, hentries, hs.readers,
        fun y hy => (hwriters y hy).1, fun y hy => (hwriters y hy).2⟩
    · -- the writer bumped this branch's counter
      rcases Cache.incr_at hs.counter hr' with ⟨-, rfl⟩ | ⟨-, rfl⟩
      · exact ⟨c, .inl rfl, hs.counter, hentries, hs.readers,
          fun y hy => (hwriters y hy).1, fun y hy => (hwriters y hy).2⟩
      · refine ⟨c + 1, .inr rfl, .inr ?_, fun r g y hy => by have := hentries r g y hy; omega,
          fun q hq g hg => by have := hs.readers q hq g hg; omega,
          fun y hy => (hwriters y hy).1, fun y hy => (hwriters y hy).2⟩
        exact Kv.read_write_self _ _ _ _

end Sound

/-- The counter only grows, by one at a time, and stays ahead of the store and the
resolvers. -/
theorem Sound.step {w : World} {c : Nat} (hs : w.Sound c) (p : Party) :
    ∃ c', (c' = c ∨ c' = c + 1) ∧ (w.step p).Sound c' := by
  have hm := w.step_moves p
  generalize w.step p = w' at hm ⊢
  cases hm with
  | stay => exact ⟨c, .inl rfl, hs⟩
  | resolve hq => exact ⟨c, .inl rfl, hs.resolve hq⟩
  | commit _ => exact ⟨c, .inl rfl, hs.commit _ _ _⟩
  | sweep hj hp => exact hs.sweep hj hp
  | finish hj => exact ⟨c, .inl rfl, hs.finish hj⟩

@[simp] theorem run_nil (w : World) : w.run [] = w := rfl

@[simp] theorem run_cons (w : World) (p : Party) (sched : List Party) :
    w.run (p :: sched) = (w.step p).run sched := rfl

theorem run_append (w : World) (s t : List Party) : w.run (s ++ t) = (w.run s).run t :=
  List.foldl_append

/-- The counter only grows along a run, and the world stays sound. -/
theorem Sound.run {w : World} {c : Nat} (hs : w.Sound c) :
    ∀ sched, ∃ c', c ≤ c' ∧ (w.run sched).Sound c'
  | [] => ⟨c, le_refl c, hs⟩
  | p :: sched => by
    obtain ⟨c₁, hc₁, hs₁⟩ := hs.step p
    obtain ⟨c₂, hc₂, hs₂⟩ := hs₁.run sched
    exact ⟨c₂, by omega, hs₂⟩

/-- A world before any operation: every resolver idle, every writer ready, and the counter
at or above every generation the branch's cached entries are under. -/
structure Start (w : World) : Prop where
  idle : ∀ q ∈ w.resolvers, ∃ roles, q = .idle roles
  ready : ∀ x ∈ w.writers, ∃ change how, x = .ready change how
  counter : ∃ c, w.CounterAt c ∧ ∀ r g x, w.kv.read (grantEntry w.branch r g) = some x → g ≤ c

theorem Start.sound {w : World} (hw : w.Start) : ∃ c, w.Sound c := by
  obtain ⟨c, hc, hent⟩ := hw.counter
  refine ⟨c, hc, hent, ?_, ?_, ?_⟩
  · intro q hq g hg
    obtain ⟨roles, rfl⟩ := hw.idle q hq
    cases hg
  · intro x hx
    obtain ⟨change, how, rfl⟩ := hw.ready x hx
    exact how.sweeps_spare
  · intro x hx
    obtain ⟨change, how, rfl⟩ := hw.ready x hx
    exact Nat.zero_le _

/-! ## Versions of the database -/

/-- `w'` keeps the branch of `w` and every version of its database. -/
structure Extends (w w' : World) : Prop where
  branch : w'.branch = w.branch
  dbAt : ∀ e db, w.dbAt e = some db → w'.dbAt e = some db

theorem Moves.extends {w w' : World} (h : w.Moves w') : w.Extends w' := by
  cases h
  case commit =>
    -- a commit appends a version and keeps the others
    refine ⟨rfl, fun e db he => ?_⟩
    obtain ⟨hlt, -⟩ := List.getElem?_eq_some_iff.1 he
    exact (List.getElem?_append_left hlt).trans he
  all_goals exact ⟨rfl, fun _ _ he => he⟩

theorem step_branch (w : World) (p : Party) : (w.step p).branch = w.branch :=
  (w.step_moves p).extends.branch

theorem run_branch (w : World) : ∀ sched, (w.run sched).branch = w.branch
  | [] => rfl
  | p :: sched => (run_branch (w.step p) sched).trans (w.step_branch p)

/-- The last committed database is the database of the last version. -/
theorem dbAt_length (w : World) : w.dbAt w.commits.length = some w.db := by
  unfold dbAt db
  rw [List.getLast_eq_getElem]
  simp

/-- A role's grants as a database of version `v` or later holds them. -/
def Loaded (w : World) (v : Nat) (r : Int) (gm : GrantMap) : Prop :=
  ∃ e db, v ≤ e ∧ w.dbAt e = some db ∧ gm = grantsIn db w.branch r

theorem Loaded.mono {w w' : World} (h : w.Extends w') {v : Nat} {r : Int} {gm : GrantMap}
    (hl : w.Loaded v r gm) : w'.Loaded v r gm := by
  obtain ⟨e, db, hv, he, rfl⟩ := hl
  exact ⟨e, db, hv, h.dbAt e db he, by rw [h.branch]⟩

end World

/-- `g` is what reading back the text the grants `gm` were cached as gives. -/
def ReadBack (gm g : GrantMap) : Prop :=
  ∃ fields, decodeStored (cachedText gm) = .ok (some (.obj fields)) ∧
    decodeGrants fields [] = .ok g

namespace World

/-- Grants a resolver may hand out for a role after the bump: those of a database of version
`v` or later, as loaded or as read back from their cached text. -/
def Current (w : World) (v : Nat) (r : Int) (g : GrantMap) : Prop :=
  ∃ gm, w.Loaded v r gm ∧ (g = gm ∨ ReadBack gm g)

theorem Current.mono {w w' : World} (h : w.Extends w') {v : Nat} {r : Int} {g : GrantMap}
    (hc : w.Current v r g) : w'.Current v r g :=
  let ⟨gm, hl, hg⟩ := hc
  ⟨gm, hl.mono h, hg⟩

end World

/-- A resolver holds only grants of version `v` or later: those it fetched, those it hands
out, and those it has still to cache. -/
def Resolver.Fresh (w : World) (v : Nat) : Resolver → Prop
  | .fetched roles _ cached => ∀ p ∈ roles.zip cached, ∀ gm, p.2 = some gm → w.Current v p.1 gm
  | .storing _ perRole puts =>
    (∀ p ∈ perRole, w.Current v p.1 p.2) ∧ ∀ p ∈ puts, w.Loaded v p.1 p.2
  | .done _ perRole => ∀ p ∈ perRole, w.Current v p.1 p.2
  | _ => True

theorem Resolver.Fresh.mono {w w' : World} (h : w.Extends w') {v : Nat} :
    ∀ {q : Resolver}, q.Fresh w v → q.Fresh w' v
  | .fetched _ _ _, hf => fun p hp gm hg => (hf p hp gm hg).mono h
  | .storing _ _ _, hf => ⟨fun p hp => (hf.1 p hp).mono h, fun p hp => (hf.2 p hp).mono h⟩
  | .done _ _, hf => fun p hp => (hf p hp).mono h
  | .idle _, _ | .counted _ _, _ | .failed, _ => trivial

/-! ## After a bump -/

namespace World

/-- What holds once a writer that committed version `v` has bumped the counter to `gW`: the
counter stays at `gW` or above while the store is up, and every entry and every resolver under
a generation from `gW` on holds grants of version `v` or later. -/
structure Tracks (w : World) (v gW : Nat) : Prop where
  version : v ≤ w.commits.length
  counter : w.kv.online = true → ∃ c, gW ≤ c ∧ w.CounterAt c
  entries : ∀ r g x, (gW : Int) ≤ g → w.kv.read (grantEntry w.branch r g) = some x →
    ∃ gm, w.Loaded v r gm ∧ x = cachedText gm
  readers : ∀ q ∈ w.resolvers, ∀ g, q.generation = some g → (gW : Int) ≤ g → q.Fresh w v

namespace Tracks

variable {w : World} {v gW : Nat}

theorem loaded_db (hT : w.Tracks v gW) (r : Int) : w.Loaded v r (grantsIn w.db w.branch r) :=
  ⟨_, _, hT.version, w.dbAt_length, rfl⟩

/-- A generation read from the counter after the bump is `gW` or above. -/
theorem counter_read (hT : w.Tracks v gW) {n : Int}
    (h : Cache.counter w.kv (.str (generationKey w.branch)) = .ok (some n)) : (gW : Int) ≤ n := by
  obtain ⟨c, hc, hC⟩ := hT.counter (counter_online h)
  rcases Cache.counter_at hC h with h' | h'
  · cases h'
  · rw [Option.some.injEq] at h'
    omega

/-- Grants fetched from an entry under a generation from `gW` on are current. -/
theorem cached_current (hT : w.Tracks v gW) {r g : Int} {x : Value}
    {fields : List (String × Value)} {gm : GrantMap} (hg : (gW : Int) ≤ g)
    (hx : w.kv.read (grantEntry w.branch r g) = some x)
    (hd : decodeStored x = .ok (some (.obj fields))) (hgm : decodeGrants fields [] = .ok gm) :
    w.Current v r gm := by
  obtain ⟨gm₀, hl, rfl⟩ := hT.entries r g x hg hx
  exact ⟨gm₀, hl, .inr ⟨fields, hd, hgm⟩⟩

/-- A resolver under a generation from `gW` on, or under none, keeps holding only current
grants through its next operation. -/
theorem step_fresh (hT : w.Tracks v gW) {q : Resolver}
    (hgen : ∀ g, q.generation = some g → (gW : Int) ≤ g) (hf : q.Fresh w v) :
    (q.step w).1.Fresh w v := by
  rcases q.step_cases w with ⟨roles, rfl, -, h | ⟨gen, h, -⟩⟩ |
    ⟨roles, gen, rfl, -, h | ⟨cached, h, hcached⟩⟩ |
    ⟨roles, gen, cached, rfl, -, h | ⟨perRole, puts, h, hper, hputs⟩⟩ |
    ⟨n, perRole, r, gm, puts, rfl, h, -⟩ | ⟨gen, perRole, puts, rfl, h, -⟩ | ⟨h, -⟩
  all_goals rw [h]
  · -- a failure, or a generation just read, holds no grants
    trivial
  · trivial
  · trivial
  · -- every entry fetched sits under the resolver's generation
    intro p hp gm hgm
    obtain ⟨g, x, fields, rfl, hx, hd, hdec⟩ := hcached p hp gm hgm
    exact hT.cached_current (hgen g rfl) hx hd hdec
  · trivial
  · -- each role's grants were fetched, or loaded just now
    refine ⟨fun p hp => ?_, fun p hp => ?_⟩
    · rcases hper p hp with hc | hc
      · exact hf (p.1, some p.2) hc p.2 rfl
      · exact ⟨_, hT.loaded_db p.1, .inl hc⟩
    · rw [hputs p hp]
      exact hT.loaded_db p.1
  · exact ⟨hf.1, fun p hp => hf.2 p (List.mem_cons_of_mem _ hp)⟩
  · exact hf.1
  · exact hf

/-- Under a generation from `gW` on, or under none, a resolver stays so. -/
theorem step_bound (hT : w.Tracks v gW) {q : Resolver}
    (hgen : ∀ g, q.generation = some g → (gW : Int) ≤ g) :
    ∀ g, (q.step w).1.generation = some g → (gW : Int) ≤ g := by
  intro g hg
  rcases q.step_generation w g hg with h | ⟨-, -, h⟩
  · exact hgen g h
  · exact hT.counter_read h

theorem resolve (hT : w.Tracks v gW) {i : Nat} {q : Resolver} (hq : w.resolvers[i]? = some q) :
    Tracks { w with resolvers := w.resolvers.set i (q.step w).1, kv := (q.step w).2 } v gW := by
  have hqm := List.mem_of_getElem? hq
  have hext := (Moves.resolve hq).extends
  refine ⟨hT.version, ?_, ?_, ?_⟩
  · -- only a put changes the store, and never at a counter
    rcases q.step_kv w with h | ⟨n, perRole, r, gm, puts, -, -, h⟩
    · exact h ▸ hT.counter
    · intro hon
      simp only [h, put_online] at hon ⊢
      obtain ⟨c, hc, hC⟩ := hT.counter hon
      exact ⟨c, hc, (put_counter _ _).2 hC⟩
  · rcases q.step_kv w with h | ⟨n, perRole, r, gm, puts, rfl, -, h⟩
    · intro r g x hg hx
      obtain ⟨gm, hl, hgm⟩ := hT.entries r g x hg (h ▸ hx)
      exact ⟨gm, hl.mono hext, hgm⟩
    · intro r' g x hg hx
      simp only [h] at hx
      by_cases hrg : r' = r ∧ g = n
      · -- the entry just cached, by a resolver under a generation from `gW` on
        obtain ⟨rfl, rfl⟩ := hrg
        have hf := hT.readers _ hqm g rfl hg
        have hl : w.Loaded v r' gm := hf.2 (r', gm) (List.mem_cons_self ..)
        rcases put_read_self (grantKey w.branch r' g) (encodeGrants gm) (.int grantTtl)
          with hput | hput
        · rw [grantEntry, hput, Option.some.injEq] at hx
          exact ⟨gm, hl.mono hext, hx.symm⟩
        · rw [hput] at hx
          obtain ⟨gm', hl', hgm'⟩ := hT.entries r' g x hg hx
          exact ⟨gm', hl'.mono hext, hgm'⟩
      · rw [put_entry_of_ne hrg] at hx
        obtain ⟨gm', hl', hgm'⟩ := hT.entries r' g x hg hx
        exact ⟨gm', hl'.mono hext, hgm'⟩
  · intro q' hq' g hg hgW
    rcases List.mem_or_eq_of_mem_set hq' with hq' | rfl
    · exact (hT.readers q' hq' g hg hgW).mono hext
    · -- the resolver that stepped had this generation already, or just read it
      rcases q.step_generation w g hg with h | ⟨roles, rfl, -⟩
      · have hgen : ∀ g', q.generation = some g' → (gW : Int) ≤ g' := fun g' h' => by
          rw [h, Option.some.injEq] at h'
          exact h' ▸ hgW
        exact (hT.step_fresh hgen (hT.readers q hqm g h hgW)).mono hext
      · exact (hT.step_fresh (q := .idle roles) (fun _ h' => by cases h') trivial).mono hext

/-- Tracking carries over to a world with the same resolvers, more versions, the counter at
`gW` or above, and a store that kept or removed every grant entry. -/
theorem transfer (hT : w.Tracks v gW) {w' : World} (hext : w.Extends w')
    (hlen : w.commits.length ≤ w'.commits.length) (hres : w'.resolvers = w.resolvers)
    (hctr : w'.kv.online = true → ∃ c, gW ≤ c ∧ w'.CounterAt c)
    (hent : ∀ r g, w'.kv.read (grantEntry w.branch r g) = none ∨
      w'.kv.read (grantEntry w.branch r g) = w.kv.read (grantEntry w.branch r g)) :
    w'.Tracks v gW := by
  refine ⟨le_trans hT.version hlen, hctr, fun r g x hg hx => ?_, fun q hq g hg hgW => ?_⟩
  · rw [hext.branch] at hx
    rcases hent r g with h | h
    · rw [h] at hx
      cases hx
    · obtain ⟨gm, hl, hgm⟩ := hT.entries r g x hg (h ▸ hx)
      exact ⟨gm, hl.mono hext, hgm⟩
  · rw [hres] at hq
    exact (hT.readers q hq g hg hgW).mono hext

theorem commit (hT : w.Tracks v gW) {j : Nat} {change : Db → Db} {how : Retirement}
    (hj : w.writers[j]? = some (.ready change how)) :
    Tracks { w with commits := w.commits ++ [change w.db],
                    writers := w.writers.set j (.retiring (w.commits.length + 1) how.sweeps) }
      v gW :=
  hT.transfer (Moves.commit hj).extends (by simp) rfl hT.counter fun _ _ => .inr rfl

theorem finish (hT : w.Tracks v gW) {j v' : Nat} (hj : w.writers[j]? = some (.retiring v' [])) :
    Tracks { w with writers := w.writers.set j (.finished v') } v gW :=
  hT.transfer (Moves.finish hj).extends le_rfl rfl hT.counter fun _ _ => .inr rfl

theorem sweep (hT : w.Tracks v gW) {j v' : Nat} {x : Sweep} {rest : List Sweep}
    {r : Result Unit} {kv : Kv} (hx : x.Spares)
    (hj : w.writers[j]? = some (.retiring v' (x :: rest)))
    (hp : w.perform (Txn.sweep x) = (r, kv)) :
    Tracks { w with kv, writers := w.writers.set j (Writer.afterSweep v' rest r) } v gW := by
  have hext := (Moves.sweep hj hp).extends
  have hdone := w.perform_sweep x
  rw [hp] at hdone
  cases r with
  | error e =>
    subst hdone
    exact hT.transfer hext le_rfl rfl hT.counter fun _ _ => .inr rfl
  | ok u =>
    obtain ⟨hent, hctr, hon⟩ := hdone.spares hx w.branch
    refine hT.transfer hext le_rfl rfl (fun hon' => ?_) hent
    obtain ⟨c, hc, hC⟩ := hT.counter (hon ▸ hon')
    rcases hctr with hctr | ⟨r', hr'⟩
    · exact ⟨c, hc, (hctr c).2 hC⟩
    · -- another bump of the branch's counter only raises it
      rcases Cache.incr_at hC hr' with ⟨-, rfl⟩ | ⟨-, rfl⟩
      · exact ⟨c, hc, hC⟩
      · exact ⟨c + 1, by omega, .inr (Kv.read_write_self _ _ _ _)⟩

end Tracks

/-- Every step keeps tracking. -/
theorem Tracks.step {w : World} {v gW c : Nat} (hs : w.Sound c) (hT : w.Tracks v gW)
    (p : Party) : (w.step p).Tracks v gW := by
  have hm := w.step_moves p
  generalize w.step p = w' at hm ⊢
  cases hm with
  | stay => exact hT
  | resolve hq => exact hT.resolve hq
  | commit hj => exact hT.commit hj
  | sweep hj hp =>
    exact hT.sweep (hs.sweeps _ (List.mem_of_getElem? hj) _ (List.mem_cons_self ..)) hj hp
  | finish hj => exact hT.finish hj

theorem Tracks.run {w : World} {v gW c : Nat} (hs : w.Sound c) (hT : w.Tracks v gW) :
    ∀ sched, (w.run sched).Tracks v gW
  | [] => hT
  | p :: sched => by
    obtain ⟨c', -, hs'⟩ := hs.step p
    exact Tracks.run hs' (hT.step hs p) sched

/-- Resolver `i` works under a generation from `gW` on, or under none, and holds only grants of
version `v` or later. -/
def Follows (w : World) (v gW i : Nat) : Prop :=
  ∃ q, w.resolvers[i]? = some q ∧ (∀ g, q.generation = some g → (gW : Int) ≤ g) ∧ q.Fresh w v

theorem Follows.step {w : World} {v gW i : Nat} (hT : w.Tracks v gW) (hF : w.Follows v gW i)
    (p : Party) : (w.step p).Follows v gW i := by
  obtain ⟨q, hq, hgen, hf⟩ := hF
  have hm := w.step_moves p
  have hext := hm.extends
  generalize w.step p = w' at hm hext ⊢
  cases hm
  case resolve i' q' hq' =>
    by_cases hi : i' = i
    · -- resolver `i` itself took the step
      subst hi
      rw [hq, Option.some.injEq] at hq'
      subst hq'
      obtain ⟨hlt, -⟩ := List.getElem?_eq_some_iff.1 hq
      exact ⟨(q.step w).1, List.getElem?_set_self hlt, hT.step_bound hgen,
        (hT.step_fresh hgen hf).mono hext⟩
    · exact ⟨q, (List.getElem?_set_ne hi).trans hq, hgen, hf.mono hext⟩
  all_goals exact ⟨q, hq, hgen, hf.mono hext⟩

theorem Follows.run {w : World} {v gW i c : Nat} (hs : w.Sound c) (hT : w.Tracks v gW)
    (hF : w.Follows v gW i) : ∀ sched, (w.run sched).Follows v gW i
  | [] => hF
  | p :: sched => by
    obtain ⟨c', -, hs'⟩ := hs.step p
    exact Follows.run hs' (hT.step hs p) (hF.step hT p) sched

theorem step_writer_sweep {w : World} {j v : Nat} {x : Sweep} {rest : List Sweep}
    {r : Result Unit} {kv : Kv} (hj : w.writers[j]? = some (.retiring v (x :: rest)))
    (hp : w.perform (Txn.sweep x) = (r, kv)) :
    w.step (.writer j) = { w with kv, writers := w.writers.set j (Writer.afterSweep v rest r) } := by
  simp only [step, hj, hp]

/-- A writer's successful bump of the branch's counter from `c` starts tracking, with
`gW = c + 1`: nothing in the store or in a resolver is under a generation that high yet. -/
theorem Sound.tracks_bump {w : World} {c j v : Nat} {ws : List Sweep} (hs : w.Sound c)
    (hj : w.writers[j]? = some (.retiring v (.bump (generationKey w.branch) :: ws)))
    (hok : (w.step (.writer j)).writers[j]? = some (.retiring v ws)) :
    (w.step (.writer j)).Tracks v (c + 1) := by
  rcases hp : w.perform (Txn.sweep (.bump (generationKey w.branch))) with ⟨r, kv⟩
  rw [step_writer_sweep hj hp] at hok ⊢
  obtain ⟨hlt, -⟩ := List.getElem?_eq_some_iff.1 hj
  rw [List.getElem?_set_self hlt, Option.some.injEq] at hok
  cases r with
  | error e => cases hok
  | ok u =>
    have hdone := w.perform_sweep (.bump (generationKey w.branch))
    rw [hp] at hdone
    obtain ⟨r', hr'⟩ := hdone
    refine ⟨hs.versions _ (List.mem_of_getElem? hj), ?_, fun r g x hg hx => ?_,
      fun q hq g hg hgW => ?_⟩
    · intro hon
      rcases Cache.incr_at hs.counter hr' with ⟨hoff, rfl⟩ | ⟨-, rfl⟩
      · simp only [hoff] at hon
        cases hon
      · exact ⟨c + 1, le_rfl, .inr (Kv.read_write_self _ _ _ _)⟩
    · -- the bump leaves the entries, all under generations up to `c`
      simp only at hx
      rw [grantEntry, incr_read_of_ne (grantKey_ne_generationKey _ _ r g) hr'] at hx
      have := hs.entries r g x hx
      omega
    · have := hs.readers q hq g hg
      omega

/-- A resolver that starts after a writer's bump of the branch's counter hands out, for every
role, the grants of the writer's commit or of a later database, and works under a generation
above every generation in use at the bump: it never reads an entry cached before the bump, nor
one that a resolver already under way at the bump caches later. -/
theorem fresh_after_bump {w : World} (hw : w.Start) {pre mid post : List Party}
    {i j v : Nat} {ws : List Sweep} {roles : List Int} {gen : Option Int}
    {perRole : List (Int × GrantMap)}
    (hbump : (w.run pre).writers[j]? = some (.retiring v (.bump (generationKey w.branch) :: ws)))
    (hdone : (w.run (pre ++ [.writer j])).writers[j]? = some (.retiring v ws))
    (hidle : (w.run (pre ++ .writer j :: mid)).resolvers[i]? = some (.idle roles))
    (hans : (w.run (pre ++ .writer j :: mid ++ post)).resolvers[i]? = some (.done gen perRole)) :
    (∀ p ∈ perRole, (w.run (pre ++ .writer j :: mid ++ post)).Current v p.1 p.2) ∧
    ∀ n, gen = some n →
      (∀ r g x, (w.run pre).kv.read (grantEntry w.branch r g) = some x → g < n) ∧
      ∀ q ∈ (w.run pre).resolvers, ∀ g, q.generation = some g → g < n := by
  obtain ⟨c₀, hs₀⟩ := hw.sound
  obtain ⟨c, -, hs⟩ := hs₀.run pre
  rw [← run_branch w pre] at hbump ⊢
  rw [run_append, run_cons, run_nil] at hdone
  rw [run_append, run_cons] at hidle
  rw [run_append, run_append, run_cons] at hans ⊢
  -- the bump starts tracking, and tracking lasts until resolver `i` starts
  have hT₁ := hs.tracks_bump hbump hdone
  obtain ⟨c₁, -, hs₁⟩ := hs.step (.writer j)
  have hT₂ := hT₁.run hs₁ mid
  obtain ⟨c₂, -, hs₂⟩ := hs₁.run mid
  -- from its start to its answer, resolver `i` follows the bump
  have hF₂ : (((w.run pre).step (.writer j)).run mid).Follows v (c + 1) i :=
    ⟨.idle roles, hidle, fun _ h => (by cases h), trivial⟩
  obtain ⟨q, hq, hgen, hf⟩ := hF₂.run hs₂ hT₂ post
  rw [hans, Option.some.injEq] at hq
  subst hq
  refine ⟨hf, fun n hn => ⟨fun r g x hx => ?_, fun q hq g hg => ?_⟩⟩
  · have := hs.entries r g x hx
    have := hgen n hn
    omega
  · have := hs.readers q hq g hg
    have := hgen n hn
    omega

/-- Role 1 sees status 1 of branch 1. -/
def viewGrant : Row :=
  ⟨1, [("branch_id", .int 1), ("role_id", .int 1), ("status_id", .int 1), ("can_view", .int 1)]⟩

/-- A branch whose grants for role 1 were cached under generation 0, with the counter not yet
set; one writer revokes every grant and retires the branch, and one resolver of role 1. -/
def staleCache : World where
  branch := .int 1
  base := { grants := [viewGrant] }
  commits := []
  kv := (Cache.put {} (.str (grantKey (.int 1) 1 0)) (encodeGrants [(1, [.str "can_view"])])
    (.int grantTtl)).2
  resolvers := [.idle [1]]
  writers := [.ready (fun db => { db with grants := [] }) (.branch (.int 1))]

/-- With the store up and a stale entry cached under generation 0, a resolver that starts after
the writer's bump reads generation 1, misses, loads the database after the revocation and
returns no grants for role 1: the stale entry is never read. -/
theorem staleCache_fresh_after_bump :
    staleCache.Start ∧
      (∃ x, staleCache.kv.read (grantEntry staleCache.branch 1 0) = some x) ∧
      (staleCache.run ([.writer 0] ++ .writer 0 :: [] ++
        [.resolver 0, .resolver 0, .resolver 0, .resolver 0, .resolver 0])).resolvers[0]? =
          some (.done (some 1) [(1, [])]) ∧
      (staleCache.run ([.writer 0] ++ .writer 0 :: [] ++
        [.resolver 0, .resolver 0, .resolver 0, .resolver 0, .resolver 0])).Current 1 1 [] ∧
      ∀ r g x, (staleCache.run [.writer 0]).kv.read (grantEntry staleCache.branch r g) = some x →
        g < 1 := by
  -- the one entry cached is under generation 0, and the counter is not set
  have hentries : ∀ r g x, staleCache.kv.read (grantEntry staleCache.branch r g) = some x →
      g ≤ 0 := by
    intro r g x hx
    by_cases hrg : r = 1 ∧ g = 0
    · exact hrg.2.le
    · rw [staleCache, put_entry_of_ne hrg] at hx
      simp [Kv.read] at hx
  have hw : staleCache.Start :=
    ⟨by simp [staleCache], by simp [staleCache],
      ⟨0, (put_counter _ _).2 (.inl ⟨rfl, rfl⟩), hentries⟩⟩
  -- the writer commits and bumps; the resolver then runs to its answer
  have hbump : (staleCache.run [.writer 0]).writers[0]? =
      some (.retiring 1
        (.bump (generationKey staleCache.branch) :: [.drop "status_permissions:1:*"])) := rfl
  have hdone : (staleCache.run ([.writer 0] ++ [.writer 0])).writers[0]? =
      some (.retiring 1 [.drop "status_permissions:1:*"]) := rfl
  have hidle : (staleCache.run ([.writer 0] ++ .writer 0 :: [])).resolvers[0]? =
      some (.idle [1]) := rfl
  have hans : (staleCache.run ([.writer 0] ++ .writer 0 :: [] ++
      [.resolver 0, .resolver 0, .resolver 0, .resolver 0, .resolver 0])).resolvers[0]? =
        some (.done (some 1) [(1, [])]) := rfl
  have hfresh := fresh_after_bump hw hbump hdone hidle hans
  exact ⟨hw, ⟨_, rfl⟩, hans, hfresh.1 (1, []) (List.mem_singleton_self _), (hfresh.2 1 rfl).1⟩

end World

end GrantCache

end RepairShop

