import Mathlib
import RepairShop.Proofs.CatalogWalk
import RepairShop.Proofs.GrantWrites

/- Loading the parent links ends, and loads exactly the categories it reaches.

   `Orders.parentLinks` loads the parent links of the submitted categories and of their
   ancestors, one level per round and one catalogue query per round, until its frontier is
   empty; the validation hands it fuel for one round per category and one more. The loop is
   taken here without that fuel (`Catalog.Rounds`: the rounds it makes until the frontier is
   empty). For a catalogue as the database holds it (`Catalog.Stored`), whatever its parent
   links (cycles, self-loops, dangling or inactive parents), and submitted 64-bit keys, this file
   proves

   1. that the loop ends, after at most one round per open, active category and one more, so
      that the fuel never cuts it short (`Catalog.Rounds.parentLinks`, `Catalog.rounds_run`);
   2. that the map it ends with has one entry per category reached from the submitted keys
      along parent links through open, active categories, that category's own link, and
      nothing else (`Catalog.Within`, `Catalog.loaded_exactly`);
   3. that a submitted key beyond 64 bits is handed to the database in the first round, where
      it fails as too large (`Catalog.parentLinks_too_large`). -/

namespace RepairShop

open Store Json

namespace Catalog

/-! ## The loop, without fuel -/

/-- The loading loop run to its end: from a frontier and a map, `n` rounds, one catalogue query
each, lead to the final map and session. The loop stops when the frontier is empty. -/
inductive Rounds : List Value → ParentMap Value → Session → Nat → ParentMap Value → Session →
    Prop
  | done (known : ParentMap Value) (s : Session) : Rounds [] known s 0 known s
  | round {v : Value} {vs next : List Value} {known known' M : ParentMap Value}
      {s s' s'' : Session} {n : Nat} :
      Orders.parentRound (v :: vs) known s = .ok (known', next) s' →
      Rounds next known' s' n M s'' → Rounds (v :: vs) known s (n + 1) M s''

namespace Rounds

variable {F : List Value} {K M : ParentMap Value} {s s' : Session} {n : Nat}

/-- Fuel for as many rounds as the loop makes runs it to its end. -/
theorem parentLinks (h : Rounds F K s n M s') :
    ∀ fuel, n ≤ fuel → Orders.parentLinks fuel F K s = .ok M s' := by
  induction h with
  | done known s =>
    intro fuel _
    cases fuel <;> rfl
  | round hrun _ ih =>
    intro fuel hfuel
    obtain ⟨fuel, rfl⟩ : ∃ f, fuel = f + 1 := ⟨fuel - 1, by omega⟩
    simp only [Orders.parentLinks, List.isEmpty_cons, Bool.false_eq_true, if_false]
    rw [Txn.bind_of_ok hrun]
    exact ih fuel (by omega)

/-- The loop is deterministic: it makes one number of rounds and ends in one map. -/
theorem det {M' : ParentMap Value} {s'' : Session} {n' : Nat} (h : Rounds F K s n M s')
    (h' : Rounds F K s n' M' s'') : n = n' ∧ M = M' ∧ s' = s'' := by
  induction h generalizing n' with
  | done => cases h' with
    | done => exact ⟨rfl, rfl, rfl⟩
  | round hrun _ ih =>
    cases h' with
    | round hrun' hrest' =>
      rw [hrun] at hrun'
      cases hrun'
      obtain ⟨rfl, rfl, rfl⟩ := ih hrest'
      exact ⟨rfl, rfl, rfl⟩

end Rounds

/-! ## What the loading reaches -/

/-- The categories reached from the start keys: those on the chain of one of them. -/
def Reached (db : Db) (starts : List Int) (r : Row) : Prop :=
  ∃ c ∈ starts, ∃ k, chainAt db c k = some r

/-- What a loading holds beside `Loading`: the map has one entry per key, each the link of a
reached category, and every key of the frontier is a start key or the parent key of a reached
category. -/
structure Within (db : Db) (starts : List Int) (frontier : List Value)
    (known : ParentMap Value) : Prop where
  reached : ∀ e ∈ known, ∃ r, Reached db starts r ∧ e = link r
  keys : (known.map Prod.fst).Nodup
  named : ∀ v ∈ frontier, ∃ x, v = .int x ∧
    (x ∈ starts ∨ ∃ r, Reached db starts r ∧ parentKey r = some x)

/-- The first frontier names the start keys only, and the map is empty. -/
theorem Within.start {db : Db} (starts : List Int) :
    Within db starts (Access.distinctValues (starts.map .int)) [] := by
  obtain ⟨-, hkept, -⟩ := distinctValues_spec (starts.map .int) [] _ rfl
  refine ⟨by simp, List.nodup_nil, fun v hv => ?_⟩
  rcases hkept v hv with h | h
  · simp at h
  · obtain ⟨c, hc, rfl⟩ := List.mem_map.1 h
    exact ⟨c, rfl, Or.inl hc⟩

section

variable {db : Db} (hs : Stored db) {starts : List Int}
include hs

theorem Reached.mem {r : Row} (h : Reached db starts r) : r ∈ db.problems ∧ Live r = true := by
  obtain ⟨_, _, _, hk⟩ := h
  exact chainAt_mem hs hk

/-- An open, active category named by a start key, or by the parent link of a reached category,
is reached: the start of a chain, or the step after a category on it. -/
theorem reached_of_named {x : Int} {r : Row} (hr : r ∈ db.problems) (hlive : Live r = true)
    (hid : r.id = x) (hx : x ∈ starts ∨ ∃ a, Reached db starts a ∧ parentKey a = some x) :
    Reached db starts r := by
  have hrow : liveRow db x = some r := (liveRow_eq_some hs).2 ⟨hr, hid, hlive⟩
  rcases hx with hx | ⟨a, ⟨c, hc, k, ha⟩, hp⟩
  · exact ⟨x, hx, 0, hrow⟩
  · exact ⟨c, hc, k + 1, by simp [chainAt, ha, hp, hrow]⟩

namespace Within

variable {frontier : List Value} {known : ParentMap Value}

/-- A category a round finds is reached. -/
theorem roundRow_reached (hW : Within db starts frontier known) {r : Row}
    (hr : r ∈ roundRows db frontier) : Reached db starts r := by
  obtain ⟨hmem, hname, hlive⟩ := mem_roundRows.1 hr
  obtain ⟨v, hv, hsame⟩ := List.any_eq_true.1 hname
  obtain ⟨x, rfl, hx⟩ := hW.named v hv
  have hid : r.id = x := by simpa [Json.Value.sameMember_int] using hsame
  exact reached_of_named hs hmem hlive hid hx

/-- A round appends one key per category it finds, none of them a key the map had. -/
theorem keys_round (hL : Loading db starts frontier known) (hW : Within db starts frontier known) :
    ((known ++ (roundRows db frontier).map link).map Prod.fst).Nodup := by
  have hids : ((roundRows db frontier).map Row.id).Nodup :=
    hs.keys.sublist (List.filter_sublist.map Row.id)
  have hnew : ((roundRows db frontier).map link).map Prod.fst =
      ((roundRows db frontier).map Row.id).map Value.int := by
    simp [link]
  rw [List.map_append, List.nodup_append, hnew]
  refine ⟨hW.keys, hids.map fun _ _ h => Value.int.inj h, fun a ha b hb hab => ?_⟩
  -- an old key equal to a new one would make the round's category one the map finds
  obtain ⟨e, he, rfl⟩ := List.mem_map.1 ha
  obtain ⟨r', hr', rfl⟩ := hW.reached e he
  obtain ⟨y, hy, rfl⟩ := List.mem_map.1 hb
  obtain ⟨r, hr, rfl⟩ := List.mem_map.1 hy
  have hid : r'.id = r.id := Value.int.inj hab
  have hfound := parentOf_link hs hL.describes (hr'.mem hs).1 he
  rw [hid, hL.fresh_row hr] at hfound
  cases hfound

/-- A round keeps the invariant: it appends links of reached categories, and its next frontier
holds parent keys of the categories it found. -/
theorem round (hL : Loading db starts frontier known) (hW : Within db starts frontier known)
    {next : List Value}
    (hnext : ∀ q ∈ next, ∃ r ∈ roundRows db frontier, (parentKey r).map .int = some q) :
    Within db starts next (known ++ (roundRows db frontier).map link) := by
  refine ⟨fun e he => ?_, hW.keys_round hs hL, fun q hq => ?_⟩
  · rcases List.mem_append.1 he with he | he
    · exact hW.reached e he
    · obtain ⟨r, hr, rfl⟩ := List.mem_map.1 he
      exact ⟨r, hW.roundRow_reached hs hr, rfl⟩
  · obtain ⟨r, hr, hq⟩ := hnext q hq
    obtain ⟨p, hp, rfl⟩ := Option.map_eq_some_iff.1 hq
    exact ⟨p, rfl, Or.inr ⟨r, hW.roundRow_reached hs hr, hp⟩⟩

end Within

/-- Once the frontier is empty, the map is exactly the links of the reached categories, one
entry per key: `Within` gives that nothing else is loaded, `Loading` that nothing is missed. -/
theorem loaded_exactly {M : ParentMap Value} (hL : Loading db starts [] M)
    (hW : Within db starts [] M) :
    (∀ e, e ∈ M ↔ ∃ r, Reached db starts r ∧ e = link r) ∧ (M.map Prod.fst).Nodup := by
  refine ⟨fun e => ⟨hW.reached e, ?_⟩, hW.keys⟩
  rintro ⟨r, ⟨c, hc, k, hk⟩, rfl⟩
  exact hL.covers hs c hc k r hk

end

/-! ## The loop ends -/

/-- From any state of the two invariants the loop ends, after at most one round per pending
category and one more, with both invariants and an empty frontier; nothing in the session
changes. Induction on a bound of the pending categories: a round either empties the frontier or
loads a pending category. -/
theorem rounds_run {s : Session} {starts : List Int} (hs : Stored s.db) :
    ∀ (b : Nat) (F : List Value) (K : ParentMap Value), pending s.db K < b →
      Loading s.db starts F K → Within s.db starts F K →
      ∃ n M, Rounds F K s n M s ∧ n ≤ pending s.db K + 1 ∧
        Loading s.db starts [] M ∧ Within s.db starts [] M
  | 0, _, _, hb, _, _ => absurd hb (Nat.not_lt_zero _)
  | _ + 1, [], K, _, hL, hW => ⟨0, K, .done K s, Nat.zero_le _, hL, hW⟩
  | b + 1, v :: vs, K, hb, hL, hW => by
    obtain ⟨next, hrun, hnext, hcover⟩ := parentRound_spec hs hL
    obtain ⟨hL', hprog⟩ := Loading.round hs hL hnext hcover
    have hW' := hW.round hs hL fun q hq => (hnext q hq).1
    rcases hprog with rfl | hlt
    · exact ⟨1, _, .round hrun (.done _ s), by omega, hL', hW'⟩
    · obtain ⟨n, M, hrounds, hn, hLM, hWM⟩ := rounds_run hs b next _ (by omega) hL' hW'
      exact ⟨n + 1, M, .round hrun hrounds, by omega, hLM, hWM⟩

/-- A submitted key beyond 64 bits is handed to the database in the first round, where it fails
as too large: the loading fails whatever fuel it is given, and changes nothing. -/
theorem parentLinks_too_large {s : Session} {starts : List Int}
    (hbig : ∃ c ∈ starts, fitsInt64 c = false) (fuel : Nat) :
    Orders.parentLinks (fuel + 1) (Access.distinctValues (starts.map .int)) [] s =
      .error (.fault .tooLargeForStore) s := by
  obtain ⟨c, hc, hfit⟩ := hbig
  obtain ⟨-, hkept, hgiven⟩ :=
    distinctValues_spec (starts.map .int) [] (Access.distinctValues (starts.map .int)) rfl
  -- the frontier is a list of integers, among them the one too large
  obtain ⟨ys, hys⟩ : Access.distinctValues (starts.map .int) ∈ Set.range (List.map Value.int) := by
    rw [Set.range_list_map]
    intro v hv
    rcases hkept v hv with h | h
    · simp at h
    · obtain ⟨x, -, rfl⟩ := List.mem_map.1 h
      exact ⟨x, rfl⟩
  rw [← hys] at hgiven ⊢
  have hmem : c ∈ ys := by
    rcases hgiven _ (List.mem_map_of_mem hc) with h | h
    · obtain ⟨w, hw, hsame⟩ := List.any_eq_true.1 h
      obtain ⟨x, hx, rfl⟩ := List.mem_map.1 hw
      rwa [show c = x by simpa [Json.Value.sameMember_int] using hsame]
    · obtain ⟨x, hx, hxc⟩ := List.mem_map.1 h
      rwa [← Value.int.inj hxc]
  obtain ⟨y, ys', rfl⟩ := List.exists_cons_of_ne_nil (List.ne_nil_of_mem hmem)
  have hround : Orders.parentRound ((y :: ys').map .int) [] s =
      .error (.fault .tooLargeForStore) s :=
    Txn.bind_of_fail (Txn.params_too_large_run ⟨c, hmem, hfit⟩)
  simp only [Orders.parentLinks, List.map_cons, List.isEmpty_cons, Bool.false_eq_true, if_false]
  exact Txn.bind_of_fail hround

/-- Loading the parent links of submitted 64-bit keys ends, after at most one catalogue query per
open, active category and one more, and loads exactly the map from each category reached from
the submitted keys, along parent links through open, active categories only, to its parent
link: one entry per category, the links of no other categories. The loop is deterministic, the
fuel the validation gives it never cuts it short, and nothing in the session changes. -/
theorem parentLinks_ends_exactly {s : Session} (hs : Stored s.db) {starts : List Int}
    (hfit : ∀ c ∈ starts, fitsInt64 c = true) :
    ∃ n M, Rounds (Access.distinctValues (starts.map .int)) [] s n M s ∧
      n ≤ s.db.problems.countP Live + 1 ∧
      (∀ n' M' s', Rounds (Access.distinctValues (starts.map .int)) [] s n' M' s' →
        n' = n ∧ M' = M ∧ s' = s) ∧
      (∀ e, e ∈ M ↔ ∃ r, Reached s.db starts r ∧ e = link r) ∧ (M.map Prod.fst).Nodup ∧
      ∀ fuel, n ≤ fuel →
        Orders.parentLinks fuel (Access.distinctValues (starts.map .int)) [] s = .ok M s := by
  have hpending : pending s.db [] = s.db.problems.countP Live := by
    simp [pending, parentOf?]
  obtain ⟨n, M, hrounds, hn, hL, hW⟩ :=
    rounds_run hs _ _ [] (Nat.lt_succ_self _) (Loading.start hs hfit) (Within.start starts)
  obtain ⟨hmem, hkeys⟩ := loaded_exactly hs hL hW
  refine ⟨n, M, hrounds, hpending ▸ hn, fun n' M' s' h' => ?_, hmem, hkeys,
    hrounds.parentLinks⟩
  obtain ⟨rfl, rfl, rfl⟩ := hrounds.det h'
  exact ⟨rfl, rfl, rfl⟩

/-- Categories 1 and 2 are each other's parent, 3 sits under 1, 4 is its own parent, and 5 sits
under the inactive 6. -/
def tangledCatalogue : Db :=
  { problems := [
      ⟨1, [("parent_id", .int 2), ("status", .text "Open"), ("is_active", .int 1)]⟩,
      ⟨2, [("parent_id", .int 1), ("status", .text "Open"), ("is_active", .int 1)]⟩,
      ⟨3, [("parent_id", .int 1), ("status", .text "Open"), ("is_active", .int 1)]⟩,
      ⟨4, [("parent_id", .int 4), ("status", .text "Open"), ("is_active", .int 1)]⟩,
      ⟨5, [("parent_id", .int 6), ("status", .text "Open"), ("is_active", .int 1)]⟩,
      ⟨6, [("status", .text "Open"), ("is_active", .int 0)]⟩] }

theorem tangledCatalogue_stored : Stored tangledCatalogue where
  keys := by decide
  parents r hr := by
    simp only [tangledCatalogue, List.mem_cons, List.not_mem_nil, or_false] at hr
    rcases hr with rfl | rfl | rfl | rfl | rfl | rfl
    all_goals first
      | exact Or.inl rfl
      | exact Or.inr ⟨_, rfl, rfl⟩
  mapped m hm := by simp [tangledCatalogue] at hm
  assigned a ha := by simp [tangledCatalogue] at ha

/-- From categories 3 and 5 the loading ends within the six rounds that the five open, active
categories allow; it loads 2, reached only around the cycle, and 5 with its inactive parent. -/
theorem tangled_loading_ends :
    ∃ n M, Rounds (Access.distinctValues (([3, 5] : List Int).map .int)) []
        { db := tangledCatalogue, kv := {} } n M { db := tangledCatalogue, kv := {} } ∧ n ≤ 6 ∧
      (Value.int 2, some (Value.int 1)) ∈ M ∧ (Value.int 5, some (Value.int 6)) ∈ M ∧
      Orders.parentLinks (tangledCatalogue.problems.length + 1)
          (Access.distinctValues (([3, 5] : List Int).map .int)) []
          { db := tangledCatalogue, kv := {} } =
        .ok M { db := tangledCatalogue, kv := {} } := by
  have hs : Stored ({ db := tangledCatalogue, kv := {} } : Session).db := tangledCatalogue_stored
  have hfit : ∀ c ∈ ([3, 5] : List Int), fitsInt64 c = true := by decide
  obtain ⟨n, M, hrounds, hn, -, hmem, -, hfuel⟩ := parentLinks_ends_exactly hs hfit
  have hcount : tangledCatalogue.problems.countP Live = 5 := by decide
  refine ⟨n, M, hrounds, by simp only [hcount] at hn; omega, (hmem _).2 ?_, (hmem _).2 ?_,
    hfuel _ (by simp only [hcount] at hn; simp [tangledCatalogue]; omega)⟩
  · exact ⟨_, ⟨3, by simp, 2, rfl⟩, rfl⟩
  · exact ⟨_, ⟨5, by simp, 0, rfl⟩, rfl⟩

/-- A key one above the largest 64-bit integer, submitted with category 2, is handed to the
database in the first round and fails there as too large, where loading the links of 2 and 1
and leaving the key without an entry was expected. -/
theorem huge_key_fails_loading :
    Orders.parentLinks (tangledCatalogue.problems.length + 1)
        (Access.distinctValues (([2, 9223372036854775809] : List Int).map .int)) []
        { db := tangledCatalogue, kv := {} } =
      .error (.fault .tooLargeForStore) { db := tangledCatalogue, kv := {} } :=
  parentLinks_too_large ⟨9223372036854775809, by simp, by decide⟩ _

end Catalog

end RepairShop
