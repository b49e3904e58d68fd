import Mathlib
import RepairShop.Access.Assign
import RepairShop.Proofs.IntegerFields

/- Keys and counters of the cache store.

   The generation protocol of cached grants rests on a few facts about the key/value
   server and the keys the services write into it. A text key is matched by itself only,
   so a write or a delete of one text key leaves every other text key as it was; deleting by
   a pattern removes only keys that match it. A counter written by incrementing holds the
   numeral of a count, and reads back as that count. A grant entry's key names its role and
   generation, is never a generation counter's key, and no pattern that sweeps grant entries
   reaches a counter.

   This file proves

   1. `Cache.Kv.read_write_self`, `Cache.Kv.read_write_of_ne`: a write changes one key;
   2. `Cache.Kv.read_remove`, `Cache.deleteMatching_read`: a delete empties keys, and
      deleting by a pattern keeps every key the pattern does not match;
   3. `Text.readNumeral_repr`, `Int.toString_inj`: numerals of counts read back;
   4. `Cache.counter_at`, `Cache.incr_at`: reading and incrementing a counter the store
      holds as `CounterAt`;
   5. `Access.grantKey_inj`, `Access.grantKey_ne_generationKey`,
      `Access.generationKey_unswept`: the keys of cached grants. -/

namespace RepairShop

open Json Cache Text

/-! ## Text keys match themselves only -/

theorem Json.Value.sameMember_str {v : Value} {s : String} :
    v.sameMember (.str s) = true ↔ v = .str s := by
  cases v <;> simp [Value.sameMember, Value.same, Value.isNaN, Value.num?]

theorem Json.Value.str_sameMember {v : Value} {s : String} :
    (Value.str s).sameMember v = true ↔ v = .str s := by
  cases v with
  | str b => simp [Value.sameMember, Value.same, Value.isNaN]; exact eq_comm
  | _ => simp [Value.sameMember, Value.same, Value.isNaN, Value.num?]

/-! ## Reads after writes and deletes -/

namespace Cache.Kv

/-- A write rewrites the entries of its key in place, so the first entry of any text key is
found where it was. -/
theorem find?_write (es : List Entry) (k k' : String) (v : Value) (ttl : Option Value) :
    (es.map fun e => if e.key.sameMember (.str k) then
        { e with stored := v, ttl := ttl.orElse fun _ => e.ttl } else e).find?
      (·.key.sameMember (.str k')) =
      (es.find? (·.key.sameMember (.str k'))).map fun e => if e.key.sameMember (.str k) then
        { e with stored := v, ttl := ttl.orElse fun _ => e.ttl } else e := by
  rw [List.find?_map]
  congr 1
  congr 1
  funext e
  simp only [Function.comp_apply]
  split <;> rfl

theorem read_write_self (kv : Kv) (k : String) (v : Value) (ttl : Option Value) :
    (kv.write (.str k) v ttl).read (.str k) = some v := by
  unfold write read
  split
  · rename_i hany
    obtain ⟨e, he, hk⟩ := List.any_eq_true.1 hany
    rw [find?_write]
    cases hf : kv.entries.find? (·.key.sameMember (.str k)) with
    | none => simp [List.find?_eq_none] at hf; exact absurd hk (by simpa using hf e he)
    | some e' =>
      have : e'.key.sameMember (.str k) = true := by simpa using List.find?_some hf
      simp [this]
  · rename_i hany
    have hnone : kv.entries.find? (·.key.sameMember (.str k)) = none := by simpa using hany
    simp [List.find?_append, hnone, Value.str_sameMember]

theorem read_write_of_ne (kv : Kv) {k k' : String} (h : k' ≠ k) (v : Value) (ttl : Option Value) :
    (kv.write (.str k) v ttl).read (.str k') = kv.read (.str k') := by
  unfold write read
  split
  · rw [find?_write]
    cases hf : kv.entries.find? (·.key.sameMember (.str k')) with
    | none => rfl
    | some e' =>
      have hk' : e'.key = .str k' := Value.sameMember_str.1 (by simpa using List.find?_some hf)
      -- the entry found for `k'` is not one the write rewrote
      have : e'.key.sameMember (.str k) = false := by
        rw [hk']
        exact Bool.eq_false_iff.2 fun hs => h (by simpa using Value.sameMember_str.1 hs)
      simp [this]
  · simp [List.find?_append, Value.str_sameMember, h]

@[simp] theorem write_online (kv : Kv) (k v : Value) (ttl : Option Value) :
    (kv.write k v ttl).online = kv.online := by
  unfold write
  split <;> rfl

theorem read_filter_of_ne (kv : Kv) {k : Value} {s : String} (h : k ≠ .str s) :
    ({ kv with entries := kv.entries.filter (!·.key.sameMember k) } : Kv).read (.str s) =
      kv.read (.str s) := by
  unfold read
  rw [List.find?_filter]
  congr 1
  congr 1
  funext e
  by_cases he : e.key.sameMember (.str s) = true
  · have hk : e.key.sameMember k = false := by
      rw [Value.sameMember_str.1 he]
      exact Bool.eq_false_iff.2 fun h' => h (Value.str_sameMember.1 h')
    simp [he, hk]
  · simp [he]

theorem read_filter_self (kv : Kv) (s : String) :
    ({ kv with entries := kv.entries.filter (!·.key.sameMember (.str s)) } : Kv).read (.str s) =
      none := by
  simp [read, List.find?_filter]

/-- Removing keys empties a text key or leaves it as it was. -/
theorem read_remove (kv : Kv) (s : String) (ks : List Value) :
    (kv.remove ks).2.read (.str s) = none ∨ (kv.remove ks).2.read (.str s) = kv.read (.str s) := by
  induction ks generalizing kv with
  | nil => exact .inr rfl
  | cons k ks ih =>
    simp only [remove]
    by_cases hk : k = .str s
    · subst hk
      rcases ih { kv with entries := kv.entries.filter (!·.key.sameMember (.str s)) } with h | h
      · exact .inl h
      · exact .inl (h.trans (read_filter_self kv s))
    · rcases ih { kv with entries := kv.entries.filter (!·.key.sameMember k) } with h | h
      · exact .inl h
      · exact .inr (h.trans (read_filter_of_ne kv hk))

theorem read_remove_of_ne (kv : Kv) (s : String) (ks : List Value) (h : ∀ k ∈ ks, k ≠ .str s) :
    (kv.remove ks).2.read (.str s) = kv.read (.str s) := by
  induction ks generalizing kv with
  | nil => rfl
  | cons k ks ih =>
    simp only [remove]
    rw [ih _ fun k' hk' => h k' (List.mem_cons_of_mem _ hk')]
    exact read_filter_of_ne kv (h k (List.mem_cons_self ..))

@[simp] theorem remove_online (kv : Kv) (ks : List Value) : (kv.remove ks).2.online = kv.online := by
  induction ks generalizing kv with
  | nil => rfl
  | cons k ks ih => simp only [remove, ih]

end Cache.Kv

/-- What a filter keeps, each of its passes promised. -/
theorem Result.filterMapM_mem {α β : Type} {f : α → Result (Option β)} {P : β → Prop}
    (hf : ∀ x y, f x = .ok (some y) → P y) :
    ∀ {xs : List α} {ys : List β}, xs.filterMapM f = .ok ys → ∀ y ∈ ys, P y
  | [], ys, h => by
    simp only [List.filterMapM_nil, pure, Except.pure, Except.ok.injEq] at h
    subst h
    simp
  | x :: xs, ys, h => by
    rw [List.filterMapM_cons] at h
    cases hx : f x with
    | error e => simp only [hx, bind, Except.bind, reduceCtorEq] at h
    | ok b? =>
      cases hrest : xs.filterMapM f with
      | error e =>
        cases b? <;> simp only [hx, hrest, bind, Except.bind, reduceCtorEq] at h
      | ok rest =>
        have ih := Result.filterMapM_mem hf hrest
        cases b? with
        | none =>
          simp only [hx, hrest, bind, Except.bind, Except.ok.injEq] at h
          exact h ▸ ih
        | some y =>
          simp only [hx, hrest, bind, Except.bind, pure, Except.pure, Except.ok.injEq] at h
          subst h
          intro z hz
          rcases List.mem_cons.1 hz with rfl | hz
          · exact hf x z hx
          · exact ih z hz

/-- A scan returns only texts that match its pattern. -/
theorem Cache.Kv.scan_matches {kv : Kv} {pattern : List Nat} {keys : List Value}
    (h : kv.scan pattern = .ok keys) :
    ∀ k ∈ keys, ∃ pts, k.points? = some pts ∧ Text.globMatches pattern pts = true := by
  refine Result.filterMapM_mem (fun e k he => ?_) h
  split at he
  · rename_i pts hpts
    split at he
    · rename_i hm
      simp only [pure, Except.pure, Except.ok.injEq, Option.some.injEq] at he
      exact ⟨pts, he ▸ hpts, hm⟩
    · simp [pure, Except.pure] at he
  · cases he

/-- Deleting by a pattern empties text keys or leaves them, and leaves every text key that the
pattern does not match. -/
theorem Cache.deleteMatching_read {kv kv' : Kv} {pattern : Value} {n : Nat}
    (h : deleteMatching kv pattern = .ok (n, kv')) (s : String) :
    (kv'.read (.str s) = none ∨ kv'.read (.str s) = kv.read (.str s)) ∧
      (Text.globMatches ((fullKey pattern).points?.getD []) (s.toList.map Char.toNat) = false →
        kv'.read (.str s) = kv.read (.str s)) := by
  unfold deleteMatching at h
  split at h
  · cases hs : kv.scan ((fullKey pattern).points?.getD []) with
    | error e => simp only [hs, bind, Except.bind, reduceCtorEq] at h
    | ok keys =>
      simp only [hs, bind, Except.bind, pure, Except.pure, Except.ok.injEq] at h
      have hk : kv' = (kv.remove keys).2 := by rw [h]
      subst hk
      refine ⟨Kv.read_remove kv s keys, fun hm => Kv.read_remove_of_ne kv s keys ?_⟩
      -- a swept key matched the pattern, which the text does not
      rintro k hk rfl
      obtain ⟨pts, hpts, hmk⟩ := Kv.scan_matches hs _ hk
      simp only [Value.points?, Option.some.injEq] at hpts
      rw [← hpts, hm] at hmk
      cases hmk
  · simp only [pure, Except.pure, Except.ok.injEq, Prod.mk.injEq] at h
    obtain ⟨-, rfl⟩ := h
    exact ⟨.inr rfl, fun _ => rfl⟩

theorem Cache.deleteMatching_online {kv kv' : Kv} {pattern : Value} {n : Nat}
    (h : deleteMatching kv pattern = .ok (n, kv')) : kv'.online = kv.online := by
  unfold deleteMatching at h
  split at h
  · cases hs : kv.scan ((fullKey pattern).points?.getD []) with
    | error e => simp only [hs, bind, Except.bind, reduceCtorEq] at h
    | ok keys =>
      simp only [hs, bind, Except.bind, pure, Except.pure, Except.ok.injEq] at h
      have hk : kv' = (kv.remove keys).2 := by rw [h]
      subst hk
      exact Kv.remove_online kv keys
  · simp only [pure, Except.pure, Except.ok.injEq, Prod.mk.injEq] at h
    rw [← h.2]

/-! ## Numerals of counts -/

/-- A run of digits scans to its value, with nothing after it. -/
theorem Text.scanRun_digits :
    ∀ (ds : List Char), (∀ d ∈ ds, d.isDigit = true) → ∀ (acc count : Nat) (prev : Char),
      prev ≠ '_' → scanRun ds acc count prev = some (Nat.ofDigitChars 10 ds acc, count + ds.length, [])
  | [], _, acc, count, prev, hp => by simp [scanRun, hp, Nat.ofDigitChars]
  | d :: ds, h, acc, count, prev, _ => by
    have hd : d.isDigit = true := h d (List.mem_cons_self ..)
    have hne : d ≠ '_' := by rintro rfl; simp at hd
    rw [scanRun, if_pos hd, scanRun_digits ds (fun d' hd' => h d' (List.mem_cons_of_mem _ hd'))
      _ _ d hne, Nat.ofDigitChars_cons, List.length_cons, Nat.mul_comm acc 10, Nat.add_assoc,
      Nat.add_comm 1]
    rfl

theorem Text.asciiNumeral_digits :
    ∀ (ds : List Char), (∀ d ∈ ds, d.isDigit = true) → asciiNumeral ds = ds
  | [], _ => rfl
  | d :: ds, h => by
    have hd := (isDigit_iff d).1 (h d (List.mem_cons_self ..))
    rw [asciiNumeral, if_pos (by omega),
      asciiNumeral_digits ds fun d' hd' => h d' (List.mem_cons_of_mem _ hd')]

/-- The numeral of a count reads back as the count, unless it has too many digits. -/
theorem Text.readNumeral_repr (c : Nat) :
    readNumeral (Nat.repr c) =
      if maxDigits < (Nat.toDigits 10 c).length then .error (some (Nat.toDigits 10 c).length)
      else .ok c := by
  have hdig : ∀ d ∈ Nat.toDigits 10 c, d.isDigit = true :=
    fun d hd => Nat.isDigit_of_mem_toDigits (by decide) (by decide) hd
  obtain ⟨d, ds, hds⟩ := List.exists_cons_of_ne_nil (Nat.toDigits_ne_nil (n := c) (b := 10))
  have hd := (isDigit_iff d).1 (hdig d (hds ▸ List.mem_cons_self ..))
  -- the first digit is no blank, no sign and no underscore
  have hblank : isAsciiBlank d = false := by simp [isAsciiBlank]; omega
  have hsign : splitSign (d :: ds) = (false, d :: ds) := by
    unfold splitSign
    split <;> simp_all
  have hhead : ((d :: ds).head? == some '_') = false := by
    have : d ≠ '_' := by rintro rfl; simp at hd
    simp [this]
  have hscan := scanRun_digits _ hdig 0 0 ' ' (by decide)
  rw [Nat.ofDigitChars_ten_toDigits] at hscan
  rw [readNumeral, Nat.toList_repr, asciiNumeral_digits _ hdig, hds, List.dropWhile_cons_of_neg
    (by simp [hblank]), hsign]
  simp only [hhead, Bool.false_eq_true, if_false]
  rw [← hds, hscan]
  simp [hds]

/-- The characters of an integer's numeral: digits, and a leading minus sign. -/
theorem Int.mem_repr {n : Int} {ch : Char} (h : ch ∈ (toString n).toList) :
    ch.isDigit = true ∨ ch = '-' := by
  have hnat : ∀ m : Nat, ch ∈ (Nat.repr m).toList → ch.isDigit = true := fun m hm =>
    Nat.isDigit_of_mem_toDigits (by decide) (by decide) (Nat.toList_repr ▸ hm)
  cases n with
  | ofNat m => exact .inl (hnat m h)
  | negSucc m =>
    change ch ∈ ("-" ++ Nat.repr (m + 1)).toList at h
    rw [String.toList_append] at h
    rcases List.mem_append.1 h with h | h
    · exact .inr (by simpa using h)
    · exact .inl (hnat _ h)

theorem Int.colon_not_mem_repr (n : Int) : ':' ∉ (toString n).toList := fun h => by
  rcases Int.mem_repr h with h | h <;> revert h <;> decide

/-- Different integers have different numerals. -/
theorem Int.toString_inj {m n : Int} (h : toString m = toString n) : m = n := by
  -- a count's numeral starts with a digit, a negative one with a minus sign
  have hdigit : ∀ (a : Nat) (b : Nat), Nat.repr a ≠ "-" ++ Nat.repr b := fun a b he => by
    have := congrArg (·.toList.head?) he
    obtain ⟨d, ds, hds⟩ := List.exists_cons_of_ne_nil (Nat.toDigits_ne_nil (n := a) (b := 10))
    have hd : d.isDigit = true :=
      Nat.isDigit_of_mem_toDigits (by decide) (by decide) (hds ▸ List.mem_cons_self ..)
    simp only [Nat.toList_repr, hds, String.toList_append, List.head?_cons] at this
    revert hd
    simp at this
    rw [this]
    decide
  cases m with
  | ofNat a =>
    cases n with
    | ofNat b => exact congrArg _ (Nat.repr_inj.1 h)
    | negSucc b => exact absurd h (hdigit a (b + 1))
  | negSucc a =>
    cases n with
    | ofNat b => exact absurd h.symm (hdigit b (a + 1))
    | negSucc b =>
      change "-" ++ Nat.repr (a + 1) = "-" ++ Nat.repr (b + 1) at h
      have := Nat.repr_inj.1 (String.toList_inj.1 (List.append_cancel_left
        (by simpa only [String.toList_append] using congrArg String.toList h)))
      omega

/-- The numeral of a count converts back to the count, when it converts at all. -/
theorem Json.wholeOf_count {c : Nat} {n : Int} (h : wholeOf (.str (toString (c : Int))) = .ok n) :
    n = c := by
  have hs : toString (c : Int) = Nat.repr c := by simp [toString, Int.repr]
  rw [hs] at h
  by_cases hlen : maxDigits < (Nat.toDigits 10 c).length
  · simp [wholeOf, numeralOf, Text.readNumeral_repr, hlen, throw, throwThe,
      MonadExceptOf.throw] at h
  · simp only [wholeOf, numeralOf, Text.readNumeral_repr, hlen, if_false, pure, Except.pure,
      Except.ok.injEq] at h
    exact h.symm

/-! ## Counters -/

/-- The store holds the count `c` under a key as incrementing writes it: nothing for 0, or
the numeral of `c`. -/
def Cache.CounterAt (kv : Kv) (key : String) (c : Nat) : Prop :=
  (kv.read (fullKey (.str key)) = none ∧ c = 0) ∨
    kv.read (fullKey (.str key)) = some (.str (toString (c : Int)))

/-- Reading a counter gives its count, or nothing when the store is down or the numeral too
long. -/
theorem Cache.counter_at {kv : Kv} {key : String} {c : Nat} {r : Option Int}
    (hc : CounterAt kv key c) (h : counter kv (.str key) = .ok r) :
    r = none ∨ r = some (c : Int) := by
  unfold counter at h
  split at h
  · rcases hc with ⟨hn, rfl⟩ | hs
    · simp only [hn, pure, Except.pure, Except.ok.injEq] at h
      exact .inr (by simp [h])
    · rw [hs] at h
      cases hw : wholeOf (.str (toString (c : Int))) with
      | ok n =>
        simp only [hw, pure, Except.pure, Except.ok.injEq] at h
        exact .inr (by rw [← h, wholeOf_count hw])
      | error e =>
        simp only [hw] at h
        split at h
        · rename_i heq
          cases heq
        · cases h
        · simp only [pure, Except.pure, Except.ok.injEq] at h
          exact .inl h.symm
  · simp only [pure, Except.pure, Except.ok.injEq] at h
    exact .inl h.symm

/-- Incrementing a counter writes the numeral of the next count, or nothing when the store is
down. -/
theorem Cache.incr_at {kv kv' : Kv} {key : String} {c : Nat} {r : Option Int}
    (hc : CounterAt kv key c) (h : incr kv (.str key) = .ok (r, kv')) :
    (kv.online = false ∧ kv' = kv) ∨
      (kv.online = true ∧
        kv' = kv.write (fullKey (.str key)) (.str (toString ((c + 1 : Nat) : Int))) none) := by
  unfold incr at h
  split at h
  · rename_i hon
    refine .inr ⟨hon, ?_⟩
    rcases hc with ⟨hn, rfl⟩ | hs
    · simp only [hn, bind, Except.bind, pure, Except.pure, Except.ok.injEq, Prod.mk.injEq] at h
      rw [← h.2]
      rfl
    · cases hw : wholeOf (.str (toString (c : Int))) with
      | ok n =>
        simp only [hs, hw, bind, Except.bind, pure, Except.pure, Except.ok.injEq,
          Prod.mk.injEq] at h
        rw [← h.2, wholeOf_count hw]
        push_cast
        rfl
      | error e => simp only [hs, hw, bind, Except.bind, reduceCtorEq] at h
  · simp only [pure, Except.pure, Except.ok.injEq, Prod.mk.injEq] at h
    rename_i hon
    exact .inl ⟨by simpa using hon, h.2.symm⟩

/-! ## Keys of cached grants -/

theorem Cache.fullKey_str (k : String) : fullKey (.str k) = .str (keyPrefix ++ ":" ++ k) := rfl

/-- Two lists equal after a separator that neither start holds split at it alike. -/
theorem List.eq_of_append_sep {α : Type} {c : α} :
    ∀ {a a' b b' : List α}, c ∉ a → c ∉ a' → a ++ c :: b = a' ++ c :: b' → a = a' ∧ b = b'
  | [], [], _, _, _, _, h => ⟨rfl, by simpa using h⟩
  | [], x :: a', _, _, _, h', h => by
    simp only [List.nil_append, List.cons_append, List.cons.injEq] at h
    exact absurd (h.1 ▸ List.mem_cons_self ..) h'
  | x :: a, [], _, _, h, _, h' => by
    simp only [List.nil_append, List.cons_append, List.cons.injEq] at h'
    exact absurd (h'.1 ▸ List.mem_cons_self ..) h
  | x :: a, y :: a', _, _, h, h', he => by
    simp only [List.cons_append, List.cons.injEq] at he
    obtain ⟨rfl, he⟩ := he
    obtain ⟨rfl, rfl⟩ := eq_of_append_sep (List.not_mem_of_not_mem_cons h)
      (List.not_mem_of_not_mem_cons h') he
    exact ⟨rfl, rfl⟩

namespace Access

/-- A branch's grant entries are told apart by role and generation. -/
theorem grantKey_inj {b : Value} {r r' g g' : Int} (h : grantKey b r g = grantKey b r' g') :
    r = r' ∧ g = g' := by
  unfold grantKey at h
  have h' := congrArg String.toList h
  have hcolon : ":".toList = [':'] := rfl
  simp only [String.toList_append, List.append_assoc, hcolon, List.singleton_append] at h'
  have hsep := List.eq_of_append_sep (Int.colon_not_mem_repr r) (Int.colon_not_mem_repr r')
    (List.cons.inj (List.append_cancel_left (List.append_cancel_left h'))).2
  exact ⟨Int.toString_inj (String.toList_inj.1 hsep.1),
    Int.toString_inj (String.toList_inj.1 hsep.2)⟩

/-- No grant entry sits under a generation counter's key. -/
theorem grantKey_ne_generationKey (b b' : Value) (r g : Int) :
    grantKey b r g ≠ generationKey b' := by
  intro h
  have hg : "status_permissions:".toList <+: (grantKey b r g).toList := by
    unfold grantKey
    simp only [String.append_assoc]
    rw [String.toList_append]
    exact List.prefix_append _ _
  have hn : "status_permissions_gen:".toList <+: (generationKey b').toList :=
    ⟨b'.display.toList, String.toList_append.symm⟩
  rw [← h] at hn
  -- both prefixes start the same key, so the shorter starts the longer, which it does not
  have := List.prefix_of_prefix_length_le hg hn (by decide)
  revert this
  decide

end Access

theorem Text.globItems_plain {c : Nat} (hs : c ≠ starMark) (ha : c ≠ anyMark) (ho : c ≠ openMark)
    (fuel : Nat) (rest : List Nat) :
    globItems (fuel + 1) (c :: rest) = .lit c :: globItems fuel rest := by
  simp [globItems, hs, ha, ho]

theorem Text.globItems_plain_append (fuel : Nat) (rest : List Nat) :
    ∀ ps : List Nat, (∀ c ∈ ps, c ≠ starMark ∧ c ≠ anyMark ∧ c ≠ openMark) →
      globItems (fuel + ps.length) (ps ++ rest) = ps.map .lit ++ globItems fuel rest
  | [], _ => rfl
  | c :: ps, h => by
    obtain ⟨hs, ha, ho⟩ := h c (List.mem_cons_self ..)
    rw [List.length_cons, ← Nat.add_assoc, List.cons_append, globItems_plain hs ha ho,
      globItems_plain_append fuel rest ps fun c' hc' => h c' (List.mem_cons_of_mem _ hc')]
    rfl

theorem Text.globMatch_lits_prefix (items : List GlobItem) :
    ∀ (ps text : List Nat), globMatch (ps.map .lit ++ items) text = true → ps <+: text
  | [], _, _ => List.nil_prefix
  | c :: ps, [], h => by simp [globMatch] at h
  | c :: ps, d :: ds, h => by
    simp only [List.map_cons, List.cons_append, globMatch, GlobItem.admits, Bool.and_eq_true,
      beq_iff_eq] at h
    obtain ⟨rfl, h⟩ := h
    exact List.cons_prefix_cons.2 ⟨rfl, globMatch_lits_prefix items ps ds h⟩

/-- A text matches a pattern that starts with plain characters only if it starts with them. -/
theorem Text.globMatches_plain_prefix {ps rest text : List Nat}
    (hps : ∀ c ∈ ps, c ≠ starMark ∧ c ≠ anyMark ∧ c ≠ openMark)
    (h : globMatches (ps ++ rest) text = true) : ps <+: text := by
  unfold globMatches at h
  rw [List.length_append, show ps.length + rest.length + 1 = rest.length + 1 + ps.length by omega,
    globItems_plain_append _ _ _ hps] at h
  exact globMatch_lits_prefix _ _ _ h

/-- No pattern that sweeps cached grants reaches a generation counter. -/
theorem Access.generationKey_unswept (b : Value) (rest : String) :
    Text.globMatches ((fullKey (.str ("status_permissions:" ++ rest))).points?.getD [])
      ((keyPrefix ++ ":" ++ generationKey b).toList.map Char.toNat) = false := by
  -- the literals are joined by terms, so that no tactic unfolds them
  have hpat : keyPrefix ++ ":" ++ ("status_permissions:" ++ rest) =
      "repairflow:status_permissions:" ++ rest :=
    String.append_assoc.symm.trans (congrArg (· ++ rest) (by decide))
  have hkey : keyPrefix ++ ":" ++ generationKey b =
      "repairflow:status_permissions_gen:" ++ b.display :=
    String.append_assoc.symm.trans (congrArg (· ++ b.display) (by decide))
  rw [Bool.eq_false_iff]
  intro hm
  rw [Cache.fullKey_str, hpat, hkey] at hm
  simp only [Value.points?, Option.getD_some] at hm
  rw [String.toList_append, String.toList_append, List.map_append, List.map_append] at hm
  have hpre := Text.globMatches_plain_prefix (by decide) hm
  have := List.prefix_of_prefix_length_le hpre (List.prefix_append _ _) (by decide)
  revert this
  decide

end RepairShop
