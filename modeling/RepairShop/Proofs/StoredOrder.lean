import RepairShop.Proofs.DoubleModel
import RepairShop.Proofs.StatusChecks

/- The database's order of stored values, doubles included.

   `Store.Cell.compare` orders stored values by storage class (NULL, then numbers, then texts),
   two integers as integers, an integer against a double exactly (`Number.compareInt`), two
   doubles by the `<` of the float model, and two texts as texts. This file proves that, NaN
   apart (the database stores a NaN as NULL), it is the order of a key in a linear order: the
   storage class, then the exact value of a number in the rationals closed by two infinities,
   then the text (`Store.Cell.compare_compares`).

   The step from doubles to values is the float model's order: two finite doubles of one sign
   are ordered by exponent, then mantissa, and that is the order of their values because a
   mantissa fills its 53 bits unless it is subnormal (`Number.Normalised.lex_compares`).

   So the order in which the initial status of a branch is chosen, by sort and then by key, is
   the lexicographic order of key and row key (`Status.before_iff`), a total preorder however
   the sorts are stored, and the initial status is the lowest of the branch's candidates
   (`Orders.initialStatus_lowest`). -/

namespace RepairShop

open Std.Do Store Cache Json

set_option autoImplicit false

namespace Number

open Float.Model Float.Model.UnpackedFloat

/-! ## The value of a double -/

/-- A mantissa and an exponent as a finite double holds them: at most 53 bits, fewer only at
the smallest exponent, below which no exponent lies. -/
structure Normalised (m : Nat) (e : Int) : Prop where
  wide : m < 2 ^ 53
  full : m < 2 ^ 52 → e = -1074
  least : -1074 ≤ e

theorem shape_normalised {x : Float} {s : Bool} {m : Nat} {e : Int}
    (h : shape x = .finite s m e) : Normalised m e := by
  obtain ⟨hwide, hfull⟩ := shape_finite_bounds h
  refine ⟨hwide, hfull, ?_⟩
  unfold shape at h
  dsimp only at h
  split at h
  · split at h <;> cases h
  · split at h
    · cases h
      simp [minExp]
    · rename_i h0
      cases h
      simp only [beq_iff_eq] at h0
      omega

/-- The value `± m · 2^e` of a finite double. -/
def signed (down : Bool) (m : Nat) (e : Int) : ℚ := if down then -((m : ℚ) * 2 ^ e) else (m : ℚ) * 2 ^ e

/-- The exact value of a double's shape, in the rationals closed by two infinities. A NaN has
no value; it is sent to the bottom. -/
def Shape.value : Shape → WithBot (WithTop ℚ)
  | .nan => ⊥
  | .infinite down => if down then ⊥ else ⊤
  | .finite down m e => ((signed down m e : ℚ) : WithTop ℚ)

/-- A shape the float model orders: no NaN, and a finite one normalised. -/
def Shape.Ordered : Shape → Prop
  | .nan => False
  | .infinite _ => True
  | .finite _ m e => Normalised m e

theorem shape_ordered {x : Float} (hx : x.isNaN = false) : (shape x).Ordered := by
  have hu : x.isNaN = x.toModel.unpack.isNaN := rfl
  rw [hu, unpack_eq_toUnpacked] at hx
  cases h : shape x with
  | nan => rw [h] at hx; simp [Shape.toUnpacked, UnpackedFloat.isNaN] at hx
  | infinite s => trivial
  | finite s m e => exact shape_normalised h

/-- Below a higher exponent every normalised value lies lower: the double of the higher
exponent is normal, so its value is at least `2^52` of its units. -/
theorem Normalised.value_lt_of_exp_lt {m₁ m₂ : Nat} {e₁ e₂ : Int} (h₁ : Normalised m₁ e₁)
    (h₂ : Normalised m₂ e₂) (he : e₁ < e₂) : (m₁ : ℚ) * 2 ^ e₁ < (m₂ : ℚ) * 2 ^ e₂ := by
  have hm₂ : 2 ^ 52 ≤ m₂ := by
    by_contra hlt
    have := h₂.full (by omega)
    have := h₁.least
    omega
  have hw : (m₁ : ℚ) < 2 ^ 53 := by exact_mod_cast h₁.wide
  have hf : (2 : ℚ) ^ 52 ≤ m₂ := by exact_mod_cast hm₂
  calc (m₁ : ℚ) * 2 ^ e₁ < 2 ^ 53 * 2 ^ e₁ := mul_lt_mul_of_pos_right hw (zpow_pos two_pos _)
    _ = 2 ^ 52 * 2 ^ (e₁ + 1) := by rw [zpow_add_one₀ two_ne_zero]; ring
    _ ≤ 2 ^ 52 * 2 ^ e₂ :=
      mul_le_mul_of_nonneg_left (zpow_le_zpow_right₀ one_le_two (by omega)) (by positivity)
    _ ≤ m₂ * 2 ^ e₂ := mul_le_mul_of_nonneg_right hf (zpow_pos two_pos _).le

/-- **The float model orders normalised mantissas by value.** Exponent first, then mantissa,
is the order of `m · 2^e`. -/
theorem Normalised.lex_compares {m₁ m₂ : Nat} {e₁ e₂ : Int} (h₁ : Normalised m₁ e₁)
    (h₂ : Normalised m₂ e₂) :
    ((compare e₁ e₂).then (compare m₁ m₂)).Compares ((m₁ : ℚ) * 2 ^ e₁) ((m₂ : ℚ) * 2 ^ e₂) := by
  rcases lt_trichotomy e₁ e₂ with he | rfl | he
  · rw [compare_lt_iff_lt.2 he]
    exact h₁.value_lt_of_exp_lt h₂ he
  · rw [compare_eq_iff_eq.2 rfl]
    -- one exponent: the values are the mantissas scaled alike
    have hmono : StrictMono fun m : Nat => (m : ℚ) * 2 ^ e₁ :=
      fun a b hab => mul_lt_mul_of_pos_right (by exact_mod_cast hab) (zpow_pos two_pos _)
    exact (hmono.compares).2 ((compare_iff _ _).1 rfl)
  · rw [compare_gt_iff_gt.2 he]
    exact h₂.value_lt_of_exp_lt h₁ he

/-! ## Doubles are ordered by value -/

theorem Shape.value_finite (down : Bool) (m : Nat) (e : Int) :
    (Shape.finite down m e).value = ((signed down m e : ℚ) : WithTop ℚ) := rfl

theorem compares_coe {o : Ordering} {p q : ℚ} :
    o.Compares (((p : WithTop ℚ)) : WithBot (WithTop ℚ)) ((q : WithTop ℚ)) ↔ o.Compares p q :=
  (WithBot.coe_strictMono.comp WithTop.coe_strictMono).compares

theorem compares_neg {o : Ordering} {p q : ℚ} (h : o.Compares p q) : o.swap.Compares (-p) (-q) := by
  cases o
  · exact neg_lt_neg h
  · exact congrArg Neg.neg h
  · exact neg_lt_neg h

/-- Two finite doubles, each a signed zero or a signed normalised mantissa, compare as their
values: by sign first, a zero of either sign between the two signs. -/
theorem finite_compares {d₁ d₂ : Bool} {m₁ m₂ : Nat} {e₁ e₂ : Int} (h₁ : Normalised m₁ e₁)
    (h₂ : Normalised m₂ e₂) : ∃ o, (Shape.finite d₁ m₁ e₁).toUnpacked.compare
      (Shape.finite d₂ m₂ e₂).toUnpacked = some o ∧ o.Compares (signed d₁ m₁ e₁) (signed d₂ m₂ e₂) := by
  have hpos : ∀ {m : Nat} (e : Int), 0 < m → 0 < (m : ℚ) * 2 ^ e :=
    fun e hm => mul_pos (by exact_mod_cast hm) (zpow_pos two_pos e)
  rcases Nat.eq_zero_or_pos m₁ with rfl | hm₁ <;> rcases Nat.eq_zero_or_pos m₂ with rfl | hm₂
  · -- two zeros
    refine ⟨.eq, by cases d₁ <;> cases d₂ <;> rfl, ?_⟩
    cases d₁ <;> cases d₂ <;> simp [signed, Ordering.Compares]
  · -- a zero below a positive value and above a negative one
    have := hpos e₂ hm₂
    cases d₁ <;> cases d₂ <;> refine ⟨_, by simp [Shape.toUnpacked, hm₂, signOf]; rfl, ?_⟩ <;>
      simp [signed, Ordering.Compares] <;> linarith
  · have := hpos e₁ hm₁
    cases d₁ <;> cases d₂ <;> refine ⟨_, by simp [Shape.toUnpacked, hm₁, signOf]; rfl, ?_⟩ <;>
      simp [signed, Ordering.Compares] <;> linarith
  · -- two nonzero values: by sign, then by exponent and mantissa, reversed below zero
    have h₁' := hpos e₁ hm₁
    have h₂' := hpos e₂ hm₂
    have hlex := h₁.lex_compares h₂
    cases d₁ <;> cases d₂
    · exact ⟨_, by simp [Shape.toUnpacked, hm₁, hm₂, signOf]; rfl, by simpa [signed] using hlex⟩
    · exact ⟨.gt, by simp [Shape.toUnpacked, hm₁, hm₂, signOf]; rfl, by
        simp [signed, Ordering.Compares]; linarith⟩
    · exact ⟨.lt, by simp [Shape.toUnpacked, hm₁, hm₂, signOf]; rfl, by
        simp [signed, Ordering.Compares]; linarith⟩
    · exact ⟨_, by simp [Shape.toUnpacked, hm₁, hm₂, signOf]; rfl, by
        simpa [signed] using compares_neg hlex⟩

/-- An infinity lies beyond every finite double, on its own side. -/
theorem compare_infinite_finite (d₁ d₂ : Bool) (m : Nat) (e : Int) :
    (Shape.infinite d₁).toUnpacked.compare (Shape.finite d₂ m e).toUnpacked =
        some (if d₁ then .lt else .gt) ∧
      (Shape.finite d₂ m e).toUnpacked.compare (Shape.infinite d₁).toUnpacked =
        some (if d₁ then .gt else .lt) := by
  by_cases hm : 0 < m
  · simp only [Shape.toUnpacked, dif_pos hm]
    cases d₁ <;> cases d₂ <;> exact ⟨rfl, rfl⟩
  · simp only [Shape.toUnpacked, dif_neg hm]
    cases d₁ <;> cases d₂ <;> exact ⟨rfl, rfl⟩

theorem coe_lt_top (q : ℚ) : (((q : WithTop ℚ)) : WithBot (WithTop ℚ)) < ⊤ :=
  WithBot.coe_lt_coe.2 (WithTop.coe_lt_top q)

/-- **The float model orders doubles by value.** It compares any two shapes it orders, and its
answer is the order of their values. -/
theorem Shape.compare_toUnpacked {a b : Shape} (ha : a.Ordered) (hb : b.Ordered) :
    ∃ o, a.toUnpacked.compare b.toUnpacked = some o ∧ o.Compares a.value b.value := by
  cases a with
  | nan => exact ha.elim
  | infinite d₁ =>
    cases b with
    | nan => exact hb.elim
    | infinite d₂ =>
      cases d₁ <;> cases d₂
      · exact ⟨.eq, rfl, rfl⟩
      · exact ⟨.gt, rfl, bot_lt_top⟩
      · exact ⟨.lt, rfl, bot_lt_top⟩
      · exact ⟨.eq, rfl, rfl⟩
    | finite d₂ m₂ e₂ =>
      rw [Shape.value_finite]
      cases d₁
      · exact ⟨.gt, (compare_infinite_finite false d₂ m₂ e₂).1, coe_lt_top _⟩
      · exact ⟨.lt, (compare_infinite_finite true d₂ m₂ e₂).1, WithBot.bot_lt_coe _⟩
  | finite d₁ m₁ e₁ =>
    cases b with
    | nan => exact hb.elim
    | infinite d₂ =>
      rw [Shape.value_finite]
      cases d₂
      · exact ⟨.lt, (compare_infinite_finite false d₁ m₁ e₁).2, coe_lt_top _⟩
      · exact ⟨.gt, (compare_infinite_finite true d₁ m₁ e₁).2, WithBot.bot_lt_coe _⟩
    | finite d₂ m₂ e₂ =>
      obtain ⟨o, ho, hc⟩ := @finite_compares d₁ d₂ m₁ m₂ e₁ e₂ ha hb
      exact ⟨o, ho, compares_coe.2 hc⟩

theorem lt_iff_value_lt {x y : Float} (hx : x.isNaN = false) (hy : y.isNaN = false) :
    x < y ↔ (shape x).value < (shape y).value := by
  rw [float_lt_iff, unpack_eq_toUnpacked, unpack_eq_toUnpacked]
  obtain ⟨o, ho, hc⟩ := Shape.compare_toUnpacked (shape_ordered hx) (shape_ordered hy)
  rw [ho, Option.some_inj]
  exact hc.eq_lt

/-- **A double against an integer is compared exactly.** -/
theorem compareInt_compares {x : Float} (hx : x.isNaN = false) (n : Int) :
    ∃ o, compareInt x n = some o ∧ o.Compares (shape x).value (((n : ℚ) : WithTop ℚ)) := by
  have hord := shape_ordered hx
  cases h : shape x with
  | nan => rw [h] at hord; exact hord.elim
  | infinite d =>
    cases d
    · exact ⟨.gt, by simp [compareInt, h], coe_lt_top _⟩
    · exact ⟨.lt, by simp [compareInt, h], WithBot.bot_lt_coe _⟩
  | finite d m e =>
    refine ⟨_, compareInt_finite h n, compares_coe.2 ?_⟩
    -- both sides scaled by `2^k` for the negative part `-k` of the exponent
    obtain ⟨k, rfl | rfl⟩ := Int.eq_nat_or_neg e
    · have hp : pow2 (-(k : Int)) = 1 := by simp [pow2]
      have hq : pow2 (k : Int) = 2 ^ k := by simp [pow2]
      rw [hp, hq, Nat.cast_one, Int.mul_one]
      have := (compare_iff _ _).1 (rfl : compare (if d then -((m * 2 ^ k : Nat) : Int)
        else ((m * 2 ^ k : Nat) : Int)) n = _)
      cases d <;> simpa [signed, zpow_natCast] using (Int.cast_strictMono : StrictMono fun n : Int => (n : ℚ)).compares.2 this
    · have hp : pow2 (-(-(k : Int))) = 2 ^ k := by simp [pow2]
      have hq : pow2 (-(k : Int)) = 1 := by simp [pow2]
      rw [hp, hq, Nat.mul_one]
      have hP : (0 : ℚ) < 2 ^ k := by positivity
      have hmono : StrictMono fun q : ℚ => q * 2 ^ k := fun a b hab => mul_lt_mul_of_pos_right hab hP
      have := (compare_iff _ _).1 (rfl : compare (if d then -((m : Nat) : Int) else ((m : Nat) : Int))
        (n * ((2 ^ k : Nat) : Int)) = _)
      have hcast := (Int.cast_strictMono : StrictMono fun n : Int => (n : ℚ)).compares.2 this
      refine hmono.compares.1 ?_
      cases d <;> simp [signed] at hcast ⊢ <;> exact hcast

end Number

/-! ## Stored values -/

namespace Store

/-- A stored NaN. The database holds none: it stores a NaN as NULL (`bindValue`). -/
def Cell.isNaN : Cell → Bool
  | .real x => x.isNaN
  | _ => false

/-- The place of a stored value in the database's order: its storage class, then the exact
value of a number, then the text. -/
def Cell.key : Cell → Lex (ℕ × Lex (WithBot (WithTop ℚ) × String))
  | .null => toLex (0, toLex (⊥, ""))
  | .int n => toLex (1, toLex ((((n : ℚ) : WithTop ℚ) : WithBot (WithTop ℚ)), ""))
  | .real x => toLex (1, toLex ((Number.shape x).value, ""))
  | .text s => toLex (2, toLex (⊥, s))

/-- Numbers are placed by value. -/
theorem number_key_compares {o : Ordering} {v w : WithBot (WithTop ℚ)} :
    o.Compares (toLex (1, toLex (v, ""))) (toLex (1, toLex (w, ""))) ↔ o.Compares v w :=
  (show StrictMono fun v : WithBot (WithTop ℚ) => toLex ((1 : ℕ), toLex (v, "")) from
    fun _ _ h => by simp [Prod.Lex.toLex_lt_toLex, h]).compares

/-- Texts are placed as texts. -/
theorem text_key_compares {o : Ordering} {s t : String} :
    o.Compares (toLex (2, toLex ((⊥ : WithBot (WithTop ℚ)), s))) (toLex (2, toLex (⊥, t))) ↔
      o.Compares s t :=
  (show StrictMono fun s : String => toLex ((2 : ℕ), toLex ((⊥ : WithBot (WithTop ℚ)), s)) from
    fun _ _ h => by simp [Prod.Lex.toLex_lt_toLex, h]).compares

theorem int_value_compares {o : Ordering} {m n : Int} :
    o.Compares ((((m : ℚ) : WithTop ℚ)) : WithBot (WithTop ℚ)) (((n : ℚ) : WithTop ℚ)) ↔
      o.Compares m n :=
  Number.compares_coe.trans Int.cast_strictMono.compares

/-- A three-way test by `<` both ways is the order of a linear order. -/
theorem compares_of_lt {α : Type} [LT α] [DecidableLT α] {β : Type} [LinearOrder β] {a b : α}
    {v w : β}
    (hab : a < b ↔ v < w) (hba : b < a ↔ w < v) :
    (if a < b then Ordering.lt else if b < a then .gt else .eq).Compares v w := by
  split_ifs with h1 h2
  · exact hab.1 h1
  · exact hba.1 h2
  · exact le_antisymm (not_lt.1 (mt hba.2 h2)) (not_lt.1 (mt hab.2 h1))

/-- **The database orders stored values by their keys.** NaN apart, `Cell.compare` is the
order of `Cell.key`. -/
theorem Cell.compare_compares {a b : Cell} (ha : a.isNaN = false) (hb : b.isNaN = false) :
    (a.compare b).Compares a.key b.key := by
  cases a with
  | null => cases b <;> simp [Cell.compare, Cell.rank, Cell.compareNumbers, Cell.key,
      Ordering.Compares, Prod.Lex.toLex_lt_toLex]
  | int m =>
    cases b with
    | int n =>
      simp only [Cell.compare, Cell.rank, lt_irrefl, if_false, Cell.compareNumbers, Cell.key]
      exact number_key_compares.2 (int_value_compares.2 ((compare_iff _ _).1 rfl))
    | real y =>
      obtain ⟨o, ho, hc⟩ := Number.compareInt_compares hb m
      simp only [Cell.compare, Cell.rank, lt_irrefl, if_false, Cell.compareNumbers, Cell.key, ho,
        Option.map_some, Option.getD_some]
      exact number_key_compares.2 hc.swap
    | _ => simp [Cell.compare, Cell.rank, Cell.key, Ordering.Compares, Prod.Lex.toLex_lt_toLex]
  | real x =>
    cases b with
    | int n =>
      obtain ⟨o, ho, hc⟩ := Number.compareInt_compares ha n
      simp only [Cell.compare, Cell.rank, lt_irrefl, if_false, Cell.compareNumbers, Cell.key, ho,
        Option.getD_some]
      exact number_key_compares.2 hc
    | real y =>
      simp only [Cell.compare, Cell.rank, lt_irrefl, if_false, Cell.compareNumbers, Cell.key]
      exact number_key_compares.2 (compares_of_lt (Number.lt_iff_value_lt ha hb)
        (Number.lt_iff_value_lt hb ha))
    | _ => simp [Cell.compare, Cell.rank, Cell.key, Ordering.Compares, Prod.Lex.toLex_lt_toLex]
  | text s =>
    cases b with
    | text t =>
      simp only [Cell.compare, Cell.key]
      exact text_key_compares.2 (compares_of_lt Iff.rfl Iff.rfl)
    | _ => simp [Cell.compare, Cell.rank, Cell.key, Ordering.Compares, Prod.Lex.toLex_lt_toLex]

end Store

/-! ## The initial status -/

namespace Status

variable {x y : Row}

/-- **Status rows are ordered by sort, then key.** NaN apart, `Before` is the lexicographic
order of the sort's key and the row's key. -/
theorem before_iff (hx : (x.get "sort").isNaN = false) (hy : (y.get "sort").isNaN = false) :
    Before x y = true ↔ toLex ((x.get "sort").key, x.id) ≤ toLex ((y.get "sort").key, y.id) := by
  have hc := Cell.compare_compares hx hy
  rw [Prod.Lex.toLex_le_toLex]
  unfold Before
  cases h : (x.get "sort").compare (y.get "sort") <;> rw [h] at hc
  · simp [show (x.get "sort").key < (y.get "sort").key from hc]
  · simp [show (x.get "sort").key = (y.get "sort").key from hc]
  · have hc : (y.get "sort").key < (x.get "sort").key := hc
    simp [not_lt_of_gt hc, ne_of_gt hc]

/-- Status `st` is the first of the statuses that branch `β` may start at, by sort and then by
key. -/
def FirstOpen (statuses : List Row) (β : Int) (st : Row) : Prop :=
  st ∈ statuses ∧ Opens β st = true ∧ ∀ t ∈ statuses, Opens β t = true →
    toLex ((st.get "sort").key, st.id) ≤ toLex ((t.get "sort").key, t.id)

/-- The status the initial status of branch `β` reads: the head of the statuses it may start
at, sorted by sort and then by key. -/
def firstOpen (statuses : List Row) (β : Int) : Row :=
  ((statuses.filter (Opens β)).mergeSort Before).headD default

/-- **The head of the sorted candidates is the first of them.** On statuses whose sorts hold
no NaN, `Before` is the order of a linear order, so the merge sort puts a least one first. -/
theorem firstOpen_first {statuses : List Row} {β : Int}
    (hsort : ∀ st ∈ statuses, (st.get "sort").isNaN = false)
    (hne : (statuses.filter (Opens β)).mergeSort Before ≠ []) :
    FirstOpen statuses β (firstOpen statuses β) := by
  have hkey : ∀ t ∈ statuses.filter (Opens β), (t.get "sort").isNaN = false :=
    fun t ht => hsort t (List.mem_filter.1 ht).1
  have htrans : ∀ a ∈ statuses.filter (Opens β), ∀ b ∈ statuses.filter (Opens β),
      ∀ c ∈ statuses.filter (Opens β), Before a b = true → Before b c = true →
        Before a c = true := by
    intro a ha b hb c hc hab hbc
    exact (before_iff (hkey a ha) (hkey c hc)).2
      (le_trans ((before_iff (hkey a ha) (hkey b hb)).1 hab)
        ((before_iff (hkey b hb) (hkey c hc)).1 hbc))
  have htotal : ∀ a ∈ statuses.filter (Opens β), ∀ b ∈ statuses.filter (Opens β),
      (Before a b || Before b a) = true := by
    intro a ha b hb
    rcases le_total (toLex ((a.get "sort").key, a.id)) (toLex ((b.get "sort").key, b.id))
      with hab | hba
    · simp [(before_iff (hkey a ha) (hkey b hb)).2 hab]
    · simp [(before_iff (hkey b hb) (hkey a ha)).2 hba]
  obtain ⟨st, rest, hsorted⟩ := List.exists_cons_of_ne_nil hne
  have hhead : firstOpen statuses β = st := by simp [firstOpen, hsorted]
  have hmem : st ∈ statuses.filter (Opens β) := List.mem_mergeSort.1 (hsorted ▸ List.mem_cons_self)
  have hfirst := List.mergeSort_head_le htrans htotal hsorted
  rw [hhead]
  refine ⟨(List.mem_filter.1 hmem).1, (List.mem_filter.1 hmem).2, fun t ht ho => ?_⟩
  have ht' : t ∈ statuses.filter (Opens β) := List.mem_filter.2 ⟨ht, ho⟩
  exact (before_iff (hkey st hmem) (hkey t ht')).1 (hfirst t ht')

end Status

/-- **The initial status of a branch is its lowest by sort and key.** When no status holds a
NaN for its sort, as no stored one does, the initial status, if the branch has one, is the key
of the status of the branch that is open, active, does not end the workflow and comes first by
sort and then by key among such statuses. Reading it changes nothing. -/
theorem Orders.initialStatus_lowest {s : Session} {β : Int} (hβ : fitsInt64 β = true)
    (hsort : ∀ st ∈ s.db.statuses, (st.get "sort").isNaN = false)
    {v : Value} {s' : Session} (h : Orders.initialStatus (.int β) s = .ok v s') :
    s' = s ∧ v = .int (Status.firstOpen s.db.statuses β).id ∧
      Status.FirstOpen s.db.statuses β (Status.firstOpen s.db.statuses β) := by
  rw [Orders.initialStatus_run hβ] at h
  cases hsorted : (s.db.statuses.filter (Status.Opens β)).mergeSort Status.Before with
  | nil => rw [hsorted] at h; cases h
  | cons st rest =>
    rw [hsorted] at h
    cases h
    have hhead : Status.firstOpen s.db.statuses β = st := by simp [Status.firstOpen, hsorted]
    refine ⟨rfl, by rw [hhead], Status.firstOpen_first hsort (by simp [hsorted])⟩

end RepairShop
