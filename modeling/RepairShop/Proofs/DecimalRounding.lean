import Mathlib
import RepairShop.Proofs.DoubleModel

/- Rounding an exact ratio to a double, and a double to decimal places.

   `nearestBits p q` rounds `p / q` at the exponent `roundingExp p q`, 53 bits below the leading
   bit of the ratio (or at the subnormal exponent), to the mantissa `roundedMantissa p q`; a
   mantissa that rounds up to 54 bits carries into the exponent. `shape_ofRatio` gives the
   double this makes, read back through `shape`, for every positive ratio: the arithmetic of
   `nearestBits` and the bit layout of `shape` meet there.

   The bound that matters for decimal places: the double nearest to a ratio at most `B < 2 ^ 53`
   is finite and at most `B` (`ofRatio_le`). So rounding a double to any number of places keeps
   it within an integral bound (`roundPlaces_bounded`) and keeps it from going below zero
   (`roundPlaces_nonneg`), the comparisons being those the request readers make. -/

namespace RepairShop.Number

open Float.Model

/-! ## Powers of two -/

theorem pow2_pos (k : Int) : 0 < pow2 k := by
  simp only [pow2, Nat.pow_eq]; exact Nat.two_pow_pos _

theorem pow2_cast (k : Int) : ((pow2 k : Nat) : ℚ) = 2 ^ k.toNat := by
  simp [pow2]

/-- The two halves of `2 ^ k` that `pow2` keeps apart, one of them always `1`. -/
theorem pow2_div_pow2 (k : Int) : ((pow2 k : Nat) : ℚ) / (pow2 (-k) : Nat) = 2 ^ k := by
  rw [pow2_cast, pow2_cast]
  conv_rhs => rw [← Int.toNat_sub_toNat_neg k]
  rw [zpow_sub₀ (by norm_num), zpow_natCast, zpow_natCast]

/-- `a / b < 2 ^ k`, said in natural numbers. -/
theorem mul_pow2_lt_iff {a b : Nat} (hb : 0 < b) (k : Int) :
    a * pow2 (-k) < b * pow2 k ↔ (a : ℚ) / b < 2 ^ k := by
  rw [← pow2_div_pow2, div_lt_div_iff₀ (by exact_mod_cast hb) (by exact_mod_cast pow2_pos _),
    mul_comm ((pow2 k : Nat) : ℚ)]
  exact_mod_cast Iff.rfl

/-- `2 ^ k ≤ a / b`, said in natural numbers. -/
theorem pow2_le_mul_iff {a b : Nat} (hb : 0 < b) (k : Int) :
    b * pow2 k ≤ a * pow2 (-k) ↔ (2 : ℚ) ^ k ≤ a / b := by
  rw [← not_lt, mul_pow2_lt_iff hb, not_lt]

/-- `pow2` of an exponent that is not positive is one. -/
theorem pow2_of_nonpos {k : Int} (h : k ≤ 0) : pow2 k = 1 := by
  simp [pow2, Int.toNat_of_nonpos h]

theorem pow2_mono {a b : Int} (h : a ≤ b) : pow2 a ≤ pow2 b :=
  Nat.pow_le_pow_right (by omega) (by omega)

/-! ## Rounding a ratio -/

/-- Rounding never goes above an integer bound of the ratio. -/
theorem roundHalfEven_le {n d k : Nat} (hd : 0 < d) (h : n ≤ k * d) : roundHalfEven n d ≤ k := by
  have hq : n / d ≤ k := Nat.div_le_of_le_mul (by linarith [Nat.mul_comm k d])
  unfold roundHalfEven
  dsimp only
  rcases Nat.lt_or_ge (n / d) k with hlt | hge
  · split_ifs <;> omega
  · -- the quotient is `k` itself, with nothing left over
    have hqk : n / d = k := le_antisymm hq hge
    have hr : n % d = 0 := by
      have := Nat.div_add_mod n d
      rw [hqk, Nat.mul_comm] at this
      omega
    simp [hqk, hr, hd]

theorem roundHalfEven_zero (d : Nat) : roundHalfEven 0 d = 0 := by
  simp [roundHalfEven]

/-- Where `floorLog2` puts a ratio: `2 ^ l ≤ p / q < 2 ^ (l + 1)`. -/
theorem floorLog2_spec {p q : Nat} (hp : 0 < p) (hq : 0 < q) :
    (2 : ℚ) ^ floorLog2 p q ≤ (p : ℚ) / q ∧ (p : ℚ) / q < 2 ^ (floorLog2 p q + 1) := by
  have hp1 : (2 : ℚ) ^ p.log2 ≤ p := by exact_mod_cast Nat.log2_self_le (by omega)
  have hp2 : (p : ℚ) < 2 ^ (p.log2 + 1) := by exact_mod_cast Nat.lt_log2_self
  have hq1 : (2 : ℚ) ^ q.log2 ≤ q := by exact_mod_cast Nat.log2_self_le (by omega)
  have hq2 : (q : ℚ) < 2 ^ (q.log2 + 1) := by exact_mod_cast Nat.lt_log2_self
  have hqpos : (0 : ℚ) < q := by exact_mod_cast hq
  have hatLeast : (if 0 ≤ ((p.log2 : Int) - q.log2) then q * pow2 ((p.log2 : Int) - q.log2) ≤ p
      else q ≤ p * pow2 (-((p.log2 : Int) - q.log2))) ↔
      (2 : ℚ) ^ ((p.log2 : Int) - q.log2) ≤ (p : ℚ) / q := by
    rw [← pow2_le_mul_iff hq]
    split_ifs with h
    · have : pow2 (-((p.log2 : Int) - q.log2)) = 1 := by simp [pow2]; omega
      rw [this, Nat.mul_one, Nat.mul_comm]
    · have : pow2 ((p.log2 : Int) - q.log2) = 1 := by simp [pow2]; omega
      rw [this, Nat.mul_one]
  -- the two bounds `2^(a - b - 1) < p / q < 2^(a - b + 1)` from the logarithms of `p` and `q`
  have hupper : (p : ℚ) / q < 2 ^ (((p.log2 : Int) - q.log2) + 1) := by
    rw [div_lt_iff₀ hqpos]
    calc (p : ℚ) < 2 ^ (p.log2 + 1) := hp2
      _ = 2 ^ (((p.log2 : Int) - q.log2) + 1) * 2 ^ q.log2 := by
        rw [← zpow_natCast, ← zpow_natCast, ← zpow_add₀ (by norm_num)]; congr 1; push_cast; ring
      _ ≤ 2 ^ (((p.log2 : Int) - q.log2) + 1) * q := by gcongr
  have hlower : (2 : ℚ) ^ (((p.log2 : Int) - q.log2) - 1) < (p : ℚ) / q := by
    rw [lt_div_iff₀ hqpos]
    calc (2 : ℚ) ^ (((p.log2 : Int) - q.log2) - 1) * q
        < 2 ^ (((p.log2 : Int) - q.log2) - 1) * 2 ^ (q.log2 + 1) := by gcongr
      _ = 2 ^ p.log2 := by
        rw [← zpow_natCast, ← zpow_natCast, ← zpow_add₀ (by norm_num)]; congr 1; push_cast; ring
      _ ≤ p := hp1
  unfold floorLog2
  dsimp only
  by_cases hA : (2 : ℚ) ^ ((p.log2 : Int) - q.log2) ≤ (p : ℚ) / q
  · rw [if_pos (hatLeast.2 hA)]
    exact ⟨hA, hupper⟩
  · rw [if_neg (mt hatLeast.1 hA), sub_add_cancel]
    exact ⟨hlower.le, lt_of_not_ge hA⟩

theorem scaleDown_eq (p q : Nat) (e : Int) : scaleDown p q e = (p * pow2 (-e), q * pow2 e) := by
  unfold scaleDown
  split_ifs with h
  · have : pow2 (-e) = 1 := by simp [pow2]; omega
    simp [this]
  · have : pow2 e = 1 := by simp [pow2]; omega
    simp [this]

/-- The exponent at which a ratio is rounded: 53 bits below its leading bit, or the subnormal
exponent. -/
def roundingExp (p q : Nat) : Int := max (floorLog2 p q - 52) (-1074)

/-- The ratio `p / q` scaled to the rounding exponent `e`, as `scaleDown` leaves it. -/
theorem scaled_ratio (p q : Nat) (e : Int) :
    ((p * pow2 (-e) : Nat) : ℚ) / ((q * pow2 e : Nat) : ℚ) = (p : ℚ) / q * 2 ^ (-e) := by
  have h := pow2_div_pow2 (-e)
  rw [neg_neg] at h
  push_cast
  rw [mul_div_mul_comm, h]

/-- The mantissa that rounding `p / q` at `roundingExp p q` finds, before it is stored. -/
def roundedMantissa (p q : Nat) : Nat :=
  roundHalfEven (p * pow2 (-roundingExp p q)) (q * pow2 (roundingExp p q))

/-- The mantissa a rounding finds has at most 53 bits: the ratio is below `2 ^ (l + 1)` and is
scaled by at most `2 ^ (52 - l)`. -/
theorem roundedMantissa_le {p q : Nat} (hp : 0 < p) (hq : 0 < q) :
    roundedMantissa p q ≤ 2 ^ 53 := by
  have hden : 0 < q * pow2 (roundingExp p q) := Nat.mul_pos hq (pow2_pos _)
  apply roundHalfEven_le hden
  have hl := (floorLog2_spec hp hq).2
  have he : floorLog2 p q + 1 - roundingExp p q ≤ 53 := by
    unfold roundingExp; omega
  have hlt : ((p * pow2 (-roundingExp p q) : Nat) : ℚ) / ((q * pow2 (roundingExp p q) : Nat) : ℚ)
      < 2 ^ 53 := by
    rw [scaled_ratio]
    calc (p : ℚ) / q * 2 ^ (-roundingExp p q)
        < 2 ^ (floorLog2 p q + 1) * 2 ^ (-roundingExp p q) := by gcongr
      _ = 2 ^ (floorLog2 p q + 1 - roundingExp p q) := by
        rw [← zpow_add₀ (by norm_num)]; ring_nf
      _ ≤ 2 ^ (53 : Int) := zpow_le_zpow_right₀ (by norm_num) he
      _ = 2 ^ 53 := by norm_num
  rw [div_lt_iff₀ (by exact_mod_cast hden)] at hlt
  exact_mod_cast hlt.le

/-! ## The double nearest to a ratio -/

/-- The shape of a double with sign `s` whose other bits are those of a non-negative double
that is not a NaN. -/
theorem shape_signed (s : Bool) {bits : Nat} (hb : bits ≤ 2047 * 2 ^ 52) :
    shape (Float.ofBits (UInt64.ofNat (if s then bits + Nat.pow 2 63 else bits))) =
      if bits / 2 ^ 52 = 2047 then .infinite s
      else if bits / 2 ^ 52 = 0 then .finite s bits (-1074)
      else .finite s (bits % 2 ^ 52 + 2 ^ 52) (((bits / 2 ^ 52 : Nat) : Int) - 1075) := by
  generalize hn : (if s then bits + Nat.pow 2 63 else bits) = n
  have hlt : n < 2 ^ 64 := by
    subst hn; cases s <;> simp <;> omega
  have hsign : (n / 9223372036854775808 % 2 == 1) = s := by
    subst hn; cases s <;> simp <;> omega
  have hbiased : n / 4503599627370496 % 2048 = bits / 4503599627370496 := by
    subst hn; cases s <;> simp <;> omega
  have hfrac : n % 4503599627370496 = bits % 4503599627370496 := by
    subst hn
    cases s
    · rfl
    · simp; omega
  have hv : Format.binary64.Valid (UInt64.ofNat n).toBitVec := by
    apply valid_of_not_nan
    have : (UInt64.ofNat n).toBitVec.toNat = n := by simp; omega
    rw [this]
    simp only [Nat.reducePow, hbiased, hfrac]
    omega
  have hnat : (Float.ofBits (UInt64.ofNat n)).toBits.toNat = n := by
    rw [toBits_ofBits hv]; simp; omega
  unfold shape
  simp only [hnat]
  simp only [Nat.pow_eq, fracBits, minExp, Nat.reducePow]
  simp only [hsign, hbiased, hfrac, beq_iff_eq]
  -- the stored exponent decides the case on both sides; a top exponent has no fraction left
  split_ifs <;> first | rfl | (exfalso; omega) | (congr 1; omega)

/-- The bits of the double nearest to `p / q`, in terms of the mantissa `m` that rounding found
at the rounding exponent `e`: a mantissa of 54 bits carries into the exponent, one below 52 bits
is subnormal, and an exponent beyond the largest double gives an infinity. -/
theorem nearestBits_eq {p q : Nat} (hp : 0 < p) (hq : 0 < q) :
    nearestBits p q =
      if roundedMantissa p q = 2 ^ 53 then
        (if 971 ≤ roundingExp p q then 2047 * 2 ^ 52
         else (roundingExp p q + 1076).toNat * 2 ^ 52)
      else if roundedMantissa p q < 2 ^ 52 then roundedMantissa p q
      else if 972 ≤ roundingExp p q then 2047 * 2 ^ 52
      else (roundingExp p q + 1075).toNat * 2 ^ 52 + (roundedMantissa p q - 2 ^ 52) := by
  have hm := roundedMantissa_le hp hq
  unfold nearestBits roundedMantissa
  rw [if_neg (show ¬(p = 0 ∨ q = 0) by omega)]
  unfold roundedMantissa roundingExp at hm
  unfold roundingExp
  simp only [scaleDown_eq, fracBits, minExp, Nat.pow_eq, Nat.cast_ofNat, Nat.reducePow,
    Nat.reduceAdd]
  generalize max (floorLog2 p q - 52) (-1074) = e0 at hm ⊢
  generalize roundHalfEven (p * pow2 (-e0)) (q * pow2 e0) = m0 at hm ⊢
  split_ifs <;> omega

/-- Without a NaN among them, the bits of a nearest double stop at the infinity. -/
theorem nearestBits_le (p q : Nat) : nearestBits p q ≤ 2047 * 2 ^ 52 := by
  by_cases h0 : p = 0 ∨ q = 0
  · unfold nearestBits; rw [if_pos h0]; omega
  have hm := roundedMantissa_le (p := p) (q := q) (by omega) (by omega)
  rw [nearestBits_eq (by omega) (by omega)]
  split_ifs <;> omega

/-- The double nearest to `± p / q`, in terms of the mantissa `m` that rounding found at the
rounding exponent `e`. -/
theorem shape_ofRatio (s : Bool) {p q : Nat} (hp : 0 < p) (hq : 0 < q) :
    shape (ofRatio s p q) =
      if roundedMantissa p q = 2 ^ 53 then
        (if 971 ≤ roundingExp p q then .infinite s
         else .finite s (2 ^ 52) (roundingExp p q + 1))
      else if roundedMantissa p q < 2 ^ 52 then .finite s (roundedMantissa p q) (-1074)
      else if 972 ≤ roundingExp p q then .infinite s
      else .finite s (roundedMantissa p q) (roundingExp p q) := by
  have hm := roundedMantissa_le hp hq
  have he0 : -1074 ≤ roundingExp p q := le_max_right _ _
  unfold ofRatio
  dsimp only
  rw [shape_signed s (nearestBits_le p q), nearestBits_eq hp hq]
  generalize roundedMantissa p q = m0 at hm ⊢
  generalize roundingExp p q = e0 at he0 ⊢
  by_cases h53 : m0 = 2 ^ 53
  · by_cases hbig : 971 ≤ e0
    · simp only [if_pos h53, if_pos hbig]
      rw [if_pos (by omega)]
    · simp only [if_pos h53, if_neg hbig]
      rw [if_neg (by omega), if_neg (by omega)]
      congr 1 <;> omega
  · by_cases hsub : m0 < 2 ^ 52
    · simp only [if_neg h53, if_pos hsub]
      rw [if_neg (by omega), if_pos (by omega)]
    · by_cases hbig : 972 ≤ e0
      · simp only [if_neg h53, if_neg hsub, if_pos hbig]
        rw [if_pos (by omega)]
      · simp only [if_neg h53, if_neg hsub, if_neg hbig]
        rw [if_neg (by omega), if_neg (by omega)]
        congr 1 <;> omega

/-- Zero keeps its sign. -/
theorem shape_ofRatio_zero (s : Bool) (q : Nat) : shape (ofRatio s 0 q) = .finite s 0 (-1074) := by
  have h0 : nearestBits 0 q = 0 := by simp [nearestBits]
  unfold ofRatio
  dsimp only
  rw [h0, shape_signed s (by omega)]
  rfl

/-- The double nearest to `± p / q` keeps the sign `s`: it is finite or an infinity. -/
theorem shape_ofRatio_sign (s : Bool) (p q : Nat) :
    (∃ m e, shape (ofRatio s p q) = .finite s m e) ∨ shape (ofRatio s p q) = .infinite s := by
  unfold ofRatio
  dsimp only
  rw [shape_signed s (nearestBits_le p q)]
  split_ifs
  · exact Or.inr rfl
  · exact Or.inl ⟨_, _, rfl⟩
  · exact Or.inl ⟨_, _, rfl⟩

/-! ## A ratio within a bound -/

/-- A ratio below `2 ^ 53` is rounded at an exponent of at most zero: its mantissa carries all
of its integral part. -/
theorem roundingExp_nonpos {p q B : Nat} (hp : 0 < p) (hq : 0 < q) (hB : B < 2 ^ 53)
    (h : p ≤ B * q) : roundingExp p q ≤ 0 := by
  have hl := (floorLog2_spec hp hq).1
  have hle : (p : ℚ) / q ≤ B := by
    rw [div_le_iff₀ (by exact_mod_cast hq)]; exact_mod_cast h
  have hlt : (2 : ℚ) ^ floorLog2 p q < 2 ^ (53 : Int) :=
    calc (2 : ℚ) ^ floorLog2 p q ≤ B := hl.trans hle
      _ < 2 ^ 53 := by exact_mod_cast hB
      _ = 2 ^ (53 : Int) := by norm_num
  have := (zpow_lt_zpow_iff_right₀ (by norm_num : (1 : ℚ) < 2)).1 hlt
  unfold roundingExp
  omega

/-- Rounding at an exponent of at most zero keeps a bound `p ≤ B · q` on the scaled mantissa. -/
theorem roundedMantissa_le_of_le {p q B : Nat} (hq : 0 < q) (he : roundingExp p q ≤ 0)
    (h : p ≤ B * q) : roundedMantissa p q ≤ B * pow2 (-roundingExp p q) := by
  unfold roundedMantissa
  rw [pow2_of_nonpos he, Nat.mul_one]
  apply roundHalfEven_le hq
  calc p * pow2 (-roundingExp p q) ≤ B * q * pow2 (-roundingExp p q) := Nat.mul_le_mul_right _ h
    _ = B * pow2 (-roundingExp p q) * q := by ring

/-- The double nearest to `± p / q` with `p / q ≤ B < 2 ^ 53` is finite, keeps the sign, and its
magnitude `m · 2 ^ e` is at most `B`. -/
theorem ofRatio_le (s : Bool) {p q B : Nat} (hq : 0 < q) (hB : B < 2 ^ 53) (h : p ≤ B * q) :
    ∃ m e, shape (ofRatio s p q) = .finite s m e ∧ m * pow2 e ≤ B * pow2 (-e) := by
  rcases Nat.eq_zero_or_pos p with rfl | hp
  · exact ⟨0, -1074, shape_ofRatio_zero s q, by simp⟩
  have he := roundingExp_nonpos hp hq hB h
  have hm := roundedMantissa_le_of_le hq he h
  have he0 : -1074 ≤ roundingExp p q := le_max_right _ _
  rw [shape_ofRatio s hp hq]
  generalize roundedMantissa p q = m0 at hm ⊢
  generalize roundingExp p q = e0 at he he0 hm ⊢
  by_cases h53 : m0 = 2 ^ 53
  · -- a carry: `2 ^ 53 ≤ B · 2 ^ t` needs `t ≥ 1`, and the value is `2 ^ 52 · 2 ^ (1 - t)`
    obtain ⟨t, rfl⟩ : ∃ t : Nat, e0 = -((t : Int) + 1) := by
      refine ⟨(-e0 - 1).toNat, ?_⟩
      by_contra hne
      have : e0 = 0 := by omega
      subst this
      simp [pow2, h53] at hm
      omega
    rw [if_pos h53, if_neg (by omega)]
    refine ⟨_, _, rfl, ?_⟩
    have h1 : pow2 (-((t : Int) + 1) + 1) = 1 := pow2_of_nonpos (by omega)
    have h2 : pow2 (-(-((t : Int) + 1) + 1)) = 2 ^ t := by simp [pow2]
    have h3 : pow2 (-(-((t : Int) + 1))) = 2 ^ t * 2 := by
      simp only [pow2, neg_neg, Nat.pow_eq]
      rw [show ((t : Int) + 1).toNat = t + 1 by omega, Nat.pow_succ]
    rw [h1, h2]
    rw [h3, h53, ← Nat.mul_assoc] at hm
    omega
  rw [if_neg h53]
  by_cases hsub : m0 < 2 ^ 52
  · rw [if_pos hsub]
    refine ⟨_, _, rfl, ?_⟩
    calc m0 * pow2 (-1074) = m0 := by simp [pow2]
      _ ≤ B * pow2 (-e0) := hm
      _ ≤ B * pow2 (-(-1074)) := Nat.mul_le_mul_left _ (pow2_mono (by omega))
  · rw [if_neg hsub, if_neg (by omega)]
    refine ⟨_, _, rfl, ?_⟩
    rw [pow2_of_nonpos he, Nat.mul_one]
    exact hm

/-! ## Rounding to decimal places keeps bounds -/

/-- `x` is not below `-B` and not above `B`, as the exact comparison sees it; a NaN compares
with nothing and so lies within every bound. -/
def Bounded (B : Nat) (x : Float) : Prop :=
  compareInt x (-B) ≠ some .lt ∧ compareInt x B ≠ some .gt

/-- A finite double lies within `B` exactly when its magnitude does, whatever its sign. -/
theorem bounded_iff {x : Float} {s : Bool} {m : Nat} {e : Int} (h : shape x = .finite s m e)
    (B : Nat) : Bounded B x ↔ m * pow2 e ≤ B * pow2 (-e) := by
  rw [Bounded, compareInt_finite h, compareInt_finite h]
  have hp : 0 < pow2 (-e) := pow2_pos _
  generalize m * pow2 e = a
  generalize pow2 (-e) = b at hp
  cases s <;> simp [compare_lt_iff_lt, compare_gt_iff_gt] <;> constructor <;> intro h <;> omega

/-- Not below zero, as the exact comparison sees it. -/
def Nonneg (x : Float) : Prop := compareInt x 0 ≠ some .lt

theorem roundPlaces_of_not_finite {x : Float} (h : ∀ s m e, shape x ≠ .finite s m e)
    (k : Nat) : roundPlaces x k = x := by
  unfold roundPlaces
  split
  · rename_i hx; exact absurd hx (h _ _ _)
  · rfl

/-- A finite double is not below zero exactly when it is positive or a zero. -/
theorem nonneg_iff {x : Float} {s : Bool} {m : Nat} {e : Int} (h : shape x = .finite s m e) :
    Nonneg x ↔ s = false ∨ m = 0 := by
  rw [Nonneg, compareInt_finite h]
  have hp : 0 < pow2 e := pow2_pos _
  cases s
  · simp [compare_lt_iff_lt]
    positivity
  · simp only [if_true, zero_mul, ne_eq, Option.some.injEq,
      compare_lt_iff_lt, Left.neg_neg_iff, Nat.cast_pos, not_lt, Nat.le_zero, Nat.mul_eq_zero,
      Bool.true_eq_false, false_or]
    omega

theorem nonneg_of_infinite {x : Float} (h : shape x = .infinite false) : Nonneg x := by
  simp [Nonneg, compareInt, h]

/-- A finite double rounded to `k` places is the double nearest to `± N / 10 ^ k`, where `N` is
its value times `10 ^ k` rounded to an integer. -/
theorem roundPlaces_finite {x : Float} {s : Bool} {m : Nat} {e : Int}
    (h : shape x = .finite s m e) (k : Nat) :
    roundPlaces x k =
      ofRatio s (roundHalfEven (m * Nat.pow 10 k * pow2 e) (pow2 (-e))) (Nat.pow 10 k) := by
  unfold roundPlaces
  rw [h]

/-- Rounding to `k` places keeps a double within an integral bound below `2 ^ 53`: its value
times `10 ^ k` rounds to at most `B · 10 ^ k`, and the double nearest to that over `10 ^ k` is at
most `B`. -/
theorem roundPlaces_bounded {B : Nat} (hB : B < 2 ^ 53) {x : Float} (h : Bounded B x)
    (k : Nat) : Bounded B (roundPlaces x k) := by
  rcases hx : shape x with _ | s | ⟨s, m, e⟩
  · rw [roundPlaces_of_not_finite (by simp [hx])]; exact h
  · rw [roundPlaces_of_not_finite (by simp [hx])]; exact h
  have hle := (bounded_iff hx B).1 h
  have hQ : 0 < Nat.pow 10 k := Nat.pow_pos (by omega)
  have hN : roundHalfEven (m * Nat.pow 10 k * pow2 e) (pow2 (-e)) ≤ B * Nat.pow 10 k := by
    apply roundHalfEven_le (pow2_pos _)
    calc m * Nat.pow 10 k * pow2 e = m * pow2 e * Nat.pow 10 k := by ring
      _ ≤ B * pow2 (-e) * Nat.pow 10 k := Nat.mul_le_mul_right _ hle
      _ = B * Nat.pow 10 k * pow2 (-e) := by ring
  obtain ⟨m', e', hs, hb⟩ := ofRatio_le s hQ hB hN
  rw [roundPlaces_finite hx, bounded_iff hs]
  exact hb

/-- Rounding to `k` places keeps a double from going below zero: a positive value stays
positive (possibly rounding to zero or, far out, to infinity) and a negative zero stays zero. -/
theorem roundPlaces_nonneg {x : Float} (h : Nonneg x) (k : Nat) : Nonneg (roundPlaces x k) := by
  rcases hx : shape x with _ | s | ⟨s, m, e⟩
  · rw [roundPlaces_of_not_finite (by simp [hx])]; exact h
  · rw [roundPlaces_of_not_finite (by simp [hx])]; exact h
  rw [roundPlaces_finite hx]
  rcases (nonneg_iff hx).1 h with rfl | rfl
  · rcases shape_ofRatio_sign false
      (roundHalfEven (m * Nat.pow 10 k * pow2 e) (pow2 (-e))) (Nat.pow 10 k) with
      ⟨m', e', hs⟩ | hs
    · exact (nonneg_iff hs).2 (Or.inl rfl)
    · exact nonneg_of_infinite hs
  · simp only [Nat.zero_mul, roundHalfEven_zero]
    exact (nonneg_iff (shape_ofRatio_zero s _)).2 (Or.inr rfl)

end RepairShop.Number
