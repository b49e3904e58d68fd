import Mathlib
import RepairShop.Proofs.DecimalRounding

/- The double nearest to a ratio, and rounding to decimal places twice.

   `roundHalfEven n d` is within half a unit of `n / d`, and is the only whole number within
   less than that (`abs_roundHalfEven_sub_le`, `roundHalfEven_eq_of_abs_lt`). So the mantissa
   that `nearestBits` finds is within half a unit in its last place of the ratio
   (`roundedMantissa_near`), and conversely a canonical double within less than half a unit in
   its last place of a positive ratio is the double `ofRatio` gives
   (`shape_ofRatio_of_near`), the least mantissa of a binade apart: below it the units halve.

   Rounding to `k` places rounds a double's value times `10 ^ k` to a whole number `N` and
   takes the double nearest to `N / 10 ^ k`. Doing it again finds that double again
   (`roundPlaces_roundPlaces`, for `k ≤ 15`): either `10 ^ -k` is below half the last place of
   the double, and the whole number found is `N` again, or the double's value times `10 ^ k`
   is whole, or the double is nearest to the new ratio as well. -/

namespace RepairShop.Number

/-! ## Rounding to the nearest whole number -/

/-- Rounding puts the quotient within half a unit: `|n / d - roundHalfEven n d| ≤ 1 / 2`,
said in natural numbers. -/
theorem roundHalfEven_near (n : Nat) {d : Nat} (hd : 0 < d) :
    2 * n ≤ 2 * (roundHalfEven n d * d) + d ∧ 2 * (roundHalfEven n d * d) ≤ 2 * n + d := by
  have h := Nat.div_add_mod n d
  have hr := Nat.mod_lt n hd
  unfold roundHalfEven
  dsimp only
  rw [Nat.mul_comm] at h
  generalize n / d = Q at *
  generalize n % d = R at *
  subst h
  split_ifs <;> (try simp only [Nat.add_mul, Nat.one_mul]) <;> omega

/-- The integer within less than half a unit of the quotient is its rounding. -/
theorem roundHalfEven_eq_of_near {n d K : Nat} (hd : 0 < d) (hlo : 2 * n < 2 * (K * d) + d)
    (hhi : 2 * (K * d) < 2 * n + d) : roundHalfEven n d = K := by
  obtain ⟨h1, h2⟩ := roundHalfEven_near n hd
  have hlt : roundHalfEven n d * d < (K + 1) * d := by rw [Nat.add_mul]; omega
  have hgt : K * d < (roundHalfEven n d + 1) * d := by rw [Nat.add_mul]; omega
  have := Nat.lt_of_mul_lt_mul_right hlt
  have := Nat.lt_of_mul_lt_mul_right hgt
  omega

theorem le_roundHalfEven {n d K : Nat} (hd : 0 < d) (h : K * d ≤ n) : K ≤ roundHalfEven n d := by
  have hq : K ≤ n / d := (Nat.le_div_iff_mul_le hd).2 h
  unfold roundHalfEven
  dsimp only
  split_ifs <;> omega

/-- `|K - n / d| < 1 / 2`, said in natural numbers. -/
theorem abs_sub_div_lt_iff {n d K : Nat} (hd : 0 < d) :
    |(K : ℚ) - n / d| < 1 / 2 ↔ 2 * n < 2 * (K * d) + d ∧ 2 * (K * d) < 2 * n + d := by
  have hd' : (0 : ℚ) < d := by exact_mod_cast hd
  have e : (K : ℚ) - n / d = ((K : ℚ) * d - n) / d := by field_simp
  rw [e, abs_div, abs_of_pos hd', div_lt_iff₀ hd', abs_lt]
  constructor
  · rintro ⟨h1, h2⟩
    constructor
    · have : (2 * n : ℚ) < 2 * (K * d) + d := by linarith
      exact_mod_cast this
    · have : (2 * (K * d) : ℚ) < 2 * n + d := by linarith
      exact_mod_cast this
  · rintro ⟨h1, h2⟩
    have h1' : (2 * n : ℚ) < 2 * (K * d) + d := by exact_mod_cast h1
    have h2' : (2 * (K * d) : ℚ) < 2 * n + d := by exact_mod_cast h2
    constructor <;> linarith

/-- Rounding is within half a unit of the quotient. -/
theorem abs_roundHalfEven_sub_le {n d : Nat} (hd : 0 < d) :
    |(roundHalfEven n d : ℚ) - n / d| ≤ 1 / 2 := by
  obtain ⟨h1, h2⟩ := roundHalfEven_near n hd
  have hd' : (0 : ℚ) < d := by exact_mod_cast hd
  have h1' : (2 * n : ℚ) ≤ 2 * (roundHalfEven n d * d) + d := by exact_mod_cast h1
  have h2' : (2 * (roundHalfEven n d * d) : ℚ) ≤ 2 * n + d := by exact_mod_cast h2
  have e : (roundHalfEven n d : ℚ) - n / d = ((roundHalfEven n d : ℚ) * d - n) / d := by
    field_simp
  rw [e, abs_div, abs_of_pos hd', div_le_iff₀ hd', abs_le]
  constructor <;> linarith

theorem roundHalfEven_eq_of_abs_lt {n d K : Nat} (hd : 0 < d) (h : |(K : ℚ) - n / d| < 1 / 2) :
    roundHalfEven n d = K :=
  roundHalfEven_eq_of_near hd ((abs_sub_div_lt_iff hd).1 h).1 ((abs_sub_div_lt_iff hd).1 h).2

/-! ## The nearest double -/

/-- The mantissa rounding finds is within half a unit in its last place of the ratio. -/
theorem roundedMantissa_near {p q : Nat} (hq : 0 < q) :
    |(roundedMantissa p q : ℚ) * 2 ^ roundingExp p q - p / q| ≤ 2 ^ roundingExp p q / 2 := by
  have hd : 0 < q * pow2 (roundingExp p q) := Nat.mul_pos hq (pow2_pos _)
  have h := abs_roundHalfEven_sub_le (n := p * pow2 (-roundingExp p q)) hd
  rw [scaled_ratio] at h
  have hE : (0 : ℚ) < 2 ^ roundingExp p q := by positivity
  have e : (roundedMantissa p q : ℚ) * 2 ^ roundingExp p q - p / q =
      ((roundedMantissa p q : ℚ) - p / q * 2 ^ (-roundingExp p q)) * 2 ^ roundingExp p q := by
    rw [sub_mul, mul_assoc, ← zpow_add₀ two_ne_zero, neg_add_cancel, zpow_zero, mul_one]
  rw [e, abs_mul, abs_of_pos hE]
  unfold roundedMantissa
  calc _ ≤ 1 / 2 * (2 : ℚ) ^ roundingExp p q := by gcongr
    _ = _ := by ring

/-- A mantissa rounded below 53 bits was rounded at the subnormal exponent: at any larger
exponent the ratio has its leading bit at place 52. -/
theorem roundingExp_of_lt {p q : Nat} (hp : 0 < p) (hq : 0 < q)
    (h : roundedMantissa p q < 2 ^ 52) : roundingExp p q = -1074 := by
  by_contra hne
  have hE : roundingExp p q = floorLog2 p q - 52 := by unfold roundingExp at hne ⊢; omega
  have hl := (floorLog2_spec hp hq).1
  have hd : 0 < q * pow2 (roundingExp p q) := Nat.mul_pos hq (pow2_pos _)
  have hdq : (0 : ℚ) < ((q * pow2 (roundingExp p q) : Nat) : ℚ) := by exact_mod_cast hd
  -- scaled to the rounding exponent the ratio is at least `2 ^ 52`
  have hratio : (2 : ℚ) ^ 52 ≤ ((p * pow2 (-roundingExp p q) : Nat) : ℚ) /
      ((q * pow2 (roundingExp p q) : Nat) : ℚ) := by
    rw [scaled_ratio, hE]
    calc (2 : ℚ) ^ 52 = 2 ^ floorLog2 p q * 2 ^ (-(floorLog2 p q - 52)) := by
          rw [← zpow_add₀ two_ne_zero]; norm_num
      _ ≤ (p : ℚ) / q * 2 ^ (-(floorLog2 p q - 52)) := by gcongr
  rw [le_div_iff₀ hdq] at hratio
  have hn : 2 ^ 52 * (q * pow2 (roundingExp p q)) ≤ p * pow2 (-roundingExp p q) := by
    exact_mod_cast hratio
  have := le_roundHalfEven hd hn
  unfold roundedMantissa at h
  omega

/-- The mantissa and exponent of a finite double as `shape` reads them: a normal double has a
mantissa of 53 bits and an exponent from `-1074` to `971`, a subnormal one a shorter mantissa
at the least exponent. -/
def Canonical (m : Nat) (e : Int) : Prop :=
  (2 ^ 52 ≤ m ∧ m < 2 ^ 53 ∧ -1074 ≤ e ∧ e ≤ 971) ∨ (m < 2 ^ 52 ∧ e = -1074)

/-- The double nearest to a positive ratio, when finite, is its rounded mantissa at the rounding
exponent (a carry moved into the exponent), in canonical form. -/
theorem ofRatio_finite {s s' : Bool} {p q m : Nat} {e : Int} (hp : 0 < p) (hq : 0 < q)
    (h : shape (ofRatio s p q) = .finite s' m e) :
    s' = s ∧ Canonical m e ∧ (m : ℚ) * 2 ^ e = roundedMantissa p q * 2 ^ roundingExp p q ∧
      roundingExp p q ≤ e := by
  have hm := roundedMantissa_le hp hq
  have he0 : -1074 ≤ roundingExp p q := le_max_right _ _
  have hsub := roundingExp_of_lt hp hq
  rw [shape_ofRatio s hp hq] at h
  generalize roundedMantissa p q = m0 at hm hsub h ⊢
  generalize roundingExp p q = e0 at he0 hsub h ⊢
  by_cases h53 : m0 = 2 ^ 53
  · subst h53
    by_cases hbig : 971 ≤ e0
    · rw [if_pos rfl, if_pos hbig] at h; cases h
    · rw [if_pos rfl, if_neg hbig] at h
      cases h
      refine ⟨rfl, Or.inl ⟨le_rfl, by norm_num, by omega, by omega⟩, ?_, by omega⟩
      rw [zpow_add₀ two_ne_zero]
      push_cast
      ring
  · rw [if_neg h53] at h
    by_cases hs : m0 < 2 ^ 52
    · rw [if_pos hs] at h
      cases h
      exact ⟨rfl, Or.inr ⟨hs, rfl⟩, by rw [hsub hs], by rw [hsub hs]⟩
    · by_cases hbig : 972 ≤ e0
      · rw [if_neg hs, if_pos hbig] at h; cases h
      · rw [if_neg hs, if_neg hbig] at h
        cases h
        exact ⟨rfl, Or.inl ⟨by omega, by omega, he0, by omega⟩, rfl, le_rfl⟩

/-- The double nearest to a positive ratio is a given canonical double when the ratio is within
less than half a unit in its last place, and, for the least mantissa of a binade, not below it:
below it the units halve. -/
theorem shape_ofRatio_of_near (s : Bool) {p q m : Nat} {e : Int} (hp : 0 < p) (hq : 0 < q)
    (hc : Canonical m e) (hnear : |(m : ℚ) * 2 ^ e - p / q| < 2 ^ e / 2)
    (hlow : 2 ^ 52 < m ∨ (m : ℚ) * 2 ^ e ≤ p / q ∨ e = -1074) :
    shape (ofRatio s p q) = .finite s m e := by
  have hpos : (0 : ℚ) < 2 ^ e := by positivity
  have hm53 : m < 2 ^ 53 := by rcases hc with h | h <;> omega
  obtain ⟨hlo, hhi⟩ := abs_lt.1 hnear
  -- the ratio lies below the next binade
  have hup : (p : ℚ) / q < 2 ^ (e + 53) := by
    have hm1 : (m : ℚ) + 1 ≤ 2 ^ 53 := by exact_mod_cast hm53
    have := mul_le_mul_of_nonneg_right hm1 hpos.le
    rw [zpow_add₀ two_ne_zero, show (2 : ℚ) ^ (53 : ℤ) = 2 ^ 53 by norm_num]
    nlinarith
  have hl := floorLog2_spec hp hq
  have hlt : floorLog2 p q < e + 53 :=
    (zpow_lt_zpow_iff_right₀ one_lt_two).1 (hl.1.trans_lt hup)
  have hE : roundingExp p q = e := by
    unfold roundingExp
    by_cases he : e = -1074
    · omega
    -- a normal double: the ratio has its leading bit at place `e + 52`
    have hnormal : 2 ^ 52 ≤ m ∧ -1074 ≤ e := by
      rcases hc with h | h
      · exact ⟨h.1, h.2.2.1⟩
      · exact absurd h.2 he
    have hdown : (2 : ℚ) ^ (e + 52) ≤ p / q := by
      rw [zpow_add₀ two_ne_zero, show (2 : ℚ) ^ (52 : ℤ) = 2 ^ 52 by norm_num]
      rcases hlow with h | h | h
      · have hm : (2 : ℚ) ^ 52 + 1 ≤ m := by exact_mod_cast h
        have := mul_le_mul_of_nonneg_right hm hpos.le
        nlinarith
      · have hm : (2 : ℚ) ^ 52 ≤ m := by exact_mod_cast hnormal.1
        have := mul_le_mul_of_nonneg_right hm hpos.le
        nlinarith
      · exact absurd h he
    have hge : e + 52 < floorLog2 p q + 1 :=
      (zpow_lt_zpow_iff_right₀ one_lt_two).1 (hdown.trans_lt hl.2)
    omega
  have hM : roundedMantissa p q = m := by
    unfold roundedMantissa
    apply roundHalfEven_eq_of_abs_lt (Nat.mul_pos hq (pow2_pos _))
    rw [scaled_ratio, hE]
    have e1 : (m : ℚ) - p / q * 2 ^ (-e) = ((m : ℚ) * 2 ^ e - p / q) * 2 ^ (-e) := by
      rw [sub_mul, mul_assoc, ← zpow_add₀ two_ne_zero, add_neg_cancel, zpow_zero, mul_one]
    rw [e1, abs_mul, abs_of_pos (show (0 : ℚ) < 2 ^ (-e) by positivity)]
    calc _ < 2 ^ e / 2 * (2 : ℚ) ^ (-e) := by gcongr
      _ = 1 / 2 := by
        rw [div_mul_eq_mul_div, ← zpow_add₀ two_ne_zero, add_neg_cancel, zpow_zero]
  rw [shape_ofRatio s hp hq, hM, hE, if_neg (by omega)]
  rcases hc with ⟨h1, h2, h3, h4⟩ | ⟨h1, rfl⟩
  · rw [if_neg (by omega), if_neg (by omega)]
  · rw [if_pos h1]

/-- Two nearest doubles of one sign with the same shape are the same double. -/
theorem ofRatio_eq_of_shape_eq {s : Bool} {p q p' q' : Nat}
    (h : shape (ofRatio s p q) = shape (ofRatio s p' q')) : ofRatio s p q = ofRatio s p' q' := by
  have hb := nearestBits_le p q
  have hb' := nearestBits_le p' q'
  unfold ofRatio at h ⊢
  dsimp only at h ⊢
  rw [shape_signed s hb, shape_signed s hb'] at h
  suffices nearestBits p q = nearestBits p' q' by rw [this]
  generalize nearestBits p q = b at hb h
  generalize nearestBits p' q' = b' at hb' h
  simp only [Nat.reducePow, Nat.reduceMul] at hb hb' h
  split_ifs at h <;> simp only [Shape.finite.injEq, true_and] at h <;> omega

/-! ## Rounding to places twice -/

/-- A double's value times `q`, as the rounding to places computes it. -/
theorem scaled_value (m q : Nat) (e : Int) :
    ((m * q * pow2 e : Nat) : ℚ) / (pow2 (-e) : Nat) = m * 2 ^ e * q := by
  push_cast
  rw [mul_div_assoc, pow2_div_pow2]
  ring

/-- Rounding again a double whose value times `q` is a whole number `K` finds the double again. -/
theorem reround_exact (s : Bool) {q m K : Nat} {e : Int} (hq : 0 < q) (hc : Canonical m e)
    (hm : 0 < m) (hK : (K : ℚ) = m * 2 ^ e * q) :
    shape (ofRatio s (roundHalfEven (m * q * pow2 e) (pow2 (-e))) q) = .finite s m e := by
  have hN : roundHalfEven (m * q * pow2 e) (pow2 (-e)) = K :=
    roundHalfEven_eq_of_abs_lt (pow2_pos _) (by rw [scaled_value, hK]; norm_num)
  have hqpos : (0 : ℚ) < q := by exact_mod_cast hq
  have hKq : (K : ℚ) / q = m * 2 ^ e := by rw [hK]; field_simp
  have hKpos : 0 < K := by
    have : (0 : ℚ) < K := by rw [hK]; positivity
    exact_mod_cast this
  rw [hN]
  refine shape_ofRatio_of_near s hKpos hq hc ?_ (Or.inr (Or.inl hKq.ge))
  rw [hKq, sub_self, abs_zero]
  positivity

/-- Rounding again a double of more than the least mantissa of its binade, when `1 / q` is below
its last place, finds the double again: the whole number nearest to its value times `q` is
within `1 / (2 q)` of it once divided by `q`. -/
theorem reround_near (s : Bool) {q m : Nat} {e : Int} (hq : 0 < q) (hc : Canonical m e)
    (hm : 2 ^ 52 < m) (hqe : 1 < (q : ℚ) * 2 ^ e) :
    shape (ofRatio s (roundHalfEven (m * q * pow2 e) (pow2 (-e))) q) = .finite s m e := by
  have hN := abs_roundHalfEven_sub_le (n := m * q * pow2 e) (pow2_pos (-e))
  rw [scaled_value] at hN
  generalize roundHalfEven (m * q * pow2 e) (pow2 (-e)) = N at hN ⊢
  have hqpos : (0 : ℚ) < q := by exact_mod_cast hq
  have hpos : (0 : ℚ) < 2 ^ e := by positivity
  have hm1 : (1 : ℚ) ≤ m := by exact_mod_cast (show 1 ≤ m by omega)
  have hnear : |(m : ℚ) * 2 ^ e - N / q| < 2 ^ e / 2 := by
    have e1 : (m : ℚ) * 2 ^ e - N / q = -(((N : ℚ) - m * 2 ^ e * q) / q) := by
      field_simp
      ring
    rw [e1, abs_neg, abs_div, abs_of_pos hqpos, div_lt_iff₀ hqpos]
    calc _ ≤ (1 : ℚ) / 2 := hN
      _ < 2 ^ e / 2 * q := by nlinarith
  -- the value times `q` is above one, so the nearest whole number is not zero
  have hNpos : 0 < N := by
    rcases Nat.eq_zero_or_pos N with rfl | h
    · have : (1 : ℚ) < m * 2 ^ e * q := by nlinarith
      rw [abs_le] at hN
      push_cast at hN
      linarith [hN.1]
    · exact h
  exact shape_ofRatio_of_near s hNpos hq hc hnear (Or.inl hm)

/-- A double whose value times `q < 2 ^ 52` is at least one has its last place above `2 ^ -52`. -/
theorem neg_fiftyTwo_lt {q : Nat} {e : Int} (hq52 : q < 2 ^ 52) (h : 1 ≤ (q : ℚ) * 2 ^ e) :
    -52 < e := by
  have hq : (q : ℚ) < 2 ^ 52 := by exact_mod_cast hq52
  have hlt : (2 : ℚ) ^ (0 : Int) < 2 ^ (52 + e) := by
    rw [zpow_zero, zpow_add₀ two_ne_zero, show (2 : ℚ) ^ (52 : ℤ) = 2 ^ 52 by norm_num]
    have hpos : (0 : ℚ) < 2 ^ e := by positivity
    nlinarith
  have := (zpow_lt_zpow_iff_right₀ one_lt_two).1 hlt
  omega

/-- Rounding to a denominator `q < 2 ^ 52` is settled: the double nearest to `± p / q`, rounded
to a whole number of `1 / q` and read back, is itself. Either `1 / q` is below half its last
place and the whole number found is `p` again, or its value times `q` is whole, or it is not the
least mantissa of its binade and lies nearest to the new ratio. -/
theorem reround_ofRatio {s : Bool} {p q m : Nat} {e : Int} (hp : 0 < p) (hq : 0 < q)
    (hq52 : q < 2 ^ 52) (hs : shape (ofRatio s p q) = .finite s m e) :
    ofRatio s (roundHalfEven (m * q * pow2 e) (pow2 (-e))) q = ofRatio s p q := by
  obtain ⟨-, hc, hval, hEe⟩ := ofRatio_finite hp hq hs
  have hqpos : (0 : ℚ) < q := by exact_mod_cast hq
  have hpos : (0 : ℚ) < 2 ^ e := by positivity
  have hnear : |(m : ℚ) * 2 ^ e - p / q| ≤ 2 ^ e / 2 := by
    rw [hval]
    exact (roundedMantissa_near hq).trans (by gcongr; norm_num)
  by_cases hsmall : (q : ℚ) * 2 ^ e < 1
  · -- the value times `q` is within less than a half of `p`
    congr 1
    refine roundHalfEven_eq_of_abs_lt (pow2_pos _) ?_
    rw [scaled_value]
    have e1 : (p : ℚ) - m * 2 ^ e * q = -((m * 2 ^ e - p / q) * q) := by field_simp; ring
    rw [e1, abs_neg, abs_mul, abs_of_pos hqpos]
    calc _ ≤ 2 ^ e / 2 * (q : ℚ) := by gcongr
      _ < 1 / 2 := by nlinarith
  rw [not_lt] at hsmall
  have he52 := neg_fiftyTwo_lt hq52 hsmall
  have hnormal : 2 ^ 52 ≤ m := by
    rcases hc with h | h
    · exact h.1
    · omega
  apply ofRatio_eq_of_shape_eq
  rw [hs]
  by_cases hone : (q : ℚ) * 2 ^ e = 1
  · exact reround_exact s hq hc (by omega) (K := m) (by rw [mul_assoc, mul_comm _ (q : ℚ), hone,
      mul_one])
  by_cases he0 : 0 ≤ e
  · refine reround_exact s hq hc (by omega) (K := m * pow2 e * q) ?_
    have : ((pow2 e : Nat) : ℚ) = 2 ^ e := by
      rw [pow2_cast, ← zpow_natCast, Int.toNat_of_nonneg he0]
    push_cast
    rw [this]
  by_cases hm : m = 2 ^ 52
  · -- the least mantissa of a binade: its value is `2 ^ (52 + e)`, a whole number
    refine reround_exact s hq hc (by omega) (K := 2 ^ (52 + e).toNat * q) ?_
    subst hm
    have : (2 : ℚ) ^ (52 + e).toNat = 2 ^ 52 * 2 ^ e := by
      rw [← zpow_natCast, Int.toNat_of_nonneg (by omega), zpow_add₀ two_ne_zero]
      norm_num
    push_cast
    rw [this]
    norm_num
  exact reround_near s hq hc (by omega) (lt_of_le_of_ne hsmall (Ne.symm hone))

/-- **Rounding to places is idempotent** for up to fifteen places: a double rounded to `k`
places and rounded to `k` places again is unchanged. -/
theorem roundPlaces_roundPlaces {k : Nat} (hk : k ≤ 15) (x : Float) :
    roundPlaces (roundPlaces x k) k = roundPlaces x k := by
  have hq : 0 < Nat.pow 10 k := Nat.pow_pos (by omega)
  have hq52 : Nat.pow 10 k < 2 ^ 52 :=
    calc Nat.pow 10 k ≤ Nat.pow 10 15 := Nat.pow_le_pow_right (by omega) hk
      _ < 2 ^ 52 := by decide
  rcases hx : shape x with _ | s | ⟨s, m, e⟩
  · have hfix : roundPlaces x k = x := roundPlaces_of_not_finite (by simp [hx]) k
    rw [hfix, hfix]
  · have hfix : roundPlaces x k = x := roundPlaces_of_not_finite (by simp [hx]) k
    rw [hfix, hfix]
  rw [roundPlaces_finite hx]
  generalize roundHalfEven (m * Nat.pow 10 k * pow2 e) (pow2 (-e)) = N
  rcases Nat.eq_zero_or_pos N with rfl | hN
  · rw [roundPlaces_finite (shape_ofRatio_zero s _), Nat.zero_mul, Nat.zero_mul,
      roundHalfEven_zero]
  rcases shape_ofRatio_sign s N (Nat.pow 10 k) with ⟨m', e', hs⟩ | hinf
  · rw [roundPlaces_finite hs]
    exact reround_ofRatio hN hq hq52 hs
  · exact roundPlaces_of_not_finite (fun _ _ _ h => by rw [hinf] at h; cases h) k

end RepairShop.Number
