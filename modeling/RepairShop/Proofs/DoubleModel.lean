import Mathlib
import RepairShop.Number.Places
import RepairShop.Proofs.AuditValues

/- Doubles as the project reads them, against the float model of the language.

   `Number.shape` reads a double off its 64 bits with `Nat` arithmetic: a sign, then NaN, an
   infinity, or `mant · 2^exp` (a zero is a finite shape with mantissa `0`). The order of `Float`
   (`<`) is defined by the float model instead, on the unpacked form `Float.Model.UnpackedFloat`
   that the model reads off the same bits with bit-vector operations. This file proves

   1. that the two readings agree (`Number.unpack_eq_toUnpacked`), and that a valid bit pattern
      survives being made into a double and read back (`Number.toBits_ofBits`);
   2. that `Number.compareInt` compares a double with an integer by its exact value
      (`Number.compareInt_finite`);
   3. that against a double of integer value such as `90.0` or `180.0`, the order of the float
      model is that exact comparison (`Number.lt_iff_compareInt`, `Number.ninety_lt_iff`,
      `Number.oneEighty_lt_iff`): the exponent-then-mantissa order of the model is the order of
      values because the mantissa of a double fills its 53 bits unless it is subnormal. -/

namespace RepairShop.Number

open Float.Model Float.Model.UnpackedFloat

/-! ## The fields of a bit pattern -/

theorem unpackMantissa_toNat (b : BitVec 64) :
    (@unpackMantissa Format.binary64 b).toNat = b.toNat % 2 ^ 52 := by
  simp [unpackMantissa, BitVec.extractLsb, BitVec.extractLsb'_toNat]

theorem unpackExponent_toNat (b : BitVec 64) :
    (@unpackExponent Format.binary64 b).toNat = b.toNat / 2 ^ 52 % 2 ^ 11 := by
  simp [unpackExponent, BitVec.extractLsb, BitVec.extractLsb'_toNat, Nat.shiftRight_eq_div_pow]

theorem unpackSign_toNat (b : BitVec 64) :
    (@unpackSign Format.binary64 b).toNat = b.toNat / 2 ^ 63 := by
  have hlt := b.isLt
  simp only [unpackSign, BitVec.extractLsb, BitVec.toNat_cast, BitVec.extractLsb'_toNat,
    Nat.shiftRight_eq_div_pow]
  simp only [Format.binary64]
  omega

/-- A normal mantissa: the stored 52 bits under the implicit leading one. -/
theorem one_append_toNat (v : BitVec 52) : (1#1 ++ v).toNat = 2 ^ 52 + v.toNat := by
  rw [BitVec.toNat_append, ← Nat.shiftLeft_add_eq_or_of_lt v.isLt]
  simp [Nat.shiftLeft_eq]

/-- The sign of the float model for a sign flag. -/
def signOf (neg : Bool) : Sign := if neg then .negative else .positive

theorem sign_unpack (b : BitVec 64) :
    Sign.ofBitVec (@unpackSign Format.binary64 b) = signOf (b.toNat / 2 ^ 63 % 2 == 1) := by
  have hlt := b.isLt
  have hs := unpackSign_toNat b
  unfold Sign.ofBitVec signOf
  by_cases h : b.toNat / 2 ^ 63 = 1
  · have : @unpackSign Format.binary64 b ≠ 0#1 := fun h' => by
      rw [h'] at hs; simp at hs; omega
    simp [this]
    omega
  · have : @unpackSign Format.binary64 b = 0#1 := by
      apply BitVec.eq_of_toNat_eq; rw [hs]; simp; omega
    simp [this]
    omega

theorem sign_toBitVec_ofBitVec (v : BitVec 1) : (Sign.ofBitVec v).toBitVec = v := by
  unfold Sign.ofBitVec
  split
  · rename_i h; rw [h]; rfl
  · rename_i h
    have hlt := v.isLt
    apply BitVec.eq_of_toNat_eq
    have : v.toNat ≠ 0 := fun h0 => h (BitVec.eq_of_toNat_eq (by simpa using h0))
    simp [Sign.toBitVec]; omega

/-- A pattern is its sign, exponent and mantissa put back together. -/
theorem packComponents_fields (b : BitVec 64) :
    packComponents Format.binary64 (Sign.ofBitVec (@unpackSign Format.binary64 b))
      (@unpackExponent Format.binary64 b) (@unpackMantissa Format.binary64 b) = b := by
  simp only [packComponents, sign_toBitVec_ofBitVec, unpackSign, unpackExponent, unpackMantissa,
    BitVec.extractLsb]
  ext i hi
  grind

/-! ## Bits to a double and back -/

/-- Packing what a valid pattern unpacks to gives the pattern: each branch of `unpack` keeps
the fields that `pack` writes back. -/
theorem pack_unpack {b : BitVec 64} (hv : Format.binary64.Valid b) :
    UnpackedFloat.pack Format.binary64 (UnpackedFloat.unpack Format.binary64 b) = b := by
  have hEl := (@unpackExponent Format.binary64 b).isLt
  have hMl := (@unpackMantissa Format.binary64 b).isLt
  have hbias : Format.binary64.exponentBias = 1023 := rfl
  have hbits : Format.binary64.mantissaBits = 53 := rfl
  conv_rhs => rw [← packComponents_fields b]
  unfold UnpackedFloat.unpack
  dsimp only
  split
  · rename_i hexp
    split
    · rename_i hman
      rw [hexp, hman]
      rfl
    · rename_i hman
      rw [packComponents_fields]
      exact (hv.eq_packedNaN hexp hman).symm
  · rename_i hexp1
    split
    · rename_i hexp0
      split
      · rename_i hman
        rw [hexp0, hman]
        rfl
      · -- subnormal: the mantissa is below the implicit bit
        rename_i hman
        have hE0 : (@unpackExponent Format.binary64 b).toNat = 0 := by rw [hexp0]; rfl
        have hm0 : (@unpackMantissa Format.binary64 b).toNat ≠ 0 := fun h =>
          hman (BitVec.eq_of_toNat_eq (by simpa using h))
        have hlog : (@unpackMantissa Format.binary64 b).toNat.log2 < 52 :=
          (Nat.log2_lt hm0).2 (by simpa using hMl)
        simp only [UnpackedFloat.pack]
        rw [if_neg (by simp [hE0, hbias]), if_neg (by rw [hbits]; omega), hexp0,
          BitVec.ofNat_toNat, BitVec.setWidth_eq]
    · -- normal: the implicit bit puts the mantissa's logarithm at 52
      rename_i hexp0
      have hE0 : (@unpackExponent Format.binary64 b).toNat ≠ 0 := fun h =>
        hexp0 (BitVec.eq_of_toNat_eq (by simpa using h))
      have hE1 : (@unpackExponent Format.binary64 b).toNat ≠ 2047 := fun h =>
        hexp1 (BitVec.eq_of_toNat_eq (by simpa using h))
      have happ := one_append_toNat (@unpackMantissa Format.binary64 b)
      have hlog : (1#1 ++ @unpackMantissa Format.binary64 b).toNat.log2 = 52 := by
        rw [happ, Nat.log2_eq_iff (by omega)]
        simp only at hMl
        omega
      simp only [UnpackedFloat.pack]
      have hEl' : (@unpackExponent Format.binary64 b).toNat < 2048 := hEl
      rw [if_neg (by simp only [Format.binary64] at hEl ⊢; simp [hbias]; omega),
        if_pos (by rw [hlog, hbits])]
      congr 1
      · apply BitVec.eq_of_toNat_eq
        simp [hbias]
        omega
      · apply BitVec.eq_of_toNat_eq
        rw [BitVec.toNat_ofNat, happ]
        simp only [Format.binary64] at hMl ⊢
        omega

/-- A bit pattern that is not a NaN is a valid double. -/
theorem valid_of_not_nan {b : BitVec 64}
    (h : b.toNat / 2 ^ 52 % 2 ^ 11 = 2047 → b.toNat % 2 ^ 52 = 0) : Format.binary64.Valid b := by
  refine ⟨fun hE hM => absurd (h ?_) ?_⟩
  · have := congrArg BitVec.toNat hE
    rw [unpackExponent_toNat] at this
    simpa using this
  · intro h0
    apply hM
    apply BitVec.eq_of_toNat_eq
    rw [unpackMantissa_toNat, h0]
    rfl

/-- Reading back the bits of a double built from a valid pattern gives the pattern. -/
theorem toBits_ofBits {b : UInt64} (hv : Format.binary64.Valid b.toBitVec) :
    (Float.ofBits b).toBits = b := by
  show UInt64.ofBitVec (UnpackedFloat.pack Format.binary64
    (UnpackedFloat.unpack Format.binary64 b.toBitVec)) = b
  rw [pack_unpack hv]

/-! ## The two readings of a double -/

/-- The unpacked float a shape stands for: a zero mantissa is a signed zero. -/
def Shape.toUnpacked : Shape → UnpackedFloat
  | .nan => .notANumber
  | .infinite s => .infinity (signOf s)
  | .finite s m e => if h : 0 < m then .finite (signOf s) m e h else .zero (signOf s)

/-- The float model unpacks a double to what its shape stands for. The cases follow the stored
exponent: all ones (an infinity or NaN), zero (a zero or a subnormal), anything else (normal). -/
theorem unpack_eq_toUnpacked (x : Float) : x.toModel.unpack = (shape x).toUnpacked := by
  have hE := unpackExponent_toNat x.toModel.toBits.toBitVec
  have hM := unpackMantissa_toNat x.toModel.toBits.toBitVec
  have hS := sign_unpack x.toModel.toBits.toBitVec
  have hbits : x.toBits.toNat = x.toModel.toBits.toBitVec.toNat := rfl
  unfold Float.Model.unpack UnpackedFloat.unpack shape
  simp only [hbits, hS]
  generalize x.toModel.toBits.toBitVec = b at hE hM ⊢
  have hexp1 : @unpackExponent Format.binary64 b = -1#11 ↔
      b.toNat / 4503599627370496 % 2048 = 2047 := by
    rw [← BitVec.toNat_inj, hE]; simp
  have hexp0 : @unpackExponent Format.binary64 b = 0#11 ↔
      b.toNat / 4503599627370496 % 2048 = 0 := by
    rw [← BitVec.toNat_inj, hE]; simp
  have hman0 : @unpackMantissa Format.binary64 b = 0#52 ↔ b.toNat % 4503599627370496 = 0 := by
    rw [← BitVec.toNat_inj, hM]; simp
  have hbias : Format.binary64.exponentBias = 1023 := rfl
  simp only [Nat.pow_eq, fracBits, minExp, Nat.reducePow] at hE hM ⊢
  by_cases h1 : b.toNat / 4503599627370496 % 2048 = 2047
  · by_cases h2 : b.toNat % 4503599627370496 = 0
    · simp [hexp1.2 h1, hman0.2 h2, h1, h2, Shape.toUnpacked]
    · simp [hexp1.2 h1, h1, h2, mt hman0.1 h2, Shape.toUnpacked]
  · by_cases h0 : b.toNat / 4503599627370496 % 2048 = 0
    · by_cases h2 : b.toNat % 4503599627370496 = 0
      · simp [hexp0.2 h0, hman0.2 h2, h0, h2, Shape.toUnpacked]
      · simp [hexp0.2 h0, mt hman0.1 h2, h0, Shape.toUnpacked, hM, hbias]
        rw [dif_pos (Nat.pos_of_ne_zero h2)]
    · have happ := one_append_toNat (@unpackMantissa Format.binary64 b)
      rw [hM] at happ
      rw [if_neg (mt hexp1.1 h1), if_neg (mt hexp0.1 h0)]
      simp only [h1, h0, beq_iff_eq, if_false, Shape.toUnpacked]
      rw [dif_pos (by omega)]
      simp [happ, hE, hbias, Nat.add_comm]

/-- The mantissa of a finite shape has at most 53 bits, and fewer than 53 only for the
smallest exponent. -/
theorem shape_finite_bounds {x : Float} {s : Bool} {m : Nat} {e : Int}
    (h : shape x = .finite s m e) : m < 2 ^ 53 ∧ (m < 2 ^ 52 → e = -1074) := by
  unfold shape at h
  dsimp only at h
  split at h
  · split at h <;> cases h
  · split at h
    · cases h
      refine ⟨?_, fun _ => rfl⟩
      simp only [Nat.pow_eq, fracBits]
      omega
    · cases h
      simp only [Nat.pow_eq, fracBits]
      omega

/-- `compareInt` compares `± m · 2^e` with `n` exactly, in integers scaled by a power of two. -/
theorem compareInt_finite {x : Float} {s : Bool} {m : Nat} {e : Int}
    (h : shape x = .finite s m e) (n : Int) :
    compareInt x n = some (compare (if s then -((m * pow2 e : Nat) : Int) else (m * pow2 e : Nat))
      (n * pow2 (-e))) := by
  unfold compareInt
  rw [h]
  by_cases he : 0 ≤ e
  · have : pow2 (-e) = 1 := by simp [pow2]; omega
    simp [Shape.dyadic?, he, this]
  · have : e.toNat = 0 := by omega
    simp [Shape.dyadic?, he, this, pow2]

/-! ## The order of the float model against an integer -/

/-- The model orders two positive finite doubles by exponent, then mantissa. Against a double
`C · 2^k · 2^(-k)` whose mantissa fills its 53 bits, this is the order of values for every
canonical mantissa `m` (53 bits, or fewer only at the smallest exponent). The cases are the
exponent of `m · 2^e` below, at or above `-k`. -/
theorem lex_lt_iff {C k m : Nat} {e : Int} (hk : 1 ≤ k) (hlo : 2 ^ 52 ≤ C * 2 ^ k)
    (hhi : C * 2 ^ k < 2 ^ 53) (hm : m < 2 ^ 53) (hnorm : m < 2 ^ 52 → e = -1074) :
    (compare (-(k : Int)) e).then (compare (C * 2 ^ k) m) = .lt ↔
      C * pow2 (-e) < m * pow2 e := by
  have hk52 : k ≤ 52 := by
    by_contra hk'
    have hC : 1 ≤ C := by
      rcases Nat.eq_zero_or_pos C with h | h
      · simp [h] at hlo
      · exact h
    have : 2 ^ 53 ≤ C * 2 ^ k :=
      calc 2 ^ 53 ≤ 2 ^ k := Nat.pow_le_pow_right (by norm_num) (by omega)
        _ ≤ C * 2 ^ k := Nat.le_mul_of_pos_left _ hC
    omega
  rw [Ordering.then_eq_lt, Int.compare_eq_lt, Int.compare_eq_eq, Nat.compare_eq_lt]
  rcases lt_trichotomy e (-(k : Int)) with he | he | he
  · -- below the constant's exponent, even the widest mantissa stays below it
    obtain ⟨t, rfl⟩ : ∃ t : Nat, e = -(t : Int) := ⟨(-e).toNat, by omega⟩
    have ht : k + 1 ≤ t := by omega
    have hpe : pow2 (-(t : Int)) = 1 := by simp [pow2]
    have hpt : pow2 (-(-(t : Int))) = 2 ^ t := by simp [pow2]
    rw [hpe, hpt, Nat.mul_one]
    have : C * 2 ^ k * 2 ≤ C * 2 ^ t :=
      calc C * 2 ^ k * 2 = C * 2 ^ (k + 1) := by ring
        _ ≤ C * 2 ^ t := Nat.mul_le_mul_left _ (Nat.pow_le_pow_right (by norm_num) ht)
    constructor
    · rintro (h | ⟨h, -⟩) <;> omega
    · intro h; omega
  · subst he
    have hpe : pow2 (-(k : Int)) = 1 := by simp [pow2]
    have hpt : pow2 (-(-(k : Int))) = 2 ^ k := by simp [pow2]
    rw [hpe, hpt, Nat.mul_one]
    constructor
    · rintro (h | ⟨-, h⟩)
      · omega
      · exact h
    · intro h; exact Or.inr ⟨rfl, h⟩
  · -- above it the double is normal, and its narrowest mantissa is already beyond the value
    have hm52 : 2 ^ 52 ≤ m := by
      by_contra h
      have := hnorm (by omega)
      omega
    have hC : C < 2 ^ 52 := by
      have : C * 2 ≤ C * 2 ^ k := Nat.mul_le_mul_left _ (by
        calc 2 = 2 ^ 1 := by norm_num
          _ ≤ 2 ^ k := Nat.pow_le_pow_right (by norm_num) hk)
      omega
    refine ⟨fun _ => ?_, fun _ => Or.inl he⟩
    by_cases he0 : 0 ≤ e
    · have hpe : pow2 (-e) = 1 := by simp [pow2]; omega
      rw [hpe, Nat.mul_one]
      exact lt_of_lt_of_le (by omega) (Nat.le_mul_of_pos_right _ (by simp [pow2]))
    · obtain ⟨t, rfl⟩ : ∃ t : Nat, e = -(t : Int) := ⟨(-e).toNat, by omega⟩
      have hpe : pow2 (-(t : Int)) = 1 := by simp [pow2]
      have hpt : pow2 (-(-(t : Int))) = 2 ^ t := by simp [pow2]
      rw [hpe, hpt, Nat.mul_one]
      have ht : t + 1 ≤ k := by omega
      have : C * 2 ^ t * 2 ≤ C * 2 ^ k :=
        calc C * 2 ^ t * 2 = C * 2 ^ (t + 1) := by ring
          _ ≤ C * 2 ^ k := Nat.mul_le_mul_left _ (Nat.pow_le_pow_right (by norm_num) ht)
      omega

/-- Against a positive double of integer value `C` (its mantissa `C · 2^k` filling the 53 bits),
the order of the float model is the exact order of values. -/
theorem lt_iff_compareInt {c y : Float} {C k : Nat}
    (hc : shape c = .finite false (C * 2 ^ k) (-(k : Int))) (hk : 1 ≤ k)
    (hlo : 2 ^ 52 ≤ C * 2 ^ k) (hhi : C * 2 ^ k < 2 ^ 53) :
    c < y ↔ compareInt y C = some .gt := by
  have hCpos : 0 < C * 2 ^ k := by omega
  rw [float_lt_iff, unpack_eq_toUnpacked, unpack_eq_toUnpacked, hc]
  simp only [Shape.toUnpacked, dif_pos hCpos, signOf, Bool.false_eq_true, if_false]
  cases hy : shape y with
  | nan => simp [UnpackedFloat.compare, compareInt, hy]
  | infinite s => cases s <;> simp [UnpackedFloat.compare, compareInt, hy]
  | finite s m e =>
    rw [compareInt_finite hy]
    obtain ⟨hm, hnorm⟩ := shape_finite_bounds hy
    have hC : 0 < C := Nat.pos_of_mul_pos_right hCpos
    have hp : 0 < pow2 (-e) := by simp only [pow2, Nat.pow_eq]; exact Nat.two_pow_pos _
    have hpos : (0 : Int) < C * pow2 (-e) := by exact_mod_cast Nat.mul_pos hC hp
    have hnn : (0 : Int) ≤ m * pow2 e := by positivity
    by_cases hm0 : 0 < m
    · cases s
      · simp only [dif_pos hm0, Bool.false_eq_true, if_false, UnpackedFloat.compare,
          Option.some_inj, compare_gt_iff_gt]
        exact_mod_cast lex_lt_iff hk hlo hhi hm hnorm
      · simp [dif_pos hm0, UnpackedFloat.compare, compare_gt_iff_gt]
        omega
    · obtain rfl : m = 0 := by omega
      cases s <;> simp [UnpackedFloat.compare, compare_gt_iff_gt] <;> omega

theorem ninety_lt_iff (y : Float) : (90.0 : Float) < y ↔ compareInt y 90 = some .gt :=
  lt_iff_compareInt (show shape 90.0 = .finite false (90 * 2 ^ 46) (-((46 : Nat) : Int)) by rfl)
    (by norm_num) (by norm_num) (by norm_num)

theorem oneEighty_lt_iff (y : Float) : (180.0 : Float) < y ↔ compareInt y 180 = some .gt :=
  lt_iff_compareInt (show shape 180.0 = .finite false (180 * 2 ^ 45) (-((45 : Nat) : Int)) by rfl)
    (by norm_num) (by norm_num) (by norm_num)

end RepairShop.Number
