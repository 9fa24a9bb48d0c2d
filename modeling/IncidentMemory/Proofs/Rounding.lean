import IncidentMemory.Proofs.Order
import Mathlib

/-!
# Rounding to single precision

The operations of single-precision numbers are those of the language's model of
IEEE arithmetic: a bit pattern is taken apart, the operation is done on
integers with an accuracy to spare, and the result is rounded to 24 bits and
put together again. Here these steps are opened once, so that nothing later
unfolds them. `unpack_cases` reads off the bits what a number is,
`sqrt_eq`, `mul_eq` and `div_eq` say that an operation works on the parts, and
`isNormal_round` says what a rounded result is: within one of its 24 leading
bits, with a carry or without.
-/

namespace IncidentMemory.Single

open Float.Model Float.Model.UnpackedFloat

/-! ## Rounding to 24 bits -/

theorem mantissa_shiftRight (em : ExtendedMantissa) (k : Nat) :
    (em >>> k).mantissa = em.mantissa / 2 ^ k := by
  induction k with
  | zero => simp [HShiftRight.hShiftRight, Nat.repeat]
  | succ k ih =>
    show (em >>> k).mantissa / 2 = _
    rw [ih, Nat.div_div_eq_div_mul, Nat.pow_succ]

theorem roundedMantissa_mem (em : ExtendedMantissa) :
    em.roundedMantissa = em.mantissa ∨ em.roundedMantissa = em.mantissa + 1 := by
  obtain ⟨m, r, s⟩ := em
  cases r <;> cases s
  · exact Or.inl rfl
  · exact Or.inl rfl
  · show m + m % 2 = m ∨ m + m % 2 = m + 1
    omega
  · exact Or.inr rfl

theorem mantissa_ofMantissaAndAccuracy (m : Nat) (a : Accuracy) :
    (ExtendedMantissa.ofMantissaAndAccuracy m a).mantissa = m := by
  cases a with
  | exact => rfl
  | inexact o => cases o <;> rfl

/-- Of a mantissa with `24 + k` bits the last `k` are dropped. -/
theorem targetExponent_eq {m k : Nat} {e : Int} (hm : m.log2 = 23 + k) (he : -149 ≤ e + k) :
    Format.binary32.targetExponent (totalExponent m e) = e + k := by
  simp only [Format.targetExponent, totalExponent, Format.mantissaBits, Format.minExponent, hm]
  omega

theorem shiftToTargetExponent_eq {m k : Nat} {e : Int} (hm : m.log2 = 23 + k) (he : -149 ≤ e + k)
    (a : Accuracy) :
    shiftToTargetExponent Format.binary32 m e a
      = (ExtendedMantissa.ofMantissaAndAccuracy m a >>> k, e + k) := by
  unfold shiftToTargetExponent shiftToExponent
  rw [targetExponent_eq hm he]
  have hk : (e + (k : Int) - e).toNat = k := by omega
  simp only [hk]

/-- What is left of a mantissa with `24 + k` bits when the last `k` are dropped
has 24. -/
theorem div_two_pow_mem {m k : Nat} (hm : m.log2 = 23 + k) :
    8388608 ≤ m / 2 ^ k ∧ m / 2 ^ k < 16777216 := by
  have hne : m ≠ 0 := by
    rintro rfl
    simp at hm
    omega
  obtain ⟨hlow, hhigh⟩ := (Nat.log2_eq_iff hne).mp hm
  have hk : 0 < 2 ^ k := Nat.two_pow_pos k
  constructor
  · rw [Nat.le_div_iff_mul_le hk]
    calc 8388608 * 2 ^ k = 2 ^ (23 + k) := by rw [Nat.pow_add]
      _ ≤ m := hlow
  · rw [Nat.div_lt_iff_lt_mul hk]
    calc m < 2 ^ (23 + k + 1) := hhigh
      _ = 16777216 * 2 ^ k := by rw [show 23 + k + 1 = 24 + k by omega, Nat.pow_add]

/-- A mantissa of 24 bits stays as it is. -/
theorem shift_exact {m : Nat} {e : Int} (hm : 8388608 ≤ m) (hm' : m < 16777216) (he : -149 ≤ e) :
    shiftToTargetExponent Format.binary32 m e .exact = (⟨m, false, false⟩, e) := by
  have hlog : m.log2 = 23 + 0 := (Nat.log2_eq_iff (by omega)).mpr ⟨hm, hm'⟩
  rw [shiftToTargetExponent_eq hlog (by omega)]
  simp [HShiftRight.hShiftRight, Nat.repeat, ExtendedMantissa.ofMantissaAndAccuracy]

/-- A mantissa that rounding has made too long loses its last bit, which is
zero. -/
theorem shift_carry {e : Int} (he : -149 ≤ e) :
    shiftToTargetExponent Format.binary32 16777216 e .exact = (⟨8388608, false, false⟩, e + 1) := by
  have hlog : (16777216 : Nat).log2 = 23 + 1 := by decide
  rw [shiftToTargetExponent_eq hlog (by omega)]
  rfl

/-- The mantissa that a number is rounded to, before a carry. -/
def rounded (m k : Nat) (a : Accuracy) : Nat :=
  (ExtendedMantissa.ofMantissaAndAccuracy m a >>> k).roundedMantissa

theorem rounded_mem (m k : Nat) (a : Accuracy) :
    rounded m k a = m / 2 ^ k ∨ rounded m k a = m / 2 ^ k + 1 := by
  have h := roundedMantissa_mem (ExtendedMantissa.ofMantissaAndAccuracy m a >>> k)
  rw [mantissa_shiftRight, mantissa_ofMantissaAndAccuracy] at h
  exact h

/-- What is rounded and then shifted again, when the second shift keeps a
mantissa. -/
theorem roundWithAccuracy_of_shift {m k : Nat} {e f : Int} {em : ExtendedMantissa} {a : Accuracy}
    (hm : m.log2 = 23 + k) (he : -149 ≤ e + k)
    (hshift : shiftToTargetExponent Format.binary32 (rounded m k a) (e + k) .exact = (em, f))
    (h : 0 < em.mantissa) :
    roundWithAccuracy Format.binary32 .positive m e a = .finite .positive em.mantissa f h := by
  have hfirst : shiftToTargetExponent Format.binary32
      (shiftToTargetExponent Format.binary32 m e a).1.roundedMantissa
      (shiftToTargetExponent Format.binary32 m e a).2 .exact = (em, f) := by
    rw [shiftToTargetExponent_eq hm he]
    exact hshift
  unfold roundWithAccuracy
  simp only [hfirst]
  rw [dif_neg (Nat.ne_of_gt h)]

/-- **Rounding to 24 bits** keeps the exponent of what is left, unless there is
a carry. -/
theorem roundWithAccuracy_eq {m k : Nat} {e : Int} (hm : m.log2 = 23 + k) (he : -149 ≤ e + k)
    (a : Accuracy) :
    (rounded m k a < 16777216 ∧ ∃ h, roundWithAccuracy Format.binary32 .positive m e a
        = .finite .positive (rounded m k a) (e + k) h)
      ∨ rounded m k a = 16777216 ∧ ∃ h, roundWithAccuracy Format.binary32 .positive m e a
        = .finite .positive 8388608 (e + k + 1) h := by
  obtain ⟨hlow, hhigh⟩ := div_two_pow_mem hm
  have hr := rounded_mem m k a
  by_cases hlt : rounded m k a < 16777216
  · have hshift := shift_exact (e := e + k) (by omega : 8388608 ≤ rounded m k a) hlt he
    exact Or.inl ⟨hlt, _, roundWithAccuracy_of_shift hm he hshift (by simp only; omega)⟩
  · have heq : rounded m k a = 16777216 := by omega
    have hshift := shift_carry he
    rw [← heq] at hshift
    exact Or.inr ⟨heq, _, roundWithAccuracy_of_shift hm he hshift (by decide)⟩


/-! ## The parts of a number -/

/-- The sign that a bit pattern starts with. -/
def signOf (b : BitVec 32) : Sign :=
  if b.toNat < 2147483648 then .positive else .negative

theorem unpackExponent_toNat (b : BitVec 32) :
    (@unpackExponent Format.binary32 b).toNat = b.toNat / 8388608 % 256 := by
  unfold unpackExponent
  rw [BitVec.toNat_cast, BitVec.extractLsb_toNat, Nat.shiftRight_eq_div_pow]
  rfl

theorem unpackMantissa_toNat (b : BitVec 32) :
    (@unpackMantissa Format.binary32 b).toNat = b.toNat % 8388608 := by
  unfold unpackMantissa
  rw [BitVec.toNat_cast, BitVec.extractLsb_toNat, Nat.shiftRight_zero]
  rfl

theorem unpackSign_eq (b : BitVec 32) :
    Sign.ofBitVec (@unpackSign Format.binary32 b) = signOf b := by
  have hb := b.isLt
  have hbit : (@unpackSign Format.binary32 b).toNat = b.toNat / 2147483648 % 2 := by
    unfold unpackSign
    rw [BitVec.toNat_cast, BitVec.extractLsb_toNat, Nat.shiftRight_eq_div_pow]
    rfl
  unfold Sign.ofBitVec signOf
  congr 1
  rw [← BitVec.toNat_inj, hbit]
  simp only [BitVec.toNat_ofNat, eq_iff_iff]
  omega

/-- **What a bit pattern denotes**, read off it as an integer. -/
theorem unpack_cases (b : BitVec 32) :
    (b.toNat / 8388608 % 256 = 255 ∧ b.toNat % 8388608 = 0
        ∧ UnpackedFloat.unpack Format.binary32 b = .infinity (signOf b))
      ∨ (b.toNat / 8388608 % 256 = 255 ∧ b.toNat % 8388608 ≠ 0
        ∧ UnpackedFloat.unpack Format.binary32 b = .notANumber)
      ∨ (b.toNat / 8388608 % 256 = 0 ∧ b.toNat % 8388608 = 0
        ∧ UnpackedFloat.unpack Format.binary32 b = .zero (signOf b))
      ∨ (b.toNat / 8388608 % 256 = 0 ∧ b.toNat % 8388608 ≠ 0
        ∧ ∃ h, UnpackedFloat.unpack Format.binary32 b
            = .finite (signOf b) (b.toNat % 8388608) (-149) h)
      ∨ (b.toNat / 8388608 % 256 ≠ 0 ∧ b.toNat / 8388608 % 256 ≠ 255
        ∧ ∃ h, UnpackedFloat.unpack Format.binary32 b
            = .finite (signOf b) (8388608 + b.toNat % 8388608)
                ((b.toNat / 8388608 % 256 : Nat) - 150) h) := by
  have hexp : ∀ n < 256, @unpackExponent Format.binary32 b = BitVec.ofNat 8 n
      ↔ b.toNat / 8388608 % 256 = n := by
    intro n hn
    rw [← BitVec.toNat_inj, unpackExponent_toNat, BitVec.toNat_ofNat]
    show _ = n % 256 ↔ _
    rw [Nat.mod_eq_of_lt hn]
  have hman : @unpackMantissa Format.binary32 b = 0#23 ↔ b.toNat % 8388608 = 0 := by
    rw [← BitVec.toNat_inj, unpackMantissa_toNat]
    rfl
  have hjoin : (1#1 ++ @unpackMantissa Format.binary32 b).toNat
      = 8388608 + b.toNat % 8388608 := by
    have hlt : b.toNat % 8388608 < 2 ^ 23 := Nat.mod_lt _ (by decide)
    rw [BitVec.toNat_append, unpackMantissa_toNat, ← Nat.shiftLeft_add_eq_or_of_lt hlt]
    rfl
  have hfull : @unpackExponent Format.binary32 b = -1#8 ↔ _ := hexp 255 (by omega)
  have hnone := hexp 0 (by omega)
  have hbias : ((Format.binary32.exponentBias : Nat) : Int) + ((23 : Nat) : Int) = 150 := rfl
  unfold UnpackedFloat.unpack
  simp only [unpackSign_eq, hbias]
  by_cases h255 : b.toNat / 8388608 % 256 = 255
  · by_cases hzero : b.toNat % 8388608 = 0
    · refine Or.inl ⟨h255, hzero, ?_⟩
      rw [if_pos (hfull.mpr h255), if_pos (hman.mpr hzero)]
    · refine Or.inr (Or.inl ⟨h255, hzero, ?_⟩)
      rw [if_pos (hfull.mpr h255), if_neg (mt hman.mp hzero)]
  by_cases h0 : b.toNat / 8388608 % 256 = 0
  · by_cases hzero : b.toNat % 8388608 = 0
    · refine Or.inr (Or.inr (Or.inl ⟨h0, hzero, ?_⟩))
      rw [if_neg (mt hfull.mp h255), if_pos (hnone.mpr h0), dif_pos (hman.mpr hzero)]
    · refine Or.inr (Or.inr (Or.inr (Or.inl ⟨h0, hzero, Nat.pos_of_ne_zero hzero, ?_⟩)))
      rw [if_neg (mt hfull.mp h255), if_pos (hnone.mpr h0), dif_neg (mt hman.mp hzero)]
      simp only [unpackMantissa_toNat, unpackExponent_toNat, h0]
      rfl
  · refine Or.inr (Or.inr (Or.inr (Or.inr ⟨h0, h255, by omega, ?_⟩)))
    rw [if_neg (mt hfull.mp h255), if_neg (mt hnone.mp h0)]
    simp only [hjoin, unpackExponent_toNat]

/-! ## Writing the parts -/

theorem packComponents_toNat (s : Sign) (e : BitVec 8) (m : BitVec 23) :
    (packComponents Format.binary32 s e m).toNat
      = s.toBitVec.toNat * 2147483648 + e.toNat * 8388608 + m.toNat := by
  have happ : (s.toBitVec ++ e).toNat = s.toBitVec.toNat * 256 + e.toNat := by
    rw [BitVec.toNat_append, ← Nat.shiftLeft_add_eq_or_of_lt e.isLt, Nat.shiftLeft_eq]
  show (s.toBitVec ++ e ++ m).toNat = _
  rw [BitVec.toNat_append, ← Nat.shiftLeft_add_eq_or_of_lt m.isLt, Nat.shiftLeft_eq, happ]
  omega

/-- **A mantissa of 24 bits** is written without the first. -/
theorem pack_toNat {m : Nat} {e : Int} (hm : 8388608 ≤ m) (hm' : m < 16777216) (he : -149 ≤ e)
    (he' : e ≤ 104) (h : 0 < m) :
    (UnpackedFloat.pack Format.binary32 (.finite .positive m e h)).toNat
      = (e + 149).toNat * 8388608 + m := by
  have hlog : m.log2 = 23 := (Nat.log2_eq_iff (by omega)).mpr ⟨hm, hm'⟩
  have hbias : ((Format.binary32.exponentBias : Nat) : Int) = 127 := rfl
  unfold UnpackedFloat.pack
  simp only [hbias]
  rw [if_neg (by omega), if_pos (by rw [hlog]; rfl), packComponents_toNat, BitVec.toNat_ofNat,
    BitVec.toNat_ofNat]
  show 0 * _ + _ + _ = _
  omega

/-- What is not a not-a-number is written as it was read. -/
theorem pack_unpack {b : BitVec 32} (h : UnpackedFloat.unpack Format.binary32 b ≠ .notANumber) :
    UnpackedFloat.pack Format.binary32 (UnpackedFloat.unpack Format.binary32 b) = b := by
  have hb := b.isLt
  have hbias : ((Format.binary32.exponentBias : Nat) : Int) = 127 := rfl
  have hsign : (signOf b).toBitVec.toNat = b.toNat / 2147483648 := by
    unfold signOf
    split
    · show 0 = _
      omega
    · show 1 = _
      omega
  obtain ⟨hexp, hman, heq⟩ | ⟨hexp, hman, heq⟩ | ⟨hexp, hman, heq⟩ | ⟨hexp, hman, hpos, heq⟩
    | ⟨hexp, hexp', hpos, heq⟩ := unpack_cases b
  all_goals rw [heq] at h ⊢
  · rw [← BitVec.toNat_inj, UnpackedFloat.pack, packedInfinity, packComponents_toNat, hsign]
    show _ * _ + 255 * _ + 0 = _
    omega
  · exact absurd rfl h
  · rw [← BitVec.toNat_inj, UnpackedFloat.pack, packedZero, packComponents_toNat, hsign]
    show _ * _ + 0 * _ + 0 = _
    omega
  · have hlog : (b.toNat % 8388608).log2 < 23 := (Nat.log2_lt (Nat.ne_of_gt hpos)).mpr (Nat.mod_lt _ (by decide))
    unfold UnpackedFloat.pack
    simp only [hbias]
    rw [if_neg (by omega), if_neg (by rw [show Format.binary32.mantissaBits = 24 from rfl]; omega),
      ← BitVec.toNat_inj, packComponents_toNat, hsign, BitVec.toNat_ofNat, BitVec.toNat_ofNat]
    show _ * _ + 0 * _ + _ % 8388608 = _
    omega
  · have hlog : (8388608 + b.toNat % 8388608).log2 = 23 :=
      (Nat.log2_eq_iff (by omega)).mpr ⟨by omega, by omega⟩
    unfold UnpackedFloat.pack
    simp only [hbias]
    rw [if_neg (by omega), if_pos (by rw [hlog]; rfl), ← BitVec.toNat_inj, packComponents_toNat,
      hsign, BitVec.toNat_ofNat, BitVec.toNat_ofNat]
    show _ * _ + (_ % 256) * _ + _ % 8388608 = _
    omega

/-! ## Operations -/

/-- What a number is for the arithmetic. -/
abbrev parts (x : Single) : UnpackedFloat :=
  UnpackedFloat.unpack Format.binary32 x.bits.toBitVec

/-- The number that a result of the arithmetic is stored as, or the given one if it is none. -/
def ofParts (none : Single) (u : UnpackedFloat) : Single :=
  ofResult none (Float32.ofModel (Float32.Model.pack u))

theorem ofParts_of_isNaN {none : Single} {u : UnpackedFloat}
    (h : (Float32.ofModel (Float32.Model.pack u)).isNaN = false) :
    ofParts none u = ⟨(Float32.ofModel (Float32.Model.pack u)).toBits⟩ := by
  unfold ofParts ofResult
  rw [h, if_neg Bool.false_ne_true]

theorem isNaN_iff {x : Single} : x.isNaN = true ↔ x.parts = .notANumber := by
  have hb := x.bits.toBitVec.isLt
  have hmag : x.isNaN = true ↔ 2139095040 < x.bits.toBitVec.toNat % 2147483648 := decide_eq_true_iff
  rw [hmag]
  obtain ⟨hexp, hman, heq⟩ | ⟨hexp, hman, heq⟩ | ⟨hexp, hman, heq⟩ | ⟨hexp, hman, hpos, heq⟩
    | ⟨hexp, hexp', hpos, heq⟩ := unpack_cases x.bits.toBitVec
  all_goals
    rw [parts, heq]
    simp only [reduceCtorEq, iff_false, iff_true]
    omega

theorem parts_toFloat32 {x : Single} (h : x.isNaN = false) :
    x.toFloat32.toModel.unpack = x.parts := by
  have hne : x.parts ≠ .notANumber := fun heq => by simp [isNaN_iff.mpr heq] at h
  show UnpackedFloat.unpack Format.binary32 (UnpackedFloat.pack Format.binary32 x.parts) = x.parts
  rw [pack_unpack hne]

variable (a : Arithmetic)

theorem sqrt_eq {x : Single} (h : x.isNaN = false) :
    a.sqrt x = ofParts (a.nan x x) (x.parts.sqrt Format.binary32) := by
  rw [← parts_toFloat32 h]
  unfold Arithmetic.sqrt
  rw [if_neg (by simp [h])]
  rfl

theorem lift₂_eq {x y : Single} (hx : x.isNaN = false) (hy : y.isNaN = false)
    (op : Float32 → Float32 → Float32) :
    a.lift₂ op x y = ofResult (a.nan x y) (op x.toFloat32 y.toFloat32) := by
  unfold Arithmetic.lift₂
  rw [hx, hy]
  rfl

theorem mul_eq {x y : Single} (hx : x.isNaN = false) (hy : y.isNaN = false) :
    a.mul x y = ofParts (a.nan x y) (x.parts.mul Format.binary32 y.parts) := by
  rw [← parts_toFloat32 hx, ← parts_toFloat32 hy]
  exact lift₂_eq a hx hy _

theorem div_eq {x y : Single} (hx : x.isNaN = false) (hy : y.isNaN = false) :
    a.div x y = ofParts (a.nan x y) (x.parts.div Format.binary32 y.parts) := by
  rw [← parts_toFloat32 hx, ← parts_toFloat32 hy]
  exact lift₂_eq a hx hy _

/-! ## Positive numbers with a full mantissa -/

/-- **The number is `m * 2 ^ e`**, positive and with all 24 bits of a mantissa. -/
structure IsNormal (x : Single) (m : Nat) (e : Int) : Prop where
  low : 8388608 ≤ m
  high : m < 16777216
  exponent_low : -149 ≤ e
  exponent_high : e ≤ 104
  bits : x.bits.toNat = (e + 149).toNat * 8388608 + m

namespace IsNormal

variable {x y : Single} {m : Nat} {e : Int}

theorem pos (h : x.IsNormal m e) : 0 < m :=
  Nat.lt_of_lt_of_le (by decide) h.low

theorem log2 (h : x.IsNormal m e) : m.log2 = 23 :=
  (Nat.log2_eq_iff (Nat.ne_of_gt h.pos)).mpr ⟨h.low, h.high⟩

theorem parts (h : x.IsNormal m e) : x.parts = .finite .positive m e h.pos := by
  obtain ⟨hlow, hhigh, helow, hehigh, hbits⟩ := h
  have hnat : x.bits.toBitVec.toNat = (e + 149).toNat * 8388608 + m := hbits
  have hsign : signOf x.bits.toBitVec = .positive := if_pos (by omega)
  obtain ⟨hexp, -, -⟩ | ⟨hexp, -, -⟩ | ⟨hexp, -, -⟩ | ⟨hexp, -, -, -⟩ | ⟨hexp, hexp', hpos, heq⟩ :=
    unpack_cases x.bits.toBitVec
  iterate 4 exact absurd hexp (by omega)
  rw [Single.parts, heq, UnpackedFloat.finite.injEq]
  exact ⟨hsign, by omega, by omega⟩

theorem isNaN (h : x.IsNormal m e) : x.isNaN = false := by
  rw [← Bool.not_eq_true, isNaN_iff, h.parts]
  exact UnpackedFloat.noConfusion

/-- The value grows with the bits. -/
theorem orderKey (h : x.IsNormal m e) : x.orderKey = x.bits.toNat := by
  obtain ⟨hlow, hhigh, helow, hehigh, hbits⟩ := h
  have hneg : x.isNegative = false := by
    rw [← Bool.not_eq_true]
    exact mt decide_eq_true_iff.mp (by omega)
  rw [Single.orderKey, hneg, if_neg Bool.false_ne_true, Single.magnitude]
  omega

end IsNormal

/-- A result with a full mantissa, and within the exponents, is stored as it
is. -/
theorem isNormal_ofParts (none : Single) {m : Nat} {e : Int} (hm : 8388608 ≤ m) (hm' : m < 16777216)
    (he : -149 ≤ e) (he' : e ≤ 104) (h : 0 < m) :
    (ofParts none (.finite .positive m e h)).IsNormal m e := by
  have hbits := pack_toNat hm hm' he he' h
  have hnormal : (⟨⟨UnpackedFloat.pack Format.binary32 (.finite .positive m e h)⟩⟩ : Single).IsNormal
      m e := ⟨hm, hm', he, he', hbits⟩
  have hnan : (Float32.ofModel (Float32.Model.pack (.finite .positive m e h))).isNaN = false := by
    show UnpackedFloat.isNaN (Single.parts _) = false
    rw [hnormal.parts]
    rfl
  rw [ofParts_of_isNaN hnan]
  exact hnormal

/-- **A rounded result** has a full mantissa, if the exponents leave room for a
carry or there is none. -/
theorem isNormal_round (none : Single) {m k : Nat} {e : Int} (hm : m.log2 = 23 + k) (he : -149 ≤ e + k)
    (a : Accuracy) (he' : e + k ≤ 104) (hroom : e + k ≤ 103 ∨ rounded m k a < 16777216) :
    ∃ r j : Nat, (ofParts none (roundWithAccuracy Format.binary32 .positive m e a)).IsNormal r (e + j)
      ∧ (j = k ∨ j = k + 1) ∧ r * 2 ^ j = rounded m k a * 2 ^ k := by
  obtain ⟨hlow, hhigh⟩ := div_two_pow_mem hm
  have hr := rounded_mem m k a
  obtain ⟨hlt, h, heq⟩ | ⟨hcarry, h, heq⟩ := roundWithAccuracy_eq hm he a
  · exact ⟨rounded m k a, k, heq ▸ isNormal_ofParts none (by omega) hlt he he' h, .inl rfl, rfl⟩
  · refine ⟨8388608, k + 1, ?_, .inr rfl, ?_⟩
    · rw [heq, Int.natCast_succ, ← Int.add_assoc]
      exact isNormal_ofParts none (by decide) (by decide) (by omega) (by omega) h
    · rw [hcarry, Nat.pow_succ]
      omega

end IncidentMemory.Single
