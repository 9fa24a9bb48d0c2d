import IncidentMemory.Time.Duration
import Mathlib

/-!
# Doubles that are whole numbers

A double has 53 bits for its mantissa, so every natural below `2 ^ 53` is one. The leading bit of
the number moves to the front of the mantissa, and the exponent says by how far (`unpack_double`).
From this everything that is done with such doubles can be told from the numbers: their order is
that of the numbers (`double_lt_double`), a product that stays below `2 ^ 53` is not rounded
(`double_mul`), and as durations they are that many seconds (`Duration.ofFloat?_double`).

Only the order needs to know something about naturals that are too large to be a double: they are
rounded, possibly to infinity, but never to a number below `2 ^ 53`.
-/

namespace IncidentMemory

namespace Number

open Float.Model Float.Model.UnpackedFloat

/-! ## Fields of a double -/

section Fields

variable {e m : Nat}

theorem toNat_ofNat_exponent (he : e < 2047) : (BitVec.ofNat 11 e).toNat = e := by
  rw [BitVec.toNat_ofNat, Nat.mod_eq_of_lt (by omega)]

theorem ofNat_exponent_ne (he : e < 2047) : BitVec.ofNat 11 e ≠ -1#11 := by
  rw [Ne, ← BitVec.toNat_inj, toNat_ofNat_exponent he]
  exact Nat.ne_of_lt he

theorem toNat_ofNat_fraction (hm : m < 4503599627370496) : (BitVec.ofNat 52 m).toNat = m := by
  rw [BitVec.toNat_ofNat, Nat.mod_eq_of_lt hm]

/-- What normal fields denote: the bit that is not written stands in front of the fraction. -/
theorem unpack_packComponents (he : 0 < e) (he' : e < 2047) (hm : m < 4503599627370496) :
    UnpackedFloat.unpack Format.binary64
        (packComponents Format.binary64 .positive (BitVec.ofNat 11 e) (BitVec.ofNat 52 m))
      = .finite .positive (4503599627370496 + m) ((e : Int) - 1075) (by omega) := by
  have hnone : BitVec.ofNat 11 e ≠ 0#11 := by
    rw [Ne, ← BitVec.toNat_inj, toNat_ofNat_exponent he']
    exact Nat.ne_of_gt he
  have hjoin : (1#1 ++ BitVec.ofNat 52 m).toNat = 4503599627370496 + m := by
    rw [BitVec.toNat_append, ← Nat.shiftLeft_add_eq_or_of_lt (BitVec.isLt _),
      toNat_ofNat_fraction hm]
    rfl
  have hbias : ((Format.binary64.exponentBias : Nat) : Int) + ((52 : Nat) : Int) = 1075 := rfl
  unfold UnpackedFloat.unpack
  simp only [unpackMantissa_packComponents, unpackExponent_packComponents,
    unpackSign_packComponents, Sign.ofBitVec_toBitVec, hjoin, hbias, toNat_ofNat_exponent he']
  rw [if_neg (ofNat_exponent_ne he'), if_neg hnone]

theorem ofNat_eq_packComponents (he : e < 2047) (hm : m < 4503599627370496) :
    BitVec.ofNat 64 (e * 4503599627370496 + m)
      = packComponents Format.binary64 .positive (BitVec.ofNat 11 e) (BitVec.ofNat 52 m) := by
  have hsign : (Sign.positive.toBitVec ++ BitVec.ofNat 11 e).toNat = e := by
    rw [BitVec.toNat_append, ← Nat.shiftLeft_add_eq_or_of_lt (BitVec.isLt _),
      toNat_ofNat_exponent he]
    exact Nat.zero_add e
  rw [← BitVec.toNat_inj, BitVec.toNat_ofNat, Nat.mod_eq_of_lt (by omega)]
  show _ = (Sign.positive.toBitVec ++ BitVec.ofNat 11 e ++ BitVec.ofNat 52 m).toNat
  rw [BitVec.toNat_append, ← Nat.shiftLeft_add_eq_or_of_lt (BitVec.isLt _), hsign,
    toNat_ofNat_fraction hm, Nat.shiftLeft_eq]

/-- Bits that denote a number are kept. -/
theorem toBitVec_float64 (he : e < 2047) (hm : m < 4503599627370496) :
    (float64 false (e * 4503599627370496 + m)).toBits.toBitVec
      = BitVec.ofNat 64 (e * 4503599627370496 + m) := by
  have hnumber : ¬ @isNaNBits Format.binary64 (BitVec.ofNat 64 (e * 4503599627370496 + m)) := by
    rw [ofNat_eq_packComponents he hm, isNaNBits, unpackExponent_packComponents, decide_eq_true_eq]
    exact fun h => ofNat_exponent_ne he h.1
  show UnpackedFloat.pack Format.binary64 (UnpackedFloat.unpack Format.binary64 _) = _
  rw [pack_unpack]
  exact if_neg hnumber

theorem toBits_float64 (he : e < 2047) (hm : m < 4503599627370496) :
    (float64 false (e * 4503599627370496 + m)).toBits.toNat = e * 4503599627370496 + m := by
  show (float64 false (e * 4503599627370496 + m)).toBits.toBitVec.toNat = _
  rw [toBitVec_float64 he hm, BitVec.toNat_ofNat, Nat.mod_eq_of_lt (by omega)]

/-- **What normal bits denote.** -/
theorem unpack_float64 (he : 0 < e) (he' : e < 2047) (hm : m < 4503599627370496) :
    (float64 false (e * 4503599627370496 + m)).toModel.unpack
      = .finite .positive (4503599627370496 + m) ((e : Int) - 1075) (by omega) := by
  show UnpackedFloat.unpack Format.binary64
    (float64 false (e * 4503599627370496 + m)).toBits.toBitVec = _
  rw [toBitVec_float64 he' hm, ofNat_eq_packComponents he' hm, unpack_packComponents he he' hm]

theorem unpack_float64_infinity :
    (float64 false binary64.infinityBits).toModel.unpack = .infinity .positive :=
  rfl

end Fields

theorem zero_eq : (0 : Float) = double 0 :=
  Float.toBits_inj.mp (by decide)

/-- A double is determined by what it denotes. -/
theorem ofModel_pack_unpack (x : Float) : Float.ofModel (Float.Model.pack x.toModel.unpack) = x :=
  Float.ofBits_toBits x

/-! ## The nearest double of a natural -/

/-- What lies on a multiple is not rounded. -/
theorem roundHalfEven_mul (q : Nat) {d : Nat} (hd : 0 < d) :
    Format.roundHalfEven (q * d) d = q := by
  unfold Format.roundHalfEven
  rw [Nat.mul_mod_left, Nat.mul_div_cancel q hd]
  exact if_pos hd

theorem le_roundHalfEven (n d : Nat) : n / d ≤ Format.roundHalfEven n d := by
  unfold Format.roundHalfEven
  dsimp only
  split <;> try split <;> try split
  all_goals omega

section Nearest

variable {n : Nat}

/-- A number that is scaled until it has `k + 1` bits has them. -/
theorem le_scaled_div (hn : n ≠ 0) (k : Nat) :
    2 ^ k ≤ (Format.scaled n 1 ((k : Int) - n.log2)).1
      / (Format.scaled n 1 ((k : Int) - n.log2)).2 := by
  have hlog : 2 ^ n.log2 ≤ n := Nat.log2_self_le hn
  unfold Format.scaled
  split
  · next h =>
    rw [Nat.div_one, Nat.pow_eq]
    calc 2 ^ k = 2 ^ n.log2 * 2 ^ ((k : Int) - n.log2).toNat := by
          rw [← Nat.pow_add]
          congr 1
          omega
      _ ≤ n * 2 ^ ((k : Int) - n.log2).toNat := Nat.mul_le_mul_right _ hlog
  · next h =>
    rw [Nat.one_mul, Nat.pow_eq, Nat.le_div_iff_mul_le (Nat.two_pow_pos _), ← Nat.pow_add]
    have hsum : k + (-((k : Int) - n.log2)).toNat = n.log2 := by omega
    rwa [hsum]

/-- **The bits of a natural**: its leading bit is the one that is not written. -/
theorem nearest_one (hn : n ≠ 0) :
    binary64.nearest n 1 = min ((n.log2 + 1022) * 4503599627370496
      + Format.roundHalfEven (Format.scaled n 1 (52 - n.log2)).1
          (Format.scaled n 1 (52 - n.log2)).2) binary64.infinityBits := by
  have hguess : 2 * 4503599627370496
      ≤ (Format.scaled n 1 (53 - n.log2)).1 / (Format.scaled n 1 (53 - n.log2)).2 :=
    le_scaled_div hn 53
  have hone : ((1 : Nat).log2 : Int) = 0 := rfl
  have hbits : (binary64.fractionBits : Int) = 52 := rfl
  have hleast : (binary64.leastExponent : Int) = 1074 := rfl
  have hhidden : binary64.hidden = 4503599627370496 := rfl
  unfold Format.nearest
  rw [if_neg hn]
  simp only [hone, hbits, hleast, hhidden]
  have hfirst : -max (-1074) ((n.log2 : Int) - 0 - 52 - 1) = 53 - n.log2 := by omega
  rw [hfirst, if_pos hguess]
  have hexp : -(max (-1074) ((n.log2 : Int) - 0 - 52 - 1) + 1) = 52 - n.log2 := by omega
  have hfield : (max (-1074) ((n.log2 : Int) - 0 - 52 - 1) + 1 - -1074).toNat = n.log2 + 1022 := by
    omega
  rw [hexp, hfield]

/-- The mantissa of a number of at most 53 bits: it is shifted until its leading bit is the first
of 53. -/
def mantissa (n : Nat) : Nat :=
  n * 2 ^ (52 - n.log2)

theorem log2_le (hn : n ≠ 0) (h : n < 9007199254740992) : n.log2 ≤ 52 :=
  Nat.le_of_lt_succ ((Nat.log2_lt hn).mpr h)

theorem mantissa_mem (hn : n ≠ 0) (h : n < 9007199254740992) :
    4503599627370496 ≤ mantissa n ∧ mantissa n < 9007199254740992 := by
  have hlog := log2_le hn h
  have hshift : 0 < 2 ^ (52 - n.log2) := Nat.two_pow_pos _
  have hlow : 2 ^ n.log2 * 2 ^ (52 - n.log2) = 4503599627370496 := by
    rw [← Nat.pow_add, show n.log2 + (52 - n.log2) = 52 by omega]
  constructor
  · rw [← hlow]
    exact Nat.mul_le_mul_right _ (Nat.log2_self_le hn)
  · calc n * 2 ^ (52 - n.log2) < 2 ^ (n.log2 + 1) * 2 ^ (52 - n.log2) :=
          Nat.mul_lt_mul_of_pos_right Nat.lt_log2_self hshift
      _ = 9007199254740992 := by rw [Nat.pow_succ, Nat.mul_right_comm, hlow]

theorem mantissa_pos (hn : n ≠ 0) : 0 < mantissa n :=
  Nat.mul_pos (Nat.pos_of_ne_zero hn) (Nat.two_pow_pos _)

/-- A number of at most 53 bits is not rounded. -/
theorem nearest_of_lt (hn : n ≠ 0) (h : n < 9007199254740992) :
    binary64.nearest n 1
      = (n.log2 + 1023) * 4503599627370496 + (mantissa n - 4503599627370496) := by
  have hlog := log2_le hn h
  have hmantissa := mantissa_mem hn h
  have hscaled : Format.scaled n 1 (52 - n.log2) = (mantissa n * 1, 1) := by
    have hshift : ((52 : Int) - n.log2).toNat = 52 - n.log2 := by omega
    unfold Format.scaled mantissa
    rw [if_pos (by omega), hshift, Nat.mul_one, Nat.pow_eq]
  rw [nearest_one hn, hscaled, roundHalfEven_mul _ Nat.one_pos,
    show binary64.infinityBits = 2047 * 4503599627370496 from rfl]
  omega

end Nearest

/-! ## Whole numbers -/

section Double

variable {a b n : Nat}

theorem double_natCast (n : Nat) : double n = float64 false (binary64.nearest n 1) := by
  unfold double
  rw [decide_eq_false (by omega), Int.natAbs_natCast]

theorem unpack_double_zero : (double 0).toModel.unpack = .zero .positive :=
  rfl

/-- **What a number of at most 53 bits denotes as a double**: the number. -/
theorem unpack_double (hn : n ≠ 0) (h : n < 9007199254740992) :
    (double n).toModel.unpack
      = .finite .positive (mantissa n) ((n.log2 : Int) - 52) (mantissa_pos hn) := by
  have hlog := log2_le hn h
  obtain ⟨hlow, hhigh⟩ := mantissa_mem hn h
  rw [double_natCast, nearest_of_lt hn h, unpack_float64 (by omega) (by omega) (by omega),
    UnpackedFloat.finite.injEq]
  exact ⟨rfl, by omega, by omega⟩

/-- A larger number may have been rounded, but all its bits stand before the point. -/
theorem unpack_double_of_le (h : 9007199254740992 ≤ n) :
    (double n).toModel.unpack = .infinity .positive
      ∨ ∃ m e hpos, 0 < e ∧ (double n).toModel.unpack = .finite .positive m e hpos := by
  have hn : n ≠ 0 := by omega
  have hlog : 53 ≤ n.log2 := (Nat.le_log2 hn).mpr h
  have hround : 4503599627370496 ≤ Format.roundHalfEven (Format.scaled n 1 (52 - n.log2)).1
      (Format.scaled n 1 (52 - n.log2)).2 :=
    Nat.le_trans (le_scaled_div hn 52) (le_roundHalfEven _ _)
  have hbits : 1076 * 4503599627370496 ≤ binary64.nearest n 1
      ∧ binary64.nearest n 1 ≤ binary64.infinityBits := by
    rw [nearest_one hn]
    exact ⟨Nat.le_min.mpr ⟨by omega, by decide⟩, Nat.min_le_right _ _⟩
  rw [double_natCast]
  generalize binary64.nearest n 1 = bits at hbits
  obtain hfinite | rfl := Nat.lt_or_eq_of_le hbits.2
  · have hlt : bits < 2047 * 4503599627370496 := hfinite
    have hfields : bits / 4503599627370496 * 4503599627370496 + bits % 4503599627370496 = bits := by
      omega
    have hparts := unpack_float64 (e := bits / 4503599627370496) (m := bits % 4503599627370496)
      (by omega) (by omega) (by omega)
    rw [hfields] at hparts
    exact Or.inr ⟨_, _, _, by omega, hparts⟩
  · exact Or.inl unpack_float64_infinity

theorem lt_iff_compare {x y : Float} :
    x < y ↔ x.toModel.unpack.compare y.toModel.unpack = some .lt := by
  show decide ((x.toModel.unpack.compare y.toModel.unpack == some .lt) = true) = true ↔ _
  rw [decide_eq_true_eq, beq_iff_eq]

/-- Numbers with different leading bits are told apart by these. -/
theorem lt_iff_lex (ha : a ≠ 0) (hb : b ≠ 0) :
    a < b ↔ a.log2 < b.log2 ∨ a.log2 = b.log2 ∧ mantissa a < mantissa b := by
  have hlow := Nat.log2_self_le hb
  have hhigh := Nat.lt_log2_self (n := a)
  obtain hlt | heq | hgt := Nat.lt_trichotomy a.log2 b.log2
  · have hpow : 2 ^ (a.log2 + 1) ≤ 2 ^ b.log2 := Nat.pow_le_pow_right (by decide) hlt
    exact iff_of_true (by omega) (Or.inl hlt)
  · have hmul : mantissa a < mantissa b ↔ a < b := by
      unfold mantissa
      rw [heq]
      exact Nat.mul_lt_mul_right (Nat.two_pow_pos _)
    simp [heq, hmul]
  · have hpow : 2 ^ (b.log2 + 1) ≤ 2 ^ a.log2 := Nat.pow_le_pow_right (by decide) hgt
    have hb' := Nat.lt_log2_self (n := b)
    have ha' := Nat.log2_self_le ha
    exact iff_of_false (by omega) (by omega)

/-- **Whole numbers are ordered as doubles like they are as numbers**, even if the left one had to
be rounded. -/
theorem double_lt_double (h : b < 9007199254740992) : double a < double b ↔ a < b := by
  rw [lt_iff_compare]
  obtain hfits | hlarge := Nat.lt_or_ge a 9007199254740992
  · by_cases ha : a = 0 <;> by_cases hb : b = 0
    · simp [ha, hb, unpack_double_zero, UnpackedFloat.compare]
    · simp [ha, Nat.pos_of_ne_zero hb, unpack_double_zero, unpack_double hb h,
        UnpackedFloat.compare]
    · simp [hb, unpack_double_zero, unpack_double ha hfits, UnpackedFloat.compare]
    · rw [unpack_double ha hfits, unpack_double hb h, lt_iff_lex ha hb]
      simp [UnpackedFloat.compare, Ordering.then_eq_lt, compare_lt_iff_lt]
  · refine iff_of_false ?_ (by omega)
    by_cases hb : b = 0
    · obtain hinf | ⟨m, e, hpos, -, hfinite⟩ := unpack_double_of_le hlarge
      · simp [hb, hinf, unpack_double_zero, UnpackedFloat.compare]
      · simp [hb, hfinite, unpack_double_zero, UnpackedFloat.compare]
    · have hlog := log2_le hb h
      rw [unpack_double hb h]
      obtain hinf | ⟨m, e, hpos, he, hfinite⟩ := unpack_double_of_le hlarge
      · simp [hinf, UnpackedFloat.compare]
      · rw [hfinite]
        simp [UnpackedFloat.compare, Ordering.then_eq_lt, compare_lt_iff_lt]
        omega

/-- Whole numbers are not negative, nor not-a-number; only a large one may be an infinity. -/
theorem unpack_double_cases (n : Nat) :
    (double n).toModel.unpack = .zero .positive
      ∨ (∃ m e hpos, (double n).toModel.unpack = .finite .positive m e hpos)
      ∨ 9007199254740992 ≤ n ∧ (double n).toModel.unpack = .infinity .positive := by
  obtain hfits | hlarge := Nat.lt_or_ge n 9007199254740992
  · by_cases hn : n = 0
    · exact Or.inl (hn ▸ unpack_double_zero)
    · exact Or.inr (Or.inl ⟨_, _, _, unpack_double hn hfits⟩)
  · obtain hinf | ⟨m, e, hpos, -, hfinite⟩ := unpack_double_of_le hlarge
    · exact Or.inr (Or.inr ⟨hlarge, hinf⟩)
    · exact Or.inr (Or.inl ⟨m, e, hpos, hfinite⟩)

theorem zero_le_double (n : Nat) : double 0 ≤ double n := by
  show decide (UnpackedFloat.le (double 0).toModel.unpack (double n).toModel.unpack = true) = true
  rw [unpack_double_zero, decide_eq_true_eq]
  obtain hzero | ⟨m, e, hpos, hfinite⟩ | ⟨-, hinf⟩ := unpack_double_cases n
  · rw [hzero]
    rfl
  · rw [hfinite]
    rfl
  · rw [hinf]
    rfl

theorem isFinite_double (h : n < 9007199254740992) : (double n).isFinite = true := by
  show UnpackedFloat.isFinite (double n).toModel.unpack = true
  obtain hzero | ⟨m, e, hpos, hfinite⟩ | ⟨hlarge, -⟩ := unpack_double_cases n
  · rw [hzero]
    rfl
  · rw [hfinite]
    rfl
  · omega

theorem isNaN_double (n : Nat) : (double n).isNaN = false := by
  show UnpackedFloat.isNaN (double n).toModel.unpack = false
  obtain hzero | ⟨m, e, hpos, hfinite⟩ | ⟨-, hinf⟩ := unpack_double_cases n
  · rw [hzero]
    rfl
  · rw [hfinite]
    rfl
  · rw [hinf]
    rfl

/-! ## Products -/

/-- Bits that are zero are dropped without a trace. -/
theorem shiftRight_mul (m k : Nat) :
    (⟨m * 2 ^ k, false, false⟩ : ExtendedMantissa) >>> k = ⟨m, false, false⟩ := by
  induction k generalizing m with
  | zero => simp [HShiftRight.hShiftRight, Nat.repeat]
  | succ k ih =>
    have hmul : m * 2 ^ (k + 1) = m * 2 * 2 ^ k := by rw [Nat.pow_succ', Nat.mul_assoc]
    show ((⟨m * 2 ^ (k + 1), false, false⟩ : ExtendedMantissa) >>> k).shiftRightOne = _
    rw [hmul, ih (m * 2)]
    simp [ExtendedMantissa.shiftRightOne]

theorem log2_mul_two_pow (hn : n ≠ 0) (k : Nat) : (n * 2 ^ k).log2 = n.log2 + k := by
  have hpos : 0 < 2 ^ k := Nat.two_pow_pos k
  refine (Nat.log2_eq_iff (Nat.mul_ne_zero hn hpos.ne')).mpr ⟨?_, ?_⟩
  · rw [Nat.pow_add]
    exact Nat.mul_le_mul_right _ (Nat.log2_self_le hn)
  · rw [Nat.add_right_comm, Nat.pow_add]
    exact Nat.mul_lt_mul_of_pos_right Nat.lt_log2_self hpos

/-- A number that is written with zeros at its end loses those that do not fit. -/
theorem shiftToTargetExponent_mul {k : Nat} (hn : n ≠ 0) (h : n < 9007199254740992)
    (hk : 52 ≤ n.log2 + k) :
    shiftToTargetExponent Format.binary64 (n * 2 ^ k) (-k) .exact
      = (⟨mantissa n, false, false⟩, (n.log2 : Int) - 52) := by
  have hlog := log2_le hn h
  have htarget : Format.binary64.targetExponent (totalExponent (n * 2 ^ k) (-k))
      = (n.log2 : Int) - 52 := by
    simp only [Format.targetExponent, totalExponent, Format.mantissaBits, Format.minExponent,
      log2_mul_two_pow hn]
    omega
  have hshift : ((n.log2 : Int) - 52 - -k).toNat = n.log2 + k - 52 := by omega
  have hmul : n * 2 ^ k = mantissa n * 2 ^ (n.log2 + k - 52) := by
    rw [mantissa, Nat.mul_assoc, ← Nat.pow_add,
      show 52 - n.log2 + (n.log2 + k - 52) = k by omega]
  unfold shiftToTargetExponent shiftToExponent
  dsimp only
  rw [htarget, hshift, hmul, ExtendedMantissa.ofMantissaAndAccuracy, shiftRight_mul]
  exact Prod.ext rfl (by dsimp only; omega)

/-- **A whole number is rounded to itself**, whatever zeros it is written with. -/
theorem roundWithAccuracy_mul {k : Nat} (hn : n ≠ 0) (h : n < 9007199254740992)
    (hk : 52 ≤ n.log2 + k) :
    roundWithAccuracy Format.binary64 .positive (n * 2 ^ k) (-k) .exact
      = (double n).toModel.unpack := by
  have hlog := log2_le hn h
  have hagain := shiftToTargetExponent_mul (k := 52 - n.log2) hn h (by omega)
  rw [show -((52 - n.log2 : Nat) : Int) = n.log2 - 52 by omega] at hagain
  unfold roundWithAccuracy
  rw [shiftToTargetExponent_mul hn h hk]
  dsimp only [ExtendedMantissa.roundedMantissa, ExtendedMantissa.accuracy,
    Accuracy.roundToNearestEven]
  rw [show mantissa n = n * 2 ^ (52 - n.log2) from rfl, hagain, unpack_double hn h]
  exact dif_neg (mantissa_pos hn).ne'

theorem mantissa_mul (a b : Nat) :
    mantissa a * mantissa b = a * b * 2 ^ (52 - a.log2 + (52 - b.log2)) := by
  rw [mantissa, mantissa, Nat.pow_add, Nat.mul_mul_mul_comm]

/-- **A product of whole numbers is that of the numbers**, as long as it is below `2 ^ 53`. -/
theorem double_mul (ha : a < 9007199254740992) (hb : b < 9007199254740992)
    (h : a * b < 9007199254740992) : double a * double b = double (a * b : Nat) := by
  have hparts : UnpackedFloat.mul Format.binary64 (double a).toModel.unpack
      (double b).toModel.unpack = (double (a * b : Nat)).toModel.unpack := by
    by_cases ha₀ : a = 0 <;> by_cases hb₀ : b = 0
    · rw [ha₀, hb₀]
      rfl
    · rw [ha₀, Nat.zero_mul, unpack_double hb₀ hb]
      rfl
    · rw [hb₀, Nat.mul_zero, unpack_double ha₀ ha]
      rfl
    · have hloga := log2_le ha₀ ha
      have hlogb := log2_le hb₀ hb
      have hle : a.log2 ≤ (a * b).log2 :=
        (Nat.le_log2 (Nat.mul_ne_zero ha₀ hb₀)).mpr (Nat.le_trans (Nat.log2_self_le ha₀)
          (Nat.le_mul_of_pos_right a (Nat.pos_of_ne_zero hb₀)))
      have hexp : (a.log2 : Int) - 52 + ((b.log2 : Int) - 52)
          = -((52 - a.log2 + (52 - b.log2) : Nat) : Int) := by omega
      rw [unpack_double ha₀ ha, unpack_double hb₀ hb]
      show roundWithAccuracy Format.binary64 .positive (mantissa a * mantissa b) _ .exact = _
      rw [mantissa_mul, hexp]
      exact roundWithAccuracy_mul (Nat.mul_ne_zero ha₀ hb₀) h (by omega)
  calc double a * double b
      = Float.ofModel (Float.Model.pack (UnpackedFloat.mul Format.binary64
          (double a).toModel.unpack (double b).toModel.unpack)) := rfl
    _ = double (a * b : Nat) := by rw [hparts, ofModel_pack_unpack]

/-! ## Reading a whole number off its bits -/

theorem toBits_double (hn : n ≠ 0) (h : n < 9007199254740992) :
    (double n).toBits.toNat
      = (n.log2 + 1023) * 4503599627370496 + (mantissa n - 4503599627370496) := by
  have hlog := log2_le hn h
  obtain ⟨hlow, hhigh⟩ := mantissa_mem hn h
  rw [double_natCast, nearest_of_lt hn h, toBits_float64 (by omega) (by omega)]

theorem decode_double (hn : n ≠ 0) (h : n < 9007199254740992) :
    binary64.decode (double n).toBits.toNat = (mantissa n, (n.log2 : Int) - 52) := by
  have hlog := log2_le hn h
  obtain ⟨hlow, hhigh⟩ := mantissa_mem hn h
  have hhidden : binary64.hidden = 4503599627370496 := rfl
  have hfield : Nat.pow 2 binary64.exponentBits = 2048 := rfl
  have hleast : (binary64.leastExponent : Int) = 1074 := rfl
  have hexp : (double n).toBits.toNat / 4503599627370496 % 2048 = n.log2 + 1023 := by
    rw [toBits_double hn h]
    omega
  have hfraction : (double n).toBits.toNat % 4503599627370496 = mantissa n - 4503599627370496 := by
    rw [toBits_double hn h]
    omega
  unfold Format.decode
  simp only [hhidden, hfield, hleast, hexp, hfraction]
  rw [if_neg (by omega)]
  exact Prod.ext (by dsimp only; omega) (by dsimp only; omega)

/-- What a whole number is multiplied by before its exponent is applied needs no rounding. -/
theorem roundHalfEven_scaled (hn : n ≠ 0) (h : n < 9007199254740992) (k : Nat) :
    Format.roundHalfEven (Format.scaled (mantissa n * k) 1 (n.log2 - 52)).1
      (Format.scaled (mantissa n * k) 1 (n.log2 - 52)).2 = n * k := by
  have hlog := log2_le hn h
  unfold Format.scaled
  split
  · next hwhole =>
    have hshift : 52 - n.log2 = 0 := by omega
    have hzero : ((n.log2 : Int) - 52).toNat = 0 := by omega
    rw [hzero, mantissa, hshift]
    simpa using roundHalfEven_mul (n * k) Nat.one_pos
  · have hshift : (-((n.log2 : Int) - 52)).toNat = 52 - n.log2 := by omega
    rw [hshift, Nat.one_mul, Nat.pow_eq, mantissa, Nat.mul_right_comm]
    exact roundHalfEven_mul (n * k) (Nat.two_pow_pos _)

theorem roundHalfEven_scaled_zero (k : Nat) (e : Int) :
    Format.roundHalfEven (Format.scaled (0 * k) 1 e).1
      (Format.scaled (0 * k) 1 e).2 = 0 := by
  have hpos : 0 < (Format.scaled (0 * k) 1 e).2 := by
    unfold Format.scaled
    split
    · exact Nat.one_pos
    · exact Nat.mul_pos Nat.one_pos (Nat.two_pow_pos _)
  have hzero : (Format.scaled (0 * k) 1 e).1 = 0 * (Format.scaled (0 * k) 1 e).2 := by
    unfold Format.scaled
    split <;> simp
  rw [hzero]
  exact roundHalfEven_mul 0 hpos

end Double

end Number

/-! ## Durations -/

namespace Duration

open Number

variable {n : Nat}

theorem isRepresentable_ofSeconds (n : Nat) :
    isRepresentable (ofSeconds n).nanos = decide (n ≤ maxWord) := by
  have hpos : 0 < nanosPerSecond := by decide
  exact decide_eq_decide.mpr ((Nat.mul_lt_mul_right hpos).trans Nat.lt_succ_iff)

/-- **A whole number of seconds** is a duration of that many seconds. -/
theorem ofFloat?_double (h : n < 9007199254740992) : ofFloat? (double n) = some (ofSeconds n) := by
  have hneg : ¬ double n < 0 := by
    rw [zero_eq]
    exact mt (double_lt_double (by decide)).mp (Nat.not_lt_zero n)
  have hguard : ((double n).isNaN || !(double n).isFinite || decide (double n < 0)) = false := by
    rw [isNaN_double, isFinite_double h, decide_eq_false hneg]
    rfl
  unfold ofFloat?
  rw [hguard, if_neg Bool.false_ne_true]
  by_cases hn : n = 0
  · have hdecode : binary64.decode (double 0).toBits.toNat = (0, -1074) := rfl
    subst hn
    simp only [Nat.cast_zero, hdecode, roundHalfEven_scaled_zero]
    exact if_pos (by decide)
  · simp only [decode_double hn h, roundHalfEven_scaled hn h nanosPerSecond]
    have hfits : n ≤ maxWord := by
      unfold maxWord
      omega
    exact if_pos ((isRepresentable_ofSeconds n).trans (decide_eq_true hfits))

end Duration

end IncidentMemory
