import IncidentMemory.Proofs.Rounding
import IncidentMemory.Vector

/-!
# How similar a vector is to itself

In exact arithmetic the cosine of a vector with itself is one. Here three
operations are rounded after the dot product is known: its root, the square of
the root, and the quotient of the two. Every one of them loses at most a unit of
the last of 24 bits, so the quotient stays above `0.95`
(`Embedding.nineteenTwentieths_le_cosine`), whatever the dot product is, as
long as the root is above `epsilon` and not infinite. Nothing is assumed of how
the dot product itself was rounded: numerator and denominator start from the
same one.

Where the norm is infinite the quotient is not a number
(`Embedding.isNaN_cosine_self`). It has a place in the total order all the same,
and which one is up to the processor: behind all numbers, if the processor makes
negative ones (`Embedding.notAhead_cosine`), and otherwise ahead of them.
-/

namespace IncidentMemory.Single

open Float.Model Float.Model.UnpackedFloat

variable (a : Arithmetic) {m : Nat} {e : Int}

/-! ## Square roots -/

/-- A finite number has 24 bits or fewer. -/
theorem parts_finite {x : Single} {s : Sign} {h : 0 < m} (hx : x.parts = .finite s m e h) :
    m.log2 ≤ 23 ∧ -149 ≤ e ∧ e ≤ 104 := by
  have hlog : ∀ n < 16777216, 0 < n → n.log2 ≤ 23 := fun n hn hpos =>
    Nat.le_of_lt_succ ((Nat.log2_lt (Nat.ne_of_gt hpos)).mpr hn)
  obtain ⟨hexp, hman, heq⟩ | ⟨hexp, hman, heq⟩ | ⟨hexp, hman, heq⟩ | ⟨hexp, hman, hpos, heq⟩
    | ⟨hexp, hexp', hpos, heq⟩ := unpack_cases x.bits.toBitVec
  all_goals rw [parts, heq] at hx
  iterate 3 cases hx
  all_goals
    obtain ⟨-, rfl, rfl⟩ := UnpackedFloat.finite.inj hx
    exact ⟨hlog _ (by omega) hpos, by omega, by omega⟩

theorem isNaN_of_parts {x : Single} {s : Sign} {h : 0 < m} (hx : x.parts = .finite s m e h) :
    x.isNaN = false := by
  rw [← Bool.not_eq_true, isNaN_iff, hx]
  exact UnpackedFloat.noConfusion

/-- The exponent of the root, and how far a number is shifted before its root is
taken: until 47 or 48 bits are there. -/
theorem sqrtCore_eq (hlog : m.log2 ≤ 23) (he : -149 ≤ e) (he' : e ≤ 104) {s : Nat}
    (hs : (s : Int) = e - 2 * ((e + m.log2) / 2 - 23)) :
    sqrtCore Format.binary32 m e
      = ((m * 2 ^ s).sqrt, (e + m.log2) / 2 - 23,
          if m * 2 ^ s - (m * 2 ^ s).sqrt * (m * 2 ^ s).sqrt = 0 then .exact
          else .inexact (if m * 2 ^ s - (m * 2 ^ s).sqrt * (m * 2 ^ s).sqrt ≤ (m * 2 ^ s).sqrt
            then .lt else .gt)) := by
  have htarget : min (e.ediv 2) (Format.binary32.targetExponent ((totalExponent m e + 1).ediv 2))
      = (e + m.log2) / 2 - 23 := by
    simp only [Format.targetExponent, totalExponent, Format.mantissaBits, Format.minExponent]
    show min (e / 2) (max ((_ / 2 : Int) - _) _) = _
    omega
  have hshift : (e - 2 * ((e + m.log2) / 2 - 23)).toNat = s := by omega
  unfold sqrtCore
  simp only [htarget, Nat.shiftLeft_eq, hshift]

/-- A root is rounded up only where the number is nearer to the next square. -/
theorem rounded_sqrt (n : Nat) :
    rounded n.sqrt 0 (if n - n.sqrt * n.sqrt = 0 then .exact
        else .inexact (if n - n.sqrt * n.sqrt ≤ n.sqrt then .lt else .gt)) = n.sqrt
      ∨ (n.sqrt * n.sqrt + n.sqrt < n
        ∧ rounded n.sqrt 0 (if n - n.sqrt * n.sqrt = 0 then .exact
          else .inexact (if n - n.sqrt * n.sqrt ≤ n.sqrt then .lt else .gt)) = n.sqrt + 1) := by
  by_cases hexact : n - n.sqrt * n.sqrt = 0
  · rw [if_pos hexact]
    exact .inl rfl
  · rw [if_neg hexact]
    by_cases hlow : n - n.sqrt * n.sqrt ≤ n.sqrt
    · rw [if_pos hlow]
      exact .inl rfl
    · rw [if_neg hlow]
      exact .inr ⟨by omega, rfl⟩

/-- The root of a number of 47 or 48 bits has 24 bits, and has them also rounded
up, if the number ends in 24 zeros: the largest of them is nearer to the square
below. -/
theorem sqrt_mem {n : Nat} (hn : 70368744177664 ≤ n) (hn' : n ≤ 281474959933440) :
    8388608 ≤ n.sqrt ∧ n.sqrt < 16777216
      ∧ (n.sqrt * n.sqrt + n.sqrt < n → n.sqrt + 1 < 16777216) := by
  have hlow : 8388608 ≤ n.sqrt := Nat.le_sqrt.mpr hn
  have hhigh : n.sqrt < 16777216 := Nat.sqrt_lt.mpr (by omega)
  refine ⟨hlow, hhigh, fun hup => ?_⟩
  by_contra hcarry
  have heq : n.sqrt = 16777215 := by omega
  rw [heq] at hup
  omega

/-- A number with as many bits as it has, shifted. -/
theorem shifted_bounds (h : m ≠ 0) {L : Nat} (hL : m.log2 = L) (s : Nat) :
    2 ^ (L + s) ≤ m * 2 ^ s ∧ m * 2 ^ s + 2 ^ s ≤ 2 ^ (L + s + 1) := by
  obtain ⟨hlow, hhigh⟩ := (Nat.log2_eq_iff h).mp hL
  constructor
  · rw [Nat.pow_add]
    exact Nat.mul_le_mul_right _ hlow
  · rw [Nat.add_right_comm, Nat.pow_add, ← Nat.succ_mul]
    exact Nat.mul_le_mul_right _ hhigh

/-- A number of 24 bits or fewer, shifted to 47 or 48. -/
theorem shifted_mem {L s : Nat} (h : m ≠ 0) (hL : m.log2 = L) (hlog : L ≤ 23)
    (hbits : L + s = 46 ∨ L + s = 47) :
    70368744177664 ≤ m * 2 ^ s ∧ m * 2 ^ s ≤ 281474959933440 := by
  obtain ⟨hn, hn'⟩ := shifted_bounds h hL s
  have hpos := Nat.two_pow_pos s
  obtain hbits | hbits := hbits
  · rw [hbits] at hn hn'
    omega
  · have hs : 2 ^ 24 ≤ 2 ^ s := Nat.pow_le_pow_right (by decide) (by omega)
    rw [hbits] at hn hn'
    omega

/-- **The square root** of a positive number has a full mantissa, and its square
is not much above the number. -/
theorem isNormal_sqrt {x : Single} {h : 0 < m} (hx : x.parts = .finite .positive m e h) {s : Nat}
    (hs : (s : Int) = e - 2 * ((e + m.log2) / 2 - 23)) :
    ∃ r, (a.sqrt x).IsNormal r ((e + m.log2) / 2 - 23) ∧ (r - 1) * (r - 1) ≤ m * 2 ^ s := by
  obtain ⟨hlog, he, he'⟩ := parts_finite hx
  have hnan := isNaN_of_parts hx
  obtain ⟨hn, hn'⟩ := shifted_mem (s := s) (Nat.ne_of_gt h) rfl hlog (by omega)
  have hsquare := Nat.sqrt_le (m * 2 ^ s)
  have hrounded := rounded_sqrt (m * 2 ^ s)
  have hcore := sqrtCore_eq hlog he he' hs
  obtain ⟨hlow, hhigh, hup⟩ := sqrt_mem hn hn'
  generalize (if m * 2 ^ s - (m * 2 ^ s).sqrt * (m * 2 ^ s).sqrt = 0 then Accuracy.exact
    else .inexact (if m * 2 ^ s - (m * 2 ^ s).sqrt * (m * 2 ^ s).sqrt ≤ (m * 2 ^ s).sqrt
      then .lt else .gt)) = acc at hrounded hcore
  generalize (m * 2 ^ s).sqrt = root at *
  have hroot : root.log2 = 23 + 0 := (Nat.log2_eq_iff (by omega)).mpr ⟨hlow, hhigh⟩
  obtain ⟨r, j, hnormal, hj, heq⟩ := isNormal_round (a.nan x x) (e := (e + m.log2) / 2 - 23) hroot
    (by omega) acc (by omega) (.inl (by omega))
  have hresult : a.sqrt x = ofParts (a.nan x x) (roundWithAccuracy Format.binary32 .positive root
      ((e + m.log2) / 2 - 23) acc) := by
    rw [sqrt_eq a hnan, hx, UnpackedFloat.sqrt]
    simp only [hcore]
  have hlow' := hnormal.low
  have hsmall : rounded root 0 acc < 16777216 := by
    obtain hdown | ⟨hgap, hnext⟩ := hrounded
    · rwa [hdown]
    · rw [hnext]
      exact hup hgap
  obtain rfl | rfl := hj
  · rw [Int.natCast_zero, Int.add_zero, ← hresult] at hnormal
    refine ⟨r, hnormal, ?_⟩
    have hle : r - 1 ≤ root := by
      rw [Nat.pow_zero, Nat.mul_one, Nat.mul_one] at heq
      omega
    exact Nat.le_trans (Nat.mul_le_mul hle hle) hsquare
  · exact absurd heq (by omega)

/-! ## The square of a root -/

/-- **The square** of a number that is the root of another has a full mantissa,
and is not above the true square by more than a unit of its last bit. -/
theorem isNormal_square {x : Single} (hx : x.IsNormal m e) (he : -86 ≤ e) (he' : e ≤ 40) :
    ∃ p t : Nat, (a.mul x x).IsNormal p (2 * e + t) ∧ (t = 23 ∨ t = 24)
      ∧ p * 2 ^ t ≤ m * m + 2 ^ t := by
  have hlow : 70368744177664 ≤ m * m := Nat.mul_le_mul hx.low hx.low
  have hhigh : m * m ≤ 281474943156225 :=
    Nat.mul_le_mul (Nat.le_of_lt_succ hx.high) (Nat.le_of_lt_succ hx.high)
  have hresult : a.mul x x = ofParts (a.nan x x)
      (roundWithAccuracy Format.binary32 .positive (m * m) (e + e) .exact) := by
    rw [mul_eq a hx.isNaN hx.isNaN, hx.parts]
    rfl
  rw [hresult, ← Int.two_mul]
  generalize m * m = n at hlow hhigh ⊢
  by_cases hbits : n < 140737488355328
  · have hlog : n.log2 = 23 + 23 := (Nat.log2_eq_iff (by omega)).mpr ⟨hlow, hbits⟩
    have hr := rounded_mem n 23 .exact
    obtain ⟨p, t, hnormal, ht, heq⟩ := isNormal_round (a.nan x x) (e := 2 * e) hlog (by omega)
      .exact (by omega) (.inl (by omega))
    refine ⟨p, t, hnormal, ht, ?_⟩
    obtain rfl | rfl := ht <;> omega
  · have hlog : n.log2 = 23 + 24 := (Nat.log2_eq_iff (by omega)).mpr ⟨by omega, by omega⟩
    have hr := rounded_mem n 24 .exact
    obtain ⟨p, t, hnormal, ht, heq⟩ := isNormal_round (a.nan x x) (e := 2 * e) hlog (by omega) .exact
      (by omega) (.inr (by omega))
    have hlow' := hnormal.low
    obtain rfl | rfl := ht
    · exact ⟨p, 24, hnormal, .inr rfl, by omega⟩
    · exact absurd heq (by omega)

/-! ## The quotient of a number and such a square -/

/-- What is divided: a number of 24 bits or fewer, shifted to 48. -/
theorem divCore_eq {p : Nat} {f : Int} {L b t : Nat} (hL : m.log2 = L) (hlog : L ≤ 23)
    (hp : p.log2 = 23) (hb : e + L = 2 * ((e + L) / 2) + b) (ht : t ≤ 24)
    (hf : f = 2 * ((e + L) / 2 - 23) + t) :
    divCore Format.binary32 m e p f
      = (m * 2 ^ (47 - L) / p, (b - t - 1 : Int),
          accuracyOfFraction (m * 2 ^ (47 - L) % p) p) := by
  have htarget : min (e - f) (Format.binary32.targetExponent (totalExponent m e - totalExponent p f))
      = b - t - 1 := by
    simp only [Format.targetExponent, totalExponent, Format.mantissaBits, Format.minExponent, hL, hp]
    omega
  have hshift : (e - f - (b - t - 1)).toNat = 47 - L := by omega
  unfold divCore
  simp only [htarget, hshift, Nat.shiftLeft_eq]

/-- **The quotient** has a full mantissa, and is not below the true quotient by
more than two units of the place that the division stopped at. -/
theorem isNormal_div {x y : Single} {h : 0 < m} {p : Nat} {f : Int} {L b t : Nat}
    (hx : x.parts = .finite .positive m e h) (hL : m.log2 = L) (hy : y.IsNormal p f)
    (hb : e + L = 2 * ((e + L) / 2) + b) (ht : t ≤ 24) (hf : f = 2 * ((e + L) / 2 - 23) + t) :
    ∃ r j : Nat, (a.div x y).IsNormal r (b - t - 1 + j) ∧ j ≤ 2
      ∧ m * 2 ^ (47 - L) < (r * 2 ^ j + 2) * p := by
  obtain ⟨hlog, he, he'⟩ := parts_finite hx
  have hlow := hy.low
  have hhigh := hy.high
  obtain ⟨hn, hn'⟩ := shifted_bounds (Nat.ne_of_gt h) hL (47 - L)
  rw [Nat.add_sub_cancel' (by omega)] at hn hn'
  have hpos := Nat.two_pow_pos (47 - L)
  have hresult : a.div x y = ofParts (a.nan x y) (roundWithAccuracy Format.binary32 .positive
      (m * 2 ^ (47 - L) / p) (b - t - 1) (accuracyOfFraction (m * 2 ^ (47 - L) % p) p)) := by
    rw [div_eq a (isNaN_of_parts hx) hy.isNaN, hx, hy.parts, UnpackedFloat.div]
    simp only [divCore_eq hL (hL ▸ hlog) hy.log2 hb ht hf]
    rfl
  have hquot : m * 2 ^ (47 - L) < (m * 2 ^ (47 - L) / p + 1) * p :=
    Nat.lt_mul_of_div_lt (Nat.lt_succ_self _) hy.pos
  rw [hresult]
  generalize accuracyOfFraction (m * 2 ^ (47 - L) % p) p = acc
  generalize m * 2 ^ (47 - L) = n at *
  have hq : 8388608 ≤ n / p := (Nat.le_div_iff_mul_le hy.pos).mpr (by omega)
  have hq' : n / p < 33554432 := (Nat.div_lt_iff_lt_mul hy.pos).mpr (by omega)
  generalize n / p = q at *
  by_cases hbits : q < 16777216
  · have hlog : q.log2 = 23 + 0 := (Nat.log2_eq_iff (by omega)).mpr ⟨hq, hbits⟩
    have hr := rounded_mem q 0 acc
    obtain ⟨r, j, hnormal, hj, heq⟩ := isNormal_round (a.nan x y) (e := b - t - 1) hlog (by omega)
      acc (by omega) (.inl (by omega))
    refine ⟨r, j, hnormal, by omega, Nat.lt_of_lt_of_le hquot (Nat.mul_le_mul_right _ ?_)⟩
    omega
  · have hlog : q.log2 = 23 + 1 := (Nat.log2_eq_iff (by omega)).mpr ⟨by omega, hq'⟩
    have hr := rounded_mem q 1 acc
    obtain ⟨r, j, hnormal, hj, heq⟩ := isNormal_round (a.nan x y) (e := b - t - 1) hlog (by omega)
      acc (by omega) (.inl (by omega))
    refine ⟨r, j, hnormal, by omega, Nat.lt_of_lt_of_le hquot (Nat.mul_le_mul_right _ ?_)⟩
    omega

/-! ## A number over the square of its root -/

/-- Both roundings together lose less than a twentieth. -/
theorem quotient_large {r M p w t b : Nat} (hr : 8388608 ≤ r) (hM : (r - 1) * (r - 1) ≤ M)
    (ht : t = 23 ∨ t = 24) (hb : b = 0 ∨ b = 1) (hp : p * 2 ^ t ≤ r * r + 2 ^ t)
    (hN : M * 2 ^ (1 - b) < (w + 2) * p) : 19 * 2 ^ (t + 1 - b) ≤ 20 * w := by
  obtain ⟨x, rfl⟩ : ∃ x, r = x + 1 := ⟨r - 1, by omega⟩
  rw [Nat.add_sub_cancel] at hM
  have hsquare : (x + 1) * (x + 1) = x * x + 2 * x + 1 := by
    rw [Nat.add_mul, Nat.mul_add]
    omega
  have hlarge : 8388607 * x ≤ x * x := Nat.mul_le_mul_right x (by omega)
  rw [hsquare] at hp
  generalize x * x = X at *
  by_contra hsmall
  have hstep : 20 * ((w + 2) * p) ≤ (19 * 2 ^ (t + 1 - b) + 39) * p := by
    rw [← Nat.mul_assoc]
    exact Nat.mul_le_mul_right p (by omega)
  generalize (w + 2) * p = y at *
  obtain rfl | rfl := ht <;> obtain rfl | rfl := hb <;>
    simp only [Nat.reduceAdd, Nat.reduceSub, Nat.reducePow, Nat.reduceMul] at * <;> omega

/-- The number nearest to `0.95`. -/
def nineteenTwentieths : Single := ⟨0x3F733333⟩

/-- **A number over the square of its own root** is nearly one, if the root is
above the distance from one to the next number. -/
theorem nineteenTwentieths_le_div_sqrt {x : Single} {h : 0 < m}
    (hx : x.parts = .finite .positive m e h) (hroot : Embedding.epsilon < a.sqrt x) :
    nineteenTwentieths ≤ a.div x (a.mul (a.sqrt x) (a.sqrt x)) := by
  obtain ⟨hlog, he, he'⟩ := parts_finite hx
  obtain ⟨s, hs⟩ : ∃ s : Nat, (s : Int) = e - 2 * ((e + m.log2) / 2 - 23) :=
    ⟨(e - 2 * ((e + m.log2) / 2 - 23)).toNat, by omega⟩
  obtain ⟨r, hr, hsquare⟩ := isNormal_sqrt a hx hs
  have hlarge : -46 ≤ (e + m.log2) / 2 - 23 := by
    have hkey := (lt_iff.mp hroot).2.2
    rw [hr.orderKey, hr.bits] at hkey
    have heps : Embedding.epsilon.orderKey = 872415232 := by decide
    have := hr.high
    omega
  obtain ⟨p, t, hp, ht, hpbound⟩ := isNormal_square a hr (by omega) (by omega)
  obtain ⟨b, hb⟩ : ∃ b : Nat, e + m.log2 = 2 * ((e + m.log2) / 2) + b :=
    ⟨((e + m.log2) % 2).toNat, by omega⟩
  obtain ⟨q, j, hq, hj, hbound⟩ := isNormal_div a hx rfl hp hb (by omega) rfl
  have hbit : b = 0 ∨ b = 1 := by omega
  have hshift : m * 2 ^ (47 - m.log2) = m * 2 ^ s * 2 ^ (1 - b) := by
    rw [Nat.mul_assoc, ← Nat.pow_add]
    congr 2
    omega
  rw [hshift] at hbound
  have hvalue := quotient_large hr.low hsquare ht hbit hpbound hbound
  refine le_iff.mpr ⟨rfl, hq.isNaN, ?_⟩
  rw [hq.orderKey, hq.bits]
  show (1064514355 : Int) ≤ _
  have hlow := hq.low
  have hhigh := hq.high
  obtain rfl | rfl := ht <;> obtain rfl | rfl := hbit <;>
    obtain rfl | rfl | rfl : j = 0 ∨ j = 1 ∨ j = 2 := by omega
  all_goals
    simp only [Nat.reduceAdd, Nat.reduceSub, Nat.reducePow, Nat.reduceMul] at hvalue
    omega

/-! ## Not-a-numbers made by operations -/

/-- **A number, or a not-a-number that the total order puts behind all
numbers.** -/
def NotAhead (x : Single) : Prop :=
  x.isNaN = true → x.isNegative = true

instance (x : Single) : Decidable x.NotAhead :=
  inferInstanceAs (Decidable (_ → _))

/-- Numbers are. -/
theorem NotAhead.of_isNaN {x : Single} (h : x.isNaN = false) : x.NotAhead :=
  fun hnan => absurd hnan (by simp [h])

/-- Neither infinite nor a not-a-number. -/
def IsFinite (x : Single) : Prop :=
  x.magnitude < Number.binary32.infinityBits

instance (x : Single) : Decidable x.IsFinite :=
  inferInstanceAs (Decidable (_ < _))

/-- **What a number has ahead of it is a number**, and not below it. -/
theorem NotAhead.le_of_totalLe {x y : Single} (hy : y.NotAhead) (hx : x.isNaN = false)
    (h : x.totalLe y = true) : x ≤ y := by
  refine Single.le_of_totalLe hx (Bool.not_eq_true _ ▸ fun hnan => ?_) h
  have hneg := hy hnan
  have hkey := totalLe_iff.mp h
  simp only [isNaN, decide_eq_true_eq, decide_eq_false_iff_not] at hnan hx
  rw [totalKey, totalKey, if_pos hneg] at hkey
  split at hkey <;> omega

/-- What a number is ahead of is not ahead of all numbers. -/
theorem notAhead_of_totalLe {x y : Single} (hy : y.isNaN = false) (h : x.totalLe y = true) :
    x.NotAhead := by
  intro hnan
  have hkey := totalLe_iff.mp h
  by_contra hneg
  simp only [isNaN, decide_eq_true_eq, decide_eq_false_iff_not] at hnan hy
  rw [totalKey, totalKey, if_neg hneg] at hkey
  split at hkey <;> omega

/-- A result that is a number is stored as one. -/
theorem isNaN_ofResult {none : Single} {r : Float32} (h : (ofResult none r).isNaN = true) :
    ofResult none r = none := by
  unfold ofResult at h ⊢
  by_cases hr : r.isNaN = true
  · rw [if_pos hr]
  · rw [if_neg hr, isNaN_iff] at h
    have hmodel : r.toModel.unpack = .notANumber := h
    refine absurd ?_ hr
    show r.toModel.unpack.isNaN = true
    rw [hmodel]
    rfl

/-- **Where an operation comes to no number**, the processor says to what. -/
theorem lift₂_of_isNaN {op : Float32 → Float32 → Float32} {x y : Single}
    (h : (a.lift₂ op x y).isNaN = true) : a.lift₂ op x y = a.nan x y := by
  unfold Arithmetic.lift₂ at h ⊢
  split
  · rfl
  · next hnum =>
    rw [if_neg hnum] at h
    exact isNaN_ofResult h

theorem sqrt_of_isNaN {x : Single} (h : (a.sqrt x).isNaN = true) : a.sqrt x = a.nan x x := by
  unfold Arithmetic.sqrt at h ⊢
  split
  · rfl
  · next hnum =>
    rw [if_neg hnum] at h
    exact isNaN_ofResult h

/-- An operand on the left that is not a number makes a result that is none, -/
theorem isNaN_lift₂_left {x : Single} (hx : x.isNaN = true) (op : Float32 → Float32 → Float32)
    (y : Single) : (a.lift₂ op x y).isNaN = true := by
  unfold Arithmetic.lift₂
  rw [hx, Bool.true_or, if_pos rfl]
  exact a.isNaN_nan x y

/-- and so does one on the right, -/
theorem isNaN_lift₂_right {y : Single} (hy : y.isNaN = true) (op : Float32 → Float32 → Float32)
    (x : Single) : (a.lift₂ op x y).isNaN = true := by
  unfold Arithmetic.lift₂
  rw [hy, Bool.or_true, if_pos rfl]
  exact a.isNaN_nan x y

/-- and one whose root is taken. -/
theorem isNaN_sqrt {x : Single} (hx : x.isNaN = true) : (a.sqrt x).isNaN = true := by
  unfold Arithmetic.sqrt
  rw [if_pos hx]
  exact a.isNaN_nan x x

end IncidentMemory.Single

namespace IncidentMemory

/-- **A processor that makes nothing ahead of all numbers**, unless that goes into the
operation. -/
def Arithmetic.StaysBehind (a : Arithmetic) : Prop :=
  ∀ x y : Single, x.NotAhead → y.NotAhead → (a.nan x y).NotAhead

/-- One that makes negative not-a-numbers, and passes on those that there are. -/
theorem Arithmetic.staysBehind_usual : Arithmetic.usual.StaysBehind := by
  intro x y hx hy
  show (if x.isNaN = true then x else if y.isNaN = true then y else .nan true).NotAhead
  split
  · exact hx
  · split
    · exact hy
    · exact fun _ => rfl

namespace Arithmetic.StaysBehind

open Single

variable {a : Arithmetic} (h : a.StaysBehind) {x y : Single}

include h

theorem lift₂ (hx : x.NotAhead) (hy : y.NotAhead) (op : Float32 → Float32 → Float32) :
    (a.lift₂ op x y).NotAhead := by
  intro hnan
  have heq := lift₂_of_isNaN a hnan
  rw [heq] at hnan ⊢
  exact h x y hx hy hnan

theorem sqrt (hx : x.NotAhead) : (a.sqrt x).NotAhead := by
  intro hnan
  have heq := sqrt_of_isNaN a hnan
  rw [heq] at hnan ⊢
  exact h x x hx hx hnan

end Arithmetic.StaysBehind

namespace Embedding

open Float.Model Single

variable {a : Arithmetic} {v u : Embedding}

/-! ## Scores that are not numbers -/

/-- Components, none of which is ahead of all numbers. -/
def NotAhead (v : Embedding) : Prop :=
  ∀ x ∈ v, x.NotAhead

theorem notAhead_sum (h : a.StaysBehind) {xs : List Single} (hxs : ∀ x ∈ xs, x.NotAhead) :
    (sum a xs).NotAhead := by
  have hfold : ∀ acc : Single, acc.NotAhead → (xs.foldl a.add acc).NotAhead := by
    induction xs with
    | nil => exact fun acc hacc => hacc
    | cons x xs ih =>
      intro acc hacc
      exact ih (fun y hy => hxs y (List.mem_cons_of_mem x hy)) _
        (h.lift₂ hacc (hxs x List.mem_cons_self) _)
  exact hfold _ (.of_isNaN rfl)

theorem NotAhead.dot (h : a.StaysBehind) (hv : v.NotAhead) (hu : u.NotAhead) :
    (dot a v u).NotAhead := by
  refine notAhead_sum h fun x hx => ?_
  obtain ⟨i, hi, rfl⟩ := List.getElem_of_mem hx
  rw [List.getElem_zipWith]
  exact h.lift₂ (hv _ (List.getElem_mem _)) (hu _ (List.getElem_mem _)) _

theorem NotAhead.norm (h : a.StaysBehind) (hv : v.NotAhead) : (norm a v).NotAhead :=
  h.sqrt (hv.dot h hv)

/-- No sum that a not-a-number is in is a number. -/
theorem isNaN_sum {xs : List Single} {x : Single} (hx : x ∈ xs) (hnan : x.isNaN = true) :
    (sum a xs).isNaN = true := by
  have hstays : ∀ (ys : List Single) (acc : Single), acc.isNaN = true →
      (ys.foldl a.add acc).isNaN = true := by
    intro ys
    induction ys with
    | nil => exact fun acc hacc => hacc
    | cons y ys ih => exact fun acc hacc => ih _ (isNaN_lift₂_left a hacc _ y)
  obtain ⟨before, after, rfl⟩ := List.append_of_mem hx
  rw [sum, List.foldl_append, List.foldl_cons]
  exact hstays after _ (isNaN_lift₂_right a hnan _ _)

/-- A vector whose norm is above `epsilon` has only numbers in it. -/
theorem isNaN_eq_false_of_epsilon_lt_norm (hnorm : epsilon < norm a v) :
    ∀ x ∈ v, x.isNaN = false := by
  intro x hx
  rw [← Bool.not_eq_true]
  intro hnan
  have hsquare : a.mul x x ∈ List.zipWith a.mul v v := by
    rw [List.zipWith_self]
    exact List.mem_map_of_mem hx
  have hdot : (dot a v v).isNaN = true := isNaN_sum hsquare (isNaN_lift₂_left a hnan _ x)
  have hroot : (norm a v).isNaN = true := isNaN_sqrt a hdot
  exact absurd (lt_iff.mp hnorm).2.1 (by simp [hroot])

/-- **No score is ahead of all numbers** on such a processor: a vector that has a not-a-number in
it scores zero, and a not-a-number that comes of others is behind them. -/
theorem notAhead_cosine (h : a.StaysBehind) (v u : Embedding) : (cosine a v u).NotAhead := by
  unfold Embedding.cosine
  split
  · exact .of_isNaN rfl
  · simp only
    split
    · next hnorms =>
      have hv : v.NotAhead := fun x hx =>
        .of_isNaN (isNaN_eq_false_of_epsilon_lt_norm hnorms.1 x hx)
      have hu : u.NotAhead := fun x hx =>
        .of_isNaN (isNaN_eq_false_of_epsilon_lt_norm hnorms.2 x hx)
      exact h.lift₂ (hv.dot h hu) (h.lift₂ (hv.norm h) (hu.norm h) _) _
    · exact .of_isNaN rfl

/-! ## The score of a vector with itself -/

/-- Nothing but a positive number has a root above `epsilon`, be it infinite. -/
theorem parts_of_epsilon_lt_sqrt {x : Single} (hroot : epsilon < a.sqrt x) :
    x.parts = .infinity .positive ∨ ∃ m e h, x.parts = .finite .positive m e h := by
  have hnum := (lt_iff.mp hroot).2.1
  have hnan : x.isNaN = false := by
    rw [← Bool.not_eq_true]
    intro hnan
    simp [isNaN_sqrt a hnan] at hnum
  rw [sqrt_eq a hnan] at hroot hnum
  -- the root of what is below zero is not a number
  have hnone : (ofParts (a.nan x x) .notANumber).isNaN = true := a.isNaN_nan x x
  cases hparts : x.parts with
  | notANumber => simp [isNaN_iff.mpr hparts] at hnan
  | infinity s =>
    cases s with
    | positive => exact .inl rfl
    | negative =>
      rw [hparts] at hnum
      exact absurd (hnone.symm.trans hnum) (by decide)
  | zero s =>
    rw [hparts, ofParts_of_isNaN (by cases s <;> decide)] at hroot
    cases s <;> exact absurd hroot (by decide)
  | finite s m e h =>
    cases s with
    | positive => exact .inr ⟨m, e, h, rfl⟩
    | negative =>
      rw [hparts] at hnum
      exact absurd (hnone.symm.trans hnum) (by decide)

/-- The root of infinity is infinity, and that of a finite number is none. -/
theorem sqrt_eq_infinity_iff {x : Single} (hroot : epsilon < a.sqrt x) :
    a.sqrt x = infinity false ↔ x.parts = .infinity .positive := by
  rcases parts_of_epsilon_lt_sqrt hroot with hparts | ⟨m, e, h, hparts⟩
  · have hnan : x.isNaN = false := by
      rw [← Bool.not_eq_true, isNaN_iff, hparts]
      exact UnpackedFloat.noConfusion
    refine iff_of_true ?_ hparts
    rw [sqrt_eq a hnan, hparts]
    rfl
  · obtain ⟨hlog, he, he'⟩ := parts_finite hparts
    obtain ⟨r, hr, -⟩ := isNormal_sqrt a hparts (s := (e - 2 * ((e + m.log2) / 2 - 23)).toNat)
      (by omega)
    refine iff_of_false (fun hinf => ?_) (by rw [hparts]; exact UnpackedFloat.noConfusion)
    rw [hinf] at hr
    cases hr.parts

/-- A vector whose norm is above `epsilon` is compared with itself by division. -/
theorem cosine_self_of_lt (hnorm : epsilon < norm a v) :
    cosine a v v = a.div (dot a v v) (a.mul (norm a v) (norm a v)) := by
  have hne : v.isEmpty = false := by
    cases v with
    | nil =>
      have hnorm' : epsilon < a.sqrt .negZero := hnorm
      rw [show a.sqrt .negZero = .negZero from rfl] at hnorm'
      exact absurd hnorm' (by decide)
    | cons x xs => rfl
  unfold cosine
  rw [if_neg (by simp [hne])]
  simp only [hnorm, and_self, if_true]

/-- **A vector is nearly as similar to itself as can be**, if its norm is above
`epsilon` and finite: rounding costs less than a twentieth. -/
theorem nineteenTwentieths_le_cosine (hnorm : epsilon < norm a v)
    (hfinite : norm a v ≠ infinity false) : nineteenTwentieths ≤ cosine a v v := by
  rw [cosine_self_of_lt hnorm]
  rcases parts_of_epsilon_lt_sqrt hnorm with hparts | ⟨m, e, h, hparts⟩
  · exact absurd ((sqrt_eq_infinity_iff hnorm).mpr hparts) hfinite
  · exact nineteenTwentieths_le_div_sqrt a hparts hnorm

/-- **Not so if its norm is infinite**: the score is then no number at all. -/
theorem isNaN_cosine_self (hnorm : norm a v = infinity false) : (cosine a v v).isNaN = true := by
  have hlarge : epsilon < norm a v := by
    rw [hnorm]
    decide
  have hparts := (sqrt_eq_infinity_iff hlarge).mp hnorm
  have hnan : (dot a v v).isNaN = false := by
    rw [← Bool.not_eq_true, isNaN_iff, hparts]
    exact UnpackedFloat.noConfusion
  have hsquare : a.mul (infinity false) (infinity false) = infinity false := by
    rw [mul_eq a rfl rfl]
    rfl
  rw [cosine_self_of_lt hlarge, hnorm, hsquare, div_eq a hnan rfl, hparts]
  exact a.isNaN_nan _ _

/-- A vector whose norm is not above `epsilon` scores zero with itself. -/
theorem cosine_self_of_not_lt (hnorm : ¬ epsilon < norm a v) : cosine a v v = .zero := by
  unfold cosine
  split
  · rfl
  · simp only [hnorm, and_self, if_false]

end Embedding

end IncidentMemory
