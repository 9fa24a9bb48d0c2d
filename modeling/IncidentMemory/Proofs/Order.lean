import IncidentMemory.Number.Single

/-!
# The two orders of single-precision numbers

The total order sorts search results; the order of values decides whether a
score reaches a threshold. The two disagree on zeros and on what is not a
number, and that is all: among numbers, whatever is ahead in the total order
is ahead in value (`Single.le_of_totalLe`). So the first result of a search
bounds the values of all others, though it was chosen by the other order.
-/

namespace IncidentMemory.Single

/-! ## The total order -/

/-- The total order compares places. -/
theorem totalLe_iff {x y : Single} : x.totalLe y = true ↔ x.totalKey ≤ y.totalKey :=
  decide_eq_true_iff

theorem totalLe_trans (x y z : Single) (hxy : x.totalLe y = true) (hyz : y.totalLe z = true) :
    x.totalLe z = true :=
  totalLe_iff.mpr (Int.le_trans (totalLe_iff.mp hxy) (totalLe_iff.mp hyz))

theorem totalLe_total (x y : Single) : (x.totalLe y || y.totalLe x) = true := by
  rw [Bool.or_eq_true, totalLe_iff, totalLe_iff]
  exact Int.le_total _ _

/-- Two numbers in one place of the total order are the same, bit by bit. -/
theorem eq_of_totalLe {x y : Single} (hxy : x.totalLe y = true) (hyx : y.totalLe x = true) :
    x = y := by
  have hkey : x.totalKey = y.totalKey := Int.le_antisymm (totalLe_iff.mp hxy) (totalLe_iff.mp hyx)
  have hx := x.bits.toNat_lt
  have hy := y.bits.toNat_lt
  have hbits : x.bits.toNat = y.bits.toNat := by
    simp only [totalKey, isNegative, magnitude, decide_eq_true_eq] at hkey
    split at hkey <;> split at hkey <;> omega
  cases x
  cases y
  exact congrArg Single.mk (UInt32.toNat_inj.mp hbits)

/-! ## The order of values -/

theorem le_iff {x y : Single} :
    x ≤ y ↔ x.isNaN = false ∧ y.isNaN = false ∧ x.orderKey ≤ y.orderKey := by
  show x.le y = true ↔ _
  simp [le, and_assoc]

theorem lt_iff {x y : Single} :
    x < y ↔ x.isNaN = false ∧ y.isNaN = false ∧ x.orderKey < y.orderKey := by
  show x.lt y = true ↔ _
  simp [lt, and_assoc]

/-- Between numbers one of the two comparisons holds. -/
theorem lt_of_not_le {x y : Single} (hx : x.isNaN = false) (hy : y.isNaN = false)
    (h : ¬ x ≤ y) : y < x := by
  rw [le_iff] at h
  rw [lt_iff]
  refine ⟨hy, hx, Int.not_le.mp fun hle => h ⟨hx, hy, hle⟩⟩

theorem le_trans {x y z : Single} (hxy : x ≤ y) (hyz : y ≤ z) : x ≤ z := by
  obtain ⟨hx, -, hle⟩ := le_iff.mp hxy
  obtain ⟨-, hz, hle'⟩ := le_iff.mp hyz
  exact le_iff.mpr ⟨hx, hz, Int.le_trans hle hle'⟩

theorem lt_of_le_of_lt {x y z : Single} (hxy : x ≤ y) (hyz : y < z) : x < z := by
  obtain ⟨hx, -, hle⟩ := le_iff.mp hxy
  obtain ⟨-, hz, hlt⟩ := lt_iff.mp hyz
  exact lt_iff.mpr ⟨hx, hz, Int.lt_of_le_of_lt hle hlt⟩

/-- A place in the total order tells the place by value: below zero it is off
by one, so as to put the negative zero before the other. -/
theorem orderKey_le_of_totalKey_le {x y : Single} (h : x.totalKey ≤ y.totalKey) :
    x.orderKey ≤ y.orderKey := by
  unfold totalKey at h
  unfold orderKey
  cases hx : x.isNegative <;> cases hy : y.isNegative <;>
    simp only [hx, hy, if_true, Bool.false_eq_true, if_false] at h ⊢
  · exact h
  · -- nothing above zero has a place before something below
    omega
  · omega
  · omega

/-- **Among numbers the total order refines the order of values.** -/
theorem le_of_totalLe {x y : Single} (hx : x.isNaN = false) (hy : y.isNaN = false)
    (h : x.totalLe y = true) : x ≤ y :=
  le_iff.mpr ⟨hx, hy, orderKey_le_of_totalKey_le (totalLe_iff.mp h)⟩

end IncidentMemory.Single
