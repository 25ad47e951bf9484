import GraphQuery.Proofs.Rounding
import GraphQuery.Value.Scalar
import Mathlib.Data.Int.Order.Basic
import Mathlib.Order.Compare

/-! Numbers are compared by their exact values, counted in least positive doubles. Where an
integer is rounded first, it is so far from the real that rounding cannot pass it. -/

namespace GraphQuery

theorem compare_mul_right (m n : Int) {k : Nat} (hk : 0 < k) :
    Ord.compare (m * k) (n * k) = Ord.compare m n := by
  have hk' : (0 : Int) < k := by omega
  rcases Int.lt_trichotomy m n with h | h | h
  · rw [Int.compare_eq_lt.mpr h, Int.compare_eq_lt]
    exact Int.mul_lt_mul_of_pos_right h hk'
  · rw [h, Int.compare_eq_eq.mpr rfl, Int.compare_eq_eq.mpr rfl]
  · rw [Int.compare_eq_gt.mpr h, Int.compare_eq_gt]
    exact Int.mul_lt_mul_of_pos_right h hk'

namespace Binary

variable {φ : Format}

/-- Position in the numeric order: the value, and every NaN just above infinity. -/
def key (x : Binary φ) : Int :=
  if x.isNaN then ((infinite false : Binary φ).units : Int) + 1 else x.value

theorem key_of_number {x : Binary φ} (hx : x.isNaN = false) : x.key = x.value := by
  simp [key, hx]

theorem key_of_isNaN {x : Binary φ} (hx : x.isNaN = true) :
    x.key = ((infinite false : Binary φ).units : Int) + 1 := by
  rw [key, if_pos hx]

theorem units_le_infinite {x : Binary φ} (hx : x.isNaN = false) :
    x.units ≤ (infinite false : Binary φ).units := by
  have hw : x.word ≤ φ.infinity := by simpa [isNaN] using hx
  exact (units_strictMono (φ := φ) x.negative).monotone hw

theorem word_lt_of_finite {x : Binary φ} (hn : x.isNaN = false) (hi : x.isInfinite = false) :
    x.word < φ.infinity := by
  simp only [isNaN, isInfinite, decide_eq_false_iff_not] at hn hi
  omega

theorem finite_of_word_lt {x : Binary φ} (hx : x.word < φ.infinity) :
    x.isNaN = false ∧ x.isInfinite = false := by
  simp only [isNaN, isInfinite, decide_eq_false_iff_not]
  omega

theorem units_lt_infinite {x : Binary φ} (hx : x.word < φ.infinity) :
    x.units < (infinite false : Binary φ).units :=
  units_strictMono (φ := φ) x.negative hx

theorem natAbs_value (x : Binary φ) : x.value.natAbs = x.units := by
  unfold value
  split <;> omega

theorem totalKey_injective : Function.Injective (totalKey (φ := φ)) := by
  rintro ⟨s, w⟩ ⟨t, v⟩ h
  simp only [totalKey] at h
  cases s <;> cases t <;> simp_all <;> omega

theorem value_bounds (x : Binary φ) : -(x.units : Int) ≤ x.value ∧ x.value ≤ (x.units : Int) := by
  unfold value
  split <;> omega

/-- Past its last digit a number is whole, with no more digits before its zeros than the
format keeps. -/
theorem whole_of_large {x : Binary φ} (hx : 2 * φ.step * φ.one ≤ x.units) :
    ∃ m e, m < 2 * φ.step ∧ x.units = m * 2 ^ e * φ.one := by
  obtain ⟨q, hu, hq, -⟩ := x.units_eq_mul
  have hone : φ.one = 2 ^ φ.scale := by simpa using (φ.two_pow_scale 0).symm
  have hle : φ.scale ≤ x.ulpExponent := by
    by_contra hlt
    have hpow : 2 ^ x.ulpExponent ≤ φ.one := by
      rw [hone]
      exact Nat.pow_le_pow_right (by omega) (by omega)
    have hbelow : x.units < 2 * φ.step * φ.one := by
      rw [hu]
      exact (Nat.mul_le_mul_left q hpow).trans_lt (Nat.mul_lt_mul_of_pos_right hq φ.one_pos)
    omega
  refine ⟨q, x.ulpExponent - φ.scale, hq, ?_⟩
  rw [Nat.mul_assoc, ← φ.two_pow_scale, Nat.sub_add_cancel hle, hu]

theorem toInt_toInt64 {x : Binary φ} (hn : x.isNaN = false)
    (hlo : -(2 ^ 63 * φ.one : Int) ≤ x.value) (hhi : x.value < (2 ^ 63 * φ.one : Int)) :
    x.toInt64.toInt =
      if x.negative then -((x.units / φ.one : Nat) : Int) else (x.units / φ.one : Nat) := by
  have hmax : Int64.maxValue.toInt = 2 ^ 63 - 1 := by decide
  have hmin : Int64.minValue.toInt = -2 ^ 63 := by decide
  have hone : Nat.pow 2 φ.scale = φ.one := by rw [Format.one]
  have hpos := φ.one_pos
  cases hs : x.negative
  · have hw : x.units / φ.one < 2 ^ 63 := by
      rw [Nat.div_lt_iff_lt_mul hpos]
      simp only [value, hs, Bool.false_eq_true, if_false] at hhi
      exact_mod_cast hhi
    have hcut : ((x.units / φ.one : Nat) : Int) ≤ Int64.maxValue.toInt := by
      rw [hmax]
      omega
    simp only [toInt64, hn, hs, hone, Bool.false_eq_true, if_false,
      Int.min_eq_left hcut]
    generalize x.units / φ.one = w at hw
    rw [Int64.toInt_ofInt_of_le] <;> omega
  · have hw : x.units / φ.one ≤ 2 ^ 63 := by
      apply Nat.div_le_of_le_mul
      simp only [value, hs, if_true, neg_le_neg_iff] at hlo
      rw [Nat.mul_comm]
      exact_mod_cast hlo
    have hcut : Int64.minValue.toInt ≤ -((x.units / φ.one : Nat) : Int) := by
      rw [hmin]
      omega
    simp only [toInt64, hn, hs, hone, Bool.false_eq_true, if_false, if_true,
      Int.max_eq_left hcut]
    generalize x.units / φ.one = w at hw
    rw [Int64.toInt_ofInt_of_le] <;> omega

end Binary

namespace Number

/-- Position in the numeric order, counted in least positive doubles. -/
def key : Number → Int
  | int n => n.toInt * Format.double.one
  | real x => x.key

theorem compareReals_of_numbers {x y : Double} (hx : x.isNaN = false) (hy : y.isNaN = false) :
    compareReals x y = Ord.compare x.value y.value := by
  simp only [compareReals, hx, hy]

theorem key_lt_of_number {x : Double} (hn : x.isNaN = false) :
    x.key < ((Binary.infinite false : Double).units : Int) + 1 := by
  have hvalue := (Binary.value_bounds x).2
  have hunits := Binary.units_le_infinite hn
  rw [Binary.key_of_number hn]
  omega

theorem compareReals_eq (x y : Double) : compareReals x y = Ord.compare x.key y.key := by
  have hbound {z : Double} (hz : z.isNaN = false) :
      z.value < ((Binary.infinite false : Double).units : Int) + 1 := by
    rw [← Binary.key_of_number hz]
    exact key_lt_of_number hz
  cases hx : x.isNaN <;> cases hy : y.isNaN <;>
    simp only [compareReals, Binary.key, hx, hy, if_true, if_false, Bool.false_eq_true]
  · exact (Int.compare_eq_lt.mpr (hbound hx)).symm
  · exact (Int.compare_eq_gt.mpr (hbound hy)).symm
  · exact (Int.compare_eq_eq.mpr rfl).symm

theorem hasRoom_of_natAbs_le {n : Int} (hn : n.natAbs ≤ 2 ^ 63) :
    Binary.HasRoom Format.double (n.natAbs * Format.double.one) := by
  have hlt : n.natAbs * Format.double.one < 2 ^ (64 + Format.double.scale) := by
    rw [Format.two_pow_scale]
    exact Nat.mul_lt_mul_of_pos_right (by omega) Format.double.one_pos
  exact Binary.HasRoom.of_lt hlt (by decide) (by decide)

theorem natAbs_toInt_le (n : Int64) : n.toInt.natAbs ≤ 2 ^ 63 := by
  have hlo := n.le_toInt
  have hhi := n.toInt_lt
  omega

theorem isNaN_ofInt {n : Int} (hn : n.natAbs ≤ 2 ^ 63) : (Binary.ofInt n : Double).isNaN = false := by
  have := Binary.word_ofInt_lt (hasRoom_of_natAbs_le hn)
  simp only [Binary.isNaN, decide_eq_false_iff_not]
  omega

theorem value_rounded {n : Int64} {m e : Nat} (hn : n.toInt.natAbs = m * 2 ^ e)
    (hm : m < 2 ^ 53) : (rounded n).value = n.toInt * Format.double.one :=
  Binary.value_ofInt_exact hn hm (hasRoom_of_natAbs_le (natAbs_toInt_le n))

theorem value_bounds_exact : lowerBound.value = -(2 ^ 63 * Format.double.one : Int) ∧
    upperBound.value = (2 ^ 63 * Format.double.one : Int) := by
  constructor
  · have := Binary.value_ofInt_exact (φ := Format.double) (n := -9223372036854775808) (m := 1)
      (e := 63) (by decide) (by decide) (hasRoom_of_natAbs_le (by decide))
    simpa [lowerBound] using this
  · have := Binary.value_ofInt_exact (φ := Format.double) (n := 9223372036854775808) (m := 1)
      (e := 63) (by decide) (by decide) (hasRoom_of_natAbs_le (by decide))
    simpa [upperBound] using this

theorem isNaN_bounds : lowerBound.isNaN = false ∧ upperBound.isNaN = false :=
  ⟨isNaN_ofInt (by decide), isNaN_ofInt (by decide)⟩

/-- A real in range that is at least as large as the first integers that are not all doubles
is whole, and its integer part is rounded to it. -/
theorem rounded_toInt64_of_large {x : Double} (hn : x.isNaN = false)
    (hlo : lowerBound.value ≤ x.value) (hhi : x.value < upperBound.value)
    (hx : 2 ^ 53 * Format.double.one ≤ x.units) :
    x.value = x.toInt64.toInt * Format.double.one ∧ (rounded x.toInt64).value = x.value := by
  obtain ⟨hlower, hupper⟩ := value_bounds_exact
  obtain ⟨m, e, hm, hu⟩ := Binary.whole_of_large (φ := Format.double) hx
  have hint := Binary.toInt_toInt64 hn (by omega) (by omega)
  have hdiv : x.units / Format.double.one = m * 2 ^ e := by
    rw [hu, Nat.mul_div_cancel _ Format.double.one_pos]
  rw [hdiv] at hint
  have hvalue : x.value = x.toInt64.toInt * Format.double.one := by
    rw [hint, Binary.value, hu]
    split <;> push_cast <;> ring
  have habs : x.toInt64.toInt.natAbs = m * 2 ^ e := by
    rw [hint]
    split <;> omega
  exact ⟨hvalue, by rw [hvalue]; exact value_rounded habs hm⟩

theorem integral?_eq_some {x : Double} {n : Int64} (h : integral? x = some n) :
    x.value = n.toInt * Format.double.one := by
  simp only [integral?, Bool.and_eq_true] at h
  split at h
  · rename_i hrange
    simp only [Binary.lessEq, Binary.less, Bool.and_eq_true, decide_eq_true_eq,
      Bool.not_eq_true'] at hrange
    split at h
    · rename_i heq
      obtain rfl : x.toInt64 = n := by simpa using h
      simp only [Binary.equals, Bool.and_eq_true, decide_eq_true_eq] at heq
      by_cases hlarge : 2 ^ 53 * Format.double.one ≤ x.units
      · exact (rounded_toInt64_of_large hrange.1.1.2 hrange.1.2 hrange.2.2 hlarge).1
      · have hint := Binary.toInt_toInt64 hrange.1.1.2
          (by have := value_bounds_exact.1; omega) (by have := value_bounds_exact.2; omega)
        have hdiv : x.units / Format.double.one < 2 ^ 53 :=
          (Nat.div_lt_iff_lt_mul Format.double.one_pos).mpr (by omega)
        have habs : x.toInt64.toInt.natAbs = x.units / Format.double.one * 2 ^ 0 := by
          rw [hint]
          split <;> omega
        rw [← heq.2]
        exact value_rounded habs hdiv
    · simp at h
  · simp at h

/-- A real in range that is no integer lies among the integers that are all doubles. -/
theorem integral?_eq_none {x : Double} (h : integral? x = none) (hn : x.isNaN = false)
    (hlo : lowerBound.value ≤ x.value) (hhi : x.value < upperBound.value) :
    x.units < 2 ^ 53 * Format.double.one := by
  by_contra hlarge
  have hwhole := rounded_toInt64_of_large hn hlo hhi (by omega)
  have hr : (rounded x.toInt64).isNaN = false := isNaN_ofInt (natAbs_toInt_le _)
  simp [integral?, Binary.lessEq, Binary.less, Binary.equals, isNaN_bounds, hn, hlo, hhi, hr,
    hwhole.2] at h

/-- An integer compares with a smaller real as its rounded value does. -/
theorem compare_rounded {n : Int64} {x : Double} (hx : x.units < 2 ^ 53 * Format.double.one) :
    Ord.compare (rounded n).value x.value =
      Ord.compare (n.toInt * Format.double.one) x.value := by
  have hb := Binary.value_bounds x
  rcases Nat.lt_or_ge n.toInt.natAbs (2 ^ 53) with hsmall | hlarge
  · rw [value_rounded (m := n.toInt.natAbs) (e := 0) (by simp) hsmall]
  · have hround : 2 ^ 53 * Format.double.one ≤ (rounded n).units :=
      Binary.two_pow_le_units_ofInt hlarge (hasRoom_of_natAbs_le (natAbs_toInt_le n))
    have hvalue : (rounded n).value =
        if n.toInt < 0 then -((rounded n).units : Int) else (rounded n).units :=
      Binary.value_ofInt _
    rcases Int.lt_or_le n.toInt 0 with hneg | hpos
    · have hexact := Int.mul_le_mul_of_nonneg_right (by omega : n.toInt ≤ -2 ^ 53)
        (Int.natCast_nonneg Format.double.one)
      rw [if_pos hneg] at hvalue
      rw [Int.compare_eq_lt.mpr (by omega), Int.compare_eq_lt.mpr (by omega)]
    · have hexact := Int.mul_le_mul_of_nonneg_right (by omega : 2 ^ 53 ≤ n.toInt)
        (Int.natCast_nonneg Format.double.one)
      rw [if_neg (by omega)] at hvalue
      rw [Int.compare_eq_gt.mpr (by omega), Int.compare_eq_gt.mpr (by omega)]

theorem compareIntReal_eq (n : Int64) (x : Double) :
    compareIntReal n x = Ord.compare (n.toInt * Format.double.one) x.key := by
  obtain ⟨hlo, hhi⟩ := value_bounds_exact
  have hmin := Int.mul_le_mul_of_nonneg_right n.le_toInt (Int.natCast_nonneg Format.double.one)
  have hmax := Int.mul_lt_mul_of_pos_right n.toInt_lt
    (Int.natCast_pos.mpr Format.double.one_pos)
  rw [← hhi] at hmax
  rw [Int.neg_mul, ← hlo] at hmin
  unfold compareIntReal
  cases hn : x.isNaN
  · rw [Binary.key_of_number hn]
    simp only [Binary.lessEq, Binary.less, isNaN_bounds, hn, Bool.not_false, Bool.true_and,
      Bool.false_or, decide_eq_true_eq]
    by_cases hge : upperBound.value ≤ x.value
    · rw [if_pos hge, Int.compare_eq_lt.mpr (by omega)]
    · by_cases hlt : x.value < lowerBound.value
      · rw [if_neg hge, if_pos hlt, Int.compare_eq_gt.mpr (by omega)]
      · rw [if_neg hge, if_neg hlt]
        cases hi : integral? x with
        | some m =>
          rw [integral?_eq_some hi]
          exact (compare_mul_right _ _ Format.double.one_pos).symm
        | none =>
          have hr : (rounded n).isNaN = false := isNaN_ofInt (natAbs_toInt_le n)
          have hsmall := integral?_eq_none hi hn (by omega) (by omega)
          exact (compareReals_of_numbers hr hn).trans (compare_rounded hsmall)
  · have htop := Binary.units_le_infinite isNaN_bounds.2
    have := (Binary.value_bounds upperBound).2
    rw [Binary.key, hn, if_pos rfl, Int.compare_eq_lt.mpr (by omega)]
    rfl

theorem compare_eq_key (a b : Number) : a.compare b = Ord.compare a.key b.key := by
  cases a with
  | int m =>
    cases b with
    | int n => exact (compare_mul_right _ _ Format.double.one_pos).symm
    | real y => exact compareIntReal_eq m y
  | real x =>
    cases b with
    | int n =>
      change (compareIntReal n x).swap = _
      rw [compareIntReal_eq]
      exact Int.compare_swap _ _
    | real y => exact compareReals_eq x y

section OfValue

variable {x : Double} {m : Int64} (hv : x.value = m.toInt * Format.double.one)

include hv

theorem bounds_of_value : lowerBound.value ≤ x.value ∧ x.value < upperBound.value := by
  have hpos : (0 : Int) < Format.double.one := Int.natCast_pos.mpr Format.double.one_pos
  rw [value_bounds_exact.1, value_bounds_exact.2, hv, ← Int.neg_mul]
  exact ⟨Int.mul_le_mul_of_nonneg_right m.le_toInt hpos.le, Int.mul_lt_mul_of_pos_right m.toInt_lt hpos⟩

theorem units_of_value : x.units = m.toInt.natAbs * Format.double.one := by
  rw [← x.natAbs_value, hv, Int.natAbs_mul, Int.natAbs_natCast]

variable (hn : x.isNaN = false)

include hn

theorem toInt64_of_value : x.toInt64 = m := by
  obtain ⟨hlower, hupper⟩ := bounds_of_value hv
  have hsign : (if x.negative then -(m.toInt.natAbs : Int) else m.toInt.natAbs) = m.toInt := by
    refine Int.eq_of_mul_eq_mul_right (Int.natCast_pos.mpr Format.double.one_pos).ne' (Eq.trans ?_ hv)
    rw [Binary.value, units_of_value hv]
    split <;> push_cast <;> ring
  rw [← Int64.toInt_inj, Binary.toInt_toInt64 hn (value_bounds_exact.1 ▸ hlower) (value_bounds_exact.2 ▸ hupper),
    units_of_value hv, Nat.mul_div_cancel _ Format.double.one_pos]
  exact hsign

theorem value_rounded_of_value : (rounded m).value = x.value := by
  obtain ⟨hlower, hupper⟩ := bounds_of_value hv
  by_cases hlarge : 2 ^ 53 * Format.double.one ≤ x.units
  · rw [← (rounded_toInt64_of_large hn hlower hupper hlarge).2, toInt64_of_value hv hn]
  · have hsmall : m.toInt.natAbs < 2 ^ 53 := by
      rw [units_of_value hv] at hlarge
      exact lt_of_mul_lt_mul_right (by omega) (Nat.zero_le Format.double.one)
    rw [hv]
    exact value_rounded (m := m.toInt.natAbs) (e := 0) (by simp) hsmall

/-- The real that stands for an integer of 64 bits is found to be that integer. -/
theorem integral?_of_value : integral? x = some m := by
  obtain ⟨hlower, hupper⟩ := bounds_of_value hv
  have hnumber : (rounded m).isNaN = false := isNaN_ofInt (natAbs_toInt_le m)
  simp [integral?, Binary.lessEq, Binary.less, Binary.equals, isNaN_bounds, hn, hlower, hupper,
    toInt64_of_value hv hn, value_rounded_of_value hv hn, hnumber]

end OfValue

end Number

end GraphQuery
