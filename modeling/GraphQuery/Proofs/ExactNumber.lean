import GraphQuery.Proofs.NumberOrder
import Mathlib.Algebra.Order.Field.Rat
import Mathlib.Data.Int.ConditionallyCompleteOrder
import Mathlib.Order.Monotone.Basic
import Mathlib.Order.WithBot
import Mathlib.Tactic.FieldSimp
import Mathlib.Tactic.NormNum

/-! The numbers that reals and integers of every width stand for: rationals between two
infinities, and one NaN above all. Comparison orders numbers by what they stand for. -/

namespace GraphQuery

abbrev ExactNumber := WithTop (WithTop (WithBot ℚ))

namespace ExactNumber

def nan : ExactNumber := ⊤

def infinity (negative : Bool) : ExactNumber :=
  if negative then ((⊥ : WithBot ℚ) : WithTop (WithBot ℚ)) else ((⊤ : WithTop (WithBot ℚ)))

def ofRat (q : ℚ) : ExactNumber := ((q : WithBot ℚ) : WithTop (WithBot ℚ))

end ExactNumber

def Binary.exact {φ : Format} (x : Binary φ) : ExactNumber :=
  if x.isNaN then .nan
  else if x.isInfinite then .infinity x.negative
  else .ofRat (x.value / 2 ^ φ.scale)

def Scalar.exactNumber? : Scalar → Option ExactNumber
  | float x => some x.exact
  | double x => some x.exact
  | s => s.asInt.map fun n => .ofRat n.toInt

def Number.exact : Number → ExactNumber
  | int n => .ofRat n.toInt
  | real x => x.exact

def infinityKey : Int := (Binary.infinite false : Double).units

def exactAt (k : Int) : ExactNumber :=
  if infinityKey < k then .nan
  else if k = infinityKey then .infinity false
  else if k = -infinityKey then .infinity true
  else .ofRat (k / Format.double.one)

theorem exactAt_strictMonoOn : StrictMonoOn exactAt (Set.Icc (-infinityKey) (infinityKey + 1)) := by
  intro k hk l hl hlt
  have hone : (0 : ℚ) < Format.double.one := by exact_mod_cast Format.double.one_pos
  obtain ⟨hk, -⟩ := hk
  obtain ⟨-, hl⟩ := hl
  have hk1 : ¬ infinityKey < k := by omega
  have hl2 : l ≠ -infinityKey := by omega
  unfold exactAt
  rw [if_neg hk1]
  by_cases hl1 : infinityKey < l
  · rw [if_pos hl1]
    split_ifs <;> exact WithTop.coe_lt_top _
  · have hk3 : k ≠ infinityKey := by omega
    rw [if_neg hl1, if_neg hk3, if_neg hl2]
    split_ifs
    · exact WithTop.coe_lt_coe.mpr (WithTop.coe_lt_top _)
    · exact WithTop.coe_lt_coe.mpr (WithTop.coe_lt_coe.mpr (WithBot.bot_lt_coe _))
    · exact WithTop.coe_lt_coe.mpr (WithTop.coe_lt_top _)
    · refine WithTop.coe_lt_coe.mpr (WithTop.coe_lt_coe.mpr (WithBot.coe_lt_coe.mpr ?_))
      exact div_lt_div_of_pos_right (by exact_mod_cast hlt) hone

theorem Format.cast_one (φ : Format) : (φ.one : ℚ) = 2 ^ φ.scale := by
  have := φ.two_pow_scale 0
  simp only [Nat.zero_add, Nat.pow_zero, Nat.one_mul] at this
  rw [← this]
  exact Nat.cast_pow 2 φ.scale

namespace Binary

variable {φ ψ : Format}

theorem exact_of_isNaN {x : Binary φ} (hx : x.isNaN = true) : x.exact = .nan := by
  simp [exact, hx]

theorem isNaN_nan (s : Bool) : (nan s : Binary φ).isNaN = true :=
  decide_eq_true (Nat.lt_add_of_pos_right (Nat.two_pow_pos _))

theorem exact_infinite (s : Bool) : (infinite s : Binary φ).exact = .infinity s := by
  simp [exact, isNaN, isInfinite, infinite]

theorem eq_infinite {x : Binary φ} (hx : x.isInfinite = true) : x = infinite x.negative := by
  obtain ⟨s, w⟩ := x
  simpa [isInfinite, infinite] using hx

theorem exact_of_finite {x : Binary φ} (hx : x.word < φ.infinity) :
    x.exact = .ofRat (x.value / φ.one) := by
  simp [exact, finite_of_word_lt hx, Format.cast_one]

/-- Conversion to a format with more digits and a wider range is exact. -/
theorem exact_convert_of_finite {x : Binary ψ} {d : Nat}
    (hd : φ.scale = ψ.scale + d) (hstep : ψ.step ≤ φ.step) (hx : x.word < ψ.infinity)
    (hroom : HasRoom φ (x.units * 2 ^ d)) : (x.convert : Binary φ).exact = x.exact := by
  obtain ⟨hn, hi⟩ := finite_of_word_lt hx
  have hconvert : (x.convert : Binary φ) =
      roundUnits x.negative (x.units * 2 ^ d * Nat.pow 2 ψ.scale) (Nat.pow 2 ψ.scale) := by
    have he : x.units * Nat.pow 2 φ.scale = x.units * 2 ^ d * Nat.pow 2 ψ.scale := by
      rw [hd, Nat.pow_eq, Nat.pow_eq, Nat.pow_add]
      ring
    simp only [convert, hn, hi, Bool.false_eq_true, if_false, ofRatio, he]
  obtain ⟨q, hq, hlt, -⟩ := x.units_eq_mul
  have hpos : 0 < Nat.pow 2 ψ.scale := Nat.two_pow_pos _
  have hfinite := (roundUnits_mul (s := x.negative) hpos hroom).1
  have hunits := units_roundUnits_exact (φ := φ) (s := x.negative) (m := q)
    (e := x.ulpExponent + d) hpos (by rw [hq, Nat.pow_add, Nat.mul_assoc]) (by omega) hroom
  rw [← hconvert] at hfinite hunits
  have hs : (x.convert : Binary φ).negative = x.negative := by rw [hconvert]; rfl
  rw [exact_of_finite hfinite, exact_of_finite hx, Format.cast_one, Format.cast_one, hd, pow_add]
  congr 1
  have hv : ((x.convert : Binary φ).value : ℚ) = x.value * 2 ^ d := by
    simp only [value, hs, hunits]
    split <;> push_cast <;> ring
  rw [hv]
  field_simp

theorem units_single_lt {x : Single} (hx : x.word < Format.single.infinity) :
    x.units < 2 ^ (24 + 253) := by
  obtain ⟨q, hq, hlt, -⟩ := x.units_eq_mul
  have hulp : x.ulpExponent ≤ 253 := by
    have : x.word / Format.single.step < 255 :=
      (Nat.div_lt_iff_lt_mul (step_pos _)).mpr hx
    unfold ulpExponent
    omega
  rw [hq, Nat.pow_add]
  exact Nat.mul_lt_mul_of_lt_of_le hlt (Nat.pow_le_pow_right (by omega) hulp) (Nat.two_pow_pos _)

theorem exact_convert (x : Single) : (x.convert : Double).exact = x.exact := by
  cases hn : x.isNaN
  · cases hi : x.isInfinite
    · have hw := word_lt_of_finite hn hi
      exact exact_convert_of_finite (d := 925) (by decide) (by decide) hw
        (HasRoom.of_lt (mul_two_pow_lt 925 (units_single_lt hw)) (by decide) (by decide))
    · have hc : (x.convert : Double) = infinite x.negative := by simp [convert, hn, hi]
      rw [hc, exact_infinite, eq_infinite hi, exact_infinite]
      rfl
  · have hc : (x.convert : Double) = nan x.negative := by simp [convert, hn]
    rw [hc, exact_of_isNaN (isNaN_nan _), exact_of_isNaN hn]

theorem infinityKey_pos : 0 < infinityKey := by
  have := units_lt_infinite (x := (zero false : Double)) (by decide)
  unfold infinityKey
  omega

theorem exactAt_of_finite {k : Int} (hlo : -infinityKey < k) (hhi : k < infinityKey) :
    exactAt k = .ofRat (k / Format.double.one) ∧ k ∈ Set.Icc (-infinityKey) (infinityKey + 1) := by
  rw [exactAt, if_neg (by omega), if_neg (by omega), if_neg (by omega)]
  exact ⟨rfl, by omega, by omega⟩

theorem exact_eq_exactAt (x : Double) :
    x.exact = exactAt x.key ∧ x.key ∈ Set.Icc (-infinityKey) (infinityKey + 1) := by
  have hpos := infinityKey_pos
  cases hn : x.isNaN
  · rw [key_of_number hn]
    cases hi : x.isInfinite
    · have hw := word_lt_of_finite hn hi
      have hu := units_lt_infinite hw
      have hb := value_bounds x
      rw [exact_of_finite hw]
      obtain ⟨he, hmem⟩ := exactAt_of_finite (k := x.value) (by unfold infinityKey; omega)
        (by unfold infinityKey; omega)
      exact ⟨he.symm, hmem⟩
    · have hv : x.value = if x.negative then -infinityKey else infinityKey := by
        rw [value, units_congr (congrArg word (eq_infinite hi))]
        rfl
      rw [hv, eq_infinite hi, exact_infinite]
      cases hs : x.negative
      · exact ⟨by simp [exactAt, infinite], by simp; omega⟩
      · have hne : -infinityKey ≠ infinityKey := by omega
        have hle : ¬ infinityKey < -infinityKey := by omega
        exact ⟨by simp [exactAt, infinite, hne, hle], by simp; omega⟩
  · have hk : x.key = infinityKey + 1 := key_of_isNaN hn
    rw [hk, exact_of_isNaN hn]
    exact ⟨by simp [exactAt], by simp; omega⟩

end Binary

namespace Number

theorem exact_eq_exactAt (a : Number) :
    a.exact = exactAt a.key ∧ a.key ∈ Set.Icc (-infinityKey) (infinityKey + 1) := by
  cases a with
  | real x => exact x.exact_eq_exactAt
  | int n =>
    have hone := Format.double.one_pos
    obtain ⟨hlo, hhi⟩ := value_bounds_exact
    have hfinite {m : Int} (hm : m.natAbs ≤ 2 ^ 63) :
        (Binary.ofInt m : Double).units < (Binary.infinite false : Double).units :=
      Binary.units_lt_infinite (Binary.word_ofInt_lt (hasRoom_of_natAbs_le hm))
    have hlower : lowerBound.units < (Binary.infinite false : Double).units := hfinite (by decide)
    have hupper : upperBound.units < (Binary.infinite false : Double).units := hfinite (by decide)
    have hl := (Binary.value_bounds lowerBound).1
    have hu := (Binary.value_bounds upperBound).2
    have hmin := Int.mul_le_mul_of_nonneg_right n.le_toInt (Int.natCast_nonneg Format.double.one)
    have hmax := Int.mul_lt_mul_of_pos_right n.toInt_lt (Int.natCast_pos.mpr hone)
    rw [Int.neg_mul, ← hlo] at hmin
    rw [← hhi] at hmax
    change ExactNumber.ofRat n.toInt = exactAt (n.toInt * Format.double.one) ∧
      n.toInt * Format.double.one ∈ Set.Icc (-infinityKey) (infinityKey + 1)
    have hdiv : ((n.toInt * Format.double.one : Int) : ℚ) / Format.double.one = n.toInt := by
      have : (Format.double.one : ℚ) ≠ 0 := by exact_mod_cast hone.ne'
      push_cast
      field_simp
    obtain ⟨he, hmem⟩ := Binary.exactAt_of_finite (k := n.toInt * Format.double.one)
      (by unfold infinityKey; omega) (by unfold infinityKey; omega)
    rw [hdiv] at he
    exact ⟨he.symm, hmem⟩

theorem compare_eq_cmp_exact (a b : Number) : a.compare b = cmp a.exact b.exact := by
  obtain ⟨ha, hka⟩ := a.exact_eq_exactAt
  obtain ⟨hb, hkb⟩ := b.exact_eq_exactAt
  rw [compare_eq_key, ha, hb, exactAt_strictMonoOn.cmp_map_eq hka hkb]
  exact (cmp_eq_compare _ _).symm

end Number

end GraphQuery
