import GraphQuery.Binary.Round
import Mathlib.Algebra.Order.Ring.Nat
import Mathlib.Data.Nat.Log
import Mathlib.Tactic.Ring

/-! Numbers that a format holds are rounded to themselves, and no number is rounded below a
power of two that it reaches. -/

namespace GraphQuery

theorem nearestEven_mul_right (num den : Nat) {k : Nat} (hk : 0 < k) :
    nearestEven (num * k) (den * k) = nearestEven num den := by
  have he : 2 * (num % den * k) = 2 * (num % den) * k := by ring
  have hlt : den * k < 2 * (num % den) * k ↔ den < 2 * (num % den) := Nat.mul_lt_mul_right hk
  have heq : 2 * (num % den) * k = den * k ↔ 2 * (num % den) = den :=
    Nat.mul_left_inj (by omega)
  simp only [nearestEven, Nat.mul_div_mul_right _ _ hk, Nat.mul_mod_mul_right, he, hlt,
    Bool.or_eq_true, Bool.and_eq_true, beq_iff_eq, decide_eq_true_eq, heq]

theorem nearestEven_mul_self (q : Nat) {den : Nat} (hd : 0 < den) :
    nearestEven (q * den) den = q := by
  have hz : den ≠ 0 := by omega
  simp [nearestEven, hz, Ne.symm hz]

theorem nearestEven_bounds (num den : Nat) :
    num / den ≤ nearestEven num den ∧ nearestEven num den ≤ num / den + 1 := by
  unfold nearestEven
  dsimp only
  split <;> omega

/-- One, counted in least positive numbers. -/
@[irreducible] def Format.one (φ : Format) : Nat := Nat.pow 2 φ.scale

theorem Format.two_pow_scale (φ : Format) (k : Nat) : 2 ^ (k + φ.scale) = 2 ^ k * φ.one := by
  rw [Format.one, Nat.pow_add]
  rfl

theorem Format.one_eq (φ : Format) : φ.one = 2 ^ φ.scale := by
  rw [Format.one]
  rfl

theorem Format.one_pos (φ : Format) : 0 < φ.one := by
  rw [Format.one]
  exact Nat.two_pow_pos _

theorem mul_two_pow_lt {u k : Nat} (d : Nat) (hu : u < 2 ^ k) : u * 2 ^ d < 2 ^ (k + d) := by
  rw [Nat.pow_add]
  exact Nat.mul_lt_mul_of_pos_right hu (Nat.two_pow_pos d)

namespace Binary

variable {φ : Format}

theorem step_pos (φ : Format) : 0 < φ.step := Nat.two_pow_pos _

theorem units_congr {x y : Binary φ} (h : x.word = y.word) : x.units = y.units := by
  simp only [units, significand, ulpExponent, h]

/-- A word of exponent field and fraction, with the carry that rounding up may leave. -/
theorem units_mk {s : Bool} {shift q : Nat} (hq : q ≤ 2 * φ.step)
    (hn : shift = 0 ∨ φ.step ≤ q) :
    (⟨s, shift * φ.step + q⟩ : Binary φ).units = q * 2 ^ shift := by
  have hs := step_pos φ
  have hdiv (k r : Nat) (hr : r < φ.step) : (k * φ.step + r) / φ.step = k := by
    rw [Nat.mul_comm, Nat.mul_add_div hs, Nat.div_eq_of_lt hr, Nat.add_zero]
  have hmod (k r : Nat) (hr : r < φ.step) : (k * φ.step + r) % φ.step = r := by
    rw [Nat.mul_add_mod_self_right, Nat.mod_eq_of_lt hr]
  have hword (k r : Nat) (hr : r < φ.step) :
      (⟨s, (k + 1) * φ.step + r⟩ : Binary φ).units = (φ.step + r) * 2 ^ k := by
    have hge : ¬ (k + 1) * φ.step + r < φ.step := by
      have : (k + 1) * φ.step = k * φ.step + φ.step := by ring
      omega
    simp only [units, significand, ulpExponent, hge, if_false, hdiv _ _ hr, hmod _ _ hr,
      Nat.add_sub_cancel]
    rfl
  rcases Nat.lt_or_ge q φ.step with hlt | hge
  · have hz : shift = 0 := by omega
    subst hz
    simp [units, significand, ulpExponent, hlt, Nat.div_eq_of_lt hlt]
  · rcases Nat.lt_or_ge q (2 * φ.step) with hlt | hge'
    · have he : shift * φ.step + q = (shift + 1) * φ.step + (q - φ.step) := by
        have : (shift + 1) * φ.step = shift * φ.step + φ.step := by ring
        omega
      rw [he, hword _ _ (by omega), Nat.add_sub_cancel' hge]
    · have he : shift * φ.step + q = (shift + 1 + 1) * φ.step + 0 := by
        have : (shift + 1 + 1) * φ.step = shift * φ.step + 2 * φ.step := by ring
        omega
      have hq2 : q = 2 * φ.step := by omega
      rw [he, hword _ _ hs, hq2]
      ring

/-- Every word splits as rounding makes it. -/
theorem word_split (x : Binary φ) :
    ∃ q, x.word = x.ulpExponent * φ.step + q ∧ q < 2 * φ.step ∧
      (x.ulpExponent = 0 ∨ φ.step ≤ q) := by
  have hs := step_pos φ
  have hm := Nat.div_add_mod x.word φ.step
  have hr := Nat.mod_lt x.word hs
  rw [Nat.mul_comm] at hm
  unfold ulpExponent
  cases hk : x.word / φ.step with
  | zero => exact ⟨x.word, by simp, by rw [hk] at hm; omega, .inl rfl⟩
  | succ k =>
    rw [hk] at hm
    have : (k + 1) * φ.step = k * φ.step + φ.step := by ring
    exact ⟨φ.step + x.word % φ.step, by rw [Nat.add_sub_cancel]; omega, by omega, .inr (by omega)⟩

theorem units_eq_mul (x : Binary φ) :
    ∃ q, x.units = q * 2 ^ x.ulpExponent ∧ q < 2 * φ.step ∧
      (x.ulpExponent = 0 ∨ φ.step ≤ q) := by
  obtain ⟨q, hw, hq, hn⟩ := x.word_split
  refine ⟨q, ?_, hq, hn⟩
  have hx : x = ⟨x.negative, x.ulpExponent * φ.step + q⟩ := by rw [← hw]
  have hu := units_mk (s := x.negative) (by omega : q ≤ 2 * φ.step) hn
  rw [← hx] at hu
  exact hu

theorem units_succ (s : Bool) (w : Nat) :
    (⟨s, w⟩ : Binary φ).units < (⟨s, w + 1⟩ : Binary φ).units := by
  obtain ⟨q, hw, hq, hn⟩ := word_split (⟨s, w⟩ : Binary φ)
  generalize (⟨s, w⟩ : Binary φ).ulpExponent = k at hw hn
  have hp := Nat.two_pow_pos k
  dsimp only at hw
  rw [hw, Nat.add_assoc, units_mk (by omega) hn, units_mk (by omega) (by omega), Nat.add_mul]
  omega

theorem units_strictMono (s : Bool) : StrictMono fun w => (⟨s, w⟩ : Binary φ).units :=
  strictMono_nat_of_lt_succ (units_succ s)

/-- The place of the last digit that rounding keeps of a magnitude. -/
def lastPlace (φ : Format) (u : Nat) : Nat := Nat.log2 u - φ.fractionBits

/-- Whether a magnitude lies so far below infinity that no rounding reaches it. -/
def HasRoom (φ : Format) (u : Nat) : Prop := lastPlace φ u + 3 < Nat.pow 2 φ.exponentBits

theorem two_mul_step (φ : Format) : 2 * φ.step = 2 ^ (φ.fractionBits + 1) := by
  rw [Nat.pow_succ, Nat.mul_comm]
  rfl

theorem div_lastPlace_lt (u : Nat) : u / 2 ^ lastPlace φ u < 2 * φ.step := by
  rw [Nat.div_lt_iff_lt_mul (Nat.two_pow_pos _), two_mul_step, ← Nat.pow_add]
  exact Nat.lt_log2_self.trans_le
    (Nat.pow_le_pow_right (by omega) (by unfold lastPlace; omega))

theorem step_mul_lastPlace_le {u : Nat} (hz : lastPlace φ u ≠ 0) :
    φ.step * 2 ^ lastPlace φ u = 2 ^ Nat.log2 u ∧ φ.step ≤ u / 2 ^ lastPlace φ u := by
  have hpos : u ≠ 0 := by
    rintro rfl
    simp [lastPlace] at hz
  have he : φ.step * 2 ^ lastPlace φ u = 2 ^ Nat.log2 u := by
    change 2 ^ φ.fractionBits * _ = _
    rw [← Nat.pow_add]
    unfold lastPlace at hz ⊢
    congr 1
    omega
  refine ⟨he, (Nat.le_div_iff_mul_le (Nat.two_pow_pos _)).mpr ?_⟩
  rw [he]
  exact Nat.log2_self_le hpos

/-- A ratio well below infinity is rounded at the last place of its whole part. -/
theorem roundUnits_of_hasRoom {s : Bool} {num den : Nat} (hroom : HasRoom φ (num / den)) :
    (roundUnits s num den : Binary φ).word < φ.infinity ∧
      (roundUnits s num den : Binary φ).units =
        nearestEven num (den * 2 ^ lastPlace φ (num / den)) * 2 ^ lastPlace φ (num / den) := by
  have hs := step_pos φ
  have hq := nearestEven_bounds num (den * 2 ^ lastPlace φ (num / den))
  rw [← Nat.div_div_eq_div_mul] at hq
  have hlt := div_lastPlace_lt (φ := φ) (num / den)
  have hword : (roundUnits s num den : Binary φ).word =
      min (lastPlace φ (num / den) * φ.step + nearestEven num (den * 2 ^ lastPlace φ (num / den)))
        φ.infinity := rfl
  have hfits : lastPlace φ (num / den) * φ.step +
      nearestEven num (den * 2 ^ lastPlace φ (num / den)) < φ.infinity := by
    have hle : (lastPlace φ (num / den) + 3) * φ.step ≤ φ.infinity :=
      Nat.mul_le_mul_right _ (Nat.le_sub_one_of_lt hroom)
    have : (lastPlace φ (num / den) + 3) * φ.step = lastPlace φ (num / den) * φ.step + 3 * φ.step := by ring
    omega
  rw [Nat.min_eq_left (by omega)] at hword
  refine ⟨by omega, ?_⟩
  have hn : lastPlace φ (num / den) = 0 ∨
      φ.step ≤ nearestEven num (den * 2 ^ lastPlace φ (num / den)) := by
    by_cases hz : lastPlace φ (num / den) = 0
    · exact .inl hz
    · exact .inr ((step_mul_lastPlace_le hz).2.trans hq.1)
  have hu := units_mk (s := (roundUnits s num den : Binary φ).negative)
    (by omega : nearestEven num (den * 2 ^ lastPlace φ (num / den)) ≤ 2 * φ.step) hn
  rw [← hword] at hu
  exact hu

/-- A magnitude well below infinity is rounded at its last place. -/
theorem roundUnits_mul {s : Bool} {u den : Nat} (hd : 0 < den)
    (hroom : HasRoom φ u) :
    (roundUnits s (u * den) den : Binary φ).word < φ.infinity ∧
      (roundUnits s (u * den) den : Binary φ).units =
        nearestEven u (2 ^ lastPlace φ u) * 2 ^ lastPlace φ u := by
  have hwhole : u * den / den = u := Nat.mul_div_cancel u hd
  have hroom' : HasRoom φ (u * den / den) := by rwa [hwhole]
  have hround := roundUnits_of_hasRoom (s := s) hroom'
  rwa [hwhole, Nat.mul_comm den, nearestEven_mul_right _ _ hd] at hround

/-- A magnitude with no more digits than the format keeps is its own rounding. -/
theorem units_roundUnits_exact {s : Bool} {u den m e : Nat} (hd : 0 < den) (hu : u = m * 2 ^ e)
    (hm : m < 2 * φ.step) (hroom : HasRoom φ u) :
    (roundUnits s (u * den) den : Binary φ).units = u := by
  have hplace : lastPlace φ u = 0 ∨ lastPlace φ u ≤ e := by
    by_cases hz : u = 0
    · exact .inl (by simp [lastPlace, hz])
    · rw [two_mul_step] at hm
      have hlt := mul_two_pow_lt e hm
      rw [← hu] at hlt
      have := (Nat.log2_lt hz).mpr hlt
      unfold lastPlace
      omega
  have hdvd : 2 ^ lastPlace φ u ∣ u := by
    rcases hplace with hz | hle
    · simp [hz]
    · rw [hu]
      exact (Nat.pow_dvd_pow 2 (by rwa [← hu])).mul_left m
  obtain ⟨q, hq⟩ := hdvd
  rw [(roundUnits_mul hd hroom).2]
  have hround := nearestEven_mul_self q (Nat.two_pow_pos (lastPlace φ u))
  rw [Nat.mul_comm q, ← hq] at hround
  rw [hround, Nat.mul_comm, ← hq]

theorem two_pow_le_units_roundUnits {s : Bool} {u den : Nat} (hd : 0 < den) (hpos : u ≠ 0)
    (hroom : HasRoom φ u) :
    2 ^ Nat.log2 u ≤ (roundUnits s (u * den) den : Binary φ).units := by
  have hq := (nearestEven_bounds u (2 ^ lastPlace φ u)).1
  rw [(roundUnits_mul hd hroom).2]
  by_cases hz : lastPlace φ u = 0
  · have hle := Nat.log2_self_le hpos
    simp only [hz, Nat.pow_zero, Nat.div_one, Nat.mul_one] at hq ⊢
    omega
  · obtain ⟨he, hle⟩ := step_mul_lastPlace_le hz
    rw [← he]
    exact Nat.mul_le_mul_right _ (hle.trans hq)

theorem HasRoom.of_lt {u k : Nat} (hu : u < 2 ^ k)
    (hk : k + 3 < Nat.pow 2 φ.exponentBits + φ.fractionBits) (hbits : 2 ≤ φ.exponentBits) :
    HasRoom φ u := by
  have hlog : Nat.log2 u ≤ k := by
    by_cases hz : u = 0
    · simp [hz]
    · exact Nat.le_of_lt ((Nat.log2_lt hz).mpr hu)
  have hpow : 2 ^ 2 ≤ Nat.pow 2 φ.exponentBits := Nat.pow_le_pow_right (by omega) hbits
  unfold HasRoom lastPlace
  omega

theorem ofInt_eq (n : Int) :
    (ofInt n : Binary φ) = roundUnits (n < 0) (n.natAbs * φ.one * 1) 1 := by
  rw [Nat.mul_one, Format.one]
  rfl

theorem value_ofInt (n : Int) : (ofInt n : Binary φ).value =
    if n < 0 then -((ofInt n : Binary φ).units : Int) else (ofInt n : Binary φ).units := by
  have hs : (ofInt n : Binary φ).negative = decide (n < 0) := rfl
  unfold value
  rw [hs]
  simp

theorem word_ofInt_lt {n : Int} (hroom : HasRoom φ (n.natAbs * φ.one)) :
    (ofInt n : Binary φ).word < φ.infinity := by
  rw [ofInt_eq]
  exact (roundUnits_mul Nat.one_pos hroom).1

/-- An integer with no more digits before its zeros than the format keeps is exact. -/
theorem value_ofInt_exact {n : Int} {m e : Nat} (hn : n.natAbs = m * 2 ^ e)
    (hm : m < 2 * φ.step) (hroom : HasRoom φ (n.natAbs * φ.one)) :
    (ofInt n : Binary φ).value = n * φ.one := by
  have hu : n.natAbs * φ.one = m * 2 ^ (e + φ.scale) := by
    rw [hn, Nat.mul_assoc, Format.two_pow_scale]
  have hunits : (ofInt n : Binary φ).units = n.natAbs * φ.one := by
    rw [ofInt_eq]
    exact units_roundUnits_exact Nat.one_pos hu hm hroom
  rw [value_ofInt, hunits]
  split
  · rename_i hneg
    rw [Nat.cast_mul, ← Int.neg_mul]
    congr 1
    omega
  · rw [Nat.cast_mul]
    congr 1
    omega

/-- Rounding keeps an integer on its side of every power of two. -/
theorem two_pow_le_units_ofInt {n : Int} {k : Nat} (hn : 2 ^ k ≤ n.natAbs)
    (hroom : HasRoom φ (n.natAbs * φ.one)) : 2 ^ k * φ.one ≤ (ofInt n : Binary φ).units := by
  have hle : 2 ^ (k + φ.scale) ≤ n.natAbs * φ.one := by
    rw [Format.two_pow_scale]
    exact Nat.mul_le_mul_right _ hn
  have hpos : n.natAbs * φ.one ≠ 0 :=
    Nat.pos_iff_ne_zero.mp ((Nat.two_pow_pos _).trans_le hle)
  have hround := two_pow_le_units_roundUnits (φ := φ) (s := decide (n < 0)) Nat.one_pos hpos hroom
  rw [← ofInt_eq] at hround
  rw [← Format.two_pow_scale]
  exact (Nat.pow_le_pow_right (by omega) ((Nat.le_log2 hpos).mpr hle)).trans hround

end Binary

end GraphQuery
