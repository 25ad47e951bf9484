import GraphQuery.Aggregate.Statistic
import GraphQuery.Proofs.NumberOrder
import Mathlib.Tactic.Linarith

/-! Products of a count with a share of it. Rounding passes no number of the format, and no share below one
is rounded up to the whole count, so the integer part of the product stays below the count. -/

namespace GraphQuery

theorem two_mul_nearestEven_le (num den : Nat) : 2 * (nearestEven num den * den) ≤ 2 * num + den := by
  have hm := Nat.div_add_mod num den
  rw [Nat.mul_comm] at hm
  unfold nearestEven
  dsimp only
  split
  · rename_i h
    have hhalf : den ≤ 2 * (num % den) := by
      simp only [Bool.or_eq_true, Bool.and_eq_true, decide_eq_true_eq, beq_iff_eq] at h
      omega
    have hnext := Nat.add_one_mul (num / den) den
    omega
  · omega

theorem nearestEven_le {num den q : Nat} (hd : 0 < den) (h : num ≤ q * den) : nearestEven num den ≤ q := by
  rcases Nat.lt_or_ge (num / den) q with hlt | hge
  · exact (nearestEven_bounds num den).2.trans hlt
  · have heq : num = q * den := Nat.le_antisymm h ((Nat.le_div_iff_mul_le hd).mp hge)
    rw [heq, nearestEven_mul_self q hd]

namespace Binary

variable {φ : Format}

theorem value_of_nonneg {x : Binary φ} (h : 0 ≤ x.value) : x.value = x.units := by
  have := x.natAbs_value
  omega

theorem negative_of_pos {x : Binary φ} (h : 0 < x.value) : x.negative = false := by
  by_contra hs
  have hvalue : x.value = -(x.units : Int) := by rw [value, if_pos (by simpa using hs)]
  omega

theorem lastPlace_le_ulpExponent {x : Binary φ} {u : Nat} (h : u ≤ x.units) :
    lastPlace φ u ≤ x.ulpExponent := by
  obtain ⟨q, hq, hlt, -⟩ := x.units_eq_mul
  by_cases hz : u = 0
  · simp [lastPlace, hz]
  · rw [two_mul_step] at hlt
    have hbound := mul_two_pow_lt x.ulpExponent hlt
    rw [← hq] at hbound
    have := (Nat.log2_lt hz).mpr (h.trans_lt hbound)
    unfold lastPlace
    omega

/-- Rounding does not pass a number of the format. -/
theorem units_roundUnits_le {x : Binary φ} {s : Bool} {u den : Nat} (hd : 0 < den) (hroom : HasRoom φ u)
    (h : u ≤ x.units) : (roundUnits s (u * den) den : Binary φ).units ≤ x.units := by
  obtain ⟨q, hq, -, -⟩ := x.units_eq_mul
  have hplace := lastPlace_le_ulpExponent h
  have hsplit : x.units = q * 2 ^ (x.ulpExponent - lastPlace φ u) * 2 ^ lastPlace φ u := by
    rw [Nat.mul_assoc, ← Nat.pow_add, Nat.sub_add_cancel hplace]
    exact hq
  rw [(roundUnits_mul hd hroom).2, hsplit]
  rw [hsplit] at h
  exact Nat.mul_le_mul_right _ (nearestEven_le (Nat.two_pow_pos _) h)

/-- A number below one stays below it by the last place that numbers just under one have. -/
theorem gap_below_one {x : Binary φ} (hφ : φ.fractionBits < φ.scale) (h : x.units < φ.one) :
    x.units * (2 * φ.step) + φ.one ≤ 2 * φ.step * φ.one := by
  obtain ⟨q, hq, hlt, hn⟩ := x.units_eq_mul
  have hexponent : φ.fractionBits + x.ulpExponent < φ.scale := by
    rcases hn with hz | hstep
    · omega
    · have hle : 2 ^ (φ.fractionBits + x.ulpExponent) ≤ x.units := by
        rw [hq, Nat.pow_add]
        exact Nat.mul_le_mul_right _ hstep
      rw [φ.one_eq] at h
      exact (Nat.pow_lt_pow_iff_right (by omega)).mp (hle.trans_lt h)
  have hplaces : 2 ^ x.ulpExponent * (2 * φ.step) ≤ φ.one := by
    rw [φ.one_eq, two_mul_step, ← Nat.pow_add]
    exact Nat.pow_le_pow_right (by omega) (by omega)
  calc x.units * (2 * φ.step) + φ.one
      = q * (2 ^ x.ulpExponent * (2 * φ.step)) + φ.one := by rw [hq, Nat.mul_assoc]
    _ ≤ q * φ.one + φ.one := Nat.add_le_add_right (Nat.mul_le_mul_left q hplaces) _
    _ = (q + 1) * φ.one := (Nat.succ_mul q φ.one).symm
    _ ≤ 2 * φ.step * φ.one := Nat.mul_le_mul_right _ hlt

/-- A product with a factor below one is rounded to less than the other factor. -/
theorem units_roundUnits_mul_lt {x y : Binary φ} {s : Bool} (hφ : φ.fractionBits < φ.scale)
    (hx : x.units < φ.one) (hy : φ.step < y.units) (hroom : HasRoom φ (x.units * y.units / φ.one)) :
    (roundUnits s (x.units * y.units) φ.one : Binary φ).units < y.units := by
  have hone := φ.one_pos
  have hgap := Nat.mul_le_mul_right y.units (gap_below_one hφ hx)
  have hbelow : x.units * y.units / φ.one < y.units := by
    rw [Nat.div_lt_iff_lt_mul hone, Nat.mul_comm y.units]
    exact Nat.mul_lt_mul_of_pos_right hx (by omega)
  rw [(roundUnits_of_hasRoom hroom).2]
  generalize hplace : lastPlace φ (x.units * y.units / φ.one) = p
  -- The last place of the product is at most a half of the gap.
  have hp : φ.step * 2 ^ p < y.units := by
    by_cases hz : p = 0
    · rw [hz, Nat.pow_zero, Nat.mul_one]
      exact hy
    · obtain ⟨hpow, -⟩ := step_mul_lastPlace_le (φ := φ) (hplace ▸ hz)
      rw [hplace] at hpow
      rw [hpow]
      refine (Nat.log2_self_le ?_).trans_lt hbelow
      intro hzero
      rw [hzero] at hplace
      exact hz (by rw [← hplace]; simp [lastPlace])
  have hround := two_mul_nearestEven_le (x.units * y.units) (φ.one * 2 ^ p)
  generalize nearestEven (x.units * y.units) (φ.one * 2 ^ p) = r at hround
  by_contra hle
  have hreached : y.units * φ.one ≤ r * 2 ^ p * φ.one := Nat.mul_le_mul_right _ (Nat.le_of_not_lt hle)
  have hfar : φ.step * 2 ^ p * φ.one < y.units * φ.one := Nat.mul_lt_mul_of_pos_right hp hone
  have hscaled := Nat.mul_le_mul_left (2 * φ.step) hround
  have hscaled' := Nat.mul_le_mul_left (4 * φ.step) hreached
  linarith

theorem step_lt_one (hφ : φ.fractionBits < φ.scale) : φ.step < φ.one := by
  rw [φ.one_eq]
  exact Nat.pow_lt_pow_right (by omega) hφ

theorem word_lt_of_units_lt {x : Binary φ} (h : x.units < (infinite false : Binary φ).units) :
    x.word < φ.infinity := by
  by_contra hle
  exact absurd ((units_strictMono (φ := φ) x.negative).monotone (Nat.le_of_not_lt hle)) (Nat.not_le_of_lt h)

theorem mul_of_finite {x y : Binary φ} (hx : x.word < φ.infinity) (hy : y.word < φ.infinity) :
    x.mul y = roundUnits (x.negative != y.negative) (x.units * y.units) φ.one := by
  simp [mul, onNumbers, finite_of_word_lt, hx, hy, Format.one]

end Binary

namespace Double

open Binary

theorem fractionBits_lt_scale : Format.double.fractionBits < Format.double.scale := by decide

theorem units_upperBound : Number.upperBound.units = 2 ^ 63 * Format.double.one := by
  have hvalue := Number.value_bounds_exact.2
  have := Number.upperBound.natAbs_value
  rw [hvalue] at this
  omega

theorem word_lt_of_units_lt {x : Double} (h : x.units < 2 ^ 63 * Format.double.one) :
    x.word < Format.double.infinity := by
  have hbound : Number.upperBound.word < Format.double.infinity :=
    word_ofInt_lt (Number.hasRoom_of_natAbs_le (by decide))
  rw [← units_upperBound] at h
  exact Binary.word_lt_of_units_lt (h.trans (units_lt_infinite hbound))

theorem hasRoom_of_le {u : Nat} (h : u ≤ 2 ^ 63 * Format.double.one) : HasRoom Format.double u := by
  have hlt : u < 2 ^ (64 + Format.double.scale) := by
    rw [Format.two_pow_scale]
    exact h.trans_lt (Nat.mul_lt_mul_of_pos_right (by decide) Format.double.one_pos)
  exact HasRoom.of_lt hlt (by decide) (by decide)

theorem hasRoom_count {n : Nat} (hn : n < 2 ^ 63) : HasRoom Format.double (n * Format.double.one) :=
  hasRoom_of_le (Nat.mul_le_mul_right _ hn.le)

theorem value_one : one.value = Format.double.one := by
  have h := value_ofInt_exact (φ := Format.double) (n := 1) (m := 1) (e := 0) (by decide) (by decide)
    (Number.hasRoom_of_natAbs_le (by decide))
  simpa [one] using h

section Count

variable {n : Nat}

theorem ofNat_eq_ofRatio (n : Nat) : ofNat n = ofRatio false n 1 := by
  have hs : decide ((n : Int) < 0) = false := decide_eq_false (Int.not_lt.mpr (Int.natCast_nonneg n))
  rw [ofNat, ofInt, hs, Int.natAbs_natCast]

theorem ofNat_eq (n : Nat) : ofNat n = roundUnits false (n * Format.double.one * 1) 1 := by
  rw [ofNat_eq_ofRatio, Nat.mul_one, Format.one]
  rfl

theorem negative_ofNat (n : Nat) : (ofNat n).negative = false := by
  rw [ofNat_eq]
  rfl

theorem value_ofNat (n : Nat) : (ofNat n).value = (ofNat n).units := by
  rw [value, if_neg]
  rw [negative_ofNat]
  exact Bool.false_ne_true

theorem value_ofNat_exact {m e : Nat} (hn : n = m * 2 ^ e) (hm : m < 2 ^ 53) (hlt : n < 2 ^ 63) :
    (ofNat n).value = n * Format.double.one :=
  value_ofInt_exact (n := n) hn hm (hasRoom_count hlt)

theorem word_ofNat_lt (hn : n < 2 ^ 63) : (ofNat n).word < Format.double.infinity := by
  rw [ofNat_eq]
  exact (roundUnits_mul Nat.one_pos (hasRoom_count hn)).1

theorem units_ofNat_le {x : Double} (hn : n < 2 ^ 63) (h : n * Format.double.one ≤ x.units) :
    (ofNat n).units ≤ x.units := by
  rw [ofNat_eq]
  exact units_roundUnits_le Nat.one_pos (hasRoom_count hn) h

theorem one_le_units_ofNat (hn : n < 2 ^ 63) (hpos : 0 < n) : Format.double.one ≤ (ofNat n).units := by
  have hroom : HasRoom Format.double ((n : Int).natAbs * Format.double.one) := hasRoom_count hn
  have h := two_pow_le_units_ofInt (k := 0) (n := n) hpos hroom
  simpa [ofNat] using h

end Count

theorem toInt_of_value {x : Double} {w : Nat} (hw : w < 2 ^ 63) (hv : x.value = w * Format.double.one) :
    x.toInt64.toInt = w := by
  have hm : (Int64.ofInt w).toInt = w := Int64.toInt_ofInt_of_le (by omega) (by omega)
  have hunits : x.units < 2 ^ 63 * Format.double.one := by
    rw [← x.natAbs_value, hv, Int.natAbs_mul, Int.natAbs_natCast, Int.natAbs_natCast]
    exact Nat.mul_lt_mul_of_pos_right hw Format.double.one_pos
  rw [← hm] at hv
  rw [Number.toInt64_of_value hv (finite_of_word_lt (word_lt_of_units_lt hunits)).1, hm]

theorem floor_of_whole {x : Double} (h : x.units % Format.double.one = 0) : x.floor = x := by
  rw [Format.one] at h
  simp only [floor, toWhole, h, decide_true, Bool.or_true, if_true]

theorem ceil_of_whole {x : Double} (h : x.units % Format.double.one = 0) : x.ceil = x := by
  rw [Format.one] at h
  simp only [ceil, toWhole, h, decide_true, Bool.or_true, if_true]

theorem toInt_floor {x : Double} (h0 : 0 ≤ x.value) (hlt : x.units < 2 ^ 63 * Format.double.one) :
    x.floor.toInt64.toInt = (x.units / Format.double.one : Nat) := by
  have hone := Format.double.one_pos
  have hvalue := value_of_nonneg h0
  have hw : x.units / Format.double.one < 2 ^ 63 := (Nat.div_lt_iff_lt_mul hone).mpr hlt
  by_cases hwhole : x.units % Format.double.one = 0
  · have hexact : x.value = (x.units / Format.double.one : Nat) * (Format.double.one : Int) := by
      rw [hvalue]
      exact_mod_cast (Nat.div_mul_cancel (Nat.dvd_of_mod_eq_zero hwhole)).symm
    rw [floor_of_whole hwhole, toInt_of_value hw hexact]
  · have hword := word_lt_of_units_lt hlt
    have hs : x.negative = false := by
      have hunits : x.units ≠ 0 := fun hzero => hwhole (by rw [hzero, Nat.zero_mod])
      exact negative_of_pos (by omega)
    have hsmall : x.units / Format.double.one < 2 ^ 53 := by
      by_contra hlarge
      have hle : 2 * Format.double.step * Format.double.one ≤ x.units :=
        (Nat.le_div_iff_mul_le hone).mp (Nat.le_of_not_lt hlarge)
      obtain ⟨m, e, -, hu⟩ := whole_of_large hle
      exact hwhole (by rw [hu, Nat.mul_mod_left])
    have hfloor : x.floor = ofNat (x.units / Format.double.one) := by
      have hrest : x.units % Nat.pow 2 Format.double.scale ≠ 0 := by rwa [Format.one] at hwhole
      simp only [floor, toWhole, finite_of_word_lt hword, hs, hrest, Bool.or_self, decide_false,
        Bool.false_eq_true, if_false]
      rw [ofNat_eq_ofRatio, Format.one]
    rw [hfloor, toInt_of_value hw (value_ofNat_exact (e := 0) (by simp) hsmall hw)]

section Share

variable {p : Double} {count : Nat}

theorem units_lt_one (h0 : 0 ≤ p.value) (h1 : p.value < one.value) : p.units < Format.double.one := by
  rw [value_one, value_of_nonneg h0] at h1
  exact_mod_cast h1

theorem word_lt_of_lt_one (hp : p.units < Format.double.one) : p.word < Format.double.infinity :=
  word_lt_of_units_lt (hp.trans_le (Nat.le_mul_of_pos_left _ (by decide)))

theorem mul_count_eq (hp : p.word < Format.double.infinity) (hcount : count < 2 ^ 63) :
    p.mul (ofNat count) = roundUnits p.negative (p.units * (ofNat count).units) Format.double.one := by
  rw [mul_of_finite hp (word_ofNat_lt hcount), negative_ofNat, Bool.bne_false]

theorem units_ofNat_le_bound (hcount : count < 2 ^ 63) :
    (ofNat count).units ≤ 2 ^ 63 * Format.double.one := by
  rw [← units_upperBound]
  refine units_ofNat_le hcount ?_
  rw [units_upperBound]
  exact Nat.mul_le_mul_right _ hcount.le

theorem units_share_lt (hp : p.units < Format.double.one) (hpos : 0 < count) (hcount : count < 2 ^ 63) :
    (p.mul (ofNat count)).units < (ofNat count).units := by
  have hone := Format.double.one_pos
  have hleast := one_le_units_ofNat hcount hpos
  have hproduct : p.units * (ofNat count).units / Format.double.one < 2 ^ 63 * Format.double.one := by
    refine lt_of_lt_of_le ?_ (units_ofNat_le_bound hcount)
    rw [Nat.div_lt_iff_lt_mul hone, Nat.mul_comm (ofNat count).units]
    exact Nat.mul_lt_mul_of_pos_right hp (hone.trans_le hleast)
  rw [mul_count_eq (word_lt_of_lt_one hp) hcount]
  exact units_roundUnits_mul_lt fractionBits_lt_scale hp
    ((step_lt_one fractionBits_lt_scale).trans_le hleast) (hasRoom_of_le hproduct.le)

theorem value_share_nonneg (h0 : 0 ≤ p.value) (hp : p.word < Format.double.infinity) (hcount : count < 2 ^ 63) :
    0 ≤ (p.mul (ofNat count)).value := by
  rw [mul_count_eq hp hcount]
  cases hs : p.negative with
  | false =>
    rw [value, if_neg]
    · exact Int.natCast_nonneg _
    · exact Bool.false_ne_true
  | true =>
    have hzero : p.units = 0 := by
      have hneg : p.value = -(p.units : Int) := by rw [value, if_pos hs]
      omega
    have hle : (roundUnits true (0 * Format.double.one) Format.double.one : Double).units ≤
        Double.zero.units :=
      units_roundUnits_le Format.double.one_pos (hasRoom_of_le (Nat.zero_le _)) (Nat.zero_le _)
    have hnone : Double.zero.units = 0 := by decide
    rw [hzero, Nat.zero_mul, ← Nat.zero_mul Format.double.one]
    have := (roundUnits true (0 * Format.double.one) Format.double.one : Double).natAbs_value
    omega

/-- The whole part of a share below one of a count, as the machine has it, is below the count. -/
theorem share_lt_count (h0 : 0 ≤ p.value) (h1 : p.value < one.value) (hpos : 0 < count) :
    (p.mul (ofNat count)).floor.toInt64.toInt.toNat < count := by
  rcases Nat.lt_or_ge count (2 ^ 63) with hcount | hlarge
  · have hp := units_lt_one h0 h1
    have hbelow := units_share_lt hp hpos hcount
    have hshort : (p.mul (ofNat count)).units < count * Format.double.one := by
      by_contra hreach
      exact absurd (units_ofNat_le hcount (Nat.le_of_not_lt hreach)) (Nat.not_le_of_lt hbelow)
    have hnonneg := value_share_nonneg h0 (word_lt_of_lt_one hp) hcount
    rw [toInt_floor hnonneg (hbelow.trans_le (units_ofNat_le_bound hcount)), Int.toNat_natCast]
    exact (Nat.div_lt_iff_lt_mul Format.double.one_pos).mpr hshort
  · -- No whole part is as large as such a count.
    have hmax := (p.mul (ofNat count)).floor.toInt64.toInt_lt
    omega

theorem value_mul_ofNat_of_one (hp : p.value = Format.double.one) (hcount : count < 2 ^ 63) :
    (p.mul (ofNat count)).value = (ofNat count).value := by
  have hunits : p.units = Format.double.one := by
    have := p.natAbs_value
    omega
  have hnegative : p.negative = false := negative_of_pos (hp ▸ Int.natCast_pos.mpr Format.double.one_pos)
  have hword : p.word < Format.double.infinity := by
    have := Format.double.one_pos
    exact word_lt_of_units_lt (by omega)
  obtain ⟨q, hq, hlt, -⟩ := (ofNat count).units_eq_mul
  have hroom : HasRoom Format.double (ofNat count).units := hasRoom_of_le (units_ofNat_le_bound hcount)
  have hsame := units_roundUnits_exact (s := false) Format.double.one_pos hq hlt hroom
  rw [value_ofNat, mul_count_eq hword hcount, hunits, Nat.mul_comm, hnegative, value_of_nonneg, hsame]
  exact Int.natCast_nonneg _

end Share

end Double

end GraphQuery
