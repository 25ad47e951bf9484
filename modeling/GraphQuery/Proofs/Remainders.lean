import GraphQuery.Proofs.ExactArithmetic

/-! Integers are divided with a remainder. Quotient and remainder fail together: at zero, and where 64 bits
have no room for the quotient. -/

namespace GraphQuery

section Division

variable {m n : Int}

/-- One quotient of integers of 64 bits has no room in 64 bits. -/
theorem tdiv_fits_iff (hm : -2 ^ 63 ≤ m ∧ m < 2 ^ 63) (hn : n ≠ 0) :
    (-2 ^ 63 ≤ m.tdiv n ∧ m.tdiv n < 2 ^ 63) ↔ ¬(m = -2 ^ 63 ∧ n = -1) := by
  constructor
  · rintro ⟨-, hlt⟩ ⟨rfl, rfl⟩
    exact absurd hlt (by decide)
  · intro hleast
    have hquotient : (m.tdiv n).natAbs = m.natAbs / n.natAbs := Int.natAbs_tdiv m n
    by_cases hone : n.natAbs = 1
    · rcases (by omega : n = 1 ∨ n = -1) with rfl | rfl
      · rw [Int.tdiv_one]
        exact hm
      · rw [Int.tdiv_neg, Int.tdiv_one]
        omega
    · have hhalf : m.natAbs / n.natAbs ≤ m.natAbs / 2 := Nat.div_le_div_left (by omega) (by omega)
      omega

theorem abs_tmod_lt (hn : n ≠ 0) : |m.tmod n| < |n| := by
  have hmod := Int.natAbs_tmod m n
  have hlt := Nat.mod_lt m.natAbs (Int.natAbs_pos.mpr hn)
  rw [Int.abs_eq_natAbs, Int.abs_eq_natAbs]
  omega

theorem tmod_eq_zero_or_sign : m.tmod n = 0 ∨ (m.tmod n).sign = m.sign := by
  rw [Int.sign_tmod]
  by_cases hdvd : n ∣ m
  · exact .inl (Int.tmod_eq_zero_of_dvd hdvd)
  · exact .inr (if_neg hdvd)

end Division

section Remainder

variable {a b : Value} {m n : Int}

theorem Value.mod_zero (ha : a.integer? = some m) (hb : b.integer? = some 0) :
    a.mod b = .error .divisionByZero := by
  obtain ⟨k, hk, rfl⟩ := exists_asInt ha
  obtain ⟨l, hl, hzero⟩ := exists_asInt hb
  rw [mod, arithmetic_of_ints hk hl, if_neg (by decide), integerArithmetic, if_pos hzero]
  rfl

/-- The remainder asks for the quotient first. -/
theorem Value.mod_of_not_fits (ha : a.integer? = some m) (hb : b.integer? = some n) (hn : n ≠ 0)
    (h : ¬(-2 ^ 63 ≤ m.tdiv n ∧ m.tdiv n < 2 ^ 63)) :
    a.mod b = .error (.typeMismatch "Mod" "integer overflow") := by
  obtain ⟨k, hk, rfl⟩ := exists_asInt ha
  obtain ⟨l, hl, rfl⟩ := exists_asInt hb
  rw [mod, arithmetic_of_ints hk hl, if_neg (by decide), integerArithmetic, if_neg hn, exactInt64_of_not_fits h]
  rfl

theorem Value.mod_of_fits (ha : a.integer? = some m) (hb : b.integer? = some n) (hn : n ≠ 0)
    (h : -2 ^ 63 ≤ m.tdiv n ∧ m.tdiv n < 2 ^ 63) : ∃ r : Int64, a.mod b = .ok (.int r) ∧ r.toInt = m.tmod n := by
  obtain ⟨k, hk, rfl⟩ := exists_asInt ha
  obtain ⟨l, hl, rfl⟩ := exists_asInt hb
  obtain ⟨q, hq, -⟩ := exactInt64_of_fits h
  have hbounds := abs_lt.mp (abs_tmod_lt (m := k.toInt) hn)
  have hdivisor : |l.toInt| ≤ 2 ^ 63 := abs_le.mpr ⟨l.le_toInt, l.toInt_lt.le⟩
  obtain ⟨r, hr, hvalue⟩ := exactInt64_of_fits (n := k.toInt.tmod l.toInt) (by omega)
  refine ⟨r, ?_, hvalue⟩
  rw [mod, arithmetic_of_ints hk hl, if_neg (by decide), integerArithmetic, if_neg hn, hq, Option.bind_some, hr]
  rfl

/-- The remainder fails where the quotient does: by zero, and of the least integer by minus one, although that
remainder would have room. Everywhere else it is smaller than the divisor, has the sign of the dividend, and
completes the quotient. -/
theorem remainder_completes_quotient (ha : a.integer? = some m) (hb : b.integer? = some n) :
    (∀ fault, a.mod b = .error fault ↔ n = 0 ∧ fault = .divisionByZero ∨
      (m = -2 ^ 63 ∧ n = -1) ∧ fault = .typeMismatch "Mod" "integer overflow") ∧
    ((∃ fault, a.div b = .error fault) ↔ n = 0 ∨ m = -2 ^ 63 ∧ n = -1) ∧
    (n ≠ 0 → ¬(m = -2 ^ 63 ∧ n = -1) → ∃ q r : Int64, a.div b = .ok (.int q) ∧ a.mod b = .ok (.int r) ∧
      m = q.toInt * n + r.toInt ∧ |r.toInt| < |n| ∧ (r.toInt = 0 ∨ r.toInt.sign = m.sign)) := by
  obtain ⟨k, -, hk⟩ := Value.exists_asInt ha
  have hm : -2 ^ 63 ≤ m ∧ m < 2 ^ 63 := hk ▸ ⟨k.le_toInt, k.toInt_lt⟩
  have hexact := exactOn ha hb
  by_cases hn : n = 0
  · subst hn
    have hmod := Value.mod_zero ha hb
    have hdiv := hexact.div_zero rfl
    simp [hmod, hdiv, eq_comm]
  · rcases hexact.div hn with ⟨q, hq, hdiv⟩ | ⟨hnot, hdiv⟩
    · have hfits : -2 ^ 63 ≤ m.tdiv n ∧ m.tdiv n < 2 ^ 63 := hq ▸ ⟨q.le_toInt, q.toInt_lt⟩
      have hleast := (tdiv_fits_iff hm hn).mp hfits
      obtain ⟨r, hmod, hr⟩ := Value.mod_of_fits ha hb hn hfits
      refine ⟨fun fault => ?_, ?_, fun _ _ => ⟨q, r, hdiv, hmod, ?_⟩⟩
      · simp only [hmod, hn, hleast, reduceCtorEq, false_and, or_self]
      · simp only [hdiv, hn, hleast, reduceCtorEq, exists_false, or_self]
      · rw [hq, hr]
        exact ⟨(Int.tdiv_mul_add_tmod m n).symm, abs_tmod_lt hn, tmod_eq_zero_or_sign⟩
    · have hleast := not_not.mp (mt (tdiv_fits_iff hm hn).mpr hnot)
      have hmod := Value.mod_of_not_fits ha hb hn hnot
      simp [hmod, hdiv, hleast, eq_comm]

/-- Of minus seven in 8 bits and two in 64, the remainder is negative. -/
theorem minus_seven_over_two :
    let a := Value.scalar (.int8 (-7))
    let b := Value.int 2
    a.integer? = some (-7) ∧ b.integer? = some 2 ∧
      ∃ q r : Int64, a.div b = .ok (.int q) ∧ a.mod b = .ok (.int r) ∧ q.toInt = -3 ∧ r.toInt = -1 := by
  intro a b
  have ha : a.integer? = some (-7) := by decide
  have hb : b.integer? = some 2 := by decide
  obtain ⟨-, -, hrest⟩ := remainder_completes_quotient ha hb
  obtain ⟨q, r, hdiv, hmod, hsum, hlt, hsign⟩ := hrest (by decide) (by decide)
  have hbounds : -2 < r.toInt ∧ r.toInt < 2 := abs_lt.mp hlt
  have hnegative : r.toInt = 0 ∨ r.toInt < 0 := hsign.imp_right Int.sign_eq_neg_one_iff_neg.mp
  exact ⟨ha, hb, q, r, hdiv, hmod, by omega⟩

/-- The remainder of the least integer by minus one is zero, and is refused with the quotient. -/
theorem least_integer_has_no_remainder :
    let least := Value.int Int64.minValue
    let minusOne := Value.int (-1)
    least.integer? = some (-2 ^ 63) ∧ minusOne.integer? = some (-1) ∧ (-2 ^ 63 : Int).tmod (-1) = 0 ∧
      least.mod minusOne = .error (.typeMismatch "Mod" "integer overflow") ∧
      ¬((∃ fault, least.mod minusOne = .error fault) ↔ (-1 : Int) = 0) := by
  intro least minusOne
  have hmod : least.mod minusOne = .error (.typeMismatch "Mod" "integer overflow") := rfl
  refine ⟨by decide, by decide, by decide, hmod, fun h => ?_⟩
  exact absurd (h.mp ⟨_, hmod⟩) (by decide)

end Remainder

end GraphQuery
