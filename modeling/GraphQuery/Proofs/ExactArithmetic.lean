import GraphQuery.Function.Numeric
import GraphQuery.Proofs.FaultKinds
import GraphQuery.Proofs.NumericOperands

/-! Arithmetic gives the exact integer or says that it has no room for it. The widths of the operands
do not count, and a real on one side makes the result a real. -/

namespace GraphQuery

/-- The integer that a scalar of any width holds. -/
def Scalar.integer? : Scalar → Option Int
  | int8 n => some n.toInt
  | int16 n => some n.toInt
  | int32 n => some n.toInt
  | int64 n => some n.toInt
  | _ => none

theorem Scalar.integer?_eq (s : Scalar) : s.integer? = s.asInt.map Int64.toInt := by
  cases s <;> simp [integer?, asInt]

namespace Value

def integer? (v : Value) : Option Int := v.asScalar.bind Scalar.integer?

def exactNumber? (v : Value) : Option ExactNumber := v.asScalar.bind Scalar.exactNumber?

end Value

/-- The integer itself, or a fault because 64 bits do not hold it. -/
def Outcome.IsExact (outcome : Outcome Value) (n : Int) (overflow : Error) : Prop :=
  (∃ m : Int64, m.toInt = n ∧ outcome = .ok (.int m)) ∨ (¬(-2 ^ 63 ≤ n ∧ n < 2 ^ 63) ∧ outcome = .error overflow)

section Exact

variable {n : Int} {outcome other : Outcome Value} {overflow : Error}

theorem exactInt64_of_fits (h : -2 ^ 63 ≤ n ∧ n < 2 ^ 63) : ∃ m, exactInt64 n = some m ∧ m.toInt = n := by
  have hmin : Int64.minValue.toInt = -2 ^ 63 := by decide
  have hmax : Int64.maxValue.toInt = 2 ^ 63 - 1 := by decide
  refine ⟨Int64.ofInt n, ?_, Int64.toInt_ofInt_of_le h.1 h.2⟩
  rw [exactInt64, if_pos]
  rw [hmin, hmax, Bool.and_eq_true, decide_eq_true_iff, decide_eq_true_iff]
  omega

theorem exactInt64_of_not_fits (h : ¬(-2 ^ 63 ≤ n ∧ n < 2 ^ 63)) : exactInt64 n = none := by
  have hmin : Int64.minValue.toInt = -2 ^ 63 := by decide
  have hmax : Int64.maxValue.toInt = 2 ^ 63 - 1 := by decide
  rw [exactInt64, if_neg]
  rw [hmin, hmax, Bool.and_eq_true, decide_eq_true_iff, decide_eq_true_iff]
  omega

theorem Outcome.IsExact.of_exactInt64 (hsome : ∀ m, exactInt64 n = some m → outcome = .ok (.int m))
    (hnone : exactInt64 n = none → outcome = .error overflow) : IsExact outcome n overflow := by
  by_cases h : -2 ^ 63 ≤ n ∧ n < 2 ^ 63
  · obtain ⟨m, hm, hn⟩ := exactInt64_of_fits h
    exact .inl ⟨m, hn, hsome m hm⟩
  · exact .inr ⟨h, hnone (exactInt64_of_not_fits h)⟩

theorem Outcome.IsExact.unique (h : IsExact outcome n overflow) (h' : IsExact other n overflow) :
    outcome = other := by
  have hfits (m : Int64) : -2 ^ 63 ≤ m.toInt ∧ m.toInt < 2 ^ 63 := ⟨m.le_toInt, m.toInt_lt⟩
  rcases h with ⟨m, hm, rfl⟩ | ⟨hnot, rfl⟩ <;> rcases h' with ⟨k, hk, rfl⟩ | ⟨hnot', rfl⟩
  · rw [Int64.toInt_inj.mp (hm.trans hk.symm)]
  · exact absurd (hm ▸ hfits m) hnot'
  · exact absurd (hk ▸ hfits k) hnot
  · rfl

end Exact

namespace Value

variable {a b : Value} {k l : Int64} {m n : Int} {op : ArithmeticOp}

theorem exists_asInt (h : a.integer? = some m) : ∃ k : Int64, a.asInt = some k ∧ k.toInt = m := by
  obtain ⟨s, hs, hm⟩ := Option.bind_eq_some_iff.mp h
  rw [Scalar.integer?_eq] at hm
  obtain ⟨k, hk, hkm⟩ := Option.map_eq_some_iff.mp hm
  exact ⟨k, by rw [asInt, hs]; exact hk, hkm⟩

theorem exists_scalar (h : a.isNumeric = true) : ∃ s, a = scalar s ∧ s.isNumeric = true := by
  cases a with
  | scalar s => exact ⟨s, rfl, h⟩
  | list items => cases h
  | map fields => cases h

theorem isNumeric_of_asInt (h : a.asInt = some k) : a.isNumeric = true := by
  obtain ⟨s, hs, hk⟩ := Option.bind_eq_some_iff.mp h
  have hnumeric : s.isNumeric = true := by cases s <;> first | rfl | cases hk
  rw [isNumeric, hs]
  exact hnumeric

theorem asDouble_of_asInt (h : a.asInt = some k) : a.asDouble = some (Binary.ofInt k.toInt) := by
  obtain ⟨s, hs, hk⟩ := Option.bind_eq_some_iff.mp h
  have hdouble : s.asDouble = s.asInt.map fun n => Binary.ofInt n.toInt := by cases s <;> first | rfl | cases hk
  rw [asDouble, hs, Option.bind_some, hdouble, hk, Option.map_some]

theorem isNull_of_isNumeric (h : a.isNumeric = true) : a.isNull = false := by
  obtain ⟨s, rfl, hs⟩ := exists_scalar h
  cases s <;> first | rfl | cases hs

theorem arithmetic_of_numeric (ha : a.isNumeric = true) (hb : b.isNumeric = true) (op : ArithmeticOp) :
    a.arithmetic op b = arithmeticNumbers op a b := by
  have hstring {v : Value} (h : v.isNumeric = true) : v.isString = false := by
    obtain ⟨s, rfl, hs⟩ := exists_scalar h
    cases s <;> first | rfl | cases hs
  have hjoin : join a b = none := by
    obtain ⟨s, rfl, -⟩ := exists_scalar ha
    obtain ⟨t, rfl, -⟩ := exists_scalar hb
    rw [join, hstring ha, hstring hb]
    · simp
    all_goals simp
  rw [arithmetic, isNull_of_isNumeric ha, isNull_of_isNumeric hb, hjoin]
  simp

theorem arithmetic_of_ints (ha : a.asInt = some k) (hb : b.asInt = some l) : a.arithmetic op b =
    if op = .pow then (realArithmetic op (Binary.ofInt k.toInt) (Binary.ofInt l.toInt)).map double
    else (integerArithmetic op k l).map int := by
  rw [arithmetic_of_numeric (isNumeric_of_asInt ha) (isNumeric_of_asInt hb)]
  simp only [arithmeticNumbers, asDouble_of_asInt ha, asDouble_of_asInt hb, ha, hb]

theorem arithmetic_of_reals (ha : a.isNumeric = true) (hb : b.isNumeric = true)
    (hreal : a.isReal = true ∨ b.isReal = true) (op : ArithmeticOp) :
    ∃ x y, a.asDouble = some x ∧ b.asDouble = some y ∧ a.arithmetic op b = (realArithmetic op x y).map double := by
  obtain ⟨x, hx⟩ := Option.isSome_iff_exists.mp (a.isSome_asDouble.trans ha)
  obtain ⟨y, hy⟩ := Option.isSome_iff_exists.mp (b.isSome_asDouble.trans hb)
  have hint {v : Value} (hv : v.isNumeric = true) (h : v.isReal = true) : v.asInt = none := by
    obtain ⟨s, rfl, -⟩ := exists_scalar hv
    cases s <;> first | rfl | cases h
  refine ⟨x, y, hx, hy, ?_⟩
  rw [arithmetic_of_numeric ha hb, arithmeticNumbers, hx, hy]
  rcases hreal with hreal | hreal
  · simp only [hint ha hreal]
  · simp only [hint hb hreal]
    cases a.asInt <;> rfl

theorem arithmetic_of_null (h : a.isNull = true ∨ b.isNull = true) (op : ArithmeticOp) :
    a.arithmetic op b = .ok null := by
  rw [arithmetic, if_pos (Bool.or_eq_true_iff.mpr h)]

end Value

namespace Binary

variable {φ : Format} {x : Binary φ}

theorem isZero_iff_units : x.isZero = true ↔ x.units = 0 := by
  have hmono := units_strictMono (φ := φ) x.negative
  have hnone : (⟨x.negative, 0⟩ : Binary φ).units = 0 := by
    have hzero : (⟨x.negative, 0 * φ.step + 0⟩ : Binary φ).units = 0 * 2 ^ 0 := units_mk (Nat.zero_le _) (.inl rfl)
    simpa using hzero
  calc x.isZero = true ↔ x.word = 0 := by rw [isZero, decide_eq_true_iff]
    _ ↔ x.units = (⟨x.negative, 0⟩ : Binary φ).units := (hmono.injective.eq_iff (a := x.word)).symm
    _ ↔ x.units = 0 := by rw [hnone]

theorem isZero_iff_exact (hφ : 0 < φ.infinity) : x.isZero = true ↔ x.exact = .ofRat 0 := by
  have hone : (φ.one : ℚ) ≠ 0 := by exact_mod_cast φ.one_pos.ne'
  rcases Nat.lt_or_ge x.word φ.infinity with hfinite | hlarge
  · rw [isZero_iff_units, exact_of_finite hfinite, ← x.natAbs_value, Int.natAbs_eq_zero]
    simp [ExactNumber.ofRat, hone]
  · have hnonzero : x.isZero = false := decide_eq_false (by omega)
    have hexact : x.exact ≠ .ofRat 0 := by
      cases hn : x.isNaN with
      | true => simp [exact_of_isNaN hn, ExactNumber.nan, ExactNumber.ofRat]
      | false =>
        have hi : x.isInfinite = true := by
          simp only [isNaN, isInfinite, decide_eq_false_iff_not, decide_eq_true_iff] at hn ⊢
          omega
        rw [eq_infinite hi, exact_infinite, ExactNumber.infinity]
        split
        · exact fun h => WithBot.bot_ne_coe (WithTop.coe_inj.mp (WithTop.coe_inj.mp h))
        · simp [ExactNumber.ofRat]
    simp [hnonzero, hexact]

end Binary

namespace Value

variable {v : Value} {x : Double}

theorem isZero_ofInt_iff (k : Int64) : (Binary.ofInt k.toInt : Double).isZero = true ↔ k.toInt = 0 := by
  rw [Binary.isZero_iff_units]
  constructor
  · intro hunits
    by_contra hk
    have hone := Format.double.one_pos
    have hle := Binary.two_pow_le_units_ofInt (φ := Format.double) (n := k.toInt) (k := 0) (by omega)
      (Number.hasRoom_of_natAbs_le (Number.natAbs_toInt_le k))
    omega
  · intro hk
    rw [hk]
    decide +kernel

/-- The divisors that arithmetic refuses are the numbers that stand for zero. -/
theorem isZero_iff_exactNumber (h : v.asDouble = some x) :
    x.isZero = true ↔ v.exactNumber? = some (.ofRat 0) := by
  obtain ⟨s, hs, hx⟩ := Option.bind_eq_some_iff.mp h
  rw [exactNumber?, hs, Option.bind_some]
  have hint {k : Int64} : (Binary.ofInt k.toInt : Double).isZero = true ↔
      some (ExactNumber.ofRat k.toInt) = some (.ofRat 0) := by
    rw [isZero_ofInt_iff]
    simp [ExactNumber.ofRat]
  cases s with
  | int8 n | int16 n | int32 n | int64 n =>
    cases hx
    exact hint
  | double y =>
    cases hx
    rw [Binary.isZero_iff_exact (by decide), Scalar.exactNumber?, Option.some_inj]
  | float y =>
    cases hx
    rw [Binary.isZero_iff_exact (by decide), Binary.exact_convert, Scalar.exactNumber?, Option.some_inj]
  | _ => cases hx

variable {a b : Value} {k l : Int64} {n : Int}

theorem isExact_of_checked {op : ArithmeticOp} {overflow : Error} (ha : a.asInt = some k) (hb : b.asInt = some l)
    (hop : op ≠ .pow) (hchecked : integerArithmetic op k l =
      match exactInt64 n with
      | some m => .ok m
      | none => .error overflow) : (a.arithmetic op b).IsExact n overflow := by
  rw [arithmetic_of_ints ha hb, if_neg hop, hchecked]
  exact .of_exactInt64 (fun m h => by rw [h]; rfl) fun h => by rw [h]; rfl

theorem isExact_neg (ha : a.asInt = some k) : a.neg.IsExact (-k.toInt) (.typeMismatch "Neg" "integer overflow") := by
  have hnull := isNull_of_isNumeric (isNumeric_of_asInt ha)
  exact .of_exactInt64 (fun m h => by simp [neg, hnull, ha, h]) fun h => by simp [neg, hnull, ha, h]

/-- Only the widest integers have one without an absolute value. -/
theorem typeName_of_not_fits (ha : a.asInt = some k) (h : ¬|k.toInt| < 2 ^ 63) : a.typeName = "Int64" := by
  obtain ⟨s, rfl, -⟩ := exists_scalar (isNumeric_of_asInt ha)
  cases s with
  | int64 n => rfl
  | int8 n =>
    obtain rfl : n.toInt64 = k := Option.some.inj ha
    rw [Int8.toInt_toInt64, abs_lt] at h
    have := n.le_toInt
    have := n.toInt_lt
    omega
  | int16 n =>
    obtain rfl : n.toInt64 = k := Option.some.inj ha
    rw [Int16.toInt_toInt64, abs_lt] at h
    have := n.le_toInt
    have := n.toInt_lt
    omega
  | int32 n =>
    obtain rfl : n.toInt64 = k := Option.some.inj ha
    rw [Int32.toInt_toInt64, abs_lt] at h
    have := n.le_toInt
    have := n.toInt_lt
    omega
  | _ => cases ha

theorem isExact_abs (ha : a.asInt = some k) : (absFunction [.constant a]).IsExact |k.toInt|
    (.invalidArgument "abs" "expected Integer in range, got Int64") := by
  have hnull := isNull_of_isNumeric (isNumeric_of_asInt ha)
  have hwidth (hnone : exactInt64 |k.toInt| = none) : a.typeName = "Int64" := by
    refine typeName_of_not_fits ha fun hlt => ?_
    have hnonneg := abs_nonneg k.toInt
    obtain ⟨m, hm, -⟩ := exactInt64_of_fits ⟨by omega, hlt⟩
    cases hnone.symm.trans hm
  refine Outcome.IsExact.of_exactInt64 (fun m h => ?_) fun h => ?_
  · simp [absFunction, numericFunction, oneArgument, valueArgument, hnull, ha, h, bind, Except.bind, pure,
      Except.pure]
  · simp [absFunction, numericFunction, oneArgument, valueArgument, argumentMismatch, Entry.kindName, hwidth h,
      hnull, ha, h, bind, Except.bind]

theorem arithmetic_eq_of_asInt {a' b' : Value} (ha : a.asInt = some k) (hb : b.asInt = some l)
    (ha' : a'.asInt = some k) (hb' : b'.asInt = some l) (op : ArithmeticOp) :
    a.arithmetic op b = a'.arithmetic op b' := by
  rw [arithmetic_of_ints ha hb, arithmetic_of_ints ha' hb']

end Value

structure ExactOn (a b : Value) (m n : Int) : Prop where
  add : (a.add b).IsExact (m + n) (.typeMismatch "Add" "integer overflow")
  sub : (a.sub b).IsExact (m - n) (.typeMismatch "Sub" "integer overflow")
  mul : (a.mul b).IsExact (m * n) (.typeMismatch "Mul" "integer overflow")
  div : n ≠ 0 → (a.div b).IsExact (m.tdiv n) (.typeMismatch "Div" "integer overflow")
  div_zero : n = 0 → a.div b = .error .divisionByZero

theorem exactOn {a b : Value} {m n : Int} (ha : a.integer? = some m) (hb : b.integer? = some n) :
    ExactOn a b m n := by
  obtain ⟨k, hk, rfl⟩ := Value.exists_asInt ha
  obtain ⟨l, hl, rfl⟩ := Value.exists_asInt hb
  refine ⟨?_, ?_, ?_, fun hn => ?_, fun hn => ?_⟩
  · exact Value.isExact_of_checked hk hl (by decide) rfl
  · exact Value.isExact_of_checked hk hl (by decide) rfl
  · exact Value.isExact_of_checked hk hl (by decide) rfl
  · exact Value.isExact_of_checked hk hl (by decide) (if_neg hn)
  · rw [Value.div, Value.arithmetic_of_ints hk hl, if_neg (by decide), integerArithmetic, if_pos hn]
    rfl

/-- Whether arithmetic on numbers refuses a divisor. -/
def ArithmeticOp.Refuses (op : ArithmeticOp) (b : Value) : Prop :=
  (op = .div ∨ op = .mod) ∧ b.exactNumber? = some (.ofRat 0)

theorem realArithmetic_cases (op : ArithmeticOp) (x : Double) {y : Double} {b : Value} (hy : b.asDouble = some y) :
    (op.Refuses b → realArithmetic op x y = .error .divisionByZero) ∧
      (¬op.Refuses b → ∃ z, realArithmetic op x y = .ok z) := by
  rw [ArithmeticOp.Refuses, ← Value.isZero_iff_exactNumber hy]
  cases op with
  | div | mod => cases hz : y.isZero <;> simp [realArithmetic, hz]
  | _ => simp [realArithmetic]

theorem Value.exists_pow {a b : Value} (ha : a.isNumeric = true) (hb : b.isNumeric = true) :
    ∃ x, a.pow b = .ok (.double x) := by
  obtain ⟨x, hx⟩ := Option.isSome_iff_exists.mp (a.isSome_asDouble.trans ha)
  obtain ⟨y, hy⟩ := Option.isSome_iff_exists.mp (b.isSome_asDouble.trans hb)
  refine ⟨x.pow y, ?_⟩
  rw [pow, arithmetic_of_numeric ha hb, arithmeticNumbers, hx, hy]
  cases a.asInt <;> cases b.asInt <;> rfl

/-- Integers give their exact result or say that it does not fit, whatever their widths; Null absorbs; a
real makes the result a real, and so does every power. -/
theorem arithmetic_is_exact_or_refused (a b : Value) :
    (∀ m n, a.integer? = some m → b.integer? = some n → ExactOn a b m n) ∧
    (∀ m, a.integer? = some m → a.neg.IsExact (-m) (.typeMismatch "Neg" "integer overflow") ∧
      (absFunction [.constant a]).IsExact |m| (.invalidArgument "abs" "expected Integer in range, got Int64")) ∧
    (∀ a' b' m n, a.integer? = some m → a'.integer? = some m → b.integer? = some n → b'.integer? = some n →
      (∀ op, a.arithmetic op b = a'.arithmetic op b') ∧ a.neg = a'.neg ∧
        absFunction [.constant a] = absFunction [.constant a']) ∧
    (a.isNull = true ∨ b.isNull = true → ∀ op, a.arithmetic op b = .ok .null) ∧
    (a.isNumeric = true → b.isNumeric = true → a.isReal = true ∨ b.isReal = true → ∀ op,
      (op.Refuses b → a.arithmetic op b = .error .divisionByZero) ∧
        (¬op.Refuses b → ∃ x, a.arithmetic op b = .ok (.double x))) ∧
    (a.isNumeric = true → b.isNumeric = true → ∃ x, a.pow b = .ok (.double x)) ∧
    ∀ op, a.arithmetic op b ≠ .error (.internalInvariant "integer pow is computed as real") := by
  refine ⟨fun m n => exactOn, fun m hm => ?_, fun a' b' m n ha ha' hb hb' => ?_,
    fun hnull op => Value.arithmetic_of_null hnull op, fun ha hb hreal op => ?_,
    fun ha hb => Value.exists_pow ha hb, fun op => ?_⟩
  · obtain ⟨k, hk, rfl⟩ := Value.exists_asInt hm
    exact ⟨Value.isExact_neg hk, Value.isExact_abs hk⟩
  · obtain ⟨k, hk, rfl⟩ := Value.exists_asInt ha
    obtain ⟨k', hk', hsame⟩ := Value.exists_asInt ha'
    obtain ⟨l, hl, rfl⟩ := Value.exists_asInt hb
    obtain ⟨l', hl', hsame'⟩ := Value.exists_asInt hb'
    obtain rfl := Int64.toInt_inj.mp hsame
    obtain rfl := Int64.toInt_inj.mp hsame'
    exact ⟨Value.arithmetic_eq_of_asInt hk hl hk' hl', (Value.isExact_neg hk).unique (Value.isExact_neg hk'),
      (Value.isExact_abs hk).unique (Value.isExact_abs hk')⟩
  · obtain ⟨x, y, -, hy, hop⟩ := Value.arithmetic_of_reals ha hb hreal op
    obtain ⟨hrefused, htaken⟩ := realArithmetic_cases op x hy
    rw [hop]
    refine ⟨fun h => by rw [hrefused h]; rfl, fun h => ?_⟩
    obtain ⟨z, hz⟩ := htaken h
    exact ⟨z, by rw [hz]; rfl⟩
  · intro hfault
    exact arithmetic_ordinary a b op _ hfault _ rfl

/-- The least integer has no quotient by minus one and no absolute value; by a negative zero, nothing has a
remainder. -/
theorem least_integer_over_minus_one :
    let least := Value.int Int64.minValue
    let minusOne := Value.scalar (.int8 (-1))
    let zero := Value.double (Binary.zero true)
    least.div minusOne = .error (.typeMismatch "Div" "integer overflow") ∧
      absFunction [.constant least] = .error (.invalidArgument "abs" "expected Integer in range, got Int64") ∧
      least.add minusOne = least.add (.int (-1)) ∧ least.mod .null = .ok .null ∧
      least.mod zero = .error .divisionByZero := by
  intro least minusOne zero
  have hleast : least.integer? = some (-2 ^ 63) := by decide
  have hone : minusOne.integer? = some (-1) := by decide
  have hwide : (Value.int (-1)).integer? = some (-1) := by decide
  have hnumber : least.isNumeric = true ∧ zero.isNumeric = true ∧ zero.isReal = true := by decide
  have hrefused : ArithmeticOp.mod.Refuses zero := ⟨.inr rfl, (Value.isZero_iff_exactNumber rfl).mp rfl⟩
  have hbelow (m : Int64) : m.toInt ≠ 2 ^ 63 := m.toInt_lt.ne
  obtain ⟨hexact, hunary, hwidths, -⟩ := arithmetic_is_exact_or_refused least minusOne
  obtain ⟨-, -, -, -, hreal, -⟩ := arithmetic_is_exact_or_refused least zero
  obtain ⟨-, -, -, hnull, -⟩ := arithmetic_is_exact_or_refused least .null
  refine ⟨?_, ?_, (hwidths _ _ _ _ hleast hleast hone hwide).1 .add, hnull (.inr rfl) .mod,
    (hreal hnumber.1 hnumber.2.1 (.inr hnumber.2.2) .mod).1 hrefused⟩
  · rcases (hexact _ _ hleast hone).div (by decide) with ⟨m, hm, -⟩ | ⟨-, hfault⟩
    · exact absurd hm (hbelow m)
    · exact hfault
  · rcases (hunary _ hleast).2 with ⟨m, hm, -⟩ | ⟨-, hfault⟩
    · exact absurd hm (hbelow m)
    · exact hfault

end GraphQuery
