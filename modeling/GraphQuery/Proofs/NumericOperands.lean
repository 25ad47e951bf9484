import GraphQuery.Proofs.DistinctOperands

/-! The numbers that steps add where DISTINCT has no say: one for each operand that is not Null. -/

namespace GraphQuery

theorem Scalar.isSome_asDouble (s : Scalar) : s.asDouble.isSome = s.isNumeric := by
  cases s <;> rfl

theorem Value.isSome_asDouble (v : Value) : v.asDouble.isSome = v.isNumeric := by
  cases v with
  | scalar s => exact s.isSome_asDouble
  | _ => rfl

/-- The number that an operand adds, none for Null. -/
def Entry.number? (x : Entry) : Option Double := x.asConstant.bind Value.asDouble

/-- The number that a row adds, which is that of its first operand. -/
def numberOf (row : List Entry) : Option Double := row.head?.bind Entry.number?

theorem Entry.number?_of_isNull {x : Entry} (h : x.isNull = true) : x.number? = none := by
  cases x with
  | constant v =>
    cases v with
    | scalar s =>
      cases s with
      | null => rfl
      | _ => cases h
    | _ => cases h
  | _ => cases h

theorem numberOf_of_operandOf_eq_none {row : List Entry} (h : operandOf row = none) : numberOf row = none := by
  cases row with
  | nil => rfl
  | cons x rest =>
    rw [operandOf_cons, Entry.unlessNull] at h
    split at h
    · rename_i hnull
      exact Entry.number?_of_isNull hnull
    · cases h

namespace Sample

variable {aggregate : String} {x : Entry} {s next : Sample}

/-- With the number of an operand behind the others. -/
def addPlain (s : Sample) (x : Entry) : Sample := { s with numbers := s.numbers ++ x.number?.toList }

theorem offer_plain_eq_ok : s.offer aggregate false x = .ok next ↔
    (x.isNull = true ∨ x.number?.isSome = true) ∧ s.addPlain x = next := by
  cases x with
  | constant v =>
    have hnumber : (Entry.constant v).number? = v.asDouble := rfl
    cases hn : v.isNull with
    | true =>
      have hnone : v.asDouble = none := Entry.number?_of_isNull (x := .constant v) hn
      simp [offer, numericOperand, addPlain, Entry.isNull, hnumber, hn, hnone, bind, Except.bind, pure, Except.pure]
    | false =>
      cases hd : v.asDouble <;>
        simp [offer, numericOperand, addPlain, add, Entry.isNull, hnumber, hn, hd, bind, Except.bind, pure, Except.pure]
  | _ => simp [offer, numericOperand, Entry.isNull, Entry.number?, Entry.asConstant, bind, Except.bind]

end Sample

end GraphQuery
