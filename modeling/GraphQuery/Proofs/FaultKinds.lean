import GraphQuery.Evaluation.Basic
import GraphQuery.Proofs.Outcome

/-! What evaluation can fail with. Operators and functions fail with faults of what they are applied to,
never with a broken invariant. -/

namespace GraphQuery

/-- Fails only with faults of what it is applied to. -/
abbrev Outcome.Ordinary {α : Type} (x : Outcome α) : Prop :=
  x.FailsWith fun fault => ∀ detail, fault ≠ .internalInvariant detail

/-- Faults of one kind differ in their texts only. -/
def Error.SameKind (fault fault' : Error) : Prop := fault.ctorIdx = fault'.ctorIdx

open Outcome (Ordinary FailsWith Tolerance)

@[simp]
theorem argumentMismatch_ne (function expected : String) (arg : Entry) (detail : String) :
    argumentMismatch function expected arg ≠ .internalInvariant detail := nofun

@[simp]
theorem wrongCount_ne (function : String) (expected : Nat) (args : List Entry) (detail : String) :
    wrongCount function expected args ≠ .internalInvariant detail := nofun

theorem narrowNumbers_ordinary (items : List Value) : Ordinary (narrowNumbers items) := by
  induction items with
  | nil => simp [narrowNumbers]
  | cons v rest ih =>
    rw [narrowNumbers]
    split
    · exact .bind ih fun _ _ => by simp
    · simp

theorem momentField_ordinary (t : DateTime) (component : String) : Ordinary (momentField t component) := by
  rw [momentField.eq_def]
  split <;> simp

section Operators

variable (a b : Value)

@[simp]
theorem mismatch_ne (operation detail : String) : a.mismatch operation b ≠ .internalInvariant detail := nofun

theorem integerArithmetic_ordinary {op : ArithmeticOp} (hop : op ≠ .pow) (m n : Int64) :
    Ordinary (integerArithmetic op m n) := by
  cases op with
  | pow => exact absurd rfl hop
  | _ =>
    dsimp only [integerArithmetic]
    repeat' split
    all_goals simp

theorem realArithmetic_ordinary (op : ArithmeticOp) (x y : Double) : Ordinary (realArithmetic op x y) := by
  cases op <;> simp only [realArithmetic] <;> repeat' split
  all_goals simp

theorem arithmeticNumbers_ordinary (op : ArithmeticOp) : Ordinary (Value.arithmeticNumbers op a b) := by
  rw [Value.arithmeticNumbers]
  split
  · split
    · split
      · exact (realArithmetic_ordinary _ _ _).map _
      · exact (integerArithmetic_ordinary ‹_› _ _).map _
    · exact (realArithmetic_ordinary _ _ _).map _
  · simp

theorem arithmetic_ordinary (op : ArithmeticOp) : Ordinary (a.arithmetic op b) := by
  have hjoin : ∀ joined, a.join b = some joined → Ordinary joined := by
    intro joined h
    rw [Value.join.eq_def] at h
    repeat' split at h
    all_goals cases h
    all_goals simp
  rw [Value.arithmetic]
  split
  · simp
  · split
    · split
      · exact hjoin _ ‹_›
      · exact arithmeticNumbers_ordinary a b op
    · exact arithmeticNumbers_ordinary a b op

theorem truthValue_ordinary (operation : String) : Ordinary (truthValue operation a) := by
  rw [truthValue]
  repeat' split
  all_goals simp

theorem compareBy_ordinary (op : Comparison) : Ordinary (a.compareBy op b) := by
  rw [Value.compareBy]
  repeat' split
  all_goals simp

theorem UnaryOp.apply_ordinary (op : UnaryOp) : Ordinary (op.apply a) := by
  cases op with
  | not => exact .bind (truthValue_ordinary a _) fun _ _ => by simp
  | negate =>
    rw [UnaryOp.apply, Value.neg]
    repeat' split
    all_goals simp

theorem LogicOp.apply_ordinary (op : LogicOp) : Ordinary (op.apply a b) := by
  cases op
  all_goals
    exact .bind (truthValue_ordinary a _) fun _ _ => .bind (truthValue_ordinary b _) fun _ _ => by simp

theorem BinaryOp.apply_ordinary (op : BinaryOp) : Ordinary (op.apply a b) := by
  cases op with
  | arithmetic op => exact arithmetic_ordinary a b op
  | logic op => exact LogicOp.apply_ordinary a b op
  | comparison op => exact compareBy_ordinary a b op
  | membership =>
    rw [BinaryOp.apply, GraphQuery.membership]
    repeat' split
    all_goals simp
  | bitwise op => simp [BinaryOp.apply]

end Operators

def unboundInCollection : Error := .internalInvariant "unbound value in collection"

/-- What evaluation of a node can fail with by itself. -/
inductive Error.Raised : Error → Prop where
  | ordinary {fault : Error} (h : ∀ detail, fault ≠ .internalInvariant detail) : Raised fault
  | unbound : Raised unboundInCollection
  | dangling (id : ExprId) : Raised (outOfRange id)

namespace Outcome.Tolerance

variable {T : Tolerance} {α : Type} {x : Outcome α}

def AcceptsRaised (T : Tolerance) : Prop := ∀ fault : Error, fault.Raised → T.Accepts fault

theorem AcceptsRaised.of_ordinary (hT : T.AcceptsRaised) (hx : x.Ordinary) : FailsWith T.Accepts x :=
  hx.imp fun fault hf => hT fault (.ordinary hf)

end Outcome.Tolerance

end GraphQuery
