import Mathlib.Data.List.Induction
import GraphQuery.Evaluation.Basic
import GraphQuery.Proofs.ValueOrder

/-! What DISTINCT keeps of a list of values: those that equal none before them. Sets hold these, and
counts with DISTINCT count them. -/

namespace GraphQuery

namespace Value

theorem equal_refl (v : Value) : v.equal v = true := (equal_iff v v).mpr Std.ReflCmp.compare_self

theorem equal_comm (v w : Value) : v.equal w = w.equal v := by
  rw [Bool.eq_iff_iff, equal_iff, equal_iff]
  exact Std.OrientedCmp.eq_comm

theorem equal_trans {u v w : Value} (h : u.equal v = true) (h' : v.equal w = true) : u.equal w = true := by
  rw [equal_iff] at *
  exact Std.TransCmp.eq_trans h h'

end Value

section Repetitions

variable {α : Type} (again : α → α → Bool) (as : List α) (a : α)

/-- The elements that repeat none before them, in order. -/
def keepFirst : List α :=
  (as.zipIdx.filter fun p => !(as.take p.2).any fun b => again b p.1).map Prod.fst

theorem keepFirst_concat :
    keepFirst again (as ++ [a]) = keepFirst again as ++ if as.any fun b => again b a then [] else [a] := by
  have hbefore : ∀ p ∈ as.zipIdx, (as ++ [a]).take p.2 = as.take p.2 := by
    intro p hp
    have hlt : p.2 < as.length := (List.mem_zipIdx' hp).1
    exact List.take_append_of_le_length hlt.le
  rw [keepFirst, keepFirst, List.zipIdx_append, List.filter_append, List.map_append]
  congr 1
  · refine congrArg _ (List.filter_congr fun p hp => ?_)
    rw [hbefore p hp]
  · cases hany : as.any fun b => again b a <;> simp [hany]

end Repetitions

/-- The values that equal none before them, in order. -/
def firstOccurrences (values : List Value) : List Value := keepFirst Value.equal values

section Lists

variable (values : List Value) (v : Value)

theorem distinctValues_concat : distinctValues (values ++ [v]) =
    if (distinctValues values).any fun k => k.equal v then distinctValues values
    else distinctValues values ++ [v] := by
  simp only [distinctValues, List.foldl_append, List.foldl_cons, List.foldl_nil]
  rfl

theorem firstOccurrences_concat : firstOccurrences (values ++ [v]) =
    firstOccurrences values ++ if values.any fun u => u.equal v then [] else [v] :=
  keepFirst_concat Value.equal values v

/-- A value that is left out equals one that is kept. -/
theorem any_distinctValues :
    ((distinctValues values).any fun k => k.equal v) = values.any fun u => u.equal v := by
  induction values using List.reverseRecOn with
  | nil => rfl
  | append_singleton values u ih =>
    rw [distinctValues_concat, List.any_append, ← ih]
    split
    · rename_i hold
      obtain ⟨k, hk, hku⟩ := List.any_eq_true.mp hold
      have himp : u.equal v = true → ((distinctValues values).any fun k => k.equal v) = true := fun huv =>
        List.any_eq_true.mpr ⟨k, hk, Value.equal_trans hku huv⟩
      cases huv : u.equal v with
      | false => simp [huv]
      | true => simp [himp huv]
    · rw [List.any_append]

theorem distinctValues_eq : distinctValues values = firstOccurrences values := by
  induction values using List.reverseRecOn with
  | nil => rfl
  | append_singleton values v ih =>
    rw [distinctValues_concat, firstOccurrences_concat, any_distinctValues, ih]
    split <;> simp

theorem distinctValues_pair (x y : Value) : distinctValues [x, y] = if x.equal y then [x] else [x, y] := by
  cases hxy : x.equal y <;> simp [distinctValues, hxy]

end Lists

/-- The values that a count takes. -/
def nonNull (values : List Value) : List Value := values.filter fun v => !v.isNull

namespace Evaluator

/-- The operand gives a value on a row, in every state of the aggregate calls. -/
def Gives (symbols : SymbolTable) (ctx : Context) (operand : Expr) (row : Record) (v : Value) : Prop :=
  ∀ slots, operand.evaluate ⟨symbols, ctx, row, slots⟩ = .ok (.constant v)

end Evaluator

end GraphQuery
