import GraphQuery.Proofs.RelatedEvaluation

/-! Evaluation while aggregate calls start to run. A running call has no result yet, so evaluation
may fail where it succeeded before; where it still succeeds its result is the same. -/

namespace GraphQuery

open Outcome (Extends)

/-- Slots in which more calls run than before, and nothing else changed. -/
def Slots.Grow (before after : Slots) : Prop :=
  ∀ id, List.lookup id after = List.lookup id before ∨ ∃ acc, List.lookup id after = some (.running acc)

theorem Environment.aggregateResult_extends {env : Environment} {slots : Slots}
    (hg : env.slots.Grow slots) (id : ExprId) (function : String) :
    Extends (env.aggregateResult id function) ({ env with slots }.aggregateResult id function) := by
  intro result h
  rcases hg id with he | ⟨acc, he⟩
  · rwa [aggregateResult, ← he]
  · rw [aggregateResult, he] at h
    cases h

theorem Environment.related_of_grow {env : Environment} {slots : Slots} (hg : env.slots.Grow slots) :
    env.Related .any Eq { env with slots } where
  symbols := rfl
  parameters := rfl
  plugins := rfl
  pluginFaults := fun _ _ _ _ _ _ => trivial
  entries := .same_graph (T := .any) (fun _ _ => trivial) _
  results := fun id function => Outcome.Related.any_iff.mpr (aggregateResult_extends hg id function)

theorem Expr.meaning_extends {env : Environment} {slots : Slots} (hg : env.slots.Grow slots) (e : Expr)
    (scope : Scope) : Extends (e.meaning env scope) (e.meaning { env with slots } scope) :=
  Outcome.Related.any_iff.mp <| e.meaning_related (Environment.related_of_grow hg) (fun _ _ => rfl)
    fun _ _ _ => .inr (.of_eq fun _ _ => rfl)

theorem stepArguments_extends (env : Environment) {slots : Slots} (hg : env.slots.Grow slots)
    (call : AggregateCall) :
    Extends (Evaluator.stepArguments env call) (Evaluator.stepArguments { env with slots } call) := by
  by_cases hrows : call.args = [] ∧ call.function = .count
  · rw [Evaluator.stepArguments_mark env hrows.1 hrows.2, Evaluator.stepArguments_mark _ hrows.1 hrows.2]
    exact .refl _
  · rw [Evaluator.stepArguments_operands env hrows, Evaluator.stepArguments_operands _ hrows]
    exact .map (.mapM fun arg _ => arg.meaning_extends hg []) _

end GraphQuery
