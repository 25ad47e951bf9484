import GraphQuery.Proofs.CallFree
import GraphQuery.Proofs.OutputRow
import GraphQuery.Proofs.ReducedCalls

/-! Items that are classified by the calls found in them, and evaluators that keep accumulators for
calls. Both walk the same tree in different ways, and agree on which calls there are. -/

namespace GraphQuery

theorem map_mapIdx_eq {α β γ : Type} {f : Nat → α → β} {g : β → γ} {h : α → γ} {l : List α}
    (hf : ∀ i, ∀ a ∈ l, g (f i a) = h a) : (l.mapIdx f).map g = l.map h := by
  refine List.ext_getElem? fun i => ?_
  rw [List.getElem?_map, List.getElem?_mapIdx, List.getElem?_map, Option.map_map]
  exact Option.map_congr fun a ha => hf i a (List.mem_of_getElem? ha)

namespace Expr

variable {id : ExprId} {shape : Node Expr} {here : Surroundings}

theorem aggregates_findingsIn_node :
    ((node id shape).findingsIn here).aggregates = (if shape.isCall then [id] else []) ++
      (shape.children.mapIdx fun i child => child.findingsIn (shape.around here i)).flatMap
        Findings.aggregates := by
  rw [findingsIn_node, ← Findings.aggregates_join]
  exact congrArg (· ++ _) (Visit.aggregates_findings _)

/-- Which calls are found does not depend on what is around. -/
theorem aggregates_findingsIn (e : Expr) (here : Surroundings) :
    (e.findingsIn here).aggregates = e.findings.aggregates := by
  induction e using Expr.induction generalizing here with
  | dangling id => rfl
  | node id shape ih =>
    have hbelow (here : Surroundings) := map_mapIdx_eq fun i child hchild => ih child hchild (shape.around here i)
    -- both sides list the calls of the children as their own walks do
    change _ = ((node id shape).findingsIn ⟨none, []⟩).aggregates
    rw [aggregates_findingsIn_node, aggregates_findingsIn_node, List.flatMap, List.flatMap, hbelow, hbelow]

theorem aggregates_findings_node :
    (node id shape).findings.aggregates = (if shape.isCall then [id] else []) ++
      shape.children.flatMap fun child => child.findings.aggregates := by
  have hbelow := map_mapIdx_eq (l := shape.children) fun i child _ =>
    child.aggregates_findingsIn (shape.around ⟨none, []⟩ i)
  change ((node id shape).findingsIn ⟨none, []⟩).aggregates = _
  rw [aggregates_findingsIn_node, List.flatMap, hbelow, List.flatMap]

theorem aggregates_findings_eq_nil_iff (e : Expr) :
    e.findings.aggregates = [] ↔ e.outermostAggregates = [] := by
  induction e using Expr.induction with
  | dangling id => exact ⟨fun _ => rfl, fun _ => rfl⟩
  | node id shape ih =>
    rw [aggregates_findings_node]
    by_cases hc : shape.isCall = true
    · obtain ⟨name, distinct, args, function, rfl, hf⟩ := Node.exists_of_isCall hc
      simp [hc, outermostAggregates_of_call hf]
    · rw [Bool.not_eq_true] at hc
      rw [outermostAggregates_of_not_call hc, hc, if_neg Bool.false_ne_true, List.nil_append,
        List.flatMap_eq_nil_iff, List.flatMap_eq_nil_iff]
      exact forall₂_congr ih

theorem outermostAggregates_of_callFree (e : Expr) (h : e.callFree = true) : e.outermostAggregates = [] := by
  induction e using Expr.induction with
  | dangling id => rfl
  | node id shape ih =>
    obtain ⟨hshape, hchildren⟩ := callFree_node.mp h
    have hc : shape.isCall = false := by
      cases shape with
      | aggregate name distinct args => cases hshape
      | _ => rfl
    rw [outermostAggregates_of_not_call hc, List.flatMap_eq_nil_iff]
    exact fun child hchild => ih child hchild (hchildren child hchild)

/-- Without nesting every call is an outermost one. -/
theorem aggregates_findings_eq (e : Expr) (h : (e.findingsIn here).nested = none) :
    e.findings.aggregates = e.outermostAggregates.map (·.id) := by
  -- over all surroundings, since those of a child are not those of its parent
  induction e using Expr.induction generalizing here with
  | dangling id => rfl
  | node id shape ih =>
    obtain ⟨-, hbelow⟩ := nested_node h
    rw [aggregates_findings_node]
    by_cases hc : shape.isCall = true
    · obtain ⟨name, distinct, args, function, rfl, hf⟩ := Node.exists_of_isCall hc
      have hargs : args.flatMap (fun arg => arg.findings.aggregates) = [] := by
        refine List.flatMap_eq_nil_iff.mpr fun arg harg => ?_
        obtain ⟨i, hi⟩ := List.getElem?_of_mem harg
        have hfree : arg.callFree = true := arg.callFree_of_nested (hbelow i arg hi) (by simp [Node.call_around,
          Node.callName?])
        exact arg.aggregates_findings_eq_nil_iff.mpr (arg.outermostAggregates_of_callFree hfree)
      rw [outermostAggregates_of_call hf, if_pos hc, Node.children, hargs]
      rfl
    · rw [Bool.not_eq_true] at hc
      rw [outermostAggregates_of_not_call hc, hc, if_neg Bool.false_ne_true, List.nil_append, List.map_flatMap]
      refine List.flatMap_congr fun child hchild => ?_
      obtain ⟨i, hi⟩ := List.getElem?_of_mem hchild
      exact ih child hchild (hbelow i child hi)

theorem containsAggregation_iff (e : Expr) : e.containsAggregation = true ↔ e.outermostAggregates ≠ [] := by
  rw [containsAggregation, Bool.not_eq_true', List.isEmpty_eq_false_iff, Ne, Ne, aggregates_findings_eq_nil_iff]

end Expr

namespace Evaluator

variable {e : Evaluator}

theorem root_stepAll (ctx : Context) (row : Record) (calls : List AggregateCall) (e : Evaluator) :
    (stepAll ctx row calls e).2.root = e.root := by
  have hstep : ∀ (e : Evaluator) (call : AggregateCall), (e.step ctx row call).2.root = e.root := fun e call => by
    rw [step]
    dsimp only
    split <;> rfl
  induction calls generalizing e with
  | nil => rfl
  | cons call calls ih =>
    have hcall := hstep e call
    rw [stepAll]
    cases hs : e.step ctx row call with
    | mk result next =>
      rw [hs] at hcall
      cases result with
      | ok _ => exact (ih next).trans hcall
      | error fault => exact hcall

theorem root_after (e : Evaluator) (requests : List Request) : (e.after requests).root = e.root := by
  induction requests generalizing e with
  | nil => rfl
  | cons request requests ih =>
    rw [after_cons, ih]
    cases request with
    | aggregate ctx row => exact root_stepAll ctx row _ e
    | _ => rfl

theorem after_of_no_calls (h : e.root.outermostAggregates = []) (hs : e.slots = []) (requests : List Request) :
    e.after requests = e := by
  induction requests with
  | nil => rfl
  | cons request requests ih =>
    have hserve : (e.serve request).2 = e := by
      cases request with
      | aggregate ctx row => rw [serve_aggregate_snd, aggregate, h, stepAll]
      | evaluate ctx row => rfl
      | reduce =>
        change e.reduce = e
        rw [reduce, h, List.foldl_nil, hs, List.map_nil, ← hs]
    rw [after_cons, hserve, ih]

end Evaluator

/-- The calls by which an item is classified are those that its evaluator keeps. An item of the key never
keeps anything, and an aggregated one keeps each of its calls as soon as it took a row or is reduced. The
arena is one without a cycle, as for every `Arena.tree`. -/
theorem classification_agrees_with_kept_calls (a : Arena) (root : ExprId) :
    let e := a.tree root
    (e.containsAggregation = true ↔ e.outermostAggregates ≠ []) ∧
      ((∀ shape, e.findings.validate ≠ .error (.nestedAggregate shape)) →
        e.findings.aggregates = e.outermostAggregates.map (·.id)) ∧
      ∀ (symbols : SymbolTable) (config : AggregateConfig) (items : List ReturnItem) (s : Grouping),
        Grouping.ofItems symbols config items = .ok s →
          (∀ p ∈ s.keys, p.2.root.outermostAggregates = [] ∧
            ∀ requests, (p.2.after requests).slots = []) ∧
          ∀ p ∈ s.aggregated, p.2.root.outermostAggregates ≠ [] ∧
            ∀ requests, ∀ call ∈ p.2.root.outermostAggregates,
              (∀ ctx row, ((p.2.after requests).aggregate ctx row).1 = .ok () →
                ∃ acc, List.lookup call.id ((p.2.after requests).aggregate ctx row).2.slots =
                  some (.running acc)) ∧
              ∃ result, List.lookup call.id (p.2.after requests).reduce.slots = some (.finished result) := by
  intro e
  refine ⟨e.containsAggregation_iff, fun hvalid => ?_, fun symbols config items s hs => ⟨?_, ?_⟩⟩
  · have hnested : (e.findingsIn ⟨none, []⟩).nested = none :=
      Option.eq_none_iff_forall_ne_some.mpr fun shape hshape =>
        hvalid shape (Findings.validate_eq_nested_iff.mpr hshape)
    exact e.aggregates_findings_eq hnested
  · intro p hp
    rw [(Grouping.isOf_of_ofItems hs).keys_eq] at hp
    obtain ⟨i, item, -, hkey, rfl⟩ := mem_columnsOf.mp hp
    have hnone : item.expression.outermostAggregates = [] := by
      by_contra hne
      simp [ReturnItem.aggregates, item.expression.containsAggregation_iff.mpr hne] at hkey
    refine ⟨hnone, fun requests => ?_⟩
    rw [Evaluator.after_of_no_calls hnone rfl]
    rfl
  · intro p hp
    rw [(Grouping.isOf_of_ofItems hs).aggregated_eq] at hp
    obtain ⟨i, item, -, haggregated, rfl⟩ := mem_columnsOf.mp hp
    refine ⟨item.expression.containsAggregation_iff.mp haggregated, fun requests call hcall => ⟨?_, ?_⟩⟩
    · intro ctx row hrow
      have hroot := Evaluator.root_after (.ofExpr symbols item.expression) requests
      refine Evaluator.stepAll_exists_running (Prod.ext hrow rfl) ?_
      rw [hroot]
      exact hcall
    · refine Evaluator.exists_lookup_reduce ?_
      rw [Evaluator.root_after]
      exact hcall

/-- A name, and the double of one count. -/
def doubleCountByName : Arena :=
  ⟨#[.reference "x", .aggregate "count" false [], .binary (.arithmetic .add) 1 1]⟩

theorem doubleCountByName_classified :
    let items : List ReturnItem := [⟨doubleCountByName.tree 0, "x"⟩, ⟨doubleCountByName.tree 2, "n"⟩]
    (doubleCountByName.tree 2).outermostAggregates.map (·.id) = [1, 1] ∧
      ∃ s, Grouping.ofItems .empty .default items = .ok s ∧
        (∀ p ∈ s.keys, ∀ requests, (p.2.after requests).slots = []) ∧
        ∀ p ∈ s.aggregated, ∀ requests, ∀ call ∈ p.2.root.outermostAggregates,
          ∃ result, List.lookup call.id (p.2.after requests).reduce.slots = some (.finished result) := by
  intro items
  obtain ⟨s, hs⟩ : ∃ s, Grouping.ofItems .empty .default items = .ok s := ⟨_, rfl⟩
  obtain ⟨-, hlists, hitems⟩ := classification_agrees_with_kept_calls doubleCountByName 2
  have hvalid : (doubleCountByName.tree 2).findings.validate = .ok () := rfl
  obtain ⟨hkeys, haggregated⟩ := hitems _ _ _ _ hs
  refine ⟨(hlists fun shape => by simp [hvalid]).symm, s, hs, fun p hp => (hkeys p hp).2, ?_⟩
  exact fun p hp requests call hcall => ((haggregated p hp).2 requests call hcall).2

end GraphQuery
