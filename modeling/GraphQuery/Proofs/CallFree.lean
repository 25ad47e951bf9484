import GraphQuery.Proofs.Walks
import GraphQuery.Evaluation.Basic

/-! Expressions in which no aggregate call stands. They give the same while calls run as before, and
they are what an accepted item has as operands of its calls. -/

namespace GraphQuery

namespace Environment

variable (env : Environment) (slots : Slots)

theorem resolveWithin_slots (scope : Scope) (depth : Nat) (name : String) :
    { env with slots }.resolveWithin scope depth name = env.resolveWithin scope depth name := by
  induction depth generalizing name with
  | zero => rfl
  | succ depth ih =>
    have hbelow : { env with slots }.resolveWithin scope depth = env.resolveWithin scope depth := funext ih
    simp only [resolveWithin, hbelow]
    rfl

/-- Only calls read what the calls have taken. -/
theorem evaluateNode_slots {shape : Node Meaning} (h : shape.isAggregate = false) (id : ExprId) :
    evaluateNode { env with slots } id shape = evaluateNode env id shape := by
  cases shape with
  | aggregate function distinct args => cases h
  | reference name =>
    funext scope
    exact env.resolveWithin_slots slots scope _ name
  | _ => rfl

end Environment

theorem Node.isAggregate_mapChildren {α β : Type} (f : α → β) (shape : Node α) :
    (shape.mapChildren f).isAggregate = shape.isAggregate := by
  cases shape <;> rfl

namespace Expr

/-- Whether no aggregate call stands in an expression, registered or not. -/
def callFree (e : Expr) : Bool :=
  e.fold (fun _ shape below => !shape.isAggregate && below.children.all fun free => free) fun _ => true

variable {id : ExprId} {shape : Node Expr}

theorem callFree_node :
    (node id shape).callFree = true ↔
      shape.isAggregate = false ∧ ∀ child ∈ shape.children, child.callFree = true := by
  rw [callFree, fold_node, Node.children_mapChildren, List.all_map]
  simp [callFree]

theorem meaning_slots (env : Environment) (slots : Slots) {e : Expr} (h : e.callFree = true) :
    e.meaning { env with slots } = e.meaning env := by
  induction e using Expr.induction with
  | dangling id => rfl
  | node id shape ih =>
    obtain ⟨hshape, hchildren⟩ := callFree_node.mp h
    have hbelow : shape.mapChildren (meaning { env with slots }) = shape.mapChildren (meaning env) :=
      Node.mapChildren_congr fun child hchild => ih child hchild (hchildren child hchild)
    have hnode : (shape.mapChildren (meaning env)).isAggregate = false := by
      rwa [Node.isAggregate_mapChildren]
    calc (node id shape).meaning { env with slots }
        = evaluateNode { env with slots } id (shape.mapChildren (meaning { env with slots })) :=
          meaning_node _ id shape
      _ = evaluateNode env id (shape.mapChildren (meaning env)) := by
          rw [hbelow, env.evaluateNode_slots slots hnode]
      _ = (node id shape).meaning env := (meaning_node env id shape).symm

theorem evaluate_slots (env : Environment) (slots : Slots) {e : Expr} (h : e.callFree = true) :
    e.evaluate { env with slots } = e.evaluate env :=
  congrFun (meaning_slots env slots h) []

variable {here : Surroundings}

theorem nested_node (h : ((node id shape).findingsIn here).nested = none) :
    (Visit.findings ⟨here, id, shape⟩).nested = none ∧
      ∀ (i : Nat) (child : Expr), shape.children[i]? = some child →
        (child.findingsIn (shape.around here i)).nested = none := by
  rw [findingsIn_node] at h
  obtain ⟨hown, hbelow⟩ := Option.or_eq_none_iff.mp h
  rw [Findings.nested_join, List.findSome?_eq_none_iff] at hbelow
  refine ⟨hown, fun i child hi => hbelow _ (List.mem_of_getElem? (i := i) ?_)⟩
  rw [List.getElem?_mapIdx, hi, Option.map_some]

/-- Below a call without nesting there are no calls. -/
theorem nested_below (h : ((node id shape).findingsIn here).nested = none) (hcall : here.call.isSome = true) :
    shape.isAggregate = false ∧
      ∀ child ∈ shape.children, ∃ inside, inside.call.isSome = true ∧ (child.findingsIn inside).nested = none := by
  obtain ⟨hown, hbelow⟩ := nested_node h
  constructor
  · cases shape with
    | aggregate function distinct args =>
      obtain ⟨outer, houter⟩ := Option.isSome_iff_exists.mp hcall
      simp [Visit.findings, houter] at hown
    | _ => rfl
  · intro child hchild
    obtain ⟨i, hi⟩ := List.getElem?_of_mem hchild
    exact ⟨shape.around here i, by simp [Node.call_around, hcall], hbelow i child hi⟩

theorem callFree_of_nested (e : Expr) (h : (e.findingsIn here).nested = none) (hcall : here.call.isSome = true) :
    e.callFree = true := by
  -- over all surroundings inside of a call, since comprehensions bind variables on the way down
  induction e using Expr.induction generalizing here with
  | dangling id => rfl
  | node id shape ih =>
    obtain ⟨hshape, hbelow⟩ := nested_below h hcall
    refine callFree_node.mpr ⟨hshape, fun child hchild => ?_⟩
    obtain ⟨inside, hinside, hnested⟩ := hbelow child hchild
    exact ih child hchild hnested hinside

/-- The operands of an outermost call of an accepted item. -/
theorem callFree_of_validate {function : String} {distinct : Bool} {args : List Expr}
    (h : (node id (.aggregate function distinct args)).findings.validate = .ok ()) :
    ∀ arg ∈ args, arg.callFree = true := by
  intro arg harg
  obtain ⟨i, hi⟩ := List.getElem?_of_mem harg
  obtain ⟨-, hbelow⟩ := nested_node (Findings.validate_eq_ok_iff.mp h).1
  exact arg.callFree_of_nested (hbelow i arg hi) rfl

end Expr

end GraphQuery
