import GraphQuery.Proofs.CallPaths

/-! Walks over a tree as lists of visits. What a walk finds in a tree is what it finds at its visits,
one after the other. -/

namespace GraphQuery

namespace Findings

theorem append_assoc (f g h : Findings) : (f.append g).append h = f.append (g.append h) := by
  simp [append, Option.or_assoc, Bool.or_assoc]

theorem join_cons (f : Findings) (all : List Findings) : join (f :: all) = f.append (join all) := rfl

theorem join_append (all rest : List Findings) : join (all ++ rest) = (join all).append (join rest) := by
  induction all with
  | nil => rfl
  | cons f all ih => rw [List.cons_append, join_cons, join_cons, ih, append_assoc]

theorem join_flatMap {α : Type} (f : α → List Findings) (as : List α) :
    join (as.flatMap f) = join (as.map fun a => join (f a)) := by
  induction as with
  | nil => rfl
  | cons a as ih => rw [List.flatMap_cons, join_append, List.map_cons, join_cons, ih]

theorem aggregates_join (all : List Findings) : (join all).aggregates = all.flatMap aggregates := by
  induction all with
  | nil => rfl
  | cons f all ih =>
    rw [List.flatMap_cons, ← ih]
    rfl

theorem nested_join (all : List Findings) : (join all).nested = all.findSome? nested := by
  induction all with
  | nil => rfl
  | cons f all ih =>
    rw [List.findSome?_cons, ← ih]
    change f.nested.or (join all).nested = _
    cases f.nested <;> rfl

theorem outsideVariable_join (all : List Findings) :
    (join all).outsideVariable = all.any outsideVariable := by
  induction all with
  | nil => rfl
  | cons f all ih =>
    rw [List.any_cons, ← ih]
    rfl

section Verdicts

variable {f : Findings} {shape : String}

theorem validate_eq_nested_iff : f.validate = .error (.nestedAggregate shape) ↔ f.nested = some shape := by
  rw [validate]
  cases f.nested with
  | some shape => simp
  | none =>
    dsimp only
    split <;> simp

theorem validate_eq_mixed_iff :
    f.validate = .error (.mixedAggregateScope mixedScope) ↔
      f.nested = .none ∧ f.aggregates ≠ [] ∧ f.outsideVariable = true := by
  rw [validate]
  cases f.nested <;> simp

theorem validate_eq_ok_iff :
    f.validate = .ok () ↔ f.nested = .none ∧ ¬ (f.aggregates ≠ [] ∧ f.outsideVariable = true) := by
  rw [validate]
  cases f.nested <;> simp

end Verdicts

end Findings

/-- The surroundings of the child with a number. -/
def Node.around {α : Type} (here : Surroundings) : Node α → Nat → Surroundings
  | .aggregate function _ _, _ => { here with call := here.call.or (some function) }
  | .comprehension binder _ _ _, _ + 1 => { here with bound := binder :: here.bound }
  | _, _ => here

theorem Node.around_mapChildren {α β : Type} (here : Surroundings) (f : α → β) (node : Node α) :
    (node.mapChildren f).around here = node.around here := by
  funext i
  cases node <;> cases i <;> rfl

namespace Node

variable {α : Type}

/-- The name of an aggregate call, registered or not. -/
def callName? : Node α → Option String
  | aggregate name _ _ => some name
  | _ => none

theorem callName?_eq_some {node : Node α} {name : String} :
    node.callName? = some name ↔ ∃ distinct args, node = .aggregate name distinct args := by
  cases node <;> simp [callName?]

theorem call_around (here : Surroundings) (node : Node α) (i : Nat) :
    (node.around here i).call = here.call.or node.callName? := by
  cases node <;> cases i <;> simp [around, callName?]

theorem mem_bound_around {here : Surroundings} {node : Node α} {i : Nat} {x : String} :
    x ∈ (node.around here i).bound ↔ x ∈ here.bound ∨
      ∃ j list filter projection, i = j + 1 ∧ node = .comprehension x list filter projection := by
  cases node with
  | comprehension binder list filter projection =>
    cases i with
    | zero => simp [around]
    | succ j => simp [around, or_comm, eq_comm]
  | _ => simp [around]

end Node

/-- A node that a walk meets, and what surrounds it. -/
structure Visit where
  around : Surroundings
  id : ExprId
  shape : Node Expr

namespace Visit

/-- What is found at the node itself. -/
def findings (v : Visit) : Findings :=
  match v.shape with
  | .aggregate function _ _ =>
    { aggregates := if isAggregateName function then [v.id] else []
      nested := v.around.call.map fun outer => outer ++ "(" ++ function ++ "(...))"
      outsideVariable := false }
  | .property base _ =>
    { aggregates := []
      nested := none
      outsideVariable := v.around.call.isNone && !isBoundVariable v.around.bound base }
  | _ => .none

theorem aggregates_findings (v : Visit) : v.findings.aggregates = if v.shape.isCall then [v.id] else [] := by
  obtain ⟨around, id, shape⟩ := v
  cases shape <;> rfl

end Visit

def visitsAt (id : ExprId) (shape : Node Expr) (below : Node (Surroundings → List (Path × Visit)))
    (here : Surroundings) : List (Path × Visit) :=
  ([], ⟨here, id, shape⟩) ::
    numbered (below.children.mapIdx fun i visits => visits (shape.around here i))

theorem mapIdx_const {α β : Type} (f : α → β) (as : List α) : as.mapIdx (fun _ a => f a) = as.map f :=
  List.ext_getElem? fun i => by rw [List.getElem?_mapIdx, List.getElem?_map]

namespace Expr

/-- What a walk finds in an expression when it starts in these surroundings. -/
def findingsIn (here : Surroundings) (e : Expr) : Findings := e.fold findAt (fun _ _ => Findings.none) here

/-- The visits of a walk with their places, each node before its children. -/
def visits (here : Surroundings) (e : Expr) : List (Path × Visit) := e.fold visitsAt (fun _ _ => []) here

variable {id : ExprId} {shape : Node Expr} {here : Surroundings}

/-- A walk finds what the node itself shows, and then what it finds below each child. -/
theorem findingsIn_node :
    (node id shape).findingsIn here = (Visit.findings ⟨here, id, shape⟩).append
      (Findings.join (shape.children.mapIdx fun i child => child.findingsIn (shape.around here i))) := by
  have hbelow : ∀ (inside : Surroundings) (children : List Expr),
      Findings.join ((children.map (fold findAt fun _ _ => Findings.none)).map fun find => find inside) =
        Findings.join (children.mapIdx fun _ child => child.findingsIn inside) := fun inside children => by
    rw [mapIdx_const, List.map_map]
    rfl
  have hchildren := hbelow here shape.children
  rw [← Node.children_mapChildren] at hchildren
  rw [findingsIn, fold_node]
  cases shape with
  | aggregate function distinct args => exact congrArg (Findings.append _) (hbelow _ args)
  | property base name => exact congrArg (Findings.append _) hchildren
  | comprehension binder a filter projection =>
    have hinside := hbelow { here with bound := binder :: here.bound } (filter.toList ++ projection.toList)
    rw [List.map_append, ← Option.toList_map, ← Option.toList_map] at hinside
    rw [Node.children, List.append_assoc, List.singleton_append, List.mapIdx_cons]
    exact congrArg (Findings.append _) hinside
  | _ => exact hchildren

theorem visits_node :
    (node id shape).visits here = ([], ⟨here, id, shape⟩) ::
      numbered (shape.children.mapIdx fun i child => child.visits (shape.around here i)) := by
  rw [visits, fold_node, visitsAt, Node.children_mapChildren]
  simp only [List.mapIdx_eq_zipIdx_map, List.zipIdx_map, List.map_map]
  rfl

theorem findingsIn_eq_join (e : Expr) :
    e.findingsIn here = Findings.join ((e.visits here).map fun p => p.2.findings) := by
  induction e using Expr.induction generalizing here with
  | dangling id => rfl
  | node id shape ih =>
    have hbelow : (shape.children.mapIdx fun i child => child.findingsIn (shape.around here i)) =
        (shape.children.mapIdx fun i child => child.visits (shape.around here i)).map fun visits =>
          Findings.join (visits.map fun p => p.2.findings) := by
      refine List.ext_getElem? fun i => ?_
      rw [List.getElem?_map, List.getElem?_mapIdx, List.getElem?_mapIdx, Option.map_map]
      exact Option.map_congr fun child hchild => ih child (List.mem_of_getElem? hchild)
    have hvisits (places : List (List (Path × Visit))) :
        (numbered places).map (fun p => p.2.findings) =
          places.flatMap fun visits => visits.map fun p => p.2.findings := by
      calc (numbered places).map (fun p => p.2.findings)
          = ((numbered places).map Prod.snd).map Visit.findings := by rw [List.map_map]; rfl
        _ = places.flatMap fun visits => visits.map fun p => p.2.findings := by
          simp only [map_snd_numbered, List.map_flatMap, List.map_map]
          rfl
    rw [findingsIn_node, visits_node, hbelow, List.map_cons, Findings.join_cons, hvisits,
      Findings.join_flatMap]

theorem findings_eq_join (e : Expr) :
    e.findings = Findings.join ((e.visits ⟨none, []⟩).map fun p => p.2.findings) :=
  e.findingsIn_eq_join

end Expr

end GraphQuery
