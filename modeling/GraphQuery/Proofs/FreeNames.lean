import GraphQuery.Expression.Tree
import Mathlib.Logic.Basic

/-! The names that evaluation looks up below a node of an expression and that no comprehension in
between binds. -/

namespace GraphQuery

/-- A name is looked up for its entry, or only for whether it has one. -/
inductive NameUse where
  | entry
  | presence

namespace Node

variable {α β : Type}

/-- The names that a node reads itself. -/
def names : Node α → List String
  | reference name => [name]
  | pathExists aliases => aliases
  | _ => []

/-- The children evaluated in the scope of the node. Arguments of aggregate calls are not. -/
def direct : Node α → List α
  | aggregate _ _ _ => []
  | comprehension _ a _ _ => [a]
  | node => node.children

/-- The children evaluated for each item of a list, with the variable that is bound to it. -/
def underBinder : Node α → List (String × α)
  | comprehension binder _ filter projection =>
    (filter.toList ++ projection.toList).map fun a => (binder, a)
  | _ => []

/-- The names that a node looks up for one purpose. -/
def namesFor : NameUse → Node α → List String
  | .entry, reference name => [name]
  | .presence, pathExists aliases => aliases
  | _, _ => []

theorem mem_names_of_namesFor {use : NameUse} {node : Node α} {name : String}
    (h : name ∈ node.namesFor use) : name ∈ node.names := by
  rw [namesFor.eq_def] at h
  split at h
  · exact h
  · exact h
  · cases h

theorem namesFor_mapChildren (use : NameUse) (f : α → β) (node : Node α) :
    (node.mapChildren f).namesFor use = node.namesFor use := by
  cases use <;> cases node <;> rfl

theorem names_mapChildren (f : α → β) (node : Node α) : (node.mapChildren f).names = node.names := by
  cases node <;> rfl

theorem direct_mapChildren (f : α → β) (node : Node α) :
    (node.mapChildren f).direct = node.direct.map f := by
  have hchildren := children_mapChildren f node
  cases node with
  | aggregate function distinct args => rfl
  | comprehension binder a filter projection => rfl
  | _ => exact hchildren

theorem underBinder_mapChildren (f : α → β) (node : Node α) :
    (node.mapChildren f).underBinder = node.underBinder.map fun (binder, a) => (binder, f a) := by
  cases node with
  | comprehension binder a filter projection =>
    simp [mapChildren, underBinder, Option.toList_map, Function.comp_def]
  | _ => rfl

theorem mem_children_of_direct {node : Node α} {c : α} (h : c ∈ node.direct) : c ∈ node.children := by
  cases node with
  | aggregate function distinct args => simp [direct] at h
  | comprehension binder a filter projection => exact List.mem_append_left _ (List.mem_append_left _ h)
  | _ => exact h

theorem mem_children_of_underBinder {node : Node α} {p : String × α} (h : p ∈ node.underBinder) :
    p.2 ∈ node.children := by
  cases node with
  | comprehension binder a filter projection =>
    obtain ⟨c, hc, rfl⟩ := List.mem_map.mp h
    simpa [children] using Or.inr (List.mem_append.mp hc)
  | _ => simp [underBinder] at h

end Node

def freeNamesAt (_ : ExprId) (_ : Node Expr) (below : Node (List String)) : List String :=
  below.names ++ below.direct.flatten ++
    below.underBinder.flatMap fun (binder, names) => names.filter (· != binder)

theorem mem_freeNamesAt {id : ExprId} {shape : Node Expr} {f : Expr → List String} {name : String} :
    name ∈ freeNamesAt id shape (shape.mapChildren f) ↔
      name ∈ shape.names ∨ (∃ c ∈ shape.direct, name ∈ f c) ∨
        ∃ p ∈ shape.underBinder, name ∈ f p.2 ∧ name ≠ p.1 := by
  rw [freeNamesAt, Node.names_mapChildren, Node.direct_mapChildren, Node.underBinder_mapChildren]
  simp only [List.mem_append, List.mem_flatten, List.mem_map, List.mem_flatMap, List.flatMap_map,
    List.mem_filter, bne_iff_ne, or_assoc, exists_exists_and_eq_and]

namespace Expr

/-- The names that evaluation reads and no comprehension inside binds. -/
def freeNames (e : Expr) : List String := e.fold freeNamesAt fun _ => []

theorem mem_freeNames_node {id : ExprId} {shape : Node Expr} {name : String} :
    name ∈ (node id shape).freeNames ↔
      name ∈ shape.names ∨ (∃ c ∈ shape.direct, name ∈ c.freeNames) ∨
        ∃ p ∈ shape.underBinder, name ∈ p.2.freeNames ∧ name ≠ p.1 := by
  rw [freeNames, fold_node, mem_freeNamesAt]
  rfl

end Expr

/-- A name is looked up below this node, outside of aggregate calls, and no comprehension binds it on the
way. -/
inductive Expr.Mentions (use : NameUse) : Expr → String → Prop where
  | own {id : ExprId} {shape : Node Expr} {name : String} (hname : name ∈ shape.namesFor use) :
    Mentions use (.node id shape) name
  | direct {id : ExprId} {shape : Node Expr} {c : Expr} {name : String} (hc : c ∈ shape.direct)
    (h : Mentions use c name) : Mentions use (.node id shape) name
  | underBinder {id : ExprId} {shape : Node Expr} {p : String × Expr} {name : String}
    (hp : p ∈ shape.underBinder) (h : Mentions use p.2 name) (hne : name ≠ p.1) :
    Mentions use (.node id shape) name

/-- The same below a node of an arena. -/
inductive Arena.Mentions (a : Arena) (use : NameUse) : ExprId → String → Prop where
  | own {id : ExprId} {node : Node ExprId} {name : String} (hnode : a.get? id = some node)
    (hname : name ∈ node.namesFor use) : a.Mentions use id name
  | direct {id c : ExprId} {node : Node ExprId} {name : String} (hnode : a.get? id = some node)
    (hc : c ∈ node.direct) (h : a.Mentions use c name) : a.Mentions use id name
  | underBinder {id : ExprId} {node : Node ExprId} {p : String × ExprId} {name : String}
    (hnode : a.get? id = some node) (hp : p ∈ node.underBinder) (h : a.Mentions use p.2 name)
    (hne : name ≠ p.1) : a.Mentions use id name

theorem Expr.Mentions.mem_freeNames {use : NameUse} {e : Expr} {name : String} (h : e.Mentions use name) :
    name ∈ e.freeNames := by
  induction h with
  | own hname => exact mem_freeNames_node.mpr (.inl (Node.mem_names_of_namesFor hname))
  | direct hc _ ih => exact mem_freeNames_node.mpr (.inr (.inl ⟨_, hc, ih⟩))
  | underBinder hp _ hne ih => exact mem_freeNames_node.mpr (.inr (.inr ⟨_, hp, ih, hne⟩))

theorem Arena.Mentions.of_reference {a : Arena} {use : NameUse} {id : ExprId} {name own : String}
    (h : a.Mentions use id name) (hid : a.get? id = some (.reference own)) : use = .entry ∧ name = own := by
  cases h with
  | own hnode hname =>
    obtain rfl := Option.some.inj (hid.symm.trans hnode)
    cases use with
    | entry => exact ⟨rfl, List.mem_singleton.mp hname⟩
    | presence => cases hname
  | direct hnode hc =>
    obtain rfl := Option.some.inj (hid.symm.trans hnode)
    cases hc
  | underBinder hnode hp =>
    obtain rfl := Option.some.inj (hid.symm.trans hnode)
    cases hp

/-- What the tree of a root mentions, its arena mentions. -/
theorem Arena.mentions_of_tree {a : Arena} {use : NameUse} {root : ExprId} {name : String}
    (h : (a.tree root).Mentions use name) : a.Mentions use root name := by
  rw [tree] at h
  generalize a.size + 1 = fuel at h
  induction fuel generalizing root with
  | zero => cases h
  | succ fuel ih =>
    rw [treeWithin] at h
    cases hnode : a.get? root with
    | none =>
      rw [hnode] at h
      cases h
    | some node =>
      rw [hnode] at h
      cases h with
      | own hname =>
        rw [Node.namesFor_mapChildren] at hname
        exact .own hnode hname
      | direct hc h =>
        rw [Node.direct_mapChildren] at hc
        obtain ⟨child, hchild, rfl⟩ := List.mem_map.mp hc
        exact .direct hnode hchild (ih h)
      | underBinder hp h hne =>
        rw [Node.underBinder_mapChildren] at hp
        obtain ⟨child, hchild, rfl⟩ := List.mem_map.mp hp
        exact .underBinder hnode hchild (ih h) hne

end GraphQuery
