import GraphQuery.Expression.Node

/-! Expressions as trees, and the arenas that hold their nodes. Arena nodes may be shared;
the tree of a root repeats a shared node at each of its places, under the same id. -/

namespace GraphQuery

abbrev ExprId := Nat

/-- A tree of nodes. A dangling id stands where an arena has no node. -/
inductive Expr where
  | node (id : ExprId) (shape : Node Expr)
  | dangling (id : ExprId)

def Expr.id : Expr → ExprId
  | .node id _ | .dangling id => id

structure Arena where
  nodes : Array (Node ExprId)

def outOfRange (id : ExprId) : Error :=
  .internalInvariant ("expression id " ++ toString id ++ " out of range")

namespace Arena

def empty : Arena := ⟨#[]⟩

def size (a : Arena) : Nat := a.nodes.size

def push (a : Arena) (node : Node ExprId) : Arena × ExprId := (⟨a.nodes.push node⟩, a.size)

def get? (a : Arena) (id : ExprId) : Option (Node ExprId) := a.nodes[id]?

def node (a : Arena) (id : ExprId) : Outcome (Node ExprId) :=
  match a.get? id with
  | some node => .ok node
  | none => .error (outOfRange id)

/-- The tree below `id`, cut at depth `fuel`. -/
def treeWithin (a : Arena) : Nat → ExprId → Expr
  | 0, id => .dangling id
  | fuel + 1, id =>
    match a.get? id with
    | some node => .node id (node.mapChildren (a.treeWithin fuel))
    | none => .dangling id

/-- The tree of a root. Arenas are taken to have no cycle: then no path has more nodes than the arena, and the
cut is never met. On a cycle the cut reads as an id out of range, where the arena itself has a node. -/
def tree (a : Arena) (root : ExprId) : Expr := a.treeWithin (a.size + 1) root

end Arena

section Fold

variable {β : Type} (onNode : ExprId → Node Expr → Node β → β) (onDangling : ExprId → β)

mutual

/-- Gives every node a result made of its id, its children and their results. -/
def Expr.fold : Expr → β
  | .node id shape => onNode id shape (foldShape shape)
  | .dangling id => onDangling id
termination_by structural e => e

def foldShape : Node Expr → Node β
  | .literal value => .literal value
  | .reference name => .reference name
  | .parameter name => .parameter name
  | .unary op a => .unary op a.fold
  | .binary op a b => .binary op a.fold b.fold
  | .property a name => .property a.fold name
  | .call function args => .call function (foldAll args)
  | .aggregate function distinct args => .aggregate function distinct (foldAll args)
  | .cases subject branches otherwise =>
    .cases (foldOption subject) (foldBranches branches) (foldOption otherwise)
  | .conditional a b otherwise => .conditional a.fold b.fold (foldOption otherwise)
  | .list items => .list (foldAll items)
  | .set items => .set (foldAll items)
  | .tuple items => .tuple (foldAll items)
  | .map fields => .map (foldFields fields)
  | .record fields => .record (foldFields fields)
  | .isNull a negated => .isNull a.fold negated
  | .hasLabel a label => .hasLabel a.fold label
  | .pathExists aliases => .pathExists aliases
  | .comprehension binder a filter projection =>
    .comprehension binder a.fold (foldOption filter) (foldOption projection)
termination_by structural shape => shape

def foldAll : List Expr → List β
  | [] => []
  | e :: rest => e.fold :: foldAll rest
termination_by structural items => items

def foldOption : Option Expr → Option β
  | none => none
  | some e => some e.fold
termination_by structural item => item

def foldBranches : List (Expr × Expr) → List (β × β)
  | [] => []
  | (a, b) :: rest => (a.fold, b.fold) :: foldBranches rest
termination_by structural branches => branches

def foldFields : List (String × Expr) → List (String × β)
  | [] => []
  | (key, e) :: rest => (key, e.fold) :: foldFields rest
termination_by structural fields => fields

end

theorem foldAll_eq_map (items : List Expr) :
    foldAll onNode onDangling items = items.map (Expr.fold onNode onDangling) := by
  induction items with
  | nil => rfl
  | cons e rest ih => rw [foldAll, ih, List.map_cons]

theorem foldOption_eq_map (item : Option Expr) :
    foldOption onNode onDangling item = item.map (Expr.fold onNode onDangling) := by
  cases item <;> rfl

theorem foldBranches_eq_map (branches : List (Expr × Expr)) :
    foldBranches onNode onDangling branches =
      branches.map fun (a, b) => (a.fold onNode onDangling, b.fold onNode onDangling) := by
  induction branches with
  | nil => rfl
  | cons branch rest ih => rw [foldBranches, ih, List.map_cons]

theorem foldFields_eq_map (fields : List (String × Expr)) :
    foldFields onNode onDangling fields =
      fields.map fun (key, e) => (key, e.fold onNode onDangling) := by
  induction fields with
  | nil => rfl
  | cons field rest ih => rw [foldFields, ih, List.map_cons]

theorem foldShape_eq_mapChildren (shape : Node Expr) :
    foldShape onNode onDangling shape = shape.mapChildren (Expr.fold onNode onDangling) := by
  cases shape <;>
    simp only [foldShape, Node.mapChildren, foldAll_eq_map, foldOption_eq_map,
      foldBranches_eq_map, foldFields_eq_map]

/-- A fold meets each child once, and then the node over the results. -/
theorem fold_node (id : ExprId) (shape : Node Expr) :
    (Expr.node id shape).fold onNode onDangling =
      onNode id shape (shape.mapChildren (Expr.fold onNode onDangling)) := by
  rw [Expr.fold, foldShape_eq_mapChildren]

end Fold

/-- Induction on trees: a node has the property when all of its children have it. -/
theorem Expr.induction {P : Expr → Prop} (dangling : ∀ id, P (.dangling id))
    (node : ∀ id (shape : Node Expr), (∀ child ∈ shape.children, P child) → P (.node id shape))
    (e : Expr) : P e := by
  refine @Expr.rec P (fun shape => ∀ child ∈ shape.children, P child)
    (fun items => ∀ e ∈ items, P e) (fun item => ∀ e ∈ item, P e)
    (fun branches => ∀ b ∈ branches, P b.1 ∧ P b.2)
    (fun fields => ∀ f ∈ fields, P f.2) (fun b => P b.1 ∧ P b.2)
    (fun f => P f.2) node dangling
    ?_ ?_ ?_ ?_ ?_ ?_ ?_ ?_ ?_ ?_ ?_ ?_ ?_ ?_ ?_ ?_ ?_ ?_ ?_ ?_ ?_ ?_ ?_ ?_ ?_ ?_ ?_ ?_ ?_ e
  all_goals clear dangling node; grind [Node.children]

end GraphQuery
