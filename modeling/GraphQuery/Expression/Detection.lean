import GraphQuery.Aggregate.Function
import GraphQuery.Expression.Tree

/-! Finding the aggregate calls of an expression. An item of a query may not nest aggregate
calls, and may not read properties outside of its aggregate calls. -/

namespace GraphQuery

/-- What a walk over a tree finds: the registered calls in visit order, the first nesting,
and whether a property of a variable is read outside of every call. -/
structure Findings where
  aggregates : List ExprId
  nested : Option String
  outsideVariable : Bool
deriving DecidableEq

structure AggregateCall where
  id : ExprId
  name : String
  function : AggregateFunction
  distinct : Bool
  args : List Expr

namespace Findings

def none : Findings := ⟨[], .none, false⟩

def append (a b : Findings) : Findings :=
  ⟨a.aggregates ++ b.aggregates, a.nested.or b.nested, a.outsideVariable || b.outsideVariable⟩

def join (all : List Findings) : Findings := all.foldr append none

end Findings

/-- Surroundings of a node: the outermost aggregate call around it and the variables that
comprehensions bind there. -/
structure Surroundings where
  call : Option String
  bound : List String

def isBoundVariable (bound : List String) : Expr → Bool
  | .node _ (.reference name) => bound.contains name
  | _ => false

def findAt (id : ExprId) (shape : Node Expr) (below : Node (Surroundings → Findings))
    (here : Surroundings) : Findings :=
  match shape, below with
  | .aggregate function _ _, .aggregate _ _ args =>
    let own : Findings :=
      { aggregates := if isAggregateName function then [id] else []
        nested := here.call.map fun outer => outer ++ "(" ++ function ++ "(...))"
        outsideVariable := false }
    let inside : Surroundings := { here with call := here.call.or (some function) }
    own.append (Findings.join (args.map fun find => find inside))
  | .property base _, _ =>
    let outside := here.call.isNone && !isBoundVariable here.bound base
    Findings.append ⟨[], none, outside⟩ (Findings.join (below.children.map fun find => find here))
  | _, .comprehension binder list filter projection =>
    let inside : Surroundings := { here with bound := binder :: here.bound }
    (list here).append
      (Findings.join ((filter.toList ++ projection.toList).map fun find => find inside))
  | _, _ => Findings.join (below.children.map fun find => find here)

def outermostAt (id : ExprId) (shape : Node Expr) (below : Node (List AggregateCall)) :
    List AggregateCall :=
  match shape with
  | .aggregate name distinct args =>
    match AggregateFunction.ofName? name with
    | some function => [⟨id, name, function, distinct, args⟩]
    | none => below.children.flatten
  | _ => below.children.flatten

namespace Expr

def findings (e : Expr) : Findings :=
  e.fold findAt (fun _ _ => Findings.none) ⟨none, []⟩

/-- The registered calls not inside one another, in visit order; a shared call occurs at
each of its places. -/
def outermostAggregates (e : Expr) : List AggregateCall := e.fold outermostAt fun _ => []

def containsAggregation (e : Expr) : Bool := !e.findings.aggregates.isEmpty

end Expr

namespace Findings

def mixedScope : String :=
  "Aggregated and non-aggregated variables cannot be mixed in one expression"

def validate (f : Findings) : Outcome Unit :=
  match f.nested with
  | some shape => .error (.nestedAggregate shape)
  | .none =>
    if !f.aggregates.isEmpty && f.outsideVariable then .error (.mixedAggregateScope mixedScope)
    else .ok ()

def complaint (f : Findings) : Option String :=
  match f.nested with
  | some shape => some ("Nested aggregation is not allowed: " ++ shape)
  | .none => if !f.aggregates.isEmpty && f.outsideVariable then some mixedScope else .none

end Findings

/-- What was found in an item, and the complaint of the last check of it. -/
structure Detector where
  findings : Findings
  message : Option String

namespace Detector

def ofExpr (e : Expr) : Detector := ⟨e.findings, none⟩

/-- Whether the item is acceptable. Its complaint is kept as message. -/
def check (d : Detector) : Bool × Detector :=
  let message := d.findings.complaint
  (message.isNone, { d with message })

end Detector

end GraphQuery
