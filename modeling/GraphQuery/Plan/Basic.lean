import GraphQuery.Plan.Grouping

/-! Plans of a query, and cursors that stand in their output. A cursor has a part for every
operator of its plan. -/

namespace GraphQuery

inductive Plan where
  | values (rows : List Record)
  | filter (predicate : Evaluator) (child : Plan)
  | project (items : List Evaluator) (child : Plan)
  | aggregate (grouping : Grouping) (child : Plan)

inductive Phase where
  | unprepared
  | prepared
  | delivering
  | depleted
deriving DecidableEq

/-- Groups made so far, how many of them are delivered, and the last output row. -/
structure GroupingState where
  phase : Phase
  groups : List Group
  delivered : Nat
  record : Record

/-- A position in the rows for `values`, the last output row for `project`. -/
def Cursor : Plan → Type
  | .values _ => Nat
  | .filter _ child => Cursor child
  | .project _ child => Record × Cursor child
  | .aggregate _ child => GroupingState × Cursor child

namespace Plan

def name : Plan → String
  | values _ => "Values"
  | filter _ _ => "Filter"
  | project _ _ => "Project"
  | aggregate _ _ => "Aggregate"

def aliases : Plan → List (List String)
  | values _ => []
  | filter _ child | project _ child => child.aliases
  | aggregate grouping child => child.aliases ++ [grouping.aliases]

def start : (plan : Plan) → Cursor plan
  | values _ => (0 : Nat)
  | filter _ child => child.start
  | project items child => (Record.new items.length, child.start)
  | aggregate grouping child =>
    (⟨.unprepared, [], 0, Record.new grouping.width⟩, child.start)

def prepare : (plan : Plan) → Cursor plan → Cursor plan
  | values _, _ => (0 : Nat)
  | filter _ child, c => child.prepare c
  | project items child, (_, c) => (Record.new items.length, child.prepare c)
  | aggregate grouping child, (_, c) =>
    (⟨.prepared, [], 0, Record.new grouping.width⟩, child.prepare c)

/-- Takes a cursor back to the first row. After a complete reset, aggregations have to be
made ready again. -/
def reset (complete : Bool) : (plan : Plan) → Cursor plan → Cursor plan
  | values _, _ => (0 : Nat)
  | filter _ child, c => child.reset complete c
  | project _ child, (record, c) => (record, child.reset complete c)
  | aggregate _ child, (s, c) =>
    (⟨if complete then .unprepared else .prepared, [], 0, s.record⟩,
      child.reset complete c)

def record : (plan : Plan) → Cursor plan → Record
  | values rows, (c : Nat) => if c = 0 then Record.empty else rows.getD (c - 1) Record.empty
  | filter _ child, c => child.record c
  | project _ _, (record, _) => record
  | aggregate _ _, (s, _) => s.record

def remaining : (plan : Plan) → Cursor plan → Nat
  | values rows, (c : Nat) => rows.length - c
  | filter _ child, c => child.remaining c
  | project _ child, (_, c) => child.remaining c
  | aggregate _ child, (s, c) =>
    match s.phase with
    | .unprepared | .depleted => 0
    | .prepared => s.groups.length + child.remaining c + 1
    | .delivering => s.groups.length - s.delivered

end Plan

end GraphQuery
