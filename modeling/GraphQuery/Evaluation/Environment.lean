import GraphQuery.Aggregate.Accumulator
import GraphQuery.Expression.Tree
import GraphQuery.Function.Registry
import GraphQuery.Record.Basic
import GraphQuery.Record.SymbolTable

/-! What an expression reads: variables of its comprehensions, columns of the record through
the symbol table, parameters, and the results of aggregate calls. -/

namespace GraphQuery

/-- An aggregate call over a group: still fed, or finished with a result. -/
inductive Slot where
  | running (acc : Accumulator)
  | finished (result : Entry)

/-- States of aggregate calls by id. A call that saw no row has none. -/
abbrev Slots := List (ExprId × Slot)

/-- Variables bound by comprehensions, innermost first. -/
abbrev Scope := List (String × Entry)

structure Environment where
  symbols : SymbolTable
  context : Context
  record : Record
  slots : Slots

namespace Environment

def bound? (env : Environment) (column : Nat) : Option Entry :=
  match env.record.get? column with
  | some entry => if entry.isUnknown then none else some entry
  | none => none

/-- The entry of a variable; a named path is made of those of its elements. Paths inside
paths are followed to the given depth. -/
def resolveWithin (env : Environment) (scope : Scope) : Nat → String → Outcome Entry
  | 0, name => .error (.undefinedVariable name)
  | depth + 1, name =>
    match List.lookup name scope with
    | some entry => .ok entry
    | none =>
      match env.symbols.resolve name with
      | none => .error (.undefinedVariable name)
      | some (_, .namedPath) => do
        let elements := (env.symbols.pathElements name).getD []
        let entries ← elements.mapM (env.resolveWithin scope depth)
        return .constant (← pathFunction entries)
      | some (column, _) =>
        match env.bound? column with
        | some entry => .ok entry
        | none => .error (.undefinedVariable name)

/-- The depth suffices: without cycles the paths inside one another are different symbols. -/
def resolve (env : Environment) (scope : Scope) (name : String) : Outcome Entry :=
  env.resolveWithin scope (env.symbols.size + 1) name

def parameter (env : Environment) (name : String) : Outcome Entry :=
  match env.context.parameter? name with
  | some v => .ok (.constant v)
  | none => .error (.undefinedParameter name)

def isPresent (env : Environment) (scope : Scope) (name : String) : Bool :=
  let entry? :=
    match List.lookup name scope with
    | some entry => some entry
    | none => (env.symbols.resolve name).bind fun symbol => env.record.get? symbol.1
  entry?.any fun entry =>
    !entry.isUnknown && !entry.isNull && env.context.graph.isValid entry

/-- The result of an aggregate call, Null for one that saw no row. -/
def aggregateResult (env : Environment) (id : ExprId) (function : String) : Outcome Entry :=
  match List.lookup id env.slots with
  | some (.finished result) => .ok result
  | some (.running _) =>
    .error (.internalInvariant (function ++ ": evaluated before the group was reduced"))
  | none =>
    if isAggregateName function then .ok .null else .error (.functionNotFound function)

end Environment

end GraphQuery
