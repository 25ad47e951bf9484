import GraphQuery.Value.Logic

/-! The kinds of expression node. A node is a shape over its children, so that flat nodes
with child ids, trees, and meanings of trees share one definition. -/

namespace GraphQuery

inductive Literal where
  | null
  | bool (b : Bool)
  | int (n : Int64)
  | double (x : Double)
  | string (s : String)
deriving DecidableEq

inductive LogicOp where
  | and
  | or
  | xor
deriving DecidableEq

inductive BitwiseOp where
  | and
  | or
  | xor
  | shiftLeft
  | shiftRight
deriving DecidableEq

inductive BinaryOp where
  | arithmetic (op : ArithmeticOp)
  | logic (op : LogicOp)
  | comparison (op : Comparison)
  | membership
  | bitwise (op : BitwiseOp)
deriving DecidableEq

inductive UnaryOp where
  | not
  | negate
deriving DecidableEq

inductive Node (α : Type) where
  | literal (value : Literal)
  | reference (name : String)
  | parameter (name : String)
  | unary (op : UnaryOp) (operand : α)
  | binary (op : BinaryOp) (left right : α)
  | property (base : α) (name : String)
  | call (function : String) (args : List α)
  | aggregate (function : String) (distinct : Bool) (args : List α)
  | cases (subject : Option α) (branches : List (α × α)) (otherwise : Option α)
  | conditional (condition result : α) (otherwise : Option α)
  | list (items : List α)
  | set (items : List α)
  | tuple (items : List α)
  | map (fields : List (String × α))
  | record (fields : List (String × α))
  | isNull (operand : α) (negated : Bool)
  | hasLabel (operand : α) (label : String)
  | pathExists (aliases : List String)
  | comprehension (binder : String) (list : α) (filter projection : Option α)

namespace Literal

def value : Literal → Value
  | null => .null
  | bool b => .bool b
  | int n => .int n
  | double x => .double x
  | string s => .string s

end Literal

namespace BinaryOp

def symbol : BinaryOp → String
  | arithmetic .add => "+"
  | arithmetic .sub => "-"
  | arithmetic .mul => "*"
  | arithmetic .div => "/"
  | arithmetic .mod => "%"
  | arithmetic .pow => "^"
  | logic .and => "AND"
  | logic .or => "OR"
  | logic .xor => "XOR"
  | comparison op => op.symbol
  | membership => "IN"
  | bitwise .and => "&"
  | bitwise .or => "|"
  | bitwise .xor => "^^"
  | bitwise .shiftLeft => "<<"
  | bitwise .shiftRight => ">>"

/-- The two operators that also apply to graph elements. -/
def isEquality : BinaryOp → Bool
  | comparison .eq | comparison .notEq => true
  | _ => false

end BinaryOp

namespace UnaryOp

def symbol : UnaryOp → String
  | not => "NOT"
  | negate => "-"

end UnaryOp

namespace Node

variable {α β : Type}

/-- Children in the order in which they are evaluated. -/
def children : Node α → List α
  | literal _ | reference _ | parameter _ | pathExists _ => []
  | unary _ a | property a _ | isNull a _ | hasLabel a _ => [a]
  | binary _ a b => [a, b]
  | call _ args | aggregate _ _ args => args
  | list items | set items | tuple items => items
  | map fields | record fields => fields.map Prod.snd
  | cases subject branches otherwise =>
    subject.toList ++ (branches.flatMap fun (a, b) => [a, b]) ++ otherwise.toList
  | conditional a b otherwise => [a, b] ++ otherwise.toList
  | comprehension _ a filter projection => [a] ++ filter.toList ++ projection.toList

def mapChildren (f : α → β) : Node α → Node β
  | literal value => literal value
  | reference name => reference name
  | parameter name => parameter name
  | unary op a => unary op (f a)
  | binary op a b => binary op (f a) (f b)
  | property a name => property (f a) name
  | call function args => call function (args.map f)
  | aggregate function distinct args => aggregate function distinct (args.map f)
  | cases subject branches otherwise =>
    cases (subject.map f) (branches.map fun (a, b) => (f a, f b)) (otherwise.map f)
  | conditional a b otherwise => conditional (f a) (f b) (otherwise.map f)
  | list items => list (items.map f)
  | set items => set (items.map f)
  | tuple items => tuple (items.map f)
  | map fields => map (fields.map fun (key, a) => (key, f a))
  | record fields => record (fields.map fun (key, a) => (key, f a))
  | isNull a negated => isNull (f a) negated
  | hasLabel a label => hasLabel (f a) label
  | pathExists aliases => pathExists aliases
  | comprehension binder a filter projection =>
    comprehension binder (f a) (filter.map f) (projection.map f)

theorem children_mapChildren (f : α → β) (node : Node α) :
    (node.mapChildren f).children = node.children.map f := by
  cases node <;>
    simp [children, mapChildren, List.map_flatMap, List.flatMap_map, Option.toList_map]

theorem mapChildren_mapChildren {γ : Type} (g : β → γ) (f : α → β) (node : Node α) :
    (node.mapChildren f).mapChildren g = node.mapChildren fun a => g (f a) := by
  cases node <;> simp [mapChildren, Function.comp_def]

def isAggregate : Node α → Bool
  | aggregate .. => true
  | _ => false

end Node

end GraphQuery
