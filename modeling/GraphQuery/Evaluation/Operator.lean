import GraphQuery.Expression.Node
import GraphQuery.Graph.Basic

/-! Operators on entries. All apply to values only, except equality and property access,
which apply to graph elements too. -/

namespace GraphQuery

namespace Entry

/-- Equality of what entries refer to: a live reference equals a snapshot of its element. -/
def same (a b : Entry) : Bool := a.snapshot.equal b.snapshot

def isTrue (entry : Entry) : Bool := entry.asConstant.bind Value.asBool == some true

/-- The value of an entry as part of a collection, which holds elements by their text. -/
def elementValue : Entry → Outcome Value
  | constant v => .ok v
  | unknown => .error (.internalInvariant "unbound value in collection")
  | entity => .ok (.string entity.text)

end Entry

def operand (symbol : String) (entry : Entry) : Outcome Value :=
  match entry.asConstant with
  | some v => .ok v
  | none => .error (.unimplemented ("operator " ++ symbol ++ " on " ++ entry.kindName))

def membership (needle haystack : Value) : Outcome Value :=
  if needle.isNull then .ok .null
  else
    match haystack.asList, needle.isScalar with
    | some items, true => .ok (.bool (items.any fun item => item.equal needle))
    | _, _ =>
      .error (.typeMismatch "IN" ("expected a scalar and a List, got " ++ needle.typeName ++
        " and " ++ haystack.typeName))

namespace UnaryOp

def apply : UnaryOp → Value → Outcome Value
  | not, v => v.not
  | negate, v => v.neg

end UnaryOp

namespace LogicOp

def apply : LogicOp → Value → Value → Outcome Value
  | and, a, b => a.and b
  | or, a, b => a.or b
  | xor, a, b => a.xor b

end LogicOp

namespace BinaryOp

def apply (op : BinaryOp) (a b : Value) : Outcome Value :=
  match op with
  | arithmetic op => a.arithmetic op b
  | logic op => op.apply a b
  | comparison op => a.compareBy op b
  | membership => GraphQuery.membership a b
  | bitwise _ => .error (.unimplemented ("bitwise operator " ++ op.symbol))

def decided? : BinaryOp → Value → Option Bool
  | logic .and, a => if a.asBool = some false then some false else none
  | logic .or, a => if a.asBool = some true then some true else none
  | _, _ => none

/-- Equality with a graph element on one side at least. -/
def elementEquality (op : BinaryOp) (a b : Entry) : Entry :=
  .constant (.bool (if op = comparison .eq then a.same b else !a.same b))

end BinaryOp

def matchesSubject (subject candidate : Entry) : Outcome Bool :=
  match subject, candidate with
  | .constant a, .constant b =>
    (a.compareBy .eq b).map fun verdict => verdict.asBool == some true
  | _, _ => .ok (subject.same candidate)

def readProperty (g : Graph) (base : Entry) (name : String) : Outcome Entry :=
  let fault : Error :=
    .typeMismatch "property access" ("cannot read ." ++ name ++ " of " ++ base.kindName)
  match base with
  | .constant (.map fields) => .ok (.constant ((Fields.find? name fields).getD .null))
  | .constant v => if v.isNull then .ok .null else .error fault
  | entity =>
    if entity.isNode || entity.isRelationship then (g.field entity name).map .constant
    else .error fault

def checkLabel (g : Graph) (base : Entry) (label : String) : Outcome Entry :=
  if base.isNull then .ok .null
  else if base.isNode || base.isRelationship then
    (g.hasLabel base label).map fun has => .constant (.bool has)
  else .error (.typeMismatch "label check" ("expected an entity, got " ++ base.kindName))

def distinctValues (values : List Value) : List Value :=
  values.foldl (fun kept v => if kept.any fun k => k.equal v then kept else kept ++ [v]) []

end GraphQuery
