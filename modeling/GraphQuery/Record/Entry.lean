import GraphQuery.Value.Order
import GraphQuery.Value.Printer

/-! Entries of a record: values, references to graph elements, and slots not bound yet. A
live reference is good only while the element is in view; a snapshot outlives it. -/

namespace GraphQuery

abbrev NodeId := Int64

structure EdgeId where
  source : NodeId
  target : NodeId
  id : Int64
deriving DecidableEq

inductive Entry where
  | constant (v : Value)
  | node (id : NodeId)
  | relationship (e : EdgeId)
  | path (edges : List EdgeId)
  | nodeSnapshot (id : NodeId)
  | relationshipSnapshot (e : EdgeId)
  | unknown

namespace EdgeId

def text (e : EdgeId) : String :=
  toString e.source.toInt ++ "_" ++ toString e.target.toInt ++ "_" ++ toString e.id.toInt

def compare (a b : EdgeId) : Ordering :=
  (Ord.compare a.source.toInt b.source.toInt).then <|
    (Ord.compare a.target.toInt b.target.toInt).then (Ord.compare a.id.toInt b.id.toInt)

end EdgeId

namespace Entry

def null : Entry := constant .null

def isConstant : Entry → Bool
  | constant _ => true
  | _ => false

def isNull : Entry → Bool
  | constant v => v.isNull
  | _ => false

def isUnknown : Entry → Bool
  | unknown => true
  | _ => false

def isNode : Entry → Bool
  | node _ | nodeSnapshot _ => true
  | _ => false

def isRelationship : Entry → Bool
  | relationship _ | relationshipSnapshot _ => true
  | _ => false

def isEntity : Entry → Bool
  | constant _ | unknown => false
  | _ => true

def asConstant : Entry → Option Value
  | constant v => some v
  | _ => none

def nodeId : Entry → Option NodeId
  | node id | nodeSnapshot id => some id
  | _ => none

def edgeId : Entry → Option EdgeId
  | relationship e | relationshipSnapshot e => some e
  | _ => none

/-- Live references become snapshots; everything else stays. -/
def snapshot : Entry → Entry
  | node id => nodeSnapshot id
  | relationship e => relationshipSnapshot e
  | entry => entry

def kindName : Entry → String
  | constant v => v.typeName
  | node _ => "Node"
  | relationship _ => "Relationship"
  | path _ => "VarLenRelationship"
  | nodeSnapshot _ => "NodeSnapshot"
  | relationshipSnapshot _ => "RelpSnapshot"
  | unknown => "Unknown"

def edgeText (e : EdgeId) : String := "E[" ++ e.text ++ "]"

def text : Entry → String
  | constant v => v.text
  | node id | nodeSnapshot id => "V[" ++ toString id.toInt ++ "]"
  | relationship e | relationshipSnapshot e => edgeText e
  | path edges => "[" ++ joinWith "," (edges.map edgeText) ++ "]"
  | unknown => "__UNKNOWN__"

def rank : Entry → Nat
  | constant _ => 0
  | node _ => 1
  | relationship _ => 2
  | path _ => 3
  | nodeSnapshot _ => 4
  | relationshipSnapshot _ => 5
  | unknown => 6

def compare (a b : Entry) : Ordering :=
  match a, b with
  | constant x, constant y => x.compare y
  | node x, node y | nodeSnapshot x, nodeSnapshot y => Ord.compare x.toInt y.toInt
  | relationship x, relationship y => x.compare y
  | relationshipSnapshot x, relationshipSnapshot y => x.compare y
  | path xs, path ys => compareLists EdgeId.compare xs ys
  | _, _ => Ord.compare a.rank b.rank

def equal : Entry → Entry → Bool
  | constant x, constant y => x.equal y
  | node x, node y | nodeSnapshot x, nodeSnapshot y => x == y
  | relationship x, relationship y => x == y
  | relationshipSnapshot x, relationshipSnapshot y => x == y
  | path xs, path ys => xs == ys
  | unknown, unknown => true
  | _, _ => false

end Entry

def equalEntries : List Entry → List Entry → Bool
  | [], [] => true
  | a :: as, b :: bs => a.equal b && equalEntries as bs
  | _, _ => false

end GraphQuery
