import GraphQuery.Error
import GraphQuery.Record.Entry

/-! A property graph in memory. Marking an element stale makes its live references invalid;
snapshots of it stay readable. -/

namespace GraphQuery

structure NodeData where
  labels : List String
  properties : Fields

structure EdgeData where
  type : String
  properties : Fields

/-- Elements by id, the latest version of each first. -/
structure Graph where
  nodes : List (NodeId × NodeData)
  edges : List (EdgeId × EdgeData)
  staleNodes : List NodeId
  staleEdges : List EdgeId

def notAnEntity (operation : String) (entity : Entry) : Error :=
  .typeMismatch operation ("expected graph entity, got " ++ entity.kindName)

namespace Graph

def empty : Graph := ⟨[], [], [], []⟩

def addNode (g : Graph) (id : NodeId) (labels : List String) (properties : Fields) : Graph :=
  { g with nodes := (id, ⟨labels, properties⟩) :: g.nodes }

def addEdge (g : Graph) (id : EdgeId) (type : String) (properties : Fields) : Graph :=
  { g with edges := (id, ⟨type, properties⟩) :: g.edges }

def invalidateNode (g : Graph) (id : NodeId) : Graph :=
  { g with staleNodes := id :: g.staleNodes }

def invalidateEdge (g : Graph) (id : EdgeId) : Graph :=
  { g with staleEdges := id :: g.staleEdges }

def hasNode (g : Graph) (id : NodeId) : Bool := (List.lookup id g.nodes).isSome

def hasEdge (g : Graph) (id : EdgeId) : Bool := (List.lookup id g.edges).isSome

def isValid (g : Graph) : Entry → Bool
  | .node id => g.hasNode id && !g.staleNodes.contains id
  | .nodeSnapshot id => g.hasNode id
  | .relationship e => g.hasEdge e && !g.staleEdges.contains e
  | .relationshipSnapshot e => g.hasEdge e
  | .path edges => edges.all g.hasEdge
  | .constant _ | .unknown => false

def nodeData (g : Graph) (entity : Entry) : Option NodeData :=
  if g.isValid entity then entity.nodeId.bind fun id => List.lookup id g.nodes else none

def edgeData (g : Graph) (entity : Entry) : Option EdgeData :=
  if g.isValid entity then entity.edgeId.bind fun id => List.lookup id g.edges else none

/-- Properties of a node or relationship, none for an invalid reference. -/
def elementFields (g : Graph) (operation : String) (entity : Entry) : Outcome Fields :=
  if entity.isNode then .ok (((g.nodeData entity).map NodeData.properties).getD [])
  else if entity.isRelationship then
    .ok (((g.edgeData entity).map EdgeData.properties).getD [])
  else .error (notAnEntity operation entity)

def properties (g : Graph) (entity : Entry) : Outcome Fields :=
  g.elementFields "properties" entity

def field (g : Graph) (entity : Entry) (name : String) : Outcome Value :=
  (g.elementFields "GetField" entity).map fun fields => (fields.find? name).getD .null

def labels (g : Graph) (entity : Entry) : Outcome (List String) :=
  if entity.isNode then .ok (((g.nodeData entity).map NodeData.labels).getD [])
  else .error (notAnEntity "labels" entity)

def hasLabel (g : Graph) (entity : Entry) (label : String) : Outcome Bool :=
  if entity.isNode then .ok ((g.nodeData entity).any fun node => node.labels.contains label)
  else .error (notAnEntity "IsLabeled" entity)

/-- The type of a relationship, empty for an invalid reference. -/
def relationshipType (g : Graph) (entity : Entry) : Outcome String :=
  if entity.isRelationship then .ok (((g.edgeData entity).map EdgeData.type).getD "")
  else .error (notAnEntity "type" entity)

end Graph

end GraphQuery
