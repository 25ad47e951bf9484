import GraphQuery.Function.Argument
import GraphQuery.Graph.Basic

/-! Functions over graph elements. Null stays Null. -/

namespace GraphQuery

/-- The internal function that turns the elements of a path into a value. -/
def pathFunctionName : String := "_topath"

/-- Reads from one element that `accepts` allows, Null when the reference is not valid. -/
def elementFunction (function expected : String) (accepts : Entry → Bool)
    (read : Graph → Entry → Outcome Value) (g : Graph) (args : List Entry) : Outcome Value := do
  let arg ← oneArgument function args
  if arg.isNull then return .null
  if !accepts arg then .error (argumentMismatch function expected arg)
  if !g.isValid arg then return .null
  read g arg

def isNodeOrRelationship (arg : Entry) : Bool := arg.isNode || arg.isRelationship

def elementId (arg : Entry) : Value :=
  match arg.nodeId with
  | some id => .int id
  | none => (arg.edgeId.map fun e => Value.int e.id).getD .null

def idFunction : Graph → List Entry → Outcome Value :=
  elementFunction "id" "Node or Relationship" isNodeOrRelationship fun _ arg =>
    .ok (elementId arg)

def typeFunction : Graph → List Entry → Outcome Value :=
  elementFunction "type" "Relationship" Entry.isRelationship fun g arg =>
    (g.relationshipType arg).map Value.string

def labelFunction : Graph → List Entry → Outcome Value :=
  elementFunction "label" "Node or Relationship" isNodeOrRelationship fun g arg =>
    if arg.isRelationship then (g.relationshipType arg).map Value.string
    else (g.labels arg).map fun labels => (labels.head?.map Value.string).getD .null

def edgeIdFunction : Graph → List Entry → Outcome Value :=
  elementFunction "euid" "Relationship" Entry.isRelationship fun _ arg =>
    .ok ((arg.edgeId.map fun e => Value.string e.text).getD .null)

def labelsFunction (g : Graph) (args : List Entry) : Outcome Value := do
  let arg ← oneArgument "labels" args
  if arg.isNull then return .null
  if !arg.isNode then .error (argumentMismatch "labels" "Node" arg)
  (g.labels arg).map Value.strings

/-- The fields of a map, or the properties of an element. -/
def fieldsOf (function : String) (g : Graph) (args : List Entry) : Outcome (Option Fields) := do
  let arg ← oneArgument function args
  match arg with
  | .constant (.map fields) => return some fields
  | .constant v =>
    if v.isNull then return none
    else .error (argumentMismatch function "Node, Relationship or Map" arg)
  | _ =>
    if isNodeOrRelationship arg then (g.properties arg).map some
    else .error (argumentMismatch function "Node, Relationship or Map" arg)

def propertiesFunction (g : Graph) (args : List Entry) : Outcome Value :=
  (fieldsOf "properties" g args).map fun fields => (fields.map Value.map).getD .null

def keysFunction (g : Graph) (args : List Entry) : Outcome Value :=
  (fieldsOf "keys" g args).map fun fields =>
    (fields.map fun fields => Value.strings fields.keys).getD .null

def endOfRelationship (function : String) (pick : EdgeId → NodeId) (args : List Entry) :
    Outcome Value := do
  let arg ← oneArgument function args
  match arg.edgeId with
  | some e => return .int (pick e)
  | none =>
    if arg.isNull then return .null
    else .error (argumentMismatch function "Relationship" arg)

def startNodeFunction : List Entry → Outcome Value := endOfRelationship "startnode" EdgeId.source

def endNodeFunction : List Entry → Outcome Value := endOfRelationship "endnode" EdgeId.target

/-- The texts of path elements in order. A path of relationships gives each of them, and a
Null element makes the whole path Null. -/
def pathTexts : List Entry → Outcome (Option (List String))
  | [] => .ok (some [])
  | arg :: rest => do
    let here ← match arg with
      | .path edges => .ok (some (edges.map Entry.edgeText))
      | _ =>
        if arg.isEntity then .ok (some [arg.text])
        else if arg.isNull then .ok none
        else .error (argumentMismatch pathFunctionName "graph entity" arg)
    match here with
    | none => return none
    | some texts => return (← pathTexts rest).map fun tail => texts ++ tail

def pathFunction (args : List Entry) : Outcome Value :=
  (pathTexts args).map fun texts => (texts.map Value.strings).getD .null

end GraphQuery
