import GraphQuery.Function.Registry
import GraphQuery.Proofs.Outcome

/-! What functions answer for elements that were never added, and for live references to elements that
were made stale. Some give Null, others read an element without data. -/

namespace GraphQuery

namespace Graph

inductive Change where
  | addNode (id : NodeId) (labels : List String) (properties : Fields)
  | addEdge (id : EdgeId) (type : String) (properties : Fields)
  | invalidateNode (id : NodeId)
  | invalidateEdge (id : EdgeId)

namespace Change

/-- The change brings in the element that is referred to. -/
def Adds : Change → Entry → Prop
  | addNode id _ _, entity => entity.nodeId = some id
  | addEdge e _ _, entity => entity.edgeId = some e
  | invalidateNode _, _ | invalidateEdge _, _ => False

/-- The change makes the reference stale. Snapshots do not get stale. -/
def Outdates : Change → Entry → Prop
  | invalidateNode id, entity => entity = .node id
  | invalidateEdge e, entity => entity = .relationship e
  | addNode _ _ _, _ | addEdge _ _ _, _ => False

end Change

def change (g : Graph) : Change → Graph
  | .addNode id labels properties => g.addNode id labels properties
  | .addEdge id type properties => g.addEdge id type properties
  | .invalidateNode id => g.invalidateNode id
  | .invalidateEdge id => g.invalidateEdge id

def after (g : Graph) (history : List Change) : Graph := history.foldl change g

def has (g : Graph) : Entry → Bool
  | .node id | .nodeSnapshot id => g.hasNode id
  | .relationship e | .relationshipSnapshot e => g.hasEdge e
  | .constant _ | .path _ | .unknown => false

def isStale (g : Graph) : Entry → Bool
  | .node id => g.staleNodes.contains id
  | .relationship e => g.staleEdges.contains e
  | _ => false

variable {g : Graph} {entity : Entry}

theorem isValid_iff (he : isNodeOrRelationship entity = true) :
    g.isValid entity = true ↔ g.has entity = true ∧ g.isStale entity = false := by
  cases entity with
  | constant _ | path _ | unknown => cases he
  | _ => simp [isValid, has, isStale]

theorem hasNode_addNode (g : Graph) (id i : NodeId) (labels : List String) (properties : Fields) :
    (g.addNode id labels properties).hasNode i = (i == id || g.hasNode i) := by
  rw [hasNode, addNode, List.lookup_cons]
  cases i == id <;> rfl

theorem hasEdge_addEdge (g : Graph) (e i : EdgeId) (type : String) (properties : Fields) :
    (g.addEdge e type properties).hasEdge i = (i == e || g.hasEdge i) := by
  rw [hasEdge, addEdge, List.lookup_cons]
  cases i == e <;> rfl

theorem has_change (g : Graph) (c : Change) (entity : Entry) :
    (g.change c).has entity = true ↔ g.has entity = true ∨ c.Adds entity := by
  cases c with
  | addNode id labels properties =>
    cases entity <;> simp [change, has, Change.Adds, Entry.nodeId, hasNode_addNode, or_comm]
    all_goals rfl
  | addEdge e type properties =>
    cases entity <;> simp [change, has, Change.Adds, Entry.edgeId, hasEdge_addEdge, or_comm]
    all_goals rfl
  | invalidateNode id | invalidateEdge e => exact (or_iff_left not_false).symm

theorem isStale_change (g : Graph) (c : Change) (entity : Entry) :
    (g.change c).isStale entity = true ↔ g.isStale entity = true ∨ c.Outdates entity := by
  cases c with
  | addNode id labels properties | addEdge e type properties => exact (or_iff_left not_false).symm
  | invalidateNode id =>
    cases entity <;> simp [change, isStale, Change.Outdates, invalidateNode, or_comm]
  | invalidateEdge e =>
    cases entity <;> simp [change, isStale, Change.Outdates, invalidateEdge, or_comm]

/-- What only some changes bring about, and none undoes, holds from the first of these on. -/
theorem after_iff {p : Graph → Prop} {q : Change → Prop} (hstep : ∀ g c, p (g.change c) ↔ p g ∨ q c)
    (g : Graph) (history : List Change) : p (g.after history) ↔ p g ∨ ∃ c ∈ history, q c := by
  induction history generalizing g with
  | nil => simp [after]
  | cons c history ih =>
    have hrest := ih (g.change c)
    rw [hstep, or_assoc] at hrest
    rw [List.exists_mem_cons_iff]
    exact hrest

/-- A reference is valid once its element is added, and until it is made stale. Nothing makes it valid
again. -/
theorem isValid_after_iff (history : List Change) (he : isNodeOrRelationship entity = true) :
    (empty.after history).isValid entity = true ↔
      (∃ c ∈ history, c.Adds entity) ∧ ∀ c ∈ history, ¬ c.Outdates entity := by
  have hhas := after_iff (p := fun g => g.has entity = true) (fun g c => has_change g c entity) empty history
  have hstale := after_iff (p := fun g => g.isStale entity = true) (fun g c => isStale_change g c entity)
    empty history
  have hnone : empty.has entity = false := by cases entity <;> rfl
  have hfresh : empty.isStale entity = false := by cases entity <;> rfl
  rw [isValid_iff he, hhas, ← Bool.not_eq_true, hstale, hnone, hfresh]
  simp

theorem nodeData_of_invalid (hv : g.isValid entity = false) : g.nodeData entity = none := by
  rw [nodeData, hv]
  rfl

theorem edgeData_of_invalid (hv : g.isValid entity = false) : g.edgeData entity = none := by
  rw [edgeData, hv]
  rfl

theorem labels_of_invalid (hn : entity.isNode = true) (hv : g.isValid entity = false) :
    g.labels entity = .ok [] := by
  rw [labels, if_pos hn, nodeData_of_invalid hv]
  rfl

theorem properties_of_invalid (he : isNodeOrRelationship entity = true) (hv : g.isValid entity = false) :
    g.properties entity = .ok [] := by
  rw [properties, elementFields, nodeData_of_invalid hv, edgeData_of_invalid hv]
  rcases Bool.or_eq_true_iff.mp he with hn | hr
  · rw [if_pos hn]
    rfl
  · rw [if_pos hr]
    split <;> rfl

end Graph

section Functions

variable {g : Graph} {entity : Entry}

theorem isNull_of_element (he : isNodeOrRelationship entity = true) : entity.isNull = false := by
  cases entity with
  | constant v => cases he
  | _ => rfl

theorem elementFunction_of_accepted {function expected : String} {accepts : Entry → Bool}
    {read : Graph → Entry → Outcome Value} (ha : accepts entity = true) (hn : entity.isNull = false) :
    elementFunction function expected accepts read g [entity] =
      if g.isValid entity then read g entity else .ok .null := by
  cases hv : g.isValid entity <;>
    simp [elementFunction, oneArgument, hn, ha, hv, bind, Except.bind, pure, Except.pure]

/-- A function that reads no Null gives Null for invalid references, and only for them. -/
theorem elementFunction_eq_null_iff {function expected : String} {accepts : Entry → Bool}
    {read : Graph → Entry → Outcome Value} (ha : accepts entity = true) (hn : entity.isNull = false)
    (hread : read g entity ≠ .ok .null) :
    elementFunction function expected accepts read g [entity] = .ok .null ↔ g.isValid entity = false := by
  rw [elementFunction_of_accepted ha hn]
  cases hv : g.isValid entity <;> simp [hread]

theorem elementId_ne_null (he : isNodeOrRelationship entity = true) : elementId entity ≠ .null := by
  cases entity with
  | constant _ | path _ | unknown => cases he
  | _ => simp [elementId, Entry.nodeId, Entry.edgeId, Value.int, Value.null]

theorem idFunction_eq_null_iff (he : isNodeOrRelationship entity = true) :
    idFunction g [entity] = .ok .null ↔ g.isValid entity = false :=
  elementFunction_eq_null_iff he (isNull_of_element he) fun h => elementId_ne_null he (Except.ok.inj h)

theorem typeFunction_eq_null_iff (hr : entity.isRelationship = true) :
    typeFunction g [entity] = .ok .null ↔ g.isValid entity = false := by
  refine elementFunction_eq_null_iff hr (isNull_of_element (Bool.or_eq_true_iff.mpr (.inr hr))) ?_
  rw [Graph.relationshipType, if_pos hr]
  nofun

theorem edgeIdFunction_eq_null_iff (hr : entity.isRelationship = true) :
    edgeIdFunction g [entity] = .ok .null ↔ g.isValid entity = false := by
  refine elementFunction_eq_null_iff hr (isNull_of_element (Bool.or_eq_true_iff.mpr (.inr hr))) ?_
  cases entity with
  | relationship e | relationshipSnapshot e => nofun
  | _ => cases hr

theorem labelFunction_eq_null_iff (he : isNodeOrRelationship entity = true) :
    labelFunction g [entity] = .ok .null ↔ g.isValid entity = false ∨ g.labels entity = .ok [] := by
  rw [labelFunction, elementFunction_of_accepted he (isNull_of_element he)]
  cases hv : g.isValid entity with
  | false => simp
  | true =>
    by_cases hr : entity.isRelationship = true
    · have hnode : entity.isNode = false := by
        cases entity with
        | relationship _ | relationshipSnapshot _ => rfl
        | _ => cases hr
      simp [hr, hnode, Graph.relationshipType, Graph.labels, Except.map, Value.string, Value.null]
    · have hnode : entity.isNode = true := (Bool.or_eq_true_iff.mp he).resolve_right hr
      rw [Graph.labels, if_pos hnode]
      cases hl : ((g.nodeData entity).map NodeData.labels).getD [] with
      | nil => simp [hr, Except.map]
      | cons label labels => simp [hr, Except.map, Value.string, Value.null]

theorem propertiesFunction_of_element (he : isNodeOrRelationship entity = true) :
    propertiesFunction g [entity] = (g.properties entity).map Value.map := by
  have hread : fieldsOf "properties" g [entity] = (g.properties entity).map some := by
    cases entity with
    | constant _ | path _ | unknown => cases he
    | _ => rfl
  rw [propertiesFunction, hread]
  cases g.properties entity <;> rfl

theorem labelsFunction_of_node (hn : entity.isNode = true) :
    labelsFunction g [entity] = (g.labels entity).map Value.strings := by
  have hnull : entity.isNull = false := isNull_of_element (Bool.or_eq_true_iff.mpr (.inl hn))
  simp [labelsFunction, oneArgument, hn, hnull, bind, Except.bind]

theorem isRelationship_of_edgeId {e : EdgeId} (h : entity.edgeId = some e) :
    entity.isRelationship = true := by
  cases entity with
  | relationship e | relationshipSnapshot e => rfl
  | _ => cases h

theorem endOfRelationship_of_edgeId {e : EdgeId} (h : entity.edgeId = some e) (function : String)
    (pick : EdgeId → NodeId) : endOfRelationship function pick [entity] = .ok (.int (pick e)) := by
  simp only [endOfRelationship, oneArgument, bind, Except.bind, h]
  rfl

end Functions

/-- Which functions tell an invalid reference, in a graph of any history. Of a node or relationship that
was never added, or a live reference to one that was ever made stale, `id`, `label`, `type` and `euid`
give Null; but `labels` gives the empty list, `properties` the empty map, and `startnode` and `endnode`
the ends of the id, as they do for valid ones. -/
theorem invalid_elements_read_as {entity : Entry} (he : isNodeOrRelationship entity = true)
    (history : List Graph.Change) (plugins : Option Plugins) (parameters : List (String × Value)) :
    let g := Graph.empty.after history
    let call (name : String) := callFunction ⟨g, plugins, parameters⟩ name [entity]
    (g.isValid entity = true ↔
        (∃ c ∈ history, c.Adds entity) ∧ ∀ c ∈ history, ¬ c.Outdates entity) ∧
      (call "id" = .ok .null ↔ g.isValid entity = false) ∧
      (call "label" = .ok .null ↔ g.isValid entity = false ∨ g.labels entity = .ok []) ∧
      (call "properties" ≠ .ok .null ∧ (g.isValid entity = false → call "properties" = .ok (.map []))) ∧
      (entity.isNode = true → call "labels" ≠ .ok .null ∧
        (g.isValid entity = false → call "labels" = .ok (.strings []))) ∧
      ∀ e, entity.edgeId = some e →
        (call "type" = .ok .null ↔ g.isValid entity = false) ∧
        (call "euid" = .ok .null ↔ g.isValid entity = false) ∧
        call "startnode" = .ok (.int e.source) ∧ call "endnode" = .ok (.int e.target) := by
  intro g call
  refine ⟨Graph.isValid_after_iff history he, idFunction_eq_null_iff he, labelFunction_eq_null_iff he, ?_,
    fun hn => ?_, fun e hedge => ⟨?_, ?_, ?_, ?_⟩⟩
  · have hcall : call "properties" = (g.properties entity).map Value.map := propertiesFunction_of_element he
    rw [hcall]
    refine ⟨?_, fun hv => by rw [Graph.properties_of_invalid he hv]; rfl⟩
    cases g.properties entity <;> nofun
  · have hcall : call "labels" = (g.labels entity).map Value.strings := labelsFunction_of_node hn
    rw [hcall]
    refine ⟨?_, fun hv => by rw [Graph.labels_of_invalid hn hv]; rfl⟩
    cases g.labels entity <;> nofun
  · exact typeFunction_eq_null_iff (isRelationship_of_edgeId hedge)
  · exact edgeIdFunction_eq_null_iff (isRelationship_of_edgeId hedge)
  · exact endOfRelationship_of_edgeId hedge "startnode" EdgeId.source
  · exact endOfRelationship_of_edgeId hedge "endnode" EdgeId.target

/-- A node that is made stale, and added anew. -/
def readded (labels : List String) : List Graph.Change :=
  [.addNode 1 labels [("x", .bool true)], .invalidateNode 1, .addNode 1 labels [("x", .bool true)]]

/-- The reference stays invalid. It has no id, no labels and no properties. -/
theorem readded_stays_invalid :
    let g := Graph.empty.after (readded ["L"])
    let call (name : String) := callFunction ⟨g, none, []⟩ name [.node 1]
    g.isValid (.node 1) = false ∧ call "id" = .ok .null ∧ call "label" = .ok .null ∧
      call "labels" = .ok (.strings []) ∧ call "properties" = .ok (.map []) := by
  intro g call
  have he : isNodeOrRelationship (.node 1) = true := rfl
  obtain ⟨hvalid, hid, hlabel, ⟨-, hproperties⟩, hlabels, -⟩ :=
    invalid_elements_read_as he (readded ["L"]) none []
  have hv : g.isValid (.node 1) = false := by
    rw [← Bool.not_eq_true, hvalid]
    exact fun ⟨_, hkept⟩ => hkept (.invalidateNode 1) (by simp [readded]) rfl
  exact ⟨hv, hid.mpr hv, hlabel.mpr (.inl hv), (hlabels rfl).2 hv, hproperties hv⟩

/-- A stale relationship still has its ends, and an empty map of properties. -/
theorem stale_relationship_has_ends :
    let e : EdgeId := ⟨1, 2, 5⟩
    let g := Graph.empty.after [.addEdge e "KNOWS" [("since", .int 2020)], .invalidateEdge e]
    g.isValid (.relationship e) = false ∧
      callFunction (.ofGraph g) "startnode" [.relationship e] = .ok (.int 1) ∧
      callFunction (.ofGraph g) "endnode" [.relationship e] = .ok (.int 2) ∧
      callFunction (.ofGraph g) "properties" [.relationship e] = .ok (.map []) :=
  ⟨rfl, rfl, rfl, rfl⟩

end GraphQuery
