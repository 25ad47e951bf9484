import GraphQuery.Proofs.RelatedSteps

/-! Nothing that is stored in a stale element shows through a live reference. -/

namespace GraphQuery

open Outcome (Related Tolerance)

namespace Graph

variable {g h : Graph} {entry : Entry}

/-- Two graphs with the same elements, of which the same are stale, and the same data for the others. -/
structure SameInView (g h : Graph) : Prop where
  hasNode : ∀ id, g.hasNode id = h.hasNode id
  hasEdge : ∀ e, g.hasEdge e = h.hasEdge e
  staleNodes : ∀ id, id ∈ g.staleNodes ↔ id ∈ h.staleNodes
  staleEdges : ∀ e, e ∈ g.staleEdges ↔ e ∈ h.staleEdges
  node : ∀ id, id ∉ g.staleNodes → List.lookup id g.nodes = List.lookup id h.nodes
  edge : ∀ e, e ∉ g.staleEdges → List.lookup e g.edges = List.lookup e h.edges

/-- Not a snapshot of a stale element. -/
def Shows (g : Graph) : Entry → Prop
  | .nodeSnapshot id => id ∉ g.staleNodes
  | .relationshipSnapshot e => e ∉ g.staleEdges
  | _ => True

theorem SameInView.isValid (hv : g.SameInView h) (entry : Entry) : g.isValid entry = h.isValid entry := by
  have hnodes : ∀ id, g.staleNodes.contains id = h.staleNodes.contains id := fun id => by
    rw [Bool.eq_iff_iff, List.contains_iff_mem, List.contains_iff_mem]
    exact hv.staleNodes id
  have hedges : ∀ e, g.staleEdges.contains e = h.staleEdges.contains e := fun e => by
    rw [Bool.eq_iff_iff, List.contains_iff_mem, List.contains_iff_mem]
    exact hv.staleEdges e
  have hpath : g.hasEdge = h.hasEdge := funext hv.hasEdge
  cases entry <;> simp only [Graph.isValid, hv.hasNode, hnodes, hedges, hpath]

theorem SameInView.nodeData (hv : g.SameInView h) (hs : g.Shows entry) :
    g.nodeData entry = h.nodeData entry := by
  rw [Graph.nodeData, Graph.nodeData, ← hv.isValid]
  split
  · rename_i hvalid
    cases entry with
    | node id =>
      have hid : id ∉ g.staleNodes := by
        have hvalid := (Bool.and_eq_true_iff.mp hvalid).2
        simpa using hvalid
      exact hv.node id hid
    | nodeSnapshot id => exact hv.node id hs
    | _ => rfl
  · rfl

theorem SameInView.edgeData (hv : g.SameInView h) (hs : g.Shows entry) :
    g.edgeData entry = h.edgeData entry := by
  rw [Graph.edgeData, Graph.edgeData, ← hv.isValid]
  split
  · rename_i hvalid
    cases entry with
    | relationship e =>
      have he : e ∉ g.staleEdges := by
        have hvalid := (Bool.and_eq_true_iff.mp hvalid).2
        simpa using hvalid
      exact hv.edge e he
    | relationshipSnapshot e => exact hv.edge e hs
    | _ => rfl
  · rfl

theorem SameInView.resemblance (hv : g.SameInView h) :
    Resemblance .none g h fun a b => a = b ∧ g.Shows a where
  raised := fun _ _ => rfl
  constant := fun _ => ⟨rfl, trivial⟩
  snapshot := fun _ _ ⟨hab, _⟩ => congrArg _ hab
  isValid := fun _ _ ⟨hab, _⟩ => hab ▸ hv.isValid _
  nodeData := fun _ _ ⟨hab, hs⟩ => hab ▸ hv.nodeData hs
  edgeData := fun _ _ ⟨hab, hs⟩ => hab ▸ hv.edgeData hs
  kind := fun _ _ ⟨hab, _⟩ => .inl (congrArg _ hab)

end Graph

/-- What stale elements store is seen through snapshots only. From rows and arguments without
snapshots of them, an expression in any state of its aggregate calls and every function give the same
on two graphs that differ in their data, the same errors included, and rows are taken alike. -/
theorem stale_data_is_not_read {g h : Graph} (hv : g.SameInView h) (plugins : Option Plugins)
    (parameters : List (String × Value)) :
    (∀ (symbols : SymbolTable) (root : Expr) (requests : List Evaluator.Request) (r : Record),
      (∀ entry ∈ r.entries, g.Shows entry) →
        let e := (Evaluator.ofExpr symbols root).after requests
        e.evaluate ⟨g, plugins, parameters⟩ r = e.evaluate ⟨h, plugins, parameters⟩ r ∧
          e.aggregate ⟨g, plugins, parameters⟩ r = e.aggregate ⟨h, plugins, parameters⟩ r) ∧
      ∀ (name : String) (args : List Entry), (∀ arg ∈ args, g.Shows arg) →
        callFunction ⟨g, plugins, parameters⟩ name args = callFunction ⟨h, plugins, parameters⟩ name args := by
  have hctx : Context.Alike .none _ ⟨g, plugins, parameters⟩ ⟨h, plugins, parameters⟩ :=
    ⟨rfl, rfl, hv.resemblance⟩
  refine ⟨fun symbols root requests r hr => ?_, fun name args hargs => ?_⟩
  · intro e
    have hslots : e.slots.HoldValues := Evaluator.holdValues_after (by nofun) requests
    have hrow := Record.alike_self fun _ entry hentry => hr entry (Record.mem_of_entryAt? hentry)
    have hvalue := Evaluator.evaluate_alike Tolerance.none_strict hctx hrow hslots e.root
    have hstep := Evaluator.aggregate_alike Tolerance.none_strict hctx hrow hslots
    refine ⟨Related.none_iff.mp (hvalue.imp fun _ _ hab => hab.1), ?_⟩
    exact Prod.ext (Related.none_iff.mp hstep.answer) hstep.state
  · have hsame : List.Forall₂ (fun a b => a = b ∧ g.Shows a) args args :=
      List.forall₂_same.mpr fun arg harg => ⟨rfl, hargs arg harg⟩
    have hplugins : ∀ registered, plugins = some registered → ∀ name values,
        Outcome.FailsWith Tolerance.none.Accepts (registered name values) := fun _ _ _ _ _ _ => rfl
    exact Related.none_iff.mp (hctx.entries.callFunction_related hsame hctx.plugins hplugins name)

def staleNode (labels : List String) (properties : Fields) : Graph :=
  (Graph.empty.addNode 1 labels properties).invalidateNode 1

theorem staleNode_sameInView (labels labels' : List String) (properties properties' : Fields) :
    (staleNode labels properties).SameInView (staleNode labels' properties') where
  hasNode := fun id => by
    simp only [staleNode, Graph.empty, Graph.addNode, Graph.invalidateNode, Graph.hasNode, List.lookup_cons]
    cases id == 1 <;> rfl
  hasEdge := fun _ => rfl
  staleNodes := fun _ => .rfl
  staleEdges := fun _ => .rfl
  node := fun id hid => by
    have hne : (id == 1) = false := beq_false_of_ne fun he => hid (he ▸ List.mem_singleton_self 1)
    simp only [staleNode, Graph.empty, Graph.addNode, Graph.invalidateNode, List.lookup_cons, hne]
  edge := fun _ _ => rfl

/-- A live reference shows neither the property nor the labels, a snapshot does. -/
theorem staleNode_hidden_from_reference :
    let symbols := (SymbolTable.empty.insert "a" .node).1
    let e := Evaluator.ofExpr symbols (.node 1 (.property (.node 0 (.reference "a")) "x"))
    let g := staleNode ["L"] [("x", .bool true)]
    let h := staleNode [] []
    let read (graph : Graph) (entry : Entry) := e.evaluate ⟨graph, none, []⟩ (Record.ofEntries [entry])
    read g (.node 1) = read h (.node 1) ∧
      callFunction ⟨g, none, []⟩ "labels" [.node 1] = callFunction ⟨h, none, []⟩ "labels" [.node 1] ∧
      read g (.nodeSnapshot 1) ≠ read h (.nodeSnapshot 1) := by
  intro symbols e g h read
  obtain ⟨hrows, hcalls⟩ := stale_data_is_not_read
    (staleNode_sameInView ["L"] [] [("x", .bool true)] []) none []
  have hshown : ∀ entry ∈ [Entry.node 1], g.Shows entry := by simp [Graph.Shows]
  refine ⟨(hrows symbols e.root [] _ hshown).1, hcalls "labels" _ hshown, fun heq => ?_⟩
  have hvalues : (.ok (.constant (.bool true)) : Outcome Entry) = .ok .null := heq
  simp [Entry.null, Value.bool, Value.null] at hvalues

end GraphQuery
