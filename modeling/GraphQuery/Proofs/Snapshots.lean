import GraphQuery.Proofs.RelatedSteps

/-! While nothing is stale, live references and snapshots stand for one another. -/

namespace GraphQuery

open Outcome (Related Tolerance)

namespace Outcome

/-- Both succeed with related results, or both fail with faults of one kind. -/
def AgreeUpToTexts {α β : Type} (R : α → β → Prop) : Outcome α → Outcome β → Prop
  | .ok a, .ok b => R a b
  | .error fault, .error fault' => fault.SameKind fault'
  | _, _ => False

def Tolerance.sameKind : Tolerance where
  allows fault? fault := ∃ f, fault? = some f ∧ f.SameKind fault
  later := fun _ _ ⟨_, h, _⟩ => by cases h

theorem Tolerance.sameKind_ignoresTexts : Tolerance.sameKind.IgnoresTexts := fun fault _ h =>
  ⟨fault, rfl, h⟩

theorem Tolerance.sameKind_strict : Tolerance.sameKind.Strict :=
  ⟨fun fault => ⟨fault, rfl, rfl⟩, fun _ ⟨_, h, _⟩ => by cases h⟩

theorem Related.agreeUpToTexts {α β : Type} {R : α → β → Prop} {x : Outcome α} {y : Outcome β}
    (h : Related .sameKind R x y) : AgreeUpToTexts R x y := by
  rcases h.cases_of_strict Tolerance.sameKind_strict with ⟨a, b, rfl, rfl, hab⟩ | ⟨fault, fault', rfl, rfl, hf⟩
  · exact hab
  · obtain ⟨_, he, hkind⟩ := hf
    exact Option.some.inj he ▸ hkind

end Outcome

namespace Graph

variable {g : Graph} {entry : Entry}

/-- Not a live reference to a stale element. -/
def Keeps (g : Graph) : Entry → Prop
  | .node id => id ∉ g.staleNodes
  | .relationship e => e ∉ g.staleEdges
  | _ => True

theorem isValid_snapshot (h : g.Keeps entry) : g.isValid entry.snapshot = g.isValid entry := by
  cases entry with
  | node id => simp only [Entry.snapshot, isValid, List.contains_eq_mem, decide_eq_false h]; simp
  | relationship e => simp only [Entry.snapshot, isValid, List.contains_eq_mem, decide_eq_false h]; simp
  | _ => rfl

theorem nodeData_snapshot (h : g.Keeps entry) : g.nodeData entry.snapshot = g.nodeData entry := by
  rw [nodeData, nodeData, isValid_snapshot h, Entry.nodeId_snapshot]

theorem edgeData_snapshot (h : g.Keeps entry) : g.edgeData entry.snapshot = g.edgeData entry := by
  rw [edgeData, edgeData, isValid_snapshot h, Entry.edgeId_snapshot]

theorem congr_of_keeps {γ : Type} {f : Entry → γ} (hf : ∀ entry, g.Keeps entry → f entry.snapshot = f entry)
    {a b : Entry} (ha : g.Keeps a) (hb : g.Keeps b) (hab : a.snapshot = b.snapshot) : f a = f b := by
  rw [← hf a ha, hab, hf b hb]

/-- References of any kind to one element, but no live ones to a stale element. -/
def SameElement (g : Graph) (a b : Entry) : Prop := g.Keeps a ∧ g.Keeps b ∧ a.snapshot = b.snapshot

theorem snapshotResemblance (g : Graph) : Resemblance .sameKind g g g.SameElement where
  raised := fun fault _ => Outcome.Tolerance.sameKind_strict.accepts fault
  constant := fun _ => ⟨trivial, trivial, rfl⟩
  snapshot := fun _ _ h => h.2.2
  isValid := fun _ _ ⟨ha, hb, hab⟩ => congr_of_keeps (fun _ => isValid_snapshot) ha hb hab
  nodeData := fun _ _ ⟨ha, hb, hab⟩ => congr_of_keeps (fun _ => nodeData_snapshot) ha hb hab
  edgeData := fun _ _ ⟨ha, hb, hab⟩ => congr_of_keeps (fun _ => edgeData_snapshot) ha hb hab
  kind := fun _ _ _ => .inr Outcome.Tolerance.sameKind_ignoresTexts

end Graph

/-- A row with a snapshot in place of each live reference. -/
def Record.snapshot (r : Record) : Record := { r with entries := r.entries.map Entry.snapshot }

namespace Record

variable {r : Record}

theorem entryAt?_snapshot (r : Record) (column : Nat) :
    r.snapshot.entryAt? column = (r.entryAt? column).map Entry.snapshot := by
  simp only [entryAt?, snapshot, get?, List.getElem?_map]
  cases r.entries[column]? with
  | none => rfl
  | some entry => cases hu : entry.isUnknown <;> simp [Option.filter, hu]

theorem alike_snapshot {g : Graph} (h : ∀ entry ∈ r.entries, g.Keeps entry) :
    r.Alike g.SameElement r.snapshot where
  nullMarker := rfl
  columns := fun column => by
    rw [entryAt?_snapshot]
    cases he : r.entryAt? column with
    | none => exact .none
    | some entry =>
      have hentry := h entry (mem_of_entryAt? he)
      refine .some ⟨hentry, ?_, entry.snapshot_snapshot.symm⟩
      cases entry <;> trivial

end Record

/-- From a row without live references to stale elements, an expression in any state of its aggregate
calls gives a result that has the same snapshot as its result from the row of snapshots, or both fail
with one kind of fault. Whole groups of such rows leave the same states and results of aggregate
calls. -/
theorem snapshots_stand_for_live_references (symbols : SymbolTable) (root : Expr)
    (requests : List Evaluator.Request) (ctx : Context) :
    let e := (Evaluator.ofExpr symbols root).after requests
    let Live (r : Record) := ∀ entry ∈ r.entries, ctx.graph.Keeps entry
    (∀ r, Live r → Outcome.AgreeUpToTexts (fun a b => a.snapshot = b.snapshot) (e.evaluate ctx r)
        (e.evaluate ctx r.snapshot)) ∧
      ∀ rows : List Record, (∀ r ∈ rows, Live r) →
        Outcome.AgreeUpToTexts Eq (e.aggregateAll ctx rows) (e.aggregateAll ctx (rows.map Record.snapshot)) ∧
          e.after (rows.map (.aggregate ctx)) =
            e.after ((rows.map Record.snapshot).map (.aggregate ctx)) := by
  intro e Live
  have hslots : e.slots.HoldValues := Evaluator.holdValues_after (by nofun) requests
  have hctx : ctx.Alike .sameKind ctx.graph.SameElement ctx := ⟨rfl, rfl, ctx.graph.snapshotResemblance⟩
  refine ⟨fun r hr => ?_, fun rows hrows => ?_⟩
  · have hvalue := Evaluator.evaluate_alike Tolerance.sameKind_strict hctx (Record.alike_snapshot hr)
      hslots e.root
    exact (hvalue.imp fun _ _ hab => hab.2.2).agreeUpToTexts
  · have hall : List.Forall₂ (Record.Alike ctx.graph.SameElement) rows (rows.map Record.snapshot) := by
      rw [List.forall₂_map_right_iff]
      exact List.forall₂_same.mpr fun r hr => Record.alike_snapshot (hrows r hr)
    obtain ⟨hfed, hafter⟩ := Evaluator.aggregateAll_alike Tolerance.sameKind_strict hctx hall hslots
    exact ⟨hfed.agreeUpToTexts, hafter⟩

/-- The faults of a live reference and of its snapshot tell them apart. -/
theorem sum_of_node_agrees_with_snapshot :
    let symbols := (SymbolTable.empty.insert "a" .node).1
    let a : Expr := .node 0 (.reference "a")
    let sum := Evaluator.ofExpr symbols (.node 2 (.binary (.arithmetic .add) a (.node 1 (.literal (.int 1)))))
    let collect := Evaluator.ofExpr symbols (.node 1 (.aggregate "collect" true [a]))
    let ctx := Context.ofGraph (Graph.empty.addNode 1 [] [])
    let r := Record.ofEntries [.node 1]
    Outcome.AgreeUpToTexts (fun a b => a.snapshot = b.snapshot) (sum.evaluate ctx r)
        (sum.evaluate ctx r.snapshot) ∧
      sum.evaluate ctx r ≠ sum.evaluate ctx r.snapshot ∧
      Outcome.AgreeUpToTexts Eq (collect.aggregateAll ctx [r, r])
        (collect.aggregateAll ctx [r.snapshot, r.snapshot]) := by
  intro symbols a sum collect ctx r
  have hlive : ∀ entry ∈ r.entries, ctx.graph.Keeps entry := by
    simp [r, Record.ofEntries, Graph.Keeps, ctx, Context.ofGraph, Graph.addNode, Graph.empty]
  have hrows : ∀ row ∈ [r, r], ∀ entry ∈ row.entries, ctx.graph.Keeps entry := by
    simpa using hlive
  refine ⟨(snapshots_stand_for_live_references symbols sum.root [] ctx).1 r hlive, fun heq => ?_,
    ((snapshots_stand_for_live_references symbols collect.root [] ctx).2 [r, r] hrows).1⟩
  have hfaults : (.error (.unimplemented "operator + on Node") : Outcome Entry) =
      .error (.unimplemented "operator + on NodeSnapshot") := heq
  simp at hfaults

end GraphQuery
