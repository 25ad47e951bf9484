import GraphQuery.Proofs.OutputRow
import GraphQuery.Proofs.RowDependence
import GraphQuery.Proofs.Walks

/-! Which variables of a row can show in an item beside its aggregate calls. Properties are refused
wherever they stand, variables only as operands of the outermost operator. -/

namespace GraphQuery

/-- Whether a node reads a property of a variable. -/
def Node.readsVariable : Node Expr → Bool
  | property (.node _ (.reference _)) _ => true
  | _ => false

theorem Node.exists_of_readsVariable {shape : Node Expr} (h : shape.readsVariable = true) :
    ∃ name id base, shape = .property (.node id (.reference base)) name := by
  rw [readsVariable.eq_def] at h
  split at h
  · exact ⟨_, _, _, rfl⟩
  · cases h

/-- Whether a node reads a property of something else than a bound variable. -/
def Node.readsOutside (bound : List String) : Node Expr → Bool
  | property base _ => !isBoundVariable bound base
  | _ => false

def bareNamesAt (id : ExprId) (shape : Node Expr) (below : Node (List String)) : List String :=
  if shape.readsVariable then [] else freeNamesAt id shape below

namespace Expr

/-- The free names that stand elsewhere than directly below a property access. -/
def bareNames (e : Expr) : List String := e.fold bareNamesAt fun _ => []

/-- The bare names of an operand, unless it is itself a variable. -/
def bareNamesInside : Expr → List String
  | .node _ (.reference _) => []
  | e => e.bareNames

/-- The names that no check of an item looks at. -/
def uncheckedNames : Expr → List String
  | .node _ (.unary _ a) => a.bareNamesInside
  | .node _ (.binary _ a b) => a.bareNamesInside ++ b.bareNamesInside
  | e => e.bareNames

/-- Whether a node outside of every aggregate call does so. -/
def readsOutside (bound : List String) (e : Expr) : Bool :=
  (e.fold findAt (fun _ _ => Findings.none) ⟨none, bound⟩).outsideVariable

end Expr

theorem Grouping.constant_of_checkOperand {symbols : SymbolTable} {id : ExprId} {name : String}
    (h : checkOperand symbols (.node id (.reference name)) = .ok ()) :
    ∃ column, symbols.resolve name = some (column, .constant) := by
  have hnone : (Expr.node id (.reference name)).containsAggregation = false := rfl
  simp only [checkOperand, hnone] at h
  cases hr : symbols.resolve name with
  | none => simp [hr] at h
  | some symbol =>
    obtain ⟨column, kind⟩ := symbol
    cases kind with
    | constant => exact ⟨column, rfl⟩
    | _ => simp [hr] at h

namespace Expr

variable {id : ExprId} {shape : Node Expr} {bound : List String} {name : String}

theorem mem_bareNames_node (h : shape.readsVariable = false) :
    name ∈ (node id shape).bareNames ↔
      name ∈ shape.names ∨ (∃ c ∈ shape.direct, name ∈ c.bareNames) ∨
        ∃ p ∈ shape.underBinder, name ∈ p.2.bareNames ∧ name ≠ p.1 := by
  rw [bareNames, fold_node, bareNamesAt, h, if_neg (by simp), mem_freeNamesAt]
  rfl

/-- What reads no property outside has no part that does. -/
theorem readsOutside_below (h : (node id shape).readsOutside bound = false) :
    shape.readsOutside bound = false ∧ (∀ c ∈ shape.direct, c.readsOutside bound = false) ∧
      ∀ p ∈ shape.underBinder, p.2.readsOutside (p.1 :: bound) = false := by
  obtain ⟨hown, hall⟩ := Bool.or_eq_false_iff.mp ((congrArg _ findingsIn_node).symm.trans h)
  rw [Findings.outsideVariable_join, List.any_eq_false] at hall
  have hbelow : ∀ (i : Nat) (c : Expr), shape.children[i]? = some c →
      (c.findingsIn (shape.around ⟨none, bound⟩ i)).outsideVariable = false := fun i c hi => by
    refine Bool.eq_false_of_not_eq_true (hall _ (List.mem_of_getElem? (i := i) ?_))
    rw [List.getElem?_mapIdx, hi, Option.map_some]
  have hsame : (∀ i, shape.around ⟨none, bound⟩ i = ⟨none, bound⟩) →
      ∀ c ∈ shape.children, c.readsOutside bound = false := fun hsame c hc => by
    obtain ⟨i, hi⟩ := List.getElem?_of_mem hc
    have hc := hbelow i c hi
    rwa [hsame i] at hc
  cases shape with
  | aggregate function distinct args => exact ⟨rfl, by simp [Node.direct], by simp [Node.underBinder]⟩
  | property base name => exact ⟨hown, hsame fun _ => rfl, by simp [Node.underBinder]⟩
  | comprehension binder a filter projection =>
    refine ⟨rfl, fun c hc => ?_, fun p hp => ?_⟩
    · rw [List.mem_singleton.mp hc]
      exact hbelow 0 a rfl
    · obtain ⟨c, hc, rfl⟩ := List.mem_map.mp hp
      obtain ⟨i, hi⟩ := List.getElem?_of_mem hc
      exact hbelow (i + 1) c hi
  | _ => exact ⟨rfl, hsame fun _ => rfl, by simp [Node.underBinder]⟩

/-- Where no property is read outside, every free name is bound around or stands bare. -/
theorem mem_bareNames_of_mem_freeNames (e : Expr) (h : e.readsOutside bound = false)
    (hname : name ∈ e.freeNames) : name ∈ bound ∨ name ∈ e.bareNames := by
  -- over all `bound`, which gets the binder of each comprehension on the way down
  induction e using Expr.induction generalizing bound with
  | dangling id => cases hname
  | node id shape ih =>
    obtain ⟨hshape, hdirect, hunder⟩ := readsOutside_below h
    by_cases hv : shape.readsVariable = true
    · obtain ⟨own, i, other, rfl⟩ := Node.exists_of_readsVariable hv
      have hmem : other ∈ bound := by simpa [Node.readsOutside, isBoundVariable] using hshape
      obtain rfl : name = other := by simpa [mem_freeNames_node, Node.names, Node.direct,
        Node.children, Node.underBinder] using hname
      exact .inl hmem
    · rw [Bool.not_eq_true] at hv
      rw [mem_bareNames_node hv]
      rcases mem_freeNames_node.mp hname with hown | ⟨c, hc, hname⟩ | ⟨p, hp, hname, hne⟩
      · exact .inr (.inl hown)
      · have := ih c (Node.mem_children_of_direct hc) (hdirect c hc) hname
        exact this.imp_right fun hbare => .inr (.inl ⟨c, hc, hbare⟩)
      · have := ih p.2 (Node.mem_children_of_underBinder hp) (hunder p hp) hname
        rcases this with hbound | hbare
        · exact .inl (List.mem_of_ne_of_mem hne hbound)
        · exact .inr (.inr (.inr ⟨p, hp, hbare, hne⟩))

theorem mem_bareNamesInside {symbols : SymbolTable} {e : Expr} (h : e.readsOutside [] = false)
    (hc : Grouping.checkOperand symbols e = .ok ()) (hname : name ∈ e.freeNames)
    (hk : ∀ column, symbols.resolve name ≠ some (column, .constant)) : name ∈ e.bareNamesInside := by
  rw [bareNamesInside.eq_def]
  split
  · rename_i id other
    obtain rfl : name = other := by simpa [mem_freeNames_node, Node.names, Node.direct,
      Node.children, Node.underBinder] using hname
    obtain ⟨column, hconstant⟩ := Grouping.constant_of_checkOperand hc
    exact absurd hconstant (hk column)
  · exact (mem_bareNames_of_mem_freeNames e h hname).resolve_left (by simp)

/-- In an item that passes both checks, a free name of another kind than constant is an unchecked
one. -/
theorem mem_uncheckedNames {symbols : SymbolTable} {e : Expr} (h : e.readsOutside [] = false)
    (hc : Grouping.checkOperands symbols e = .ok ()) (hname : name ∈ e.freeNames)
    (hk : ∀ column, symbols.resolve name ≠ some (column, .constant)) : name ∈ e.uncheckedNames := by
  cases e with
  | dangling id => cases hname
  | node id shape =>
    have hbare := (mem_bareNames_of_mem_freeNames _ h hname).resolve_left (by simp)
    obtain ⟨-, hdirect, -⟩ := readsOutside_below h
    cases shape with
    | unary op a =>
      have hname : name ∈ a.freeNames := by
        simpa [mem_freeNames_node, Node.names, Node.direct, Node.children, Node.underBinder] using hname
      exact mem_bareNamesInside (hdirect a (by simp [Node.direct, Node.children])) hc hname hk
    | binary op a b =>
      have hname : name ∈ a.freeNames ∨ name ∈ b.freeNames := by
        simpa [mem_freeNames_node, Node.names, Node.direct, Node.children, Node.underBinder] using hname
      obtain ⟨_, ha, hb⟩ := Outcome.bind_eq_ok.mp hc
      rw [uncheckedNames, List.mem_append]
      refine hname.imp (fun hname => ?_) fun hname => ?_
      · exact mem_bareNamesInside (hdirect a (by simp [Node.direct, Node.children])) ha hname hk
      · exact mem_bareNamesInside (hdirect b (by simp [Node.direct, Node.children])) hb hname hk
    | _ => exact hbare

end Expr

theorem Findings.outsideVariable_of_validate {f : Findings} (h : f.validate = .ok ())
    (ha : f.aggregates.isEmpty = false) : f.outsideVariable = false := by
  refine Bool.eq_false_of_not_eq_true fun ho => (validate_eq_ok_iff.mp h).2 ⟨fun hnil => ?_, ho⟩
  rw [hnil] at ha
  cases ha

theorem Grouping.validate_of_ofItems {symbols : SymbolTable} {config : AggregateConfig}
    {items : List ReturnItem} {s : Grouping} (h : ofItems symbols config items = .ok s) :
    ∀ item ∈ items, item.expression.findings.validate = .ok () := by
  rw [ofItems] at h
  generalize (⟨symbols, config, [], [], []⟩ : Grouping) = start at h
  induction items generalizing start with
  | nil => simp
  | cons item items ih =>
    rw [List.foldlM_cons] at h
    obtain ⟨next, hnext, h⟩ := Outcome.bind_eq_ok.mp h
    obtain ⟨_, hvalid, -⟩ := Outcome.bind_eq_ok.mp hnext
    exact List.forall_mem_cons.mpr ⟨hvalid, ih next h⟩

/-- In an accepted item whose free names are none of kind constant, the rows show only behind the
names that no check looks at: rows that agree there give the same result over the same group. -/
theorem checked_item_depends_on_unchecked_names {symbols : SymbolTable} {config : AggregateConfig}
    {items : List ReturnItem} {s : Grouping} (hs : Grouping.ofItems symbols config items = .ok s)
    {item : ReturnItem} (hitem : item ∈ items) (ha : item.aggregates = true)
    (hc : Grouping.checkOperands symbols item.expression = .ok ())
    (hk : ∀ name ∈ item.expression.freeNames, ∀ column, symbols.resolve name ≠ some (column, .constant))
    {r r' : Record}
    (hr : ∀ name ∈ item.expression.uncheckedNames, ∀ column, symbols.Reads name column →
      r.entryAt? column = r'.entryAt? column) (ctx : Context) (slots : Slots) :
    (Evaluator.mk item.expression symbols slots).reduce.evaluate ctx r =
      (Evaluator.mk item.expression symbols slots).reduce.evaluate ctx r' := by
  have hvalid := Grouping.validate_of_ofItems hs item hitem
  have hsome : item.expression.findings.aggregates.isEmpty = false := by
    simpa [ReturnItem.aggregates, Expr.containsAggregation] using ha
  have houtside : item.expression.readsOutside [] = false :=
    Findings.outsideVariable_of_validate hvalid hsome
  let env := (Evaluator.mk item.expression symbols slots).reduce.environment ctx r
  refine @Expr.evaluate_congr env r r' item.expression fun name hname column hcolumn => ?_
  exact hr name (Expr.mem_uncheckedNames houtside hc hname (hk name hname)) column hcolumn

def countAndNode : ReturnItem :=
  ⟨.node 2 (.list [.node 0 (.aggregate "count" false []), .node 1 (.reference "a")]), "x"⟩

/-- Rows that differ only behind a name that the item does not read. -/
theorem countAndNode_ignores_other_columns :
    let symbols := ((SymbolTable.empty.insert "a" .node).1.insert "b" .constant).1
    let row (n : Int64) := Record.ofEntries [.node 1, .constant (.int n)]
    (Evaluator.ofExpr symbols countAndNode.expression).reduce.evaluate (.ofGraph .empty) (row 1) =
      (Evaluator.ofExpr symbols countAndNode.expression).reduce.evaluate (.ofGraph .empty) (row 2) := by
  intro symbols row
  obtain ⟨s, hs⟩ : ∃ s, Grouping.ofItems symbols .default [countAndNode] = .ok s := ⟨_, rfl⟩
  have hnames : countAndNode.expression.freeNames = ["a"] := rfl
  have hunchecked : countAndNode.expression.uncheckedNames = ["a"] := rfl
  have ha : symbols.resolve "a" = some (0, .node) := rfl
  refine checked_item_depends_on_unchecked_names hs (List.mem_singleton_self _) rfl rfl ?_ ?_ _ []
  · intro name hname column
    obtain rfl : name = "a" := by simpa [hnames] using hname
    simp [ha]
  · intro name hname column hcolumn
    obtain rfl : name = "a" := by simpa [hunchecked] using hname
    cases hcolumn with
    | own h =>
      obtain ⟨rfl, -⟩ := by simpa [ha] using h
      rfl
    | element h => simp [ha] at h

/-- The node inside the list passes every check and is read of the last row. -/
theorem countAndNode_reads_last_row :
    let symbols := (SymbolTable.empty.insert "a" .node).1
    let rows := [Record.ofEntries [.node 1], Record.ofEntries [.node 2]]
    (∃ s, Grouping.ofItems symbols .default [countAndNode] = .ok s) ∧ countAndNode.aggregates = true ∧
      Grouping.checkOperands symbols countAndNode.expression = .ok () ∧
      (∀ name ∈ countAndNode.expression.freeNames, ∀ column,
        symbols.resolve name ≠ some (column, .constant)) ∧
      ∃ fed, (Evaluator.ofExpr symbols countAndNode.expression).aggregateAll (.ofGraph .empty) rows =
          .ok fed ∧
        ∃ r ∈ rows, ∃ r' ∈ rows,
          fed.reduce.evaluate (.ofGraph .empty) r ≠ fed.reduce.evaluate (.ofGraph .empty) r' := by
  intro symbols rows
  refine ⟨⟨_, rfl⟩, rfl, rfl, fun name hname column => ?_, _, rfl, _, .head _, _, .tail _ (.head _), ?_⟩
  · have hnames : countAndNode.expression.freeNames = ["a"] := rfl
    obtain rfl : name = "a" := by simpa [hnames] using hname
    have ha : symbols.resolve "a" = some (0, .node) := rfl
    simp [ha]
  · intro h
    have hlists : (Except.ok (.constant (.list [.int 2, .string "V[1]"])) : Outcome Entry) =
        .ok (.constant (.list [.int 2, .string "V[2]"])) := h
    simp [Value.string] at hlists

end GraphQuery
