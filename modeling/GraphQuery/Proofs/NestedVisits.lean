import GraphQuery.Evaluation.Evaluator
import GraphQuery.Proofs.DetectedCalls
import GraphQuery.Proofs.Outcome
import GraphQuery.Proofs.RowReads

/-! How deep visits nest. A walk over an arena goes on from a node to its children, and an evaluation also from
a reference to its name and from a named path to its elements. Where children come before their nodes and no
path is among its own elements, every such descent is over after as many visits as there are nodes and
symbols, and one. -/

namespace GraphQuery

namespace Arena

variable {a : Arena}

/-- Children that exist come before their nodes. -/
def ChildrenBefore (a : Arena) : Prop :=
  ∀ id node, a.get? id = some node → ∀ c ∈ node.children, a.size ≤ c ∨ c < id

/-- Arenas filled node by node, over nodes that they already have. -/
inductive Filled : Arena → Prop where
  | empty : Filled .empty
  | push {a : Arena} {node : Node ExprId} (ha : Filled a) (hc : ∀ c ∈ node.children, c < a.size) :
    Filled (a.push node).1

theorem lt_size_of_get? {id : ExprId} {node : Node ExprId} (h : a.get? id = some node) : id < a.size :=
  (Array.getElem?_eq_some_iff.mp h).1

theorem Filled.child_lt {c id : ExprId} (ha : a.Filled) (h : a.Child c id) : c < id := by
  induction ha with
  | empty =>
    obtain ⟨node, hnode, -⟩ := h
    exact absurd (lt_size_of_get? hnode) (Nat.not_lt_zero id)
  | @push a added ha hadded ih =>
    obtain ⟨node, hnode, hc⟩ := h
    rw [Arena.push, get?, Array.getElem?_push] at hnode
    split at hnode
    · obtain rfl := Option.some.inj hnode
      subst id
      exact hadded c hc
    · exact ih ⟨node, hnode, hc⟩

theorem Filled.childrenBefore (ha : a.Filled) : a.ChildrenBefore :=
  fun _ node hnode _ hc => .inr (ha.child_lt ⟨node, hnode, hc⟩)

theorem ChildrenBefore.descends (h : a.ChildrenBefore) (id : ExprId) : a.Descends id := by
  induction id using Nat.strongRecOn with
  | ind id ih =>
    refine ⟨id, fun c ⟨node, hnode, hc⟩ => ?_⟩
    rcases h id node hnode c hc with hsize | hlt
    · refine ⟨c, fun d ⟨other, hother, _⟩ => ?_⟩
      exact absurd (lt_size_of_get? hother) (Nat.not_lt.mpr hsize)
    · exact ih c hlt

end Arena

namespace SymbolTable

variable {t : SymbolTable}

def ElementOf (t : SymbolTable) (element path : String) : Prop :=
  ∃ column elements, t.resolve path = some (column, .namedPath) ∧ t.pathElements path = some elements ∧
    element ∈ elements

/-- No named path reaches itself through its elements. -/
def PathsEnd (t : SymbolTable) : Prop := ∀ path, ¬ Relation.TransGen t.ElementOf path path

theorem pathsEnd_of_rank (rank : String → Nat)
    (h : ∀ element path, t.ElementOf element path → rank element < rank path) : t.PathsEnd := by
  intro path hcycle
  have hlt : Relation.TransGen (· < ·) (rank path) (rank path) := hcycle.lift rank h
  rw [Relation.transGen_eq_self] at hlt
  exact Nat.lt_irrefl _ hlt

theorem ElementOf.path_mem {element path : String} (h : t.ElementOf element path) : path ∈ t.names := by
  obtain ⟨column, elements, hpath, -⟩ := h
  exact List.mem_of_getElem? (nameOf_eq_some_iff.mpr ⟨.namedPath, hpath⟩)

end SymbolTable

/-- What a descent visits: nodes and, from references on, names. -/
inductive Visited where
  | node (id : ExprId)
  | name (name : String)

namespace Visited

/-- The visits that a visit may lead to. -/
inductive LeadsTo (a : Arena) (symbols : SymbolTable) : Visited → Visited → Prop where
  | child {id c : ExprId} (h : a.Child c id) : LeadsTo a symbols (.node id) (.node c)
  | reference {id : ExprId} {name : String} (h : a.get? id = some (.reference name)) :
    LeadsTo a symbols (.node id) (.name name)
  | element {path element : String} (h : symbols.ElementOf element path) :
    LeadsTo a symbols (.name path) (.name element)

variable {a : Arena} {symbols : SymbolTable} {m n : Nat} {x : Visited}

/-- No descent from here makes more than `n` visits, this one included. -/
def EndsWithin (a : Arena) (symbols : SymbolTable) : Nat → Visited → Prop
  | 0, _ => False
  | n + 1, x => ∀ y, LeadsTo a symbols x y → EndsWithin a symbols n y

theorem EndsWithin.mono (h : EndsWithin a symbols m x) (hmn : m ≤ n) : EndsWithin a symbols n x := by
  induction m generalizing n x with
  | zero => cases h
  | succ m ih =>
    obtain ⟨n, rfl⟩ : ∃ k, n = k + 1 := ⟨n - 1, by omega⟩
    exact fun y hy => ih (h y hy) (by omega)

theorem EndsWithin.length_lt {rest : List Visited} (h : EndsWithin a symbols n x)
    (hrest : List.IsChain (LeadsTo a symbols) (x :: rest)) : rest.length < n := by
  induction n generalizing x rest with
  | zero => cases h
  | succ n ih =>
    cases rest with
    | nil => exact Nat.succ_pos n
    | cons y rest =>
      obtain ⟨hy, hrest⟩ := List.isChain_cons_cons.mp hrest
      exact Nat.succ_lt_succ (ih (h y hy) hrest)

/-- The paths above a name are different symbols, so that the names below it are no more than the symbols
that are left, and one that is no path. -/
theorem endsWithin_name_below (hpaths : symbols.PathsEnd) {name : String} (above : List String)
    (hnodup : above.Nodup)
    (habove : ∀ path ∈ above, path ∈ symbols.names ∧ Relation.TransGen symbols.ElementOf name path)
    (hn : symbols.size < n + above.length) : EndsWithin a symbols n (.name name) := by
  induction n generalizing name above with
  | zero =>
    have hsub : above ⊆ symbols.names := fun path hpath => (habove path hpath).1
    have hle : above.length ≤ symbols.size := (hnodup.subperm hsub).length_le
    omega
  | succ n ih =>
    intro y hy
    cases hy with
    | element helement =>
      have hnew : name ∉ above := fun hmem => hpaths name (habove name hmem).2
      refine ih (name :: above) (List.nodup_cons.mpr ⟨hnew, hnodup⟩) (fun path hpath => ?_) ?_
      · rcases List.mem_cons.mp hpath with rfl | hpath
        · exact ⟨helement.path_mem, .single helement⟩
        · exact ⟨(habove path hpath).1, .head helement (habove path hpath).2⟩
      · rw [List.length_cons]
        omega

theorem endsWithin_name (hpaths : symbols.PathsEnd) (name : String) :
    EndsWithin a symbols (symbols.size + 1) (.name name) :=
  endsWithin_name_below hpaths [] .nil (by simp) (by simp)

theorem endsWithin_of_get?_eq_none {id : ExprId} (h : a.get? id = none) :
    EndsWithin a symbols (n + 1) (.node id) := by
  intro y hy
  cases hy with
  | child hc =>
    obtain ⟨node, hnode, -⟩ := hc
    simp [h] at hnode
  | reference hnode => simp [h] at hnode

/-- Below a node are those before it, and then the names. -/
theorem endsWithin_node (hnodes : a.ChildrenBefore) (hpaths : symbols.PathsEnd) (id : ExprId) :
    EndsWithin a symbols (id + symbols.size + 2) (.node id) := by
  induction id using Nat.strongRecOn with
  | ind id ih =>
    intro y hy
    cases hy with
    | @child _ c hc =>
      obtain ⟨node, hnode, hc⟩ := hc
      rcases hnodes id node hnode c hc with hsize | hlt
      · exact endsWithin_of_get?_eq_none (Array.getElem?_eq_none hsize)
      · have hle := Nat.succ_le_of_lt hlt
        exact (ih c hlt).mono (by omega)
    | @reference _ name => exact (endsWithin_name hpaths name).mono (by omega)

/-- The last node of the arena has the deepest descents, and an id out of range has none. -/
theorem endsWithin_root (hnodes : a.ChildrenBefore) (hpaths : symbols.PathsEnd) (root : ExprId) :
    EndsWithin a symbols (a.size + symbols.size + 1) (.node root) := by
  cases hroot : a.get? root with
  | none => exact endsWithin_of_get?_eq_none hroot
  | some node =>
    have hle := Nat.succ_le_of_lt (Arena.lt_size_of_get? hroot)
    exact (endsWithin_node hnodes hpaths root).mono (by omega)

end Visited

open Visited (EndsWithin)

/-- A walk that gives a node what its rule makes of the results of its children. Below the given depth it
takes `cut` for a result. -/
def Arena.walkWithin {β : Type} (a : Arena) (rule : Nat → ExprId → Node ExprId → Node β → β)
    (missing cut : ExprId → β) : Nat → ExprId → β
  | 0, id => cut id
  | depth + 1, id =>
    match a.get? id with
    | some node => rule depth id node (node.mapChildren (a.walkWithin rule missing cut depth))
    | none => missing id

/-- The entry of a name as in `resolveWithin`, with `cut` for the names below the given depth. -/
def Environment.resolveCut (env : Environment) (cut : String → Meaning) (scope : Scope) :
    Nat → String → Outcome Entry
  | 0, name => cut name scope
  | depth + 1, name =>
    match List.lookup name scope with
    | some entry => .ok entry
    | none =>
      match env.symbols.resolve name with
      | none => .error (.undefinedVariable name)
      | some (_, .namedPath) => do
        let elements := (env.symbols.pathElements name).getD []
        let entries ← elements.mapM (env.resolveCut cut scope depth)
        return .constant (← pathFunction entries)
      | some (column, _) =>
        match env.bound? column with
        | some entry => .ok entry
        | none => .error (.undefinedVariable name)

/-- A node over the meanings of its children, where a reference is one visit above its name. -/
def evaluateAt (env : Environment) (cut : String → Meaning) (depth : Nat) (id : ExprId) (node : Node ExprId)
    (below : Node Meaning) : Meaning :=
  match node with
  | .reference name => fun scope => env.resolveCut cut scope depth name
  | _ => evaluateNode env id below

namespace Arena

/-- Evaluation on the arena itself, to a depth of visits. -/
def evaluateWithin (a : Arena) (env : Environment) (cut : Visited → Meaning) : Nat → ExprId → Meaning :=
  a.walkWithin (evaluateAt env fun name => cut (.name name)) (fun id _ => .error (outOfRange id))
    fun id => cut (.node id)

/-- The arguments of a step of a call, read from the arena and evaluated there. -/
def argumentsWithin (a : Arena) (env : Environment) (cut : Visited → Meaning) (depth : Nat)
    (call : AggregateCall) : Outcome (List Entry) := do
  match ← a.node call.id with
  | .aggregate _ distinct args =>
    if args.isEmpty && call.function = .count then
      return [if env.record.nullMarker then .null else .constant (.double Double.one)]
    else
      let operands ← args.mapM fun arg => a.evaluateWithin env cut depth arg []
      return .constant (.bool distinct) :: operands
  | _ => .error (.internalInvariant "aggregate step on a non-aggregate node")

/-- The outermost registered calls by id, listed to a depth of visits. -/
def callsWithin (a : Arena) (cut : ExprId → List ExprId) : Nat → ExprId → List ExprId :=
  a.walkWithin (fun _ id node below => if node.isCall then [id] else below.children.flatten) (fun _ => []) cut

/-- What a check finds, to a depth of visits. A node sees no more of its children than their nodes. -/
def findingsWithin (a : Arena) (cut : ExprId → Surroundings → Findings) :
    Nat → ExprId → Surroundings → Findings :=
  a.walkWithin (fun _ id node below => findAt id (node.mapChildren (a.treeWithin 1)) below)
    (fun _ _ => Findings.none) cut

end Arena

section Recursions

variable {a : Arena} {symbols : SymbolTable}

/-- A walk that ends above its cut is settled by one step, for every node. -/
theorem Arena.walkWithin_eq {β : Type} {rule : Nat → ExprId → Node ExprId → Node β → β}
    {missing cut : ExprId → β} (value : ExprId → β) (hmissing : ∀ id, a.get? id = none → missing id = value id)
    (hrule : ∀ depth id node, a.get? id = some node → EndsWithin a symbols (depth + 1) (.node id) →
      rule depth id node (node.mapChildren value) = value id)
    {depth : Nat} {id : ExprId} (h : EndsWithin a symbols depth (.node id)) :
    a.walkWithin rule missing cut depth id = value id := by
  induction depth generalizing id with
  | zero => cases h
  | succ depth ih =>
    rw [walkWithin]
    cases hnode : a.get? id with
    | none => exact hmissing id hnode
    | some node =>
      have hchildren : ∀ c ∈ node.children, a.walkWithin rule missing cut depth c = value c :=
        fun c hc => ih (h (.node c) (.child ⟨node, hnode, hc⟩))
      simp only [Node.mapChildren_congr hchildren]
      exact hrule depth id node hnode h

namespace Environment

variable {env : Environment} {cut : String → Meaning} {scope : Scope} {name : String}

theorem resolveWithin_eq_cut (depth : Nat) :
    env.resolveWithin scope depth name =
      env.resolveCut (fun name _ => .error (.undefinedVariable name)) scope depth name := by
  induction depth generalizing name with
  | zero => rfl
  | succ depth ih =>
    have hbelow : env.resolveWithin scope depth =
        env.resolveCut (fun name _ => .error (.undefinedVariable name)) scope depth := funext fun _ => ih
    rw [resolveWithin, hbelow]
    rfl

/-- Resolution that ends above its cut does not depend on it, nor on the depth. -/
theorem resolveCut_congr {cut' : String → Meaning} {depth depth' : Nat}
    (h : EndsWithin a env.symbols depth (.name name)) (h' : EndsWithin a env.symbols depth' (.name name)) :
    env.resolveCut cut scope depth name = env.resolveCut cut' scope depth' name := by
  induction depth generalizing name depth' with
  | zero => cases h
  | succ depth ih =>
    cases depth' with
    | zero => cases h'
    | succ depth' =>
      rw [resolveCut, resolveCut]
      cases List.lookup name scope with
      | some entry => rfl
      | none =>
        cases hname : env.symbols.resolve name with
        | none => rfl
        | some symbol =>
          obtain ⟨column, kind⟩ := symbol
          cases kind with
          | namedPath =>
            have helements : ∀ element ∈ (env.symbols.pathElements name).getD [],
                env.resolveCut cut scope depth element = env.resolveCut cut' scope depth' element := by
              intro element helement
              obtain ⟨elements, hpath, helement⟩ := SymbolTable.exists_pathElements helement
              have hbelow : env.symbols.ElementOf element name := ⟨column, elements, hname, hpath, helement⟩
              exact ih (h (.name element) (.element hbelow)) (h' (.name element) (.element hbelow))
            simp only [Outcome.mapM_congr helements]
          | _ => rfl

theorem resolveCut_eq (hpaths : env.symbols.PathsEnd) {depth : Nat}
    (h : EndsWithin a env.symbols depth (.name name)) :
    env.resolveCut cut scope depth name = env.resolve scope name := by
  rw [resolve, resolveWithin_eq_cut]
  exact resolveCut_congr h (Visited.endsWithin_name hpaths name)

end Environment

namespace Arena

variable {depth : Nat} {id : ExprId}

theorem evaluateWithin_eq {env : Environment} {cut : Visited → Meaning} (hnodes : a.ChildrenBefore)
    (hpaths : env.symbols.PathsEnd) (h : EndsWithin a env.symbols depth (.node id)) :
    a.evaluateWithin env cut depth id = (a.tree id).meaning env := by
  refine walkWithin_eq (fun id => (a.tree id).meaning env) (fun id hnone => ?_)
    (fun depth id node hnode h => ?_) h
  · rw [tree_of_get?_eq_none hnone]
    rfl
  · rw [(hnodes.descends id).tree_eq hnode, Expr.meaning_node, Node.mapChildren_mapChildren]
    cases node with
    | reference name =>
      funext scope
      exact Environment.resolveCut_eq hpaths (h (.name name) (.reference hnode))
    | _ => rfl

theorem callsWithin_eq {cut : ExprId → List ExprId} (hnodes : a.ChildrenBefore)
    (h : EndsWithin a symbols depth (.node id)) :
    a.callsWithin cut depth id = (a.tree id).outermostAggregates.map AggregateCall.id := by
  refine walkWithin_eq (fun id => (a.tree id).outermostAggregates.map AggregateCall.id)
    (fun id hnone => ?_) (fun depth id node hnode _ => ?_) h
  · rw [tree_of_get?_eq_none hnone]
    rfl
  · rw [(hnodes.descends id).tree_eq hnode]
    split
    · rename_i hcall
      obtain ⟨name, distinct, args, function, rfl, hname⟩ := Node.exists_of_isCall hcall
      rw [Node.mapChildren, Expr.outermostAggregates_of_call hname]
      rfl
    · rename_i hcall
      rw [Bool.not_eq_true, ← Node.isCall_mapChildren a.tree] at hcall
      rw [Expr.outermostAggregates_of_not_call hcall, Node.children_mapChildren, Node.children_mapChildren,
        List.flatMap_map, List.map_flatMap, List.flatMap]

theorem isBoundVariable_treeWithin (a : Arena) (bound : List String) (fuel : Nat) (base : ExprId) :
    isBoundVariable bound (a.treeWithin (fuel + 1) base) = isBoundVariable bound (a.treeWithin 1 base) := by
  rw [treeWithin, treeWithin]
  cases a.get? base with
  | none => rfl
  | some node => cases node <;> rfl

theorem findingsWithin_eq {cut : ExprId → Surroundings → Findings} (hnodes : a.ChildrenBefore)
    (h : EndsWithin a symbols depth (.node id)) (here : Surroundings) :
    a.findingsWithin cut depth id here = (a.tree id).findingsIn here := by
  refine congrFun (walkWithin_eq (fun id here => (a.tree id).findingsIn here) (fun id hnone => ?_)
    (fun depth id node hnode _ => ?_) h) here
  · rw [tree_of_get?_eq_none hnone]
    rfl
  · funext here
    rw [(hnodes.descends id).tree_eq hnode, Expr.findingsIn, fold_node, Node.mapChildren_mapChildren]
    -- of the children themselves, only the base of a property is looked at
    cases node with
    | property base name =>
      have hbase := a.isBoundVariable_treeWithin here.bound a.size base
      simp only [Node.mapChildren, findAt, tree, hbase]
      rfl
    | _ => rfl

theorem argumentsWithin_eq {env : Environment} {cut : Visited → Meaning} (hnodes : a.ChildrenBefore)
    (hpaths : env.symbols.PathsEnd) (hdepth : a.size + env.symbols.size + 1 ≤ depth) {call : AggregateCall}
    (hcall : a.call? id = some call) :
    a.argumentsWithin env cut depth call = Evaluator.stepArguments env call := by
  rw [call?] at hcall
  split at hcall
  · rename_i name distinct args hnode
    obtain ⟨function, -, rfl⟩ := Option.map_eq_some_iff.mp hcall
    have hargs : ∀ arg ∈ args, a.evaluateWithin env cut depth arg [] = (a.tree arg).evaluate env := by
      intro arg _
      have hends := (Visited.endsWithin_root hnodes hpaths arg).mono hdepth
      rw [evaluateWithin_eq hnodes hpaths hends, Expr.evaluate]
    have hoperands : (args.map a.tree).mapM (fun arg => arg.evaluate env) =
        args.mapM fun arg => a.evaluateWithin env cut depth arg [] := by
      rw [List.mapM_map, Outcome.mapM_congr hargs]
      rfl
    simp only [argumentsWithin, Evaluator.stepArguments, node, hnode, hoperands, List.isEmpty_map]
    rfl
  · cases hcall

end Arena

end Recursions

/-- Evaluation, a step of each call, the listing of calls and the check of an item end on the arena with all of
their visits above the bound, whatever would be the result of a visit below it. -/
theorem recursions_end_within_nodes_and_symbols {a : Arena} {symbols : SymbolTable}
    (hnodes : a.ChildrenBefore) (hpaths : symbols.PathsEnd) (root : ExprId) :
    let bound := a.size + symbols.size + 1
    (∀ rest, List.IsChain (Visited.LeadsTo a symbols) (.node root :: rest) → rest.length < bound) ∧
      ∀ depth, bound ≤ depth →
        (∀ (ctx : Context) (record : Record) (slots : Slots) (cut : Visited → Meaning),
          let env : Environment := ⟨symbols, ctx, record, slots⟩
          (∀ scope, a.evaluateWithin env cut depth root scope = (a.tree root).meaning env scope) ∧
            ∀ call ∈ (a.tree root).outermostAggregates,
              a.argumentsWithin env cut depth call = Evaluator.stepArguments env call) ∧
        (∀ cut, a.callsWithin cut depth root = (a.tree root).outermostAggregates.map AggregateCall.id) ∧
        ∀ cut, a.findingsWithin cut depth root ⟨none, []⟩ = (a.tree root).findings := by
  intro bound
  have hends : EndsWithin a symbols bound (.node root) := Visited.endsWithin_root hnodes hpaths root
  refine ⟨fun rest hrest => hends.length_lt hrest, fun depth hdepth => ⟨fun ctx record slots cut => ?_, ?_, ?_⟩⟩
  · intro env
    refine ⟨fun scope => ?_, fun call hcall => ?_⟩
    · rw [Arena.evaluateWithin_eq hnodes hpaths (hends.mono hdepth)]
    · obtain ⟨-, -, hcall⟩ := (hnodes.descends root).mem_outermostAggregates_iff.mp hcall
      exact Arena.argumentsWithin_eq hnodes hpaths hdepth hcall
  · exact fun cut => Arena.callsWithin_eq hnodes (hends.mono hdepth)
  · exact fun cut => Arena.findingsWithin_eq hnodes (hends.mono hdepth) ⟨none, []⟩

/-- A path in a path, in a list. -/
def listedPath : Arena := ((Arena.empty.push (.reference "q")).1.push (.list [0])).1

def pathInPath : SymbolTable := ((SymbolTable.empty.definePath "p" ["z"]).1.definePath "q" ["p"]).1

theorem listedPath_childrenBefore : listedPath.ChildrenBefore := by
  have hreference : (Arena.empty.push (.reference "q")).1.Filled := .push .empty (by simp [Node.children])
  have hlist : listedPath.Filled := .push hreference (by simp [Node.children, Arena.push, Arena.empty, Arena.size])
  exact hlist.childrenBefore

theorem elementOf_pathInPath {element path : String} :
    pathInPath.ElementOf element path ↔ path = "p" ∧ element = "z" ∨ path = "q" ∧ element = "p" := by
  constructor
  · rintro ⟨column, elements, -, helements, helement⟩
    change List.lookup path [("q", ["p"]), ("p", ["z"])] = some elements at helements
    grind
  · rintro (⟨rfl, rfl⟩ | ⟨rfl, rfl⟩)
    · exact ⟨0, ["z"], rfl, rfl, .head _⟩
    · exact ⟨1, ["p"], rfl, rfl, .head _⟩

theorem pathInPath_pathsEnd : pathInPath.PathsEnd := by
  refine SymbolTable.pathsEnd_of_rank (fun name => if name = "q" then 2 else if name = "p" then 1 else 0) ?_
  intro element path h
  rcases elementOf_pathInPath.mp h with ⟨rfl, rfl⟩ | ⟨rfl, rfl⟩ <;> decide

/-- Visits of both nodes and both paths, and of a name that is no symbol. -/
theorem listedPath_deepest_descent :
    listedPath.ChildrenBefore ∧ pathInPath.PathsEnd ∧ listedPath.size + pathInPath.size + 1 = 5 ∧
      List.IsChain (Visited.LeadsTo listedPath pathInPath)
        [.node 1, .node 0, .name "q", .name "p", .name "z"] ∧
      (∀ rest, List.IsChain (Visited.LeadsTo listedPath pathInPath) (.node 1 :: rest) → rest.length < 5) ∧
      ∀ ctx record cut, listedPath.evaluateWithin ⟨pathInPath, ctx, record, []⟩ cut 5 1 [] =
        (Evaluator.ofExpr pathInPath (listedPath.tree 1)).evaluate ctx record := by
  obtain ⟨hchains, hdepths⟩ :=
    recursions_end_within_nodes_and_symbols listedPath_childrenBefore pathInPath_pathsEnd 1
  refine ⟨listedPath_childrenBefore, pathInPath_pathsEnd, rfl, ?_, hchains, fun ctx record cut => ?_⟩
  · have hp : pathInPath.ElementOf "z" "p" := elementOf_pathInPath.mpr (.inl ⟨rfl, rfl⟩)
    have hq : pathInPath.ElementOf "p" "q" := elementOf_pathInPath.mpr (.inr ⟨rfl, rfl⟩)
    exact .cons_cons (.child ⟨_, rfl, .head _⟩) <| .cons_cons (.reference rfl) <|
      .cons_cons (.element hq) <| .cons_cons (.element hp) (.singleton _)
  · exact ((hdepths 5 le_rfl).1 ctx record [] cut).1 []

end GraphQuery
