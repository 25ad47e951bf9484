import GraphQuery.Proofs.ScopedNames

/-! The variable of a comprehension under another name. A reference to a named path means the same inside of
the comprehension as outside, and the comprehension the same under either name, unless the variable has the
name of an element of the path. -/

namespace GraphQuery

def renameTo (x y name : String) : String := if name = x then y else name

namespace Node

variable {α : Type}

def binders : Node α → List String
  | comprehension binder _ _ _ => [binder]
  | _ => []

theorem binders_mapChildren {β : Type} (f : α → β) (node : Node α) : (node.mapChildren f).binders = node.binders := by
  cases node <;> rfl

theorem mem_binders_of_underBinder {node : Node α} {p : String × α} (h : p ∈ node.underBinder) :
    p.1 ∈ node.binders := by
  cases node with
  | comprehension binder list filter projection =>
    obtain ⟨c, -, rfl⟩ := List.mem_map.mp h
    exact List.mem_singleton_self binder
  | _ => cases h

/-- A node with a variable renamed, from the node and the one over its renamed children. Aggregate calls are
evaluated outside of all comprehensions. -/
def renamed (x y : String) (shape below : Node α) : Node α :=
  match shape, below with
  | reference name, _ => reference (renameTo x y name)
  | pathExists aliases, _ => pathExists (aliases.map (renameTo x y))
  | aggregate .., _ => shape
  | comprehension binder _ filter projection, comprehension _ source _ _ =>
    if binder = x then comprehension binder source filter projection else below
  | _, _ => below

theorem renamed_rebound (x y : String) (source : α) (filter projection : Option α) (f : α → α) :
    (comprehension x source filter projection).renamed x y
      ((comprehension x source filter projection).mapChildren f) = comprehension x (f source) filter projection :=
  if_pos rfl

theorem renamed_comprehension {x binder : String} (h : binder ≠ x) (y : String) (source : α)
    (filter projection : Option α) (f : α → α) : (comprehension binder source filter projection).renamed x y
      ((comprehension binder source filter projection).mapChildren f) =
        (comprehension binder source filter projection).mapChildren f :=
  if_neg h

end Node

namespace Expr

/-- All names that occur in an expression, looked up or bound. -/
def occurring (e : Expr) : List String :=
  e.fold (fun _ _ below => below.names ++ below.binders ++ below.children.flatten) fun _ => []

theorem mem_occurring_node {id : ExprId} {shape : Node Expr} {name : String} :
    name ∈ (node id shape).occurring ↔
      name ∈ shape.names ∨ name ∈ shape.binders ∨ ∃ c ∈ shape.children, name ∈ c.occurring := by
  rw [occurring, fold_node, Node.names_mapChildren, Node.binders_mapChildren, Node.children_mapChildren]
  simp only [List.mem_append, List.mem_flatten, List.mem_map, exists_exists_and_eq_and, or_assoc]
  rfl

theorem notMem_occurring_child {id : ExprId} {shape : Node Expr} {name : String}
    (h : name ∉ (node id shape).occurring) {c : Expr} (hc : c ∈ shape.children) : name ∉ c.occurring :=
  fun hname => h (mem_occurring_node.mpr (.inr (.inr ⟨c, hc, hname⟩)))

theorem Mentions.mem_occurring {use : NameUse} {e : Expr} {name : String} (h : e.Mentions use name) :
    name ∈ e.occurring := by
  induction h with
  | own hname => exact mem_occurring_node.mpr (.inl (Node.mem_names_of_namesFor hname))
  | direct hc _ ih => exact mem_occurring_node.mpr (.inr (.inr ⟨_, Node.mem_children_of_direct hc, ih⟩))
  | underBinder hp _ _ ih =>
    exact mem_occurring_node.mpr (.inr (.inr ⟨_, Node.mem_children_of_underBinder hp, ih⟩))

/-- An expression with `y` for the variable `x`, where no comprehension inside binds `x` again. -/
def renamed (x y : String) (e : Expr) : Expr :=
  e.fold (fun id shape below => node id (shape.renamed x y below)) dangling

theorem renamed_node (x y : String) (id : ExprId) (shape : Node Expr) :
    (node id shape).renamed x y = node id (shape.renamed x y (shape.mapChildren (renamed x y))) :=
  fold_node _ _ id shape

end Expr

/-- The first scope has under `x` what the second one has under `y`, and they agree at all other names. -/
structure Scope.Renames (x y : String) (scope scope' : Scope) : Prop where
  own : ∃ entry, List.lookup x scope = some entry ∧ List.lookup y scope' = some entry
  others : ∀ q, q ≠ x → q ≠ y → List.lookup q scope = List.lookup q scope'

theorem Scope.Renames.cons {x y : String} {scope scope' : Scope} (h : Scope.Renames x y scope scope')
    {b : String × Entry} (hx : b.1 ≠ x) (hy : b.1 ≠ y) : Scope.Renames x y (b :: scope) (b :: scope') where
  own := by
    obtain ⟨entry, hentry, hentry'⟩ := h.own
    refine ⟨entry, ?_, ?_⟩
    · rwa [List.lookup_cons, beq_false_of_ne hx.symm]
    · rwa [List.lookup_cons, beq_false_of_ne hy.symm]
  others := fun q hqx hqy => by rw [List.lookup_cons, List.lookup_cons, h.others q hqx hqy]

namespace Environment

/-- No name that an expression mentions, other than `x` itself, stands for a path that leads to `x` or `y`. -/
def KeepsApart (env : Environment) (scope : Scope) (x y : String) (e : Expr) : Prop :=
  ∀ name, e.Mentions .entry name → name ≠ x → ∀ q, env.LooksUp scope name q → q ≠ x ∧ q ≠ y

variable {env : Environment} {scope : Scope} {x y : String} {id : ExprId} {shape : Node Expr}

theorem KeepsApart.direct (h : env.KeepsApart scope x y (.node id shape)) {c : Expr} (hc : c ∈ shape.direct) :
    env.KeepsApart scope x y c :=
  fun name hname => h name (.direct hc hname)

theorem KeepsApart.underBinder (h : env.KeepsApart scope x y (.node id shape)) {p : String × Expr}
    (hp : p ∈ shape.underBinder) (hx : p.1 ≠ x) (hy : p.1 ≠ y) (entry : Entry) :
    env.KeepsApart ((p.1, entry) :: scope) x y p.2 := by
  intro name hname hne q hq
  by_cases hbinder : name = p.1
  · obtain rfl : q = name := hq.eq_of_bound entry (hbinder ▸ List.lookup_cons_self)
    exact hbinder ▸ ⟨hx, hy⟩
  · exact h name (.underBinder hp hname hbinder) hne q hq.of_cons

end Environment

section Renaming

variable {env : Environment} {scope scope' : Scope} {x y : String} {id : ExprId} {shape : Node Expr}

theorem Scope.Renames.agreeAt (hr : Scope.Renames x y scope scope') {e : Expr} (hy : y ∉ e.occurring)
    (hpaths : env.KeepsApart scope x y e) {use : NameUse} {name : String} (h : e.Mentions use name)
    (hx : name ≠ x) : env.ScopesAgreeAt scope scope' use name := by
  cases use with
  | entry =>
    intro q hq
    obtain ⟨hqx, hqy⟩ := hpaths name h hx q hq
    exact hr.others q hqx hqy
  | presence => exact hr.others name hx fun he => hy (he ▸ h.mem_occurring)

theorem Scope.Renames.resolve (hr : Scope.Renames x y scope scope') {name : String}
    (h : name ≠ x → env.ScopesAgreeAt scope scope' .entry name) :
    env.resolve scope' (renameTo x y name) = env.resolve scope name := by
  by_cases hx : name = x
  · obtain ⟨entry, hentry, hentry'⟩ := hr.own
    simp [renameTo, hx, Environment.resolve, Environment.resolveWithin, hentry, hentry']
  · rw [renameTo, if_neg hx]
    exact (Environment.resolveWithin_congr (h hx)).symm

theorem Scope.Renames.isPresent (hr : Scope.Renames x y scope scope') {name : String}
    (h : name ≠ x → env.ScopesAgreeAt scope scope' .presence name) :
    env.isPresent scope' (renameTo x y name) = env.isPresent scope name := by
  by_cases hx : name = x
  · obtain ⟨entry, hentry, hentry'⟩ := hr.own
    simp [renameTo, hx, Environment.isPresent, hentry, hentry']
  · rw [renameTo, if_neg hx]
    exact (Environment.isPresent_congr (h hx)).symm

/-- Nodes that look nothing up themselves and do not bind `x` again mean what they mean over their renamed
children. -/
theorem evaluateNode_renamed (hr : Scope.Renames x y scope scope') (hy : y ∉ (Expr.node id shape).occurring)
    (hpaths : env.KeepsApart scope x y (.node id shape)) (hnames : ∀ use, shape.namesFor use = [])
    (hx : x ∉ shape.binders)
    (ih : ∀ c ∈ shape.children, ∀ {scope scope' : Scope}, Scope.Renames x y scope scope' → y ∉ c.occurring →
      env.KeepsApart scope x y c → (c.renamed x y).meaning env scope' = c.meaning env scope) :
    evaluateNode env id (shape.mapChildren fun c => (c.renamed x y).meaning env) scope' =
      evaluateNode env id (shape.mapChildren (Expr.meaning env)) scope := by
  refine evaluateNode_congr (by simp [hnames]) (by simp [hnames]) (fun c hc => ?_) fun p hp item => ?_
  · have hchild := Node.mem_children_of_direct hc
    exact ih c hchild hr (Expr.notMem_occurring_child hy hchild) (hpaths.direct hc)
  · have hchild := Node.mem_children_of_underBinder hp
    have hbinder := Node.mem_binders_of_underBinder hp
    have hpx : p.1 ≠ x := fun he => hx (he ▸ hbinder)
    have hpy : p.1 ≠ y := fun he => hy (Expr.mem_occurring_node.mpr (.inr (.inl (he ▸ hbinder))))
    exact ih p.2 hchild (hr.cons hpx hpy) (Expr.notMem_occurring_child hy hchild) (hpaths.underBinder hp hpx hpy _)

theorem Expr.meaning_renamed (e : Expr) (hr : Scope.Renames x y scope scope') (hy : y ∉ e.occurring)
    (hpaths : env.KeepsApart scope x y e) : (e.renamed x y).meaning env scope' = e.meaning env scope := by
  -- comprehensions on the way down keep the scopes apart at `x` and `y` only
  induction e using Expr.induction generalizing scope scope' with
  | dangling id => rfl
  | node id shape ih =>
    have hgeneric (hnames : ∀ use, shape.namesFor use = []) (hx : x ∉ shape.binders) :
        evaluateNode env id ((shape.mapChildren (Expr.renamed x y)).mapChildren (meaning env)) scope' =
          evaluateNode env id (shape.mapChildren (meaning env)) scope := by
      rw [Node.mapChildren_mapChildren]
      exact evaluateNode_renamed hr hy hpaths hnames hx ih
    rw [renamed_node, meaning_node, meaning_node]
    cases shape with
    | reference name =>
      exact hr.resolve fun hx => hr.agreeAt hy hpaths (.own (List.mem_singleton_self name)) hx
    | pathExists aliases =>
      have hall : (aliases.map (renameTo x y)).all (env.isPresent scope') = aliases.all (env.isPresent scope) := by
        rw [List.all_map, Bool.eq_iff_iff, List.all_eq_true, List.all_eq_true]
        refine forall₂_congr fun name hname => ?_
        rw [Function.comp_apply, hr.isPresent fun hx => hr.agreeAt hy hpaths (.own hname) hx]
      exact congrArg (fun b => Except.ok (Entry.constant (.bool b))) hall
    | aggregate function distinct args => rfl
    | comprehension binder source filter projection =>
      by_cases hx : binder = x
      · -- inside, `x` is the variable of this comprehension and `y` does not occur
        subst hx
        have hsource : source ∈ (Node.comprehension binder source filter projection).direct :=
          List.mem_singleton_self source
        have hchild := Node.mem_children_of_direct hsource
        have hlist := ih source hchild hr (notMem_occurring_child hy hchild) (hpaths.direct hsource)
        rw [Node.renamed_rebound]
        refine Meaning.comprehension_congr hlist fun c hc item =>
          (c.meaning_congr fun use name hname => .cons fun hne => ?_).symm
        exact hr.agreeAt hy hpaths (.underBinder (List.mem_map_of_mem hc) hname hne) hne
      · rw [Node.renamed_comprehension hx]
        exact hgeneric (fun use => by cases use <;> rfl) (by simp [Node.binders, Ne.symm hx])
    | _ => exact hgeneric (fun use => by cases use <;> rfl) (by simp [Node.binders])

theorem Scope.Renames.of_binders (x y : String) (entry : Entry) (outer : Scope) :
    Scope.Renames x y ((x, entry) :: outer) ((y, entry) :: outer) where
  own := ⟨entry, List.lookup_cons_self, List.lookup_cons_self⟩
  others := fun q hx hy => by
    rw [List.lookup_cons, List.lookup_cons, beq_false_of_ne hx, beq_false_of_ne hy]

theorem comprehension_renamed {outer : Scope} {filter projection : Option Expr}
    (h : ∀ e ∈ filter.toList ++ projection.toList, y ∉ e.occurring ∧ env.KeepsApart outer x y e) (source : Expr) :
    (Expr.node id (.comprehension y source (filter.map (Expr.renamed x y))
        (projection.map (Expr.renamed x y)))).meaning env outer =
      (Expr.node id (.comprehension x source filter projection)).meaning env outer := by
  rw [Expr.meaning_node, Expr.meaning_node, Node.mapChildren, Option.map_map, Option.map_map]
  refine Meaning.comprehension_congr rfl fun e he item => ?_
  obtain ⟨hy, hpaths⟩ := h e he
  exact e.meaning_renamed (.of_binders x y _ outer) hy fun name hname hne q hq => hpaths name hname hne q hq.of_cons

end Renaming

/-- Below comprehensions that do not bind its name, a reference means what it means outside, unless they bind a
name that is looked up for it. Then it is a named path, and gives Null or fails. A comprehension means the same
with its variable renamed to a name that does not occur inside, unless a path leads to either name. -/
theorem comprehension_variables_capture_path_elements (env : Environment) (outer : Scope) :
    (∀ (i : ExprId) (p : String) (inner : List (String × Value)), p ∉ inner.map Prod.fst →
      let reference := (Expr.node i (.reference p)).meaning env
      ((∀ q, env.LooksUp outer p q → q ∉ inner.map Prod.fst) → reference (outer.extend inner) = reference outer) ∧
        ∀ q, env.LooksUp outer p q → q ∈ inner.map Prod.fst →
          ∀ entry, reference (outer.extend inner) = .ok entry → entry = .null) ∧
    ∀ (i : ExprId) (x y : String) (source : Expr) (filter projection : Option Expr),
      (∀ e ∈ filter.toList ++ projection.toList, y ∉ e.occurring ∧ env.KeepsApart outer x y e) →
        (Expr.node i (.comprehension y source (filter.map (Expr.renamed x y))
            (projection.map (Expr.renamed x y)))).meaning env outer =
          (Expr.node i (.comprehension x source filter projection)).meaning env outer := by
  refine ⟨fun i p inner hp => ⟨fun hfree => ?_, fun q hq hbound entry hentry => ?_⟩,
    fun i x y source filter projection h => comprehension_renamed h source⟩
  · exact (Environment.resolveWithin_congr fun q hq => (Scope.lookup_extend_of_notMem (hfree q hq)).symm).symm
  · exact eq_null_of_captured hq hp hbound hentry

def rowOfPath : Environment :=
  ⟨((SymbolTable.empty.insert "a" .node).1.definePath "p" ["a"]).1, .ofGraph .empty, .ofEntries [.node 5], []⟩

def pathReference : Expr := .node 2 (.reference "p")

/-- `[x IN [1] | p]`, whatever the variable is called. -/
def pathForEach (x : String) : Expr :=
  .node 3 (.comprehension x (.node 1 (.list [.node 0 (.literal (.int 1))])) none (some pathReference))

theorem lookups_of_path {scope : Scope} {q : String} (h : rowOfPath.LooksUp scope "p" q) : q = "p" ∨ q = "a" := by
  have hpath : rowOfPath.symbols.pathElements "p" = some ["a"] := rfl
  have hnode : rowOfPath.symbols.resolve "a" = some (0, .node) := rfl
  cases h with
  | self => exact .inl rfl
  | element hfree hresolve helements helement h =>
    obtain rfl := Option.some.inj (hpath.symm.trans helements)
    obtain rfl := List.mem_singleton.mp helement
    cases h with
    | self => exact .inr rfl
    | element hfree hresolve => simp [hnode] at hresolve

/-- Under a variable `b` the path is as outside, and `b` may be renamed to `c`; under a variable `a` that is Null
the path is Null. -/
theorem path_under_other_variable :
    let path : Value := .list [.string "V[5]"]
    pathReference.meaning rowOfPath (Scope.extend [] [("b", .int 1)]) = .ok (.constant path) ∧
      (pathForEach "c").evaluate rowOfPath = .ok (.constant (.list [path])) ∧
      pathReference.meaning rowOfPath (Scope.extend [] [("a", .null)]) = .ok .null := by
  intro path
  obtain ⟨hreference, hrenamed⟩ := comprehension_variables_capture_path_elements rowOfPath []
  have hinside := (hreference 2 "p" [("b", .int 1)] (by decide)).1 fun q hq => by
    rcases lookups_of_path hq with rfl | rfl <;> decide
  have hoccurring : pathReference.occurring = ["p"] := rfl
  have hfresh : ∀ e ∈ [pathReference], "c" ∉ e.occurring ∧ rowOfPath.KeepsApart [] "b" "c" e := by
    intro e he
    obtain rfl := List.mem_singleton.mp he
    refine ⟨by rw [hoccurring]; decide, fun name hname _ q hq => ?_⟩
    obtain rfl := List.mem_singleton.mp (hoccurring ▸ hname.mem_occurring)
    rcases lookups_of_path hq with rfl | rfl <;> decide
  have hsame := hrenamed 3 "b" "c" (.node 1 (.list [.node 0 (.literal (.int 1))])) none (some pathReference) hfresh
  obtain ⟨entry, hcaptured⟩ : ∃ entry, pathReference.meaning rowOfPath (Scope.extend [] [("a", .null)]) = .ok entry :=
    ⟨_, rfl⟩
  obtain rfl := (hreference 2 "p" [("a", .null)] (by decide)).2 "a"
    (.element rfl rfl rfl (List.mem_singleton_self "a") (.self "a")) (by decide) entry hcaptured
  have hover : (pathForEach "b").evaluate rowOfPath = .ok (.constant (.list [path])) := rfl
  exact ⟨hinside, hsame.trans hover, hcaptured⟩

/-- A variable with the name of the node takes its place in the path, which fails as it is no path of values. -/
theorem path_under_variable_of_its_node :
    pathReference.meaning rowOfPath (Scope.extend [] [("a", .int 1)]) ≠ pathReference.meaning rowOfPath [] ∧
      (pathForEach "a").evaluate rowOfPath ≠ (pathForEach "b").evaluate rowOfPath ∧
      (pathForEach "b").evaluate rowOfPath = .ok (.constant (.list [.list [.string "V[5]"]])) := by
  have houtside : pathReference.meaning rowOfPath [] = .ok (.constant (.list [.string "V[5]"])) := rfl
  have hinside : pathReference.meaning rowOfPath (Scope.extend [] [("a", .int 1)]) =
      .error (argumentMismatch pathFunctionName "graph entity" (.constant (.int 1))) := rfl
  have hnode : (pathForEach "a").evaluate rowOfPath =
      .error (argumentMismatch pathFunctionName "graph entity" (.constant (.int 1))) := rfl
  have hother : (pathForEach "b").evaluate rowOfPath = .ok (.constant (.list [.list [.string "V[5]"]])) := rfl
  refine ⟨?_, ?_, hother⟩
  · rw [houtside, hinside]
    nofun
  · rw [hnode, hother]
    nofun

end GraphQuery
