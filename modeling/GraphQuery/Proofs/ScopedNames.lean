import GraphQuery.Proofs.PairedLists
import GraphQuery.Proofs.RowDependence

/-! What evaluation looks up in a scope: the names that an expression mentions and, for a named path, the names
of its elements. So the variable of a comprehension also stands for an element of a path that is named like
it. -/

namespace GraphQuery

open Outcome (Related)

namespace Environment

/-- The names looked up for a name: itself, and those looked up for its elements where it is a named path that
the scope does not bind. -/
inductive LooksUp (env : Environment) (scope : Scope) : String → String → Prop where
  | self (name : String) : env.LooksUp scope name name
  | element {path element name : String} {column : Nat} {elements : List String}
    (hfree : List.lookup path scope = none) (hpath : env.symbols.resolve path = some (column, .namedPath))
    (helements : env.symbols.pathElements path = some elements) (helement : element ∈ elements)
    (h : env.LooksUp scope element name) : env.LooksUp scope path name

variable {env : Environment} {scope scope' : Scope} {p q name : String}

theorem LooksUp.of_cons {b : String × Entry} (h : env.LooksUp (b :: scope) p q) : env.LooksUp scope p q := by
  induction h with
  | self name => exact .self name
  | @element path element name column elements hfree hpath helements helement _ ih =>
    have hbelow : List.lookup path scope = none := by
      rw [List.lookup_cons] at hfree
      split at hfree
      · cases hfree
      · exact hfree
    exact .element hbelow hpath helements helement ih

theorem LooksUp.eq_of_bound (h : env.LooksUp scope p q) (entry : Entry) (hp : List.lookup p scope = some entry) :
    q = p := by
  cases h with
  | self => rfl
  | element hfree => simp [hp] at hfree

theorem resolveWithin_congr {depth : Nat}
    (h : ∀ q, env.LooksUp scope name q → List.lookup q scope = List.lookup q scope') :
    env.resolveWithin scope depth name = env.resolveWithin scope' depth name := by
  induction depth generalizing name with
  | zero => rfl
  | succ depth ih =>
    simp only [resolveWithin, ← h name (.self name)]
    cases hfree : List.lookup name scope with
    | some entry => rfl
    | none =>
      cases hname : env.symbols.resolve name with
      | none => rfl
      | some symbol =>
        obtain ⟨column, kind⟩ := symbol
        cases kind with
        | namedPath =>
          have helements : ∀ element ∈ (env.symbols.pathElements name).getD [],
              env.resolveWithin scope depth element = env.resolveWithin scope' depth element := by
            intro element helement
            obtain ⟨elements, hpath, helement⟩ := SymbolTable.exists_pathElements helement
            exact ih fun q hq => h q (.element hfree hname hpath helement hq)
          simp only [Outcome.mapM_congr helements]
        | _ => rfl

theorem isPresent_congr (h : List.lookup name scope = List.lookup name scope') :
    env.isPresent scope name = env.isPresent scope' name := by
  rw [isPresent, isPresent, h]

/-- The scopes say the same about what is looked up for a name. -/
def ScopesAgreeAt (env : Environment) (scope scope' : Scope) : NameUse → String → Prop
  | .entry, name => ∀ q, env.LooksUp scope name q → List.lookup q scope = List.lookup q scope'
  | .presence, name => List.lookup name scope = List.lookup name scope'

theorem ScopesAgreeAt.cons {use : NameUse} {b : String × Entry}
    (h : name ≠ b.1 → env.ScopesAgreeAt scope scope' use name) :
    env.ScopesAgreeAt (b :: scope) (b :: scope') use name := by
  have hlookup : ∀ q, (q ≠ b.1 → List.lookup q scope = List.lookup q scope') →
      List.lookup q (b :: scope) = List.lookup q (b :: scope') := by
    intro q hq
    rw [List.lookup_cons, List.lookup_cons]
    by_cases hb : q = b.1
    · simp [hb]
    · rw [hq hb]
  cases use with
  | presence => exact hlookup name h
  | entry =>
    intro q hq
    by_cases hname : name = b.1
    · obtain rfl : q = name := hq.eq_of_bound b.2 (hname ▸ List.lookup_cons_self)
      exact hlookup q fun hne => absurd hname hne
    · exact hlookup q fun _ => h hname q hq.of_cons

end Environment

section Congruence

variable {env : Environment} {scope scope' : Scope} {F G : Expr → Meaning}

theorem evaluateNode_congr {id : ExprId} {shape : Node Expr}
    (hn : ∀ name ∈ shape.namesFor .entry, env.resolve scope name = env.resolve scope' name)
    (hpresent : ∀ name ∈ shape.namesFor .presence, env.isPresent scope name = env.isPresent scope' name)
    (hd : ∀ c ∈ shape.direct, F c scope = G c scope')
    (hb : ∀ p ∈ shape.underBinder, ∀ item,
      F p.2 ((p.1, .constant item) :: scope) = G p.2 ((p.1, .constant item) :: scope')) :
    evaluateNode env id (shape.mapChildren F) scope = evaluateNode env id (shape.mapChildren G) scope' :=
  Related.none_iff.mp <| evaluateNode_related (env.related_rows env.record env.record)
    (fun name hname => Related.none_iff.mpr (hn name hname)) hpresent
    (fun c hc => Related.none_iff.mpr (hd c hc)) fun p hp item => Related.none_iff.mpr (hb p hp item)

/-- The variable may have another name on the other side. -/
theorem Meaning.comprehension_congr {x y : String} {source source' : Meaning} {filter projection : Option Expr}
    (hs : source scope = source' scope') (h : ∀ c ∈ filter.toList ++ projection.toList, ∀ item,
      F c ((x, .constant item) :: scope) = G c ((y, .constant item) :: scope')) :
    comprehension x source (filter.map F) (projection.map F) scope =
      comprehension y source' (filter.map G) (projection.map G) scope' :=
  Related.none_iff.mp <| comprehension_related (.same_graph (T := .none) (fun _ _ => rfl) Graph.empty)
    (Related.none_iff.mpr hs) fun c hc item => Related.none_iff.mpr (h c hc item)

/-- Scopes that agree at all that an expression mentions give it one meaning. -/
theorem Expr.meaning_congr (e : Expr)
    (h : ∀ use name, e.Mentions use name → env.ScopesAgreeAt scope scope' use name) :
    e.meaning env scope = e.meaning env scope' := by
  induction e using Expr.induction generalizing scope scope' with
  | dangling id => rfl
  | node id shape ih =>
    rw [meaning_node]
    refine evaluateNode_congr (fun name hname => ?_) (fun name hname => ?_) (fun c hc => ?_) fun p hp item => ?_
    · exact Environment.resolveWithin_congr (h .entry name (.own hname))
    · exact Environment.isPresent_congr (h .presence name (.own hname))
    · exact ih c (Node.mem_children_of_direct hc) fun use name hname => h use name (.direct hc hname)
    · refine ih p.2 (Node.mem_children_of_underBinder hp) fun use name hname => ?_
      exact .cons fun hne => h use name (.underBinder hp hname hne)

end Congruence

/-- A scope inside of comprehensions, which bind names to values. -/
def Scope.extend (outer : Scope) (inner : List (String × Value)) : Scope :=
  inner.map (fun (name, v) => (name, .constant v)) ++ outer

section Capture

variable {env : Environment} {outer : Scope} {inner : List (String × Value)} {p q name : String}

theorem Scope.lookup_extend (name : String) : List.lookup name (outer.extend inner) =
    ((List.lookup name inner).map Entry.constant).or (List.lookup name outer) := by
  induction inner with
  | nil => rfl
  | cons b inner ih =>
    rw [extend, List.map_cons, List.cons_append, List.lookup_cons, List.lookup_cons]
    split
    · rfl
    · exact ih

theorem Scope.lookup_extend_of_notMem (h : name ∉ inner.map Prod.fst) :
    List.lookup name (outer.extend inner) = List.lookup name outer := by
  have hfree : List.lookup name inner = none := by
    rw [List.lookup_eq_none_iff]
    exact fun b hb => bne_iff_ne.mpr fun he => h (he ▸ List.mem_map_of_mem hb)
  rw [lookup_extend, hfree]
  rfl

theorem Scope.exists_lookup_extend (outer : Scope) (h : name ∈ inner.map Prod.fst) :
    ∃ v, List.lookup name (outer.extend inner) = some (.constant v) := by
  obtain ⟨b, hb, rfl⟩ := List.mem_map.mp h
  obtain ⟨v, hv⟩ := Option.isSome_iff_exists.mp (List.lookup_isSome_iff.mpr ⟨b, hb, BEq.rfl⟩)
  exact ⟨v, by rw [lookup_extend, hv]; rfl⟩

/-- A value is no element of a path. -/
theorem pathTexts_of_constant {v : Value} {parts : List Entry} {texts : Option (List String)}
    (hv : .constant v ∈ parts) (h : pathTexts parts = .ok texts) : texts = none := by
  induction parts generalizing texts with
  | nil => cases hv
  | cons part parts ih =>
    rw [pathTexts_cons] at h
    obtain ⟨here, hhere, h⟩ := Outcome.bind_eq_ok.mp h
    cases here with
    | none => exact (Except.ok.inj h).symm
    | some first =>
      rcases List.mem_cons.mp hv with rfl | hv
      · cases hnull : v.isNull <;> simp [pathPart, Entry.isEntity, Entry.isNull, hnull] at hhere
      · obtain ⟨rest, hrest, h⟩ := Outcome.bind_eq_ok.mp h
        rw [ih hv hrest] at h
        exact (Except.ok.inj h).symm

theorem pathFunction_of_constant {v w : Value} {parts : List Entry} (hv : .constant v ∈ parts)
    (h : pathFunction parts = .ok w) : w = .null := by
  rw [pathFunction] at h
  cases htexts : pathTexts parts with
  | error fault =>
    rw [htexts] at h
    cases h
  | ok texts =>
    rw [htexts, pathTexts_of_constant hv htexts] at h
    exact (Except.ok.inj h).symm

/-- Where a comprehension binds a name that is looked up for a path, the reference gives no path. -/
theorem eq_null_of_captured (h : env.LooksUp outer p q) (hp : p ∉ inner.map Prod.fst)
    (hq : q ∈ inner.map Prod.fst) {depth : Nat} {entry : Entry}
    (hr : env.resolveWithin (outer.extend inner) depth p = .ok entry) : entry = .null := by
  -- along the elements that lead to the bound name; each path on the way has a value for an element
  induction h generalizing depth entry with
  | self => exact absurd hq hp
  | @element path element name column elements hfree hpath helements helement _ ih =>
    cases depth with
    | zero => cases hr
    | succ depth =>
      simp only [Environment.resolveWithin, Scope.lookup_extend_of_notMem hp, hfree, hpath, helements,
        Option.getD_some] at hr
      obtain ⟨parts, hparts, hr⟩ := Outcome.bind_eq_ok.mp hr
      obtain ⟨w, hw, hr⟩ := Outcome.bind_eq_ok.mp hr
      obtain ⟨part, hmem, hpart⟩ := mem_left_of_forall₂ (Outcome.mapM_eq_ok_iff.mp hparts) helement
      have hconstant : ∃ v, part = .constant v := by
        by_cases he : element ∈ inner.map Prod.fst
        · obtain ⟨v, hv⟩ := Scope.exists_lookup_extend outer he
          cases depth with
          | zero => cases hpart
          | succ depth =>
            simp only [Environment.resolveWithin, hv] at hpart
            exact ⟨v, (Except.ok.inj hpart).symm⟩
        · exact ⟨.null, ih he hq hpart⟩
      obtain ⟨v, rfl⟩ := hconstant
      rw [pathFunction_of_constant hmem hw] at hr
      exact (Except.ok.inj hr).symm

end Capture

end GraphQuery
