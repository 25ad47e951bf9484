import GraphQuery.Evaluation.Evaluator
import GraphQuery.Proofs.FreeNames
import GraphQuery.Proofs.RowReads

/-! Evaluation side by side, in two environments and two scopes. Where what the nodes of an expression read is
related, the results are. -/

namespace GraphQuery

open Outcome (Related Tolerance)

namespace Meaning

variable {T : Tolerance} {R : Entry → Entry → Prop} {g h : Graph} (hR : Resemblance T g h R)
  {F G : Expr → Meaning} {scope scope' : Scope}

section Lists

variable {items : List Expr}

theorem all_related (h : ∀ e ∈ items, Related T R (F e scope) (G e scope')) :
    Related T (List.Forall₂ R) (all (items.map F) scope) (all (items.map G) scope') := by
  rw [all, all, List.mapM_map, List.mapM_map]
  exact .mapM_same h

include hR

theorem elements_related (h : ∀ e ∈ items, Related T R (F e scope) (G e scope')) :
    Related T Eq (elements (items.map F) scope) (elements (items.map G) scope') := by
  rw [elements, elements, List.mapM_map, List.mapM_map, ← List.forall₂_eq_eq_eq]
  exact .mapM_same fun e he => (h e he).bind fun a b hab => hR.elementValue_related hab

theorem fields_related {pairs : List (String × Expr)}
    (h : ∀ p ∈ pairs, Related T R (F p.2 scope) (G p.2 scope')) :
    Related T Eq (fields (pairs.map fun (key, e) => (key, F e)) scope)
      (fields (pairs.map fun (key, e) => (key, G e)) scope') := by
  rw [fields, fields, List.mapM_map, List.mapM_map]
  refine .bind_left ?_ fun _ => Outcome.failsWith_pure _
  rw [← List.forall₂_eq_eq_eq]
  refine .mapM_same fun p hp => (h p hp).bind fun a b hab => ?_
  exact (hR.elementValue_related hab).bind_left fun _ => Outcome.failsWith_pure _

omit hR in
theorem branches_related {accepts accepts' : Entry → Outcome Bool} {otherwise otherwise' : Meaning}
    {pairs : List (Expr × Expr)} (ha : ∀ a b, R a b → Related T Eq (accepts a) (accepts' b))
    (ho : Related T R (otherwise scope) (otherwise' scope'))
    (h : ∀ p ∈ pairs,
      Related T R (F p.1 scope) (G p.1 scope') ∧ Related T R (F p.2 scope) (G p.2 scope')) :
    Related T R (branches accepts otherwise scope (pairs.map fun (a, b) => (F a, F b)))
      (branches accepts' otherwise' scope' (pairs.map fun (a, b) => (G a, G b))) := by
  induction pairs with
  | nil => exact ho
  | cons p pairs ih =>
    obtain ⟨hcondition, hresult⟩ := h p (by simp)
    have hrest := ih fun q hq => h q (List.mem_cons_of_mem p hq)
    refine hcondition.bind fun a b hab => (ha a b hab).bind ?_
    rintro accepted _ rfl
    cases accepted with
    | true => exact hresult
    | false => exact hrest

end Lists

theorem getD_related {e : Option Expr} {default : Meaning}
    (hd : Related T R (default scope) (default scope'))
    (h : ∀ c ∈ e.toList, Related T R (F c scope) (G c scope')) :
    Related T R ((e.map F).getD default scope) ((e.map G).getD default scope') := by
  cases e with
  | none => exact hd
  | some e => exact h e (by simp)

include hR

theorem null_related : Related T R (null scope) (null scope') := .of_ok (hR.constant _)

theorem binary_related {op : BinaryOp} {left right left' right' : Meaning}
    (hl : Related T R (left scope) (left' scope')) (hr : Related T R (right scope) (right' scope')) :
    Related T R (binary op left right scope) (binary op left' right' scope') := by
  have helements : ∀ a b c d, R a b → R c d →
      Related T R (pure (op.elementEquality a c)) (pure (op.elementEquality b d)) := by
    intro a b c d hab hcd
    rw [hR.elementEquality hab hcd op]
    exact .of_ok (hR.constant _)
  refine hl.bind fun l l' hll => ?_
  simp only [hR.isConstant hll]
  split
  · exact hr.bind fun r r' hrr => helements l l' r r' hll hrr
  · refine (hR.operand_related hll _).bind ?_
    rintro a _ rfl
    cases op.decided? a with
    | some verdict => exact .of_ok (hR.constant _)
    | none =>
      refine hr.bind fun r r' hrr => ?_
      simp only [hR.isConstant hrr]
      split
      · exact helements l l' r r' hll hrr
      · refine (hR.operand_related hrr _).bind ?_
        rintro b _ rfl
        refine (hR.refl (BinaryOp.apply_ordinary a b op)).bind ?_
        rintro v _ rfl
        exact .of_ok (hR.constant v)

theorem cases_related {subject otherwise : Option Expr} {pairs : List (Expr × Expr)}
    (h : ∀ c ∈ (Node.cases subject pairs otherwise).children, Related T R (F c scope) (G c scope')) :
    Related T R
      (cases (subject.map F) (pairs.map fun (a, b) => (F a, F b)) (otherwise.map F) scope)
      (cases (subject.map G) (pairs.map fun (a, b) => (G a, G b)) (otherwise.map G) scope') := by
  have hs : ∀ c ∈ subject.toList, Related T R (F c scope) (G c scope') := fun c hc =>
    h c (List.mem_append_left _ (List.mem_append_left _ hc))
  have ho : ∀ c ∈ otherwise.toList, Related T R (F c scope) (G c scope') := fun c hc =>
    h c (List.mem_append_right _ hc)
  have hp : ∀ p ∈ pairs,
      Related T R (F p.1 scope) (G p.1 scope') ∧ Related T R (F p.2 scope) (G p.2 scope') := by
    intro p hp
    have hmem : ∀ c ∈ [p.1, p.2], Related T R (F c scope) (G c scope') := fun c hc =>
      h c (List.mem_append_left _ (List.mem_append_right _ (List.mem_flatMap.mpr ⟨p, hp, hc⟩)))
    exact ⟨hmem _ (by simp), hmem _ (by simp)⟩
  cases subject with
  | none =>
    refine branches_related (fun a b hab => ?_) (getD_related (null_related hR) ho) hp
    rw [hR.isTrue hab]
    exact .of_ok rfl
  | some subject =>
    have hno : Related T R (noMatch scope) (noMatch scope') := .of_accepted (hR.accepts nofun)
    refine (hs subject (by simp)).bind fun s s' hss => ?_
    exact branches_related (fun a b hab => hR.matchesSubject_related hss hab) (getD_related hno ho) hp

theorem comprehendItem_related {binder binder' : String} {filter projection : Option Expr}
    (h : ∀ c ∈ filter.toList ++ projection.toList, ∀ item,
      Related T R (F c ((binder, .constant item) :: scope)) (G c ((binder', .constant item) :: scope')))
    (item : Value) :
    Related T Eq (comprehendItem binder (filter.map F) (projection.map F) scope item)
      (comprehendItem binder' (filter.map G) (projection.map G) scope' item) := by
  have hf : ∀ c ∈ filter.toList, ∀ item,
      Related T R (F c ((binder, .constant item) :: scope)) (G c ((binder', .constant item) :: scope')) :=
    fun c hc => h c (List.mem_append_left _ hc)
  have hp : ∀ c ∈ projection.toList,
      Related T Eq (do return some (← (← F c ((binder, .constant item) :: scope)).elementValue))
        (do return some (← (← G c ((binder', .constant item) :: scope')).elementValue)) := by
    intro c hc
    refine (h c (List.mem_append_right _ hc) _).bind fun a b hab => ?_
    exact (hR.elementValue_related hab).bind_left fun _ => Outcome.failsWith_pure _
  cases filter with
  | none =>
    cases projection with
    | none => exact .of_ok rfl
    | some p => exact hp p (by simp)
  | some f =>
    refine ((hf f (by simp) item).map (S := Eq) fun a b hab => hR.isTrue hab).bind ?_
    rintro accepted _ rfl
    cases accepted with
    | false => exact .of_ok rfl
    | true =>
      cases projection with
      | none => exact .of_ok rfl
      | some p => exact hp p (by simp)

omit hR in
theorem comprehension_of_not_constant {binder : String} {filter projection : Option Meaning} {e : Entry}
    (he : e.isConstant = false) :
    comprehension binder (fun _ => .ok e) filter projection scope =
      .error (.typeMismatch "list comprehension" ("expected a List, got " ++ e.kindName)) := by
  cases e <;> first | rfl | cases he

theorem comprehension_related {binder binder' : String} {list list' : Meaning} {filter projection : Option Expr}
    (hl : Related T R (list scope) (list' scope'))
    (h : ∀ c ∈ filter.toList ++ projection.toList, ∀ item,
      Related T R (F c ((binder, .constant item) :: scope)) (G c ((binder', .constant item) :: scope'))) :
    Related T R (comprehension binder list (filter.map F) (projection.map F) scope)
      (comprehension binder' list' (filter.map G) (projection.map G) scope') := by
  refine hl.bind fun a b hab => ?_
  have hmismatch := hR.allows_kind hab
    (fun kind => .typeMismatch "list comprehension" ("expected a List, got " ++ kind)) (fun _ _ => nofun)
    fun _ _ => rfl
  rcases hR.eq_constant_or hab with ⟨v, rfl, rfl⟩ | ⟨ha, hb⟩
  · cases v with
    | list items =>
      refine Related.bind (R := Eq) ?_ ?_
      · rw [← List.forall₂_eq_eq_eq]
        exact .mapM_same fun item _ => comprehendItem_related hR h item
      · rintro values _ rfl
        exact .of_ok (hR.constant _)
    | _ =>
      dsimp only
      split
      · exact .of_ok (hR.constant _)
      · exact .of_accepted (hR.accepts nofun)
  · change Related T R (comprehension binder (fun _ => .ok a) (filter.map F) (projection.map F) scope)
      (comprehension binder' (fun _ => .ok b) (filter.map G) (projection.map G) scope')
    rw [comprehension_of_not_constant ha, comprehension_of_not_constant hb]
    exact .of_error hmismatch

end Meaning

section Evaluation

variable {T : Tolerance} {R : Entry → Entry → Prop} {env env' : Environment} {scope : Scope}

theorem evaluateNode_related {scope' : Scope} (he : env.Related T R env') {F G : Expr → Meaning} {id : ExprId}
    {shape : Node Expr}
    (hn : ∀ name ∈ shape.namesFor .entry, Related T R (env.resolve scope name) (env'.resolve scope' name))
    (hpresent : ∀ name ∈ shape.namesFor .presence, env.isPresent scope name = env'.isPresent scope' name)
    (hd : ∀ c ∈ shape.direct, Related T R (F c scope) (G c scope'))
    (hb : ∀ p ∈ shape.underBinder, ∀ item,
      Related T R (F p.2 ((p.1, .constant item) :: scope)) (G p.2 ((p.1, .constant item) :: scope'))) :
    Related T R (evaluateNode env id (shape.mapChildren F) scope)
      (evaluateNode env' id (shape.mapChildren G) scope') := by
  have hR := he.entries
  have hvalue : ∀ {α : Type} {x y : Outcome α} (f : α → Value), Related T Eq x y →
      Related T R (do return .constant (f (← x))) (do return .constant (f (← y))) := by
    intro α x y f hxy
    refine hxy.bind ?_
    rintro a _ rfl
    exact .of_ok (hR.constant _)
  cases shape with
  | literal value => exact .of_ok (hR.constant _)
  | reference name => exact hn name (by simp [Node.namesFor])
  | parameter name =>
    simp only [Node.mapChildren, evaluateNode, Environment.parameter, Context.parameter?,
      ← he.parameters]
    split
    · exact .of_ok (hR.constant _)
    · exact .of_accepted (hR.accepts fun _ h => by cases h)
  | unary op a =>
    refine (hd a (by simp [Node.direct, Node.children])).bind fun x y hxy => ?_
    refine (hR.operand_related hxy _).bind ?_
    rintro v _ rfl
    exact hvalue (fun v => v) (hR.refl (UnaryOp.apply_ordinary v op))
  | binary op a b =>
    exact Meaning.binary_related hR (hd a (by simp [Node.direct, Node.children]))
      (hd b (by simp [Node.direct, Node.children]))
  | property a name =>
    exact (hd a (by simp [Node.direct, Node.children])).bind fun x y hxy =>
      hR.readProperty_related hxy name
  | call function args =>
    refine (Meaning.all_related hd).bind fun values values' hvalues => hvalue (fun v => v) ?_
    exact hR.callFunction_related hvalues he.plugins he.pluginFaults function
  | aggregate function distinct args => exact he.results id function
  | cases subject pairs otherwise => exact Meaning.cases_related hR hd
  | conditional a b otherwise =>
    have hchildren : ∀ c ∈ [a, b] ++ otherwise.toList, Related T R (F c scope) (G c scope') := hd
    refine (hchildren a (by simp)).bind fun x y hxy => ?_
    rw [hR.isTrue hxy]
    split
    · exact hchildren b (by simp)
    · refine Meaning.getD_related (Meaning.null_related hR) fun c hc => ?_
      exact hchildren c (List.mem_append_right _ hc)
  | list items => exact hvalue _ (Meaning.elements_related hR hd)
  | set items => exact hvalue _ (Meaning.elements_related hR hd)
  | tuple items => exact hvalue _ (Meaning.elements_related hR hd)
  | map fields =>
    have hfields : ∀ p ∈ fields, Related T R (F p.2 scope) (G p.2 scope') := fun p hp =>
      hd p.2 (List.mem_map_of_mem hp)
    exact hvalue _ (Meaning.fields_related hR hfields)
  | record fields =>
    have hfields : ∀ p ∈ fields, Related T R (F p.2 scope) (G p.2 scope') := fun p hp =>
      hd p.2 (List.mem_map_of_mem hp)
    exact hvalue _ (Meaning.fields_related hR hfields)
  | isNull a negated =>
    refine (hd a (by simp [Node.direct, Node.children])).bind fun x y hxy => ?_
    rw [hR.isNull hxy]
    exact .of_ok (hR.constant _)
  | hasLabel a label =>
    exact (hd a (by simp [Node.direct, Node.children])).bind fun x y hxy =>
      hR.checkLabel_related hxy label
  | pathExists aliases =>
    have hall : aliases.all (env.isPresent scope) = aliases.all (env'.isPresent scope') := by
      rw [Bool.eq_iff_iff, List.all_eq_true, List.all_eq_true]
      exact forall₂_congr fun name hname => by rw [hpresent name hname]
    simp only [Node.mapChildren, evaluateNode, hall]
    exact .of_ok (hR.constant _)
  | comprehension binder list filter projection =>
    refine Meaning.comprehension_related hR (hd list (by simp [Node.direct])) fun c hc => ?_
    exact hb (binder, c) (List.mem_map_of_mem hc)

/-- The induction binds names on the way down: a name that is mentioned below a comprehension is its
variable, or mentioned by the comprehension. -/
theorem Expr.meaning_related (he : env.Related T R env') (hscope : ∀ p ∈ scope, R p.2 p.2) (e : Expr)
    (hn : ∀ use name, e.Mentions use name →
      (∃ entry, List.lookup name scope = some entry) ∨ env.AgreeAt R env' use name) :
    Related T R (e.meaning env scope) (e.meaning env' scope) := by
  induction e using Expr.induction generalizing scope with
  | dangling id => exact .of_accepted (he.entries.raised _ (.dangling id))
  | node id shape ih =>
    rw [meaning_node, meaning_node]
    refine evaluateNode_related he (fun name hname => ?_) (fun name hname => ?_) (fun c hc => ?_) fun p hp item => ?_
    · exact he.resolve hscope (hn .entry name (.own hname))
    · exact he.isPresent hscope (hn .presence name (.own hname))
    · exact ih c (Node.mem_children_of_direct hc) hscope fun use name hname => hn use name (.direct hc hname)
    · have hinside : ∀ q ∈ (p.1, Entry.constant item) :: scope, R q.2 q.2 :=
        List.forall_mem_cons.mpr ⟨he.entries.constant item, hscope⟩
      refine ih p.2 (Node.mem_children_of_underBinder hp) hinside fun use name hname => ?_
      by_cases hbinder : name = p.1
      · exact .inl ⟨.constant item, by simp [hbinder]⟩
      · have hfree := hn use name (.underBinder hp hname hbinder)
        refine hfree.imp_left fun ⟨outer, houter⟩ => ⟨outer, ?_⟩
        rwa [List.lookup_cons, beq_false_of_ne hbinder]

theorem Expr.evaluate_related (he : env.Related T R env') (e : Expr)
    (hn : ∀ use name, e.Mentions use name → env.AgreeAt R env' use name) :
    Related T R (e.evaluate env) (e.evaluate env') :=
  e.meaning_related he (by simp) fun use name hname => .inr (hn use name hname)

end Evaluation

end GraphQuery
