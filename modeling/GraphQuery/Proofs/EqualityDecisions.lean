import GraphQuery.Proofs.BareCounts
import GraphQuery.Proofs.ComparisonLaws
import GraphQuery.Proofs.HashTables
import GraphQuery.Proofs.RelatedSteps

/-! Many places decide whether values are equal: comparison, simple CASE, membership, sets, counts with
DISTINCT and the keys of groups. They decide alike. -/

namespace GraphQuery

open Outcome (Tolerance)

section Operators

variable {scope : Scope} {left right : Meaning} {x y : Value}

theorem Meaning.binary_of_values {op : BinaryOp} (hl : left scope = .ok (.constant x))
    (hr : right scope = .ok (.constant y)) (hd : op.decided? x = none) :
    binary op left right scope = (op.apply x y).map .constant := by
  simp only [binary, hl, hr, hd, operand, Entry.asConstant, Entry.isConstant, bind, Except.bind, Bool.not_true,
    Bool.and_false, Bool.false_eq_true, if_false]
  cases op.apply x y <;> rfl

theorem matchesSubject_values (x y : Value) : matchesSubject (.constant x) (.constant y) =
    if x.comparable y then .ok (x.equal y) else .error (Value.mismatch "=" x y) := by
  rw [matchesSubject, Value.compareBy_eq]
  split
  · cases x.equal y <;> rfl
  · rfl

/-- Comparison, simple CASE, a set and membership decide about two expressions by the equality of their
values. -/
structure DecideByEquality (env : Environment) (scope : Scope) (a b : Expr) (x y : Value) : Prop where
  operator : ∀ i, (Expr.node i (.binary (.comparison .eq) a b)).meaning env scope =
    if x.comparable y then .ok (.constant (.bool (x.equal y))) else .error (Value.mismatch "=" x y)
  branch : ∀ i result otherwise, (Expr.node i (.cases (some a) [(b, result)] otherwise)).meaning env scope =
    if x.comparable y then
      if x.equal y then result.meaning env scope
      else ((otherwise.map (Expr.meaning env)).getD Meaning.noMatch) scope
    else .error (Value.mismatch "=" x y)
  set : ∀ i, (Expr.node i (.set [a, b])).meaning env scope =
    .ok (.constant (.list (if x.equal y then [x] else [x, y])))
  membership : x.isNull = false → x.isScalar = true → ∀ i j,
    (Expr.node i (.binary .membership a (.node j (.list [b])))).meaning env scope =
      .ok (.constant (.bool (x.equal y)))

variable {env : Environment} {a b : Expr}

theorem elements_of_values {items : List Expr} {values : List Value}
    (h : List.Forall₂ (fun e v => e.meaning env scope = .ok (.constant v)) items values) :
    Meaning.elements (items.map (Expr.meaning env)) scope = .ok values := by
  rw [Meaning.elements, Outcome.mapM_eq_ok_iff, List.forall₂_map_left_iff]
  refine h.imp fun e v he => ?_
  rw [he]
  rfl

theorem set_of_values {items : List Expr} {values : List Value}
    (h : List.Forall₂ (fun e v => e.meaning env scope = .ok (.constant v)) items values) (i : ExprId) :
    (Expr.node i (.set items)).meaning env scope = .ok (.constant (.list (distinctValues values))) := by
  rw [Expr.meaning_node]
  simp only [Node.mapChildren, evaluateNode, elements_of_values h]
  rfl

theorem decideByEquality (ha : a.meaning env scope = .ok (.constant x))
    (hb : b.meaning env scope = .ok (.constant y)) : DecideByEquality env scope a b x y where
  operator := fun i => by
    rw [Expr.meaning_node]
    refine (Meaning.binary_of_values ha hb rfl).trans ?_
    rw [BinaryOp.apply, Value.compareBy_eq]
    split <;> rfl
  branch := fun i result otherwise => by
    rw [Expr.meaning_node]
    simp only [Node.mapChildren, evaluateNode, Meaning.cases, Meaning.branches, Option.map_some, List.map_cons,
      List.map_nil, ha, hb, matchesSubject_values, bind, Except.bind]
    by_cases hc : x.comparable y = true
    · rw [if_pos hc, if_pos hc]
    · rw [if_neg hc, if_neg hc]
  set := fun i => by
    rw [set_of_values (.cons ha (.cons hb .nil)), distinctValues_pair]
  membership := fun hnull hscalar i j => by
    have hlist : (Expr.node j (.list [b])).meaning env scope = .ok (.constant (.list [y])) := by
      rw [Expr.meaning_node]
      simp only [Node.mapChildren, evaluateNode, elements_of_values (.cons hb .nil)]
      rfl
    rw [Expr.meaning_node]
    refine (Meaning.binary_of_values ha hlist rfl).trans ?_
    simp only [BinaryOp.apply, membership, hnull, hscalar, Value.asList, List.any_cons, List.any_nil,
      Bool.or_false, Value.equal_comm y x]
    rfl

end Operators

section Nulls

variable {env : Environment} {scope : Scope} {e : Expr} {entry : Entry}

/-- Three tests for Null answer alike about what an expression gives. -/
structure DecideNull (env : Environment) (scope : Scope) (e : Expr) (answer : Bool) : Prop where
  test : ∀ i, (Expr.node i (.isNull e false)).meaning env scope = .ok (.constant (.bool answer))
  equality : ∀ i j, (Expr.node i (.binary (.comparison .eq) e (.node j (.literal .null)))).meaning env scope =
    .ok (.constant (.bool answer))
  absence : ∀ i j, (Expr.node i (.unary .not (.node j (.call "exists" [e])))).meaning env scope =
    .ok (.constant (.bool answer))

theorem decideNull (he : e.meaning env scope = .ok entry) (hu : entry.isUnknown = false) :
    DecideNull env scope e entry.isNull where
  test := fun i => by
    rw [Expr.meaning_node]
    simp only [Node.mapChildren, evaluateNode, he, bind, Except.bind, Bool.bne_false]
    rfl
  equality := fun i j => by
    have hnull : (Expr.node j (.literal .null)).meaning env scope = .ok (.constant .null) := rfl
    rw [Expr.meaning_node]
    by_cases hc : entry.isConstant = true
    · cases entry with
      | constant v =>
        refine (Meaning.binary_of_values he hnull rfl).trans ?_
        rw [BinaryOp.apply, Value.compareBy_eq, Value.equal_null, Value.comparable_null, if_pos rfl]
        rfl
      | _ => cases hc
    · simp only [Node.mapChildren, evaluateNode, Meaning.binary, he, hnull, bind, Except.bind]
      cases entry <;> first | rfl | exact absurd rfl hc
  absence := fun i j => by
    have hexists : (Expr.node j (.call "exists" [e])).meaning env scope =
        .ok (.constant (.bool !entry.isNull)) := by
      have hcall : callFunction env.context "exists" [entry] = .ok (.bool (!entry.isNull && !entry.isUnknown)) := rfl
      rw [Expr.meaning_node]
      simp only [Node.mapChildren, evaluateNode, Meaning.all, List.map_cons, List.map_nil, List.mapM_cons,
        List.mapM_nil, he, bind, Except.bind, pure, Except.pure, hcall, hu, Bool.not_false, Bool.and_true]
    rw [Expr.meaning_node]
    simp only [Node.mapChildren, evaluateNode, Meaning.unary, hexists, bind, Except.bind]
    cases entry.isNull <;> rfl

end Nulls

namespace Evaluator

variable {e : Evaluator} {ctx : Context} {row : Record} {scope : Scope} {root : Expr} {entry : Entry}

theorem boundResemblance (g : Graph) : Resemblance .none g g fun a b => a = b ∧ a.isUnknown = false where
  raised := fun _ _ => rfl
  constant := fun _ => ⟨rfl, rfl⟩
  snapshot := fun _ _ ⟨hab, _⟩ => congrArg _ hab
  isValid := fun _ _ ⟨hab, _⟩ => congrArg _ hab
  nodeData := fun _ _ ⟨hab, _⟩ => congrArg _ hab
  edgeData := fun _ _ ⟨hab, _⟩ => congrArg _ hab
  kind := fun _ _ ⟨hab, _⟩ => .inl (congrArg _ hab)

/-- Evaluation gives no unbound slot, whatever slots of the row are unbound. -/
theorem isUnknown_of_meaning (h : e.slots.HoldValues) (hscope : ∀ p ∈ scope, p.2.isUnknown = false)
    (hm : root.meaning (e.environment ctx row) scope = .ok entry) : entry.isUnknown = false := by
  have hctx : ctx.Alike .none (fun a b => a = b ∧ a.isUnknown = false) ctx :=
    ⟨rfl, rfl, boundResemblance ctx.graph⟩
  have hrow : row.Alike (fun a b => a = b ∧ a.isUnknown = false) row :=
    Record.alike_self fun column entry hentry => by simpa using (Option.filter_eq_some_iff.mp hentry).2
  have hrelated := root.meaning_related (environment_related Tolerance.none_strict hctx h row row)
    (fun p hp => ⟨rfl, hscope p hp⟩) fun _ _ _ => .inr fun column _ => hrow.columns column
  obtain ⟨entry', hm', rfl, hbound⟩ := hrelated.ok entry hm
  exact hbound

end Evaluator

namespace Grouping

variable {s : Grouping} {ctx : Context} {r r' : Record} {x y : Value}

/-- Two rows that are added are in one group when they have the same key. -/
theorem together_iff {rows : List Record} {groups : List Group} (h : s.addRows ctx none [] rows = .ok groups)
    (hr : r ∈ rows) (hr' : r' ∈ rows) :
    ∃ C, List.Forall₂ (s.Holds ctx) C groups ∧
      ((∃ c ∈ C, r ∈ c ∧ r' ∈ c) ↔ sameKey (s.keyOf ctx) r r' = true) := by
  have hnone : List.Forall₂ (s.Holds ctx) (classesBy (sameKey (s.keyOf ctx)) []) [] := by simp
  obtain ⟨hgroups, hkeys⟩ := addRows_ok hnone h
  have hrefl : ∀ row ∈ rows, sameKey (s.keyOf ctx) row row = true := fun row hrow =>
    let ⟨_, hk⟩ := hkeys row hrow
    sameKey_refl hk
  have hsymm : ∀ a b, sameKey (s.keyOf ctx) a b = true → sameKey (s.keyOf ctx) b a = true :=
    fun _ _ => sameKey_symm
  have htrans : ∀ a b c, sameKey (s.keyOf ctx) a b = true → sameKey (s.keyOf ctx) b c = true →
      sameKey (s.keyOf ctx) a c = true := fun _ _ _ => sameKey_trans
  exact ⟨_, hgroups, exists_class_iff hsymm htrans hrefl hr hr'⟩

section Structured

variable (hs : s.config.mode = .structured) (hx : s.keysOf ctx r = .ok [.constant x])
  (hy : s.keysOf ctx r' = .ok [.constant y])

include hs hx hy

theorem sameKey_of_values : sameKey (s.keyOf ctx) r r' = x.equal y := by
  have hsame : GroupKey.same (.entries [.constant x]) (.entries [.constant y]) = x.equal y := Bool.and_true _
  rw [sameKey, keyOf, keyOf, hx, hy, hs]
  exact hsame

/-- Whether or not the groups could take the rows. -/
theorem length_groupsAfter_pair : (s.groupsAfter ctx [r, r']).length = if x.equal y then 1 else 2 := by
  have hsame : (s.newGroup [.constant x] r).key.same (s.newGroup [.constant y] r').key = x.equal y := by
    rw [newGroup, newGroup, hs]
    exact Bool.and_true _
  have hfirst : (s.addRow ctx r []).2 = [((s.newGroup [.constant x] r).feed ctx r).2] := by
    rw [addRow, hx]
    rfl
  rw [groupsAfter, List.foldl_cons, List.foldl_cons, List.foldl_nil, hfirst, addRow, hy]
  simp only [route, Group.feed_key, hsame]
  cases x.equal y <;> rfl

end Structured

end Grouping

/-- Everything that decides whether two values are equal. -/
structure Value.DecidedAlike (x y : Value) : Prop where
  comparable : x.equal y = true → x.comparable y = true
  expressions : ∀ env scope a b, Expr.meaning env a scope = .ok (.constant x) →
    Expr.meaning env b scope = .ok (.constant y) → DecideByEquality env scope a b x y
  groups : ∀ (s : Grouping) (ctx : Context) (r r' : Record), s.config.mode = .structured →
    s.keysOf ctx r = .ok [.constant x] → s.keysOf ctx r' = .ok [.constant y] →
      (s.groupsAfter ctx [r, r']).length = (if x.equal y then 1 else 2) ∧
        ∀ rows groups, s.addRows ctx none [] rows = .ok groups → r ∈ rows → r' ∈ rows →
          ∃ C, List.Forall₂ (s.Holds ctx) C groups ∧ ((∃ c ∈ C, r ∈ c ∧ r' ∈ c) ↔ x.equal y = true)
  counts : x.isNull = false → y.isNull = false →
    ∀ (symbols : SymbolTable) (ctx : Context) (id : ExprId) (name : String) (operand : Expr) (r r' : Record),
      AggregateFunction.ofName? name = some .count → Evaluator.Gives symbols ctx operand r x →
        Evaluator.Gives symbols ctx operand r' y →
          ∃ fed, (Evaluator.ofExpr symbols (.node id (.aggregate name true [operand]))).aggregateAll ctx [r, r'] =
              .ok fed ∧
            ∀ row, fed.reduce.evaluate ctx row = .ok (.constant (.int (if x.equal y then 1 else 2)))

theorem Value.decidedAlike (x y : Value) : x.DecidedAlike y where
  comparable := comparable_of_equal
  expressions := fun _ _ _ _ => decideByEquality
  groups := fun s ctx r r' hs hx hy => by
    refine ⟨Grouping.length_groupsAfter_pair hs hx hy, fun rows groups h hr hr' => ?_⟩
    rw [← Grouping.sameKey_of_values hs hx hy]
    exact Grouping.together_iff h hr hr'
  counts := fun hx hy symbols ctx id name operand r r' hname hr hr' => by
    have hkept : nonNull [x, y] = [x, y] := by simp [nonNull, hx, hy]
    have hlength : Int64.ofNat (distinctValues (nonNull [x, y])).length = if x.equal y then 1 else 2 := by
      rw [hkept, distinctValues_pair]
      cases x.equal y <;> rfl
    rw [← hlength]
    exact Evaluator.count_distinct hname (.cons hr (.cons hr' .nil))

/-- Sets, counts and groups that look up what they hold in hash tables. -/
structure LookedUpAlike : Prop where
  sets : ∀ (t : HashTable Value.equal Value.feed) values, distinctWith t values = distinctValues values
  counts : ∀ (t : HashTable Entry.equal Entry.feed) (operands : List (Bool × Entry)),
    operands.foldl (fun c p => c.offerWith t p.1 p.2) Count.empty =
      operands.foldl (fun c p => c.offer p.1 p.2) Count.empty
  groups : ∀ (t : HashTable GroupKey.same GroupKey.feed) (s : Grouping) (ctx : Context) (rows : List Record),
    s.groupsAfterWith t ctx rows = s.groupsAfter ctx rows

/-- All that decides about the equality of values decides alike, by comparison and by hash. A set keeps
the values that equal none before them, and what an expression gives is Null by every test or by
none. -/
theorem equality_decisions_agree :
    (∀ x y : Value, x.DecidedAlike y) ∧ LookedUpAlike ∧
      (∀ env scope items values,
        List.Forall₂ (fun e v => Expr.meaning env e scope = .ok (.constant v)) items values →
          ∀ i, (Expr.node i (.set items)).meaning env scope =
            .ok (.constant (.list (firstOccurrences values)))) ∧
      ∀ symbols root requests ctx row scope e entry, (∀ p ∈ scope, p.2.isUnknown = false) →
        let env := ((Evaluator.ofExpr symbols root).after requests).environment ctx row
        Expr.meaning env e scope = .ok entry → DecideNull env scope e entry.isNull := by
  refine ⟨Value.decidedAlike, ⟨distinctWith_eq, fun t => Count.offersWith_eq t .nil,
    Grouping.groupsAfterWith_eq⟩, fun env scope items values h i => ?_, ?_⟩
  · rw [set_of_values h, distinctValues_eq]
  · intro symbols root requests ctx row scope e entry hscope env he
    have hslots := Evaluator.holdValues_after (e := .ofExpr symbols root) (by nofun) requests
    exact decideNull he (Evaluator.isUnknown_of_meaning hslots hscope he)

/-- An integer and a real of the same value are one value wherever equality is decided. -/
theorem one_of_two_widths_decided_alike :
    let symbols := (SymbolTable.empty.insert "v" .constant).1
    let v : Expr := .node 0 (.reference "v")
    let one : Value := .int 1
    let real : Value := .double Double.one
    let r := Record.ofEntries [.constant one]
    let r' := Record.ofEntries [.constant real]
    let ctx := Context.ofGraph .empty
    let s : Grouping := ⟨symbols, .default, ["v"], [(0, .ofExpr symbols v)], []⟩
    let a : Expr := .node 1 (.literal (.int 1))
    let b : Expr := .node 2 (.literal (.double Double.one))
    let env := (Evaluator.ofExpr symbols a).environment ctx r
    (Expr.node 3 (.binary (.comparison .eq) a b)).evaluate env = .ok (.constant (.bool true)) ∧
      (Expr.node 3 (.set [a, b, a])).evaluate env = .ok (.constant (.list [one])) ∧
      (s.groupsAfterWith (.ofFeed _ _) ctx [r, r']).length = 1 ∧
      (∃ fed, (Evaluator.ofExpr symbols (.node 1 (.aggregate "count" true [v]))).aggregateAll ctx [r, r'] =
          .ok fed ∧ ∀ row, fed.reduce.evaluate ctx row = .ok (.constant (.int 1))) ∧
      (Expr.node 3 (.unary .not (.node 4 (.call "exists" [a])))).evaluate env =
        .ok (.constant (.bool false)) := by
  intro symbols v one real r r' ctx s a b env
  obtain ⟨hpairs, htables, hsets, hnulls⟩ := equality_decisions_agree
  have hequal : one.equal real = true := by decide +kernel
  have ha : a.meaning env [] = .ok (.constant one) := rfl
  have hb : b.meaning env [] = .ok (.constant real) := rfl
  have hpair := hpairs one real
  have hexpressions := hpair.expressions env [] a b ha hb
  have hgroups := (hpair.groups s ctx r r' rfl rfl rfl).1
  have hcounts := hpair.counts rfl rfl symbols ctx 1 "count" v r r' (by decide) (fun _ => rfl) fun _ => rfl
  rw [hequal] at hgroups hcounts
  refine ⟨?_, ?_, ?_, hcounts, (hnulls symbols a [] ctx r [] a _ (by simp) ha).absence 3 4⟩
  · rw [Expr.evaluate, hexpressions.operator, hpair.comparable hequal, hequal]
    rfl
  · have hkept : firstOccurrences [one, real, one] = [one] := by
      simp [firstOccurrences, keepFirst, hequal, Value.equal_refl]
    rw [Expr.evaluate, hsets env [] [a, b, a] [one, real, one] (.cons ha (.cons hb (.cons ha .nil))), hkept]
  · rw [htables.groups]
    exact hgroups

end GraphQuery
