import GraphQuery.Proofs.DistinctValues
import GraphQuery.Proofs.EntryOrder
import GraphQuery.Proofs.Outcome

/-! The six comparisons of two values fail together, on values of different shape, and elsewhere say the same
about them. Equality of graph elements does not depend on the side on which they stand. -/

namespace GraphQuery

namespace Value

variable {v w : Value}

/-- The equality operator decides between Null and any value, and between values of one shape. -/
def comparable (v w : Value) : Bool := v.isNull || w.isNull || v.rank == w.rank

theorem eq_null_of_isNull (h : v.isNull = true) : v = .null := by
  cases v with
  | scalar s => cases s <;> first | rfl | cases h
  | _ => cases h

theorem equal_null (v : Value) : v.equal .null = v.isNull := by
  cases v with
  | scalar s => cases s <;> rfl
  | _ => rfl

theorem comparable_null (v : Value) : v.comparable .null = true := by
  rw [comparable, show Value.null.isNull = true from rfl, Bool.or_true, Bool.true_or]

theorem rank_eq_of_equal (h : v.equal w = true) : v.rank = w.rank := by
  by_contra hne
  rw [equal_iff, compare_across v w hne, Nat.compare_eq_eq] at h
  exact hne h

theorem comparable_of_equal (h : v.equal w = true) : v.comparable w = true := by
  simp [comparable, rank_eq_of_equal h]

theorem comparable_eq_false : v.comparable w = false ↔ v.isNull = false ∧ w.isNull = false ∧ v.rank ≠ w.rank := by
  simp [comparable, and_assoc]

theorem rank_beq (v w : Value) : (v.isScalar != w.isScalar || v.isList != w.isList) = !(v.rank == w.rank) := by
  cases v <;> cases w <;> rfl

section Operators

variable (op : Comparison)

theorem compareBy_of_null (h : v.isNull = true ∨ w.isNull = true) : v.compareBy op w =
    .ok (match op with
      | .eq => bool (v.isNull && w.isNull)
      | .notEq => bool (!(v.isNull && w.isNull))
      | _ => null) := by
  cases op <;> exact if_pos (Bool.or_eq_true_iff.mpr h)

theorem compareBy_of_rank_eq (hv : v.isNull = false) (hw : w.isNull = false) (hr : v.rank = w.rank) :
    v.compareBy op w = .ok (bool (op.holds (v.compare w))) := by
  simp [compareBy, hv, hw, rank_beq, hr]

theorem compareBy_of_not_comparable (h : v.comparable w = false) :
    v.compareBy op w = .error (mismatch op.symbol v w) := by
  obtain ⟨hv, hw, hr⟩ := comparable_eq_false.mp h
  simp [compareBy, hv, hw, rank_beq, hr]

/-- Null on a side, or two values of one shape. -/
theorem comparable_cases (h : v.comparable w = true) :
    (v.isNull = true ∨ w.isNull = true) ∨ v.isNull = false ∧ w.isNull = false ∧ v.rank = w.rank := by
  cases hv : v.isNull <;> cases hw : w.isNull <;> simp_all [comparable]

theorem exists_compareBy (h : v.comparable w = true) : ∃ result, v.compareBy op w = .ok result := by
  rcases comparable_cases h with hnull | ⟨hv, hw, hr⟩
  · exact ⟨_, compareBy_of_null op hnull⟩
  · exact ⟨_, compareBy_of_rank_eq op hv hw hr⟩

end Operators

theorem compareBy_eq (v w : Value) : v.compareBy .eq w =
    if v.comparable w then .ok (.bool (v.equal w)) else .error (mismatch "=" v w) := by
  cases hc : v.comparable w with
  | false => rw [compareBy_of_not_comparable _ hc, if_neg (by simp), Comparison.symbol]
  | true =>
    rw [if_pos rfl]
    rcases comparable_cases hc with (hv | hw) | ⟨hv, hw, hr⟩
    · rw [compareBy_of_null _ (.inl hv), eq_null_of_isNull hv, equal_comm, equal_null]
      rfl
    · rw [compareBy_of_null _ (.inr hw), eq_null_of_isNull hw, equal_null]
      simp [show Value.null.isNull = true from rfl]
    · have hequal : (v.compare w == .eq) = v.equal w := by
        rw [Bool.eq_iff_iff, beq_iff_eq, equal_iff]
      rw [compareBy_of_rank_eq _ hv hw hr, Comparison.holds, hequal]

theorem comparable_comm (v w : Value) : v.comparable w = w.comparable v := by
  rw [comparable, comparable, Bool.or_comm v.isNull, BEq.comm]

end Value

/-- What the comparisons of two values have to do with one another. -/
structure Coherent (a b : Value) : Prop where
  fails : ∀ op fault, a.compareBy op b = .error fault ↔
    (a.isNull = false ∧ b.isNull = false ∧ a.rank ≠ b.rank) ∧ fault = Value.mismatch op.symbol a b
  negation : ∀ x, a.compareBy .notEq b = .ok (.bool !x) ↔ a.compareBy .eq b = .ok (.bool x)
  trichotomy : a.isNull = false → b.isNull = false → a.rank = b.rank → ∃ lt eq gt : Bool,
    a.compareBy .lt b = .ok (.bool lt) ∧ a.compareBy .eq b = .ok (.bool eq) ∧ a.compareBy .gt b = .ok (.bool gt) ∧
      [lt, eq, gt].count true = 1 ∧
      a.compareBy .ltEq b = .ok (.bool (lt || eq)) ∧ a.compareBy .gtEq b = .ok (.bool (gt || eq))
  flip : ∀ v, a.compareBy .lt b = .ok v ↔ b.compareBy .gt a = .ok v
  trans : ∀ c, a.compareBy .lt b = .ok (.bool true) → b.compareBy .lt c = .ok (.bool true) →
    a.compareBy .lt c = .ok (.bool true)
  nulls : a.isNull = true ∨ b.isNull = true → a.compareBy .eq b = .ok (.bool (a.isNull && b.isNull)) ∧
    ∀ op ∈ [Comparison.lt, .ltEq, .gt, .gtEq], a.compareBy op b = .ok .null

section Coherence

variable {a b c : Value}

theorem compareBy_notEq_iff (x : Bool) :
    a.compareBy .notEq b = .ok (.bool !x) ↔ a.compareBy .eq b = .ok (.bool x) := by
  have hbool (y z : Bool) : Except.ok (ε := Error) (Value.bool y) = .ok (.bool z) ↔ y = z := by simp [Value.bool]
  cases hc : a.comparable b with
  | false => simp [Value.compareBy_of_not_comparable _ hc]
  | true =>
    rcases Value.comparable_cases hc with hnull | ⟨ha, hb, hr⟩
    · rw [Value.compareBy_of_null _ hnull, Value.compareBy_of_null _ hnull, hbool, hbool, Bool.not_inj_iff]
    · rw [Value.compareBy_of_rank_eq _ ha hb hr, Value.compareBy_of_rank_eq _ ha hb hr, hbool, hbool]
      exact Bool.not_inj_iff

theorem exists_equality_comm {op : Comparison} (hop : op = .eq ∨ op = .notEq) (hc : a.comparable b = true) :
    ∃ x : Bool, a.compareBy op b = .ok (.bool x) ∧ b.compareBy op a = .ok (.bool x) := by
  have hab : a.compareBy .eq b = .ok (.bool (a.equal b)) := by rw [Value.compareBy_eq, if_pos hc]
  have hba : b.compareBy .eq a = .ok (.bool (a.equal b)) := by
    rw [Value.compareBy_eq, b.comparable_comm a, if_pos hc, b.equal_comm a]
  rcases hop with rfl | rfl
  · exact ⟨_, hab, hba⟩
  · exact ⟨_, (compareBy_notEq_iff _).mpr hab, (compareBy_notEq_iff _).mpr hba⟩

/-- Where one value is less than another, both are there and of one shape. -/
theorem compareBy_lt_iff : a.compareBy .lt b = .ok (.bool true) ↔
    a.isNull = false ∧ b.isNull = false ∧ a.rank = b.rank ∧ a.compare b = .lt := by
  cases hc : a.comparable b with
  | false =>
    obtain ⟨-, -, hr⟩ := Value.comparable_eq_false.mp hc
    simp [Value.compareBy_of_not_comparable _ hc, hr]
  | true =>
    rcases Value.comparable_cases hc with hnull | ⟨ha, hb, hr⟩
    · have hnot : ¬(a.isNull = false ∧ b.isNull = false) := by
        rintro ⟨ha, hb⟩
        simp [ha, hb] at hnull
      simp [Value.compareBy_of_null _ hnull, Value.null, Value.bool]
      tauto
    · simp [Value.compareBy_of_rank_eq _ ha hb hr, Value.bool, Comparison.holds, ha, hb, hr]

theorem trichotomy_of_compare (order : Ordering) :
    [Comparison.lt.holds order, Comparison.eq.holds order, Comparison.gt.holds order].count true = 1 ∧
      Comparison.ltEq.holds order = (Comparison.lt.holds order || Comparison.eq.holds order) ∧
      Comparison.gtEq.holds order = (Comparison.gt.holds order || Comparison.eq.holds order) := by
  cases order <;> decide

theorem compareBy_flip : a.compareBy .lt b = .ok c ↔ b.compareBy .gt a = .ok c := by
  cases hc : a.comparable b with
  | false =>
    rw [Value.compareBy_of_not_comparable _ hc, Value.compareBy_of_not_comparable _ (a.comparable_comm b ▸ hc)]
    simp
  | true =>
    rcases Value.comparable_cases hc with hnull | ⟨ha, hb, hr⟩
    · rw [Value.compareBy_of_null _ hnull, Value.compareBy_of_null _ hnull.symm]
    · have hswap : b.compare a = (a.compare b).swap := Std.OrientedCmp.eq_swap
      rw [Value.compareBy_of_rank_eq _ ha hb hr, Value.compareBy_of_rank_eq _ hb ha hr.symm, hswap]
      cases a.compare b <;> rfl

theorem coherent (a b : Value) : Coherent a b where
  fails := fun op fault => by
    cases hc : a.comparable b with
    | false => simp [Value.compareBy_of_not_comparable _ hc, Value.comparable_eq_false.mp hc, eq_comm]
    | true =>
      have hshape : ¬(a.isNull = false ∧ b.isNull = false ∧ a.rank ≠ b.rank) := by
        rw [← Value.comparable_eq_false, hc]
        decide
      obtain ⟨v, hv⟩ := Value.exists_compareBy op hc
      simp [hv, hshape]
  negation := compareBy_notEq_iff
  trichotomy := fun ha hb hr => by
    obtain ⟨hone, hle, hge⟩ := trichotomy_of_compare (a.compare b)
    have hholds := fun op => Value.compareBy_of_rank_eq op ha hb hr
    exact ⟨_, _, _, hholds .lt, hholds .eq, hholds .gt, hone, hle ▸ hholds .ltEq, hge ▸ hholds .gtEq⟩
  flip := fun _ => compareBy_flip
  trans := fun c hab hbc => by
    obtain ⟨ha, -, hr, hlt⟩ := compareBy_lt_iff.mp hab
    obtain ⟨-, hc, hr', hlt'⟩ := compareBy_lt_iff.mp hbc
    exact compareBy_lt_iff.mpr ⟨ha, hc, hr.trans hr', Std.TransCmp.lt_trans hlt hlt'⟩
  nulls := fun hnull => by
    refine ⟨Value.compareBy_of_null _ hnull, fun op hop => ?_⟩
    rw [Value.compareBy_of_null _ hnull]
    simp only [List.mem_cons, List.not_mem_nil, or_false] at hop
    rcases hop with rfl | rfl | rfl | rfl <;> rfl

end Coherence

section Elements

variable {op : Comparison} {l r x y : Entry} {left right : Meaning} {scope : Scope}

/-- Equality of values as the operator decides it, of anything else by what it refers to. -/
def Entry.equality (op : Comparison) : Entry → Entry → Outcome Entry
  | .constant a, .constant b => (a.compareBy op b).map .constant
  | l, r => .ok ((BinaryOp.comparison op).elementEquality l r)

/-- Both sides of an equality are evaluated, whichever of them is an element. -/
theorem Meaning.binary_equality (hop : op = .eq ∨ op = .notEq) (left right : Meaning) (scope : Scope) :
    binary (.comparison op) left right scope =
      left scope >>= fun l => right scope >>= fun r => Entry.equality op l r := by
  have hequality : (BinaryOp.comparison op).isEquality = true := by rcases hop with rfl | rfl <;> rfl
  simp only [binary, hequality, Bool.true_and, BinaryOp.decided?]
  refine congrArg _ (funext fun l => ?_)
  cases l with
  | constant a =>
    cases right scope with
    | error fault => rfl
    | ok r =>
      cases r with
      | constant b =>
        change (a.compareBy op b >>= fun v => pure (Entry.constant v)) = (a.compareBy op b).map Entry.constant
        cases a.compareBy op b <;> rfl
      | _ => rfl
  | _ => rfl

theorem Entry.same_comm (l r : Entry) : l.same r = r.same l := by
  rw [Bool.eq_iff_iff]
  exact ⟨equal_symm, equal_symm⟩

theorem Entry.equality_of_element (h : l.isConstant = false ∨ r.isConstant = false) :
    equality op l r = .ok ((BinaryOp.comparison op).elementEquality l r) := by
  cases l with
  | constant a =>
    cases r with
    | constant b => simp [isConstant] at h
    | _ => rfl
  | _ => rfl

/-- Values may be refused in the other order with another fault, elements never are. -/
theorem Entry.equality_comm (hop : op = .eq ∨ op = .notEq) (hx : equality op l r = .ok x)
    (hy : equality op r l = .ok y) : ∃ v : Bool, x = .constant (.bool v) ∧ y = .constant (.bool v) := by
  by_cases hvalues : l.isConstant = false ∨ r.isConstant = false
  · rw [equality_of_element hvalues] at hx
    rw [equality_of_element hvalues.symm, BinaryOp.elementEquality, r.same_comm l] at hy
    exact ⟨_, (Except.ok.inj hx).symm, (Except.ok.inj hy).symm⟩
  · obtain ⟨a, rfl⟩ : ∃ a, l = .constant a := by cases l <;> simp_all [isConstant]
    obtain ⟨b, rfl⟩ : ∃ b, r = .constant b := by cases r <;> simp_all [isConstant]
    cases hc : a.comparable b with
    | false =>
      rw [equality, Value.compareBy_of_not_comparable _ hc] at hx
      cases hx
    | true =>
      obtain ⟨v, hab, hba⟩ := exists_equality_comm hop hc
      rw [equality, hab] at hx
      rw [equality, hba] at hy
      exact ⟨v, (Except.ok.inj hx).symm, (Except.ok.inj hy).symm⟩

end Elements

/-- The six comparisons of any two values are coherent, and evaluated in either order, equality of two
expressions gives one answer, values and elements of the graph alike. -/
theorem comparisons_are_coherent :
    (∀ a b : Value, Coherent a b) ∧
    ∀ (env : Environment) (scope : Scope) (op : Comparison) (i j : ExprId) (left right : Expr) (x y : Entry),
      op = .eq ∨ op = .notEq →
      (Expr.node i (.binary (.comparison op) left right)).meaning env scope = .ok x →
      (Expr.node j (.binary (.comparison op) right left)).meaning env scope = .ok y →
      ∃ v : Bool, x = .constant (.bool v) ∧ y = .constant (.bool v) := by
  refine ⟨coherent, fun env scope op i j left right x y hop hx hy => ?_⟩
  rw [Expr.meaning_node, Node.mapChildren, evaluateNode, Meaning.binary_equality hop] at hx hy
  obtain ⟨l, hl, hx⟩ := Outcome.bind_eq_ok.mp hx
  obtain ⟨r, hr, hx⟩ := Outcome.bind_eq_ok.mp hx
  rw [hr] at hy
  simp only [hl, bind, Except.bind] at hy
  exact Entry.equality_comm hop hx hy

/-- Lists holding integers, reals and Nulls are ordered one way, and a node and its snapshot are one in
either order of the two. -/
theorem lists_are_ordered_and_snapshot_is_its_node :
    let a : Value := .list [.int 1, .null]
    let b : Value := .list [.double Double.one, .int 0]
    let symbols := ((SymbolTable.empty.insert "n" .node).1.insert "s" .node).1
    let env : Environment := ⟨symbols, .ofGraph .empty, .ofEntries [.node 1, .nodeSnapshot 1], []⟩
    let n : Expr := .node 0 (.reference "n")
    let s : Expr := .node 1 (.reference "s")
    a.compareBy .lt b = .ok (.bool true) ∧ b.compareBy .gt a = .ok (.bool true) ∧
      ∃ v : Bool, (Expr.node 2 (.binary (.comparison .notEq) n s)).evaluate env = .ok (.constant (.bool v)) ∧
        (Expr.node 3 (.binary (.comparison .notEq) s n)).evaluate env = .ok (.constant (.bool v)) := by
  intro a b symbols env n s
  obtain ⟨hvalues, hexpressions⟩ := comparisons_are_coherent
  have hlt : a.compareBy .lt b = .ok (.bool true) :=
    compareBy_lt_iff.mpr ⟨rfl, rfl, rfl, by decide +kernel⟩
  have hns : (Expr.node 2 (.binary (.comparison .notEq) n s)).evaluate env = .ok (.constant (.bool false)) := rfl
  have hsn : (Expr.node 3 (.binary (.comparison .notEq) s n)).evaluate env = .ok (.constant (.bool false)) := rfl
  obtain ⟨v, hv, hv'⟩ := hexpressions env [] .notEq 2 3 n s _ _ (.inr rfl) hns hsn
  exact ⟨hlt, ((hvalues a b).flip _).mp hlt, v, hv ▸ hns, hv' ▸ hsn⟩

end GraphQuery
