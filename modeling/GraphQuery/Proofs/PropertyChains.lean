import GraphQuery.Proofs.DetectedCalls

/-! Chains of properties of a variable. The check of an item looks for a bound variable directly below
a property, so a property of a property is taken for one from outside, whatever the chain starts with. -/

namespace GraphQuery

def Node.isProperty {α : Type} : Node α → Bool
  | property _ _ => true
  | _ => false

theorem Node.isProperty_mapChildren {α β : Type} (f : α → β) (node : Node α) :
    (node.mapChildren f).isProperty = node.isProperty := by
  cases node <;> rfl

/-- Where properties stand in an expression, in the order of a walk. -/
def Expr.propertyPlaces (e : Expr) : List Path :=
  ((e.visits ⟨none, []⟩).filter fun p => p.2.shape.isProperty).map Prod.fst

namespace Arena

/-- This many properties over a reference to a variable. -/
inductive Chain (a : Arena) (x : String) : ExprId → Nat → Prop where
  | start {id : ExprId} (hn : a.get? id = some (.reference x)) : Chain a x id 0
  | access {id base : ExprId} {field : String} {k : Nat} (hn : a.get? id = some (.property base field))
    (hb : Chain a x base k) : Chain a x id (k + 1)

def ChainAt (a : Arena) (root : ExprId) (p : Path) (x : String) (k : Nat) : Prop :=
  ∃ id node, a.at? root p = some (id, node) ∧ a.Chain x id k

/-- Every property outside of the calls ends a chain over a variable that is bound there. -/
def ReadsBound (a : Arena) (root : ExprId) : Prop :=
  ∀ p id node, a.at? root p = some (id, node) → node.isProperty = true → a.OutsideCalls root p →
    ∃ x k, a.ChainAt root p x (k + 1) ∧ a.BoundAt root p x

variable {a : Arena} {root id : ExprId} {p : Path} {x : String} {k : Nat}

theorem Chain.exists_base (h : a.Chain x id (k + 1)) :
    ∃ base field, a.get? id = some (.property base field) ∧ a.Chain x base k := by
  cases h with
  | access hn hb => exact ⟨_, _, hn, hb⟩

theorem Chain.get?_of_zero (h : a.Chain x id 0) : a.get? id = some (.reference x) := by
  cases h with
  | start hn => exact hn

theorem Descends.mem_propertyPlaces (hr : a.Descends root) {node : Node ExprId}
    (hx : a.at? root p = some (id, node)) (h : node.isProperty = true) : p ∈ (a.tree root).propertyPlaces := by
  refine List.mem_map.mpr ⟨_, List.mem_filter.mpr ⟨hr.mem_visits_iff.mpr ⟨id, node, hx, rfl⟩, ?_⟩, rfl⟩
  rwa [Node.isProperty_mapChildren]

theorem Descends.readsOutsideAt_iff (hr : a.Descends root) (hbound : a.ReadsBound root) :
    a.ReadsOutsideAt root p ↔ a.OutsideCalls root p ∧ ∃ x k, a.ChainAt root p x (k + 2) := by
  constructor
  · rintro ⟨houtside, id, base, field, hx, hbase⟩
    obtain ⟨x, k, ⟨own, node, hown, hchain⟩, hb⟩ := hbound p id _ hx rfl houtside
    obtain ⟨rfl, rfl⟩ := Prod.mk.inj (Option.some.inj (hown.symm.trans hx))
    refine ⟨houtside, x, ?_⟩
    cases k with
    | zero =>
      -- the base is the variable itself, which the check knows to be bound
      obtain ⟨other, name, hn, hother⟩ := hchain.exists_base
      obtain ⟨rfl, rfl⟩ := Node.property.inj (Option.some.inj (hn.symm.trans (hr.of_at? hx).1))
      exact absurd hb (hbase x hother.get?_of_zero)
    | succ k => exact ⟨k, own, _, hx, hchain⟩
  · rintro ⟨houtside, x, k, id, node, hx, hchain⟩
    obtain ⟨base, field, hn, hbase⟩ := hchain.exists_base
    obtain rfl := Option.some.inj (hn.symm.trans (hr.of_at? hx).1)
    refine ⟨houtside, id, base, field, hx, fun y hy => ?_⟩
    obtain ⟨other, name, hother, -⟩ := hbase.exists_base
    simp [hy] at hother

end Arena

/-- An item that reads properties of its own variables alone is refused as mixed exactly where a chain
outside of its calls has two properties or more. -/
theorem mixed_scope_iff_long_chain {a : Arena} {root : ExprId} (hr : a.Descends root)
    (hbound : a.ReadsBound root) :
    (a.tree root).findings.validate = .error (.mixedAggregateScope Findings.mixedScope) ↔
      (¬ ∃ p outer inner, a.NestsAt root p outer inner) ∧ (∃ p id, a.RegisteredAt root p id) ∧
        ∃ p x k, a.OutsideCalls root p ∧ a.ChainAt root p x (k + 2) := by
  rw [hr.validate_eq_mixed_iff]
  refine and_congr_right' (and_congr_right' (exists_congr fun p => ?_))
  rw [hr.readsOutsideAt_iff hbound]
  simp only [exists_and_left]

/-- The count of all rows beside a list of properties of a property of its elements. -/
def countBesideChain : Arena :=
  ⟨#[.aggregate "count" false [], .reference "x", .property 1 "a", .property 2 "b", .reference "xs",
    .comprehension "x" 4 none (some 3), .call "size" [5], .binary (.arithmetic .add) 0 6]⟩

theorem countBesideChain_descends : countBesideChain.Descends 7 := Arena.descends_of_children_lt (by decide) 7

theorem countBesideChain_readsBound : countBesideChain.ReadsBound 7 := by
  intro p id node hx hproperty _
  have hplace := countBesideChain_descends.mem_propertyPlaces hx hproperty
  have hplaces : (countBesideChain.tree 7).propertyPlaces = [[1, 0, 1], [1, 0, 1, 0]] := rfl
  have hinner : countBesideChain.Chain "x" 2 1 := .access rfl (.start rfl)
  rw [hplaces, List.mem_cons, List.mem_singleton] at hplace
  rcases hplace with rfl | rfl
  · exact ⟨"x", 1, ⟨3, _, rfl, .access rfl hinner⟩, [1, 0], 0, [], 5, 4, none, some 3, rfl, rfl⟩
  · exact ⟨"x", 0, ⟨2, _, rfl, hinner⟩, [1, 0], 0, [0], 5, 4, none, some 3, rfl, rfl⟩

theorem countBesideChain_has_long_chain :
    countBesideChain.Descends 7 ∧ countBesideChain.ReadsBound 7 ∧
      ∃ p x k, countBesideChain.OutsideCalls 7 p ∧ countBesideChain.ChainAt 7 p x (k + 2) :=
  ⟨countBesideChain_descends, countBesideChain_readsBound,
    ((mixed_scope_iff_long_chain countBesideChain_descends countBesideChain_readsBound).mp rfl).2.2⟩

theorem bound_chain_refused :
    ¬ ∀ (a : Arena) (root : ExprId), a.Descends root → a.ReadsBound root →
      (a.tree root).findings.validate ≠ .error (.mixedAggregateScope Findings.mixedScope) :=
  fun h => h countBesideChain 7 countBesideChain_descends countBesideChain_readsBound rfl

end GraphQuery
