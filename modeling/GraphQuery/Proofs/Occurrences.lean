import GraphQuery.Proofs.Walks

/-! Where nodes stand below the root of an arena. A place is a path of child numbers, and places in
order are those of a walk, so that the calls around a node are found in the places above it. -/

namespace GraphQuery

namespace Arena

/-- The node at a place, with its id. Ids out of range have no place. -/
def at? (a : Arena) : ExprId → Path → Option (ExprId × Node ExprId)
  | root, [] => (a.get? root).map fun node => (root, node)
  | root, i :: p => (a.get? root).bind fun node => node.children[i]?.bind fun child => a.at? child p

/-- An aggregate call stands at this place, registered or not. -/
def CallAt (a : Arena) (root : ExprId) (p : Path) (name : String) : Prop :=
  ∃ id distinct args, a.at? root p = some (id, .aggregate name distinct args)

/-- The place `p` lies inside the arguments of a call, which stands at `q`. -/
def InsideCall (a : Arena) (root : ExprId) (p q : Path) (name : String) : Prop :=
  (∃ i r, p = q ++ i :: r) ∧ a.CallAt root q name

def OutsideCalls (a : Arena) (root : ExprId) (p : Path) : Prop := ∀ q name, ¬ a.InsideCall root p q name

/-- The call around a place that has no call around itself. -/
def OutermostCall (a : Arena) (root : ExprId) (p : Path) (name : String) : Prop :=
  ∃ q, a.InsideCall root p q name ∧ a.OutsideCalls root q

/-- The place lies in the filter or the projection of a comprehension over this variable. -/
def BoundAt (a : Arena) (root : ExprId) (p : Path) (x : String) : Prop :=
  ∃ q i r id list filter projection,
    p = q ++ (i + 1) :: r ∧ a.at? root q = some (id, .comprehension x list filter projection)

/-- The surroundings in which a walk meets a place. -/
def aroundAt (a : Arena) : Surroundings → ExprId → Path → Surroundings
  | here, _, [] => here
  | here, root, i :: p =>
    match a.get? root with
    | none => here
    | some node =>
      match node.children[i]? with
      | none => here
      | some child => a.aroundAt (node.around here i) child p

variable {a : Arena} {root child : ExprId} {node : Node ExprId} {here : Surroundings} {i : Nat} {p q : Path}
  {name : String}

theorem at?_cons_eq_some {x : ExprId × Node ExprId} :
    a.at? root (i :: p) = some x ↔
      ∃ node child, a.get? root = some node ∧ node.children[i]? = some child ∧ a.at? child p = some x := by
  simp only [at?, Option.bind_eq_some_iff]
  constructor
  · rintro ⟨node, hn, child, hi, hx⟩
    exact ⟨node, child, hn, hi, hx⟩
  · rintro ⟨node, child, hn, hi, hx⟩
    exact ⟨node, hn, child, hi, hx⟩

theorem callAt_iff {id : ExprId} (hx : a.at? root p = some (id, node)) :
    a.CallAt root p name ↔ node.callName? = some name := by
  simp [CallAt, hx, Node.callName?_eq_some]

theorem at?_nil (hn : a.get? root = some node) : a.at? root [] = some (root, node) := by
  rw [at?, hn, Option.map_some]

section Below

variable (hn : a.get? root = some node) (hi : node.children[i]? = some child)

include hn hi

theorem at?_below (p : Path) : a.at? root (i :: p) = a.at? child p := by
  simp [at?, hn, hi]

theorem aroundAt_below (here : Surroundings) (p : Path) :
    a.aroundAt here root (i :: p) = a.aroundAt (node.around here i) child p := by
  simp only [aroundAt, hn, hi]

theorem insideCall_below :
    a.InsideCall root (i :: p) q name ↔
      (q = [] ∧ node.callName? = some name) ∨ ∃ r, q = i :: r ∧ a.InsideCall child p r name := by
  cases q with
  | nil => simp [InsideCall, callAt_iff (at?_nil hn)]
  | cons j r =>
    simp only [InsideCall, CallAt, List.cons_append, List.cons.injEq, reduceCtorEq, false_and, false_or]
    constructor
    · rintro ⟨⟨k, s, rfl, hp⟩, hcall⟩
      rw [at?_below hn hi] at hcall
      exact ⟨r, ⟨rfl, rfl⟩, ⟨k, s, hp⟩, hcall⟩
    · rintro ⟨r, ⟨rfl, rfl⟩, ⟨k, s, hp⟩, hcall⟩
      refine ⟨⟨k, s, rfl, hp⟩, ?_⟩
      rwa [at?_below hn hi]

theorem outsideCalls_below :
    a.OutsideCalls root (i :: p) ↔ node.callName? = none ∧ a.OutsideCalls child p := by
  simp only [OutsideCalls, insideCall_below hn hi]
  constructor
  · intro h
    refine ⟨Option.eq_none_iff_forall_ne_some.mpr fun name hname => ?_, fun q name hq => ?_⟩
    · exact h [] name (.inl ⟨rfl, hname⟩)
    · exact h (i :: q) name (.inr ⟨q, rfl, hq⟩)
  · rintro ⟨hnone, h⟩ q name (⟨-, hname⟩ | ⟨r, -, hr⟩)
    · rw [hnone] at hname
      cases hname
    · exact h r name hr

theorem outermostCall_below :
    a.OutermostCall root (i :: p) name ↔
      node.callName? = some name ∨ node.callName? = none ∧ a.OutermostCall child p name := by
  constructor
  · rintro ⟨q, hq, houtside⟩
    rcases (insideCall_below hn hi).mp hq with ⟨rfl, hname⟩ | ⟨r, rfl, hr⟩
    · exact .inl hname
    · obtain ⟨hnone, houtside⟩ := (outsideCalls_below hn hi).mp houtside
      exact .inr ⟨hnone, r, hr, houtside⟩
  · rintro (hname | ⟨hnone, r, hr, houtside⟩)
    · refine ⟨[], (insideCall_below hn hi).mpr (.inl ⟨rfl, hname⟩), ?_⟩
      rintro q other ⟨⟨j, r, hq⟩, -⟩
      simp at hq
    · exact ⟨i :: r, (insideCall_below hn hi).mpr (.inr ⟨r, rfl, hr⟩),
        (outsideCalls_below hn hi).mpr ⟨hnone, houtside⟩⟩

theorem boundAt_below {x : String} :
    a.BoundAt root (i :: p) x ↔
      (∃ j list filter projection, i = j + 1 ∧ node = .comprehension x list filter projection) ∨
        a.BoundAt child p x := by
  constructor
  · rintro ⟨_ | ⟨k, q⟩, j, r, id, list, filter, projection, hp, hq⟩
    · obtain ⟨rfl, rfl⟩ := List.cons.inj hp
      have hnode := (Prod.mk.inj (Option.some.inj ((at?_nil hn).symm.trans hq))).2
      exact .inl ⟨j, list, filter, projection, rfl, hnode⟩
    · obtain ⟨rfl, rfl⟩ := List.cons.inj hp
      rw [at?_below hn hi] at hq
      exact .inr ⟨q, j, r, id, list, filter, projection, rfl, hq⟩
  · rintro (⟨j, list, filter, projection, rfl, rfl⟩ | ⟨q, j, r, id, list, filter, projection, rfl, hq⟩)
    · exact ⟨[], j, p, root, list, filter, projection, rfl, at?_nil hn⟩
    · rw [← at?_below hn hi] at hq
      exact ⟨i :: q, j, r, id, list, filter, projection, rfl, hq⟩

end Below

section Surroundings

variable {x : ExprId × Node ExprId} {y outer : String}

theorem call_aroundAt_of_some (hx : a.at? root p = some x) (hc : here.call = some outer) :
    (a.aroundAt here root p).call = some outer := by
  induction p generalizing root here with
  | nil => exact hc
  | cons i p ih =>
    obtain ⟨node, child, hn, hi, hx⟩ := at?_cons_eq_some.mp hx
    rw [aroundAt_below hn hi]
    exact ih hx (by rw [Node.call_around, hc, Option.some_or])

/-- A walk knows the outermost call around a place. -/
theorem call_aroundAt (hx : a.at? root p = some x) (hc : here.call = none) :
    ((a.aroundAt here root p).call = none ↔ a.OutsideCalls root p) ∧
      ∀ outer, (a.aroundAt here root p).call = some outer ↔ a.OutermostCall root p outer := by
  induction p generalizing root here with
  | nil => simp [aroundAt, hc, OutsideCalls, OutermostCall, InsideCall]
  | cons i p ih =>
    obtain ⟨node, child, hn, hi, hx⟩ := at?_cons_eq_some.mp hx
    simp only [aroundAt_below hn hi, outsideCalls_below hn hi, outermostCall_below hn hi]
    have hcall := Node.call_around here node i
    rw [hc, Option.none_or] at hcall
    cases hname : node.callName? with
    | none => simpa using ih hx (hcall.trans hname)
    | some inner =>
      rw [call_aroundAt_of_some hx (hcall.trans hname)]
      simp

/-- A walk knows the variables bound at a place. -/
theorem mem_bound_aroundAt (hx : a.at? root p = some x) :
    y ∈ (a.aroundAt here root p).bound ↔ y ∈ here.bound ∨ a.BoundAt root p y := by
  induction p generalizing root here with
  | nil => simp [aroundAt, BoundAt]
  | cons i p ih =>
    obtain ⟨node, child, hn, hi, hx⟩ := at?_cons_eq_some.mp hx
    rw [aroundAt_below hn hi, boundAt_below hn hi, ih hx, Node.mem_bound_around, or_assoc]

end Surroundings

theorem tree_of_get?_eq_none {id : ExprId} (h : a.get? id = none) : a.tree id = .dangling id := by
  rw [tree, treeWithin, h]

/-- A walk visits each place once, in the surroundings of the place. -/
theorem Descends.mem_visits_iff (hr : a.Descends root) {v : Visit} :
    (p, v) ∈ (a.tree root).visits here ↔
      ∃ id node, a.at? root p = some (id, node) ∧ v = ⟨a.aroundAt here root p, id, node.mapChildren a.tree⟩ := by
  induction p generalizing root here with
  | nil =>
    cases hn : a.get? root with
    | none => simp [tree_of_get?_eq_none hn, Expr.visits, Expr.fold, at?, hn]
    | some node =>
      rw [hr.tree_eq hn, Expr.visits_node, List.mem_cons, mem_numbered]
      simp [at?, hn, aroundAt]
  | cons i p ih =>
    cases hn : a.get? root with
    | none => simp [tree_of_get?_eq_none hn, Expr.visits, Expr.fold, at?, hn]
    | some node =>
      rw [hr.tree_eq hn, Expr.visits_node, List.mem_cons, mem_numbered, Node.children_mapChildren,
        Node.around_mapChildren]
      constructor
      · rintro (hv | ⟨j, q, below, hp, hplaces, hv⟩)
        · simp at hv
        · obtain ⟨rfl, rfl⟩ := List.cons.inj hp
          simp only [List.getElem?_mapIdx, List.getElem?_map, Option.map_map, Option.map_eq_some_iff] at hplaces
          obtain ⟨c, hi, rfl⟩ := hplaces
          obtain ⟨id, shape, hx, rfl⟩ := (ih (hr.child ⟨node, hn, List.mem_of_getElem? hi⟩)).mp hv
          exact ⟨id, shape, (at?_below hn hi p).trans hx, by rw [aroundAt_below hn hi]⟩
      · rintro ⟨id, shape, hx, rfl⟩
        obtain ⟨other, c, hother, hi, hx⟩ := at?_cons_eq_some.mp hx
        obtain rfl := Option.some.inj (hn.symm.trans hother)
        have hc : a.Descends c := hr.child ⟨node, hn, List.mem_of_getElem? hi⟩
        refine .inr ⟨i, p, (a.tree c).visits (node.around here i), rfl, by simp [hi], ?_⟩
        exact (ih hc).mpr ⟨id, shape, hx, by rw [aroundAt_below hn hi]⟩

end Arena

theorem Expr.pairwise_visits (here : Surroundings) (e : Expr) :
    ((e.visits here).map Prod.fst).Pairwise (· < ·) := by
  induction e using Expr.induction generalizing here with
  | dangling id => exact .nil
  | node id shape ih =>
    rw [visits_node, List.map_cons, List.pairwise_cons]
    constructor
    · intro q hq
      obtain ⟨⟨p, v⟩, hv, rfl⟩ := List.mem_map.mp hq
      obtain ⟨i, r, -, rfl, -⟩ := mem_numbered.mp hv
      exact List.nil_lt_cons i r
    · refine pairwise_numbered fun below hbelow => ?_
      obtain ⟨i, hi, rfl⟩ := List.mem_mapIdx.mp hbelow
      exact ih _ (List.getElem_mem hi) _

/-- Over places in order, the first answer is that at the least place which has one. -/
theorem findSome?_eq_some_of_pairwise {α β : Type} {f : α → Option β} {b : β} {places : List (Path × α)}
    (h : (places.map Prod.fst).Pairwise (· < ·)) :
    (places.findSome? fun p => f p.2) = some b ↔
      ∃ p x, (p, x) ∈ places ∧ f x = some b ∧ ∀ q y, (q, y) ∈ places → (f y).isSome = true → ¬ q < p := by
  induction places with
  | nil => simp
  | cons place places ih =>
    obtain ⟨p₀, x₀⟩ := place
    obtain ⟨hfirst, hrest⟩ := List.pairwise_cons.mp h
    have hlater : ∀ p x, (p, x) ∈ places → p₀ < p := fun p x hp => hfirst p (List.mem_map_of_mem hp)
    rw [List.findSome?_cons]
    cases hx₀ : f x₀ with
    | none =>
      have hne : ∀ {p x}, (p, x) ∈ (p₀, x₀) :: places → (f x).isSome = true → (p, x) ∈ places := by
        intro p x hp hx
        refine List.mem_of_ne_of_mem (fun he => ?_) hp
        obtain ⟨-, rfl⟩ := Prod.mk.inj he
        simp [hx₀] at hx
      rw [ih hrest]
      constructor
      · rintro ⟨p, x, hp, hx, hleast⟩
        exact ⟨p, x, .tail _ hp, hx, fun q y hq hy => hleast q y (hne hq hy) hy⟩
      · rintro ⟨p, x, hp, hx, hleast⟩
        exact ⟨p, x, hne hp (by simp [hx]), hx, fun q y hq hy => hleast q y (.tail _ hq) hy⟩
    | some b₀ =>
      constructor
      · intro hb
        refine ⟨p₀, x₀, .head _, hx₀.trans hb, fun q y hq _ => ?_⟩
        rcases List.mem_cons.mp hq with he | hq
        · obtain ⟨rfl, -⟩ := Prod.mk.inj he
          exact List.lt_irrefl q
        · exact List.lt_asymm (hlater q y hq)
      · rintro ⟨p, x, hp, hx, hleast⟩
        rcases List.mem_cons.mp hp with he | hp
        · obtain ⟨-, rfl⟩ := Prod.mk.inj he
          exact hx₀.symm.trans hx
        · exact absurd (hlater p x hp) (hleast p₀ x₀ (.head _) (by simp [hx₀]))

end GraphQuery
