import GraphQuery.Expression.Detection
import Mathlib.Data.Finset.Card
import Mathlib.Data.Finset.Range
import Mathlib.Logic.Relation

/-! The paths on which the nodes of an arena are met below a root. A node that is shared lies on
several, and the calls of a tree are listed once for each. -/

namespace GraphQuery

theorem Node.mapChildren_congr {α β : Type} {f g : α → β} {node : Node α}
    (h : ∀ c ∈ node.children, f c = g c) : node.mapChildren f = node.mapChildren g := by
  cases node with
  | cases subject branches otherwise =>
    have hs : subject.map f = subject.map g := Option.map_congr fun c hc => h c (by simp_all [children])
    have ho : otherwise.map f = otherwise.map g := Option.map_congr fun c hc => h c (by simp_all [children])
    have hb : (branches.map fun (b : α × α) => (f b.1, f b.2)) = branches.map fun b => (g b.1, g b.2) := by
      refine List.map_congr_left fun b hb => ?_
      have hmem : ∀ c ∈ [b.1, b.2], c ∈ (Node.cases subject branches otherwise).children := fun c hc =>
        List.mem_append_left _ (List.mem_append_right _ (List.mem_flatMap.mpr ⟨b, hb, hc⟩))
      rw [h b.1 (hmem _ (by simp)), h b.2 (hmem _ (by simp))]
    simp only [mapChildren, hs, ho, hb]
  | conditional a b otherwise => cases otherwise <;> simp_all [children, mapChildren]
  | comprehension binder a filter projection =>
    cases filter <;> cases projection <;> simp_all [children, mapChildren]
  | map fields =>
    simp only [mapChildren, Node.map.injEq]
    exact List.map_congr_left fun p hp => by rw [h p.2 (List.mem_map_of_mem hp)]
  | record fields =>
    simp only [mapChildren, Node.record.injEq]
    exact List.map_congr_left fun p hp => by rw [h p.2 (List.mem_map_of_mem hp)]
  | _ => simp_all [children, mapChildren]

namespace Arena

variable {a : Arena}

def Child (a : Arena) (c id : ExprId) : Prop :=
  ∃ node, a.get? id = some node ∧ c ∈ node.children

/-- Every descent from the root ends. -/
def Descends (a : Arena) (root : ExprId) : Prop := Acc a.Child root

/-- No descent from here meets more than `n` nodes. -/
def Within (a : Arena) : Nat → ExprId → Prop
  | 0, id => a.get? id = none
  | n + 1, id => ∀ c, a.Child c id → a.Within n c

theorem within_of_get?_eq_none {id : ExprId} (h : a.get? id = none) (n : Nat) : a.Within n id := by
  cases n with
  | zero => exact h
  | succ n =>
    rintro c ⟨node, hnode, -⟩
    simp [h] at hnode

theorem treeWithin_eq {n fuel : Nat} {id : ExprId} (h : a.Within n id) (hf : n < fuel) :
    a.treeWithin fuel id = a.treeWithin (n + 1) id := by
  induction n generalizing id fuel with
  | zero =>
    obtain _ | fuel := fuel
    · omega
    · rw [Within] at h
      simp only [treeWithin, h]
  | succ n ih =>
    obtain _ | fuel := fuel
    · omega
    · rw [treeWithin, treeWithin]
      cases hnode : a.get? id with
      | none => rfl
      | some node =>
        have hchildren : ∀ c ∈ node.children, a.treeWithin fuel c = a.treeWithin (n + 1) c :=
          fun c hc => ih (h c ⟨node, hnode, hc⟩) (by omega)
        simp only [Node.mapChildren_congr hchildren]

theorem Descends.child {c id : ExprId} (h : a.Descends id) (hc : a.Child c id) : a.Descends c :=
  Acc.inv h hc

theorem Descends.not_below_self {id : ExprId} (h : a.Descends id) :
    ¬ Relation.TransGen a.Child id id := by
  induction Acc.transGen h with
  | intro x _ ih => exact fun hx => ih x hx (Acc.inv_of_transGen h hx) hx

/-- A descent meets no node twice, so it meets at most as many as there are besides those above. -/
theorem Descends.within {id : ExprId} (h : a.Descends id) (above : Finset ExprId)
    (habove : ∀ v ∈ above, v < a.size ∧ Relation.TransGen a.Child id v) :
    a.Within (a.size - above.card) id := by
  induction h generalizing above with
  | intro id hacc ih =>
    cases hnode : a.get? id with
    | none => exact within_of_get?_eq_none hnode _
    | some node =>
      have hd : a.Descends id := ⟨id, hacc⟩
      have hlt : id < a.size := by
        have := Array.getElem?_eq_some_iff.mp hnode
        exact this.1
      have hnew : id ∉ above := fun hid => hd.not_below_self (habove id hid).2
      have hcard : (insert id above).card ≤ a.size := by
        rw [← Finset.card_range a.size]
        refine Finset.card_le_card fun v hv => ?_
        rcases Finset.mem_insert.mp hv with rfl | hv
        · exact Finset.mem_range.mpr hlt
        · exact Finset.mem_range.mpr (habove v hv).1
      rw [Finset.card_insert_of_notMem hnew] at hcard
      obtain ⟨n, hn⟩ : ∃ n, a.size - above.card = n + 1 := ⟨a.size - above.card - 1, by omega⟩
      rw [hn]
      intro c hc
      have hbelow : ∀ v ∈ insert id above, v < a.size ∧ Relation.TransGen a.Child c v := by
        intro v hv
        rcases Finset.mem_insert.mp hv with rfl | hv
        · exact ⟨hlt, .single hc⟩
        · exact ⟨(habove v hv).1, .head hc (habove v hv).2⟩
      have := ih c hc (insert id above) hbelow
      rw [Finset.card_insert_of_notMem hnew] at this
      rwa [show a.size - (above.card + 1) = n by omega] at this

theorem Descends.tree_eq {id : ExprId} {node : Node ExprId} (h : a.Descends id)
    (hnode : a.get? id = some node) : a.tree id = .node id (node.mapChildren a.tree) := by
  have hw : a.Within a.size id := h.within ∅ (by simp)
  have hpos : 0 < a.size := Nat.lt_of_le_of_lt (Nat.zero_le id) (Array.getElem?_eq_some_iff.mp hnode).1
  obtain ⟨n, hn⟩ : ∃ n, a.size = n + 1 := ⟨a.size - 1, by omega⟩
  have hchildren : ∀ c ∈ node.children, a.treeWithin a.size c = a.tree c := by
    intro c hc
    rw [hn] at hw
    have hc := hw c ⟨node, hnode, hc⟩
    rw [tree, treeWithin_eq hc (show n < a.size by omega), treeWithin_eq hc (show n < a.size + 1 by omega)]
  rw [tree, treeWithin, hnode]
  simp only [Node.mapChildren_congr hchildren]

end Arena

namespace Node

variable {α β : Type}

def isCall : Node α → Bool
  | aggregate name _ _ => isAggregateName name
  | _ => false

theorem isCall_mapChildren (f : α → β) (node : Node α) : (node.mapChildren f).isCall = node.isCall := by
  cases node <;> rfl

theorem exists_of_isCall {node : Node α} (h : node.isCall = true) :
    ∃ name distinct args function, node = .aggregate name distinct args ∧
      AggregateFunction.ofName? name = some function := by
  cases node with
  | aggregate name distinct args =>
    obtain ⟨function, hf⟩ := Option.isSome_iff_exists.mp h
    exact ⟨name, distinct, args, function, rfl, hf⟩
  | _ => simp [isCall] at h

end Node

abbrev Path := List Nat

/-- The places of the children of a node are places of the node, under the number of the child. -/
def numbered {α : Type} (places : List (List (Path × α))) : List (Path × α) :=
  places.zipIdx.flatMap fun (below, i) => below.map fun (p, a) => (i :: p, a)

def placesAt (id : ExprId) (shape : Node Expr) (below : Node (List (Path × AggregateCall))) :
    List (Path × AggregateCall) :=
  match shape with
  | .aggregate name distinct args =>
    match AggregateFunction.ofName? name with
    | some function => [([], ⟨id, name, function, distinct, args⟩)]
    | none => numbered below.children
  | _ => numbered below.children

def Expr.places (e : Expr) : List (Path × AggregateCall) := e.fold placesAt fun _ => []

section Numbered

variable {α : Type}

theorem mem_numbered {places : List (List (Path × α))} {p : Path} {a : α} :
    (p, a) ∈ numbered places ↔
      ∃ i q below, p = i :: q ∧ places[i]? = some below ∧ (q, a) ∈ below := by
  simp only [numbered, List.mem_flatMap, List.mem_map, Prod.exists, Prod.mk.injEq,
    List.mk_mem_zipIdx_iff_getElem?]
  constructor
  · rintro ⟨below, i, hi, q, b, hq, rfl, rfl⟩
    exact ⟨i, q, below, rfl, hi, hq⟩
  · rintro ⟨i, q, below, rfl, hi, hq⟩
    exact ⟨below, i, hi, q, a, hq, rfl, rfl⟩

theorem map_snd_numbered (places : List (List (Path × α))) :
    (numbered places).map Prod.snd = places.flatMap fun below => below.map Prod.snd := by
  calc (numbered places).map Prod.snd
      = (places.zipIdx.map Prod.fst).flatMap fun below => below.map Prod.snd := by
        simp only [numbered, List.map_flatMap, List.flatMap_map, List.map_map]
        rfl
    _ = places.flatMap fun below => below.map Prod.snd := by rw [List.zipIdx_map_fst]

/-- Places under a lower number come first, so places in order stay in order. -/
theorem pairwise_numbered {places : List (List (Path × α))}
    (h : ∀ below ∈ places, (below.map Prod.fst).Pairwise (· < ·)) :
    ((numbered places).map Prod.fst).Pairwise (· < ·) := by
  have hpaths : (numbered places).map Prod.fst =
      places.zipIdx.flatMap fun (below, i) => (below.map Prod.fst).map (i :: ·) := by
    simp only [numbered, List.map_flatMap, List.map_map]
    rfl
  rw [hpaths, List.pairwise_flatMap]
  constructor
  · rintro ⟨below, i⟩ hi
    have hbelow := List.mem_of_getElem? (List.mk_mem_zipIdx_iff_getElem?.mp hi)
    exact (h below hbelow).map _ fun p q hpq => List.cons_lt_cons_iff.mpr (.inr ⟨rfl, hpq⟩)
  · have hnumbers : places.zipIdx.Pairwise fun x y => x.2 < y.2 := by
      rw [← List.pairwise_map, List.zipIdx_map_snd]
      exact List.pairwise_lt_range'
    refine hnumbers.imp fun {x y} hxy p hp q hq => ?_
    obtain ⟨p, -, rfl⟩ := List.mem_map.mp hp
    obtain ⟨q, -, rfl⟩ := List.mem_map.mp hq
    exact List.cons_lt_cons_iff.mpr (.inl hxy)

end Numbered

namespace Expr

variable {id : ExprId} {shape : Node Expr}

theorem outermostAggregates_of_call {name : String} {distinct : Bool} {args : List Expr}
    {function : AggregateFunction} (h : AggregateFunction.ofName? name = some function) :
    (node id (.aggregate name distinct args)).outermostAggregates =
      [⟨id, name, function, distinct, args⟩] := by
  simp [outermostAggregates, fold_node, outermostAt, h]

theorem places_of_call {name : String} {distinct : Bool} {args : List Expr}
    {function : AggregateFunction} (h : AggregateFunction.ofName? name = some function) :
    (node id (.aggregate name distinct args)).places = [([], ⟨id, name, function, distinct, args⟩)] := by
  simp [places, fold_node, placesAt, h]

theorem outermostAggregates_of_not_call (h : shape.isCall = false) :
    (node id shape).outermostAggregates = shape.children.flatMap outermostAggregates := by
  have hbelow : (shape.mapChildren outermostAggregates).children.flatten =
      shape.children.flatMap outermostAggregates := by
    rw [Node.children_mapChildren, List.flatMap]
  rw [← hbelow, outermostAggregates, fold_node]
  cases shape with
  | aggregate name distinct args =>
    have hname : AggregateFunction.ofName? name = none := by simpa [Node.isCall, isAggregateName] using h
    simp only [outermostAt, hname]
    rfl
  | _ => rfl

theorem places_of_not_call (h : shape.isCall = false) :
    (node id shape).places = numbered (shape.children.map places) := by
  rw [← Node.children_mapChildren, places, fold_node]
  cases shape with
  | aggregate name distinct args =>
    have hname : AggregateFunction.ofName? name = none := by simpa [Node.isCall, isAggregateName] using h
    simp only [placesAt, hname]
    rfl
  | _ => rfl

theorem map_snd_places (e : Expr) : e.places.map Prod.snd = e.outermostAggregates := by
  induction e using Expr.induction with
  | dangling id => rfl
  | node id shape ih =>
    by_cases hc : shape.isCall = true
    · obtain ⟨name, distinct, args, function, rfl, hf⟩ := Node.exists_of_isCall hc
      rw [places_of_call hf, outermostAggregates_of_call hf]
      rfl
    · rw [Bool.not_eq_true] at hc
      rw [places_of_not_call hc, outermostAggregates_of_not_call hc, map_snd_numbered, List.flatMap_map]
      exact List.flatMap_congr ih

theorem pairwise_places (e : Expr) : (e.places.map Prod.fst).Pairwise (· < ·) := by
  induction e using Expr.induction with
  | dangling id => exact .nil
  | node id shape ih =>
    by_cases hc : shape.isCall = true
    · obtain ⟨name, distinct, args, function, rfl, hf⟩ := Node.exists_of_isCall hc
      simp [places_of_call hf]
    · rw [Bool.not_eq_true] at hc
      rw [places_of_not_call hc]
      refine pairwise_numbered fun below hbelow => ?_
      obtain ⟨child, hchild, rfl⟩ := List.mem_map.mp hbelow
      exact ih child hchild

theorem nodup_places (e : Expr) : (e.places.map Prod.fst).Nodup :=
  e.pairwise_places.imp fun {p q} hlt (he : p = q) => List.lt_irrefl q (he ▸ hlt)

end Expr

namespace Arena

variable {a : Arena}

/-- A path of child numbers from a node to a registered call, through no other. -/
inductive CallPath (a : Arena) : ExprId → Path → ExprId → Prop where
  | here {id : ExprId} {node : Node ExprId} (hn : a.get? id = some node)
    (hc : node.isCall = true) : CallPath a id [] id
  | through {id child target : ExprId} {node : Node ExprId} {i : Nat} {p : Path}
    (hn : a.get? id = some node) (hc : node.isCall = false) (hi : node.children[i]? = some child)
    (hp : CallPath a child p target) : CallPath a id (i :: p) target

def call? (a : Arena) (id : ExprId) : Option AggregateCall :=
  match a.get? id with
  | some (.aggregate name distinct args) =>
    (AggregateFunction.ofName? name).map fun function =>
      ⟨id, name, function, distinct, args.map a.tree⟩
  | _ => none

theorem places_of_get?_eq_none {id : ExprId} (h : a.get? id = none) : (a.tree id).places = [] := by
  rw [tree, treeWithin, h]
  rfl

theorem not_callPath_of_get?_eq_none {id target : ExprId} {p : Path} (h : a.get? id = none) :
    ¬ a.CallPath id p target := by
  intro hp
  cases hp <;> simp_all

theorem callPath_of_call_iff {id target : ExprId} {node : Node ExprId} {p : Path}
    (hnode : a.get? id = some node) (hc : node.isCall = true) :
    a.CallPath id p target ↔ p = [] ∧ target = id := by
  constructor
  · intro hp
    cases hp with
    | here => exact ⟨rfl, rfl⟩
    | through hn hc' =>
      obtain rfl := Option.some.inj (hnode.symm.trans hn)
      rw [hc] at hc'
      cases hc'
  · rintro ⟨rfl, rfl⟩
    exact .here hnode hc

theorem callPath_of_not_call_iff {id target : ExprId} {node : Node ExprId} {p : Path}
    (hnode : a.get? id = some node) (hc : node.isCall = false) :
    a.CallPath id p target ↔
      ∃ i q child, p = i :: q ∧ node.children[i]? = some child ∧ a.CallPath child q target := by
  constructor
  · intro hp
    cases hp with
    | here hn hc' =>
      obtain rfl := Option.some.inj (hnode.symm.trans hn)
      rw [hc] at hc'
      cases hc'
    | @through _ child _ _ i q hn _ hi hp =>
      obtain rfl := Option.some.inj (hnode.symm.trans hn)
      exact ⟨i, q, child, rfl, hi, hp⟩
  · rintro ⟨i, q, child, rfl, hi, hp⟩
    exact .through hnode hc hi hp

/-- A place in a tree is a path, also where the tree is cut. -/
theorem callPath_of_mem_places {fuel : Nat} {id : ExprId} {p : Path} {call : AggregateCall}
    (h : (p, call) ∈ (a.treeWithin fuel id).places) : a.CallPath id p call.id := by
  induction fuel generalizing id p with
  | zero => cases h
  | succ fuel ih =>
    rw [treeWithin] at h
    cases hnode : a.get? id with
    | none => simp [hnode, Expr.places, Expr.fold] at h
    | some node =>
      simp only [hnode] at h
      by_cases hc : node.isCall = true
      · obtain ⟨name, distinct, args, function, rfl, hf⟩ := Node.exists_of_isCall hc
        rw [Node.mapChildren, Expr.places_of_call hf, List.mem_singleton, Prod.mk.injEq] at h
        obtain ⟨rfl, rfl⟩ := h
        exact .here hnode hc
      · rw [Bool.not_eq_true] at hc
        rw [Expr.places_of_not_call (by rw [Node.isCall_mapChildren, hc]), Node.children_mapChildren,
          mem_numbered] at h
        obtain ⟨i, q, below, rfl, hi, hq⟩ := h
        simp only [List.getElem?_map, Option.map_map, Option.map_eq_some_iff] at hi
        obtain ⟨c, hi, rfl⟩ := hi
        exact .through hnode hc hi (ih hq)

/-- The places in the tree of a node are the paths below it. -/
theorem Descends.mem_places_iff {id : ExprId} (h : a.Descends id) {p : Path} {call : AggregateCall} :
    (p, call) ∈ (a.tree id).places ↔ a.CallPath id p call.id ∧ a.call? call.id = some call := by
  induction h generalizing p with
  | intro id hacc ih =>
    have hd : a.Descends id := ⟨id, hacc⟩
    cases hnode : a.get? id with
    | none =>
      rw [places_of_get?_eq_none hnode]
      exact ⟨nofun, fun hp => absurd hp.1 (not_callPath_of_get?_eq_none hnode)⟩
    | some node =>
      rw [hd.tree_eq hnode]
      by_cases hc : node.isCall = true
      · rw [callPath_of_call_iff hnode hc]
        obtain ⟨name, distinct, args, function, rfl, hf⟩ := Node.exists_of_isCall hc
        rw [Node.mapChildren, Expr.places_of_call hf, List.mem_singleton, Prod.mk.injEq]
        have hcall : a.call? id = some ⟨id, name, function, distinct, args.map a.tree⟩ := by
          simp [call?, hnode, hf]
        constructor
        · rintro ⟨rfl, rfl⟩
          exact ⟨⟨rfl, rfl⟩, hcall⟩
        · rintro ⟨⟨hp, hid⟩, hcall'⟩
          rw [hid, hcall] at hcall'
          exact ⟨hp, (Option.some.inj hcall').symm⟩
      · rw [Bool.not_eq_true] at hc
        rw [callPath_of_not_call_iff hnode hc, Expr.places_of_not_call (by rw [Node.isCall_mapChildren, hc]),
          Node.children_mapChildren, mem_numbered]
        constructor
        · rintro ⟨i, q, below, rfl, hi, hq⟩
          simp only [List.getElem?_map, Option.map_map, Option.map_eq_some_iff] at hi
          obtain ⟨c, hi, rfl⟩ := hi
          obtain ⟨hp, hcall⟩ := (ih c ⟨node, hnode, List.mem_of_getElem? hi⟩).mp hq
          exact ⟨⟨i, q, c, rfl, hi, hp⟩, hcall⟩
        · rintro ⟨⟨i, q, c, rfl, hi, hp⟩, hcall⟩
          have hq := (ih c ⟨node, hnode, List.mem_of_getElem? hi⟩).mpr ⟨hp, hcall⟩
          exact ⟨i, q, _, rfl, by simp [hi], hq⟩

end Arena

end GraphQuery
