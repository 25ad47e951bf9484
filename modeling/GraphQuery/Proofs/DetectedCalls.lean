import Mathlib.Logic.Function.Iterate
import GraphQuery.Proofs.Occurrences
import GraphQuery.Proofs.SharedCalls

/-! What the check of an item decides. The verdict depends on which calls stand inside one another and
on which properties are read outside of them, wherever that is below the root. -/

namespace GraphQuery

/-- What a check says about an error that it raises. -/
def Error.complaint : Error → String
  | mixedAggregateScope text => text
  | fault => fault.message

theorem Findings.complaint_eq (f : Findings) : f.complaint = f.validate.fault?.map Error.complaint := by
  rw [complaint, validate]
  cases f.nested with
  | some shape => rfl
  | none =>
    dsimp only
    split <;> rfl

theorem Findings.complaint_eq_none_iff (f : Findings) : f.complaint = .none ↔ f.validate = .ok () := by
  rw [complaint_eq]
  cases f.validate <;> simp [Outcome.fault?]

theorem Detector.findings_after_checks (earlier : Nat) (d : Detector) :
    (Nat.iterate (fun d => d.check.2) earlier d).findings = d.findings := by
  induction earlier generalizing d with
  | zero => rfl
  | succ earlier ih => exact ih d.check.2

theorem Findings.aggregates_join_visits (visits : List (Path × Visit)) :
    (join (visits.map fun p => p.2.findings)).aggregates =
      (visits.filter fun p => p.2.shape.isCall).map fun p => p.2.id := by
  induction visits with
  | nil => rfl
  | cons place visits ih =>
    rw [List.map_cons, join_cons, List.filter_cons]
    change place.2.findings.aggregates ++ (join _).aggregates = _
    rw [ih, Visit.aggregates_findings]
    split <;> rfl

namespace Arena

/-- A call stands at this place inside the arguments of others, the outermost of which is `outer`. -/
def NestsAt (a : Arena) (root : ExprId) (p : Path) (outer inner : String) : Prop :=
  a.CallAt root p inner ∧ a.OutermostCall root p outer

def RegisteredAt (a : Arena) (root : ExprId) (p : Path) (id : ExprId) : Prop :=
  ∃ node, a.at? root p = some (id, node) ∧ node.isCall = true

/-- A property is read at this place, outside of every call, of something else than a variable that is
bound there. -/
def ReadsOutsideAt (a : Arena) (root : ExprId) (p : Path) : Prop :=
  a.OutsideCalls root p ∧ ∃ id base field, a.at? root p = some (id, .property base field) ∧
    ∀ x, a.get? base = some (.reference x) → ¬ a.BoundAt root p x

variable {a : Arena} {root id : ExprId} {p : Path} {node : Node ExprId}

/-- What a walk from the root finds at a place. -/
def foundAt (a : Arena) (root : ExprId) (p : Path) (id : ExprId) (node : Node ExprId) : Findings :=
  Visit.findings ⟨a.aroundAt ⟨none, []⟩ root p, id, node.mapChildren a.tree⟩

theorem nested_foundAt (hx : a.at? root p = some (id, node)) {shape : String} :
    (a.foundAt root p id node).nested = some shape ↔
      ∃ outer inner, a.NestsAt root p outer inner ∧ shape = outer ++ "(" ++ inner ++ "(...))" := by
  have hcall : ∀ outer, (a.aroundAt ⟨none, []⟩ root p).call = some outer ↔ a.OutermostCall root p outer :=
    (call_aroundAt hx rfl).2
  simp only [NestsAt, callAt_iff hx, ← hcall]
  cases node with
  | aggregate name distinct args =>
    constructor
    · intro hfound
      obtain ⟨outer, houter, rfl⟩ := Option.map_eq_some_iff.mp hfound
      exact ⟨outer, name, ⟨rfl, houter⟩, rfl⟩
    · rintro ⟨outer, inner, ⟨hname, houter⟩, rfl⟩
      obtain rfl := Option.some.inj hname
      exact Option.map_eq_some_iff.mpr ⟨outer, houter, rfl⟩
  | _ => simp [foundAt, Visit.findings, Node.mapChildren, Node.callName?, Findings.none]

theorem Descends.isBoundVariable_tree {bound : List String} {base : ExprId} (h : a.Descends base) :
    isBoundVariable bound (a.tree base) = true ↔ ∃ x, a.get? base = some (.reference x) ∧ x ∈ bound := by
  cases hn : a.get? base with
  | none => simp [tree_of_get?_eq_none hn, isBoundVariable]
  | some node =>
    rw [h.tree_eq hn]
    cases node <;> simp [Node.mapChildren, isBoundVariable]

theorem Descends.of_at? (hr : a.Descends root) (hx : a.at? root p = some (id, node)) :
    a.get? id = some node ∧ a.Descends id := by
  induction p generalizing root with
  | nil =>
    obtain ⟨other, hother, hroot⟩ := Option.map_eq_some_iff.mp hx
    obtain ⟨rfl, rfl⟩ := Prod.mk.inj hroot
    exact ⟨hother, hr⟩
  | cons i p ih =>
    obtain ⟨other, child, hn, hi, hx⟩ := at?_cons_eq_some.mp hx
    exact ih (hr.child ⟨other, hn, List.mem_of_getElem? hi⟩) hx

theorem Descends.outsideVariable_foundAt (hr : a.Descends root) (hx : a.at? root p = some (id, node)) :
    (a.foundAt root p id node).outsideVariable = true ↔ a.ReadsOutsideAt root p := by
  have houtside : (a.aroundAt ⟨none, []⟩ root p).call.isNone = true ↔ a.OutsideCalls root p := by
    rw [Option.isNone_iff_eq_none]
    exact (call_aroundAt hx rfl).1
  have hbound : ∀ x, x ∈ (a.aroundAt ⟨none, []⟩ root p).bound ↔ a.BoundAt root p x := fun x => by
    rw [mem_bound_aroundAt hx]
    simp
  cases node with
  | property base field =>
    obtain ⟨hn, hid⟩ := hr.of_at? hx
    have hbase : a.Descends base := hid.child ⟨_, hn, by simp [Node.children]⟩
    simp only [foundAt, Visit.findings, Node.mapChildren, Bool.and_eq_true, Bool.not_eq_true',
      ← Bool.not_eq_true, hbase.isBoundVariable_tree, houtside, hbound, ReadsOutsideAt, hx]
    simp
  | _ => simp [foundAt, Visit.findings, Node.mapChildren, ReadsOutsideAt, hx, Findings.none]

/-- Calls around a call have an outermost one among them. -/
theorem exists_nestsAt_iff :
    (∃ p outer inner, a.NestsAt root p outer inner) ↔
      ∃ p q outer inner, a.CallAt root p inner ∧ a.InsideCall root p q outer := by
  constructor
  · rintro ⟨p, outer, inner, hcall, q, hq, -⟩
    exact ⟨p, q, outer, inner, hcall, hq⟩
  · rintro ⟨p, q, outer, inner, hcall, hq⟩
    -- a walk that comes to the inner call knows of one around it
    have ⟨id, distinct, args, hx⟩ := hcall
    cases houter : (a.aroundAt ⟨none, []⟩ root p).call with
    | none => exact absurd hq ((call_aroundAt hx rfl).1.mp houter q outer)
    | some outermost => exact ⟨p, outermost, inner, hcall, ((call_aroundAt hx rfl).2 _).mp houter⟩

section Walk

variable (hr : a.Descends root)

include hr

theorem Descends.exists_visit_iff {P : Findings → Prop} :
    (∃ v, (p, v) ∈ (a.tree root).visits ⟨none, []⟩ ∧ P v.findings) ↔
      ∃ id node, a.at? root p = some (id, node) ∧ P (a.foundAt root p id node) := by
  constructor
  · rintro ⟨v, hv, hP⟩
    obtain ⟨id, node, hx, rfl⟩ := hr.mem_visits_iff.mp hv
    exact ⟨id, node, hx, hP⟩
  · rintro ⟨id, node, hx, hP⟩
    exact ⟨_, hr.mem_visits_iff.mpr ⟨id, node, hx, rfl⟩, hP⟩

theorem Descends.nested_visit_iff {shape : String} :
    (∃ v, (p, v) ∈ (a.tree root).visits ⟨none, []⟩ ∧ v.findings.nested = some shape) ↔
      ∃ outer inner, a.NestsAt root p outer inner ∧ shape = outer ++ "(" ++ inner ++ "(...))" := by
  rw [hr.exists_visit_iff (P := fun f => f.nested = some shape)]
  constructor
  · rintro ⟨id, node, hx, hfound⟩
    exact (nested_foundAt hx).mp hfound
  · rintro ⟨outer, inner, hnests, rfl⟩
    have ⟨⟨id, distinct, args, hx⟩, _⟩ := hnests
    exact ⟨id, _, hx, (nested_foundAt hx).mpr ⟨outer, inner, hnests, rfl⟩⟩

/-- The first nesting that is found is the one at the least place. -/
theorem Descends.nested_findings_iff {shape : String} :
    (a.tree root).findings.nested = some shape ↔
      ∃ p outer inner, a.NestsAt root p outer inner ∧
        (∀ q outer' inner', a.NestsAt root q outer' inner' → ¬ q < p) ∧
        shape = outer ++ "(" ++ inner ++ "(...))" := by
  have hjoin : (a.tree root).findings.nested =
      ((a.tree root).visits ⟨none, []⟩).findSome? fun p => p.2.findings.nested := by
    rw [Expr.findings_eq_join, Findings.nested_join, List.findSome?_map]
    rfl
  rw [hjoin, findSome?_eq_some_of_pairwise (f := fun v : Visit => v.findings.nested) (Expr.pairwise_visits _ _)]
  constructor
  · rintro ⟨p, v, hv, hfound, hleast⟩
    obtain ⟨outer, inner, hnests, hshape⟩ := hr.nested_visit_iff.mp ⟨v, hv, hfound⟩
    refine ⟨p, outer, inner, hnests, fun q outer' inner' hq => ?_, hshape⟩
    obtain ⟨w, hw, hfound⟩ := hr.nested_visit_iff.mpr ⟨outer', inner', hq, rfl⟩
    exact hleast q w hw (Option.isSome_of_eq_some hfound)
  · rintro ⟨p, outer, inner, hnests, hleast, hshape⟩
    obtain ⟨v, hv, hfound⟩ := hr.nested_visit_iff.mpr ⟨outer, inner, hnests, hshape⟩
    refine ⟨p, v, hv, hfound, fun q w hw hsome => ?_⟩
    obtain ⟨other, hother⟩ := Option.isSome_iff_exists.mp hsome
    obtain ⟨outer', inner', hq, -⟩ := hr.nested_visit_iff.mp ⟨w, hw, hother⟩
    exact hleast q outer' inner' hq

theorem Descends.nested_findings_eq_none_iff :
    (a.tree root).findings.nested = none ↔ ¬ ∃ p outer inner, a.NestsAt root p outer inner := by
  rw [Expr.findings_eq_join, Findings.nested_join, List.findSome?_eq_none_iff]
  constructor
  · rintro h ⟨p, outer, inner, hnests⟩
    obtain ⟨v, hv, hfound⟩ := hr.nested_visit_iff.mpr ⟨outer, inner, hnests, rfl⟩
    rw [h _ (List.mem_map_of_mem hv)] at hfound
    cases hfound
  · intro h f hf
    obtain ⟨⟨p, v⟩, hv, rfl⟩ := List.mem_map.mp hf
    refine Option.eq_none_iff_forall_ne_some.mpr fun shape hshape => h ?_
    obtain ⟨outer, inner, hnests, -⟩ := hr.nested_visit_iff.mp ⟨v, hv, hshape⟩
    exact ⟨p, outer, inner, hnests⟩

theorem Descends.outsideVariable_findings_iff :
    (a.tree root).findings.outsideVariable = true ↔ ∃ p, a.ReadsOutsideAt root p := by
  rw [Expr.findings_eq_join, Findings.outsideVariable_join, List.any_map, List.any_eq_true]
  constructor
  · rintro ⟨⟨p, v⟩, hv, hfound⟩
    obtain ⟨id, node, hx, hfound⟩ :=
      (hr.exists_visit_iff (P := fun f => f.outsideVariable = true)).mp ⟨v, hv, hfound⟩
    exact ⟨p, (hr.outsideVariable_foundAt hx).mp hfound⟩
  · rintro ⟨p, hp⟩
    have ⟨_, id, base, field, hx, _⟩ := hp
    obtain ⟨v, hv, hfound⟩ := (hr.exists_visit_iff (P := fun f => f.outsideVariable = true)).mpr
      ⟨id, _, hx, (hr.outsideVariable_foundAt hx).mpr hp⟩
    exact ⟨(p, v), hv, hfound⟩

theorem Descends.aggregates_findings :
    ∃ places : List (Path × ExprId), (places.map Prod.fst).Pairwise (· < ·) ∧
      (∀ p id, (p, id) ∈ places ↔ a.RegisteredAt root p id) ∧
        (a.tree root).findings.aggregates = places.map Prod.snd := by
  let visits := (a.tree root).visits ⟨none, []⟩
  refine ⟨(visits.filter fun p => p.2.shape.isCall).map fun p => (p.1, p.2.id), ?_, fun p id => ?_, ?_⟩
  · rw [List.map_map]
    exact (Expr.pairwise_visits _ _).sublist (List.filter_sublist.map Prod.fst)
  · simp only [List.mem_map, List.mem_filter, Prod.mk.injEq, Prod.exists, RegisteredAt]
    constructor
    · rintro ⟨q, v, ⟨hv, hcall⟩, rfl, rfl⟩
      obtain ⟨id, node, hx, rfl⟩ := hr.mem_visits_iff.mp hv
      exact ⟨node, hx, (node.isCall_mapChildren _).symm.trans hcall⟩
    · rintro ⟨node, hx, hcall⟩
      refine ⟨p, _, ⟨hr.mem_visits_iff.mpr ⟨id, node, hx, rfl⟩, ?_⟩, rfl, rfl⟩
      exact (node.isCall_mapChildren _).trans hcall
  · rw [Expr.findings_eq_join, Findings.aggregates_join_visits, List.map_map]
    rfl

theorem Descends.aggregates_findings_ne_nil_iff :
    (a.tree root).findings.aggregates ≠ [] ↔ ∃ p id, a.RegisteredAt root p id := by
  obtain ⟨places, -, hplaces, haggregates⟩ := hr.aggregates_findings
  rw [haggregates, Ne, List.map_eq_nil_iff]
  constructor
  · intro hne
    obtain ⟨⟨p, id⟩, hp⟩ := List.exists_mem_of_ne_nil _ hne
    exact ⟨p, id, (hplaces p id).mp hp⟩
  · rintro ⟨p, id, hp⟩
    exact List.ne_nil_of_mem ((hplaces p id).mpr hp)

theorem Descends.validate_eq_mixed_iff :
    (a.tree root).findings.validate = .error (.mixedAggregateScope Findings.mixedScope) ↔
      (¬ ∃ p outer inner, a.NestsAt root p outer inner) ∧
        (∃ p id, a.RegisteredAt root p id) ∧ ∃ p, a.ReadsOutsideAt root p := by
  rw [Findings.validate_eq_mixed_iff, hr.nested_findings_eq_none_iff, hr.aggregates_findings_ne_nil_iff,
    hr.outsideVariable_findings_iff]

end Walk

end Arena

/-- What a walk decides, in terms of the places below the root alone. -/
theorem detection_decides_by_places {a : Arena} {root : ExprId} (hr : a.Descends root) :
    let found := (a.tree root).findings
    ((∃ shape, found.validate = .error (.nestedAggregate shape)) ↔
        ∃ p q outer inner, a.CallAt root p inner ∧ a.InsideCall root p q outer) ∧
      (∀ shape, found.validate = .error (.nestedAggregate shape) ↔
        ∃ p outer inner, a.NestsAt root p outer inner ∧
          (∀ q outer' inner', a.NestsAt root q outer' inner' → ¬ q < p) ∧
          shape = outer ++ "(" ++ inner ++ "(...))") ∧
      (found.validate = .error (.mixedAggregateScope Findings.mixedScope) ↔
        (¬ ∃ p outer inner, a.NestsAt root p outer inner) ∧
          (∃ p id, a.RegisteredAt root p id) ∧ ∃ p, a.ReadsOutsideAt root p) ∧
      (found.validate = .ok () ↔
        (¬ ∃ p outer inner, a.NestsAt root p outer inner) ∧
          ¬ ((∃ p id, a.RegisteredAt root p id) ∧ ∃ p, a.ReadsOutsideAt root p)) ∧
      (∃ places : List (Path × ExprId), (places.map Prod.fst).Pairwise (· < ·) ∧
        (∀ p id, (p, id) ∈ places ↔ a.RegisteredAt root p id) ∧
          found.aggregates = places.map Prod.snd) ∧
      ∀ earlier : Nat,
        let d := Nat.iterate (fun d => d.check.2) earlier (Detector.ofExpr (a.tree root))
        d.findings = found ∧ (d.check.1 = true ↔ found.validate = .ok ()) ∧
          d.check.2.message = found.validate.fault?.map Error.complaint := by
  intro found
  have hnested : ∀ shape, found.validate = .error (.nestedAggregate shape) ↔ found.nested = some shape :=
    fun shape => Findings.validate_eq_nested_iff
  refine ⟨?_, fun shape => ?_, hr.validate_eq_mixed_iff, ?_, hr.aggregates_findings, fun earlier => ?_⟩
  · rw [← Arena.exists_nestsAt_iff, ← not_iff_not, ← hr.nested_findings_eq_none_iff]
    simp only [hnested, Option.eq_none_iff_forall_ne_some, not_exists]
    rfl
  · rw [hnested, hr.nested_findings_iff]
  · rw [Findings.validate_eq_ok_iff, hr.nested_findings_eq_none_iff, hr.aggregates_findings_ne_nil_iff,
      hr.outsideVariable_findings_iff]
  · intro d
    have hd : d.findings = found := Detector.findings_after_checks earlier _
    refine ⟨hd, ?_, ?_⟩
    · rw [Detector.check, hd, Option.isNone_iff_eq_none, Findings.complaint_eq_none_iff]
    · rw [Detector.check, hd, Findings.complaint_eq]

/-- A count over a call that is not registered, beside a property. -/
def countOfUnknown : Arena :=
  ⟨#[.reference "x", .property 0 "a", .aggregate "median" false [1], .aggregate "count" false [2],
    .binary (.arithmetic .add) 1 3]⟩

theorem countOfUnknown_nests :
    countOfUnknown.Descends 4 ∧
      (countOfUnknown.tree 4).findings.validate = .error (.nestedAggregate "count(median(...))") ∧
      ∃ p q outer inner, countOfUnknown.CallAt 4 p inner ∧ countOfUnknown.InsideCall 4 p q outer := by
  have hr : countOfUnknown.Descends 4 := Arena.descends_of_children_lt (by decide) 4
  have hnested : (countOfUnknown.tree 4).findings.validate =
      .error (.nestedAggregate "count(median(...))") := rfl
  exact ⟨hr, hnested, (detection_decides_by_places hr).1.mp ⟨_, hnested⟩⟩

end GraphQuery
