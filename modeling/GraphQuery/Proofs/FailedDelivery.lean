import GraphQuery.Proofs.KeptRecords
import GraphQuery.Proofs.ReducedCalls

/-! Aggregations after the output of a group failed. The failing pull reduced some evaluators of the group,
which does not show in its output later, and left the groups behind it alone. -/

namespace GraphQuery

/-- The group with every evaluator reduced. -/
def Group.reduced (g : Group) : Group := { g with evaluators := g.evaluators.map Evaluator.reduce }

theorem Group.reduced_reduced (g : Group) : g.reduced.reduced = g.reduced := by
  simp [reduced, Function.comp_def, Evaluator.reduce_reduce]

namespace Grouping

variable {s : Grouping} {ctx : Context} {last : Record}

/-- Whether evaluators are reduced before does not show in the row. -/
theorem writeResults_map_reduce (columns : List Nat) (es : List Evaluator) (row : Record) :
    (s.writeResults ctx last columns (es.map Evaluator.reduce) row).1 =
      (s.writeResults ctx last columns es row).1 := by
  induction columns generalizing es row with
  | nil => cases es <;> rfl
  | cons column columns ih =>
    cases es with
    | nil => rfl
    | cons e es =>
      rw [List.map_cons]
      cases hx : s.resultOf ctx last e.reduce with
      | error fault =>
        have hx' : s.resultOf ctx last e.reduce.reduce = .error fault := by rwa [e.reduce_reduce]
        rw [writeResults_of_error hx, writeResults_of_error hx']
      | ok result =>
        have hx' : s.resultOf ctx last e.reduce.reduce = .ok result := by rwa [e.reduce_reduce]
        rw [writeResults_of_ok hx, writeResults_of_ok hx']
        exact ih es (row.set column result)

/-- Evaluators are reduced and nothing else. -/
theorem map_reduce_writeResults (columns : List Nat) (es : List Evaluator) (row : Record) :
    (s.writeResults ctx last columns es row).2.map Evaluator.reduce = es.map Evaluator.reduce := by
  induction columns generalizing es row with
  | nil => cases es <;> rfl
  | cons column columns ih =>
    cases es with
    | nil => rfl
    | cons e es =>
      cases hx : s.resultOf ctx last e.reduce with
      | error fault => rw [writeResults_of_error hx, List.map_cons, List.map_cons, e.reduce_reduce]
      | ok result => rw [writeResults_of_ok hx, List.map_cons, List.map_cons, e.reduce_reduce, ih]

theorem outputRow_reduced (g : Group) : s.outputRow ctx g.reduced = s.outputRow ctx g :=
  writeResults_map_reduce _ _ _

theorem reduced_handOver (g : Group) : (s.handOver ctx g).2.reduced = g.reduced := by
  have hmap : (s.handOver ctx g).2.evaluators.map Evaluator.reduce = g.evaluators.map Evaluator.reduce :=
    map_reduce_writeResults _ _ _
  rw [Group.reduced, hmap]
  rfl

theorem outputs_reduced (groups : List Group) :
    s.outputs ctx (groups.map Group.reduced) = s.outputs ctx groups := by
  rw [outputs, outputs]
  induction groups with
  | nil => rfl
  | cons g groups ih => simp only [List.map_cons, Delivery.collect, outputRow_reduced, ih]

end Grouping

namespace GroupingState

/-- The state with every evaluator of every group reduced. -/
def reduced (s : GroupingState) : GroupingState := { s with groups := s.groups.map Group.reduced }

/-- The groups that are not delivered yet. -/
def left (s : GroupingState) : List Group := s.groups.drop s.delivered

variable {s t : GroupingState} {grouping : Grouping} {ctx : Context} {fault : Error}

theorem reduced_reduced (s : GroupingState) : s.reduced.reduced = s.reduced := by
  simp [reduced, Function.comp_def, Group.reduced_reduced]

theorem phase_of_reduced_eq (h : s.reduced = t.reduced) : s.phase = t.phase :=
  (GroupingState.mk.inj h).1

theorem record_of_reduced_eq (h : s.reduced = t.reduced) : s.record = t.record :=
  (GroupingState.mk.inj h).2.2.2

theorem left_reduced (s : GroupingState) : s.reduced.left = s.left.map Group.reduced :=
  List.map_drop.symm

theorem getElem?_reduced (s : GroupingState) (i : Nat) :
    s.reduced.groups[i]? = s.groups[i]?.map Group.reduced :=
  List.getElem?_map

theorem map_reduced_set (grouping : Grouping) (ctx : Context) {groups : List Group} {i : Nat} {g : Group}
    (hg : groups[i]? = some g) :
    (groups.set i (grouping.handOver ctx g).2).map Group.reduced = groups.map Group.reduced := by
  obtain ⟨hi, rfl⟩ := List.getElem?_eq_some_iff.mp hg
  have hi' : i < (groups.map Group.reduced).length := by rwa [List.length_map]
  rw [List.map_set, Grouping.reduced_handOver, ← List.getElem_map Group.reduced (h := hi'),
    List.set_getElem_self]

theorem reduced_of_deliver_error (h : s.deliver grouping ctx = (.error fault, t)) :
    t.reduced = s.reduced := by
  cases hg : s.groups[s.delivered]? with
  | none =>
    rw [deliver_of_none hg] at h
    cases h
  | some g =>
    cases ho : grouping.outputRow ctx g with
    | ok row =>
      rw [deliver_of_ok hg ho] at h
      cases h
    | error fault' =>
      rw [deliver_of_error hg ho] at h
      rw [← (Prod.mk.inj h).2, reduced, map_reduced_set grouping ctx hg, reduced]

/-- A delivery shows nothing of what was reduced before it. -/
theorem deliver_reduced (s : GroupingState) (grouping : Grouping) (ctx : Context) :
    (s.reduced.deliver grouping ctx).1 = (s.deliver grouping ctx).1 ∧
      (s.reduced.deliver grouping ctx).2.reduced = (s.deliver grouping ctx).2.reduced := by
  have hreduced : (s.groups.map Group.reduced).map Group.reduced = s.groups.map Group.reduced :=
    congrArg groups s.reduced_reduced
  cases hg : s.groups[s.delivered]? with
  | none =>
    have hg' : s.reduced.groups[s.reduced.delivered]? = none :=
      (s.getElem?_reduced s.delivered).trans (congrArg (Option.map Group.reduced) hg)
    rw [deliver_of_none hg, deliver_of_none hg']
    simp only [reduced, hreduced, and_self]
  | some g =>
    have hg' : s.reduced.groups[s.reduced.delivered]? = some g.reduced :=
      (s.getElem?_reduced s.delivered).trans (congrArg (Option.map Group.reduced) hg)
    have hset := map_reduced_set grouping ctx hg
    have hset' := map_reduced_set grouping ctx hg'
    cases ho : grouping.outputRow ctx g with
    | ok row =>
      rw [deliver_of_ok hg ho, deliver_of_ok hg' ((grouping.outputRow_reduced g).trans ho)]
      simp only [reduced] at hset' ⊢
      simp only [hset, hset', hreduced, and_self]
    | error fault =>
      rw [deliver_of_error hg ho, deliver_of_error hg' ((grouping.outputRow_reduced g).trans ho)]
      simp only [reduced] at hset' ⊢
      simp only [hset, hset', hreduced, and_self]

theorem deliver_congr (h : s.reduced = t.reduced) (grouping : Grouping) (ctx : Context) :
    (s.deliver grouping ctx).1 = (t.deliver grouping ctx).1 ∧
      (s.deliver grouping ctx).2.reduced = (t.deliver grouping ctx).2.reduced := by
  have hs := s.deliver_reduced grouping ctx
  have ht := t.deliver_reduced grouping ctx
  rw [h] at hs
  exact ⟨hs.1.symm.trans ht.1, hs.2.symm.trans ht.2⟩

/-- A delivery fails on the first group that is left. -/
theorem exists_left_of_deliver_error (h : s.deliver grouping ctx = (.error fault, t)) :
    ∃ g rest, s.left = g :: rest ∧ grouping.outputRow ctx g = .error fault := by
  cases hg : s.groups[s.delivered]? with
  | none =>
    rw [deliver_of_none hg] at h
    cases h
  | some g =>
    have hleft : s.left = g :: s.groups.drop (s.delivered + 1) := by
      obtain ⟨hi, rfl⟩ := List.getElem?_eq_some_iff.mp hg
      exact List.drop_eq_getElem_cons hi
    cases ho : grouping.outputRow ctx g with
    | ok row =>
      rw [deliver_of_ok hg ho] at h
      cases h
    | error fault' =>
      rw [deliver_of_error hg ho] at h
      obtain rfl := Except.error.inj (Prod.mk.inj h).1
      exact ⟨g, _, hleft, ho⟩

end GroupingState

namespace Plan

/-- The answers of pulls one after the other, and the record that is shown after each. -/
def pullsShown (plan : Plan) : Cursor plan → List Context → List (Outcome Pulled × Record)
  | _, [] => []
  | c, ctx :: later =>
    let (answer, d) := plan.pull ctx c
    (answer, plan.record d) :: plan.pullsShown d later

theorem pullsShown_of_pull_eq {plan : Plan} {c d : Cursor plan} {ctx : Context} {answer : Outcome Pulled}
    (h : plan.pull ctx c = (answer, d)) (later : List Context) :
    plan.pullsShown c (ctx :: later) = (answer, plan.record d) :: plan.pullsShown d later := by
  rw [pullsShown, h]

/-- A pull that fails, under whatever context. -/
def FailsTo (plan : Plan) (c d : Cursor plan) : Prop :=
  ∃ ctx fault, plan.pull ctx c = (.error fault, d)

variable {ctx : Context} {grouping : Grouping} {child : Plan} {fault : Error}

/-- An error leaves an aggregation delivering only if the rows below are in. -/
theorem fills_of_pull_error {x y : GroupingState × Cursor child}
    (h : (aggregate grouping child).pull ctx x = (.error fault, y)) (hy : y.1.phase = .delivering) :
    ∃ full, Fills ctx grouping child x full ∧ full.1.deliver grouping ctx = (.error fault, y.1) := by
  rcases aggregate_pull_cases ctx grouping child x with
    ⟨hx, hpull⟩ | ⟨-, hpull⟩ | ⟨hx, fault', groups, d, -, hpull⟩ | ⟨full, hfull, hpull⟩
  · obtain ⟨-, rfl⟩ := Prod.mk.inj (hpull.symm.trans h)
    rw [hx] at hy
    cases hy
  · cases hpull.symm.trans h
  · obtain ⟨-, rfl⟩ := Prod.mk.inj (hpull.symm.trans h)
    rw [hx] at hy
    cases hy
  · obtain ⟨hanswer, hstate⟩ := Prod.mk.inj (hpull.symm.trans h)
    exact ⟨full, hfull, Prod.ext hanswer (congrArg Prod.fst hstate)⟩

section Shown

variable {s t : GroupingState}

theorem pull_of_delivering (hs : s.phase = .delivering) (ctx : Context) (c : Cursor child) :
    (aggregate grouping child).pull ctx (s, c) =
      ((s.deliver grouping ctx).1, ((s.deliver grouping ctx).2, c)) :=
  (Fills.delivering hs).pull_eq.2

theorem phase_deliver (hs : s.phase = .delivering) (grouping : Grouping) (ctx : Context) :
    (s.deliver grouping ctx).2.phase = .delivering ∨ (s.deliver grouping ctx).2.phase = .depleted := by
  cases hg : s.groups[s.delivered]? with
  | none => simp [GroupingState.deliver_of_none hg]
  | some g =>
    cases ho : grouping.outputRow ctx g with
    | ok row => simp [GroupingState.deliver_of_ok hg ho, hs]
    | error fault => simp [GroupingState.deliver_of_error hg ho, hs]

theorem pullsShown_of_depleted (hs : s.phase = .depleted) (c : Cursor child) (contexts : List Context) :
    (aggregate grouping child).pullsShown (s, c) contexts =
      contexts.map fun _ => (.ok .depleted, s.record) := by
  induction contexts with
  | nil => rfl
  | cons ctx contexts ih =>
    have hpull : (aggregate grouping child).pull ctx (s, c) = (.ok .depleted, (s, c)) := by
      simp only [pull, hs]
      rfl
    exact (pullsShown_of_pull_eq hpull contexts).trans (congrArg _ ih)

/-- Once the rows are in, pulls show nothing of which evaluators are reduced, nor of the rows below. -/
theorem pullsShown_congr (h : s.reduced = t.reduced) (hs : s.phase = .delivering) (c d : Cursor child)
    (contexts : List Context) :
    (aggregate grouping child).pullsShown (s, c) contexts =
      (aggregate grouping child).pullsShown (t, d) contexts := by
  induction contexts generalizing s t with
  | nil => rfl
  | cons ctx contexts ih =>
    have ht : t.phase = .delivering := (GroupingState.phase_of_reduced_eq h).symm.trans hs
    obtain ⟨hanswer, hreduced⟩ := GroupingState.deliver_congr h grouping ctx
    have hphase := GroupingState.phase_of_reduced_eq hreduced
    have hrecord := GroupingState.record_of_reduced_eq hreduced
    have hrest : (aggregate grouping child).pullsShown ((s.deliver grouping ctx).2, c) contexts =
        (aggregate grouping child).pullsShown ((t.deliver grouping ctx).2, d) contexts := by
      rcases phase_deliver hs grouping ctx with hgoes | hends
      · exact ih hreduced hgoes
      · rw [pullsShown_of_depleted hends, pullsShown_of_depleted (hphase.symm.trans hends), hrecord]
    rw [pullsShown_of_pull_eq (pull_of_delivering hs ctx c), pullsShown_of_pull_eq (pull_of_delivering ht ctx d),
      hrest, hanswer]
    exact congrArg (fun record => (_, record) :: _) hrecord

end Shown

/-- Failing pulls of an aggregation that has its rows reduce evaluators and do nothing else. -/
theorem reduced_of_failsTo {y z : GroupingState × Cursor child} (hy : y.1.phase = .delivering)
    (h : Relation.ReflTransGen (aggregate grouping child).FailsTo y z) :
    z.1.reduced = y.1.reduced := by
  induction h with
  | refl => rfl
  | @tail u v _ hstep ih =>
    obtain ⟨s, c⟩ := u
    obtain ⟨t, d⟩ := v
    obtain ⟨ctx, fault, hpull⟩ := hstep
    have hs : s.phase = .delivering := (GroupingState.phase_of_reduced_eq ih).trans hy
    obtain ⟨hanswer, hstate⟩ := Prod.mk.inj ((pull_of_delivering hs ctx c).symm.trans hpull)
    have hdeliver : s.deliver grouping ctx = (.error fault, t) :=
      Prod.ext hanswer (Prod.mk.inj hstate).1
    exact (GroupingState.reduced_of_deliver_error hdeliver).trans ih

/-- A group that cannot be handed over costs nothing. However often the pull is tried again, under
whatever graphs and parameters, the aggregation shows the record of before and answers as if no attempt
had been made: with the same failure under the same context, and once the group has an output, with that
row and then the groups behind it. -/
theorem failed_delivery_loses_nothing {x y z : GroupingState × Cursor child}
    (hf : (aggregate grouping child).pull ctx x = (.error fault, y)) (hy : y.1.phase = .delivering)
    (hz : Relation.ReflTransGen (aggregate grouping child).FailsTo y z) :
    (aggregate grouping child).record z = (aggregate grouping child).record x ∧
      ((aggregate grouping child).pull ctx z).1 = .error fault ∧
      ∃ full g rest, Fills ctx grouping child x full ∧ full.1.left = g :: rest ∧
        grouping.outputRow ctx g = .error fault ∧
        (∀ contexts, (aggregate grouping child).pullsShown z contexts =
          (aggregate grouping child).pullsShown full contexts) ∧
        ∀ later row, grouping.outputRow later g = .ok row →
          ∃ v, (aggregate grouping child).pull later z = (.ok .row, v) ∧
            (aggregate grouping child).record v = row ∧
            ∀ next, Delivers ((aggregate grouping child).pull next) (aggregate grouping child).record v
              (grouping.outputs next rest) := by
  obtain ⟨⟨s, c⟩, hfull, hdeliver⟩ := fills_of_pull_error hf hy
  obtain ⟨u, e⟩ := z
  obtain ⟨g, rest, hleft, ho⟩ := GroupingState.exists_left_of_deliver_error hdeliver
  have hreduced : u.reduced = s.reduced :=
    (reduced_of_failsTo hy hz).trans (GroupingState.reduced_of_deliver_error hdeliver)
  have hphase : u.phase = .delivering :=
    (GroupingState.phase_of_reduced_eq hreduced).trans hfull.pull_eq.1
  refine ⟨?_, ?_, (s, c), g, rest, hfull, hleft, ho, pullsShown_congr hreduced hphase e c, ?_⟩
  · exact (GroupingState.record_of_reduced_eq hreduced).trans hfull.record_eq
  · rw [pull_of_delivering hphase]
    exact (GroupingState.deliver_congr hreduced grouping ctx).1.trans (congrArg Prod.fst hdeliver)
  · intro later row hrow
    have hmap := s.left_reduced
    rw [← hreduced, u.left_reduced, hleft, List.map_cons, List.map_eq_cons_iff] at hmap
    obtain ⟨g', rest', hleft', hg', hrest'⟩ := hmap
    have hrow' : grouping.outputRow later g' = .ok row := by
      rw [← Grouping.outputRow_reduced, hg', Grouping.outputRow_reduced, hrow]
    obtain ⟨v, hv, hvphase, hvrecord, hvleft⟩ := exists_deliver_of_ok hleft' hrow'
    refine ⟨(v, e), ?_, hvrecord, fun next => ?_⟩
    · exact (pull_of_delivering hphase later e).trans (congrArg (fun r => (r.1, (r.2, e))) hv)
    · have hbehind := groups_delivers next grouping child (hvphase.trans hphase) e
      rwa [hvleft, ← Grouping.outputs_reduced, hrest', Grouping.outputs_reduced] at hbehind

/-- A count of rows by `x`, with the parameter `limit` beside it. -/
def countsByX : Grouping :=
  let symbols := (SymbolTable.empty.insert "x" .constant).1
  ⟨symbols, .default, ["x", "n", "limited"], [(0, .ofExpr symbols (.node 0 (.reference "x")))],
    [(1, .ofExpr symbols (.node 1 (.aggregate "count" false []))),
      (2, .ofExpr symbols (.node 4 (.list
        [.node 2 (.aggregate "count" false []), .node 3 (.parameter "limit")])))]⟩

example : Grouping.ofItems (SymbolTable.empty.insert "x" .constant).1 .default
    [⟨.node 0 (.reference "x"), "x"⟩, ⟨.node 1 (.aggregate "count" false []), "n"⟩,
      ⟨.node 4 (.list [.node 2 (.aggregate "count" false []), .node 3 (.parameter "limit")]), "limited"⟩] =
    .ok countsByX := rfl

def oneThenTwo : Plan :=
  values [Record.ofEntries [.constant (.int 1)], Record.ofEntries [.constant (.int 2)]]

/-- Without the parameter the first group fails in its last column, twice. With it, the group gives its
row, and the other group is still there. -/
theorem countsByX_waits_for_parameter :
    let plan := aggregate countsByX oneThenTwo
    let ctx := Context.ofGraph .empty
    let x := plan.after plan.start [.prepare]
    let y := (plan.pull ctx x).2
    let z := (plan.pull ctx y).2
    (plan.pull ctx x).1 = .error (.undefinedParameter "limit") ∧
      (plan.pull ctx z).1 = .error (.undefinedParameter "limit") ∧
      ∃ v rest, plan.pull (ctx.bind "limit" (.int 5)) z = (.ok .row, v) ∧
        plan.record v = .ofEntries [.constant (.int 1), .constant (.int 1),
          .constant (.list [.int 1, .int 5])] ∧ rest.length = 1 ∧
        Delivers (plan.pull ctx) plan.record v (countsByX.outputs ctx rest) := by
  intro plan ctx x y z
  have hz : Relation.ReflTransGen plan.FailsTo y z := .single ⟨ctx, .undefinedParameter "limit", rfl⟩
  obtain ⟨-, hagain, ⟨s, c⟩, g, rest, hfull, hleft, -, -, hlater⟩ :=
    @failed_delivery_loses_nothing ctx countsByX _ _ x y z rfl rfl hz
  have hfull : Fills ctx countsByX oneThenTwo (⟨.prepared, [], 0, Record.new 3⟩, (0 : Nat)) (s, c) := hfull
  cases hfull with
  | delivering hs => cases hs
  | prepared hs hd =>
    obtain ⟨-, hstate⟩ := Prod.mk.inj ((drains_iff (oneThenTwo.pull_progresses ctx) _ _ _ _).mp hd)
    obtain ⟨rfl, rfl⟩ := Prod.mk.inj hstate
    obtain ⟨rfl, rfl⟩ := List.cons.inj hleft
    obtain ⟨v, hv, hrecord, hrest⟩ := hlater (ctx.bind "limit" (.int 5)) _ rfl
    exact ⟨rfl, hagain, v, _, hv, hrecord, rfl, hrest ctx⟩

end Plan

end GraphQuery
