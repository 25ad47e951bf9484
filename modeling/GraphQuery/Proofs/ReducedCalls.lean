import GraphQuery.Proofs.SharedCalls

/-! What becomes of aggregate calls once a group is reduced. Their results stay, whatever is asked
later. -/

namespace GraphQuery

open Outcome (FailsWith Related Tolerance)

theorem Expr.ofName?_of_mem_outermostAggregates {e : Expr} {call : AggregateCall}
    (h : call ∈ e.outermostAggregates) : AggregateFunction.ofName? call.name = some call.function := by
  induction e using Expr.induction with
  | dangling id => cases h
  | node id shape ih =>
    by_cases hc : shape.isCall = true
    · obtain ⟨name, distinct, args, function, rfl, hf⟩ := Node.exists_of_isCall hc
      rw [outermostAggregates_of_call hf, List.mem_singleton] at h
      rw [h]
      exact hf
    · rw [Bool.not_eq_true] at hc
      rw [outermostAggregates_of_not_call hc, List.mem_flatMap] at h
      obtain ⟨child, hchild, h⟩ := h
      exact ih child hchild h

/-- Where no call has two paths, the outermost calls have different ids. -/
theorem Arena.nodup_outermostAggregates {a : Arena} {root : ExprId}
    (hu : ∀ id p q, a.CallPath root p id → a.CallPath root q id → p = q) :
    ((a.tree root).outermostAggregates.map (·.id)).Nodup := by
  rw [← Expr.map_snd_places, List.map_map, List.Nodup, List.pairwise_map]
  have hpaths : (a.tree root).places.Pairwise fun x y => x.1 ≠ y.1 :=
    List.pairwise_map.mp (Expr.nodup_places _)
  refine hpaths.imp_of_mem fun {x y} hx hy hne hid => hne ?_
  have hid : x.2.id = y.2.id := hid
  have hy := callPath_of_mem_places hy
  exact hu x.2.id x.1 y.1 (callPath_of_mem_places hx) (hid ▸ hy)

/-- In an arena that can be walked, the ids tell. -/
theorem Arena.Descends.path_unique {a : Arena} {root id : ExprId} (hr : a.Descends root)
    (hn : ((a.tree root).outermostAggregates.map (·.id)).Nodup) {p q : Path}
    (hp : a.CallPath root p id) (hq : a.CallPath root q id) : p = q := by
  obtain ⟨call, hcall, rfl⟩ := hp.exists_call
  have hp := hr.mem_places_iff.mpr ⟨hp, hcall⟩
  have hq := hr.mem_places_iff.mpr ⟨hq, hcall⟩
  rw [← Expr.map_snd_places, List.map_map] at hn
  exact congrArg Prod.fst (List.inj_on_of_nodup_map hn hp hq rfl)

namespace Slots

variable {slots : Slots} {call : AggregateCall} {calls : List AggregateCall}

theorem exists_lookup_ensureAll (slots : Slots) (h : call ∈ calls) :
    ∃ slot, List.lookup call.id (calls.foldl ensure slots) = some slot := by
  induction calls generalizing slots with
  | nil => cases h
  | cons c calls ih =>
    rw [List.foldl_cons]
    rcases List.mem_cons.mp h with rfl | h
    · have hnow : ∃ slot, List.lookup call.id (slots.ensure call) = some slot := by
        rw [ensure]
        cases hl : List.lookup call.id slots with
        | some slot => exact ⟨slot, hl⟩
        | none => exact ⟨_, lookup_put_self _ _ _⟩
      obtain ⟨slot, hslot⟩ := hnow
      exact ⟨slot, lookup_ensureAll_of_some hslot calls⟩
    · exact ih _ h

theorem ensureAll_eq_self (h : ∀ call ∈ calls, ∃ slot, List.lookup call.id slots = some slot) :
    calls.foldl ensure slots = slots := by
  induction calls with
  | nil => rfl
  | cons call calls ih =>
    obtain ⟨hcall, hcalls⟩ := List.forall_mem_cons.mp h
    obtain ⟨slot, hslot⟩ := hcall
    have hkept : slots.ensure call = slots := by simp only [ensure, hslot]
    rw [List.foldl_cons, hkept, ih hcalls]

end Slots

namespace Evaluator

variable {e : Evaluator} {call : AggregateCall}

theorem exists_finished_of_lookup_reduce {id : ExprId} {slot : Slot}
    (h : List.lookup id e.reduce.slots = some slot) : ∃ result, slot = .finished result := by
  rw [reduce, Slots.lookup_map_reduce] at h
  obtain ⟨before, -, rfl⟩ := Option.map_eq_some_iff.mp h
  cases before with
  | running acc => exact ⟨_, rfl⟩
  | finished result => exact ⟨_, rfl⟩

theorem exists_lookup_reduce (h : call ∈ e.root.outermostAggregates) :
    ∃ result, List.lookup call.id e.reduce.slots = some (.finished result) := by
  obtain ⟨slot, hslot⟩ := e.slots.exists_lookup_ensureAll h
  have hreduced : List.lookup call.id e.reduce.slots = some slot.reduce := by
    rw [reduce, Slots.lookup_map_reduce, hslot]
    rfl
  obtain ⟨result, hresult⟩ := exists_finished_of_lookup_reduce hreduced
  exact ⟨result, hresult ▸ hreduced⟩

theorem reduce_reduce (e : Evaluator) : e.reduce.reduce = e.reduce := by
  have hall : ∀ call ∈ e.reduce.root.outermostAggregates,
      ∃ slot, List.lookup call.id e.reduce.slots = some slot := fun call hcall => by
    obtain ⟨result, hresult⟩ := exists_lookup_reduce (e := e) hcall
    exact ⟨_, hresult⟩
  have hfinished : ∀ p ∈ e.reduce.slots, (p.1, p.2.reduce) = p := by
    intro p hp
    obtain ⟨⟨id, slot⟩, -, rfl⟩ := List.mem_map.mp hp
    cases slot <;> rfl
  rw [reduce, Slots.ensureAll_eq_self hall]
  simp only [List.map_congr_left hfinished, List.map_id']

/-- A reduced evaluator with calls refuses rows. -/
theorem aggregate_reduce (ctx : Context) (row : Record) (h : e.root.outermostAggregates ≠ []) :
    ∃ fault, e.reduce.aggregate ctx row = (.error fault, e.reduce) := by
  obtain ⟨call, calls, hcalls⟩ := List.exists_cons_of_ne_nil h
  have hstep : ∃ fault, e.reduce.step ctx row call = (.error fault, e.reduce) := by
    obtain ⟨result, hresult⟩ := exists_lookup_reduce (e := e) (hcalls ▸ List.mem_cons_self)
    rw [step]
    cases stepArguments (e.reduce.environment ctx row) call with
    | error fault => exact ⟨fault, rfl⟩
    | ok args =>
      simp only [accumulator, hresult]
      exact ⟨_, rfl⟩
  obtain ⟨fault, hfault⟩ := hstep
  have hroot : e.reduce.root.outermostAggregates = call :: calls := hcalls
  refine ⟨fault, ?_⟩
  rw [aggregate, hroot, stepAll, hfault]

theorem serve_reduce (e : Evaluator) (request : Request) : (e.reduce.serve request).2 = e.reduce := by
  cases request with
  | evaluate ctx row => rfl
  | reduce => exact e.reduce_reduce
  | aggregate ctx row =>
    by_cases hcalls : e.root.outermostAggregates = []
    · have hroot : e.reduce.root.outermostAggregates = [] := hcalls
      simp only [serve, aggregate, hroot, stepAll]
    · obtain ⟨fault, hfault⟩ := aggregate_reduce ctx row hcalls
      simp only [serve, hfault]

theorem after_reduce (e : Evaluator) (later : List Request) : e.reduce.after later = e.reduce := by
  induction later with
  | nil => rfl
  | cons request later ih =>
    rw [after, List.foldl_cons, serve_reduce]
    exact ih

end Evaluator

/-- The error of a call that is evaluated while rows still go in. -/
def notReduced (function : String) : Error :=
  .internalInvariant (function ++ ": evaluated before the group was reduced")

theorem notReduced_ne_of_getLast? {function detail : String} (h : detail.toList.getLast? ≠ some 'd') :
    .internalInvariant detail ≠ notReduced function := by
  intro he
  obtain rfl := Error.internalInvariant.inj he
  simp at h

/-- What a context answers by a plugin. -/
def Context.PluginFails (ctx : Context) (fault : Error) : Prop :=
  ∃ plugins name values, ctx.plugins = some plugins ∧ plugins name values = .error fault

theorem Error.Raised.ne_notReduced {fault : Error} (h : fault.Raised) (function : String) :
    fault ≠ notReduced function := by
  cases h with
  | ordinary h => exact h _
  | unbound => exact notReduced_ne_of_getLast? (by decide)
  | dangling id =>
    refine notReduced_ne_of_getLast? ?_
    have hlast : " out of range".toList.getLast? = some 'e' := by decide
    rw [String.toList_append, List.getLast?_append, hlast]
    simp

/-- Not the error of a running call, unless a plugin fails with it. -/
def Context.MeetsNoRunningCall (ctx : Context) (fault : Error) : Prop :=
  ∀ function, fault = notReduced function → ctx.PluginFails fault

theorem Context.acceptsRaised (ctx : Context) : (Tolerance.only ctx.MeetsNoRunningCall).AcceptsRaised :=
  fun _ h function hf => absurd hf (h.ne_notReduced function)

theorem Evaluator.aggregateResult_reduce (e : Evaluator) (ctx : Context) (row : Record) (id : ExprId)
    (function : String) : ((e.reduce.environment ctx row).aggregateResult id function).Ordinary := by
  rw [Environment.aggregateResult]
  cases hl : List.lookup id (e.reduce.environment ctx row).slots with
  | none =>
    simp only
    split <;> simp
  | some slot =>
    obtain ⟨result, rfl⟩ := exists_finished_of_lookup_reduce hl
    simp

/-- Evaluation of a reduced group is related to itself, where no error of a running call is tolerated
but a plugin's own. -/
theorem Evaluator.environment_reduce_related (e : Evaluator) (ctx : Context) (row : Record) :
    (e.reduce.environment ctx row).Related (.only ctx.MeetsNoRunningCall) Eq
      (e.reduce.environment ctx row) where
  symbols := rfl
  parameters := rfl
  plugins := rfl
  pluginFaults := fun plugins hp name values _ hfault _ _ => ⟨plugins, name, values, hp, hfault⟩
  entries := .same_graph ctx.acceptsRaised ctx.graph
  results := fun id function =>
    .refl (ctx.acceptsRaised.of_ordinary (e.aggregateResult_reduce ctx row id function))

theorem Evaluator.evaluate_reduce_failsWith (e : Evaluator) (ctx : Context) (row : Record) :
    FailsWith ctx.MeetsNoRunningCall (e.reduce.evaluate ctx row) :=
  Related.only_iff.mp <| e.root.evaluate_related (e.environment_reduce_related ctx row)
    fun _ _ _ => .of_eq fun _ _ => rfl

theorem countP_id_eq_one {calls : List AggregateCall} (hn : (calls.map (·.id)).Nodup)
    {call : AggregateCall} (hm : call ∈ calls) : (calls.countP fun c => c.id = call.id) = 1 := by
  have hcount := List.count_eq_one_of_mem hn (List.mem_map_of_mem hm)
  rw [List.count, List.countP_map] at hcount
  rw [← hcount]
  exact List.countP_congr fun c _ => by simp

/-- Where ids differ, a call takes its arguments of each row once. -/
theorem Evaluator.Takes.lookup_reduce {symbols : SymbolTable} {root : Expr} {requests : List Request}
    (ht : (ofExpr symbols root).Takes requests) (hn : (root.outermostAggregates.map (·.id)).Nodup)
    {call : AggregateCall} (hm : call ∈ root.outermostAggregates) :
    ∃ args acc,
      (rowsOf requests).mapM (fun (ctx, row) => stepArguments ⟨symbols, ctx, row, []⟩ call) = .ok args ∧
        (Accumulator.start call.function).stepAll args = .ok acc ∧
        List.lookup call.id ((ofExpr symbols root).after requests).reduce.slots =
          some (.finished acc.finish) := by
  have hc : ∀ c ∈ root.outermostAggregates, c.id = call.id → c = call := fun c hc hid =>
    List.inj_on_of_nodup_map hn hc hm hid
  have hstart : (ofExpr symbols root).accumulator call = .ok (.start call.function) := rfl
  obtain ⟨args, acc, hargs, hsteps, hacc⟩ := ht.accumulator_ok hm hc hstart
  -- a slot takes one step for each outermost call with its id
  have hone : ((ofExpr symbols root).root.outermostAggregates.countP fun c => c.id = call.id) = 1 :=
    countP_id_eq_one hn hm
  have honce : args.flatMap (List.replicate 1) = args := by simp [List.replicate]
  rw [hone, honce] at hsteps
  have hroot : ((ofExpr symbols root).after requests).root = root := ht.frame.1
  exact ⟨args, acc, hargs, hsteps, Evaluator.lookup_reduce (by rwa [hroot]) (by rwa [hroot]) hacc⟩

theorem Expr.meaning_of_finished {env : Environment} {id : ExprId} {result : Entry}
    (h : List.lookup id env.slots = some (.finished result)) (name : String) (distinct : Bool)
    (args : List Expr) (scope : Scope) :
    (node id (.aggregate name distinct args)).meaning env scope = .ok result := by
  rw [meaning_node]
  simp only [Node.mapChildren, evaluateNode, Environment.aggregateResult, h]

/-- The results of a group whose calls have one path each, whatever was evaluated while its rows went
in. Every call has the result of a fresh accumulator of its own function that took its arguments of
each row once, and nothing asked later changes it. The arena is one without a cycle, as for every
`Arena.tree`. -/
theorem reduced_calls_keep_results {a : Arena} {root : ExprId} {symbols : SymbolTable}
    {requests : List Evaluator.Request}
    (hu : ∀ id p q, a.CallPath root p id → a.CallPath root q id → p = q)
    (ht : (Evaluator.ofExpr symbols (a.tree root)).Takes requests) :
    let rows := Evaluator.rowsOf requests
    let reduced := ((Evaluator.ofExpr symbols (a.tree root)).after requests).reduce
    let calls := (a.tree root).outermostAggregates
    (∀ call ∈ calls, ∃ fresh args acc,
      Accumulator.ofName call.name = .ok fresh ∧
        rows.mapM (fun (ctx, row) => Evaluator.stepArguments ⟨symbols, ctx, row, []⟩ call) = .ok args ∧
        fresh.stepAll args = .ok acc ∧
        ∀ ctx row scope, (Expr.node call.id (.aggregate call.name call.distinct call.args)).meaning
          (reduced.environment ctx row) scope = .ok acc.finish) ∧
      (∀ later, reduced.after later = reduced) ∧
      (∀ ctx row function, reduced.evaluate ctx row = .error (notReduced function) →
        ctx.PluginFails (notReduced function)) ∧
      (calls ≠ [] → ∀ ctx row, ∃ fault, reduced.aggregate ctx row = (.error fault, reduced)) ∧
      (a.Descends root → ∀ call, call ∈ calls ↔
        ∃ p, a.CallPath root p call.id ∧ a.call? call.id = some call) := by
  intro rows reduced calls
  refine ⟨fun call hm => ?_, Evaluator.after_reduce _, fun ctx row function h => ?_, fun hcalls ctx row => ?_,
    fun hr call => hr.mem_outermostAggregates_iff⟩
  · obtain ⟨args, acc, hargs, hsteps, hslot⟩ := ht.lookup_reduce (Arena.nodup_outermostAggregates hu) hm
    refine ⟨.start call.function, args, acc, ?_, hargs, hsteps, fun ctx row scope => ?_⟩
    · rw [Accumulator.ofName, Expr.ofName?_of_mem_outermostAggregates hm]
    · exact Expr.meaning_of_finished hslot call.name call.distinct call.args scope
  · exact Evaluator.evaluate_reduce_failsWith _ ctx row _ h function rfl
  · have hroot := ht.frame.1
    exact Evaluator.aggregate_reduce ctx row (by rwa [hroot])

def countAndCollect : Arena :=
  ⟨#[.aggregate "count" false [], .reference "x", .aggregate "collect" false [1], .list [0, 2]]⟩

/-- Two texts collected with an evaluation between them. -/
theorem countAndCollect_keeps_results :
    let symbols := (SymbolTable.empty.insert "x" .constant).1
    let ctx := Context.ofGraph .empty
    let row (s : String) := Record.ofEntries [.constant (.string s)]
    let requests := [.aggregate ctx (row "a"), .evaluate ctx (row "a"), .aggregate ctx (row "b")]
    let reduced := ((Evaluator.ofExpr symbols (countAndCollect.tree 3)).after requests).reduce
    let flag : Entry := .constant (.bool false)
    (∃ fresh acc, Accumulator.ofName "collect" = .ok fresh ∧
        fresh.stepAll [[flag, .constant (.string "a")], [flag, .constant (.string "b")]] = .ok acc ∧
        (countAndCollect.tree 2).evaluate (reduced.environment ctx .empty) = .ok acc.finish) ∧
      reduced.after [.reduce, .aggregate ctx (row "c")] = reduced := by
  intro symbols ctx row requests reduced flag
  have hr : countAndCollect.Descends 3 := Arena.descends_of_children_lt (by decide) 3
  obtain ⟨hcalls, hkeep, -⟩ := @reduced_calls_keep_results countAndCollect 3 symbols requests
    (fun id p q hp hq => hr.path_unique (by decide) hp hq) ⟨rfl, rfl, trivial⟩
  constructor
  · have hm : (⟨2, "collect", .collect, false, [countAndCollect.tree 1]⟩ : AggregateCall) ∈
        (countAndCollect.tree 3).outermostAggregates := .tail _ (.head _)
    obtain ⟨fresh, args, acc, hfresh, hargs, hsteps, hvalue⟩ := hcalls _ hm
    obtain rfl := Except.ok.inj hargs
    exact ⟨fresh, acc, hfresh, hsteps, hvalue ctx .empty []⟩
  · exact hkeep _

end GraphQuery
