import GraphQuery.Proofs.CallPaths
import GraphQuery.Proofs.Routing
import GraphQuery.Proofs.RunningCalls

/-! How often aggregate calls step. A row steps a call once for every path on which it is met, so a
call that is shared takes each row several times. -/

namespace GraphQuery

open Outcome (Extends)

namespace Slots

theorem lookup_put_self (id : ExprId) (slot : Slot) (slots : Slots) :
    List.lookup id (slots.put id slot) = some slot := by
  induction slots with
  | nil => simp [put]
  | cons p slots ih =>
    obtain ⟨i, s⟩ := p
    by_cases hi : i = id
    · simp [put, hi]
    · have hb : (id == i) = false := beq_false_of_ne (Ne.symm hi)
      simp [put, hi, List.lookup_cons, hb, ih]

theorem lookup_put_of_ne {i id : ExprId} (h : i ≠ id) (slot : Slot) (slots : Slots) :
    List.lookup i (slots.put id slot) = List.lookup i slots := by
  have hb : (i == id) = false := beq_false_of_ne h
  induction slots with
  | nil => simp [put, List.lookup_cons, hb]
  | cons p slots ih =>
    obtain ⟨j, s⟩ := p
    by_cases hj : j = id
    · simp [put, hj, List.lookup_cons, hb]
    · simp [put, hj, List.lookup_cons, ih]

theorem lookup_map_reduce (id : ExprId) (slots : Slots) :
    List.lookup id (slots.map fun (id, slot) => (id, slot.reduce)) =
      (List.lookup id slots).map Slot.reduce := by
  induction slots with
  | nil => rfl
  | cons p slots ih =>
    obtain ⟨i, s⟩ := p
    rw [List.map_cons, List.lookup_cons, List.lookup_cons, ih]
    cases id == i <;> rfl

theorem Grow.refl (slots : Slots) : slots.Grow slots := fun _ => .inl rfl

theorem Grow.trans {a b c : Slots} (hab : a.Grow b) (hbc : b.Grow c) : a.Grow c := by
  intro id
  rcases hbc id with hc | hc
  · rw [hc]
    exact hab id
  · exact .inr hc

theorem Grow.exists_running {before after : Slots} (h : before.Grow after) {id : ExprId}
    {acc : Accumulator} (ha : List.lookup id before = some (.running acc)) :
    ∃ acc', List.lookup id after = some (.running acc') := by
  rcases h id with hs | hs
  · exact ⟨acc, hs.trans ha⟩
  · exact hs

theorem grow_put (slots : Slots) (id : ExprId) (acc : Accumulator) :
    slots.Grow (slots.put id (.running acc)) := by
  intro i
  by_cases hi : i = id
  · subst hi
    exact .inr ⟨acc, lookup_put_self i _ slots⟩
  · exact .inl (lookup_put_of_ne hi _ slots)

theorem lookup_ensure_of_some {id : ExprId} {slot : Slot} {slots : Slots}
    (h : List.lookup id slots = some slot) (call : AggregateCall) :
    List.lookup id (slots.ensure call) = some slot := by
  rw [ensure]
  cases hc : List.lookup call.id slots with
  | some s => exact h
  | none =>
    have hne : id ≠ call.id := fun he => by simp [he, hc] at h
    rw [lookup_put_of_ne hne, h]

theorem lookup_ensureAll_of_some {id : ExprId} {slot : Slot} {slots : Slots}
    (h : List.lookup id slots = some slot) (calls : List AggregateCall) :
    List.lookup id (calls.foldl ensure slots) = some slot := by
  induction calls generalizing slots with
  | nil => exact h
  | cons call calls ih => exact ih (lookup_ensure_of_some h call)

theorem lookup_ensureAll_of_none {call : AggregateCall} {slots : Slots}
    (h : List.lookup call.id slots = none) {calls : List AggregateCall} (hm : call ∈ calls)
    (hc : ∀ c ∈ calls, c.id = call.id → c = call) :
    List.lookup call.id (calls.foldl ensure slots) = some (.running (.start call.function)) := by
  induction calls generalizing slots with
  | nil => simp at hm
  | cons c calls ih =>
    rw [List.foldl_cons]
    by_cases hid : c.id = call.id
    · obtain rfl := hc c (by simp) hid
      have hnew : slots.ensure c = slots.put c.id (.running (.start c.function)) := by
        simp only [ensure, h]
      rw [hnew]
      exact lookup_ensureAll_of_some (lookup_put_self _ _ _) calls
    · have hrest : call ∈ calls := List.mem_of_ne_of_mem (fun he => hid (he ▸ rfl)) hm
      have hsame : List.lookup call.id (slots.ensure c) = none := by
        rw [ensure]
        cases List.lookup c.id slots with
        | some s => exact h
        | none => exact (lookup_put_of_ne (Ne.symm hid) _ _).trans h
      exact ih hsame hrest fun d hd => hc d (List.mem_cons_of_mem c hd)

end Slots

namespace Accumulator

def stepAll (acc : Accumulator) : List (List Entry) → Outcome Accumulator
  | [] => .ok acc
  | args :: rest =>
    match acc.step args with
    | (.ok _, acc) => acc.stepAll rest
    | (.error fault, _) => .error fault

theorem stepAll_cons_eq_ok {acc acc' : Accumulator} {args : List Entry} {rest : List (List Entry)} :
    acc.stepAll (args :: rest) = .ok acc' ↔
      ∃ next, acc.step args = (.ok (), next) ∧ next.stepAll rest = .ok acc' := by
  rw [stepAll]
  cases hs : acc.step args with
  | mk result next => cases result <;> simp

theorem stepAll_append_eq_ok {acc acc' : Accumulator} {first rest : List (List Entry)} :
    acc.stepAll (first ++ rest) = .ok acc' ↔
      ∃ middle, acc.stepAll first = .ok middle ∧ middle.stepAll rest = .ok acc' := by
  induction first generalizing acc with
  | nil => simp [stepAll]
  | cons args first ih =>
    rw [List.cons_append, stepAll_cons_eq_ok]
    constructor
    · rintro ⟨next, hs, h⟩
      obtain ⟨middle, hfirst, hrest⟩ := ih.mp h
      exact ⟨middle, stepAll_cons_eq_ok.mpr ⟨next, hs, hfirst⟩, hrest⟩
    · rintro ⟨middle, hfirst, hrest⟩
      obtain ⟨next, hs, h⟩ := stepAll_cons_eq_ok.mp hfirst
      exact ⟨next, hs, ih.mpr ⟨middle, h, hrest⟩⟩

end Accumulator

namespace Evaluator

/-- What an evaluator can be asked for. -/
inductive Request where
  | aggregate (ctx : Context) (record : Record)
  | evaluate (ctx : Context) (record : Record)
  | reduce

def serve (e : Evaluator) : Request → Outcome (Option Entry) × Evaluator
  | .aggregate ctx record =>
    let (result, e) := e.aggregate ctx record
    (result.map fun _ => none, e)
  | .evaluate ctx record => ((e.evaluate ctx record).map some, e)
  | .reduce => (.ok none, e.reduce)

def after (e : Evaluator) (requests : List Request) : Evaluator :=
  requests.foldl (fun e request => (e.serve request).2) e

/-- Every row is taken without failure, and nothing is reduced. -/
def Takes (e : Evaluator) : List Request → Prop
  | [] => True
  | .aggregate ctx record :: rest =>
    (e.aggregate ctx record).1 = .ok () ∧ (e.aggregate ctx record).2.Takes rest
  | .evaluate _ _ :: rest => e.Takes rest
  | .reduce :: _ => False

def Request.row? : Request → Option (Context × Record)
  | aggregate ctx record => some (ctx, record)
  | _ => none

def rowsOf (requests : List Request) : List (Context × Record) := requests.filterMap Request.row?

variable {e e' : Evaluator} {ctx : Context} {record : Record} {call : AggregateCall}

theorem step_ok (h : e.step ctx record call = (.ok (), e')) :
    ∃ args acc acc', stepArguments (e.environment ctx record) call = .ok args ∧
      e.accumulator call = .ok acc ∧ acc.step args = (.ok (), acc') ∧
      e' = { e with slots := e.slots.put call.id (.running acc') } := by
  rw [step] at h
  cases ha : stepArguments (e.environment ctx record) call with
  | error fault => simp [ha, bind, Except.bind] at h
  | ok args =>
    cases hc : e.accumulator call with
    | error fault => simp [ha, hc, bind, Except.bind] at h
    | ok acc =>
      simp only [ha, hc, bind, Except.bind, pure, Except.pure, Prod.mk.injEq] at h
      obtain ⟨hs, rfl⟩ := h
      exact ⟨args, acc, _, rfl, rfl, Prod.ext hs rfl, rfl⟩

theorem accumulator_of_running {acc : Accumulator}
    (h : List.lookup call.id e.slots = some (.running acc)) : e.accumulator call = .ok acc := by
  simp only [accumulator, h]

theorem accumulator_congr (h : List.lookup call.id e'.slots = List.lookup call.id e.slots) :
    e'.accumulator call = e.accumulator call := by
  simp only [accumulator, h]

theorem stepAll_cons_eq_ok {calls : List AggregateCall} :
    stepAll ctx record (call :: calls) e = (.ok (), e') ↔
      ∃ next, e.step ctx record call = (.ok (), next) ∧ stepAll ctx record calls next = (.ok (), e') := by
  rw [stepAll]
  cases hs : e.step ctx record call with
  | mk result next => cases result <;> simp

/-- Steps keep the tree and the symbols, and let calls run. -/
theorem stepAll_frame {calls : List AggregateCall} (h : stepAll ctx record calls e = (.ok (), e')) :
    e'.root = e.root ∧ e'.symbols = e.symbols ∧ e.slots.Grow e'.slots := by
  induction calls generalizing e with
  | nil =>
    obtain rfl : e = e' := by simpa [stepAll] using h
    exact ⟨rfl, rfl, .refl _⟩
  | cons call calls ih =>
    obtain ⟨next, hs, h⟩ := stepAll_cons_eq_ok.mp h
    obtain ⟨args, acc, acc', -, -, -, rfl⟩ := step_ok hs
    obtain ⟨hroot, hsymbols, hgrow⟩ := ih h
    exact ⟨hroot, hsymbols, (Slots.grow_put _ _ _).trans hgrow⟩

theorem stepAll_exists_running {calls : List AggregateCall}
    (h : stepAll ctx record calls e = (.ok (), e')) (hm : call ∈ calls) :
    ∃ acc, List.lookup call.id e'.slots = some (.running acc) := by
  induction calls generalizing e with
  | nil => simp at hm
  | cons c calls ih =>
    obtain ⟨next, hs, h⟩ := stepAll_cons_eq_ok.mp h
    rcases List.mem_cons.mp hm with rfl | hm
    · obtain ⟨args, acc, acc', -, -, -, rfl⟩ := step_ok hs
      obtain ⟨-, -, hgrow⟩ := stepAll_frame h
      exact hgrow.exists_running (Slots.lookup_put_self _ _ _)
    · exact ih h hm

/-- A listed call has arguments before the first step already. -/
theorem stepAll_exists_arguments {calls : List AggregateCall}
    (h : stepAll ctx record calls e = (.ok (), e')) (hm : call ∈ calls) :
    ∃ args, stepArguments (e.environment ctx record) call = .ok args := by
  induction calls generalizing e with
  | nil => simp at hm
  | cons c calls ih =>
    obtain ⟨next, hs, h⟩ := stepAll_cons_eq_ok.mp h
    obtain ⟨args, acc, acc', hargs, -, -, rfl⟩ := step_ok hs
    rcases List.mem_cons.mp hm with rfl | hm
    · exact ⟨args, hargs⟩
    · obtain ⟨args', hargs'⟩ := ih h hm
      exact ⟨args', stepArguments_extends (e.environment ctx record) (Slots.grow_put _ _ _) call _ hargs'⟩

theorem stepAll_exists_accumulator {calls : List AggregateCall}
    (h : stepAll ctx record calls e = (.ok (), e')) (hm : call ∈ calls)
    (hc : ∀ c ∈ calls, c.id = call.id → c = call) : ∃ acc, e.accumulator call = .ok acc := by
  induction calls generalizing e with
  | nil => simp at hm
  | cons c calls ih =>
    obtain ⟨next, hs, h⟩ := stepAll_cons_eq_ok.mp h
    obtain ⟨args, first, second, -, hfirst, -, rfl⟩ := step_ok hs
    by_cases hid : c.id = call.id
    · obtain rfl := hc c (by simp) hid
      exact ⟨first, hfirst⟩
    · have hrest : call ∈ calls := List.mem_of_ne_of_mem (fun he => hid (he ▸ rfl)) hm
      obtain ⟨acc, hacc⟩ := ih h hrest fun d hd => hc d (List.mem_cons_of_mem c hd)
      have hkept := Slots.lookup_put_of_ne (Ne.symm hid) (.running second) e.slots
      exact ⟨acc, (accumulator_congr hkept).symm.trans hacc⟩

/-- A call steps as often as it is listed, each time with the same arguments. -/
theorem stepAll_ok {calls : List AggregateCall} (h : stepAll ctx record calls e = (.ok (), e'))
    (hc : ∀ c ∈ calls, c.id = call.id → c = call) {acc : Accumulator}
    (ha : e.accumulator call = .ok acc) {args : List Entry}
    (hargs : Extends (.ok args) (stepArguments (e.environment ctx record) call)) :
    ∃ acc', e'.accumulator call = .ok acc' ∧
      acc.stepAll (List.replicate (calls.countP fun c => c.id = call.id) args) = .ok acc' := by
  induction calls generalizing e acc with
  | nil =>
    obtain rfl : e = e' := by simpa [stepAll] using h
    exact ⟨acc, ha, rfl⟩
  | cons c calls ih =>
    obtain ⟨next, hs, h⟩ := stepAll_cons_eq_ok.mp h
    obtain ⟨args', first, second, hargs', hfirst, hsecond, rfl⟩ := step_ok hs
    have hrest : ∀ d ∈ calls, d.id = call.id → d = call := fun d hd =>
      hc d (List.mem_cons_of_mem c hd)
    -- Later steps see more running calls, which can take the arguments away but not change them.
    have hlater := hargs.trans (stepArguments_extends (e.environment ctx record)
      (Slots.grow_put e.slots c.id second) call)
    by_cases hid : c.id = call.id
    · obtain rfl := hc c (by simp) hid
      obtain rfl : first = acc := by simpa [hfirst] using ha
      obtain rfl : args = args' := by simpa using hargs args' hargs'
      have hrunning := Slots.lookup_put_self c.id (.running second) e.slots
      obtain ⟨acc', hacc', hsteps⟩ := ih h hrest (accumulator_of_running hrunning) hlater
      rw [List.countP_cons_of_pos (by simp), List.replicate_succ]
      exact ⟨acc', hacc', Accumulator.stepAll_cons_eq_ok.mpr ⟨second, hsecond, hsteps⟩⟩
    · have hkept := Slots.lookup_put_of_ne (Ne.symm hid) (.running second) e.slots
      obtain ⟨acc', hacc', hsteps⟩ := ih h hrest ((accumulator_congr hkept).trans ha) hlater
      rw [List.countP_cons_of_neg (by simpa using hid)]
      exact ⟨acc', hacc', hsteps⟩

theorem aggregate_ok (h : e.aggregate ctx record = (.ok (), e'))
    (hm : call ∈ e.root.outermostAggregates)
    (hc : ∀ c ∈ e.root.outermostAggregates, c.id = call.id → c = call) :
    let steps := e.root.outermostAggregates.countP fun c => c.id = call.id
    ∃ args acc acc', stepArguments (e.environment ctx record) call = .ok args ∧
      e.accumulator call = .ok acc ∧ acc.stepAll (List.replicate steps args) = .ok acc' ∧
      List.lookup call.id e'.slots = some (.running acc') := by
  obtain ⟨acc, hacc⟩ := stepAll_exists_accumulator h hm hc
  obtain ⟨args, hargs⟩ := stepAll_exists_arguments h hm
  obtain ⟨acc', hslot⟩ := stepAll_exists_running h hm
  obtain ⟨acc'', hacc'', hsteps⟩ := stepAll_ok h hc hacc (.of_eq hargs.symm)
  obtain rfl : acc' = acc'' := by simpa [accumulator_of_running hslot] using hacc''
  exact ⟨args, acc, acc', hargs, hacc, hsteps, hslot⟩

theorem after_cons (e : Evaluator) (request : Request) (requests : List Request) :
    e.after (request :: requests) = (e.serve request).2.after requests := rfl

theorem serve_aggregate_snd (e : Evaluator) (ctx : Context) (row : Record) :
    (e.serve (.aggregate ctx row)).2 = (e.aggregate ctx row).2 := rfl

theorem Takes.frame {requests : List Request} (h : e.Takes requests) :
    (e.after requests).root = e.root ∧ (e.after requests).symbols = e.symbols ∧
      e.slots.Grow (e.after requests).slots := by
  induction requests generalizing e with
  | nil => exact ⟨rfl, rfl, .refl _⟩
  | cons request requests ih =>
    cases request with
    | reduce => exact h.elim
    | evaluate ctx row => exact ih h
    | aggregate ctx row =>
      obtain ⟨hok, hrest⟩ := h
      obtain ⟨hroot, hsymbols, hgrow⟩ := stepAll_frame (Prod.ext hok rfl)
      obtain ⟨hroot', hsymbols', hgrow'⟩ := ih hrest
      exact ⟨hroot'.trans hroot, hsymbols'.trans hsymbols, hgrow.trans hgrow'⟩

/-- Every row steps a call as often as it is listed, with the arguments it has for the row when
no call runs yet. -/
theorem Takes.accumulator_ok {requests : List Request} (h : e.Takes requests)
    (hm : call ∈ e.root.outermostAggregates)
    (hc : ∀ c ∈ e.root.outermostAggregates, c.id = call.id → c = call) {acc : Accumulator}
    (ha : e.accumulator call = .ok acc) :
    let steps := e.root.outermostAggregates.countP fun c => c.id = call.id
    ∃ args acc', (rowsOf requests).mapM (fun p => stepArguments (e.environment p.1 p.2) call) = .ok args ∧
      acc.stepAll (args.flatMap (List.replicate steps)) = .ok acc' ∧
      (e.after requests).accumulator call = .ok acc' := by
  intro steps
  induction requests generalizing e acc with
  | nil => exact ⟨[], acc, rfl, rfl, ha⟩
  | cons request requests ih =>
    cases request with
    | reduce => exact h.elim
    | evaluate ctx row => exact ih h hm hc ha
    | aggregate ctx row =>
      obtain ⟨hok, hrest⟩ := h
      have hr : e.aggregate ctx row = (.ok (), (e.aggregate ctx row).2) := Prod.ext hok rfl
      rw [after_cons, serve_aggregate_snd]
      generalize (e.aggregate ctx row).2 = next at hr hrest
      obtain ⟨hroot, hsymbols, hgrow⟩ := stepAll_frame hr
      obtain ⟨args, hargs⟩ := stepAll_exists_arguments hr hm
      obtain ⟨middle, hmiddle, hsteps⟩ := stepAll_ok hr hc ha (.of_eq hargs.symm)
      rw [← hroot] at hm hc
      obtain ⟨later, acc', hlater, hacc', he'⟩ := ih hrest hm hc hmiddle
      have hlater' : (rowsOf requests).mapM (fun p => stepArguments (e.environment p.1 p.2) call) =
          .ok later := by
        refine Extends.mapM (fun p _ => ?_) later hlater
        have henv : next.environment p.1 p.2 = { e.environment p.1 p.2 with slots := next.slots } := by
          rw [environment, environment, hsymbols]
        rw [henv]
        exact stepArguments_extends _ hgrow call
      rw [hroot] at hacc'
      exact ⟨args :: later, acc', Outcome.mapM_cons_eq_ok.mpr ⟨args, later, hargs, hlater', rfl⟩,
        Accumulator.stepAll_append_eq_ok.mpr ⟨_, hsteps, hacc'⟩, he'⟩

theorem takes_of_aggregateAll {rows : List Record} (h : e.aggregateAll ctx rows = .ok e') :
    e.Takes (rows.map (.aggregate ctx)) ∧ e.after (rows.map (.aggregate ctx)) = e' := by
  induction rows generalizing e with
  | nil => exact ⟨trivial, by simpa [aggregateAll, after] using h⟩
  | cons row rows ih =>
    obtain ⟨next, hr, h⟩ := aggregateAll_cons_eq_ok.mp h
    obtain ⟨hrest, hafter⟩ := ih h
    simp only [List.map_cons, Takes, after, List.foldl_cons, serve, hr, true_and]
    exact ⟨hrest, hafter⟩

theorem aggregateAll_ok {rows : List Record} (h : e.aggregateAll ctx rows = .ok e')
    (hm : call ∈ e.root.outermostAggregates)
    (hc : ∀ c ∈ e.root.outermostAggregates, c.id = call.id → c = call) {acc : Accumulator}
    (ha : e.accumulator call = .ok acc) :
    let steps := e.root.outermostAggregates.countP fun c => c.id = call.id
    ∃ args acc', rows.mapM (fun row => stepArguments (e.environment ctx row) call) = .ok args ∧
      acc.stepAll (args.flatMap (List.replicate steps)) = .ok acc' ∧
      e'.accumulator call = .ok acc' ∧ e'.root = e.root := by
  obtain ⟨htakes, rfl⟩ := takes_of_aggregateAll h
  have hrows : rowsOf (rows.map (.aggregate ctx)) = rows.map fun row => (ctx, row) := by
    simp [rowsOf, List.filterMap_map, Function.comp_def, Request.row?]
  obtain ⟨args, acc', hargs, hsteps, hacc'⟩ := htakes.accumulator_ok hm hc ha
  rw [hrows, List.mapM_map] at hargs
  exact ⟨args, acc', hargs, hsteps, hacc', htakes.frame.1⟩

theorem lookup_reduce (hm : call ∈ e.root.outermostAggregates)
    (hc : ∀ c ∈ e.root.outermostAggregates, c.id = call.id → c = call) {acc : Accumulator}
    (ha : e.accumulator call = .ok acc) :
    List.lookup call.id e.reduce.slots = some (.finished acc.finish) := by
  have hslot : List.lookup call.id (e.root.outermostAggregates.foldl Slots.ensure e.slots) =
      some (.running acc) := by
    rw [accumulator] at ha
    cases hl : List.lookup call.id e.slots with
    | none =>
      obtain rfl : Accumulator.start call.function = acc := by simpa [hl] using ha
      exact Slots.lookup_ensureAll_of_none hl hm hc
    | some slot =>
      cases slot with
      | finished result => simp [hl] at ha
      | running acc' =>
        obtain rfl : acc' = acc := by simpa [hl] using ha
        exact Slots.lookup_ensureAll_of_some hl _
  rw [reduce, Slots.lookup_map_reduce, hslot]
  rfl

end Evaluator

theorem length_eq_one_iff_existsUnique {α : Type} {P : α → Prop} {as : List α} (hn : as.Nodup)
    (h : ∀ a, a ∈ as ↔ P a) : as.length = 1 ↔ ∃! a, P a := by
  constructor
  · intro hone
    obtain ⟨a, rfl⟩ := List.length_eq_one_iff.mp hone
    exact ⟨a, (h a).mp (by simp), fun b hb => List.mem_singleton.mp ((h b).mpr hb)⟩
  · rintro ⟨a, ha, hunique⟩
    have hperm : as.Perm [a] := by
      refine (List.perm_ext_iff_of_nodup hn (List.nodup_singleton a)).mpr fun b => ?_
      rw [h, List.mem_singleton]
      exact ⟨hunique b, fun hb => hb ▸ ha⟩
    exact hperm.length_eq

namespace Arena

variable {a : Arena}

theorem CallPath.exists_call {root id : ExprId} {p : Path} (h : a.CallPath root p id) :
    ∃ call, a.call? id = some call ∧ call.id = id := by
  induction h with
  | @here id node hn hc =>
    obtain ⟨name, distinct, args, function, rfl, hf⟩ := Node.exists_of_isCall hc
    exact ⟨⟨id, name, function, distinct, args.map a.tree⟩, by simp [call?, hn, hf], rfl⟩
  | through hn hc hi hp ih => exact ih

theorem Descends.mem_outermostAggregates_iff {root : ExprId} (hr : a.Descends root)
    {call : AggregateCall} :
    call ∈ (a.tree root).outermostAggregates ↔
      ∃ p, a.CallPath root p call.id ∧ a.call? call.id = some call := by
  rw [← Expr.map_snd_places, List.mem_map]
  constructor
  · rintro ⟨⟨p, c⟩, hp, rfl⟩
    exact ⟨p, hr.mem_places_iff.mp hp⟩
  · rintro ⟨p, hp⟩
    exact ⟨(p, call), hr.mem_places_iff.mpr hp, rfl⟩

/-- The paths to a call, as many as the tree lists it. -/
theorem Descends.exists_paths {root : ExprId} (hr : a.Descends root) {call : AggregateCall}
    (hcall : a.call? call.id = some call) :
    ∃ paths : List Path, paths.Nodup ∧ (∀ p, p ∈ paths ↔ a.CallPath root p call.id) ∧
      paths.length = (a.tree root).outermostAggregates.countP fun c => c.id = call.id := by
  refine ⟨((a.tree root).places.filter fun q => q.2.id = call.id).map Prod.fst, ?_, fun p => ?_, ?_⟩
  · exact (Expr.nodup_places _).sublist (List.filter_sublist.map _)
  · simp only [List.mem_map, List.mem_filter, decide_eq_true_eq]
    constructor
    · rintro ⟨⟨q, c⟩, ⟨hq, hid⟩, rfl⟩
      exact hid ▸ (hr.mem_places_iff.mp hq).1
    · intro hp
      exact ⟨(p, call), ⟨hr.mem_places_iff.mpr ⟨hp, hcall⟩, rfl⟩, rfl⟩
  · rw [← Expr.map_snd_places, List.countP_map, List.length_map, List.countP_eq_length_filter]
    rfl

end Arena

/-- A row steps an outermost call exactly as often as there are paths to it from the root, so once
only where the path is unique. The result of the call over rows is that of a fresh accumulator which
took the arguments of each row that many times. -/
theorem aggregate_steps_once_per_path {a : Arena} {root id : ExprId} {p : Path}
    (hr : a.Descends root) (hp : a.CallPath root p id) :
    ∃ (call : AggregateCall) (paths : List Path), a.call? id = some call ∧ paths.Nodup ∧
      (∀ q, q ∈ paths ↔ a.CallPath root q id) ∧
      (paths.length = 1 ↔ ∃! q, a.CallPath root q id) ∧
      (∀ (e e' : Evaluator) (ctx : Context) (record : Record), e.root = a.tree root →
        e.aggregate ctx record = (.ok (), e') →
        ∃ args acc acc', Evaluator.stepArguments (e.environment ctx record) call = .ok args ∧
          e.accumulator call = .ok acc ∧
          acc.stepAll (List.replicate paths.length args) = .ok acc' ∧
          List.lookup id e'.slots = some (.running acc')) ∧
      ∀ (symbols : SymbolTable) (ctx : Context) (rows : List Record) (e : Evaluator),
        (Evaluator.ofExpr symbols (a.tree root)).aggregateAll ctx rows = .ok e →
        ∃ args acc,
          rows.mapM (fun row => Evaluator.stepArguments ⟨symbols, ctx, row, []⟩ call) = .ok args ∧
          (Accumulator.start call.function).stepAll (args.flatMap (List.replicate paths.length)) =
            .ok acc ∧
          List.lookup id e.reduce.slots = some (.finished acc.finish) := by
  obtain ⟨call, hcall, rfl⟩ := hp.exists_call
  obtain ⟨paths, hnodup, hpaths, hlength⟩ := hr.exists_paths hcall
  have hm : call ∈ (a.tree root).outermostAggregates :=
    hr.mem_outermostAggregates_iff.mpr ⟨p, hp, hcall⟩
  have hc : ∀ c ∈ (a.tree root).outermostAggregates, c.id = call.id → c = call := by
    intro c hc hid
    obtain ⟨q, -, hc⟩ := hr.mem_outermostAggregates_iff.mp hc
    rw [hid, hcall] at hc
    exact (Option.some.inj hc).symm
  refine ⟨call, paths, hcall, hnodup, hpaths, length_eq_one_iff_existsUnique hnodup hpaths, ?_, ?_⟩
  · intro e e' ctx record hroot h
    rw [← hroot] at hm hc hlength
    rw [hlength]
    exact Evaluator.aggregate_ok h hm hc
  · intro symbols ctx rows e h
    have hstart : (Evaluator.ofExpr symbols (a.tree root)).accumulator call =
        .ok (.start call.function) := rfl
    obtain ⟨args, acc, hargs, hsteps, hacc, hroot⟩ := Evaluator.aggregateAll_ok h hm hc hstart
    rw [hlength]
    refine ⟨args, acc, hargs, hsteps, Evaluator.lookup_reduce ?_ ?_ hacc⟩
    · rwa [hroot]
    · rwa [hroot]

theorem Arena.descends_of_lt {a : Arena} (h : ∀ c id, a.Child c id → c < id) (root : ExprId) :
    a.Descends root := by
  induction root using Nat.strongRecOn with
  | _ id ih => exact ⟨id, fun c hc => ih c (h c id hc)⟩

theorem Arena.descends_of_children_lt {a : Arena}
    (h : ∀ id : Fin a.nodes.size, ∀ c ∈ (a.nodes[id]).children, c < id.val) (root : ExprId) :
    a.Descends root := by
  refine descends_of_lt (fun c id hc => ?_) root
  obtain ⟨node, hn, hc⟩ := hc
  obtain ⟨hid, rfl⟩ := Array.getElem?_eq_some_iff.mp hn
  exact h ⟨id, hid⟩ c hc

def sharedCount : Arena := ⟨#[.aggregate "count" false [], .binary (.arithmetic .add) 0 0]⟩

theorem sharedCount_paths :
    ∃ (call : AggregateCall) (paths : List Path) (e : Evaluator) (args : List (List Entry))
      (acc : Accumulator), sharedCount.call? 0 = some call ∧ paths.Nodup ∧
      (∀ q, q ∈ paths ↔ sharedCount.CallPath 1 q 0) ∧
      (Evaluator.ofExpr .empty (sharedCount.tree 1)).aggregateAll (.ofGraph .empty) [.empty] = .ok e ∧
      (Accumulator.start call.function).stepAll (args.flatMap (List.replicate paths.length)) = .ok acc ∧
      List.lookup 0 e.reduce.slots = some (.finished acc.finish) := by
  have hlt : ∀ c id, sharedCount.Child c id → c < id := by
    rintro c (_ | _ | id) ⟨node, hn, hc⟩
    · obtain rfl : Node.aggregate "count" false [] = node := Option.some.inj hn
      simp [Node.children] at hc
    · obtain rfl : Node.binary (.arithmetic .add) 0 0 = node := Option.some.inj hn
      obtain rfl : c = 0 := by simpa [Node.children] using hc
      exact Nat.one_pos
    · simp [sharedCount, Arena.get?] at hn
  have hp : sharedCount.CallPath 1 [0] 0 := .through rfl rfl rfl (.here rfl rfl)
  obtain ⟨call, paths, hcall, hnodup, hpaths, -, -, hrows⟩ :=
    aggregate_steps_once_per_path (Arena.descends_of_lt hlt 1) hp
  obtain ⟨e, he⟩ : ∃ e, (Evaluator.ofExpr .empty (sharedCount.tree 1)).aggregateAll (.ofGraph .empty)
      [.empty] = .ok e := ⟨_, rfl⟩
  obtain ⟨args, acc, -, hacc, hslot⟩ := hrows .empty (.ofGraph .empty) [.empty] e he
  exact ⟨call, paths, e, args, acc, hcall, hnodup, hpaths, he, hacc, hslot⟩

/-- A row is counted twice, once for each place of the count. -/
theorem sharedCount_counts_twice :
    ∃ call fed args acc, sharedCount.call? 0 = some call ∧
      (Evaluator.ofExpr .empty (sharedCount.tree 1)).aggregateAll (.ofGraph .empty) [.empty] = .ok fed ∧
      Evaluator.stepArguments ⟨.empty, .ofGraph .empty, .empty, []⟩ call = .ok args ∧
      (Accumulator.start call.function).stepAll [args] = .ok acc ∧
      List.lookup 0 fed.reduce.slots ≠ some (.finished acc.finish) := by
  refine ⟨_, _, _, _, rfl, rfl, rfl, rfl, fun h => ?_⟩
  cases h

end GraphQuery
