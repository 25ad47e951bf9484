import GraphQuery.Proofs.Delivery

/-! Plans that are used again. Whatever was asked of a plan before, once it is prepared or set back to
its first row it delivers what a new one does. -/

namespace GraphQuery

section Loops

variable {σ τ : Type} {pull : σ → Outcome Pulled × σ} {P : σ → Prop}

theorem pullUntil_keeps (hp : ∀ s, P s → P (pull s).2) (accepts : σ → Outcome Bool) (fuel : Nat) {s : σ}
    (hs : P s) : P (pullUntil pull accepts fuel s).2 := by
  induction fuel generalizing s with
  | zero => exact hs
  | succ fuel ih =>
    have hnext := hp s hs
    rw [pullUntil]
    split
    · rename_i t ht
      rw [ht] at hnext
      split
      · exact hnext
      · exact ih hnext
      · exact hnext
    · exact hnext

theorem drain_keeps (hp : ∀ s, P s → P (pull s).2) (take : σ → τ → Outcome Unit × τ) (fuel : Nat) {s : σ}
    (hs : P s) (t : τ) : P (drain pull take fuel s t).2.2 := by
  induction fuel generalizing s t with
  | zero => exact hs
  | succ fuel ih =>
    have hnext := hp s hs
    rw [drain]
    split
    · rename_i s' hs'
      rw [hs'] at hnext
      split
      · exact ih hnext _
      · exact hnext
    · rename_i s' hs'
      rwa [hs'] at hnext
    · rename_i s' hs'
      rwa [hs'] at hnext

end Loops

/-- Columns written inside a row change neither its width nor its mark, also when one of them fails. -/
theorem writeColumns_shape (ctx : Context) (input : Record) {items : List Evaluator} {column : Nat}
    {row : Record} (h : column + items.length ≤ row.width) :
    (writeColumns ctx input column items row).2.width = row.width ∧
      (writeColumns ctx input column items row).2.nullMarker = row.nullMarker := by
  induction items generalizing column row with
  | nil => exact ⟨rfl, rfl⟩
  | cons e items ih =>
    rw [List.length_cons] at h
    rw [writeColumns]
    cases he : e.evaluate ctx input with
    | error fault => exact ⟨rfl, rfl⟩
    | ok entry =>
      have hset := Record.set_of_lt (show column < row.width by omega) entry
      have hw : (row.set column entry).width = row.width := by simp [hset, Record.width]
      have hm : (row.set column entry).nullMarker = row.nullMarker := by rw [hset]
      obtain ⟨hwidth, hmark⟩ := @ih (column + 1) (row.set column entry) (by omega)
      exact ⟨hwidth.trans hw, hmark.trans hm⟩

namespace Plan

inductive Request where
  | prepare
  | pull (ctx : Context)
  | reset (complete : Bool)

namespace Request

/-- Requests after which aggregations are ready. -/
def prepares : Request → Bool
  | prepare => true
  | pull _ => false
  | reset complete => !complete

end Request

def serve (plan : Plan) (c : Cursor plan) : Request → Cursor plan
  | .prepare => plan.prepare c
  | .pull ctx => (plan.pull ctx c).2
  | .reset complete => plan.reset complete c

/-- The cursor after requests, whether they were answered with a row or with an error. -/
def after (plan : Plan) (c : Cursor plan) (history : List Request) : Cursor plan :=
  history.foldl plan.serve c

/-- Rows of projections have their width and are not marked, and of an aggregation that is still to
drain no group is delivered. -/
def Sound : (plan : Plan) → Cursor plan → Prop
  | values _, _ => True
  | filter _ child, c => child.Sound c
  | project items child, (record, c) =>
    record.width = items.length ∧ record.nullMarker = false ∧ child.Sound c
  | aggregate _ child, (s, c) => (s.phase = .prepared → s.delivered = 0) ∧ child.Sound c

theorem sound_start (plan : Plan) : plan.Sound plan.start := by
  induction plan with
  | values rows => exact trivial
  | filter predicate child ih => exact ih
  | project items child ih => exact ⟨by simp [Record.new, Record.width], rfl, ih⟩
  | aggregate grouping child ih => exact ⟨fun hp => (by cases hp), ih⟩

theorem sound_prepare (plan : Plan) (c : Cursor plan) : plan.Sound (plan.prepare c) := by
  induction plan with
  | values rows => exact trivial
  | filter predicate child ih => exact ih c
  | project items child ih => exact ⟨by simp [Record.new, Record.width], rfl, ih c.2⟩
  | aggregate grouping child ih => exact ⟨fun _ => rfl, ih c.2⟩

theorem Sound.reset {plan : Plan} {c : Cursor plan} (h : plan.Sound c) (complete : Bool) :
    plan.Sound (plan.reset complete c) := by
  induction plan with
  | values rows => exact trivial
  | filter predicate child ih => exact ih h
  | project items child ih =>
    obtain ⟨hw, hm, hc⟩ := h
    exact ⟨hw, hm, ih hc⟩
  | aggregate grouping child ih => exact ⟨fun _ => rfl, ih h.2⟩

theorem deliver_not_prepared {s : GroupingState} (h : s.phase = .delivering) (grouping : Grouping)
    (ctx : Context) : (s.deliver grouping ctx).2.phase ≠ .prepared := by
  cases hg : s.groups[s.delivered]? with
  | none => simp [GroupingState.deliver_of_none hg]
  | some g =>
    cases ho : grouping.outputRow ctx g with
    | ok row => simp [GroupingState.deliver_of_ok hg ho, h]
    | error fault => simp [GroupingState.deliver_of_error hg ho, h]

theorem Sound.pull {plan : Plan} {c : Cursor plan} (h : plan.Sound c) (ctx : Context) :
    plan.Sound (plan.pull ctx c).2 := by
  induction plan with
  | values rows => exact trivial
  | filter predicate child ih => exact pullUntil_keeps (fun s hs => ih hs) _ _ h
  | project items child ih =>
    obtain ⟨record, c⟩ := c
    obtain ⟨hw, hm, hc⟩ := h
    have hnext := ih hc
    rw [Plan.pull]
    cases hp : child.pull ctx c with
    | mk answer d =>
      rw [hp] at hnext
      rcases answer with fault | ⟨_ | _⟩
      · exact ⟨hw, hm, hnext⟩
      · have hfits : 0 + items.length ≤ record.width := by omega
        have hshape := writeColumns_shape ctx (child.record d) hfits
        exact ⟨hshape.1.trans hw, hshape.2.trans hm, hnext⟩
      · exact ⟨hw, hm, hnext⟩
  | aggregate grouping child ih =>
    obtain ⟨s, c⟩ := c
    obtain ⟨hs, hc⟩ := h
    rw [Plan.pull]
    cases hp : s.phase with
    | unprepared => exact ⟨hs, hc⟩
    | depleted => exact ⟨hs, hc⟩
    | delivering => exact ⟨fun ht => absurd ht (deliver_not_prepared hp grouping ctx), hc⟩
    | prepared =>
      have hd := drain_keeps (fun s hs => ih hs) (fun c => grouping.addRow ctx (child.record c))
        (child.remaining c + 1) hc s.groups
      dsimp only
      generalize drain (child.pull ctx) _ (child.remaining c + 1) c s.groups = below at hd ⊢
      obtain ⟨result, groups, d⟩ := below
      cases result with
      -- the groups may be half fed here, but none of them was delivered
      | error fault => exact ⟨hs, hd⟩
      | ok => exact ⟨fun ht => absurd ht (deliver_not_prepared rfl grouping ctx), hd⟩

theorem Sound.after {plan : Plan} {c : Cursor plan} (h : plan.Sound c) (history : List Request) :
    plan.Sound (plan.after c history) := by
  induction history generalizing c with
  | nil => exact h
  | cons request history ih =>
    refine ih ?_
    cases request with
    | prepare => exact plan.sound_prepare c
    | pull ctx => exact h.pull ctx
    | reset complete => exact h.reset complete

theorem Sound.delivers_reset {plan : Plan} {c : Cursor plan} (h : plan.Sound c) (ctx : Context) :
    Delivers (plan.pull ctx) plan.record (plan.reset false c) (plan.delivery ctx) := by
  induction plan with
  | values rows => exact values_delivers ctx rows 0
  | filter predicate child ih =>
    exact (ih h).filter (child.pull_progresses ctx) fun row =>
      (predicate.evaluate ctx row).map Entry.isTrue
  | project items child ih =>
    obtain ⟨hw, hm, hc⟩ := h
    exact (ih hc).project hw hm
  | aggregate grouping child ih => exact aggregate_delivers ctx grouping child rfl rfl rfl (ih h.2)

end Plan

/-- The answers to pulls: the rows, then their end or the failure that ended them. -/
def Delivery.answers (d : Delivery) : List (Outcome (Option Record)) :=
  d.rows.map (fun row => .ok (some row)) ++
    [match d.failure with
    | some fault => .error fault
    | none => .ok none]

namespace Plan

theorem pullAllWithin_eq {ctx : Context} {plan : Plan} {c : Cursor plan} {d : Delivery}
    (h : Delivers (plan.pull ctx) plan.record c d) {fuel : Nat} (hf : plan.remaining c < fuel) :
    (plan.pullAllWithin ctx fuel c).1 = d.answers := by
  induction h generalizing fuel with
  | depleted hs =>
    obtain ⟨fuel, rfl⟩ := Nat.exists_eq_add_one_of_ne_zero (Nat.ne_zero_of_lt hf)
    simp only [pullAllWithin, hs]
    rfl
  | failed hs =>
    obtain ⟨fuel, rfl⟩ := Nat.exists_eq_add_one_of_ne_zero (Nat.ne_zero_of_lt hf)
    simp only [pullAllWithin, hs]
    rfl
  | @row s t d hs hd ih =>
    obtain ⟨fuel, rfl⟩ := Nat.exists_eq_add_one_of_ne_zero (Nat.ne_zero_of_lt hf)
    have hlt : plan.remaining t < plan.remaining s := by
      simpa [hs] using (plan.pull_progresses ctx s).2
    simp only [pullAllWithin, hs, ih (show plan.remaining t < fuel by omega)]
    rfl

theorem pullAll_eq {ctx : Context} {plan : Plan} {c : Cursor plan} {d : Delivery}
    (h : Delivers (plan.pull ctx) plan.record c d) : (plan.pullAll ctx c).1 = d.answers :=
  pullAllWithin_eq h (Nat.lt_succ_self _)

def aggregates : Plan → Bool
  | values _ => false
  | filter _ child | project _ child => child.aggregates
  | aggregate _ _ => true

/-- The outermost aggregation, if there is one, is not ready. -/
def Unprepared : (plan : Plan) → Cursor plan → Prop
  | values _, _ => True
  | filter _ child, c => child.Unprepared c
  | project _ child, (_, c) => child.Unprepared c
  | aggregate _ _, (s, _) => s.phase = .unprepared

theorem unprepared_start (plan : Plan) : plan.Unprepared plan.start := by
  induction plan with
  | values rows => exact trivial
  | filter predicate child ih => exact ih
  | project items child ih => exact ih
  | aggregate grouping child ih => rfl

theorem unprepared_reset (plan : Plan) (c : Cursor plan) : plan.Unprepared (plan.reset true c) := by
  induction plan with
  | values rows => exact trivial
  | filter predicate child ih => exact ih c
  | project items child ih => exact ih c.2
  | aggregate grouping child ih => rfl

/-- A plan whose aggregation is not ready refuses to be pulled and stays where it is. -/
theorem Unprepared.pull_eq {plan : Plan} {c : Cursor plan} (h : plan.Unprepared c)
    (ha : plan.aggregates = true) (ctx : Context) : plan.pull ctx c = (.error notPrepared, c) := by
  induction plan with
  | values rows => cases ha
  | filter predicate child ih => simp only [pull, pullUntil, ih h ha]
  | project items child ih =>
    obtain ⟨record, c⟩ := c
    simp only [pull, ih h ha]
    rfl
  | aggregate grouping child ih =>
    obtain ⟨s, c⟩ := c
    have hs : s.phase = .unprepared := h
    simp only [pull, hs]

theorem Unprepared.after {plan : Plan} {c : Cursor plan} (h : plan.Unprepared c)
    (ha : plan.aggregates = true) {later : List Request} (hl : ∀ r ∈ later, r.prepares = false) :
    plan.Unprepared (plan.after c later) := by
  induction later generalizing c with
  | nil => exact h
  | cons request later ih =>
    refine ih ?_ fun r hr => hl r (List.mem_cons_of_mem request hr)
    have hrequest := hl request (by simp)
    cases request with
    | prepare => cases hrequest
    | pull ctx =>
      rw [serve, h.pull_eq ha ctx]
      exact h
    | reset complete =>
      cases complete with
      | true => exact plan.unprepared_reset c
      | false => cases hrequest

/-- A used plan that is prepared or set back gives the answers of a new one. A new plan, and one
that was reset completely, refuses every pull until its aggregations are ready again. -/
theorem replays_as_new (plan : Plan) (history : List Request) (ctx : Context) :
    let new := plan.prepare plan.start
    let used := plan.after plan.start history
    (∀ c ∈ [new, plan.prepare used, plan.reset false used],
      Delivers (plan.pull ctx) plan.record c (plan.delivery ctx) ∧
        (plan.pullAll ctx c).1 = (plan.pullAll ctx new).1) ∧
      (plan.aggregates = true → ∀ c ∈ [plan.start, plan.reset true used], ∀ later : List Request,
        (∀ r ∈ later, r.prepares = false) →
          plan.pull ctx (plan.after c later) = (.error notPrepared, plan.after c later)) := by
  intro new used
  have hsound : plan.Sound used := plan.sound_start.after history
  have hnew : Delivers (plan.pull ctx) plan.record new (plan.delivery ctx) :=
    delivers_delivery ctx plan plan.start
  constructor
  · intro c hc
    have hd : Delivers (plan.pull ctx) plan.record c (plan.delivery ctx) := by
      simp only [List.mem_cons, List.not_mem_nil, or_false] at hc
      rcases hc with rfl | rfl | rfl
      · exact hnew
      · exact delivers_delivery ctx plan used
      · exact hsound.delivers_reset ctx
    exact ⟨hd, (pullAll_eq hd).trans (pullAll_eq hnew).symm⟩
  · intro ha c hc later hl
    have hc : plan.Unprepared c := by
      simp only [List.mem_cons, List.not_mem_nil, or_false] at hc
      rcases hc with rfl | rfl
      · exact plan.unprepared_start
      · exact plan.unprepared_reset used
    exact (hc.after ha hl).pull_eq ha ctx

/-- A count over two rows that refused a pull, was half drained and then reset. -/
theorem count_replays :
    let grouping : Grouping :=
      ⟨.empty, .default, ["n"], [], [(0, .ofExpr .empty (.node 0 (.aggregate "count" false [])))]⟩
    let plan := aggregate grouping (values [Record.empty, Record.empty])
    let ctx := Context.ofGraph .empty
    let used := plan.after plan.start [.pull ctx, .prepare, .pull ctx, .reset true]
    let idle := plan.after (plan.reset true used) [.pull ctx]
    (plan.pullAll ctx (plan.reset false used)).1 =
        [.ok (some (Record.ofEntries [.constant (.int 2)])), .ok none] ∧
      plan.pull ctx idle = (.error notPrepared, idle) := by
  intro grouping plan ctx used idle
  obtain ⟨hdelivers, hrefuses⟩ := replays_as_new plan [.pull ctx, .prepare, .pull ctx, .reset true] ctx
  constructor
  · have hreset := (hdelivers (plan.reset false used) (by simp [used])).2
    exact hreset.trans rfl
  · exact hrefuses rfl (plan.reset true used) (by simp [used]) [.pull ctx] (by simp [Request.prepares])

end Plan

end GraphQuery
