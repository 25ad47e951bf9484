import GraphQuery.Proofs.Outcome
import GraphQuery.Proofs.UnboundedPull

/-! Plans as functions of lists. Pulling row by row delivers the list of a plan, up to the failure
that ends it. -/

namespace GraphQuery

/-- Rows in order, and the failure that ended them unless they ran out. -/
structure Delivery where
  rows : List Record
  failure : Option Error

namespace Delivery

/-- The rows made of items, up to the first item that fails. Items of which nothing is made are
left out. -/
def collect {α : Type} (make : α → Outcome (Option Record)) (failure : Option Error) :
    List α → Delivery
  | [] => ⟨[], failure⟩
  | a :: rest =>
    match make a with
    | .error fault => ⟨[], some fault⟩
    | .ok none => collect make failure rest
    | .ok (some row) =>
      let d := collect make failure rest
      ⟨row :: d.rows, d.failure⟩

def filter (accepts : Record → Outcome Bool) (d : Delivery) : Delivery :=
  collect (fun row => (accepts row).map fun accepted => if accepted then some row else none)
    d.failure d.rows

def map (make : Record → Outcome Record) (d : Delivery) : Delivery :=
  collect (fun row => (make row).map some) d.failure d.rows

end Delivery

namespace Grouping

/-- The groups when rows are added in order. The first row that fails, or else the failure that
ended the rows, is the result. -/
def addRows (s : Grouping) (ctx : Context) (failure : Option Error) (groups : List Group) :
    List Record → Outcome (List Group)
  | [] =>
    match failure with
    | some fault => .error fault
    | none => .ok groups
  | row :: rest =>
    match s.addRow ctx row groups with
    | (.ok _, groups) => s.addRows ctx failure groups rest
    | (.error fault, _) => .error fault

def gather (s : Grouping) (ctx : Context) (d : Delivery) : Outcome (List Group) :=
  (s.addRows ctx d.failure [] d.rows).map s.complete

def outputs (s : Grouping) (ctx : Context) (groups : List Group) : Delivery :=
  .collect (fun g => (s.outputRow ctx g).map some) none groups

/-- What is delivered when rows are added to groups made before. -/
def deliveryOnto (s : Grouping) (ctx : Context) (groups : List Group) (d : Delivery) : Delivery :=
  match (s.addRows ctx d.failure groups d.rows).map s.complete with
  | .error fault => ⟨[], some fault⟩
  | .ok groups => s.outputs ctx groups

end Grouping

def Plan.delivery (ctx : Context) : Plan → Delivery
  | values rows => ⟨rows, none⟩
  | filter predicate child =>
    (child.delivery ctx).filter fun row => (predicate.evaluate ctx row).map Entry.isTrue
  | project items child =>
    (child.delivery ctx).map fun row =>
      (items.mapM fun e : Evaluator => e.evaluate ctx row).map Record.ofEntries
  | aggregate grouping child =>
    match grouping.gather ctx (child.delivery ctx) with
    | .error fault => ⟨[], some fault⟩
    | .ok groups => grouping.outputs ctx groups

/-- Pulls from a state, one after the other up to the first answer that is no row, give a
delivery. -/
inductive Delivers {σ : Type} (pull : σ → Outcome Pulled × σ) (look : σ → Record) :
    σ → Delivery → Prop where
  | depleted {s t : σ} (hs : pull s = (.ok .depleted, t)) : Delivers pull look s ⟨[], none⟩
  | failed {s t : σ} {fault : Error} (hs : pull s = (.error fault, t)) :
    Delivers pull look s ⟨[], some fault⟩
  | row {s t : σ} {d : Delivery} (hs : pull s = (.ok .row, t)) (hd : Delivers pull look t d) :
    Delivers pull look s ⟨look t :: d.rows, d.failure⟩

section Operators

variable {σ : Type} {pull : σ → Outcome Pulled × σ} {measure : σ → Nat} {look : σ → Record}

theorem exists_delivers (hp : Progresses pull measure) (look : σ → Record) (s : σ) :
    ∃ d, Delivers pull look s d := by
  induction hm : measure s using Nat.strongRecOn generalizing s with
  | _ m ih =>
    cases hs : pull s with
    | mk answer t =>
      cases answer with
      | error fault => exact ⟨_, .failed hs⟩
      | ok pulled =>
        cases pulled with
        | depleted => exact ⟨_, .depleted hs⟩
        | row =>
          have hlt : measure t < m := by simpa [hs, hm] using (hp s).2
          obtain ⟨d, hd⟩ := ih (measure t) hlt t rfl
          exact ⟨_, .row hs hd⟩

theorem Delivers.unique {s : σ} {d e : Delivery} (hd : Delivers pull look s d)
    (he : Delivers pull look s e) : d = e := by
  induction hd generalizing e with
  | depleted hs => cases he <;> simp_all
  | failed hs => cases he <;> simp_all
  | row hs hd ih =>
    cases he with
    | depleted hs' => simp [hs] at hs'
    | failed hs' => simp [hs] at hs'
    | row hs' he =>
      obtain ⟨-, rfl⟩ := Prod.mk.inj (hs.symm.trans hs')
      rw [ih he]

theorem Delivers.of_pull_eq {s t : σ} {d : Delivery} (h : Delivers pull look t d)
    (hst : pull s = pull t) : Delivers pull look s d := by
  cases h with
  | depleted hs => exact .depleted (hst.trans hs)
  | failed hs => exact .failed (hst.trans hs)
  | row hs hd => exact .row (hst.trans hs) hd

theorem Delivers.filter {s : σ} {d : Delivery} (h : Delivers pull look s d)
    (hp : Progresses pull measure) (accepts : Record → Outcome Bool) :
    Delivers (fun s => pullUntil pull (fun s => accepts (look s)) (measure s + 1) s) look s
      (d.filter accepts) := by
  induction h with
  | depleted hs => exact .depleted ((pullsUntil_iff hp _ _ _).mp (.stopped hs nofun))
  | failed hs => exact .failed ((pullsUntil_iff hp _ _ _).mp (.stopped hs nofun))
  | @row s t d hs hd ih =>
    simp only [Delivery.filter, Delivery.collect]
    cases ha : accepts (look t) with
    | error fault => exact .failed ((pullsUntil_iff hp _ _ _).mp (.failed hs ha))
    | ok accepted =>
      cases accepted with
      | true => exact .row ((pullsUntil_iff hp _ _ _).mp (.accepted hs ha)) ih
      | false =>
        have hrest := pullsUntil_pullUntil hp (fun s => accepts (look s)) (Nat.lt_succ_self (measure t))
        exact ih.of_pull_eq ((pullsUntil_iff hp _ _ _).mp (.skipped hs ha hrest))

theorem Record.set_of_lt {r : Record} {column : Nat} (h : column < r.width) (entry : Entry) :
    r.set column entry = { r with entries := r.entries.set column entry } := by
  have hz : column + 1 - r.entries.length = 0 := by
    rw [width] at h
    omega
  simp [set, hz]

theorem writeColumns_ok {ctx : Context} {input : Record} {items : List Evaluator}
    {entries : List Entry} (he : (items.mapM fun e => e.evaluate ctx input) = .ok entries)
    {column : Nat} {row : Record} (hw : row.width = column + items.length) :
    writeColumns ctx input column items row =
      (.ok (), ⟨row.entries.take column ++ entries, row.nullMarker⟩) := by
  induction items generalizing column row entries with
  | nil =>
    obtain rfl := Outcome.mapM_nil_eq_ok.mp he
    have ht : row.entries.take column = row.entries := List.take_of_length_le (Nat.le_of_eq hw)
    simp [writeColumns, ht]
  | cons e items ih =>
    obtain ⟨entry, rest, hv, hr, rfl⟩ := Outcome.mapM_cons_eq_ok.mp he
    simp only [List.length_cons] at hw
    have hlt : column < row.entries.length := by
      rw [Record.width] at hw
      omega
    have hset := Record.set_of_lt hlt entry
    have hw' : (row.set column entry).width = column + 1 + items.length := by
      simp only [Record.width, hset, List.length_set] at hw ⊢
      omega
    have hlt' : column < (row.entries.set column entry).length := by simpa using hlt
    rw [writeColumns, hv]
    dsimp only
    rw [ih hr hw', hset]
    simp [List.take_succ_eq_append_getElem hlt', List.take_set_of_le]

theorem writeColumns_error {ctx : Context} {input : Record} {items : List Evaluator}
    {fault : Error} (he : (items.mapM fun e => e.evaluate ctx input) = .error fault) (column : Nat)
    (row : Record) : (writeColumns ctx input column items row).1 = .error fault := by
  induction items generalizing column row with
  | nil => simp [pure, Except.pure] at he
  | cons e items ih =>
    rcases Outcome.mapM_cons_eq_error.mp he with hv | ⟨entry, hv, hr⟩
    · simp [writeColumns, hv]
    · simpa [writeColumns, hv] using ih hr (column + 1) (row.set column entry)

/-- A projection keeps a row of its own. Its width never changes, and it is never marked. -/
theorem Delivers.project {ctx : Context} {items : List Evaluator} {s : σ} {d : Delivery}
    (h : Delivers pull look s d) {record : Record} (hw : record.width = items.length)
    (hm : record.nullMarker = false) :
    Delivers (fun p : Record × σ => projectAnswer ctx items look p.1 (pull p.2)) Prod.fst (record, s)
      (d.map fun row => (items.mapM fun e : Evaluator => e.evaluate ctx row).map Record.ofEntries) := by
  induction h generalizing record with
  | depleted hs => exact .depleted (by simp only [hs]; rfl)
  | failed hs => exact .failed (by simp only [hs]; rfl)
  | @row s t d hs hd ih =>
    simp only [Delivery.map, Delivery.collect]
    cases he : items.mapM fun e : Evaluator => e.evaluate ctx (look t) with
    | error fault =>
      have hwrite := writeColumns_error he 0 record
      exact .failed (t := (_, t)) (by simp only [hs, projectAnswer, hwrite]; rfl)
    | ok entries =>
      have hwrite := writeColumns_ok he (hw.trans (Nat.zero_add _).symm)
      have hlength : (Record.ofEntries entries).width = items.length := Outcome.length_of_mapM he
      have hrow : (fun p : Record × σ => projectAnswer ctx items look p.1 (pull p.2)) (record, s) =
          (.ok .row, Record.ofEntries entries, t) := by
        simp only [hs, projectAnswer, hwrite, hm]
        rfl
      exact .row hrow (ih hlength rfl)

/-- A drain adds the rows below, and fails as adding them does. -/
theorem Delivers.drains {s : σ} {d : Delivery} (h : Delivers pull look s d) (ctx : Context)
    (grouping : Grouping) (groups : List Group) :
    ∃ r, Drains (fun s r => pull s = r) (fun s => grouping.addRow ctx (look s)) s groups r ∧
      (r.1.map fun _ => r.2.1) = grouping.addRows ctx d.failure groups d.rows := by
  induction h generalizing groups with
  | depleted hs => exact ⟨_, .depleted hs, rfl⟩
  | failed hs => exact ⟨_, .broken hs, rfl⟩
  | @row s t d hs hd ih =>
    cases ht : grouping.addRow ctx (look t) groups with
    | mk result groups' =>
      cases result with
      | error fault => exact ⟨_, .failed hs ht, by simp [Grouping.addRows, ht, Except.map]⟩
      | ok =>
        obtain ⟨r, hr, he⟩ := ih groups'
        exact ⟨r, .taken hs ht hr, by simp [Grouping.addRows, ht, he]⟩

end Operators

namespace Plan

theorem values_delivers (ctx : Context) (rows : List Record) (c : Nat) :
    Delivers ((values rows).pull ctx) (values rows).record c ⟨rows.drop c, none⟩ := by
  induction hm : rows.length - c generalizing c with
  | zero =>
    have hc : ¬ c < rows.length := by omega
    rw [List.drop_of_length_le (by omega)]
    exact .depleted (t := c) (by simp [pull, hc])
  | succ m ih =>
    have hc : c < rows.length := by omega
    have hrest := ih (c + 1) (by omega)
    have hlook : (values rows).record (c + 1 : Nat) = rows[c] := by
      simp [record, hc]
    rw [List.drop_eq_getElem_cons hc, ← hlook]
    exact .row (by simp [pull, hc]) hrest

theorem exists_deliver_of_ok {ctx : Context} {grouping : Grouping} {s : GroupingState} {g : Group}
    {rest : List Group} {row : Record} (hl : s.groups.drop s.delivered = g :: rest)
    (ho : grouping.outputRow ctx g = .ok row) :
    ∃ t, s.deliver grouping ctx = (.ok .row, t) ∧ t.phase = s.phase ∧ t.record = row ∧
      t.groups.drop t.delivered = rest := by
  have hg : s.groups[s.delivered]? = some g := by rw [← List.head?_drop, hl, List.head?_cons]
  refine ⟨_, GroupingState.deliver_of_ok hg ho, rfl, rfl, ?_⟩
  -- the group that was reduced is behind those left
  have := congrArg List.tail hl
  simpa [List.drop_set_of_lt] using this

/-- An aggregation that is past its rows delivers the groups that are left. -/
theorem groups_delivers (ctx : Context) (grouping : Grouping) (child : Plan) {s : GroupingState}
    (hp : s.phase = .delivering) (c : Cursor child) :
    Delivers ((aggregate grouping child).pull ctx) (aggregate grouping child).record (s, c)
      (grouping.outputs ctx (s.groups.drop s.delivered)) := by
  induction hl : s.groups.drop s.delivered generalizing s with
  | nil =>
    have hg : s.groups[s.delivered]? = none := by simpa using hl
    exact .depleted (by simp only [pull, hp, GroupingState.deliver_of_none hg]; rfl)
  | cons g rest ih =>
    simp only [Grouping.outputs, Delivery.collect]
    cases ho : grouping.outputRow ctx g with
    | error fault =>
      have hg : s.groups[s.delivered]? = some g := by rw [← List.head?_drop, hl, List.head?_cons]
      exact .failed (by simp only [pull, hp, GroupingState.deliver_of_error hg ho]; rfl)
    | ok row =>
      obtain ⟨t, ht, hphase, rfl, hrest⟩ := exists_deliver_of_ok hl ho
      have hpull : (aggregate grouping child).pull ctx (s, c) = (.ok .row, (t, c)) := by
        simp only [pull, hp, ht]
        rfl
      exact .row hpull (ih (hphase.trans hp) hrest)

/-- An aggregation that is still to drain adds the rows below to the groups that it has. -/
theorem draining_delivers (ctx : Context) (grouping : Grouping) (child : Plan)
    {s : GroupingState} (hp : s.phase = .prepared) (hz : s.delivered = 0)
    {c : Cursor child} {d : Delivery} (h : Delivers (child.pull ctx) child.record c d) :
    Delivers ((aggregate grouping child).pull ctx) (aggregate grouping child).record (s, c)
      (grouping.deliveryOnto ctx s.groups d) := by
  obtain ⟨⟨result, groups, e⟩, hr, he⟩ := h.drains ctx grouping s.groups
  have hdrain := (drains_iff (child.pull_progresses ctx) _ c s.groups _).mp hr
  have hpull : (aggregate grouping child).pull ctx (s, c) =
      s.begin grouping ctx (result, groups, e) := by
    simp only [pull, hp, hdrain]
    rfl
  rw [Grouping.deliveryOnto, ← he]
  cases result with
  | error fault => exact .failed hpull
  | ok =>
    let full : GroupingState := { s with phase := .delivering, groups := grouping.complete groups }
    have hfull := groups_delivers ctx grouping child (s := full) rfl e
    have hd : full.groups.drop full.delivered = grouping.complete groups := by
      simp only [full, hz, List.drop_zero]
    rw [hd] at hfull
    exact hfull.of_pull_eq hpull

theorem aggregate_delivers (ctx : Context) (grouping : Grouping) (child : Plan)
    {s : GroupingState} (hp : s.phase = .prepared) (hg : s.groups = []) (hz : s.delivered = 0)
    {c : Cursor child} {d : Delivery} (h : Delivers (child.pull ctx) child.record c d) :
    Delivers ((aggregate grouping child).pull ctx) (aggregate grouping child).record (s, c)
      (match grouping.gather ctx d with
      | .error fault => ⟨[], some fault⟩
      | .ok groups => grouping.outputs ctx groups) := by
  have hd := draining_delivers ctx grouping child hp hz h
  rw [hg] at hd
  exact hd

theorem delivers_delivery (ctx : Context) (plan : Plan) (c : Cursor plan) :
    Delivers (plan.pull ctx) plan.record (plan.prepare c) (plan.delivery ctx) := by
  induction plan with
  | values rows => exact values_delivers ctx rows 0
  | filter predicate child ih =>
    exact (ih c).filter (child.pull_progresses ctx) fun row =>
      (predicate.evaluate ctx row).map Entry.isTrue
  | project items child ih =>
    obtain ⟨record, c⟩ := c
    exact (ih c).project (by simp [Record.new, Record.width]) rfl
  | aggregate grouping child ih =>
    obtain ⟨s, c⟩ := c
    exact aggregate_delivers ctx grouping child rfl rfl rfl (ih c)

theorem phase_of_deliver {grouping : Grouping} {ctx : Context} {s t : GroupingState}
    (h : s.deliver grouping ctx = (.ok .depleted, t)) : t.phase = .depleted := by
  cases hg : s.groups[s.delivered]? with
  | none =>
    simp only [GroupingState.deliver_of_none hg, Prod.mk.injEq, true_and] at h
    rw [← h]
  | some g =>
    cases ho : grouping.outputRow ctx g with
    | ok row => simp [GroupingState.deliver_of_ok hg ho] at h
    | error fault => simp [GroupingState.deliver_of_error hg ho] at h

theorem below_of_projectAnswer {σ : Type} {ctx : Context} {items : List Evaluator}
    {look : σ → Record} {record record' : Record} {below : Outcome Pulled × σ} {d : σ}
    (h : projectAnswer ctx items look record below = (.ok .depleted, record', d)) :
    below = (.ok .depleted, d) := by
  obtain ⟨answer, e⟩ := below
  rcases answer with fault | ⟨_ | _⟩
  · simp [projectAnswer] at h
  · cases hw : (writeColumns ctx (look e) 0 items record).1 <;>
      simp [projectAnswer, hw, Except.map] at h
  · simp only [projectAnswer, Prod.mk.injEq, true_and] at h
    rw [h.2]

theorem phase_of_pull {ctx : Context} {grouping : Grouping} {child : Plan} {s t : GroupingState}
    {c d : Cursor child}
    (h : (aggregate grouping child).pull ctx (s, c) = (.ok .depleted, (t, d))) :
    t.phase = .depleted := by
  rcases aggregate_pull_cases ctx grouping child (s, c) with
    ⟨-, hpull⟩ | ⟨hs, hpull⟩ | ⟨-, fault, groups, e, -, hpull⟩ | ⟨full, -, hpull⟩
  · cases hpull.symm.trans h
  · obtain ⟨-, hstate⟩ := Prod.mk.inj (hpull.symm.trans h)
    rw [← (Prod.mk.inj hstate).1, hs]
  · cases hpull.symm.trans h
  · obtain ⟨hanswer, hstate⟩ := Prod.mk.inj (hpull.symm.trans h)
    exact phase_of_deliver (Prod.ext hanswer (Prod.mk.inj hstate).1)

/-- Depletion is for good, under any context. -/
theorem pull_of_depleted {ctx : Context} {plan : Plan} {c d : Cursor plan}
    (h : plan.pull ctx c = (.ok .depleted, d)) (later : Context) :
    plan.pull later d = (.ok .depleted, d) := by
  induction plan with
  | values rows =>
    revert c d
    intro (c : Nat) (d : Nat) h
    by_cases hc : c < rows.length
    · rw [pull, if_pos hc] at h
      cases h
    · rw [pull, if_neg hc] at h
      obtain ⟨-, rfl⟩ := Prod.mk.inj h
      rw [pull, if_neg hc]
  | filter predicate child ih =>
    have hu := (pullsUntil_iff (child.pull_progresses ctx) _ c _).mpr h
    obtain ⟨u, hu⟩ := hu.exists_depleted rfl
    simp only [pull, pullUntil, ih hu]
  | project items child ih =>
    obtain ⟨record, c⟩ := c
    obtain ⟨record', d⟩ := d
    have hd := ih (below_of_projectAnswer h)
    simp only [pull, hd]
    rfl
  | aggregate grouping child ih =>
    obtain ⟨s, c⟩ := c
    obtain ⟨t, d⟩ := d
    have ht := phase_of_pull h
    simp only [pull, ht]

end Plan

end GraphQuery
