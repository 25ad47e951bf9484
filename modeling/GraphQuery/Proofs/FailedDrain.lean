import GraphQuery.Proofs.Replay

/-! Aggregations after a row failed. The failure ends one pull and nothing else: the next one goes on
with the rows behind, and the failing row stays in the groups as far as it got. -/

namespace GraphQuery

/-- A drain that fails has added some rows and failed at the next, or added all rows and met the
failure that ends them. -/
theorem Delivers.drains_error {σ : Type} {pull : σ → Outcome Pulled × σ} {look : σ → Record} {s s' : σ}
    {D : Delivery} (h : Delivers pull look s D) {ctx : Context} {grouping : Grouping}
    {groups groups' : List Group} {fault : Error}
    (hr : Drains (fun s r => pull s = r) (fun s => grouping.addRow ctx (look s)) s groups
      (.error fault, groups', s')) :
    (∃ before bad behind made, D.rows = before ++ bad :: behind ∧
        grouping.addRows ctx none groups before = .ok made ∧
        grouping.addRow ctx bad made = (.error fault, groups') ∧
        Delivers pull look s' ⟨behind, D.failure⟩) ∨
      grouping.addRows ctx none groups D.rows = .ok groups' ∧ D.failure = some fault := by
  induction h generalizing groups with
  | depleted hs =>
    cases hr with
    | broken hs' => simp [hs] at hs'
    | failed hs' => simp [hs] at hs'
    | taken hs' => simp [hs] at hs'
  | failed hs =>
    cases hr with
    | broken hs' =>
      obtain ⟨hfault, -⟩ := Prod.mk.inj (hs.symm.trans hs')
      exact .inr ⟨rfl, congrArg some (Except.error.inj hfault)⟩
    | failed hs' => simp [hs] at hs'
    | taken hs' => simp [hs] at hs'
  | @row s t D hs hd ih =>
    cases hr with
    | broken hs' => simp [hs] at hs'
    | failed hs' ht =>
      obtain ⟨-, rfl⟩ := Prod.mk.inj (hs.symm.trans hs')
      exact .inl ⟨[], look t, D.rows, groups, rfl, rfl, ht, hd⟩
    | taken hs' ht hr =>
      obtain ⟨-, rfl⟩ := Prod.mk.inj (hs.symm.trans hs')
      rcases ih hr with ⟨before, bad, behind, made, hrows, hmade, hbad, hrest⟩ | ⟨hall, hfailure⟩
      · refine .inl ⟨look t :: before, bad, behind, made, by rw [hrows]; rfl, ?_, hbad, hrest⟩
        simp only [Grouping.addRows, ht, hmade]
      · exact .inr ⟨by simp only [Grouping.addRows, ht, hall], hfailure⟩

theorem Delivers.pull_eq_row_iff {σ : Type} {pull : σ → Outcome Pulled × σ} {look : σ → Record} {s : σ}
    {D : Delivery} (h : Delivers pull look s D) : (∃ t, pull s = (.ok .row, t)) ↔ D.rows ≠ [] := by
  cases h with
  | depleted hs => simp [hs]
  | failed hs => simp [hs]
  | row hs hd => simp [hs]

theorem Grouping.rows_deliveryOnto_ne_nil_iff {s : Grouping} {ctx : Context} {groups : List Group}
    {D : Delivery} :
    (s.deliveryOnto ctx groups D).rows ≠ [] ↔
      ∃ made g others row, s.addRows ctx D.failure groups D.rows = .ok made ∧
        s.complete made = g :: others ∧ s.outputRow ctx g = .ok row := by
  rw [deliveryOnto]
  cases hm : s.addRows ctx D.failure groups D.rows with
  | error fault => simp [Except.map]
  | ok made =>
    cases hc : s.complete made with
    | nil => simp [Except.map, hc, outputs, Delivery.collect]
    | cons g others =>
      cases ho : s.outputRow ctx g <;> simp [Except.map, hc, outputs, Delivery.collect, ho]

namespace Plan

/-- An error leaves an aggregation ready only if it came up in a drain. -/
theorem drain_of_pull_error {ctx : Context} {grouping : Grouping} {child : Plan} {s t : GroupingState}
    {c d : Cursor child} {fault : Error}
    (h : (aggregate grouping child).pull ctx (s, c) = (.error fault, (t, d)))
    (ht : t.phase = .prepared) :
    s.phase = .prepared ∧ t.delivered = s.delivered ∧
      Drains (fun s r => child.pull ctx s = r) (fun c => grouping.addRow ctx (child.record c)) c s.groups
        (.error fault, t.groups, d) := by
  rcases aggregate_pull_cases ctx grouping child (s, c) with
    ⟨hs, hpull⟩ | ⟨-, hpull⟩ | ⟨hs, fault', groups, e, hdrains, hpull⟩ | ⟨full, hfull, hpull⟩
  · obtain ⟨-, hstate⟩ := Prod.mk.inj (hpull.symm.trans h)
    obtain ⟨rfl, -⟩ := Prod.mk.inj hstate
    rw [hs] at ht
    cases ht
  · cases hpull.symm.trans h
  · obtain ⟨hanswer, hstate⟩ := Prod.mk.inj (hpull.symm.trans h)
    obtain ⟨rfl, rfl⟩ := Prod.mk.inj hstate
    obtain rfl := Except.error.inj hanswer
    exact ⟨hs, rfl, hdrains⟩
  · obtain ⟨-, hstate⟩ := Prod.mk.inj (hpull.symm.trans h)
    obtain ⟨rfl, -⟩ := Prod.mk.inj hstate
    exact absurd ht (deliver_not_prepared hfull.pull_eq.1 grouping ctx)

/-- A drain that failed is gone on with. The pulls after the failure add the rows behind it to the
groups as the failing row left them, and deliver these groups; so one of them can give a row, exactly
when the rows left go in and the first group has an output. -/
theorem failed_drain_goes_on {ctx : Context} {grouping : Grouping} {child : Plan}
    {history : List Request} {s t : GroupingState} {c d : Cursor child} {fault : Error}
    (hs : (aggregate grouping child).after (aggregate grouping child).start history = (s, c))
    (hf : (aggregate grouping child).pull ctx (s, c) = (.error fault, (t, d)))
    (ht : t.phase = .prepared) :
    (∃ D, Delivers (child.pull ctx) child.record c D ∧
      ((∃ before bad behind made, D.rows = before ++ bad :: behind ∧
          grouping.addRows ctx none s.groups before = .ok made ∧
          grouping.addRow ctx bad made = (.error fault, t.groups) ∧
          Delivers (child.pull ctx) child.record d ⟨behind, D.failure⟩) ∨
        grouping.addRows ctx none s.groups D.rows = .ok t.groups ∧ D.failure = some fault)) ∧
      ∀ later, ∃ D, Delivers (child.pull later) child.record d D ∧
        Delivers ((aggregate grouping child).pull later) (aggregate grouping child).record (t, d)
          (grouping.deliveryOnto later t.groups D) ∧
        ((∃ e, (aggregate grouping child).pull later (t, d) = (.ok .row, e)) ↔
          ∃ made g others row, grouping.addRows later D.failure t.groups D.rows = .ok made ∧
            grouping.complete made = g :: others ∧ grouping.outputRow later g = .ok row) := by
  obtain ⟨hp, hdelivered, hdrains⟩ := drain_of_pull_error hf ht
  have hsound : (aggregate grouping child).Sound (s, c) := by
    rw [← hs]
    exact (aggregate grouping child).sound_start.after history
  constructor
  · obtain ⟨D, hD⟩ := exists_delivers (child.pull_progresses ctx) child.record c
    exact ⟨D, hD, hD.drains_error hdrains⟩
  · intro later
    obtain ⟨D, hD⟩ := exists_delivers (child.pull_progresses later) child.record d
    -- the pulls after the failure begin with the first group
    have hz : t.delivered = 0 := hdelivered.trans (hsound.1 hp)
    have hrest := draining_delivers later grouping child ht hz hD
    exact ⟨D, hD, hrest, hrest.pull_eq_row_iff.trans Grouping.rows_deliveryOnto_ne_nil_iff⟩

/-- A count of rows and a sum of `x`. -/
def countAndSum : Grouping :=
  let symbols := (SymbolTable.empty.insert "x" .constant).1
  ⟨symbols, .default, ["n", "total"], [],
    [(0, .ofExpr symbols (.node 0 (.aggregate "count" false []))),
      (1, .ofExpr symbols (.node 2 (.aggregate "sum" false [.node 1 (.reference "x")])))]⟩

example : Grouping.ofItems (SymbolTable.empty.insert "x" .constant).1 .default
    [⟨.node 0 (.aggregate "count" false []), "n"⟩,
      ⟨.node 2 (.aggregate "sum" false [.node 1 (.reference "x")]), "total"⟩] = .ok countAndSum := rfl

def textThenNumber : Plan :=
  values [Record.ofEntries [.constant (.string "a")], Record.ofEntries [.constant (.int 1)]]

/-- The sum refuses the text, and the number behind it still goes in. -/
theorem textThenNumber_rest_goes_in :
    let plan := aggregate countAndSum textThenNumber
    let ctx := Context.ofGraph .empty
    let (answer, t, d) := plan.pull ctx (plan.after plan.start [.prepare])
    answer = .error (.aggregateStep "sum" "expected a number, got String") ∧
      ∃ D made g others row, Delivers (textThenNumber.pull ctx) textThenNumber.record d D ∧
        countAndSum.addRows ctx D.failure t.groups D.rows = .ok made ∧
        countAndSum.complete made = g :: others ∧ countAndSum.outputRow ctx g = .ok row := by
  refine ⟨rfl, ?_⟩
  have hrest := (@failed_drain_goes_on (Context.ofGraph .empty) countAndSum textThenNumber [.prepare]
    _ _ _ _ _ rfl rfl rfl).2 (Context.ofGraph .empty)
  obtain ⟨D, hD, -, hrow⟩ := hrest
  obtain ⟨made, g, others, row, hmade, hgroups, houtput⟩ := hrow.mp ⟨_, rfl⟩
  exact ⟨D, made, g, others, row, hD, hmade, hgroups, houtput⟩

/-- The pull after the failure gives a row, which counts the row that failed. -/
theorem textThenNumber_counted_as_two :
    let plan := aggregate countAndSum textThenNumber
    let ctx := Context.ofGraph .empty
    let (answer, c) := plan.pull ctx (plan.after plan.start [.prepare])
    let (next, d) := plan.pull ctx c
    answer = .error (.aggregateStep "sum" "expected a number, got String") ∧ next = .ok .row ∧
      (plan.record d).get? 0 = some (.constant (.int 2)) :=
  ⟨rfl, rfl, rfl⟩

end Plan

end GraphQuery
