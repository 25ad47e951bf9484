import Mathlib.Logic.Relation
import GraphQuery.Proofs.Replay

/-! What a plan shows after a pull that gave no row. Sources and aggregations show the row of before,
projections what they wrote until an item failed, and filters the row that they looked at last. -/

namespace GraphQuery

section Loops

variable {σ : Type} {pull : σ → Outcome Pulled × σ} {accepts : σ → Outcome Bool}

/-- A pull that gives no row passes over rejected rows, and then meets an answer that is none or a row
on which the decision fails. -/
theorem pullsUntil_no_row_iff {s t : σ} {stop : Outcome Pulled} (hn : stop ≠ .ok .row) :
    PullsUntil (fun s r => pull s = r) accepts s (stop, t) ↔
      ∃ u, Relation.ReflTransGen (fun s t => pull s = (.ok .row, t) ∧ accepts t = .ok false) s u ∧
        (pull u = (stop, t) ∨
          pull u = (.ok .row, t) ∧ ∃ fault, accepts t = .error fault ∧ stop = .error fault) := by
  constructor
  · intro h
    generalize hr : (stop, t) = r at h
    induction h with
    | stopped hs _ =>
      obtain ⟨rfl, rfl⟩ := Prod.mk.inj hr
      exact ⟨_, .refl, .inl hs⟩
    | accepted => exact absurd (Prod.mk.inj hr).1 hn
    | failed hs ha =>
      obtain ⟨rfl, rfl⟩ := Prod.mk.inj hr
      exact ⟨_, .refl, .inr ⟨hs, _, ha, rfl⟩⟩
    | skipped hs ha _ ih =>
      obtain ⟨u, hu, hstop⟩ := ih hr
      exact ⟨u, .head ⟨hs, ha⟩ hu, hstop⟩
  · rintro ⟨u, hu, hstop⟩
    induction hu using Relation.ReflTransGen.head_induction_on with
    | refl =>
      rcases hstop with hs | ⟨hs, fault, ha, rfl⟩
      · exact .stopped hs hn
      · exact .failed hs ha
    | head hstep _ ih => exact .skipped hstep.1 hstep.2 ih

end Loops

/-- Columns are written until an item fails. Those behind it keep what they had. -/
theorem writeColumns_eq_error_iff {ctx : Context} {input : Record} {items : List Evaluator} {column : Nat}
    {row row' : Record} {fault : Error} (h : column + items.length ≤ row.width) :
    writeColumns ctx input column items row = (.error fault, row') ↔
      ∃ done e rest entries, items = done ++ e :: rest ∧
        (done.mapM fun e => e.evaluate ctx input) = .ok entries ∧ e.evaluate ctx input = .error fault ∧
        row' = ⟨row.entries.take column ++ entries ++ row.entries.drop (column + entries.length),
          row.nullMarker⟩ := by
  induction items generalizing column row with
  | nil => simp [writeColumns]
  | cons first items ih =>
    rw [List.length_cons] at h
    rw [writeColumns]
    cases hv : first.evaluate ctx input with
    | error f =>
      constructor
      · intro hw
        obtain ⟨hf, rfl⟩ := Prod.mk.inj hw
        obtain rfl := Except.error.inj hf
        refine ⟨[], first, items, [], rfl, rfl, hv, ?_⟩
        simp
      · rintro ⟨_ | ⟨other, done⟩, e, rest, entries, hitems, hdone, he, rfl⟩
        · obtain ⟨rfl, rfl⟩ := List.cons.inj hitems
          obtain rfl := Outcome.mapM_nil_eq_ok.mp hdone
          obtain rfl := Except.error.inj (hv.symm.trans he)
          simp
        · obtain ⟨rfl, -⟩ := List.cons.inj hitems
          obtain ⟨entry, -, hentry, -⟩ := Outcome.mapM_cons_eq_ok.mp hdone
          simp [hv] at hentry
    | ok entry =>
      have hlt : column < row.width := by omega
      have hset := Record.set_of_lt hlt entry
      have hwidth : (row.set column entry).width = row.width := by simp [hset, Record.width]
      dsimp only
      have hlt' : column < (row.entries.set column entry).length := by
        rw [List.length_set]
        exact hlt
      have hrow (entries : List Entry) : (row.set column entry).entries.take (column + 1) ++ entries ++
            (row.set column entry).entries.drop (column + 1 + entries.length) =
          row.entries.take column ++ (entry :: entries) ++
            row.entries.drop (column + (entry :: entries).length) := by
        have hbehind : column < column + 1 + entries.length := by omega
        rw [hset]
        dsimp only
        rw [List.take_succ_eq_append_getElem hlt', List.getElem_set_self, List.take_set_of_le (Nat.le_refl _),
          List.drop_set_of_lt hbehind, List.length_cons, Nat.add_assoc column, Nat.add_comm 1]
        simp
      have hmark : (row.set column entry).nullMarker = row.nullMarker := by rw [hset]
      rw [ih (by omega)]
      simp only [hrow, hmark]
      constructor
      · rintro ⟨done, e, rest, entries, rfl, hdone, he, rfl⟩
        exact ⟨first :: done, e, rest, entry :: entries, rfl,
          Outcome.mapM_cons_eq_ok.mpr ⟨entry, entries, hv, hdone, rfl⟩, he, rfl⟩
      · rintro ⟨_ | ⟨other, done⟩, e, rest, entries, hitems, hdone, he, rfl⟩
        · obtain ⟨rfl, -⟩ := List.cons.inj hitems
          simp [hv] at he
        · obtain ⟨rfl, rfl⟩ := List.cons.inj hitems
          obtain ⟨entry', entries, hentry, hlater, rfl⟩ := Outcome.mapM_cons_eq_ok.mp hdone
          obtain rfl := Except.ok.inj (hv.symm.trans hentry)
          exact ⟨done, e, rest, entries, rfl, hlater, he, rfl⟩

theorem writeColumns_first_eq_error_iff {ctx : Context} {input : Record} {items : List Evaluator}
    {row row' : Record} {fault : Error} (hwidth : row.width = items.length) (hmark : row.nullMarker = false) :
    writeColumns ctx input 0 items row = (.error fault, row') ↔
      ∃ done e rest entries, items = done ++ e :: rest ∧
        (done.mapM fun e => e.evaluate ctx input) = .ok entries ∧ e.evaluate ctx input = .error fault ∧
        row' = Record.ofEntries (entries ++ row.entries.drop entries.length) := by
  rw [writeColumns_eq_error_iff (by omega), hmark]
  simp only [List.take_zero, List.nil_append, Nat.zero_add]
  rfl

theorem projectAnswer_of_no_row {σ : Type} {ctx : Context} {items : List Evaluator} {look : σ → Record}
    {record : Record} {stop : Outcome Pulled} {s : σ} (hn : stop ≠ .ok .row) :
    projectAnswer ctx items look record (stop, s) = (stop, record, s) := by
  rcases stop with fault | ⟨_ | _⟩
  · rfl
  · exact absurd rfl hn
  · rfl

theorem GroupingState.record_of_deliver {s t : GroupingState} {grouping : Grouping} {ctx : Context}
    {stop : Outcome Pulled} (h : s.deliver grouping ctx = (stop, t)) (hn : stop ≠ .ok .row) :
    t.record = s.record := by
  cases hg : s.groups[s.delivered]? with
  | none =>
    rw [deliver_of_none hg] at h
    rw [← (Prod.mk.inj h).2]
  | some g =>
    cases ho : grouping.outputRow ctx g with
    | error fault =>
      rw [deliver_of_error hg ho] at h
      rw [← (Prod.mk.inj h).2]
    | ok row =>
      rw [deliver_of_ok hg ho] at h
      exact absurd (Prod.mk.inj h).1.symm hn

namespace Plan

/-- A pull of a row that the predicate rejects. -/
def Rejects (ctx : Context) (predicate : Evaluator) (child : Plan) (c d : Cursor child) : Prop :=
  child.pull ctx c = (.ok .row, d) ∧
    (predicate.evaluate ctx (child.record d)).map Entry.isTrue = .ok false

/-- The record that is shown after a pull with this answer, which is no row. -/
def Leaves (ctx : Context) : (plan : Plan) → Cursor plan → Outcome Pulled → Record → Prop
  | values rows, c, stop, r =>
    ((values rows).pull ctx c).1 = stop ∧ r = (values rows).record c
  | filter predicate child, c, stop, r =>
    ∃ d, Relation.ReflTransGen (Rejects ctx predicate child) c d ∧
      (child.Leaves ctx d stop r ∨
        ∃ fault e, child.pull ctx d = (.ok .row, e) ∧
          predicate.evaluate ctx (child.record e) = .error fault ∧ stop = .error fault ∧
          r = child.record e)
  | project items child, (record, c), stop, r =>
    (child.pull ctx c).1 = stop ∧ r = record ∨
      ∃ d done e rest entries fault, child.pull ctx c = (.ok .row, d) ∧ items = done ++ e :: rest ∧
        (done.mapM fun e => e.evaluate ctx (child.record d)) = .ok entries ∧
        e.evaluate ctx (child.record d) = .error fault ∧ stop = .error fault ∧
        r = Record.ofEntries (entries ++ record.entries.drop entries.length)
  | aggregate grouping child, (s, c), stop, r =>
    ((aggregate grouping child).pull ctx (s, c)).1 = stop ∧ r = s.record

/-- Plans that show a record of their own, which they replace as a whole. -/
def ownsRecord : Plan → Bool
  | values _ | aggregate _ _ => true
  | filter _ _ | project _ _ => false

variable {ctx : Context}

theorem record_of_pull_not_row {plan : Plan} (ho : plan.ownsRecord = true) {c d : Cursor plan}
    {stop : Outcome Pulled} (h : plan.pull ctx c = (stop, d)) (hn : stop ≠ .ok .row) :
    plan.record d = plan.record c := by
  cases plan with
  | values rows =>
    revert c d
    intro (c : Nat) (d : Nat) h
    by_cases hc : c < rows.length
    · rw [pull, if_pos hc] at h
      exact absurd (Prod.mk.inj h).1.symm hn
    · rw [pull, if_neg hc] at h
      rw [(Prod.mk.inj h).2]
  | filter predicate child => cases ho
  | project items child => cases ho
  | aggregate grouping child =>
    rcases aggregate_pull_cases ctx grouping child c with
      ⟨-, hpull⟩ | ⟨-, hpull⟩ | ⟨-, fault, groups, e, -, hpull⟩ | ⟨full, hfull, hpull⟩
    · rw [← (Prod.mk.inj (hpull.symm.trans h)).2]
    · rw [← (Prod.mk.inj (hpull.symm.trans h)).2]
    · rw [← (Prod.mk.inj (hpull.symm.trans h)).2]
      rfl
    · obtain ⟨hanswer, rfl⟩ := Prod.mk.inj (hpull.symm.trans h)
      exact (GroupingState.record_of_deliver (Prod.ext hanswer rfl) hn).trans hfull.record_eq

section NoRow

variable {stop : Outcome Pulled} {r : Record} (hn : stop ≠ .ok .row)

include hn

theorem leaves_iff_of_ownsRecord {plan : Plan} (ho : plan.ownsRecord = true) {c : Cursor plan} :
    (∃ d, plan.pull ctx c = (stop, d) ∧ plan.record d = r) ↔
      (plan.pull ctx c).1 = stop ∧ r = plan.record c := by
  constructor
  · rintro ⟨d, hd, rfl⟩
    exact ⟨congrArg Prod.fst hd, record_of_pull_not_row ho hd hn⟩
  · rintro ⟨hstop, rfl⟩
    exact ⟨_, Prod.ext hstop rfl, record_of_pull_not_row ho (Prod.ext hstop rfl) hn⟩

theorem project_leaves_iff {items : List Evaluator} {child : Plan} {record : Record} {c : Cursor child}
    (hwidth : record.width = items.length) (hmark : record.nullMarker = false) :
    (∃ d, (project items child).pull ctx (record, c) = (stop, d) ∧ (project items child).record d = r) ↔
      (project items child).Leaves ctx (record, c) stop r := by
  constructor
  · rintro ⟨⟨written, d⟩, hpull, rfl⟩
    cases hc : child.pull ctx c with
    | mk answer below =>
      rw [pull, hc] at hpull
      by_cases hrow : answer = .ok .row
      · cases hw : writeColumns ctx (child.record below) 0 items record with
        | mk result row =>
          simp only [hrow, projectAnswer, hw] at hpull
          obtain ⟨hstop, hstate⟩ := Prod.mk.inj hpull
          obtain ⟨rfl, rfl⟩ := Prod.mk.inj hstate
          cases result with
          | ok _ => exact absurd hstop.symm hn
          | error fault =>
            obtain ⟨done, e, rest, entries, hitems, hdone, he, hwritten⟩ :=
              (writeColumns_first_eq_error_iff hwidth hmark).mp hw
            exact .inr ⟨_, done, e, rest, entries, fault, hrow ▸ hc, hitems, hdone, he, hstop.symm, hwritten⟩
      · rw [projectAnswer_of_no_row hrow] at hpull
        obtain ⟨hstop, hstate⟩ := Prod.mk.inj hpull
        exact .inl ⟨(congrArg Prod.fst hc).trans hstop, (Prod.mk.inj hstate).1.symm⟩
  · rintro (⟨hstop, rfl⟩ | ⟨below, done, e, rest, entries, fault, hc, hitems, hdone, he, rfl, rfl⟩)
    · obtain ⟨below, hc⟩ : ∃ below, child.pull ctx c = (stop, below) := ⟨_, Prod.ext hstop rfl⟩
      refine ⟨(r, below), ?_, rfl⟩
      rw [pull, hc]
      exact projectAnswer_of_no_row hn
    · have hw := (writeColumns_first_eq_error_iff hwidth hmark).mpr ⟨done, e, rest, entries, hitems, hdone, he, rfl⟩
      refine ⟨(_, below), ?_, rfl⟩
      simp only [pull, hc, projectAnswer, hw]
      rfl

theorem filter_leaves_iff {predicate : Evaluator} {child : Plan} {c : Cursor child}
    (hbelow : ∀ d, Relation.ReflTransGen (Rejects ctx predicate child) c d →
      ((∃ e, child.pull ctx d = (stop, e) ∧ child.record e = r) ↔ child.Leaves ctx d stop r)) :
    (∃ d, (filter predicate child).pull ctx c = (stop, d) ∧ (filter predicate child).record d = r) ↔
      (filter predicate child).Leaves ctx c stop r := by
  -- the bounded loop of a pull goes round as often as it has to
  have hpull (e : Cursor child) : (filter predicate child).pull ctx c = (stop, e) ↔
      ∃ d, Relation.ReflTransGen (Rejects ctx predicate child) c d ∧ (child.pull ctx d = (stop, e) ∨
        child.pull ctx d = (.ok .row, e) ∧ ∃ fault,
          (predicate.evaluate ctx (child.record e)).map Entry.isTrue = .error fault ∧ stop = .error fault) :=
    (pullsUntil_iff (child.pull_progresses ctx) _ c _).symm.trans (pullsUntil_no_row_iff hn)
  constructor
  · rintro ⟨e, he, rfl⟩
    obtain ⟨d, hd, hstop | ⟨hrow, fault, hfault, hstop⟩⟩ := (hpull e).mp he
    · exact ⟨d, hd, .inl ((hbelow d hd).mp ⟨e, hstop, rfl⟩)⟩
    · exact ⟨d, hd, .inr ⟨fault, e, hrow, Outcome.map_eq_error.mp hfault, hstop, rfl⟩⟩
  · rintro ⟨d, hd, hleaves | ⟨fault, e, hrow, hfault, hstop, rfl⟩⟩
    · obtain ⟨e, he, rfl⟩ := (hbelow d hd).mpr hleaves
      exact ⟨e, (hpull e).mpr ⟨d, hd, .inl he⟩, rfl⟩
    · exact ⟨e, (hpull e).mpr ⟨d, hd, .inr ⟨hrow, fault, by rw [hfault]; rfl, hstop⟩⟩, rfl⟩

end NoRow

theorem Sound.of_rejected {predicate : Evaluator} {child : Plan} {c d : Cursor child} (h : child.Sound c)
    (hd : Relation.ReflTransGen (Rejects ctx predicate child) c d) : child.Sound d := by
  induction hd with
  | refl => exact h
  | tail _ hstep hc =>
    have hnext := hc.pull ctx
    rwa [hstep.1] at hnext

theorem Sound.leaves_iff {plan : Plan} {c : Cursor plan} (h : plan.Sound c) {stop : Outcome Pulled}
    {r : Record} (hn : stop ≠ .ok .row) :
    (∃ d, plan.pull ctx c = (stop, d) ∧ plan.record d = r) ↔ plan.Leaves ctx c stop r := by
  induction plan with
  | values rows => exact leaves_iff_of_ownsRecord hn rfl
  | filter predicate child ih => exact filter_leaves_iff hn fun d hd => ih (Sound.of_rejected h hd)
  | project items child _ => exact project_leaves_iff hn h.1 h.2.1
  | aggregate grouping child _ => exact leaves_iff_of_ownsRecord hn rfl

/-- The rows of pulls one after the other, also behind pulls that gave none. -/
def pulledRows (plan : Plan) : Cursor plan → List Context → List Record
  | _, [] => []
  | c, ctx :: later =>
    match plan.pull ctx c with
    | (.ok .row, d) => plan.record d :: plan.pulledRows d later
    | (_, d) => plan.pulledRows d later

theorem record_after_pulls {plan : Plan} (ho : plan.ownsRecord = true) (c : Cursor plan) (pulls : List Context) :
    plan.record (plan.after c (pulls.map .pull)) = (plan.pulledRows c pulls).getLastD (plan.record c) := by
  induction pulls generalizing c with
  | nil => rfl
  | cons ctx pulls ih =>
    change plan.record (plan.after (plan.pull ctx c).2 (pulls.map .pull)) = _
    rw [ih, pulledRows]
    cases hp : plan.pull ctx c with
    | mk answer d =>
      rcases answer with fault | ⟨_ | _⟩
      · rw [record_of_pull_not_row ho hp (by simp)]
      · rw [List.getLastD_cons]
      · rw [record_of_pull_not_row ho hp (by simp)]

/-- Where a pull gives no row, what a plan shows is decided operator by operator. Plans that own their
record show the row pulled last, over any pulls. -/
theorem records_without_a_row (plan : Plan) (history : List Request) :
    let c := plan.after plan.start history
    (∀ ctx stop r, stop ≠ .ok .row →
      ((∃ d, plan.pull ctx c = (stop, d) ∧ plan.record d = r) ↔ plan.Leaves ctx c stop r)) ∧
      (plan.ownsRecord = true → ∀ pulls : List Context,
        plan.record (plan.after c (pulls.map .pull)) = (plan.pulledRows c pulls).getLastD (plan.record c)) :=
  ⟨fun _ _ _ hn => (plan.sound_start.after history).leaves_iff hn, fun ho => record_after_pulls ho _⟩

/-- A column and its negative, over an integer and a text. -/
def negatives : Plan :=
  let symbols := (SymbolTable.empty.insert "x" .constant).1
  project [.ofExpr symbols (.node 0 (.reference "x")),
      .ofExpr symbols (.node 1 (.unary .negate (.node 0 (.reference "x"))))]
    (values [Record.ofEntries [.constant (.int 1)], Record.ofEntries [.constant (.string "a")]])

def negativesCounted : Plan :=
  aggregate ⟨.empty, .default, ["n"], [], [(0, .ofExpr .empty (.node 0 (.aggregate "count" false [])))]⟩
    negatives

/-- The second row of the projection is half written, and the count above it shows what it did before. -/
theorem negatives_half_written :
    let ctx := Context.ofGraph .empty
    let c := negatives.after negatives.start [.prepare, .pull ctx]
    (∃ fault, (Except.error fault : Outcome Pulled) ≠ .ok .row ∧ negatives.Leaves ctx c (.error fault)
        (Record.ofEntries [.constant (.string "a"), .constant (.int (-1))])) ∧
      negativesCounted.ownsRecord = true ∧
      negativesCounted.record (negativesCounted.after (negativesCounted.after negativesCounted.start [.prepare])
        ([ctx, ctx].map .pull)) = Record.ofEntries [.constant (.int 1)] := by
  intro ctx c
  obtain ⟨fault, d, hd, hr⟩ : ∃ fault d, negatives.pull ctx c = (.error fault, d) ∧
      negatives.record d = Record.ofEntries [.constant (.string "a"), .constant (.int (-1))] :=
    ⟨_, _, rfl, rfl⟩
  have hn : (Except.error fault : Outcome Pulled) ≠ .ok .row := by simp
  refine ⟨⟨fault, hn, ?_⟩, rfl, ?_⟩
  · exact ((records_without_a_row negatives [.prepare, .pull ctx]).1 ctx _ _ hn).mp ⟨d, hd, hr⟩
  · exact ((records_without_a_row negativesCounted [.prepare]).2 rfl [ctx, ctx]).trans rfl

theorem failed_pull_changes_record :
    ¬ ∀ (plan : Plan) (history : List Request) (ctx : Context) (fault : Error)
      (d : Cursor plan), plan.pull ctx (plan.after plan.start history) = (.error fault, d) →
        plan.record d = plan.record (plan.after plan.start history) := by
  intro h
  let ctx := Context.ofGraph .empty
  have hkept : Record.ofEntries [.constant (.string "a"), .constant (.int (-1))] =
      Record.ofEntries [.constant (.int 1), .constant (.int (-1))] :=
    h negatives [.prepare, .pull ctx] ctx _ _ rfl
  simp [Record.ofEntries, Value.string, Value.int] at hkept

end Plan

end GraphQuery
