import GraphQuery.Proofs.RelatedEvaluation
import GraphQuery.Proofs.SharedCalls

/-! Rows that resemble one another, fed to the same aggregate calls. -/

namespace GraphQuery

open Outcome (Related Tolerance)

theorem optionRel_getLast? {α β : Type} {R : α → β → Prop} {as : List α} {bs : List β}
    (h : List.Forall₂ R as bs) : Option.Rel R as.getLast? bs.getLast? := by
  induction h with
  | nil => exact .none
  | @cons a b as bs hab _ ih =>
    rw [List.getLast?_cons, List.getLast?_cons]
    generalize as.getLast? = last?, bs.getLast? = last?' at ih
    cases ih with
    | none => exact .some hab
    | some hlast => exact .some hlast

/-- Every failure meets itself, and failures only. -/
structure Outcome.Tolerance.Strict (T : Tolerance) : Prop where
  accepts : ∀ fault, T.Accepts fault
  failed : ∀ fault, ¬ T.allows Option.none fault

theorem Outcome.Tolerance.none_strict : Tolerance.none.Strict :=
  ⟨fun _ => rfl, fun _ h => by cases h⟩

theorem Outcome.Related.cases_of_strict {T : Tolerance} (hT : T.Strict) {α β : Type} {R : α → β → Prop}
    {x : Outcome α} {y : Outcome β} (h : Related T R x y) :
    (∃ a b, x = .ok a ∧ y = .ok b ∧ R a b) ∨
      ∃ fault fault', x = .error fault ∧ y = .error fault' ∧ T.allows (some fault) fault' := by
  cases y with
  | ok b =>
    obtain ⟨a, hx, hab⟩ := h.ok b rfl
    exact .inl ⟨a, b, hx, rfl, hab⟩
  | error fault' =>
    have hfault := h.error fault' rfl
    cases x with
    | ok a => exact absurd hfault (hT.failed fault')
    | error fault => exact .inr ⟨fault, fault', rfl, rfl, hfault⟩

/-- Two steps leave the same state, and give related answers. -/
structure StepsAlike (T : Tolerance) {σ : Type} (p q : Outcome Unit × σ) : Prop where
  state : p.2 = q.2
  answer : Related T Eq p.1 q.1

namespace StepsAlike

variable {T : Tolerance} {σ τ : Type} {p q : Outcome Unit × σ}

theorem refused {fault fault' : Error} (h : T.allows (some fault) fault') (s : σ) :
    StepsAlike T (.error fault, s) (.error fault', s) := ⟨rfl, .of_error h⟩

theorem taken (s : σ) : StepsAlike T (.ok (), s) (.ok (), s) := ⟨rfl, .of_ok rfl⟩

theorem map (h : StepsAlike T p q) (f : σ → τ) : StepsAlike T (p.map id f) (q.map id f) :=
  ⟨congrArg f h.state, h.answer⟩

theorem attempt (hT : T.Strict) {change change' : σ → Outcome σ} {s : σ}
    (h : Related T Eq (change s) (change' s)) :
    StepsAlike T (GraphQuery.attempt change s) (GraphQuery.attempt change' s) := by
  rw [GraphQuery.attempt, GraphQuery.attempt]
  rcases h.cases_of_strict hT with ⟨next, _, hx, hy, rfl⟩ | ⟨fault, fault', hx, hy, hfault⟩
  · simp only [hx, hy]
    exact taken next
  · simp only [hx, hy]
    exact refused hfault s

end StepsAlike

namespace Resemblance

variable {T : Tolerance} {g h : Graph} {R : Entry → Entry → Prop} (hR : Resemblance T g h R)

include hR

section Operands

variable {a b : Entry} (hab : R a b)

include hab

theorem asConstant : a.asConstant = b.asConstant := hR.congr hab Entry.asConstant_snapshot

theorem collected : Collection.collected a = Collection.collected b :=
  hR.congr hab fun e => by cases e <;> rfl

theorem countOffer (distinct : Bool) (c : Count) : c.offer distinct a = c.offer distinct b := by
  rw [Count.offer, Count.offer, hR.isNull hab, hR.snapshot a b hab]

theorem collectionOffer (distinct : Bool) (c : Collection) : c.offer distinct a = c.offer distinct b := by
  rw [Collection.offer, Collection.offer, hR.isNull hab, hR.text hab, hR.collected hab]

theorem numericOperand_related (aggregate : String) :
    Related T Eq (numericOperand aggregate a) (numericOperand aggregate b) := by
  rcases hR.eq_constant_or hab with ⟨v, rfl, rfl⟩ | ⟨ha, hb⟩
  · refine hR.refl ?_
    rw [numericOperand]
    repeat' split
    all_goals simp
  · have hother : ∀ e : Entry, e.isConstant = false → numericOperand aggregate e =
        .error (.aggregateStep aggregate ("expected a number, got " ++ e.kindName)) := by
      intro e he
      cases e <;> first | rfl | cases he
    rw [hother a ha, hother b hb]
    exact .of_error (hR.allows_kind hab
      (fun kind => .aggregateStep aggregate ("expected a number, got " ++ kind)) (fun _ _ => nofun)
      fun _ _ => rfl)

theorem sampleOffer_related (aggregate : String) (distinct : Bool) (s : Sample) :
    Related T Eq (s.offer aggregate distinct a) (s.offer aggregate distinct b) := by
  refine (hR.numericOperand_related hab aggregate).bind_left fun number => ?_
  cases number <;> exact Outcome.failsWith_ok _

theorem readFraction_related (aggregate : String) :
    Related T Eq (PercentileSample.readFraction aggregate a) (PercentileSample.readFraction aggregate b) := by
  refine (hR.numericOperand_related hab aggregate).bind_left fun number => hR.raised.of_ordinary ?_
  repeat' split
  all_goals simp

end Operands

section Arguments

variable {args args' : List Entry} (hargs : List.Forall₂ R args args')

include hargs

theorem splitFlag_related (hT : T.Strict) (aggregate : String) :
    Related T (fun p q => p.1 = q.1 ∧ List.Forall₂ R p.2 q.2) (splitFlag aggregate args)
      (splitFlag aggregate args') := by
  cases hargs with
  | nil => exact .of_accepted (hT.accepts _)
  | cons hab hrest =>
    rw [splitFlag, splitFlag, hR.asConstant hab]
    split
    · exact .of_ok ⟨rfl, hrest⟩
    · exact .of_accepted (hT.accepts _)

theorem firstOperand_related (aggregate : String) :
    Related T R (firstOperand aggregate args) (firstOperand aggregate args') := by
  cases hargs with
  | nil => exact .of_accepted (hR.accepts nofun)
  | cons hab _ => exact .of_ok hab

theorem countStep_alike (hT : T.Strict) (c : Count) : StepsAlike T (c.step args) (c.step args') := by
  have hsplit := hR.splitFlag_related hargs hT "count"
  rcases hargs with _ | ⟨hab, _ | ⟨hcd, hrest⟩⟩
  · exact .refused (hT.accepts _) c
  · rw [Count.step, Count.step, hR.isNull hab]
    exact .taken _
  · rw [Count.step, Count.step]
    · rcases hsplit.cases_of_strict hT with
        ⟨⟨flag, operands⟩, ⟨_, operands'⟩, hx, hy, rfl, hoperands⟩ | ⟨fault, fault', hx, hy, hfault⟩
      · simp only [hx, hy]
        refine .attempt hT ((hR.firstOperand_related hoperands _).map fun a b hab => ?_)
        exact hR.countOffer hab _ _
      · simp only [hx, hy]
        exact .refused hfault c
    · simp
    · simp

theorem readOperands_related (hT : T.Strict) (aggregate : String) :
    Related T (fun p q => p.1 = q.1 ∧ R p.2.1 q.2.1 ∧ List.Forall₂ R p.2.2 q.2.2)
      (PercentileSample.readOperands aggregate args) (PercentileSample.readOperands aggregate args') := by
  refine (hR.splitFlag_related hargs hT _).bind ?_
  rintro ⟨distinct, operands⟩ ⟨_, operands'⟩ ⟨rfl, hoperands⟩
  rcases hoperands with _ | ⟨hab, _ | ⟨hcd, hrest⟩⟩
  · exact .of_accepted (hT.accepts _)
  · exact .of_accepted (hT.accepts _)
  · exact .of_ok ⟨rfl, hab, .cons hab (.cons hcd hrest)⟩

theorem settle_related (aggregate : String) (s : PercentileSample) :
    Related T Eq (s.settle aggregate args) (s.settle aggregate args') := by
  rw [PercentileSample.settle, PercentileSample.settle]
  cases s.fraction with
  | some p => exact .of_ok rfl
  | none =>
    have hlast := optionRel_getLast? hargs
    generalize args.getLast? = last?, args'.getLast? = last?' at hlast
    cases hlast with
    | none => exact .of_ok rfl
    | some hab => exact (hR.readFraction_related hab _).bind_left fun _ => Outcome.failsWith_ok _

theorem percentileStep_alike (hT : T.Strict) (kind : PercentileKind) (s : PercentileSample) :
    StepsAlike T (s.step kind args) (s.step kind args') := by
  rw [PercentileSample.step, PercentileSample.step]
  rcases (hR.readOperands_related hargs hT kind.name).cases_of_strict hT with
    ⟨⟨distinct, a, operands⟩, ⟨_, b, operands'⟩, hx, hy, rfl, hab, hoperands⟩ | ⟨fault, fault', hx, hy, hfault⟩
  · simp only [hx, hy]
    rcases (hR.settle_related hoperands kind.name s).cases_of_strict hT with
      ⟨settled, _, hx, hy, rfl⟩ | ⟨fault, fault', hx, hy, hfault⟩
    · simp only [hx, hy]
      exact .attempt hT ((hR.sampleOffer_related hab _ _ _).map fun _ _ hs => by rw [hs])
    · simp only [hx, hy]
      exact .refused hfault s
  · simp only [hx, hy]
    exact .refused hfault s

theorem accumulatorStep_alike (hT : T.Strict) (acc : Accumulator) :
    StepsAlike T (acc.step args) (acc.step args') := by
  cases acc with
  | count c => exact (hR.countStep_alike hargs hT c).map _
  | collect c =>
    refine (StepsAlike.attempt hT ?_).map _
    refine (hR.splitFlag_related hargs hT _).bind ?_
    rintro ⟨distinct, operands⟩ ⟨_, operands'⟩ ⟨rfl, hoperands⟩
    refine (hR.firstOperand_related hoperands _).bind fun a b hab => ?_
    rw [hR.collectionOffer hab]
    exact .of_ok rfl
  | statistic kind s =>
    refine (StepsAlike.attempt hT ?_).map _
    refine (hR.splitFlag_related hargs hT _).bind ?_
    rintro ⟨distinct, operands⟩ ⟨_, operands'⟩ ⟨rfl, hoperands⟩
    exact (hR.firstOperand_related hoperands _).bind fun a b hab => hR.sampleOffer_related hab _ _ s
  | percentile kind s => exact (hR.percentileStep_alike hargs hT kind s).map _

end Arguments

end Resemblance

/-- Contexts whose graphs say the same about related entries. -/
structure Context.Alike (T : Tolerance) (R : Entry → Entry → Prop) (ctx ctx' : Context) : Prop where
  parameters : ctx.parameters = ctx'.parameters
  plugins : ctx.plugins = ctx'.plugins
  entries : Resemblance T ctx.graph ctx'.graph R

structure Record.Alike (R : Entry → Entry → Prop) (r r' : Record) : Prop where
  columns : ∀ column, Option.Rel R (r.entryAt? column) (r'.entryAt? column)
  nullMarker : r.nullMarker = r'.nullMarker

theorem Record.alike_self {r : Record} {P : Entry → Prop}
    (h : ∀ column entry, r.entryAt? column = some entry → P entry) :
    r.Alike (fun a b => a = b ∧ P a) r where
  nullMarker := rfl
  columns := fun column => by
    cases he : r.entryAt? column with
    | none => exact .none
    | some entry => exact .some ⟨rfl, h column entry he⟩

/-- Results of aggregate calls are values. -/
def Slots.HoldValues (slots : Slots) : Prop :=
  ∀ id result, List.lookup id slots = some (.finished result) → ∃ v, result = .constant v

theorem Slots.HoldValues.put {slots : Slots} (h : slots.HoldValues) (id : ExprId) (acc : Accumulator) :
    Slots.HoldValues (slots.put id (.running acc)) := by
  intro i result hi
  by_cases he : i = id
  · subst he
    simp [lookup_put_self] at hi
  · rw [lookup_put_of_ne he] at hi
    exact h i result hi

theorem Accumulator.exists_finish_eq (acc : Accumulator) : ∃ v, acc.finish = .constant v := by
  cases acc <;> exact ⟨_, rfl⟩

namespace Evaluator

variable {e : Evaluator}

theorem holdValues_step (h : e.slots.HoldValues) (ctx : Context) (r : Record) (call : AggregateCall) :
    (e.step ctx r call).2.slots.HoldValues := by
  rw [step]
  dsimp only
  split
  · exact h
  · exact h.put _ _

theorem holdValues_stepAll (h : e.slots.HoldValues) (ctx : Context) (r : Record)
    (calls : List AggregateCall) : (stepAll ctx r calls e).2.slots.HoldValues := by
  induction calls generalizing e with
  | nil => exact h
  | cons call calls ih =>
    have hstep := holdValues_step h ctx r call
    rw [stepAll]
    split
    · rename_i he
      rw [he] at hstep
      exact ih hstep
    · rename_i he
      rw [he] at hstep
      exact hstep

theorem holdValues_reduce (h : e.slots.HoldValues) : e.reduce.slots.HoldValues := by
  have hensured : ∀ (calls : List AggregateCall) (slots : Slots), slots.HoldValues →
      Slots.HoldValues (calls.foldl Slots.ensure slots) := by
    intro calls
    induction calls with
    | nil => exact fun slots h => h
    | cons call calls ih =>
      intro slots h
      refine ih _ ?_
      rw [Slots.ensure]
      split
      · exact h
      · exact h.put _ _
  intro id result hid
  rw [reduce, Slots.lookup_map_reduce] at hid
  obtain ⟨slot, hslot, hreduced⟩ := Option.map_eq_some_iff.mp hid
  cases slot with
  | running acc =>
    obtain rfl := Slot.finished.inj hreduced
    exact acc.exists_finish_eq
  | finished result =>
    obtain rfl := Slot.finished.inj hreduced
    exact hensured _ _ h id result hslot

theorem holdValues_after (h : e.slots.HoldValues) (requests : List Request) :
    (e.after requests).slots.HoldValues := by
  induction requests generalizing e with
  | nil => exact h
  | cons request requests ih =>
    refine ih (e := (e.serve request).2) ?_
    cases request with
    | aggregate ctx r => exact holdValues_stepAll h ctx r _
    | evaluate ctx r => exact h
    | reduce => exact holdValues_reduce h

section Alike

variable {T : Tolerance} (hT : T.Strict) {R : Entry → Entry → Prop} {ctx ctx' : Context}
  (hctx : ctx.Alike T R ctx')

include hT hctx

theorem environment_related (h : e.slots.HoldValues) (r r' : Record) :
    (e.environment ctx r).Related T R (e.environment ctx' r') where
  symbols := rfl
  parameters := hctx.parameters
  plugins := hctx.plugins
  pluginFaults := fun _ _ _ _ fault _ => hT.accepts fault
  entries := hctx.entries
  results := fun id function => by
    simp only [Environment.aggregateResult, environment]
    cases hslot : List.lookup id e.slots with
    | none =>
      simp only
      split
      · exact .of_ok (hctx.entries.constant _)
      · exact .of_accepted (hT.accepts _)
    | some slot =>
      cases slot with
      | running acc => exact .of_accepted (hT.accepts _)
      | finished result =>
        obtain ⟨v, rfl⟩ := h id result hslot
        exact .of_ok (hctx.entries.constant v)

variable {r r' : Record} (hrow : r.Alike R r')

include hrow

theorem evaluate_alike (h : e.slots.HoldValues) (root : Expr) :
    Related T R (root.evaluate (e.environment ctx r)) (root.evaluate (e.environment ctx' r')) :=
  root.evaluate_related (environment_related hT hctx h r r') fun _ _ _ column _ => hrow.columns column

theorem stepArguments_alike (h : e.slots.HoldValues) (call : AggregateCall) :
    Related T (List.Forall₂ R) (stepArguments (e.environment ctx r) call)
      (stepArguments (e.environment ctx' r') call) := by
  have hconstant := hctx.entries.constant
  by_cases hrows : call.args = [] ∧ call.function = .count
  · rw [stepArguments_mark _ hrows.1 hrows.2, stepArguments_mark _ hrows.1 hrows.2]
    have hmark : (e.environment ctx r).record.nullMarker = (e.environment ctx' r').record.nullMarker :=
      hrow.nullMarker
    rw [hmark]
    refine .of_ok (.cons ?_ .nil)
    split <;> exact hconstant _
  · rw [stepArguments_operands _ hrows, stepArguments_operands _ hrows]
    have hoperands := Related.mapM_same fun arg (_ : arg ∈ call.args) => evaluate_alike hT hctx hrow h arg
    exact hoperands.map fun operands operands' hoperands => .cons (hconstant _) hoperands

theorem step_alike (h : e.slots.HoldValues) (call : AggregateCall) :
    StepsAlike T (e.step ctx r call) (e.step ctx' r' call) := by
  rw [step, step]
  rcases (stepArguments_alike hT hctx hrow h call).cases_of_strict hT with
    ⟨args, args', hx, hy, hargs⟩ | ⟨fault, fault', hx, hy, hfault⟩
  · cases hacc : e.accumulator call with
    | error fault =>
      simp only [hx, hy, bind, Except.bind]
      exact .refused (hT.accepts fault) e
    | ok acc =>
      have halike := hctx.entries.accumulatorStep_alike hargs hT acc
      simp only [hx, hy, bind, Except.bind, pure, Except.pure]
      exact halike.map fun acc => { e with slots := e.slots.put call.id (.running acc) }
  · simp only [hx, hy, bind, Except.bind]
    exact .refused hfault e

theorem stepAll_alike (h : e.slots.HoldValues) (calls : List AggregateCall) :
    StepsAlike T (stepAll ctx r calls e) (stepAll ctx' r' calls e) := by
  induction calls generalizing e with
  | nil => exact .taken e
  | cons call calls ih =>
    have hstep := step_alike hT hctx hrow h call
    have hnext := holdValues_step h ctx r call
    rw [stepAll, stepAll]
    generalize e.step ctx r call = p, e.step ctx' r' call = q at hstep hnext
    obtain ⟨x, next⟩ := p
    obtain ⟨y, next'⟩ := q
    obtain rfl : next = next' := hstep.state
    rcases hstep.answer.cases_of_strict hT with ⟨a, b, rfl, rfl, -⟩ | ⟨fault, fault', rfl, rfl, hfault⟩
    · exact ih hnext
    · exact .refused hfault next

theorem aggregate_alike (h : e.slots.HoldValues) :
    StepsAlike T (e.aggregate ctx r) (e.aggregate ctx' r') :=
  stepAll_alike hT hctx hrow h _

end Alike

theorem aggregateAll_alike {T : Tolerance} (hT : T.Strict) {R : Entry → Entry → Prop}
    {ctx ctx' : Context} (hctx : ctx.Alike T R ctx') {rows rows' : List Record}
    (hrows : List.Forall₂ (Record.Alike R) rows rows') (h : e.slots.HoldValues) :
    Related T Eq (e.aggregateAll ctx rows) (e.aggregateAll ctx' rows') ∧
      e.after (rows.map (.aggregate ctx)) = e.after (rows'.map (.aggregate ctx')) := by
  induction hrows generalizing e with
  | nil => exact ⟨.of_ok rfl, rfl⟩
  | @cons r r' rows rows' hrow _ ih =>
    have hstep := aggregate_alike hT hctx hrow h
    have hnext : (e.aggregate ctx r).2.slots.HoldValues := holdValues_stepAll h ctx r _
    obtain ⟨hall, hafter⟩ := ih hnext
    refine ⟨?_, ?_⟩
    · rw [aggregateAll, aggregateAll]
      rw [hstep.state] at hall
      generalize e.aggregate ctx r = p, e.aggregate ctx' r' = q at hstep hall
      obtain ⟨x, next⟩ := p
      obtain ⟨y, next'⟩ := q
      obtain rfl : next = next' := hstep.state
      rcases hstep.answer.cases_of_strict hT with ⟨a, b, rfl, rfl, -⟩ | ⟨fault, fault', rfl, rfl, hfault⟩
      · exact hall
      · exact .of_error hfault
    · rw [List.map_cons, List.map_cons, after_cons, after_cons, serve_aggregate_snd, serve_aggregate_snd,
        ← hstep.state]
      exact hafter

end Evaluator

end GraphQuery
