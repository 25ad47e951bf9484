import GraphQuery.Proofs.DistinctValues
import GraphQuery.Proofs.FailedSteps

/-! A call with DISTINCT takes what the plain call takes of its operands without the repetitions. Each
accumulator has its own store of what it has taken; all of them answer as the operands before do. -/

namespace GraphQuery

namespace Entry

variable {a b c : Entry}

theorem same_refl (a : Entry) : a.same a = true := equal_refl _

theorem same_symm (h : a.same b = true) : b.same a = true := equal_symm h

theorem same_trans (h : a.same b = true) (h' : b.same c = true) : a.same c = true := equal_trans h h'

/-- The operand, unless Null. -/
def unlessNull (operand : Entry) : Option Entry := if operand.isNull then none else some operand

end Entry

/-- The operand that a row has for DISTINCT to tell apart. -/
def operandOf (row : List Entry) : Option Entry := row.head?.bind Entry.unlessNull

theorem operandOf_cons (operand : Entry) (rest : List Entry) :
    operandOf (operand :: rest) = operand.unlessNull := rfl

/-- Arguments of steps, with the same flag in all of them. -/
def flagged (distinct : Bool) (rows : List (List Entry)) : List (List Entry) :=
  rows.map fun row => .constant (.bool distinct) :: row

namespace AggregateFunction

/-- What DISTINCT takes for the same operand: a count looks at the snapshots, a collection at the
texts, numbers at equality. -/
def alike : AggregateFunction → Entry → Entry → Bool
  | .count, a, b => a.same b
  | .collect, a, b => a.text == b.text
  | .percentile _, a, b | .statistic _, a, b => a.equal b

theorem alike_trans (function : AggregateFunction) {a b c : Entry} (h : function.alike a b = true)
    (h' : function.alike b c = true) : function.alike a c = true := by
  cases function with
  | count => exact Entry.same_trans h h'
  | collect =>
    simp only [alike, beq_iff_eq] at h h' ⊢
    exact h.trans h'
  | percentile kind => exact Entry.equal_trans h h'
  | statistic kind => exact Entry.equal_trans h h'

def knows (function : AggregateFunction) (earlier : List Entry) (operand : Option Entry) : Bool :=
  operand.any fun x => earlier.any fun a => function.alike a x

/-- Whether the operand of a row repeats the operand of an earlier one. Null repeats nothing. -/
def repeats (function : AggregateFunction) (earlier row : List Entry) : Bool :=
  (operandOf row).any fun x => (operandOf earlier).any fun a => function.alike a x

theorem any_repeats (function : AggregateFunction) (rows : List (List Entry)) (row : List Entry) :
    (rows.any fun earlier => function.repeats earlier row) =
      function.knows (rows.filterMap operandOf) (operandOf row) := by
  simp only [repeats, knows]
  cases operandOf row with
  | none => simp
  | some x =>
    simp only [Option.any_some]
    induction rows with
    | nil => rfl
    | cons earlier rows ih =>
      rw [List.any_cons, ih, List.filterMap_cons]
      cases operandOf earlier <;> simp

end AggregateFunction

/-- The store knows what is like one of the operands before. -/
def Covers (function : AggregateFunction) (knows : Entry → Bool) (earlier : List Entry) : Prop :=
  ∀ x, knows x = earlier.any fun a => function.alike a x

namespace Covers

variable {function : AggregateFunction} {knows : Entry → Bool} {earlier : List Entry} {x : Entry}

theorem again (h : Covers function knows earlier) (hx : (earlier.any fun a => function.alike a x) = true) :
    Covers function knows (earlier ++ [x]) := by
  intro y
  rw [h y, List.any_append]
  by_cases hy : function.alike x y = true
  · obtain ⟨a, ha, hax⟩ := List.any_eq_true.mp hx
    have hay : (earlier.any fun a => function.alike a y) = true :=
      List.any_eq_true.mpr ⟨a, ha, function.alike_trans hax hy⟩
    rw [hay, Bool.true_or]
  · simp [hy]

theorem concat (h : Covers function knows earlier) {next : Entry → Bool}
    (hnext : ∀ y, next y = (knows y || function.alike x y)) : Covers function next (earlier ++ [x]) := by
  intro y
  rw [hnext, h y, List.any_append, List.any_cons, List.any_nil, Bool.or_false]

end Covers

/-- A count with DISTINCT and a plain one, which got the operands without the repetitions. -/
structure Count.Mirrors (c plain : Count) (earlier : List Entry) : Prop where
  count : c.count = plain.count
  distinct : c.distinct.getD true = true
  notDistinct : plain.distinct.getD false = false
  covers : Covers .count (fun x => c.seen.any fun e => e.equal x.snapshot) earlier

theorem Count.Mirrors.offer {c plain : Count} {earlier : List Entry} (h : c.Mirrors plain earlier) (x : Entry) :
    (c.offer true x).Mirrors
      (if AggregateFunction.count.knows earlier x.unlessNull then plain else plain.offer false x)
      (earlier ++ x.unlessNull.toList) := by
  have hseen := h.covers x
  cases hx : x.isNull with
  | true => simpa [Count.offer, Entry.unlessNull, AggregateFunction.knows, hx] using h
  | false =>
    simp only [Count.offer, Entry.unlessNull, AggregateFunction.knows, hx, Option.any_some, hseen,
      Bool.false_eq_true, if_false, Option.toList_some, Bool.not_true, Bool.not_false, if_true]
    split
    · rename_i hknown
      exact ⟨h.count, h.distinct, h.notDistinct, h.covers.again hknown⟩
    · have hcovers : Covers .count
          (fun y => (c.seen ++ [x.snapshot]).any fun e => e.equal y.snapshot) (earlier ++ [x]) :=
        h.covers.concat fun y => by simp [AggregateFunction.alike, Entry.same]
      exact ⟨congrArg (· + 1) h.count, h.distinct, h.notDistinct, hcovers⟩

structure Collection.Mirrors (c plain : Collection) (earlier : List Entry) : Prop where
  items : c.items = plain.items
  covers : Covers .collect (fun x => c.seen.contains x.text) earlier

theorem Collection.Mirrors.offer {c plain : Collection} {earlier : List Entry} (h : c.Mirrors plain earlier)
    (x : Entry) :
    (c.offer true x).Mirrors
      (if AggregateFunction.collect.knows earlier x.unlessNull then plain else plain.offer false x)
      (earlier ++ x.unlessNull.toList) := by
  have hseen := h.covers x
  cases hx : x.isNull with
  | true => simpa [Collection.offer, Entry.unlessNull, AggregateFunction.knows, hx] using h
  | false =>
    simp only [Collection.offer, Entry.unlessNull, AggregateFunction.knows, hx, Option.any_some, hseen,
      Bool.false_eq_true, if_false, Option.toList_some, Bool.not_true, Bool.not_false, if_true]
    split
    · rename_i hknown
      exact ⟨h.items, h.covers.again hknown⟩
    · have hcovers : Covers .collect (fun y => (c.seen ++ [x.text]).contains y.text) (earlier ++ [x]) :=
        h.covers.concat fun y => by
          simp [AggregateFunction.alike, beq_eq_decide, eq_comm (a := y.text)]
      exact ⟨congrArg (· ++ [collected x]) h.items, hcovers⟩

namespace Sample

/-- What an operand is to a sample: no number, Null, or a value to add. -/
theorem offer_cases (aggregate : String) (x : Entry) :
    (∃ fault, ∀ distinct s, offer aggregate distinct x s = .error fault) ∨
      (x.isNull = true ∧ ∀ distinct s, offer aggregate distinct x s = .ok s) ∨
      ∃ v number, x = .constant v ∧ x.isNull = false ∧
        ∀ distinct s, offer aggregate distinct x s = .ok (s.add distinct v number) := by
  cases hx : numericOperand aggregate x with
  | error fault =>
    left
    exact ⟨fault, fun distinct s => by simp only [offer, hx]; rfl⟩
  | ok read =>
    right
    cases x with
    | constant v =>
      cases hv : v.isNull with
      | true =>
        obtain rfl : none = read := by simpa [numericOperand, hv] using hx
        left
        exact ⟨hv, fun distinct s => by simp only [offer, hx]; rfl⟩
      | false =>
        cases hn : v.asDouble with
        | none => simp [numericOperand, hv, hn] at hx
        | some number =>
          obtain rfl : some (v, number) = read := by simpa [numericOperand, hv, hn] using hx
          right
          exact ⟨v, number, rfl, hv, fun distinct s => by simp only [offer, hx]; rfl⟩
    | _ => simp [numericOperand] at hx

structure Mirrors (s plain : Sample) (earlier : List Entry) (function : AggregateFunction) : Prop where
  numbers : s.numbers = plain.numbers
  covers : Covers function (fun x => s.seen.any fun v => (Entry.constant v).equal x) earlier

variable {s plain next : Sample} {earlier : List Entry} {function : AggregateFunction}

theorem Mirrors.add (h : s.Mirrors plain earlier function) (halike : function.alike = Entry.equal)
    (v : Value) (number : Double) :
    (s.add true v number).Mirrors
      (if earlier.any fun a => function.alike a (.constant v) then plain else plain.add false v number)
      (earlier ++ [.constant v]) function := by
  have hseen : (s.seen.any fun u => u.equal v) = earlier.any fun a => function.alike a (.constant v) :=
    h.covers (.constant v)
  simp only [Sample.add, hseen, Bool.not_true, Bool.false_eq_true, if_false, Bool.not_false, if_true]
  split
  · rename_i hknown
    exact ⟨h.numbers, h.covers.again hknown⟩
  · have hcovers : Covers function (fun y => (s.seen ++ [v]).any fun u => (Entry.constant u).equal y)
        (earlier ++ [.constant v]) := h.covers.concat fun y => by simp [halike]
    exact ⟨congrArg (· ++ [number]) h.numbers, hcovers⟩

theorem Mirrors.offer {aggregate : String} {x : Entry} (h : s.Mirrors plain earlier function)
    (halike : function.alike = Entry.equal) (hoffer : s.offer aggregate true x = .ok next) :
    ∃ nextPlain,
      (if function.knows earlier x.unlessNull then .ok plain else plain.offer aggregate false x) = .ok nextPlain ∧
        next.Mirrors nextPlain (earlier ++ x.unlessNull.toList) function := by
  rcases offer_cases aggregate x with ⟨fault, hfault⟩ | ⟨hx, hstays⟩ | ⟨v, number, rfl, hv, hadds⟩
  · simp [hfault] at hoffer
  · obtain rfl : s = next := by simpa [hstays] using hoffer
    exact ⟨plain, by simp [hstays], by simpa [Entry.unlessNull, hx] using h⟩
  · obtain rfl : s.add true v number = next := by simpa [hadds] using hoffer
    have hgiven : (Entry.constant v).unlessNull = some (.constant v) := by simp [Entry.unlessNull, hv]
    rw [hgiven, hadds]
    refine ⟨_, ?_, h.add halike v number⟩
    rw [AggregateFunction.knows, Option.any_some]
    split <;> rfl

end Sample

theorem attempt_eq_ok {σ : Type} {change : σ → Outcome σ} {s next : σ} :
    attempt change s = (.ok (), next) ↔ change s = .ok next := by
  rw [attempt]
  cases change s <;> simp

namespace PercentileSample

theorem attempt_offer_eq_ok {aggregate : String} {distinct : Bool} {value : Entry} {s next : PercentileSample} :
    attempt (offer aggregate distinct value) s = (.ok (), next) ↔
      ∃ sample, s.sample.offer aggregate distinct value = .ok sample ∧ { s with sample } = next := by
  rw [attempt_eq_ok, offer]
  cases s.sample.offer aggregate distinct value <;> simp [Except.map]

theorem readOperands_flagged {aggregate : String} {row operands : List Entry} {flag distinct : Bool}
    {value : Entry} (h : readOperands aggregate (.constant (.bool flag) :: row) = .ok (distinct, value, operands)) :
    distinct = flag ∧ row = operands ∧ row.head? = some value := by
  obtain _ | ⟨first, _ | ⟨second, rest⟩⟩ := row
  · cases h
  · cases h
  · cases h
    exact ⟨rfl, rfl, rfl⟩

theorem readOperands_of_flagged {aggregate : String} {row operands : List Entry} {flag distinct : Bool}
    {value : Entry} (h : readOperands aggregate (.constant (.bool flag) :: row) = .ok (distinct, value, operands))
    (other : Bool) :
    readOperands aggregate (.constant (.bool other) :: row) = .ok (other, value, row) := by
  obtain _ | ⟨first, _ | ⟨second, rest⟩⟩ := row
  · cases h
  · cases h
  · cases h
    rfl

theorem shareOf_flagged (kind : PercentileKind) (row : List Entry) (flag other : Bool) :
    shareOf kind (.constant (.bool flag) :: row) = shareOf kind (.constant (.bool other) :: row) := by
  obtain _ | ⟨first, _ | ⟨second, rest⟩⟩ := row <;> rfl

end PercentileSample

namespace Accumulator

/-- The accumulator of a call with DISTINCT and that of the plain call, which got the operands without
the repetitions. A percentile that has taken an operand has settled its share. -/
inductive Mirrors (earlier : List Entry) : AggregateFunction → Accumulator → Accumulator → Prop
  | count {c plain : Count} (h : c.Mirrors plain earlier) : Mirrors earlier .count (.count c) (.count plain)
  | collect {c plain : Collection} (h : c.Mirrors plain earlier) :
    Mirrors earlier .collect (.collect c) (.collect plain)
  | percentile {kind : PercentileKind} {s plain : PercentileSample} (hshare : s.fraction = plain.fraction)
    (hsettled : earlier ≠ [] → s.fraction.isSome = true)
    (h : s.sample.Mirrors plain.sample earlier (.percentile kind)) :
    Mirrors earlier (.percentile kind) (.percentile kind s) (.percentile kind plain)
  | statistic {kind : Statistic} {s plain : Sample} (hkind : kind.heedsDistinct = true)
    (h : s.Mirrors plain earlier (.statistic kind)) :
    Mirrors earlier (.statistic kind) (.statistic kind s) (.statistic kind plain)

/-- What is left of a step of the plain call: nothing when the row repeats an earlier one. -/
def plainStep (function : AggregateFunction) (earlier : List Entry) (row : List Entry) (plain : Accumulator) :
    Outcome Unit × Accumulator :=
  if function.knows earlier (operandOf row) then (.ok (), plain)
  else plain.step (.constant (.bool false) :: row)

theorem map_eq_ok {σ τ : Type} {make : σ → τ} {result : Outcome Unit × σ} {next : τ} :
    result.map id make = (.ok (), next) ↔ ∃ s, result = (.ok (), s) ∧ make s = next := by
  obtain ⟨outcome, s⟩ := result
  simp [Prod.map]

section Steps

variable {earlier row : List Entry} {next : Accumulator}

theorem step_count_mirrors {c plain : Count} (h : c.Mirrors plain earlier)
    (hstep : (count c).step (.constant (.bool true) :: row) = (.ok (), next)) :
    ∃ nextPlain, plainStep .count earlier row (count plain) = (.ok (), nextPlain) ∧
      Mirrors (earlier ++ (operandOf row).toList) .count next nextPlain := by
  cases row with
  | nil =>
    obtain rfl : count c.increment = next := congrArg Prod.snd hstep
    refine ⟨count plain.increment, rfl, ?_⟩
    rw [operandOf, List.head?_nil, Option.bind_none, Option.toList_none, List.append_nil]
    exact .count ⟨congrArg (· + 1) h.count, h.distinct, h.notDistinct, h.covers⟩
  | cons x rest =>
    have hnext : count (Count.offer (c.distinct.getD true) x { c with distinct := some (c.distinct.getD true) }) =
        next := congrArg Prod.snd hstep
    rw [h.distinct] at hnext
    rw [operandOf_cons]
    by_cases hknown : AggregateFunction.count.knows earlier x.unlessNull = true
    · have hset : Count.Mirrors { c with distinct := some true } plain earlier :=
        ⟨h.count, rfl, h.notDistinct, h.covers⟩
      have hoffer := hset.offer x
      rw [if_pos hknown] at hoffer
      exact ⟨count plain, if_pos hknown, hnext ▸ .count hoffer⟩
    · have hset : Count.Mirrors { c with distinct := some true } { plain with distinct := some false } earlier :=
        ⟨h.count, rfl, rfl, h.covers⟩
      have hoffer := hset.offer x
      rw [if_neg hknown] at hoffer
      have hplain : (count plain).step (.constant (.bool false) :: x :: rest) =
          (.ok (), count (Count.offer (plain.distinct.getD false) x
            { plain with distinct := some (plain.distinct.getD false) })) := rfl
      rw [h.notDistinct] at hplain
      exact ⟨_, (if_neg hknown).trans hplain, hnext ▸ .count hoffer⟩

theorem step_collect_mirrors {c plain : Collection} (h : c.Mirrors plain earlier)
    (hstep : (collect c).step (.constant (.bool true) :: row) = (.ok (), next)) :
    ∃ nextPlain, plainStep .collect earlier row (collect plain) = (.ok (), nextPlain) ∧
      Mirrors (earlier ++ (operandOf row).toList) .collect next nextPlain := by
  cases row with
  | nil => cases hstep
  | cons x rest =>
    obtain rfl : collect (c.offer true x) = next := congrArg Prod.snd hstep
    have hoffer := h.offer x
    rw [operandOf_cons]
    by_cases hknown : AggregateFunction.collect.knows earlier x.unlessNull = true
    · rw [if_pos hknown] at hoffer
      exact ⟨collect plain, if_pos hknown, .collect hoffer⟩
    · rw [if_neg hknown] at hoffer
      exact ⟨collect (plain.offer false x), if_neg hknown, .collect hoffer⟩

theorem step_statistic_mirrors {kind : Statistic} {s plain : Sample} (hkind : kind.heedsDistinct = true)
    (h : s.Mirrors plain earlier (.statistic kind))
    (hstep : (statistic kind s).step (.constant (.bool true) :: row) = (.ok (), next)) :
    ∃ nextPlain, plainStep (.statistic kind) earlier row (statistic kind plain) = (.ok (), nextPlain) ∧
      Mirrors (earlier ++ (operandOf row).toList) (.statistic kind) next nextPlain := by
  cases row with
  | nil => cases hstep
  | cons x rest =>
    obtain ⟨sample, hattempt, rfl⟩ := map_eq_ok.mp hstep
    have hoffer : s.offer kind.name (true && kind.heedsDistinct) x = .ok sample := attempt_eq_ok.mp hattempt
    rw [hkind] at hoffer
    obtain ⟨nextPlain, hplain, hmirrors⟩ := h.offer rfl hoffer
    refine ⟨statistic kind nextPlain, ?_, .statistic hkind hmirrors⟩
    by_cases hknown : (AggregateFunction.statistic kind).knows earlier x.unlessNull = true
    · rw [if_pos hknown] at hplain
      cases hplain
      exact if_pos hknown
    · rw [if_neg hknown] at hplain
      exact (if_neg hknown).trans (map_eq_ok.mpr ⟨nextPlain, attempt_eq_ok.mpr hplain, rfl⟩)

theorem step_percentile_mirrors {kind : PercentileKind} {s plain : PercentileSample}
    (hshare : s.fraction = plain.fraction) (hsettled : earlier ≠ [] → s.fraction.isSome = true)
    (h : s.sample.Mirrors plain.sample earlier (.percentile kind))
    (hstep : (percentile kind s).step (.constant (.bool true) :: row) = (.ok (), next)) :
    ∃ nextPlain, plainStep (.percentile kind) earlier row (percentile kind plain) = (.ok (), nextPlain) ∧
      Mirrors (earlier ++ (operandOf row).toList) (.percentile kind) next nextPlain := by
  obtain ⟨after, hattempt, rfl⟩ : ∃ after,
      s.step kind (.constant (.bool true) :: row) = (.ok (), after) ∧ percentile kind after = next :=
    map_eq_ok.mp hstep
  rcases s.step_cases kind (.constant (.bool true) :: row) with
    ⟨-, fault, hfault⟩ | ⟨distinct, value, operands, p, hread, hp, htaken⟩
  · simp [hfault] at hattempt
  · obtain ⟨rfl, rfl, hhead⟩ := PercentileSample.readOperands_flagged hread
    have hoperand : operandOf row = value.unlessNull := by rw [operandOf, hhead, Option.bind_some]
    obtain ⟨sample, hsample, rfl⟩ : ∃ sample, s.sample.offer kind.name true value = .ok sample ∧
        ⟨some p, sample⟩ = after := by
      rw [htaken] at hattempt
      exact PercentileSample.attempt_offer_eq_ok.mp hattempt
    obtain ⟨nextPlain, hplain, hmirrors⟩ := h.offer rfl hsample
    rw [plainStep, hoperand]
    by_cases hknown : (AggregateFunction.percentile kind).knows earlier value.unlessNull = true
    · rw [if_pos hknown] at hplain ⊢
      obtain rfl : plain.sample = nextPlain := by simpa using hplain
      have hearlier : earlier ≠ [] := by
        rintro rfl
        simp [AggregateFunction.knows] at hknown
      have hkept : plain.fraction = some p := by
        rw [← hshare, ← hp, Option.or_of_isSome (hsettled hearlier)]
      exact ⟨percentile kind plain, rfl, .percentile hkept.symm (fun _ => rfl) hmirrors⟩
    · rw [if_neg hknown] at hplain ⊢
      have hread' := PercentileSample.readOperands_of_flagged hread false
      have hp' : plain.fraction.or (PercentileSample.shareOf kind (.constant (.bool false) :: row)) = some p := by
        rw [← hshare, PercentileSample.shareOf_flagged kind row false true, hp]
      have hstep' : plain.step kind (.constant (.bool false) :: row) = (.ok (), ⟨some p, nextPlain⟩) := by
        rw [PercentileSample.step_of_share hread' hp']
        exact PercentileSample.attempt_offer_eq_ok.mpr ⟨nextPlain, hplain, rfl⟩
      exact ⟨percentile kind ⟨some p, nextPlain⟩, map_eq_ok.mpr ⟨_, hstep', rfl⟩,
        .percentile rfl (fun _ => rfl) hmirrors⟩

end Steps

variable {function : AggregateFunction} {acc plain next : Accumulator}

theorem Mirrors.step {earlier row : List Entry} (h : Mirrors earlier function acc plain)
    (hstep : acc.step (.constant (.bool true) :: row) = (.ok (), next)) :
    ∃ nextPlain, plainStep function earlier row plain = (.ok (), nextPlain) ∧
      Mirrors (earlier ++ (operandOf row).toList) function next nextPlain := by
  cases h with
  | count h => exact step_count_mirrors h hstep
  | collect h => exact step_collect_mirrors h hstep
  | percentile hshare hsettled h => exact step_percentile_mirrors hshare hsettled h hstep
  | statistic hkind h => exact step_statistic_mirrors hkind h hstep

theorem stepAll_singleton_eq_ok {args : List Entry} :
    acc.stepAll [args] = .ok next ↔ acc.step args = (.ok (), next) := by
  rw [stepAll_cons_eq_ok]
  simp [stepAll]

theorem Mirrors.stepAll {rows : List (List Entry)} (h : Mirrors [] function acc plain)
    (hsteps : acc.stepAll (flagged true rows) = .ok next) :
    ∃ nextPlain, plain.stepAll (flagged false (keepFirst function.repeats rows)) = .ok nextPlain ∧
      Mirrors (rows.filterMap operandOf) function next nextPlain := by
  induction rows using List.reverseRecOn generalizing next with
  | nil =>
    obtain rfl : acc = next := by simpa [flagged, Accumulator.stepAll] using hsteps
    exact ⟨plain, rfl, h⟩
  | append_singleton rows row ih =>
    rw [flagged, List.map_append, List.map_singleton, stepAll_append_eq_ok] at hsteps
    obtain ⟨middle, hrows, hrow⟩ := hsteps
    obtain ⟨middlePlain, hplain, hmirrors⟩ := ih hrows
    obtain ⟨nextPlain, hstep, hnext⟩ := hmirrors.step (stepAll_singleton_eq_ok.mp hrow)
    have htaken : (rows ++ [row]).filterMap operandOf = rows.filterMap operandOf ++ (operandOf row).toList := by
      rw [List.filterMap_append]
      cases hrow : operandOf row <;> simp [hrow]
    refine ⟨nextPlain, ?_, htaken ▸ hnext⟩
    rw [plainStep, ← function.any_repeats] at hstep
    rw [keepFirst_concat]
    by_cases hagain : (rows.any fun earlier => function.repeats earlier row) = true
    · rw [if_pos hagain] at hstep ⊢
      obtain rfl : middlePlain = nextPlain := congrArg Prod.snd hstep
      rwa [List.append_nil]
    · rw [if_neg hagain] at hstep ⊢
      rw [flagged, List.map_append, List.map_singleton, stepAll_append_eq_ok]
      exact ⟨middlePlain, hplain, stepAll_singleton_eq_ok.mpr hstep⟩

theorem Mirrors.finish {earlier : List Entry} (h : Mirrors earlier function acc plain) :
    plain.finish = acc.finish := by
  cases h with
  | count h => simp only [Accumulator.finish, h.count]
  | collect h => simp only [Accumulator.finish, h.items]
  | percentile hshare hsettled h =>
    simp only [Accumulator.finish, PercentileSample.result, hshare, h.numbers]
  | statistic hkind h => simp only [Accumulator.finish, h.numbers]

theorem covers_nil (function : AggregateFunction) : Covers function (fun _ => false) [] := fun _ => rfl

theorem mirrors_start (hmax : function ≠ .statistic .max) (hmin : function ≠ .statistic .min) :
    Mirrors [] function (start function) (start function) := by
  have hnone := covers_nil function
  cases function with
  | count => exact .count ⟨rfl, rfl, rfl, hnone⟩
  | collect => exact .collect ⟨rfl, hnone⟩
  | percentile kind => exact .percentile rfl (fun h => absurd rfl h) ⟨rfl, hnone⟩
  | statistic kind =>
    have hkind : kind.heedsDistinct = true := by
      cases kind with
      | max => exact absurd rfl hmax
      | min => exact absurd rfl hmin
      | _ => rfl
    exact .statistic hkind ⟨rfl, hnone⟩

/-- Max and min take the same with the flag and without. -/
theorem stepAll_flagged_of_not_heedsDistinct {kind : Statistic} (hkind : kind.heedsDistinct = false)
    (s : Sample) (rows : List (List Entry)) :
    (statistic kind s).stepAll (flagged true rows) = (statistic kind s).stepAll (flagged false rows) := by
  induction rows generalizing s with
  | nil => rfl
  | cons row rows ih =>
    have hstep : kind.step (.constant (.bool true) :: row) s = kind.step (.constant (.bool false) :: row) s := by
      cases row with
      | nil => rfl
      | cons x rest =>
        have hoffer (distinct : Bool) : kind.step (.constant (.bool distinct) :: x :: rest) s =
            s.offer kind.name (distinct && kind.heedsDistinct) x := rfl
        rw [hoffer, hoffer, hkind, Bool.and_false, Bool.and_false]
    simp only [flagged, List.map_cons, Accumulator.stepAll, Accumulator.step, attempt, hstep]
    cases kind.step (.constant (.bool false) :: row) s with
    | ok next => exact ih next
    | error fault => rfl

end Accumulator

/-- Where all steps of a call with DISTINCT succeed, those of the plain call do so over the rows
without the repetitions, and it ends with the same result; for max and min the flag changes nothing. -/
theorem distinct_is_plain_without_repetitions (function : AggregateFunction) (rows : List (List Entry)) :
    let fresh := Accumulator.start function
    (function ≠ .statistic .max → function ≠ .statistic .min →
      ∀ acc, fresh.stepAll (flagged true rows) = .ok acc →
        ∃ plain, fresh.stepAll (flagged false (keepFirst function.repeats rows)) = .ok plain ∧
          plain.finish = acc.finish) ∧
    (function = .statistic .max ∨ function = .statistic .min →
      fresh.stepAll (flagged true rows) = fresh.stepAll (flagged false rows)) := by
  intro fresh
  constructor
  · intro hmax hmin acc hsteps
    obtain ⟨plain, hplain, hmirrors⟩ := (Accumulator.mirrors_start hmax hmin).stepAll hsteps
    exact ⟨plain, hplain, hmirrors.finish⟩
  · rintro (rfl | rfl)
    · exact Accumulator.stepAll_flagged_of_not_heedsDistinct rfl .empty rows
    · exact Accumulator.stepAll_flagged_of_not_heedsDistinct rfl .empty rows

/-- A sum with DISTINCT takes one of two widths, and goes past Null; max takes all there is. -/
theorem sum_distinct_of_two_widths :
    let row (v : Value) : List Entry := [.constant v]
    let rows := [row (.int 1), row (.double Double.one), row .null, row (.int 2)]
    let sum := Accumulator.start (.statistic .sum)
    let max := Accumulator.start (.statistic .max)
    (∃ acc plain, sum.stepAll (flagged true rows) = .ok acc ∧
      sum.stepAll (flagged false [row (.int 1), row .null, row (.int 2)]) = .ok plain ∧
        plain.finish = acc.finish) ∧
      max.stepAll (flagged true rows) = max.stepAll (flagged false rows) := by
  intro row rows sum max
  have hkept : keepFirst (AggregateFunction.statistic .sum).repeats rows =
      [row (.int 1), row .null, row (.int 2)] := by
    have hsame : (Entry.constant (.int 1)).equal (.constant (.double Double.one)) = true := by decide +kernel
    have hint : (Entry.constant (.int 1)).equal (.constant (.int 2)) = false := by decide +kernel
    have hreal : (Entry.constant (.double Double.one)).equal (.constant (.int 2)) = false := by decide +kernel
    have hone : operandOf (row (.int 1)) = some (.constant (.int 1)) := rfl
    have hwide : operandOf (row (.double Double.one)) = some (.constant (.double Double.one)) := rfl
    have htwo : operandOf (row (.int 2)) = some (.constant (.int 2)) := rfl
    have hnull : operandOf (row .null) = none := rfl
    simp [keepFirst, AggregateFunction.repeats, AggregateFunction.alike, rows, hone, hwide, htwo, hnull,
      hsame, hint, hreal]
  obtain ⟨acc, hacc⟩ : ∃ acc, sum.stepAll (flagged true rows) = .ok acc := ⟨_, rfl⟩
  obtain ⟨plain, hplain, hfinish⟩ :=
    (distinct_is_plain_without_repetitions (.statistic .sum) rows).1 (by decide) (by decide) acc hacc
  rw [hkept] at hplain
  exact ⟨⟨acc, plain, hacc, hplain, hfinish⟩,
    (distinct_is_plain_without_repetitions (.statistic .max) rows).2 (.inl rfl)⟩

end GraphQuery
