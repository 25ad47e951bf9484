import GraphQuery.Proofs.SharedCalls

/-! Steps that fail. They leave an accumulator as it was, but for the share of a percentile: a step
whose value is no number has settled the share before it fails. -/

namespace GraphQuery

theorem attempt_error {σ : Type} {change : σ → Outcome σ} {s : σ} {fault : Error}
    (h : (attempt change s).1 = .error fault) : (attempt change s).2 = s := by
  rw [attempt] at h ⊢
  cases hs : change s with
  | ok next => simp [hs] at h
  | error other => rfl

/-- With a flag and an operand the flag stays, and nothing is left to fail. -/
theorem Count.step_error {args : List Entry} {c : Count} {fault : Error}
    (h : (c.step args).1 = .error fault) : (c.step args).2 = c := by
  obtain _ | ⟨flag, _ | ⟨operand, rest⟩⟩ := args
  · rfl
  · simp [step] at h
  · rw [step] at h ⊢
    · cases hs : splitFlag "count" (flag :: operand :: rest) with
      | error other => rfl
      | ok split =>
        have hrest : split.2 = operand :: rest := by
          rw [splitFlag] at hs
          cases hf : flag.asConstant.bind Value.asBool with
          | none => simp [hf] at hs
          | some distinct =>
            simp only [hf, Except.ok.injEq] at hs
            rw [← hs]
        simp [hs, hrest, firstOperand, attempt, Except.map] at h
    · simp
    · simp

namespace PercentileSample

/-- The share that the last operand of a step asks for, where it is one. -/
def shareOf (kind : PercentileKind) (args : List Entry) : Option Double :=
  match readOperands kind.name args with
  | .error _ => none
  | .ok (_, _, operands) =>
    operands.getLast?.bind fun last => (readFraction kind.name last).toOption

variable {kind : PercentileKind} {args : List Entry} {s : PercentileSample}

theorem exists_getLast?_of_readOperands {aggregate : String} {distinct : Bool} {value : Entry}
    {operands : List Entry} (h : readOperands aggregate args = .ok (distinct, value, operands)) :
    ∃ last, operands.getLast? = some last := by
  obtain ⟨⟨flag, rest⟩, -, h⟩ := Outcome.bind_eq_ok.mp h
  obtain _ | ⟨first, _ | ⟨second, rest⟩⟩ := rest
  · simp at h
  · simp at h
  · obtain ⟨-, -, rfl⟩ : flag = distinct ∧ first = value ∧ first :: second :: rest = operands := by
      simpa [pure, Except.pure] using h
    exact ⟨_, List.getLast?_eq_some_getLast (List.cons_ne_nil _ _)⟩

/-- A step settles the share first. A later failure leaves the share, and nothing else. -/
theorem step_of_share {distinct : Bool} {value : Entry} {operands : List Entry} {p : Double}
    (hread : readOperands kind.name args = .ok (distinct, value, operands))
    (hp : s.fraction.or (shareOf kind args) = some p) :
    s.step kind args = attempt (offer kind.name distinct value) { s with fraction := some p } := by
  obtain ⟨last, hlast⟩ := exists_getLast?_of_readOperands hread
  have hshare : shareOf kind args = (readFraction kind.name last).toOption := by
    simp only [shareOf, hread, hlast, Option.bind_some]
  cases hs : s.fraction with
  | some settled =>
    obtain rfl : settled = p := by simpa [hs] using hp
    have hsettle : s.settle kind.name operands = .ok s := by simp [settle, hs, pure, Except.pure]
    have hsame : { s with fraction := some settled } = s := by rw [← hs]
    simp only [step, hread, hsettle, hsame]
  | none =>
    rw [hs, Option.none_or, hshare] at hp
    have hr : readFraction kind.name last = .ok p := by
      cases hr : readFraction kind.name last with
      | error fault => simp [hr, Except.toOption] at hp
      | ok q => simpa [hr, Except.toOption] using hp
    have hsettle : s.settle kind.name operands = .ok { s with fraction := some p } := by
      simp [settle, hs, hlast, hr, bind, Except.bind, pure, Except.pure]
    simp only [step, hread, hsettle]

theorem step_of_no_share (h : s.fraction.or (shareOf kind args) = none) :
    ∃ fault, s.step kind args = (.error fault, s) := by
  obtain ⟨hs, hshare⟩ : s.fraction = none ∧ shareOf kind args = none := by simpa using h
  cases hread : readOperands kind.name args with
  | error fault => exact ⟨fault, by simp only [step, hread]⟩
  | ok read =>
    obtain ⟨distinct, value, operands⟩ := read
    obtain ⟨last, hlast⟩ := exists_getLast?_of_readOperands hread
    cases hr : readFraction kind.name last with
    | ok p => simp [shareOf, hread, hlast, hr, Except.toOption] at hshare
    | error fault =>
      have hsettle : s.settle kind.name operands = .error fault := by
        simp [settle, hs, hlast, hr, bind, Except.bind]
      exact ⟨fault, by simp only [step, hread, hsettle]⟩

theorem step_cases (kind : PercentileKind) (args : List Entry) (s : PercentileSample) :
    (shareOf kind args = none ∧ ∃ fault, s.step kind args = (.error fault, s)) ∨
      ∃ distinct value operands p, readOperands kind.name args = .ok (distinct, value, operands) ∧
        s.fraction.or (shareOf kind args) = some p ∧
        s.step kind args = attempt (offer kind.name distinct value) { s with fraction := some p } := by
  cases hread : readOperands kind.name args with
  | error fault =>
    have hshare : shareOf kind args = none := by simp only [shareOf, hread]
    left
    exact ⟨hshare, fault, by simp only [step, hread]⟩
  | ok read =>
    obtain ⟨distinct, value, operands⟩ := read
    cases hp : s.fraction.or (shareOf kind args) with
    | some p =>
      right
      exact ⟨distinct, value, operands, p, rfl, rfl, step_of_share hread hp⟩
    | none =>
      left
      exact ⟨(Option.or_eq_none_iff.mp hp).2, step_of_no_share hp⟩

theorem fraction_attempt_offer (aggregate : String) (distinct : Bool) (value : Entry)
    (s : PercentileSample) : (attempt (offer aggregate distinct value) s).2.fraction = s.fraction := by
  rw [attempt, offer]
  cases s.sample.offer aggregate distinct value <;> rfl

theorem fraction_step (kind : PercentileKind) (args : List Entry) (s : PercentileSample) :
    (s.step kind args).2.fraction = s.fraction.or (shareOf kind args) := by
  rcases step_cases kind args s with ⟨hshare, fault, hstep⟩ | ⟨distinct, value, -, p, -, hp, hstep⟩
  · rw [hstep, hshare, Option.or_none]
  · rw [hstep, hp, fraction_attempt_offer]

theorem isSome_of_step_ok (h : (s.step kind args).1 = .ok ()) :
    (s.fraction.or (shareOf kind args)).isSome = true := by
  rcases step_cases kind args s with ⟨-, fault, hstep⟩ | ⟨-, -, -, p, -, hp, -⟩
  · simp [hstep] at h
  · rw [hp]
    rfl

theorem step_error {fault : Error} (h : (s.step kind args).1 = .error fault) :
    (s.step kind args).2 = { s with fraction := s.fraction.or (shareOf kind args) } := by
  rcases step_cases kind args s with ⟨hshare, other, hstep⟩ | ⟨distinct, value, -, p, -, hp, hstep⟩
  · rw [hstep, hshare, Option.or_none]
  · rw [hstep] at h ⊢
    rw [attempt_error h, hp]

/-- A step goes the same way once the share that it asks for is settled. -/
theorem step_settled (kind : PercentileKind) (args : List Entry) (s : PercentileSample) :
    { s with fraction := s.fraction.or (shareOf kind args) }.step kind args = s.step kind args := by
  rcases step_cases kind args s with ⟨hshare, -, -⟩ | ⟨distinct, value, operands, p, hread, hp, hstep⟩
  · rw [hshare, Option.or_none]
  · have hsettle : { s with fraction := some p }.settle kind.name operands =
        .ok { s with fraction := some p } := rfl
    rw [hstep, hp]
    simp only [step, hread, hsettle]

end PercentileSample

/-- The share that a step settles, if the function has one. -/
def AggregateFunction.shareOf : AggregateFunction → List Entry → Option Double
  | .percentile kind, args => PercentileSample.shareOf kind args
  | _, _ => none

namespace Accumulator

def function : Accumulator → AggregateFunction
  | count _ => .count
  | collect _ => .collect
  | percentile kind _ => .percentile kind
  | statistic kind _ => .statistic kind

def share : Accumulator → Option Double
  | percentile _ s => s.fraction
  | _ => none

/-- With a share in place of none. -/
def settle (share : Option Double) : Accumulator → Accumulator
  | percentile kind s => percentile kind { s with fraction := s.fraction.or share }
  | acc => acc

/-- The state after steps of which some may have failed. -/
def run (acc : Accumulator) (steps : List (List Entry)) : Accumulator :=
  steps.foldl (fun acc args => (acc.step args).2) acc

/-- The steps that did not fail. -/
def taken (acc : Accumulator) : List (List Entry) → List (List Entry)
  | [] => []
  | args :: rest =>
    match acc.step args with
    | (.ok _, next) => args :: next.taken rest
    | (.error _, next) => next.taken rest

variable {acc next : Accumulator} {args : List Entry} {fault : Error}

theorem run_cons (acc : Accumulator) (args : List Entry) (rest : List (List Entry)) :
    acc.run (args :: rest) = (acc.step args).2.run rest := rfl

theorem function_step (acc : Accumulator) (args : List Entry) :
    (acc.step args).2.function = acc.function := by
  cases acc <;> rfl

theorem share_step (acc : Accumulator) (args : List Entry) :
    (acc.step args).2.share = acc.share.or (acc.function.shareOf args) := by
  cases acc with
  | percentile kind s => exact s.fraction_step kind args
  | _ => rfl

theorem share_run (acc : Accumulator) (steps : List (List Entry)) :
    (acc.run steps).share = acc.share.or (steps.findSome? acc.function.shareOf) := by
  induction steps generalizing acc with
  | nil => exact (Option.or_none).symm
  | cons args rest ih =>
    rw [run_cons, ih, function_step, share_step, Option.or_assoc, List.findSome?_cons]
    cases acc.function.shareOf args <;> rfl

theorem settle_none (acc : Accumulator) : acc.settle none = acc := by
  cases acc <;> simp [settle]

theorem settle_of_isSome_share (h : acc.share.isSome = true) (share : Option Double) :
    acc.settle share = acc := by
  cases acc with
  | percentile kind s =>
    have hkept : s.fraction.or share = s.fraction := Option.or_of_isSome h
    rw [settle, hkept]
  | _ => rfl

theorem settle_settle (acc : Accumulator) (p q : Option Double) :
    (acc.settle p).settle q = acc.settle (p.or q) := by
  cases acc with
  | percentile kind s => simp only [settle, Option.or_assoc]
  | _ => rfl

theorem step_error (h : (acc.step args).1 = .error fault) :
    (acc.step args).2 = acc.settle (acc.function.shareOf args) := by
  cases acc with
  | count c => exact congrArg count (Count.step_error h)
  | collect c => exact congrArg collect (attempt_error h)
  | statistic kind s => exact congrArg (statistic kind) (attempt_error h)
  | percentile kind s => exact congrArg (percentile kind) (PercentileSample.step_error h)

theorem step_settled (acc : Accumulator) (args : List Entry) :
    (acc.settle (acc.function.shareOf args)).step args = acc.step args := by
  cases acc with
  | percentile kind s => exact congrArg (Prod.map id (percentile kind)) (s.step_settled kind args)
  | _ => rfl

theorem settle_or_of_step_ok (h : acc.step args = (.ok (), next)) (later : Option Double) :
    acc.settle ((acc.function.shareOf args).or later) = acc.settle (acc.function.shareOf args) := by
  cases acc with
  | percentile kind s =>
    have hok : (s.step kind args).1 = .ok () := congrArg Prod.fst h
    have hsome := PercentileSample.isSome_of_step_ok hok
    simp only [settle, function, AggregateFunction.shareOf, ← Option.or_assoc, Option.or_of_isSome hsome]
  | _ => rfl

theorem settle_of_step_ok (h : acc.step args = (.ok (), next)) (later : Option Double) :
    next.settle later = next := by
  obtain rfl : (acc.step args).2 = next := congrArg Prod.snd h
  cases acc with
  | percentile kind s =>
    have hok : (s.step kind args).1 = .ok () := congrArg Prod.fst h
    have hshare := share_step (percentile kind s) args
    refine settle_of_isSome_share ?_ later
    rw [hshare]
    exact PercentileSample.isSome_of_step_ok hok
  | _ => rfl

theorem run_of_stepAll {steps : List (List Entry)} (h : acc.stepAll steps = .ok next) :
    acc.run steps = next := by
  induction steps generalizing acc with
  | nil => simpa [stepAll, run] using h
  | cons args rest ih =>
    obtain ⟨middle, hstep, hrest⟩ := stepAll_cons_eq_ok.mp h
    rw [run_cons, hstep]
    exact ih hrest

/-- A run with failures ends as the steps that were taken do, when these start with the share that is
settled first. -/
theorem stepAll_taken (acc : Accumulator) (steps : List (List Entry)) :
    (acc.settle (steps.findSome? acc.function.shareOf)).stepAll (acc.taken steps) = .ok (acc.run steps) := by
  induction steps generalizing acc with
  | nil => simp [taken, run, stepAll, settle_none]
  | cons args rest ih =>
    have hfirst : (args :: rest).findSome? acc.function.shareOf =
        (acc.function.shareOf args).or (rest.findSome? acc.function.shareOf) := by
      rw [List.findSome?_cons]
      cases acc.function.shareOf args <;> rfl
    have hrest := ih (acc.step args).2
    rw [function_step] at hrest
    rw [hfirst, run_cons, taken]
    cases hstep : acc.step args with
    | mk result next =>
      rw [hstep] at hrest
      cases result with
      | ok =>
        have hnext : (acc.settle (acc.function.shareOf args)).step args = (.ok (), next) :=
          (step_settled acc args).trans hstep
        rw [settle_of_step_ok hstep] at hrest
        rw [settle_or_of_step_ok hstep]
        exact stepAll_cons_eq_ok.mpr ⟨next, hnext, hrest⟩
      | error fault =>
        have hleft : (acc.step args).2 = acc.settle (acc.function.shareOf args) :=
          step_error (congrArg Prod.fst hstep)
        rw [hstep] at hleft
        dsimp only at hleft hrest ⊢
        rw [← settle_settle, ← hleft]
        exact hrest

/-- After a step that was taken no other step settles a share. -/
theorem share_run_of_step_ok (h : acc.step args = (.ok (), next)) (rest : List (List Entry)) :
    (next.run rest).share = next.share := by
  obtain rfl : (acc.step args).2 = next := congrArg Prod.snd h
  rw [share_run, share_step, function_step]
  cases acc with
  | percentile kind s =>
    have hok : (s.step kind args).1 = .ok () := congrArg Prod.fst h
    exact Option.or_of_isSome (PercentileSample.isSome_of_step_ok hok)
  | _ => exact List.findSome?_eq_none_iff.mpr fun _ _ => rfl

theorem function_start (function : AggregateFunction) : (start function).function = function := by
  cases function <;> rfl

theorem share_start (function : AggregateFunction) : (start function).share = none := by
  cases function <;> rfl

theorem stepAll_taken_iff (function : AggregateFunction) (steps : List (List Entry)) :
    let fresh := start function
    fresh.stepAll (fresh.taken steps) = .ok (fresh.run steps) ↔
      (fresh.taken steps).head?.bind function.shareOf = steps.findSome? function.shareOf := by
  intro fresh
  have hsettled := stepAll_taken fresh steps
  have hshare := share_run fresh steps
  rw [share_start, Option.none_or, function_start] at hshare
  rw [function_start] at hsettled
  rw [← hshare] at hsettled ⊢
  cases htaken : fresh.taken steps with
  | nil =>
    constructor
    · intro h
      have hrun : fresh = fresh.run steps := by simpa [stepAll] using h
      rw [← hrun, share_start]
      rfl
    · intro h
      have hnone : (fresh.run steps).share = none := h.symm
      rwa [htaken, hnone, settle_none] at hsettled
  | cons args rest =>
    rw [htaken] at hsettled
    have hhead : (args :: rest).head?.bind function.shareOf = function.shareOf args := rfl
    rw [hhead]
    constructor
    · intro h
      obtain ⟨next, hstep, hrest⟩ := stepAll_cons_eq_ok.mp h
      have hnext := share_step fresh args
      rw [share_start, Option.none_or, function_start, hstep] at hnext
      rw [← run_of_stepAll hrest, share_run_of_step_ok hstep]
      exact hnext.symm
    · intro h
      have hfirst := step_settled fresh args
      rw [function_start] at hfirst
      rw [← h] at hsettled
      obtain ⟨next, hstep, hrest⟩ := stepAll_cons_eq_ok.mp hsettled
      exact stepAll_cons_eq_ok.mpr ⟨next, hfirst.symm.trans hstep, hrest⟩

end Accumulator

/-- Where steps fail and others follow, the accumulator ends as a fresh one does over the steps that
were taken, but for the share of a percentile: the first step that asks for a share settles it, even
when it fails after that. So a fresh one ends alike just when the first step taken asks for that
share, as it does for all other functions. -/
theorem failed_steps_leave_a_share (function : AggregateFunction) (steps : List (List Entry)) :
    let fresh := Accumulator.start function
    let taken := fresh.taken steps
    (fresh.settle (steps.findSome? function.shareOf)).stepAll taken = .ok (fresh.run steps) ∧
      (fresh.stepAll taken = .ok (fresh.run steps) ↔
        taken.head?.bind function.shareOf = steps.findSome? function.shareOf) ∧
      ((∀ kind, function ≠ .percentile kind) → fresh.stepAll taken = .ok (fresh.run steps)) := by
  intro fresh taken
  have hsettled := fresh.stepAll_taken steps
  rw [Accumulator.function_start] at hsettled
  have hiff := Accumulator.stepAll_taken_iff function steps
  refine ⟨hsettled, hiff, fun hkind => hiff.mpr ?_⟩
  have hnone : ∀ args, function.shareOf args = none := by
    intro args
    cases function with
    | percentile kind => exact absurd rfl (hkind kind)
    | _ => rfl
  have hsteps : steps.findSome? function.shareOf = none :=
    List.findSome?_eq_none_iff.mpr fun args _ => hnone args
  rw [hsteps, Option.bind_eq_none_iff]
  exact fun args _ => hnone args

/-- A sum that refuses the text between two numbers. -/
theorem sum_past_text_takes_both_numbers :
    let flag : Entry := .constant (.bool false)
    let one : List Entry := [flag, .constant (.int 1)]
    let text : List Entry := [flag, .constant (.string "a")]
    let fresh := Accumulator.start (.statistic .sum)
    fresh.stepAll [one, one] = .ok (fresh.run [one, text, one]) := by
  intro flag one text fresh
  have htaken : fresh.taken [one, text, one] = [one, one] := rfl
  have h := (failed_steps_leave_a_share (.statistic .sum) [one, text, one]).2.2 nofun
  rwa [htaken] at h

/-- The least number of two, asked for by a row that failed, where the rows that were taken ask for
the greatest. -/
theorem failed_percentile_keeps_its_share :
    let flag : Entry := .constant (.bool false)
    let row (v p : Value) : List Entry := [flag, .constant v, .constant p]
    let steps := [row (.string "a") (.int 0), row (.int 1) (.int 1), row (.int 2) (.int 1)]
    let fresh := Accumulator.start (.percentile .discrete)
    ∃ acc, fresh.stepAll (fresh.taken steps) = .ok acc ∧ acc.finish ≠ (fresh.run steps).finish := by
  intro flag row steps fresh
  have hdiffer : (match fresh.stepAll (fresh.taken steps) with
      | .ok acc => acc.finish.equal (fresh.run steps).finish
      | .error _ => true) = false := by
    decide +kernel
  cases hs : fresh.stepAll (fresh.taken steps) with
  | error fault => simp [hs] at hdiffer
  | ok acc =>
    refine ⟨acc, rfl, fun he => ?_⟩
    have hself : (fresh.run steps).finish.equal (fresh.run steps).finish = true :=
      (Entry.equal_iff _ _).mpr Std.ReflCmp.compare_self
    simp only [hs, he] at hdiffer
    exact absurd (hdiffer.symm.trans hself) Bool.false_ne_true

end GraphQuery
