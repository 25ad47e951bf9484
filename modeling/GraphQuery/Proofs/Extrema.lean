import GraphQuery.Proofs.NumericOperands

/-! Max and min. The first number decides between NaN and the others: after a NaN nothing is better, and
after a number no NaN is. Among the numbers that are like the first one the result is the extreme. -/

namespace GraphQuery

/-- A step with a number or Null to take. -/
structure NumberStep where
  distinct : Bool
  operand : Value
  others : List Entry
  isNumber : operand.isNull = true ∨ operand.isNumeric = true

namespace NumberStep

def args (step : NumberStep) : List Entry :=
  .constant (.bool step.distinct) :: .constant step.operand :: step.others

def number? (step : NumberStep) : Option Double := step.operand.asDouble

theorem number?_eq_none_iff (step : NumberStep) : step.number? = none ↔ step.operand.isNull = true := by
  constructor
  · intro h
    have hsome : step.operand.isNumeric = false := by
      rw [← Value.isSome_asDouble]
      exact Option.isSome_eq_false_iff.mpr (Option.isNone_iff_eq_none.mpr h)
    rcases step.isNumber with hnull | hnumeric
    · exact hnull
    · rw [hsome] at hnumeric
      cases hnumeric
  · exact fun h => Entry.number?_of_isNull (x := .constant step.operand) h

end NumberStep

inductive Extreme where
  | greatest
  | least
deriving DecidableEq

namespace Extreme

def statistic : Extreme → Statistic
  | greatest => .max
  | least => .min

def beats : Extreme → Double → Double → Bool
  | greatest, x, best => best.less x
  | least, x, best => x.less best

/-- In the order of values, where NaN is above every other number, no `x` lies beyond `best`. -/
def Reaches : Extreme → Double → Double → Prop
  | greatest, best, x => (Scalar.double x).compare (.double best) ≠ .gt
  | least, best, x => (Scalar.double best).compare (.double x) ≠ .gt

def mark : Extreme → Double → Int
  | greatest, x => x.key
  | least, x => -x.key

variable {e : Extreme} {best x y : Double}

theorem compare_double (x y : Double) : (Scalar.double x).compare (.double y) = Ord.compare x.key y.key :=
  (Scalar.compare_of_numbers rfl rfl).trans (Number.compare_eq_key _ _)

theorem key_lt_of_isNaN (hx : x.isNaN = false) (hy : y.isNaN = true) : x.key < y.key := by
  rw [Binary.key_of_isNaN hy]
  exact Number.key_lt_of_number hx

theorem key_eq_of_isNaN (hx : x.isNaN = true) (hy : y.isNaN = true) : x.key = y.key := by
  rw [Binary.key_of_isNaN hx, Binary.key_of_isNaN hy]

theorem reaches_iff : e.Reaches best x ↔ e.mark x ≤ e.mark best := by
  cases e with
  | greatest =>
    rw [Reaches, compare_double, Ne, Int.compare_eq_gt]
    exact Int.not_lt
  | least =>
    rw [Reaches, compare_double, Ne, Int.compare_eq_gt, mark, mark]
    omega

theorem beats_eq (hx : x.isNaN = false) (hbest : best.isNaN = false) :
    e.beats x best = decide (e.mark best < e.mark x) := by
  cases e <;> simp [beats, mark, Binary.less, Binary.key_of_number, hx, hbest]

theorem beats_of_isNaN (h : x.isNaN = true ∨ best.isNaN = true) : e.beats x best = false := by
  rcases h with h | h <;> cases e <;> simp [beats, Binary.less, h]

theorem isNaN_eq_of_beats (h : e.beats x best = true) : x.isNaN = best.isNaN := by
  have hx : x.isNaN = false := by
    by_contra hx
    rw [beats_of_isNaN (.inl (by simpa using hx))] at h
    cases h
  have hbest : best.isNaN = false := by
    by_contra hbest
    rw [beats_of_isNaN (.inr (by simpa using hbest))] at h
    cases h
  rw [hx, hbest]

/-- NaN stands above the others, on the far side for the greatest only. -/
theorem reaches_iff_of_isNaN_ne (h : x.isNaN ≠ best.isNaN) :
    e.Reaches best x ↔ (best.isNaN = true ↔ e = .greatest) := by
  rw [reaches_iff]
  cases hbest : best.isNaN with
  | true =>
    have hx : x.isNaN = false := by simpa [hbest] using h
    have hlt := key_lt_of_isNaN hx hbest
    cases e <;> simp [mark] <;> omega
  | false =>
    have hx : x.isNaN = true := by simpa [hbest] using h
    have hlt := key_lt_of_isNaN hbest hx
    cases e <;> simp [mark] <;> omega

theorem reaches_of_isNaN (hx : x.isNaN = true) (hbest : best.isNaN = true) : e.Reaches best x := by
  have hkey := key_eq_of_isNaN hx hbest
  rw [reaches_iff]
  cases e <;> simp [mark, hkey]

/-- The best of the numbers after the first. -/
def pick (e : Extreme) (first : Double) (rest : List Double) : Double :=
  rest.foldl (fun best x => if e.beats x best then x else best) first

theorem ofNumbers_statistic (e : Extreme) (numbers : List Double) :
    e.statistic.ofNumbers numbers = match numbers with
      | [] => none
      | first :: rest => some (e.pick first rest) := by
  cases e <;> cases numbers <;> rfl

section Pick

variable {first : Double} {rest : List Double}

theorem pick_mem (e : Extreme) (first : Double) (rest : List Double) : e.pick first rest ∈ first :: rest := by
  induction rest generalizing first with
  | nil => exact List.mem_singleton_self _
  | cons x rest ih =>
    have hnext := ih (if e.beats x first then x else first)
    rw [pick, List.foldl_cons]
    rcases List.mem_cons.mp hnext with heq | hmem
    · rw [pick] at heq
      rw [heq]
      split <;> simp
    · exact List.mem_cons_of_mem _ (List.mem_cons_of_mem _ hmem)

theorem isNaN_pick (e : Extreme) (first : Double) (rest : List Double) :
    (e.pick first rest).isNaN = first.isNaN := by
  induction rest generalizing first with
  | nil => rfl
  | cons x rest ih =>
    rw [pick, List.foldl_cons]
    refine (ih _).trans ?_
    split
    · exact isNaN_eq_of_beats ‹_›
    · rfl

/-- After a number the result is the extreme of all numbers. -/
theorem mark_le_pick (hfirst : first.isNaN = false) (hx : x ∈ first :: rest) (hnumber : x.isNaN = false) :
    e.mark x ≤ e.mark (e.pick first rest) := by
  induction rest generalizing first x with
  | nil =>
    obtain rfl := List.mem_singleton.mp hx
    exact Int.le_refl _
  | cons y rest ih =>
    have hstep : e.pick first (y :: rest) = e.pick (if e.beats y first then y else first) rest := rfl
    rw [hstep]
    by_cases hbeats : e.beats y first = true
    · have hy : y.isNaN = false := (isNaN_eq_of_beats hbeats).trans hfirst
      have hlt : e.mark first < e.mark y := by simpa [beats_eq hy hfirst] using hbeats
      have hpicked := ih hy List.mem_cons_self hy
      rw [if_pos hbeats]
      rcases List.mem_cons.mp hx with rfl | hx
      · exact (hlt.trans_le hpicked).le
      · exact ih hy hx hnumber
    · rw [if_neg hbeats]
      rcases List.mem_cons.mp hx with rfl | hx
      · exact ih hfirst List.mem_cons_self hnumber
      · rcases List.mem_cons.mp hx with rfl | hx
        · have hle : e.mark x ≤ e.mark first := by simpa [beats_eq hnumber hfirst] using hbeats
          exact hle.trans (ih hfirst List.mem_cons_self hfirst)
        · exact ih hfirst (List.mem_cons_of_mem _ hx) hnumber

/-- Exactly which numbers the result bounds. -/
theorem pick_reaches_iff (hx : x ∈ first :: rest) : e.Reaches (e.pick first rest) x ↔
    x.isNaN = first.isNaN ∨ (first.isNaN = true ↔ e = .greatest) := by
  have hpick := isNaN_pick e first rest
  by_cases hsame : x.isNaN = first.isNaN
  · refine iff_of_true ?_ (.inl hsame)
    cases hfirst : first.isNaN with
    | true => exact reaches_of_isNaN (hsame.trans hfirst) (hpick.trans hfirst)
    | false => exact reaches_iff.mpr (mark_le_pick hfirst hx (hsame.trans hfirst))
  · have hother : x.isNaN ≠ (e.pick first rest).isNaN := fun h => hsame (h.trans hpick)
    rw [reaches_iff_of_isNaN_ne hother, hpick]
    simp [hsame]

end Pick

section Runs

variable {s : Sample}

theorem step_numbers (e : Extreme) (step : NumberStep) (s : Sample) :
    (Accumulator.statistic e.statistic s).step step.args =
      (.ok (), .statistic e.statistic (s.addPlain (.constant step.operand))) := by
  have hheeds : e.statistic.heedsDistinct = false := by cases e <;> rfl
  have hstep : e.statistic.step step.args s =
      s.offer e.statistic.name (step.distinct && e.statistic.heedsDistinct) (.constant step.operand) := rfl
  have hnumber : (Entry.constant step.operand).isNull = true ∨
      (Entry.constant step.operand).number?.isSome = true := by
    have hsome : (Entry.constant step.operand).number?.isSome = step.operand.isNumeric :=
      step.operand.isSome_asDouble
    rw [hsome]
    exact step.isNumber
  have hoffer : s.offer e.statistic.name false (.constant step.operand) = .ok (s.addPlain (.constant step.operand)) :=
    Sample.offer_plain_eq_ok.mpr ⟨hnumber, rfl⟩
  rw [hheeds, Bool.and_false, hoffer] at hstep
  exact Accumulator.map_eq_ok.mpr ⟨_, attempt_eq_ok.mpr hstep, rfl⟩

theorem stepAll_numbers (e : Extreme) (steps : List NumberStep) (s : Sample) :
    (Accumulator.statistic e.statistic s).stepAll (steps.map NumberStep.args) =
      .ok (.statistic e.statistic { s with numbers := s.numbers ++ steps.filterMap NumberStep.number? }) := by
  induction steps generalizing s with
  | nil => simp [Accumulator.stepAll]
  | cons step steps ih =>
    refine Accumulator.stepAll_cons_eq_ok.mpr ⟨_, step_numbers e step s, ?_⟩
    rw [ih]
    have hnumber : (Entry.constant step.operand).number? = step.number? := rfl
    cases hn : step.number? <;> simp [Sample.addPlain, hnumber, hn]

end Runs

/-- What an extreme gives for the numbers of its steps. -/
def result (e : Extreme) (steps : List NumberStep) : Entry :=
  .constant (Accumulator.ofNumber (e.statistic.ofNumbers (steps.filterMap NumberStep.number?)))

theorem result_of_cons {e : Extreme} {steps : List NumberStep} {first : Double} {rest : List Double}
    (h : steps.filterMap NumberStep.number? = first :: rest) :
    e.result steps = .constant (.double (e.pick first rest)) := by
  rw [result, h, ofNumbers_statistic]
  rfl

theorem result_of_nil {e : Extreme} {steps : List NumberStep}
    (h : steps.filterMap NumberStep.number? = []) : e.result steps = .null := by
  rw [result, h, ofNumbers_statistic]
  rfl

/-- In another order the result is the same where the first number is NaN in both or in neither. -/
theorem result_equal_iff {e : Extreme} {steps other : List NumberStep} (h : steps.Perm other) :
    (e.result steps).equal (e.result other) = true ↔
      (steps.filterMap NumberStep.number?).head?.map Binary.isNaN =
        (other.filterMap NumberStep.number?).head?.map Binary.isNaN := by
  have hnumbers := h.filterMap NumberStep.number?
  cases hs : steps.filterMap NumberStep.number? with
  | nil =>
    rw [hs] at hnumbers
    rw [result_of_nil hs, result_of_nil hnumbers.nil_eq.symm, ← hnumbers.nil_eq]
    exact iff_of_true (Entry.equal_refl _) rfl
  | cons first rest =>
    cases ho : other.filterMap NumberStep.number? with
    | nil =>
      rw [hs, ho] at hnumbers
      exact absurd hnumbers.eq_nil (List.cons_ne_nil _ _)
    | cons first' rest' =>
      rw [hs, ho] at hnumbers
      have hmem : e.pick first rest ∈ first' :: rest' := hnumbers.mem_iff.mp (pick_mem e first rest)
      have hmem' : e.pick first' rest' ∈ first :: rest := hnumbers.mem_iff.mpr (pick_mem e first' rest')
      have hpick := isNaN_pick e first rest
      have hpick' := isNaN_pick e first' rest'
      have hequal : (e.result steps).equal (e.result other) = true ↔
          (e.pick first rest).key = (e.pick first' rest').key := by
        rw [result_of_cons hs, result_of_cons ho, Entry.equal_iff]
        change (Scalar.double _).compare (.double _) = .eq ↔ _
        rw [compare_double, Int.compare_eq_eq]
      rw [hequal, List.head?_cons, List.head?_cons, Option.map_some, Option.map_some, Option.some.injEq]
      cases hfirst : first.isNaN <;> cases hfirst' : first'.isNaN
      · refine iff_of_true ?_ rfl
        have hle := mark_le_pick (e := e) hfirst' hmem (hpick.trans hfirst)
        have hge := mark_le_pick (e := e) hfirst hmem' (hpick'.trans hfirst')
        cases e <;> simp only [mark] at hle hge <;> omega
      · have hlt := key_lt_of_isNaN (hpick.trans hfirst) (hpick'.trans hfirst')
        exact iff_of_false hlt.ne Bool.false_ne_true
      · have hlt := key_lt_of_isNaN (hpick'.trans hfirst') (hpick.trans hfirst)
        exact iff_of_false hlt.ne' Bool.false_ne_true.symm
      · exact iff_of_true (key_eq_of_isNaN (hpick.trans hfirst) (hpick'.trans hfirst')) rfl

end Extreme

/-- The steps of an extreme succeed, and give Null just when all operands are Null. Else the result is one
of the numbers, is NaN just when the first of them is, and bounds those that are like the first in this;
a number on the other side of NaN it bounds only where NaN is on the side of the result. So another order
of the steps gives the same just when it starts alike. -/
theorem extremes_bound_what_is_like_the_first (e : Extreme) (steps : List NumberStep) :
    let fresh := Accumulator.start (.statistic e.statistic)
    let numbers := steps.filterMap NumberStep.number?
    ∃ acc, fresh.stepAll (steps.map NumberStep.args) = .ok acc ∧
      (acc.finish = .null ↔ ∀ step ∈ steps, step.operand.isNull = true) ∧
      (∀ first ∈ numbers.head?, ∃ best ∈ numbers, acc.finish = .constant (.double best) ∧
        best.isNaN = first.isNaN ∧
        ∀ x ∈ numbers, e.Reaches best x ↔
          x.isNaN = first.isNaN ∨ (first.isNaN = true ↔ e = .greatest)) ∧
      ∀ other : List NumberStep, other.Perm steps →
        ∃ acc', fresh.stepAll (other.map NumberStep.args) = .ok acc' ∧
          (acc'.finish.equal acc.finish = true ↔
            (other.filterMap NumberStep.number?).head?.map Binary.isNaN = numbers.head?.map Binary.isNaN) := by
  intro fresh numbers
  have hrun (steps : List NumberStep) : ∃ acc, fresh.stepAll (steps.map NumberStep.args) = .ok acc ∧
      acc.finish = e.result steps := by
    refine ⟨_, e.stepAll_numbers steps .empty, ?_⟩
    rw [Sample.empty, List.nil_append]
    rfl
  obtain ⟨acc, hacc, hfinish⟩ := hrun steps
  refine ⟨acc, hacc, ?_, fun first hfirst => ?_, fun other hother => ?_⟩
  · have hnull : numbers = [] ↔ ∀ step ∈ steps, step.operand.isNull = true := by
      rw [List.filterMap_eq_nil_iff]
      exact forall₂_congr fun step _ => step.number?_eq_none_iff
    rw [hfinish, ← hnull]
    refine ⟨fun h => ?_, Extreme.result_of_nil⟩
    cases hn : numbers with
    | nil => rfl
    | cons first rest =>
      rw [Extreme.result_of_cons hn] at h
      cases h
  · obtain ⟨rest, hn⟩ : ∃ rest, numbers = first :: rest := List.head?_eq_some_iff.mp hfirst
    rw [hn, hfinish]
    exact ⟨e.pick first rest, e.pick_mem first rest, Extreme.result_of_cons hn, e.isNaN_pick first rest,
      fun x hx => Extreme.pick_reaches_iff hx⟩
  · obtain ⟨acc', hacc', hfinish'⟩ := hrun other
    refine ⟨acc', hacc', ?_⟩
    rw [hfinish, hfinish']
    exact Extreme.result_equal_iff hother

/-- NaN is above one, and max gives it when it comes first, but not when it comes second. -/
theorem max_passes_over_later_nan :
    let step (x : Double) : List Entry := [.constant (.bool false), .constant (.double x)]
    let fresh := Accumulator.start (.statistic .max)
    let nan : Double := Binary.nan false
    (Scalar.double nan).compare (.double Double.one) = .gt ∧
      ∃ acc acc', fresh.stepAll [step Double.one, step nan] = .ok acc ∧
        fresh.stepAll [step nan, step Double.one] = .ok acc' ∧
        acc.finish = .constant (.double Double.one) ∧ acc'.finish = .constant (.double nan) ∧
        acc'.finish.equal acc.finish = false := by
  intro step fresh nan
  have hlater : Statistic.max.ofNumbers [Double.one, nan] = some Double.one := by decide +kernel
  have hfirst : Statistic.max.ofNumbers [nan, Double.one] = some nan := by decide +kernel
  refine ⟨by decide +kernel, .statistic .max ⟨[Double.one, nan], []⟩, .statistic .max ⟨[nan, Double.one], []⟩,
    rfl, rfl, ?_, ?_, by decide +kernel⟩
  · exact congrArg (fun x => Entry.constant (Accumulator.ofNumber x)) hlater
  · exact congrArg (fun x => Entry.constant (Accumulator.ofNumber x)) hfirst

end GraphQuery
