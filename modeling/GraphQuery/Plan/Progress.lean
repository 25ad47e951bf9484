import GraphQuery.Plan.Pull

/-! Pulling makes progress: no pull adds to the rows that can still come, and a pulled row is
one less. So the loops of `pull` end by themselves before their bounds are met. -/

namespace GraphQuery

/-- A measure that no pull raises and that every pulled row lowers. -/
def Progresses {σ : Type} (pull : σ → Outcome Pulled × σ) (measure : σ → Nat) : Prop :=
  ∀ s, measure (pull s).2 ≤ measure s ∧ ((pull s).1 = .ok .row → measure (pull s).2 < measure s)

section Loops

variable {σ τ : Type} {pull : σ → Outcome Pulled × σ} {measure : σ → Nat}

theorem pullUntil_progress (progresses : Progresses pull measure)
    (accepts : σ → Outcome Bool) (fuel : Nat) (s : σ) :
    measure (pullUntil pull accepts fuel s).2 ≤ measure s ∧
      ((pullUntil pull accepts fuel s).1 = .ok .row →
        measure (pullUntil pull accepts fuel s).2 < measure s) := by
  induction fuel generalizing s with
  | zero => simp [pullUntil]
  | succ fuel ih =>
    have step := progresses s
    rw [pullUntil]
    split
    · rename_i t ht
      rw [ht] at step
      have less : measure t < measure s := step.2 rfl
      have rest := ih t
      split
      · exact ⟨by omega, fun _ => less⟩
      · exact ⟨by omega, fun h => by have := rest.2 h; omega⟩
      · simpa using Nat.le_of_lt less
    · exact step

/-- What is drained and what was pulled for it: where each row adds at most one to a size,
the size grows by no more than the measure shrinks. -/
theorem drain_size (progresses : Progresses pull measure) (take : σ → τ → Outcome Unit × τ)
    (size : τ → Nat) (grows : ∀ s t, size (take s t).2 ≤ size t + 1) (fuel : Nat) (s : σ)
    (t : τ) :
    size (drain pull take fuel s t).2.1 + measure (drain pull take fuel s t).2.2 ≤
      size t + measure s := by
  induction fuel generalizing s t with
  | zero => simp [drain]
  | succ fuel ih =>
    have step := progresses s
    rw [drain]
    split
    · rename_i s' hs
      rw [hs] at step
      have less : measure s' < measure s := step.2 rfl
      have growth := grows s' t
      split
      · rename_i t' ht
        rw [ht] at growth
        have := ih s' t'
        dsimp only at growth
        omega
      · rename_i t' ht
        rw [ht] at growth
        dsimp only at growth ⊢
        omega
    · rename_i s' hs
      rw [hs] at step
      have := step.1
      dsimp only at this ⊢
      omega
    · rename_i s' hs
      rw [hs] at step
      have := step.1
      dsimp only at this ⊢
      omega

end Loops

namespace Grouping

theorem length_route (ctx : Context) (row : Record) (new : Group) (groups : List Group) :
    (route ctx row new groups).2.length ≤ groups.length + 1 := by
  induction groups with
  | nil => simp [route]
  | cons g rest ih =>
    rw [route]
    split
    · simp
    · simpa using ih

theorem length_addRow (s : Grouping) (ctx : Context) (row : Record) (groups : List Group) :
    (s.addRow ctx row groups).2.length ≤ groups.length + 1 := by
  rw [addRow]
  split
  · simp
  · exact length_route ..

theorem length_complete (s : Grouping) (groups : List Group) :
    (s.complete groups).length ≤ groups.length + 1 := by
  rw [complete]
  split <;> simp

end Grouping

namespace Plan

theorem deliver_progress (ctx : Context) (grouping : Grouping) (child : Plan) {s : GroupingState}
    (delivering : s.phase = .delivering) (c : Cursor child) :
    remaining (aggregate grouping child) ((s.deliver grouping ctx).2, c) ≤
        s.groups.length - s.delivered ∧
      ((s.deliver grouping ctx).1 = .ok .row →
        remaining (aggregate grouping child) ((s.deliver grouping ctx).2, c) <
          s.groups.length - s.delivered) := by
  cases hg : s.groups[s.delivered]? with
  | none => simp [GroupingState.deliver_of_none hg, remaining]
  | some group =>
    have inside := (List.getElem?_eq_some_iff.mp hg).1
    cases ho : grouping.outputRow ctx group with
    | ok row =>
      simp [GroupingState.deliver_of_ok hg ho, remaining, delivering]
      omega
    | error fault => simp [GroupingState.deliver_of_error hg ho, remaining, delivering]

theorem pull_progresses (ctx : Context) (plan : Plan) :
    Progresses (plan.pull ctx) plan.remaining := by
  induction plan with
  | values rows =>
    intro (c : Nat)
    by_cases inside : c < rows.length
    · simp [pull, remaining, inside]
      omega
    · simp [pull, remaining, inside]
  | filter predicate child ih =>
    intro c
    exact pullUntil_progress ih _ _ c
  | project items child ih =>
    intro (record, c)
    have step := ih c
    rw [pull]
    cases hd : child.pull ctx c with
    | mk answer d =>
      rw [hd] at step
      cases answer with
      | error fault => exact step
      | ok pulled =>
        cases pulled with
        | row => exact ⟨step.1, fun _ => step.2 rfl⟩
        | depleted => exact step
  | aggregate grouping child ih =>
    intro (s, c)
    cases hp : s.phase with
    | unprepared => simp [pull, remaining, hp]
    | depleted => simp [pull, remaining, hp]
    | delivering =>
      have := deliver_progress ctx grouping child hp c
      simpa [pull, remaining, hp] using this
    | prepared =>
      have drained := drain_size ih (fun c => grouping.addRow ctx (child.record c)) List.length
        (fun c groups => grouping.length_addRow ctx (child.record c) groups)
        (child.remaining c + 1) c s.groups
      simp only [pull, hp]
      generalize drain (child.pull ctx) _ (child.remaining c + 1) c s.groups = answer at drained ⊢
      obtain ⟨result, groups, d⟩ := answer
      cases result with
      | error fault =>
        simp only [GroupingState.begin, remaining, hp] at drained ⊢
        exact ⟨by omega, by simp⟩
      | ok =>
        have most := grouping.length_complete groups
        let full : GroupingState := { s with phase := .delivering, groups := grouping.complete groups }
        have := deliver_progress ctx grouping child (s := full) rfl d
        simp only [GroupingState.begin, remaining, full, hp] at drained this ⊢
        exact ⟨by omega, fun h => by have := this.2 h; omega⟩

end Plan

end GraphQuery
