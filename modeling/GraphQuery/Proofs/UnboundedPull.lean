import GraphQuery.Plan.Progress

/-! Pulls whose loops have no bound and go round until they stop. Every pull of a plan ends, with
the only answer that the unbounded loops can give. A pull of an aggregation is told by its phase: it ends
at once, fails on a row below, or delivers a group. -/

namespace GraphQuery

/-- Pulls until a row is accepted, however often that takes. -/
inductive PullsUntil {σ : Type} (pulls : σ → Outcome Pulled × σ → Prop)
    (accepts : σ → Outcome Bool) : σ → Outcome Pulled × σ → Prop where
  | stopped {s t : σ} {answer : Outcome Pulled} (hs : pulls s (answer, t))
    (hn : answer ≠ .ok .row) : PullsUntil pulls accepts s (answer, t)
  | accepted {s t : σ} (hs : pulls s (.ok .row, t)) (ha : accepts t = .ok true) :
    PullsUntil pulls accepts s (.ok .row, t)
  | failed {s t : σ} {fault : Error} (hs : pulls s (.ok .row, t)) (ha : accepts t = .error fault) :
    PullsUntil pulls accepts s (.error fault, t)
  | skipped {s t : σ} {r : Outcome Pulled × σ} (hs : pulls s (.ok .row, t))
    (ha : accepts t = .ok false) (hr : PullsUntil pulls accepts t r) : PullsUntil pulls accepts s r

/-- Pulls every row and takes each in, however many there are. -/
inductive Drains {σ τ : Type} (pulls : σ → Outcome Pulled × σ → Prop)
    (take : σ → τ → Outcome Unit × τ) : σ → τ → Outcome Unit × τ × σ → Prop where
  | depleted {s s' : σ} {t : τ} (hs : pulls s (.ok .depleted, s')) :
    Drains pulls take s t (.ok (), t, s')
  | broken {s s' : σ} {t : τ} {fault : Error} (hs : pulls s (.error fault, s')) :
    Drains pulls take s t (.error fault, t, s')
  | failed {s s' : σ} {t t' : τ} {fault : Error} (hs : pulls s (.ok .row, s'))
    (ht : take s' t = (.error fault, t')) : Drains pulls take s t (.error fault, t', s')
  | taken {s s' : σ} {t t' : τ} {r : Outcome Unit × τ × σ} (hs : pulls s (.ok .row, s'))
    (ht : take s' t = (.ok (), t')) (hr : Drains pulls take s' t' r) : Drains pulls take s t r

section Loops

variable {σ τ : Type} {pull : σ → Outcome Pulled × σ} {measure : σ → Nat}

theorem pullsUntil_pullUntil (hp : Progresses pull measure) (accepts : σ → Outcome Bool)
    {fuel : Nat} {s : σ} (hf : measure s < fuel) :
    PullsUntil (fun s r => pull s = r) accepts s (pullUntil pull accepts fuel s) := by
  induction fuel generalizing s with
  | zero => omega
  | succ fuel ih =>
    rw [pullUntil]
    cases hs : pull s with
    | mk answer t =>
      by_cases hr : answer = .ok .row
      · subst hr
        have hlt : measure t < measure s := by simpa [hs] using (hp s).2
        dsimp only
        cases ha : accepts t with
        | error fault => exact .failed hs ha
        | ok accepted =>
          cases accepted with
          | true => exact .accepted hs ha
          | false => exact .skipped hs ha (ih (by omega))
      · rcases answer with _ | ⟨_ | _⟩
        · exact .stopped hs hr
        · exact absurd rfl hr
        · exact .stopped hs hr

theorem PullsUntil.pullUntil_eq (hp : Progresses pull measure) {accepts : σ → Outcome Bool}
    {s : σ} {r : Outcome Pulled × σ} (h : PullsUntil (fun s r => pull s = r) accepts s r)
    {fuel : Nat} (hf : measure s < fuel) : pullUntil pull accepts fuel s = r := by
  induction h generalizing fuel with
  | @stopped s t answer hs hn =>
    obtain _ | fuel := fuel
    · omega
    · rw [pullUntil, hs]
      rcases answer with _ | ⟨_ | _⟩
      · rfl
      · exact absurd rfl hn
      · rfl
  | accepted hs ha =>
    obtain _ | fuel := fuel
    · omega
    · simp only [pullUntil, hs, ha]
  | failed hs ha =>
    obtain _ | fuel := fuel
    · omega
    · simp only [pullUntil, hs, ha]
  | @skipped s t r hs ha hr ih =>
    obtain _ | fuel := fuel
    · omega
    · have hlt : measure t < measure s := by simpa [hs] using (hp s).2
      simp only [pullUntil, hs, ha]
      exact ih (by omega)

theorem pullsUntil_iff (hp : Progresses pull measure) (accepts : σ → Outcome Bool) (s : σ)
    (r : Outcome Pulled × σ) :
    PullsUntil (fun s r => pull s = r) accepts s r ↔
      pullUntil pull accepts (measure s + 1) s = r := by
  constructor
  · intro h
    exact h.pullUntil_eq hp (by omega)
  · rintro rfl
    exact pullsUntil_pullUntil hp accepts (by omega)

theorem PullsUntil.exists_depleted {accepts : σ → Outcome Bool} {s t : σ}
    {r : Outcome Pulled × σ} (h : PullsUntil (fun s r => pull s = r) accepts s r)
    (hr : r = (.ok .depleted, t)) : ∃ u, pull u = (.ok .depleted, t) := by
  induction h with
  | stopped hs hn => exact ⟨_, hs.trans hr⟩
  | accepted hs ha => cases hr
  | failed hs ha => cases hr
  | skipped hs ha h' ih => exact ih hr

theorem drains_drain (hp : Progresses pull measure) (take : σ → τ → Outcome Unit × τ)
    {fuel : Nat} {s : σ} {t : τ} (hf : measure s < fuel) :
    Drains (fun s r => pull s = r) take s t (drain pull take fuel s t) := by
  induction fuel generalizing s t with
  | zero => omega
  | succ fuel ih =>
    rw [drain]
    cases hs : pull s with
    | mk answer s' =>
      cases answer with
      | error fault => exact .broken hs
      | ok pulled =>
        cases pulled with
        | depleted => exact .depleted hs
        | row =>
          have hlt : measure s' < measure s := by simpa [hs] using (hp s).2
          dsimp only
          cases ht : take s' t with
          | mk result t' =>
            cases result with
            | error fault => exact .failed hs ht
            | ok => exact .taken hs ht (ih (by omega))

theorem Drains.drain_eq (hp : Progresses pull measure) {take : σ → τ → Outcome Unit × τ} {s : σ}
    {t : τ} {r : Outcome Unit × τ × σ} (h : Drains (fun s r => pull s = r) take s t r)
    {fuel : Nat} (hf : measure s < fuel) : drain pull take fuel s t = r := by
  induction h generalizing fuel with
  | depleted hs =>
    obtain _ | fuel := fuel
    · omega
    · simp only [drain, hs]
  | broken hs =>
    obtain _ | fuel := fuel
    · omega
    · simp only [drain, hs]
  | failed hs ht =>
    obtain _ | fuel := fuel
    · omega
    · simp only [drain, hs, ht]
  | @taken s s' t t' r hs ht hr ih =>
    obtain _ | fuel := fuel
    · omega
    · have hlt : measure s' < measure s := by simpa [hs] using (hp s).2
      simp only [drain, hs, ht]
      exact ih (by omega)

theorem drains_iff (hp : Progresses pull measure) (take : σ → τ → Outcome Unit × τ) (s : σ) (t : τ)
    (r : Outcome Unit × τ × σ) :
    Drains (fun s r => pull s = r) take s t r ↔ drain pull take (measure s + 1) s t = r := by
  constructor
  · intro h
    exact h.drain_eq hp (by omega)
  · rintro rfl
    exact drains_drain hp take (by omega)

end Loops

namespace Plan

/-- One pull, with the loops in it unbounded. -/
def Consumes (ctx : Context) : (plan : Plan) → Cursor plan → Outcome Pulled × Cursor plan → Prop
  | values rows, (c : Nat), r =>
    r = if c < rows.length then (.ok .row, (c + 1 : Nat)) else (.ok .depleted, c)
  | filter predicate child, c, r =>
    let accepts (c : Cursor child) : Outcome Bool :=
      (predicate.evaluate ctx (child.record c)).map Entry.isTrue
    PullsUntil (child.Consumes ctx) accepts c r
  | project items child, (record, c), r =>
    ∃ below, child.Consumes ctx c below ∧ projectAnswer ctx items child.record record below = r
  | aggregate grouping child, (s, c), r =>
    match s.phase with
    | .unprepared => r = (.error notPrepared, s, c)
    | .depleted => r = (.ok .depleted, s, c)
    | .delivering => r = ((s.deliver grouping ctx).1, (s.deliver grouping ctx).2, c)
    | .prepared =>
      let take (c : Cursor child) := grouping.addRow ctx (child.record c)
      ∃ below, Drains (child.Consumes ctx) take c s.groups below ∧ s.begin grouping ctx below = r

/-- A pull ends, in the only way that it can. -/
theorem consumes_iff (ctx : Context) (plan : Plan) (c : Cursor plan)
    (r : Outcome Pulled × Cursor plan) : plan.Consumes ctx c r ↔ plan.pull ctx c = r := by
  induction plan with
  | values rows => exact eq_comm
  | filter predicate child ih =>
    have hchild : child.Consumes ctx = fun c r => child.pull ctx c = r := by
      funext c r
      exact propext (ih c r)
    rw [Consumes, hchild]
    exact pullsUntil_iff (child.pull_progresses ctx) _ c r
  | project items child ih =>
    obtain ⟨record, c⟩ := c
    simp only [Consumes, ih, pull, exists_eq_left']
    exact Iff.rfl
  | aggregate grouping child ih =>
    obtain ⟨s, c⟩ := c
    have hchild : child.Consumes ctx = fun c r => child.pull ctx c = r := by
      funext c r
      exact propext (ih c r)
    rw [Consumes, pull, hchild]
    cases hp : s.phase with
    | prepared =>
      simp only [drains_iff (child.pull_progresses ctx), exists_eq_left']
      exact Iff.rfl
    | _ => exact eq_comm

/-- An aggregation takes in the rows below, unless it has them. No group is handed over yet. -/
inductive Fills (ctx : Context) (grouping : Grouping) (child : Plan) :
    GroupingState × Cursor child → GroupingState × Cursor child → Prop where
  | delivering {s : GroupingState} {c : Cursor child} (hs : s.phase = .delivering) :
    Fills ctx grouping child (s, c) (s, c)
  | prepared {s : GroupingState} {c d : Cursor child} {groups : List Group} (hs : s.phase = .prepared)
    (hd : Drains (fun c r => child.pull ctx c = r) (fun c => grouping.addRow ctx (child.record c))
      c s.groups (.ok (), groups, d)) :
    Fills ctx grouping child (s, c)
      ({ s with phase := .delivering, groups := grouping.complete groups }, d)

section Aggregations

variable {ctx : Context} {grouping : Grouping} {child : Plan}

theorem Fills.pull_eq {x full : GroupingState × Cursor child} (h : Fills ctx grouping child x full) :
    full.1.phase = .delivering ∧ (aggregate grouping child).pull ctx x =
      ((full.1.deliver grouping ctx).1, (full.1.deliver grouping ctx).2, full.2) := by
  cases h with
  | delivering hs =>
    refine ⟨hs, ?_⟩
    simp only [pull, hs]
    rfl
  | prepared hs hd =>
    have hdrain := (drains_iff (child.pull_progresses ctx) _ _ _ _).mp hd
    refine ⟨rfl, ?_⟩
    simp only [pull, hs, hdrain]
    rfl

theorem Fills.record_eq {x full : GroupingState × Cursor child} (h : Fills ctx grouping child x full) :
    full.1.record = x.1.record := by
  cases h <;> rfl

/-- What a pull of an aggregation can do, by the phase. -/
theorem aggregate_pull_cases (ctx : Context) (grouping : Grouping) (child : Plan)
    (x : GroupingState × Cursor child) :
    (x.1.phase = .unprepared ∧ (aggregate grouping child).pull ctx x = (.error notPrepared, x)) ∨
      (x.1.phase = .depleted ∧ (aggregate grouping child).pull ctx x = (.ok .depleted, x)) ∨
      (x.1.phase = .prepared ∧ ∃ fault groups d,
        Drains (fun c r => child.pull ctx c = r) (fun c => grouping.addRow ctx (child.record c)) x.2 x.1.groups
          (.error fault, groups, d) ∧
        (aggregate grouping child).pull ctx x = (.error fault, ({ x.1 with groups }, d))) ∨
      ∃ full, Fills ctx grouping child x full ∧ (aggregate grouping child).pull ctx x =
        ((full.1.deliver grouping ctx).1, ((full.1.deliver grouping ctx).2, full.2)) := by
  obtain ⟨s, c⟩ := x
  have hphase : s.phase = .unprepared ∨ s.phase = .depleted ∨ s.phase = .delivering ∨ s.phase = .prepared := by
    cases s.phase <;> simp
  rcases hphase with hs | hs | hs | hs
  · refine .inl ⟨hs, ?_⟩
    simp only [pull, hs]
    rfl
  · refine .inr (.inl ⟨hs, ?_⟩)
    simp only [pull, hs]
    rfl
  · exact .inr (.inr (.inr ⟨_, .delivering hs, (Fills.delivering hs).pull_eq.2⟩))
  · have hdrains := drains_drain (child.pull_progresses ctx)
      (fun c => grouping.addRow ctx (child.record c)) (t := s.groups) (Nat.lt_succ_self (child.remaining c))
    cases hr : drain (child.pull ctx) (fun c => grouping.addRow ctx (child.record c)) (child.remaining c + 1) c
      s.groups with
    | mk result below =>
      obtain ⟨groups, d⟩ := below
      rw [hr] at hdrains
      cases result with
      | error fault =>
        have hpull : (aggregate grouping child).pull ctx (s, c) =
            s.begin grouping ctx (.error fault, groups, d) := by
          simp only [pull, hs, hr]
          rfl
        exact .inr (.inr (.inl ⟨hs, fault, groups, d, hdrains, hpull⟩))
      | ok => exact .inr (.inr (.inr ⟨_, .prepared hs hdrains, (Fills.prepared hs hdrains).pull_eq.2⟩))

end Aggregations

end Plan

end GraphQuery
