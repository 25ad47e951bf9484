import GraphQuery.Proofs.Routing

/-! When an aggregation goes through: the rows have keys, the evaluators of the groups take them, and
the results can be written. -/

namespace GraphQuery

namespace Group

variable {ctx : Context} {row : Record}

theorem exists_feedAll {es : List Evaluator} (h : ∀ e ∈ es, ∃ f, e.aggregate ctx row = (.ok (), f)) :
    ∃ fs, feedAll ctx row es = (.ok (), fs) := by
  induction es with
  | nil => exact ⟨[], rfl⟩
  | cons e es ih =>
    obtain ⟨⟨f, hf⟩, hrest⟩ := List.forall_mem_cons.mp h
    obtain ⟨fs, hfs⟩ := ih hrest
    exact ⟨f :: fs, by simp only [feedAll, hf, hfs]⟩

theorem exists_feed {g : Group} (h : ∀ e ∈ g.evaluators, ∃ f, e.aggregate ctx row = (.ok (), f)) :
    ∃ g', g.feed ctx row = (.ok (), g') := by
  obtain ⟨fs, hfs⟩ := exists_feedAll h
  exact ⟨{ g with evaluators := fs, last := row }, by simp only [feed, hfs]⟩

end Group

namespace Grouping

section Progress

variable {s : Grouping} {ctx : Context} {all rows : List Record} {row : Record}

/-- Every evaluator takes these rows, in whatever order and however often they come. -/
def Takes (s : Grouping) (ctx : Context) (all : List Record) : Prop :=
  ∀ p ∈ s.aggregated, ∀ rows, rows ⊆ all → ∃ e, p.2.fresh.aggregateAll ctx rows = .ok e

theorem Holds.exists_feed {g : Group} (hg : s.Holds ctx rows g) (ht : s.Takes ctx all) (hrows : rows ⊆ all)
    (hrow : row ∈ all) : ∃ g', g.feed ctx row = (.ok (), g') := by
  refine Group.exists_feed fun e he => ?_
  obtain ⟨p, hp, hfed⟩ := mem_right_of_forall₂ hg.fed he
  have hmore : rows ++ [row] ⊆ all := by simp [hrows, hrow]
  obtain ⟨f, hf⟩ := ht p hp (rows ++ [row]) hmore
  obtain ⟨e', he', hstep⟩ := Evaluator.aggregateAll_append_singleton_eq_ok.mp hf
  obtain rfl : e = e' := by simpa [hfed] using he'
  exact ⟨f, hstep⟩

theorem exists_feed_newGroup (ht : s.Takes ctx all) (hrow : row ∈ all) (keys : List Entry) :
    ∃ g, (s.newGroup keys row).feed ctx row = (.ok (), g) := by
  refine Group.exists_feed fun e he => ?_
  obtain ⟨p, hp, rfl⟩ := List.mem_map.mp he
  obtain ⟨f, hf⟩ := ht p hp [row] (by simpa using hrow)
  obtain ⟨next, hnext, -⟩ := Evaluator.aggregateAll_cons_eq_ok.mp hf
  exact ⟨next, hnext⟩

theorem exists_route {C : List (List Record)} {groups : List Group} (ht : s.Takes ctx all) (hrow : row ∈ all)
    (keys : List Entry) (hg : List.Forall₂ (s.Holds ctx) C groups) (hC : ∀ rows ∈ C, rows ⊆ all) :
    ∃ groups', route ctx row (s.newGroup keys row) groups = (.ok (), groups') := by
  induction hg with
  | nil =>
    obtain ⟨g, hg⟩ := exists_feed_newGroup ht hrow keys
    exact ⟨[g], by simp only [route, hg]⟩
  | @cons rows g C groups hrows hg ih =>
    obtain ⟨hfirst, hrest⟩ := List.forall_mem_cons.mp hC
    rw [route]
    by_cases hs : g.key.same (s.newGroup keys row).key = true
    · obtain ⟨g', hg'⟩ := hrows.exists_feed ht hfirst hrow
      exact ⟨g' :: groups, by simp only [hs, if_true, hg']⟩
    · obtain ⟨groups', hgroups⟩ := ih hrest
      exact ⟨g :: groups', by simp only [hs, hgroups]; rfl⟩

theorem exists_addRows {before : List Record} {groups : List Group} (ht : s.Takes ctx all)
    (hkeys : ∀ row ∈ all, ∃ k, s.keyOf ctx row = .ok k)
    (hg : List.Forall₂ (s.Holds ctx) (classesBy (sameKey (s.keyOf ctx)) before) groups)
    (hbefore : before ⊆ all) (hrows : rows ⊆ all) : ∃ groups', s.addRows ctx none groups rows = .ok groups' := by
  induction rows generalizing before groups with
  | nil => exact ⟨groups, rfl⟩
  | cons row rows ih =>
    obtain ⟨hrow, hrest⟩ := List.cons_subset.mp hrows
    have hadded : ∃ groups', s.addRow ctx row groups = (.ok (), groups') := by
      obtain ⟨k, hk⟩ := hkeys row hrow
      rw [addRow]
      cases hkeysOf : s.keysOf ctx row with
      | error fault => simp [keyOf, hkeysOf, Except.map] at hk
      | ok keys =>
        refine exists_route ht hrow keys hg fun C hC => ?_
        exact fun a ha => hbefore (mem_of_mem_classesBy hC ha)
    obtain ⟨groups', hgroups⟩ := hadded
    have hheld := (addRow_ok hg hgroups).1
    rw [← classesBy_append_singleton] at hheld
    obtain ⟨final, hfinal⟩ := ih hheld (by simp [hbefore, hrow]) hrest
    exact ⟨final, by rw [addRows, hgroups]; exact hfinal⟩

theorem exists_gather (ht : s.Takes ctx rows) (hkeys : ∀ row ∈ rows, ∃ k, s.keyOf ctx row = .ok k) :
    ∃ groups, s.gather ctx ⟨rows, none⟩ = .ok groups := by
  have hstart : List.Forall₂ (s.Holds ctx) (classesBy (sameKey (s.keyOf ctx)) []) [] := by simp
  have hrefl : rows ⊆ rows := List.Subset.refl rows
  obtain ⟨groups, hgroups⟩ := exists_addRows ht hkeys hstart (List.nil_subset rows) hrefl
  exact ⟨s.complete groups, by rw [gather, hgroups]; rfl⟩

theorem exists_writeResults {last : Record} {columns : List Nat} {es : List Evaluator}
    (h : ∀ p ∈ columns.zip es, checkOperands s.symbols p.2.root = .ok () ∧
      ∃ x, p.2.reduce.evaluate ctx last = .ok x)
    (row : Record) : ∃ out, (s.writeResults ctx last columns es row).1 = .ok out := by
  induction columns generalizing es row with
  | nil => exact ⟨row, by rw [writeResults]; simp⟩
  | cons column columns ih =>
    cases es with
    | nil => exact ⟨row, by rw [writeResults]; simp⟩
    | cons e es =>
      rw [List.zip_cons_cons] at h
      obtain ⟨⟨hcheck, x, hx⟩, hrest⟩ := List.forall_mem_cons.mp h
      have hresult : s.resultOf ctx last e.reduce = .ok x := resultOf_eq_ok.mpr ⟨hcheck, hx⟩
      obtain ⟨out, hout⟩ := ih hrest (row.set column x)
      exact ⟨out, by rw [writeResults_of_ok hresult]; exact hout⟩

theorem exists_outputs {groups : List Group} (h : ∀ g ∈ groups, ∃ out, s.outputRow ctx g = .ok out) :
    ∃ out, s.outputs ctx groups = ⟨out, none⟩ := by
  induction groups with
  | nil => exact ⟨[], rfl⟩
  | cons g groups ih =>
    obtain ⟨⟨row, hrow⟩, hrest⟩ := List.forall_mem_cons.mp h
    obtain ⟨out, hout⟩ := ih hrest
    refine ⟨row :: out, ?_⟩
    rw [outputs] at hout ⊢
    rw [Delivery.collect, hrow, hout]
    rfl

end Progress

end Grouping

end GraphQuery
