import GraphQuery.Proofs.OutputRow

/-! The output of an aggregation as a function of the rows below it: these are split by their keys,
and each group makes one row. -/

namespace GraphQuery

section Reference

variable (symbols : SymbolTable) (config : AggregateConfig) (items : List ReturnItem) (ctx : Context)

/-- The key of a row: the values of the items without aggregate calls, in snapshots. -/
def referenceKey (row : Record) : Outcome GroupKey := do
  let keys := items.filter fun item => !item.aggregates
  let entries ← keys.mapM fun item => do
    return (← (Evaluator.ofExpr symbols item.expression).evaluate ctx row).snapshot
  return .ofEntries entries config.mode

/-- The rows of each group. No rows and no key are still one group, if the settings want it. -/
def referenceGroups (rows : List Record) : List (List Record) :=
  if rows.isEmpty && items.all ReturnItem.aggregates && config.emptyGlobalGroup then [[]]
  else classesBy (sameKey (referenceKey symbols config items ctx)) rows

def referenceRow (group : List Record) : Outcome Record :=
  (items.mapM (ReturnItem.entryOf symbols ctx group)).map Record.ofEntries

end Reference

theorem Delivery.mapM_of_collect {α : Type} {f : α → Outcome Record} {as : List α}
    {out : List Record} (h : collect (fun a => (f a).map some) none as = ⟨out, none⟩) :
    as.mapM f = .ok out := by
  induction as generalizing out with
  | nil =>
    obtain rfl : [] = out := by simpa [collect] using h
    rfl
  | cons a as ih =>
    rw [collect] at h
    cases ha : f a with
    | error fault => simp [ha, Except.map] at h
    | ok row =>
      simp only [ha, Except.map, Delivery.mk.injEq] at h
      obtain ⟨rfl, hf⟩ := h
      have hrest := ih (congrArg (Delivery.mk _) hf)
      exact Outcome.mapM_cons_eq_ok.mpr ⟨row, _, ha, hrest, rfl⟩

namespace Grouping

variable {symbols : SymbolTable} {config : AggregateConfig} {items : List ReturnItem}
  {s : Grouping} {ctx : Context}

theorem keyOf_eq (hs : s.IsOf symbols config items) :
    s.keyOf ctx = referenceKey symbols config items ctx := by
  funext row
  have hm := mapM_columnsOf symbols (fun item => !item.aggregates) items
    (fun e => do return (← e.evaluate ctx row).snapshot) 0
  simp only [keyOf, keysOf, hs.keys_eq, hs.config_eq, referenceKey]
  rw [hm]
  rfl

theorem gather_ok (hs : s.IsOf symbols config items) {rows : List Record} {groups : List Group}
    (h : s.gather ctx ⟨rows, none⟩ = .ok groups) :
    List.Forall₂ (s.Took ctx) (referenceGroups symbols config items ctx rows) groups ∧
      ∀ row ∈ rows, ∃ k, referenceKey symbols config items ctx row = .ok k := by
  rw [gather] at h
  cases hr : s.addRows ctx none [] rows with
  | error fault => simp [hr, Except.map] at h
  | ok added =>
    obtain rfl : s.complete added = groups := by simpa [hr, Except.map] using h
    have hstart : List.Forall₂ (s.Holds ctx) (classesBy (sameKey (s.keyOf ctx)) []) [] := by simp
    obtain ⟨hadded, hkeys⟩ := addRows_ok hstart hr
    rw [List.nil_append, keyOf_eq hs] at hadded
    rw [keyOf_eq hs] at hkeys
    refine ⟨?_, hkeys⟩
    have hempty : added.isEmpty = rows.isEmpty := by
      have hlength := hadded.length_eq
      rw [Bool.eq_iff_iff, List.isEmpty_iff, List.isEmpty_iff, ← List.length_eq_zero_iff, ← hlength,
        List.length_eq_zero_iff, classesBy_eq_nil_iff]
    have hnokeys : s.keys.isEmpty = items.all ReturnItem.aggregates := by
      rw [Bool.eq_iff_iff, List.isEmpty_iff, hs.keys_eq, columnsOf_eq_nil_iff, List.all_eq_true]
      simp
    rw [complete, referenceGroups, hempty, hnokeys, hs.config_eq]
    by_cases he : (rows.isEmpty && items.all ReturnItem.aggregates && config.emptyGlobalGroup) = true
    · rw [if_pos he, if_pos he]
      have hk : s.keys = [] := by
        rw [← List.isEmpty_iff, hnokeys]
        simp only [Bool.and_eq_true] at he
        exact he.1.2
      exact .cons (took_nil hk ctx) .nil
    · rw [if_neg he, if_neg he]
      exact hadded.imp fun _ _ => Holds.took

theorem outputs_ok (hs : s.IsOf symbols config items) {groups : List (List Record)}
    {gs : List Group} (hg : List.Forall₂ (s.Took ctx) groups gs) {out : List Record}
    (h : s.outputs ctx gs = ⟨out, none⟩) : groups.mapM (referenceRow symbols items ctx) = .ok out := by
  have hout := Outcome.mapM_eq_ok_iff.mp (Delivery.mapM_of_collect h)
  refine Outcome.mapM_eq_ok_iff.mpr (forall₂_trans (fun rows g row hrows hrow => ?_) hg hout)
  exact outputRow_ok hs hrows hrow

end Grouping

theorem Delivers.aggregate_ok {ctx : Context} {grouping : Grouping} {child : Plan}
    {s : GroupingState} {c : Cursor child} {rows out : List Record}
    (hrows : Delivers (child.pull ctx) child.record (child.prepare c) ⟨rows, none⟩)
    (hout : Delivers ((Plan.aggregate grouping child).pull ctx) (Plan.aggregate grouping child).record
      ((Plan.aggregate grouping child).prepare (s, c)) ⟨out, none⟩) :
    ∃ gs, grouping.gather ctx ⟨rows, none⟩ = .ok gs ∧ grouping.outputs ctx gs = ⟨out, none⟩ := by
  have h := hout.unique (Plan.aggregate_delivers ctx grouping child rfl rfl rfl hrows)
  cases hg : grouping.gather ctx ⟨rows, none⟩ with
  | error fault => simp [hg] at h
  | ok gs => exact ⟨gs, rfl, by simpa [hg] using h.symm⟩

theorem referenceGroups_partition (symbols : SymbolTable) (config : AggregateConfig)
    (items : List ReturnItem) (ctx : Context) (rows : List Record) :
    let groups := referenceGroups symbols config items ctx rows
    groups.flatten.Perm rows ∧ (∀ group ∈ groups, group.Sublist rows) ∧
      (groups.filterMap List.head?).Sublist rows ∧ (rows ≠ [] → [] ∉ groups) := by
  intro groups
  by_cases he : (rows.isEmpty && items.all ReturnItem.aggregates && config.emptyGlobalGroup) = true
  · obtain rfl : rows = [] := by
      simp only [Bool.and_eq_true, List.isEmpty_iff] at he
      exact he.1.1
    simp [groups, referenceGroups]
  · have hg : groups = classesBy (sameKey (referenceKey symbols config items ctx)) rows := if_neg he
    rw [hg]
    exact ⟨flatten_classesBy_perm rows, fun _ => sublist_of_mem_classesBy, classesBy_heads_sublist rows,
      fun _ => nil_notMem_classesBy rows⟩

theorem referenceGroups_keys {symbols : SymbolTable} {config : AggregateConfig}
    {items : List ReturnItem} {ctx : Context} {rows : List Record}
    (hk : ∀ row ∈ rows, ∃ k, referenceKey symbols config items ctx row = .ok k) :
    let same := sameKey (referenceKey symbols config items ctx)
    let groups := referenceGroups symbols config items ctx rows
    (∀ group ∈ groups, ∀ a ∈ group, ∀ b ∈ group, same a b = true) ∧
      groups.Pairwise fun g h => ∀ a ∈ g, ∀ b ∈ h, same a b = false := by
  intro same groups
  have hrefl : ∀ row ∈ rows, same row row = true := fun row hrow =>
    let ⟨_, hk⟩ := hk row hrow
    sameKey_refl hk
  by_cases he : (rows.isEmpty && items.all ReturnItem.aggregates && config.emptyGlobalGroup) = true
  · simp [groups, referenceGroups, he]
  · have hg : groups = classesBy same rows := if_neg he
    have hsymm : ∀ a b, same a b = true → same b a = true := fun _ _ => sameKey_symm
    have htrans : ∀ a b c, same a b = true → same b c = true → same a c = true :=
      fun _ _ _ => sameKey_trans
    rw [hg]
    refine ⟨fun group hgroup a ha b hb => ?_, classesBy_pairwise htrans rows⟩
    exact same_of_mem_class hsymm htrans hrefl hgroup ha hb

/-- Without a key all rows are one group. -/
theorem length_referenceGroups_of_no_key {symbols : SymbolTable} {config : AggregateConfig}
    {items : List ReturnItem} {ctx : Context} (hi : items.all ReturnItem.aggregates = true)
    (rows : List Record) :
    (referenceGroups symbols config items ctx rows).length =
      if rows.isEmpty && !config.emptyGlobalGroup then 0 else 1 := by
  obtain _ | ⟨row, rest⟩ := rows
  · cases he : config.emptyGlobalGroup <;> simp [referenceGroups, hi, he]
  · have hkey : ∀ r, referenceKey symbols config items ctx r = .ok (.ofEntries [] config.mode) := by
      intro r
      have hnone : (items.filter fun item => !item.aggregates) = [] := by simpa using hi
      simp only [referenceKey, hnone]
      rfl
    have hsame : ∀ a ∈ row :: rest, ∀ b ∈ row :: rest,
        sameKey (referenceKey symbols config items ctx) a b = true := by
      intro a _ b _
      exact sameKey_iff.mpr ⟨_, _, hkey a, hkey b, GroupKey.same_refl _⟩
    simp [referenceGroups, classesBy_of_all_same (List.cons_ne_nil row rest) hsame]

end GraphQuery
