import GraphQuery.Proofs.BareCounts
import GraphQuery.Proofs.Gathering
import GraphQuery.Proofs.MixedOperands
import GraphQuery.Proofs.ReferenceGrouping

/-! Aggregation over rows in another order. Where items are keys or bare counts, the groups are the
same ones, and count the same. -/

namespace GraphQuery

section Counts

variable {symbols : SymbolTable} {config : AggregateConfig} {items : List ReturnItem} {ctx : Context}
  {grouping : Grouping} {rows rows' : List Record}

/-- Whether every item with an aggregate call is a bare count. -/
def CountsOnly (items : List ReturnItem) : Prop :=
  ∀ item ∈ items, item.aggregates = true → ∃ b : BareCount, item.expression = b.expr

/-- A row of which every key and every counted entry can be read. -/
structure Readable (symbols : SymbolTable) (config : AggregateConfig) (items : List ReturnItem)
    (ctx : Context) (row : Record) : Prop where
  key : ∃ k, referenceKey symbols config items ctx row = .ok k
  counted : ∀ item ∈ items, ∀ b : BareCount, item.expression = b.expr → ∃ x, b.Gives symbols ctx row x

theorem BareCount.containsAggregation_expr (b : BareCount) : b.expr.containsAggregation = true := by
  have hname : isAggregateName b.name = true := by rw [isAggregateName, b.registered, Option.isSome_some]
  rw [Expr.containsAggregation, expr, Expr.findings, fold_node]
  simp [findAt, Node.mapChildren, Findings.append, hname]

theorem readable_of_gather (hg : Grouping.ofItems symbols config items = .ok grouping) {groups : List Group}
    (h : grouping.gather ctx ⟨rows, none⟩ = .ok groups) :
    ∀ row ∈ rows, Readable symbols config items ctx row := by
  have hs := Grouping.isOf_of_ofItems hg
  obtain ⟨htook, hkeys⟩ := Grouping.gather_ok hs h
  intro row hrow
  refine ⟨hkeys row hrow, fun item hitem b hb => ?_⟩
  have hfree : ∀ operand ∈ b.operand, operand.callFree = true := by
    have hvalid := Grouping.validate_of_ofItems hg item hitem
    rw [hb] at hvalid
    intro operand hoperand
    exact Expr.callFree_of_validate hvalid operand (Option.mem_toList.mpr hoperand)
  -- the count of the row's group took the row
  obtain ⟨hperm, -⟩ := referenceGroups_partition symbols config items ctx rows
  obtain ⟨group, hgroup, hmem⟩ := List.mem_flatten.mp (hperm.mem_iff.mpr hrow)
  obtain ⟨g, -, hg⟩ := mem_left_of_forall₂ htook hgroup
  obtain ⟨i, hi⟩ := List.getElem?_of_mem hitem
  have ha : item.aggregates = true := by rw [ReturnItem.aggregates, hb, b.containsAggregation_expr]
  have hcolumn : (i, Evaluator.ofExpr symbols item.expression) ∈ grouping.aggregated := by
    rw [hs.aggregated_eq, mem_columnsOf]
    exact ⟨i, item, hi, ha, by rw [Nat.zero_add]⟩
  obtain ⟨e, -, hfed⟩ := mem_left_of_forall₂ hg.fed hcolumn
  rw [hb] at hfed
  exact BareCount.gives_of_aggregateAll hfree rfl rfl hfed row hmem

theorem exists_runs {item : ReturnItem} (hitem : item ∈ items) {b : BareCount} (hb : item.expression = b.expr)
    (h : ∀ row ∈ rows, Readable symbols config items ctx row) :
    ∃ entries fed, List.Forall₂ (b.Gives symbols ctx) rows entries ∧
      (Evaluator.ofExpr symbols item.expression).aggregateAll ctx rows = .ok fed ∧ b.Runs fed entries := by
  obtain ⟨entries, hentries⟩ := exists_forall₂ fun row hrow => (h row hrow).counted item hitem b hb
  obtain ⟨fed, hfed, hruns⟩ := BareCount.exists_aggregateAll hentries
  exact ⟨entries, fed, hentries, hb ▸ hfed, hruns⟩

theorem exists_count_of_mem (hs : grouping.IsOf symbols config items) (hitems : CountsOnly items)
    {p : Nat × Evaluator} (hp : p ∈ grouping.aggregated) :
    ∃ item ∈ items, ∃ b : BareCount, item.expression = b.expr ∧ p.2 = .ofExpr symbols item.expression := by
  rw [hs.aggregated_eq, mem_columnsOf] at hp
  obtain ⟨i, item, hi, ha, rfl⟩ := hp
  have hitem := List.mem_of_getElem? hi
  obtain ⟨b, hb⟩ := hitems item hitem ha
  exact ⟨item, hitem, b, hb, rfl⟩

theorem takes_of_readable (hs : grouping.IsOf symbols config items) (hitems : CountsOnly items)
    (h : ∀ row ∈ rows, Readable symbols config items ctx row) : grouping.Takes ctx rows := by
  intro p hp part hpart
  obtain ⟨item, hitem, b, hb, hp⟩ := exists_count_of_mem hs hitems hp
  obtain ⟨entries, fed, -, hfed, -⟩ := exists_runs hitem hb fun row hrow => h row (hpart hrow)
  exact ⟨fed, by rw [hp]; exact hfed⟩

theorem exists_outputRow (hs : grouping.IsOf symbols config items) (hitems : CountsOnly items) {g : Group}
    (h : ∀ row ∈ rows, Readable symbols config items ctx row) (hg : grouping.Took ctx rows g) :
    ∃ out, grouping.outputRow ctx g = .ok out := by
  refine Grouping.exists_writeResults (fun p hp => ?_) _
  obtain ⟨q, hq, -, hfed⟩ := mem_zip_of_forall₂ hg.fed Prod.fst hp
  obtain ⟨item, hitem, b, hb, hq⟩ := exists_count_of_mem hs hitems hq
  obtain ⟨entries, fed, -, hall, hruns⟩ := exists_runs hitem hb h
  have hfresh : q.2.fresh = .ofExpr symbols item.expression := by
    rw [hq]
    rfl
  rw [hfresh, hall] at hfed
  rw [← Except.ok.inj hfed, hruns.root]
  exact ⟨rfl, _, hruns.evaluate ctx g.last⟩

/-- Readable rows go through. -/
theorem exists_gather_outputs (hs : grouping.IsOf symbols config items) (hitems : CountsOnly items)
    (h : ∀ row ∈ rows, Readable symbols config items ctx row) :
    ∃ gs out, grouping.gather ctx ⟨rows, none⟩ = .ok gs ∧ grouping.outputs ctx gs = ⟨out, none⟩ := by
  have hkeys : ∀ row ∈ rows, ∃ k, grouping.keyOf ctx row = .ok k := by
    rw [Grouping.keyOf_eq hs]
    exact fun row hrow => (h row hrow).key
  obtain ⟨gs, hgather⟩ := Grouping.exists_gather (takes_of_readable hs hitems h) hkeys
  obtain ⟨htook, -⟩ := Grouping.gather_ok hs hgather
  obtain ⟨-, hsublist, -⟩ := referenceGroups_partition symbols config items ctx rows
  have houtput : ∀ g ∈ gs, ∃ out, grouping.outputRow ctx g = .ok out := by
    intro g hg
    obtain ⟨group, hgroup, htook⟩ := mem_right_of_forall₂ htook hg
    exact exists_outputRow hs hitems (fun row hrow => h row ((hsublist group hgroup).subset hrow)) htook
  obtain ⟨out, hout⟩ := Grouping.exists_outputs houtput
  exact ⟨gs, out, hgather, hout⟩

/-- Another order of the rows gives the same groups, up to the order of them and in them. -/
theorem referenceGroups_perm (hperm : rows.Perm rows')
    (hkeys : ∀ row ∈ rows, ∃ k, referenceKey symbols config items ctx row = .ok k) :
    ∃ mid, (referenceGroups symbols config items ctx rows).Perm mid ∧
      List.Forall₂ List.Perm mid (referenceGroups symbols config items ctx rows') := by
  have hempty : rows'.isEmpty = rows.isEmpty := by
    rw [Bool.eq_iff_iff, List.isEmpty_iff_length_eq_zero, List.isEmpty_iff_length_eq_zero, hperm.length_eq]
  rw [referenceGroups, referenceGroups, hempty]
  split
  · exact ⟨[[]], .refl _, .cons (.refl _) .nil⟩
  · let same := sameKey (referenceKey symbols config items ctx)
    have hsymm : ∀ a b, same a b = true → same b a = true := fun _ _ => sameKey_symm
    have htrans : ∀ a b c, same a b = true → same b c = true → same a c = true := fun _ _ _ => sameKey_trans
    have hrefl : ∀ row ∈ rows, same row row = true := by
      intro row hrow
      obtain ⟨k, hk⟩ := hkeys row hrow
      exact sameKey_refl hk
    exact classesBy_perm hsymm htrans hperm hrefl

/-- What an item of the key gives for a row. -/
def ReturnItem.keyEntry (symbols : SymbolTable) (ctx : Context) (row : Record) (item : ReturnItem) :
    Outcome Entry := do
  return (← (Evaluator.ofExpr symbols item.expression).evaluate ctx row).snapshot

theorem ReturnItem.entryOf_cons {item : ReturnItem} (hkey : item.aggregates = false) (row : Record)
    (rest : List Record) : item.entryOf symbols ctx (row :: rest) = item.keyEntry symbols ctx row := by
  simp only [entryOf, hkey, Bool.false_eq_true, if_false]
  rfl

/-- Rows with the same key have equal entries for each item of it. -/
theorem keyEntry_equal (hmode : config.mode = .structured) {a b : Record}
    (hsame : sameKey (referenceKey symbols config items ctx) a b = true) {item : ReturnItem}
    (hitem : item ∈ items) (hkey : item.aggregates = false) {x y : Entry}
    (hx : item.keyEntry symbols ctx a = .ok x) (hy : item.keyEntry symbols ctx b = .ok y) :
    x.equal y = true := by
  obtain ⟨k, l, hk, hl, hkl⟩ := sameKey_iff.mp hsame
  obtain ⟨xs, hxs, hk⟩ := Outcome.bind_eq_ok.mp hk
  obtain ⟨ys, hys, hl⟩ := Outcome.bind_eq_ok.mp hl
  rw [← Except.ok.inj hk, ← Except.ok.inj hl, hmode] at hkl
  have hequal : List.Forall₂ (fun x y => x.equal y = true) xs ys := equalEntries_iff_forall₂.mp hkl
  have hmem : item ∈ items.filter fun item => !item.aggregates := List.mem_filter.mpr ⟨hitem, by simp [hkey]⟩
  exact (Outcome.forall₂_mapM_iff hxs hys).mp hequal item hmem x y hx hy

theorem entryOf_count {item : ReturnItem} {b : BareCount} (hb : item.expression = b.expr) {entries : List Entry}
    (h : List.Forall₂ (b.Gives symbols ctx) rows entries) :
    item.entryOf symbols ctx rows = .ok (.constant (.int (Int64.ofNat (b.tally entries)))) := by
  have ha : item.aggregates = true := by rw [ReturnItem.aggregates, hb, b.containsAggregation_expr]
  obtain ⟨fed, hfed, hruns⟩ := BareCount.exists_aggregateAll h
  simp only [ReturnItem.entryOf, ha, if_true, hb, hfed]
  exact hruns.evaluate ctx _

theorem count_equal (hperm : rows.Perm rows') (h : ∀ row ∈ rows, Readable symbols config items ctx row)
    {item : ReturnItem} (hitem : item ∈ items) {b : BareCount} (hb : item.expression = b.expr) :
    item.entryOf symbols ctx rows = item.entryOf symbols ctx rows' := by
  have hread (row : Record) (hrow : row ∈ rows) : ∃ x, b.Gives symbols ctx row x :=
    (h row hrow).counted item hitem b hb
  obtain ⟨entries, hentries⟩ := exists_forall₂ hread
  obtain ⟨entries', hentries'⟩ := exists_forall₂ fun row hrow => hread row (hperm.mem_iff.mpr hrow)
  have hfunction : Relator.RightUnique (b.Gives symbols ctx) := by
    intro row x y hx hy
    exact Except.ok.inj ((hx []).symm.trans (hy []))
  have hmoved : entries.Perm entries' := List.rel_perm_imp hfunction hentries hentries' hperm
  rw [entryOf_count hb hentries, entryOf_count hb hentries', BareCount.tally_perm hmoved]

theorem entryOf_equal (hmode : config.mode = .structured) (hitems : CountsOnly items)
    (hperm : rows.Perm rows') (h : ∀ row ∈ rows, Readable symbols config items ctx row)
    (hsame : ∀ a ∈ rows, ∀ b ∈ rows, sameKey (referenceKey symbols config items ctx) a b = true)
    {item : ReturnItem} (hitem : item ∈ items) {x y : Entry} (hx : item.entryOf symbols ctx rows = .ok x)
    (hy : item.entryOf symbols ctx rows' = .ok y) : x.equal y = true := by
  by_cases ha : item.aggregates = true
  · obtain ⟨b, hb⟩ := hitems item hitem ha
    rw [count_equal hperm h hitem hb, hy] at hx
    rw [Except.ok.inj hx]
    exact x.equal_refl
  · rw [Bool.not_eq_true] at ha
    cases rows with
    | nil =>
      obtain rfl := hperm.nil_eq
      obtain rfl : x = y := Except.ok.inj (hx.symm.trans hy)
      exact x.equal_refl
    | cons a rest =>
      obtain ⟨a', rest', rfl⟩ : ∃ a' rest', rows' = a' :: rest' :=
        List.exists_cons_of_ne_nil fun hnil => by simp [hnil] at hperm
      have hmem : a' ∈ a :: rest := hperm.mem_iff.mpr List.mem_cons_self
      rw [ReturnItem.entryOf_cons ha] at hx hy
      exact keyEntry_equal hmode (hsame a List.mem_cons_self a' hmem) hitem ha hx hy

theorem referenceRow_equal (hmode : config.mode = .structured) (hitems : CountsOnly items)
    (hperm : rows.Perm rows') (h : ∀ row ∈ rows, Readable symbols config items ctx row)
    (hsame : ∀ a ∈ rows, ∀ b ∈ rows, sameKey (referenceKey symbols config items ctx) a b = true)
    {out out' : Record} (hout : referenceRow symbols items ctx rows = .ok out)
    (hout' : referenceRow symbols items ctx rows' = .ok out') : out.equal out' = true := by
  rw [referenceRow] at hout hout'
  cases hxs : items.mapM (ReturnItem.entryOf symbols ctx rows) with
  | error fault => simp [hxs, Except.map] at hout
  | ok xs =>
    cases hys : items.mapM (ReturnItem.entryOf symbols ctx rows') with
    | error fault => simp [hys, Except.map] at hout'
    | ok ys =>
      obtain rfl : Record.ofEntries xs = out := by simpa [hxs, Except.map] using hout
      obtain rfl : Record.ofEntries ys = out' := by simpa [hys, Except.map] using hout'
      have hentries : List.Forall₂ (fun x y => x.equal y = true) xs ys :=
        (Outcome.forall₂_mapM_iff hxs hys).mpr fun item hitem x y hx hy =>
          entryOf_equal hmode hitems hperm h hsame hitem hx hy
      simp [Record.equal, Record.ofEntries, equalEntries_iff_forall₂.mpr hentries]

end Counts

theorem Delivers.aggregate_of_gather {ctx : Context} {grouping : Grouping} {child : Plan} {s : GroupingState}
    {c : Cursor child} {rows out : List Record} {gs : List Group}
    (hrows : Delivers (child.pull ctx) child.record (child.prepare c) ⟨rows, none⟩)
    (hgather : grouping.gather ctx ⟨rows, none⟩ = .ok gs) (hout : grouping.outputs ctx gs = ⟨out, none⟩) :
    Delivers ((Plan.aggregate grouping child).pull ctx) (Plan.aggregate grouping child).record
      ((Plan.aggregate grouping child).prepare (s, c)) ⟨out, none⟩ := by
  have h : Delivers ((Plan.aggregate grouping child).pull ctx) (Plan.aggregate grouping child).record
      ((Plan.aggregate grouping child).prepare (s, c)) _ :=
    Plan.aggregate_delivers ctx grouping child rfl rfl rfl hrows
  simpa only [hgather, hout] using h

/-- Where every item is a key or a bare count, an aggregation by entries that succeeds over rows does so
over the same rows in any other order, with equal output rows up to the order of them. -/
theorem counts_ignore_row_order {symbols : SymbolTable} {config : AggregateConfig} {items : List ReturnItem}
    {grouping : Grouping} (hg : Grouping.ofItems symbols config items = .ok grouping)
    (hmode : config.mode = .structured) (hitems : CountsOnly items) {ctx : Context} {child child' : Plan}
    {s s' : GroupingState} {c : Cursor child} {c' : Cursor child'} {rows rows' out : List Record}
    (hperm : rows.Perm rows')
    (hrows : Delivers (child.pull ctx) child.record (child.prepare c) ⟨rows, none⟩)
    (hrows' : Delivers (child'.pull ctx) child'.record (child'.prepare c') ⟨rows', none⟩)
    (hout : Delivers ((Plan.aggregate grouping child).pull ctx) (Plan.aggregate grouping child).record
      ((Plan.aggregate grouping child).prepare (s, c)) ⟨out, none⟩) :
    ∃ out' moved, Delivers ((Plan.aggregate grouping child').pull ctx) (Plan.aggregate grouping child').record
        ((Plan.aggregate grouping child').prepare (s', c')) ⟨out', none⟩ ∧
      out.Perm moved ∧ List.Forall₂ (fun row row' => row.equal row' = true) moved out' := by
  have hs := Grouping.isOf_of_ofItems hg
  obtain ⟨gs, hgather, houtputs⟩ := hrows.aggregate_ok hout
  have hread : ∀ row ∈ rows, Readable symbols config items ctx row := readable_of_gather hg hgather
  have hread' : ∀ row ∈ rows', Readable symbols config items ctx row := fun row hrow =>
    hread row (hperm.mem_iff.mpr hrow)
  obtain ⟨gs', out', hgather', houtputs'⟩ := exists_gather_outputs hs hitems hread'
  have hdelivers := hrows'.aggregate_of_gather (s := s') hgather' houtputs'
  obtain ⟨htook, hkeys⟩ := Grouping.gather_ok hs hgather
  obtain ⟨htook', -⟩ := Grouping.gather_ok hs hgather'
  have hmap := Outcome.mapM_eq_ok_iff.mp (Grouping.outputs_ok hs htook houtputs)
  have hmap' := Outcome.mapM_eq_ok_iff.mp (Grouping.outputs_ok hs htook' houtputs')
  obtain ⟨hsame, -⟩ := referenceGroups_keys hkeys
  obtain ⟨-, hsublist, -⟩ := referenceGroups_partition symbols config items ctx rows
  obtain ⟨mid, hmid, hparts⟩ := referenceGroups_perm hperm hkeys
  obtain ⟨moved, hmoved, hequal⟩ : ∃ moved, out.Perm moved ∧
      List.Forall₂ (fun row row' => row.equal row' = true) moved out' := by
    refine exists_perm_forall₂ hmid hparts hmap hmap' fun group hgroup group' row row' hperm hrow hrow' => ?_
    have hpart : ∀ row ∈ group, Readable symbols config items ctx row := fun row hrow =>
      hread row ((hsublist group hgroup).subset hrow)
    exact referenceRow_equal hmode hitems hperm hpart (hsame group hgroup) hrow hrow'
  exact ⟨out', moved, hdelivers, hmoved, hequal⟩

/-- Two widths of one number are one group, whichever comes first. -/
theorem two_widths_count_in_either_order :
    let symbols := ((SymbolTable.empty.insert "k" .constant).1.insert "v" .constant).1
    let items : List ReturnItem := [⟨.node 0 (.reference "k"), "k"⟩,
      ⟨.node 2 (.aggregate "count" true [.node 1 (.reference "v")]), "n"⟩]
    let row (entries : List Value) := Record.ofEntries (entries.map .constant)
    let narrow := row [.scalar (.int8 1), .bool false]
    let plan (grouping : Grouping) := Plan.aggregate grouping (.values [narrow, row [.int 2, .null],
      row [.int 1, .bool true]])
    ∃ grouping out' moved, Grouping.ofItems symbols .default items = .ok grouping ∧
      Delivers ((plan grouping).pull (.ofGraph .empty)) (plan grouping).record
        ((plan grouping).prepare (plan grouping).start) ⟨out', none⟩ ∧
      [row [.int 1, .int 2], row [.int 2, .int 0]].Perm moved ∧
      List.Forall₂ (fun row row' => row.equal row' = true) moved out' := by
  intro symbols items row narrow plan
  let ctx := Context.ofGraph .empty
  let rows := [row [.int 1, .bool true], row [.int 2, .null], narrow]
  have hitems : CountsOnly items := by
    intro item hitem ha
    rcases List.mem_pair.mp hitem with rfl | rfl
    · exact absurd ha (by decide)
    · exact ⟨⟨2, "count", rfl, true, some (.node 1 (.reference "v"))⟩, rfl⟩
  obtain ⟨grouping, hg⟩ : ∃ g, Grouping.ofItems symbols .default items = .ok g := ⟨_, rfl⟩
  let first := Plan.aggregate grouping (.values rows)
  have hdelivery : first.delivery ctx = ⟨[row [.int 1, .int 2], row [.int 2, .int 0]], none⟩ := by
    simp only [first]
    obtain rfl := Except.ok.inj hg
    rfl
  have hout := Plan.delivers_delivery ctx first first.start
  rw [hdelivery] at hout
  have hrows := Plan.values_delivers ctx rows 0
  have hreversed := Plan.values_delivers ctx rows.reverse 0
  obtain ⟨out', moved, hdelivers, hmoved, hequal⟩ :=
    counts_ignore_row_order hg rfl hitems (List.reverse_perm rows).symm hrows hreversed hout
  exact ⟨grouping, out', moved, hg, hdelivers, hmoved, hequal⟩

end GraphQuery
