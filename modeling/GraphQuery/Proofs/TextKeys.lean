import GraphQuery.Proofs.HashTables
import GraphQuery.Proofs.KeyTexts
import GraphQuery.Proofs.ReferenceGrouping

/-! Aggregation by joined texts beside aggregation by entries. Where the keys are plain, the two tables
hold the same groups at every row, each under its own key. -/

namespace GraphQuery

/-- The same grouping by another kind of key. -/
def Grouping.withMode (mode : GroupKeyMode) (s : Grouping) : Grouping :=
  { s with config := { s.config with mode } }

/-- The same group under another kind of key. -/
def Group.rekey (mode : GroupKeyMode) (g : Group) : Group := { g with key := .ofEntries g.keys mode }

/-- A group under its own entries, which are plain and as many as there are items. -/
structure Group.Plain (width : Nat) (g : Group) : Prop where
  key : g.key = .ofEntries g.keys .structured
  width : g.keys.length = width
  plain : ∃ xs, PlainKeys g.keys xs

namespace Group

variable {g : Group} {width : Nat}

theorem feed_rekey (mode : GroupKeyMode) (g : Group) (ctx : Context) (row : Record) :
    (g.rekey mode).feed ctx row = (g.feed ctx row).map id (rekey mode) := by
  simp only [feed, rekey]
  cases feedAll ctx row g.evaluators with
  | mk result evaluators => cases result <;> rfl

theorem keys_feed (g : Group) (ctx : Context) (row : Record) : (g.feed ctx row).2.keys = g.keys := by
  rw [feed]
  cases feedAll ctx row g.evaluators with
  | mk result evaluators => cases result <;> rfl

theorem Plain.feed (h : g.Plain width) (ctx : Context) (row : Record) : (g.feed ctx row).2.Plain width := by
  have hkey := g.feed_key ctx row
  have hkeys := g.keys_feed ctx row
  exact ⟨by rw [hkey, hkeys, h.key], by rw [hkeys, h.width], by rw [hkeys]; exact h.plain⟩

theorem Plain.same_rekey {new : Group} (h : g.Plain width) (hn : new.Plain width) (mode : GroupKeyMode) :
    (g.rekey mode).key.same (new.rekey mode).key = g.key.same new.key := by
  obtain ⟨xs, hxs⟩ := h.plain
  obtain ⟨ys, hys⟩ := hn.plain
  have hl : g.keys.length = new.keys.length := h.width.trans hn.width.symm
  rw [rekey, rekey, hxs.same_ofEntries hys hl, h.key, hn.key]
  rfl

end Group

namespace Grouping

variable {s : Grouping} {ctx : Context} {row : Record} {new : Group} {groups : List Group} {width : Nat}

theorem addItem_withMode (mode : GroupKeyMode) (s : Grouping) (item : ReturnItem) :
    (s.withMode mode).addItem item = (s.addItem item).map (withMode mode) := by
  have hsymbols : (s.withMode mode).symbols = s.symbols := rfl
  rw [addItem, addItem, hsymbols]
  cases item.expression.findings.validate with
  | error fault => rfl
  | ok =>
    by_cases h : (Evaluator.ofExpr s.symbols item.expression).containsAggregation = true
    · simp only [h, if_true]
      rfl
    · simp only [h]
      rfl

theorem ofItems_withMode (mode : GroupKeyMode) (symbols : SymbolTable) (config : AggregateConfig)
    (items : List ReturnItem) :
    ofItems symbols { config with mode } items = (ofItems symbols config items).map (withMode mode) := by
  have hfold (s : Grouping) :
      items.foldlM addItem (s.withMode mode) = (items.foldlM addItem s).map (withMode mode) := by
    induction items generalizing s with
    | nil => rfl
    | cons item items ih =>
      rw [List.foldlM_cons, List.foldlM_cons, addItem_withMode]
      cases s.addItem item with
      | error fault => rfl
      | ok next => exact ih next
  exact hfold ⟨symbols, config, [], [], []⟩

theorem route_rekey (mode : GroupKeyMode) (hn : new.Plain width) (hg : ∀ g ∈ groups, g.Plain width) :
    route ctx row (new.rekey mode) (groups.map (Group.rekey mode)) =
      (route ctx row new groups).map id (List.map (Group.rekey mode)) := by
  induction groups with
  | nil =>
    simp only [route, List.map_nil, Group.feed_rekey]
    rfl
  | cons g groups ih =>
    have hrest := ih fun other ho => hg other (List.mem_cons_of_mem g ho)
    rw [List.map_cons, route, route, (hg g List.mem_cons_self).same_rekey hn, Group.feed_rekey, hrest]
    by_cases hs : g.key.same new.key = true
    · rw [if_pos hs, if_pos hs]
      rfl
    · rw [if_neg hs, if_neg hs]
      rfl

theorem plain_route (hn : new.Plain width) (hg : ∀ g ∈ groups, g.Plain width) :
    ∀ g ∈ (route ctx row new groups).2, g.Plain width := by
  induction groups with
  | nil =>
    intro g hm
    rw [List.mem_singleton.mp hm]
    exact hn.feed ctx row
  | cons g groups ih =>
    rw [route]
    by_cases hs : g.key.same new.key = true
    · rw [if_pos hs]
      intro other ho
      rcases List.mem_cons.mp ho with rfl | ho
      · exact (hg g List.mem_cons_self).feed ctx row
      · exact hg other (List.mem_cons_of_mem g ho)
    · rw [if_neg hs]
      intro other ho
      rcases List.mem_cons.mp ho with rfl | ho
      · exact hg _ List.mem_cons_self
      · exact ih (fun h hm => hg h (List.mem_cons_of_mem g hm)) other ho

/-- The entries of a row's key are plain, if the row has one. -/
def PlainAt (s : Grouping) (ctx : Context) (row : Record) : Prop :=
  ∀ keys, s.keysOf ctx row = .ok keys → ∃ xs, PlainKeys keys xs

theorem plain_newGroup (hmode : s.config.mode = .structured) (hrow : s.PlainAt ctx row) {keys : List Entry}
    (hk : s.keysOf ctx row = .ok keys) : (s.newGroup keys row).Plain s.keys.length := by
  refine ⟨?_, Outcome.length_of_mapM hk, hrow keys hk⟩
  rw [newGroup, hmode]

theorem addRow_withMode (mode : GroupKeyMode) (hmode : s.config.mode = .structured)
    (hrow : s.PlainAt ctx row) (hg : ∀ g ∈ groups, g.Plain s.keys.length) :
    (s.withMode mode).addRow ctx row (groups.map (Group.rekey mode)) =
      (s.addRow ctx row groups).map id (List.map (Group.rekey mode)) := by
  rw [addRow, addRow]
  have hkeys : (s.withMode mode).keysOf ctx row = s.keysOf ctx row := rfl
  rw [hkeys]
  cases hk : s.keysOf ctx row with
  | error fault => rfl
  | ok keys => exact route_rekey mode (plain_newGroup hmode hrow hk) hg

theorem plain_addRow (hmode : s.config.mode = .structured) (hrow : s.PlainAt ctx row)
    (hg : ∀ g ∈ groups, g.Plain s.keys.length) :
    ∀ g ∈ (s.addRow ctx row groups).2, g.Plain s.keys.length := by
  rw [addRow]
  cases hk : s.keysOf ctx row with
  | error fault => exact hg
  | ok keys => exact plain_route (plain_newGroup hmode hrow hk) hg

theorem addRows_withMode (mode : GroupKeyMode) (hmode : s.config.mode = .structured)
    (failure : Option Error) {rows : List Record} (hrows : ∀ row ∈ rows, s.PlainAt ctx row)
    (hg : ∀ g ∈ groups, g.Plain s.keys.length) :
    (s.withMode mode).addRows ctx failure (groups.map (Group.rekey mode)) rows =
      (s.addRows ctx failure groups rows).map (List.map (Group.rekey mode)) := by
  induction rows generalizing groups with
  | nil => cases failure <;> rfl
  | cons row rows ih =>
    have hrow := hrows row List.mem_cons_self
    have hnext := plain_addRow hmode hrow hg
    rw [addRows, addRows, addRow_withMode mode hmode hrow hg]
    cases hr : s.addRow ctx row groups with
    | mk result next =>
      rw [hr] at hnext
      cases result with
      | error fault => rfl
      | ok => exact ih (fun r hm => hrows r (List.mem_cons_of_mem row hm)) hnext

theorem complete_withMode (mode : GroupKeyMode) (s : Grouping) (groups : List Group) :
    (s.withMode mode).complete (groups.map (Group.rekey mode)) =
      (s.complete groups).map (Group.rekey mode) := by
  have hkeys : (s.withMode mode).keys = s.keys := rfl
  have hempty : (s.withMode mode).config.emptyGlobalGroup = s.config.emptyGlobalGroup := rfl
  rw [complete, complete, List.isEmpty_map, hkeys, hempty]
  split <;> rfl

theorem writeResults_withMode (mode : GroupKeyMode) (s : Grouping) (ctx : Context) (last : Record)
    (columns : List Nat) (es : List Evaluator) (row : Record) :
    (s.withMode mode).writeResults ctx last columns es row = s.writeResults ctx last columns es row := by
  induction columns generalizing es row with
  | nil => cases es <;> rfl
  | cons column columns ih =>
    cases es with
    | nil => rfl
    | cons e es =>
      simp only [writeResults, ih]
      rfl

theorem outputRow_rekey (mode : GroupKeyMode) (s : Grouping) (ctx : Context) (g : Group) :
    (s.withMode mode).outputRow ctx (g.rekey mode) = s.outputRow ctx g := by
  rw [outputRow_eq, writeResults_withMode, outputRow_eq]
  rfl

theorem outputs_rekey (mode : GroupKeyMode) (s : Grouping) (ctx : Context) (groups : List Group) :
    (s.withMode mode).outputs ctx (groups.map (Group.rekey mode)) = s.outputs ctx groups := by
  rw [outputs, outputs]
  induction groups with
  | nil => rfl
  | cons g groups ih => simp only [List.map_cons, Delivery.collect, outputRow_rekey, ih]

theorem plainAt_of_items {symbols : SymbolTable} {config : AggregateConfig} {items : List ReturnItem}
    (hs : s.IsOf symbols config items)
    (hrow : ∀ item ∈ items, item.aggregates = false → ∀ entry,
      (Evaluator.ofExpr symbols item.expression).evaluate ctx row = .ok entry → entry.isPlain = true) :
    s.PlainAt ctx row := by
  intro keys hkeys
  refine exists_forall₂ fun key hkey => ?_
  obtain ⟨p, hp, hkey⟩ := mem_right_of_forall₂ (Outcome.mapM_eq_ok_iff.mp hkeys) hkey
  rw [hs.keys_eq, mem_columnsOf] at hp
  obtain ⟨i, item, hi, ha, rfl⟩ := hp
  obtain ⟨entry, he, hkey⟩ := Outcome.bind_eq_ok.mp hkey
  obtain rfl : entry.snapshot = key := Except.ok.inj hkey
  have hitem : item.aggregates = false := by simpa using ha
  exact Entry.exists_plainKey (hrow item (List.mem_of_getElem? hi) hitem entry he)

end Grouping

theorem Plan.delivery_withMode (mode : GroupKeyMode) {grouping : Grouping} {child : Plan} {ctx : Context}
    (hmode : grouping.config.mode = .structured)
    (hrows : ∀ row ∈ (child.delivery ctx).rows, grouping.PlainAt ctx row) :
    (aggregate (grouping.withMode mode) child).delivery ctx = (aggregate grouping child).delivery ctx := by
  have hnone : ∀ g ∈ ([] : List Group), g.Plain grouping.keys.length := by simp
  have hadded := Grouping.addRows_withMode mode hmode (child.delivery ctx).failure hrows hnone
  simp only [delivery, Grouping.gather]
  rw [List.map_nil] at hadded
  rw [hadded]
  cases grouping.addRows ctx (child.delivery ctx).failure [] (child.delivery ctx).rows with
  | error fault => rfl
  | ok groups =>
    simp only [Except.map, Grouping.complete_withMode]
    exact Grouping.outputs_rekey mode grouping ctx _

/-- Where every group-by value of the rows below is Null, a boolean, an integer, a node or a
relationship, aggregation by texts and aggregation by entries are built alike and deliver the same:
the same rows in the same order, and the same failure. -/
theorem text_keys_deliver_as_entries (symbols : SymbolTable) (config : AggregateConfig)
    (items : List ReturnItem) (ctx : Context) (child : Plan)
    (hplain : ∀ row ∈ (child.delivery ctx).rows, ∀ item ∈ items, item.aggregates = false → ∀ entry,
      (Evaluator.ofExpr symbols item.expression).evaluate ctx row = .ok entry → entry.isPlain = true) :
    let build (mode : GroupKeyMode) := Grouping.ofItems symbols { config with mode } items
    (∀ fault, build .text = .error fault ↔ build .structured = .error fault) ∧
      ∀ text structured, build .text = .ok text → build .structured = .ok structured →
        ∀ c c' d,
          Delivers ((Plan.aggregate text child).pull ctx) (Plan.aggregate text child).record
              ((Plan.aggregate text child).prepare c) d ↔
            Delivers ((Plan.aggregate structured child).pull ctx) (Plan.aggregate structured child).record
              ((Plan.aggregate structured child).prepare c') d := by
  intro build
  have hbuild : build .text = (build .structured).map (Grouping.withMode .text) :=
    Grouping.ofItems_withMode .text symbols { config with mode := .structured } items
  constructor
  · intro fault
    rw [hbuild]
    cases build .structured <;> simp [Except.map]
  · intro text structured htext hstructured c c' d
    obtain rfl : structured.withMode .text = text := by
      rw [hbuild, hstructured] at htext
      exact Except.ok.inj htext
    have hs := Grouping.isOf_of_ofItems hstructured
    have hmode : structured.config.mode = .structured := by rw [hs.config_eq]
    have hrows : ∀ row ∈ (child.delivery ctx).rows, structured.PlainAt ctx row := fun row hr =>
      Grouping.plainAt_of_items hs (hplain row hr)
    have hsame := Plan.delivery_withMode .text hmode hrows
    have htexts := Plan.delivers_delivery ctx (.aggregate (structured.withMode .text) child) c
    have hentries := Plan.delivers_delivery ctx (.aggregate structured child) c'
    rw [hsame] at htexts
    constructor
    · intro h
      rwa [h.unique htexts]
    · intro h
      rwa [h.unique hentries]

/-- Two widths of one number, with a relationship of a negative id between them. -/
theorem text_keys_join_two_widths :
    let symbols := (SymbolTable.empty.insert "v" .constant).1
    let items : List ReturnItem :=
      [⟨.node 0 (.reference "v"), "v"⟩, ⟨.node 1 (.aggregate "count" false []), "n"⟩]
    let narrow : Entry := .constant (.scalar (.int8 1))
    let edge : Entry := .relationshipSnapshot ⟨-1, 2, -3⟩
    let child := Plan.values ([narrow, edge, .constant (.int 1)].map fun entry => Record.ofEntries [entry])
    let out := [Record.ofEntries [narrow, .constant (.int 2)], Record.ofEntries [edge, .constant (.int 1)]]
    ∃ text, Grouping.ofItems symbols { AggregateConfig.default with mode := .text } items = .ok text ∧
      Delivers ((Plan.aggregate text child).pull (.ofGraph .empty)) (Plan.aggregate text child).record
        ((Plan.aggregate text child).prepare (Plan.aggregate text child).start) ⟨out, none⟩ := by
  intro symbols items narrow edge child out
  let ctx := Context.ofGraph .empty
  have hplain : ∀ row ∈ (child.delivery ctx).rows, ∀ item ∈ items, item.aggregates = false → ∀ entry,
      (Evaluator.ofExpr symbols item.expression).evaluate ctx row = .ok entry → entry.isPlain = true := by
    intro row hrow item hitem ha entry he
    obtain ⟨given, hgiven, rfl⟩ := List.mem_map.mp hrow
    have hgiven' : given = narrow ∨ given = edge ∨ given = .constant (.int 1) := by simpa using hgiven
    rcases List.mem_pair.mp hitem with rfl | rfl
    · have hread : (Evaluator.ofExpr symbols (.node 0 (.reference "v"))).evaluate ctx
          (Record.ofEntries [given]) = .ok given := by
        rcases hgiven' with rfl | rfl | rfl <;> rfl
      rw [hread] at he
      obtain rfl := Except.ok.inj he
      rcases hgiven' with rfl | rfl | rfl <;> rfl
    · exact absurd ha (by decide)
  let build (mode : GroupKeyMode) := Grouping.ofItems symbols { AggregateConfig.default with mode } items
  obtain ⟨structured, hstructured⟩ : ∃ g, build .structured = .ok g := ⟨_, rfl⟩
  obtain ⟨text, htext⟩ : ∃ g, build .text = .ok g := ⟨_, rfl⟩
  have halike := (text_keys_deliver_as_entries symbols .default items ctx child hplain).2
    text structured htext hstructured (Plan.aggregate text child).start
    (Plan.aggregate structured child).start ⟨out, none⟩
  have hdelivery : (Plan.aggregate structured child).delivery ctx = ⟨out, none⟩ := by
    obtain rfl := Except.ok.inj hstructured
    rfl
  have hout := Plan.delivers_delivery ctx (.aggregate structured child) (Plan.aggregate structured child).start
  rw [hdelivery] at hout
  exact ⟨text, htext, halike.mpr hout⟩

end GraphQuery
