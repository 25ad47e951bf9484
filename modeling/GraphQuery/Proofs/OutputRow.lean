import GraphQuery.Proofs.Routing

/-! Output rows: each declared column holds what its item gives for the rows of the group. -/

namespace GraphQuery

namespace ReturnItem

def aggregates (item : ReturnItem) : Bool := item.expression.containsAggregation

/-- What an item gives for the rows of a group: its value on the first of them in a snapshot, or,
when it has aggregate calls, what they make of all rows, evaluated on the last. -/
def entryOf (symbols : SymbolTable) (ctx : Context) (rows : List Record) (item : ReturnItem) :
    Outcome Entry :=
  let e := Evaluator.ofExpr symbols item.expression
  let blank := Record.new symbols.size
  if item.aggregates then do
    let fed ← e.aggregateAll ctx rows
    fed.reduce.evaluate ctx (rows.getLast?.getD blank)
  else return (← e.evaluate ctx (rows.head?.getD blank)).snapshot

end ReturnItem

/-- Evaluators of the items that `keep` accepts, with their columns. -/
def columnsOf (symbols : SymbolTable) (keep : ReturnItem → Bool) :
    Nat → List ReturnItem → List (Nat × Evaluator)
  | _, [] => []
  | column, item :: rest =>
    let later := columnsOf symbols keep (column + 1) rest
    if keep item then (column, .ofExpr symbols item.expression) :: later else later

section Columns

variable {symbols : SymbolTable} {keep : ReturnItem → Bool} {items : List ReturnItem}

theorem mem_columnsOf {first : Nat} {p : Nat × Evaluator} :
    p ∈ columnsOf symbols keep first items ↔
      ∃ i item, items[i]? = some item ∧ keep item = true ∧
        p = (first + i, .ofExpr symbols item.expression) := by
  induction items generalizing first with
  | nil => simp [columnsOf]
  | cons item items ih =>
    have hshift : (∃ i other, (item :: items)[i]? = some other ∧ keep other = true ∧
        p = (first + i, Evaluator.ofExpr symbols other.expression)) ↔
        (keep item = true ∧ p = (first, Evaluator.ofExpr symbols item.expression)) ∨
          ∃ i other, items[i]? = some other ∧ keep other = true ∧
            p = (first + 1 + i, Evaluator.ofExpr symbols other.expression) := by
      constructor
      · rintro ⟨_ | i, other, hi, hk, hp⟩
        · obtain rfl : item = other := by simpa using hi
          exact .inl ⟨hk, hp⟩
        · exact .inr ⟨i, other, by simpa using hi, hk, by rw [hp, Nat.add_right_comm]; rfl⟩
      · rintro (⟨hk, hp⟩ | ⟨i, other, hi, hk, hp⟩)
        · exact ⟨0, item, rfl, hk, hp⟩
        · exact ⟨i + 1, other, by simpa using hi, hk, by rw [hp, Nat.add_right_comm]; rfl⟩
    rw [hshift, columnsOf, ← ih]
    by_cases hk : keep item = true <;> simp [hk]

theorem columnsOf_eq_nil_iff {first : Nat} :
    columnsOf symbols keep first items = [] ↔ ∀ item ∈ items, keep item = false := by
  induction items generalizing first with
  | nil => simp [columnsOf]
  | cons item items ih => by_cases hk : keep item = true <;> simp [columnsOf, hk, ih]

end Columns

theorem mapM_columnsOf {β : Type} (symbols : SymbolTable) (keep : ReturnItem → Bool)
    (items : List ReturnItem) (f : Evaluator → Outcome β) (first : Nat) :
    ((columnsOf symbols keep first items).mapM fun p => f p.2) =
      (items.filter keep).mapM fun item => f (.ofExpr symbols item.expression) := by
  induction items generalizing first with
  | nil => rfl
  | cons item items ih =>
    by_cases hk : keep item = true
    · simp [columnsOf, hk, List.mapM_cons, ih]
    · simp [columnsOf, hk, ih]

namespace Grouping

theorem addItem_ok {s t : Grouping} {item : ReturnItem} (h : s.addItem item = .ok t) :
    t.symbols = s.symbols ∧ t.config = s.config ∧ t.aliases = s.aliases ++ [item.name] ∧
      t.keys = s.keys ++ columnsOf s.symbols (fun i => !i.aggregates) s.aliases.length [item] ∧
      t.aggregated = s.aggregated ++ columnsOf s.symbols (·.aggregates) s.aliases.length [item] := by
  obtain ⟨-, -, h⟩ := Outcome.bind_eq_ok.mp h
  by_cases ha : item.aggregates = true
  · have hc : (Evaluator.ofExpr s.symbols item.expression).containsAggregation = true := ha
    simp only [hc, if_true] at h
    cases h
    simp [columnsOf, ha]
  · have hc : (Evaluator.ofExpr s.symbols item.expression).containsAggregation = false :=
      Bool.eq_false_iff.mpr ha
    simp only [hc] at h
    cases h
    simp [columnsOf, ha]

theorem addItems_ok {s t : Grouping} {items : List ReturnItem}
    (h : items.foldlM addItem s = .ok t) :
    t.symbols = s.symbols ∧ t.config = s.config ∧ t.aliases = s.aliases ++ items.map (·.name) ∧
      t.keys = s.keys ++ columnsOf s.symbols (fun i => !i.aggregates) s.aliases.length items ∧
      t.aggregated = s.aggregated ++ columnsOf s.symbols (·.aggregates) s.aliases.length items := by
  induction items generalizing s with
  | nil =>
    obtain rfl : s = t := by simpa [pure, Except.pure] using h
    simp [columnsOf]
  | cons item items ih =>
    rw [List.foldlM_cons] at h
    obtain ⟨u, hu, h⟩ := Outcome.bind_eq_ok.mp h
    obtain ⟨hs, hc, ha, hk, hg⟩ := addItem_ok hu
    obtain ⟨hs', hc', ha', hk', hg'⟩ := ih h
    rw [hs, ha, List.length_append, List.length_singleton] at hk' hg'
    refine ⟨hs'.trans hs, hc'.trans hc, by rw [ha', ha]; simp, ?_, ?_⟩
    · rw [hk', hk, List.append_assoc]
      simp only [columnsOf]
      split <;> rfl
    · rw [hg', hg, List.append_assoc]
      simp only [columnsOf]
      split <;> rfl

structure IsOf (s : Grouping) (symbols : SymbolTable) (config : AggregateConfig)
    (items : List ReturnItem) : Prop where
  symbols_eq : s.symbols = symbols
  config_eq : s.config = config
  width_eq : s.width = items.length
  keys_eq : s.keys = columnsOf symbols (fun item => !item.aggregates) 0 items
  aggregated_eq : s.aggregated = columnsOf symbols (fun item => item.aggregates) 0 items

theorem isOf_of_ofItems {symbols : SymbolTable} {config : AggregateConfig}
    {items : List ReturnItem} {s : Grouping} (h : ofItems symbols config items = .ok s) :
    s.IsOf symbols config items := by
  obtain ⟨hs, hc, ha, hk, hg⟩ := addItems_ok h
  exact ⟨hs, hc, by simp [width, ha], by simpa using hk, by simpa using hg⟩

end Grouping

def Record.setAll (row : Record) (columns : List (Nat × Entry)) : Record :=
  columns.foldl (fun row p => row.set p.1 p.2) row

/-- Where each column is set to what `f` says, in whatever order and however often, it holds
that. -/
theorem Record.setAll_eq {f : Nat → Entry} {columns : List (Nat × Entry)} {row : Record}
    (h : ∀ p ∈ columns, p.1 < row.width ∧ p.2 = f p.1) :
    (row.setAll columns).width = row.width ∧ (row.setAll columns).nullMarker = row.nullMarker ∧
      ∀ i, i ∈ columns.map Prod.fst ∨ row.entries[i]? = some (f i) →
        (row.setAll columns).entries[i]? = some (f i) := by
  induction columns generalizing row with
  | nil => simp [setAll]
  | cons p columns ih =>
    obtain ⟨hlt, hp⟩ := h p (by simp)
    have hset := Record.set_of_lt hlt p.2
    have hw : (row.set p.1 p.2).width = row.width := by simp [hset, width]
    obtain ⟨hwidth, hmark, hget⟩ := @ih (row.set p.1 p.2) fun q hq => by
      rw [hw]
      exact h q (List.mem_cons_of_mem p hq)
    refine ⟨hwidth.trans hw, by rw [setAll, List.foldl_cons]; exact hmark.trans (by rw [hset]),
      fun i hi => hget i ?_⟩
    by_cases hip : i = p.1
    · subst hip
      right
      rw [hset, List.getElem?_set_self hlt, hp]
    · rw [hset, List.getElem?_set_ne (Ne.symm hip)]
      simpa [hip] using hi

namespace Grouping

theorem writeResults_ok {s : Grouping} {ctx : Context} {last : Record} {columns : List Nat}
    {es : List Evaluator} {row out : Record} (h : (s.writeResults ctx last columns es row).1 = .ok out) :
    ∃ entries, List.Forall₂ (fun p x => p.2.reduce.evaluate ctx last = .ok x) (columns.zip es) entries ∧
      out = row.setAll (((columns.zip es).map Prod.fst).zip entries) := by
  induction columns generalizing es row with
  | nil =>
    obtain rfl : row = out := by simpa [writeResults] using h
    exact ⟨[], .nil, rfl⟩
  | cons column columns ih =>
    cases es with
    | nil =>
      obtain rfl : row = out := by simpa [writeResults] using h
      exact ⟨[], .nil, rfl⟩
    | cons e es =>
      cases hx : s.resultOf ctx last e.reduce with
      | error fault => simp [writeResults_of_error hx] at h
      | ok x =>
        rw [writeResults_of_ok hx] at h
        obtain ⟨xs, hxs, rfl⟩ := ih h
        exact ⟨x :: xs, .cons (resultOf_eq_ok.mp hx).2 hxs, rfl⟩

/-- A group took rows, perhaps none. -/
structure Took (s : Grouping) (ctx : Context) (rows : List Record) (g : Group) : Prop where
  keys : s.keysOf ctx (rows.head?.getD (Record.new s.symbols.size)) = .ok g.keys
  fed : List.Forall₂ (fun p e => p.2.fresh.aggregateAll ctx rows = .ok e) s.aggregated g.evaluators
  last : g.last = rows.getLast?.getD (Record.new s.symbols.size)

theorem Holds.took {s : Grouping} {ctx : Context} {rows : List Record} {g : Group}
    (h : s.Holds ctx rows g) : s.Took ctx rows g := by
  obtain ⟨first, hfirst, hk⟩ := h.keys
  exact ⟨by rw [hfirst]; exact hk, h.fed, by rw [h.last]; rfl⟩

theorem took_nil {s : Grouping} (hk : s.keys = []) (ctx : Context) :
    s.Took ctx [] (s.newGroup [] (Record.new s.symbols.size)) := by
  refine ⟨by rw [keysOf, hk]; rfl, ?_, rfl⟩
  simp only [newGroup, List.forall₂_map_right_iff, List.forall₂_same]
  exact fun p _ => rfl

end Grouping

namespace Grouping

section Output

variable {symbols : SymbolTable} {config : AggregateConfig} {items : List ReturnItem}
  {s : Grouping} {ctx : Context} {rows : List Record} {g : Group}

/-- A column of the output with the entry that the item declared there gives. -/
def Declared (symbols : SymbolTable) (items : List ReturnItem) (ctx : Context)
    (rows : List Record) (p : Nat × Entry) : Prop :=
  ∃ item, items[p.1]? = some item ∧ item.entryOf symbols ctx rows = .ok p.2

theorem declared_keys (hs : s.IsOf symbols config items) (hg : s.Took ctx rows g)
    {p : Nat × Entry} (hp : p ∈ (s.keys.map Prod.fst).zip g.keys) :
    Declared symbols items ctx rows p := by
  obtain ⟨q, hq, hcolumn, hvalue⟩ := mem_zip_of_forall₂ (Outcome.mapM_eq_ok_iff.mp hg.keys) Prod.fst hp
  rw [hs.keys_eq] at hq
  obtain ⟨i, item, hi, hk, rfl⟩ := mem_columnsOf.mp hq
  have ha : item.aggregates = false := by simpa using hk
  refine ⟨item, by simpa [hcolumn] using hi, ?_⟩
  simpa [ReturnItem.entryOf, ha, hs.symbols_eq] using hvalue

theorem declared_results (hs : s.IsOf symbols config items) (hg : s.Took ctx rows g)
    {entries : List Entry}
    (he : List.Forall₂ (fun p x => p.2.reduce.evaluate ctx g.last = .ok x)
      ((s.aggregated.map Prod.fst).zip g.evaluators) entries) {p : Nat × Entry}
    (hp : p ∈ (((s.aggregated.map Prod.fst).zip g.evaluators).map Prod.fst).zip entries) :
    Declared symbols items ctx rows p := by
  obtain ⟨q, hq, hcolumn, hvalue⟩ := mem_zip_of_forall₂ he Prod.fst hp
  obtain ⟨r, hr, hcolumn', hfed⟩ := mem_zip_of_forall₂ hg.fed Prod.fst hq
  rw [hs.aggregated_eq] at hr
  obtain ⟨i, item, hi, ha, rfl⟩ := mem_columnsOf.mp hr
  refine ⟨item, by simpa [hcolumn, hcolumn'] using hi, ?_⟩
  have hfresh : (Evaluator.ofExpr symbols item.expression).fresh =
      Evaluator.ofExpr symbols item.expression := rfl
  rw [hfresh] at hfed
  rw [hg.last, hs.symbols_eq] at hvalue
  simp only [ReturnItem.entryOf, ha, if_true, hfed]
  exact hvalue

/-- A row in which every declared column was set is the row of the items. -/
theorem setAll_declared {row : Record} {columns : List (Nat × Entry)}
    (hw : row.width = items.length) (hm : row.nullMarker = false)
    (hd : ∀ p ∈ columns, Declared symbols items ctx rows p)
    (hall : ∀ i < items.length, i ∈ columns.map Prod.fst) :
    (items.mapM (ReturnItem.entryOf symbols ctx rows)).map Record.ofEntries =
      .ok (row.setAll columns) := by
  let f : Nat → Entry := fun i =>
    ((items[i]?.map (ReturnItem.entryOf symbols ctx rows)).bind Except.toOption).getD .unknown
  have hf : ∀ p ∈ columns, p.1 < row.width ∧ p.2 = f p.1 := by
    intro p hp
    obtain ⟨item, hi, hv⟩ := hd p hp
    exact ⟨hw ▸ (List.getElem?_eq_some_iff.mp hi).1, by simp [f, hi, hv, Except.toOption]⟩
  obtain ⟨hwidth, hmark, hget⟩ := Record.setAll_eq hf
  have hlength : items.length = (row.setAll columns).entries.length := (hwidth.trans hw).symm
  have hmap : items.mapM (ReturnItem.entryOf symbols ctx rows) = .ok (row.setAll columns).entries := by
    refine Outcome.mapM_eq_ok_iff.mpr (List.forall₂_iff_get.mpr ⟨hlength, fun i hi hi' => ?_⟩)
    obtain ⟨p, hp, rfl⟩ := List.mem_map.mp (hall i hi)
    obtain ⟨item, hitem, hv⟩ := hd p hp
    have he := hget p.1 (.inl (List.mem_map.mpr ⟨p, hp, rfl⟩))
    rw [← (hf p hp).2] at he
    rw [List.get_eq_getElem, List.get_eq_getElem, (List.getElem?_eq_some_iff.mp hitem).2,
      (List.getElem?_eq_some_iff.mp he).2, hv]
  have hout : row.setAll columns = .ofEntries (row.setAll columns).entries := by
    rw [Record.ofEntries, ← hm, ← hmark]
  rw [hmap, hout]
  rfl

theorem outputRow_ok (hs : s.IsOf symbols config items) (hg : s.Took ctx rows g) {out : Record}
    (h : s.outputRow ctx g = .ok out) :
    (items.mapM (ReturnItem.entryOf symbols ctx rows)).map Record.ofEntries = .ok out := by
  obtain ⟨entries, he, rfl⟩ := writeResults_ok h
  let keyed := (s.keys.map Prod.fst).zip g.keys
  let results := (s.aggregated.map Prod.fst).zip g.evaluators
  have hkeys := (Outcome.mapM_eq_ok_iff.mp hg.keys).length_eq
  have hfed := hg.fed.length_eq
  have hresults := he.length_eq
  have hkcolumns : keyed.map Prod.fst = s.keys.map Prod.fst :=
    List.map_fst_zip (by simp [hkeys])
  have hrcolumns : results.map Prod.fst = s.aggregated.map Prod.fst :=
    List.map_fst_zip (by simp [hfed])
  have hcolumns : ((results.map Prod.fst).zip entries).map Prod.fst = s.aggregated.map Prod.fst := by
    rw [List.map_fst_zip (by simp [results, hresults]), hrcolumns]
  have happend : ((Record.new s.width).setAll keyed).setAll ((results.map Prod.fst).zip entries) =
      (Record.new s.width).setAll (keyed ++ (results.map Prod.fst).zip entries) :=
    List.foldl_append.symm
  refine Eq.trans (setAll_declared ?_ rfl ?_ ?_) (congrArg Except.ok happend.symm)
  · simp [Record.new, Record.width, hs.width_eq]
  · intro p hp
    rcases List.mem_append.mp hp with hp | hp
    · exact declared_keys hs hg hp
    · exact declared_results hs hg he hp
  · intro i hi
    rw [List.map_append, List.mem_append, hkcolumns, hcolumns, hs.keys_eq, hs.aggregated_eq]
    have hitem : items[i]? = some items[i] := List.getElem?_eq_getElem hi
    by_cases ha : items[i].aggregates = true
    · right
      exact List.mem_map.mpr ⟨_, mem_columnsOf.mpr ⟨i, _, hitem, ha, rfl⟩, Nat.zero_add i⟩
    · left
      exact List.mem_map.mpr ⟨_, mem_columnsOf.mpr ⟨i, _, hitem, by simpa using ha, rfl⟩, Nat.zero_add i⟩

end Output

end Grouping

end GraphQuery
