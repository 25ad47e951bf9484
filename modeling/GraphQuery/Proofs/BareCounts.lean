import GraphQuery.Proofs.CallFree
import GraphQuery.Proofs.DistinctStores
import GraphQuery.Proofs.ReducedCalls

/-! Items that are a call of count and nothing else. Over any rows such an item gives how many entries
are not Null, or with DISTINCT how many classes they make. -/

namespace GraphQuery

/-- A call of count without an expression around it. With no operand it counts rows. -/
structure BareCount where
  id : ExprId
  name : String
  registered : AggregateFunction.ofName? name = some .count
  distinct : Bool
  operand : Option Expr

namespace BareCount

variable (b : BareCount)

def call : AggregateCall := ⟨b.id, b.name, .count, b.distinct, b.operand.toList⟩

def expr : Expr := .node b.id (.aggregate b.name b.distinct b.operand.toList)

/-- What a row gives to count: the operand, or a mark. -/
def read (env : Environment) : Outcome Entry :=
  match b.operand with
  | some x => x.evaluate env
  | none => .ok (if env.record.nullMarker then .null else .constant (.double Double.one))

def arguments (x : Entry) : List Entry :=
  match b.operand with
  | some _ => [.constant (.bool b.distinct), x]
  | none => [x]

def tellsApart : Bool := b.distinct && b.operand.isSome

/-- The number that comes out when rows give these entries. -/
def tally (entries : List Entry) : Nat :=
  if b.tellsApart then (classesBy Entry.same (notNull entries)).length else (notNull entries).length

/-- A count that has taken these entries. -/
structure Took (c : Count) (entries : List Entry) : Prop where
  count : c.count = b.tally entries
  flag : c.distinct.getD b.distinct = b.distinct
  seen : b.tellsApart = true →
    Covers .count (fun x => c.seen.any fun e => e.equal x.snapshot) (notNull entries)

variable {b}

theorem calls_expr : b.expr.outermostAggregates = [b.call] := Expr.outermostAggregates_of_call b.registered

theorem stepArguments_call (env : Environment) :
    Evaluator.stepArguments env b.call = (b.read env).map b.arguments := by
  cases ho : b.operand with
  | none =>
    have hargs : b.call.args = [] := by rw [call, ho, Option.toList_none]
    have hcount : b.call.function = .count := rfl
    have harguments : b.arguments = fun y => [y] := by
      funext y
      simp only [arguments, ho]
    simp only [Evaluator.stepArguments_mark env hargs hcount, read, ho, harguments, Except.map]
  | some x =>
    have hargs : b.call.args = [x] := by rw [call, ho, Option.toList_some]
    have hrows : ¬(b.call.args = [] ∧ b.call.function = .count) := fun h => by simp [hargs] at h
    rw [Evaluator.stepArguments_operands env hrows]
    simp only [hargs, read, ho, List.mapM_cons, List.mapM_nil]
    have harguments : b.arguments = fun y => [.constant (.bool b.distinct), y] := by
      funext y
      simp only [arguments, ho]
    rw [harguments]
    cases x.evaluate env <;> rfl

section Tally

variable {c : Count} {entries : List Entry} {x : Entry}

theorem tally_perm {other : List Entry} (h : entries.Perm other) : b.tally entries = b.tally other := by
  have hgiven : (notNull entries).Perm (notNull other) := h.filter _
  rw [tally, tally]
  cases b.tellsApart with
  | true =>
    have hsymm : ∀ a b : Entry, a.same b = true → b.same a = true := fun _ _ => Entry.same_symm
    have htrans : ∀ a b c : Entry, a.same b = true → b.same c = true → a.same c = true :=
      fun _ _ _ => Entry.same_trans
    exact length_classesBy_perm hsymm htrans hgiven fun x _ => x.same_refl
  | false => exact hgiven.length_eq

theorem Took.of_null (h : b.Took c entries) (hx : x.isNull = true) : b.Took c (entries ++ [x]) := by
  have hgiven : notNull (entries ++ [x]) = notNull entries := notNull_append_of_null hx
  have htally : b.tally (entries ++ [x]) = b.tally entries := by rw [tally, tally, hgiven]
  exact ⟨h.count.trans htally.symm, h.flag, hgiven ▸ h.seen⟩

theorem Took.of_plain (h : b.Took c entries) (hx : x.isNull = false) (hapart : b.tellsApart = false) :
    b.Took c.increment (entries ++ [x]) := by
  have htally (entries : List Entry) : b.tally entries = (notNull entries).length := by
    rw [tally, hapart, if_neg Bool.false_ne_true]
  have hcount : c.increment.count = b.tally (entries ++ [x]) := by
    rw [htally, notNull_append hx, List.length_append, ← htally, ← h.count]
    rfl
  refine ⟨hcount, h.flag, fun hapart' => ?_⟩
  rw [hapart] at hapart'
  cases hapart'

theorem Took.of_distinct (h : b.Took c entries) (hapart : b.tellsApart = true) (x : Entry) :
    b.Took (c.offer true x) (entries ++ [x]) := by
  have htally (entries : List Entry) : b.tally entries = (classesBy Entry.same (notNull entries)).length := by
    rw [tally, hapart, if_pos rfl]
  have hkeeps := Count.keeps_offer x ⟨h.count.trans (htally entries), h.seen hapart⟩
  refine ⟨hkeeps.size_eq.trans (htally _).symm, ?_, fun _ => hkeeps.covers⟩
  rw [Count.distinct_offer]
  exact h.flag

theorem Took.step (h : b.Took c entries) (x : Entry) :
    ∃ next, (Accumulator.count c).step (b.arguments x) = (.ok (), .count next) ∧ b.Took next (entries ++ [x]) := by
  cases ho : b.operand with
  | none =>
    have hapart : b.tellsApart = false := by simp [tellsApart, ho]
    have hstep : (Accumulator.count c).step (b.arguments x) =
        (.ok (), .count (if x.isNull then c else c.increment)) := by
      simp only [arguments, ho]
      rfl
    refine ⟨_, hstep, ?_⟩
    by_cases hx : x.isNull = true
    · rw [if_pos hx]
      exact h.of_null hx
    · rw [if_neg hx]
      exact h.of_plain (by simpa using hx) hapart
  | some operand =>
    let set : Count := { c with distinct := some b.distinct }
    have hset : b.Took set entries := ⟨h.count, rfl, h.seen⟩
    have hstep : (Accumulator.count c).step (b.arguments x) = (.ok (), .count (set.offer b.distinct x)) := by
      have hfirst : (Accumulator.count c).step [.constant (.bool b.distinct), x] =
          (.ok (), .count (Count.offer (c.distinct.getD b.distinct) x
            { c with distinct := some (c.distinct.getD b.distinct) })) := rfl
      rw [h.flag] at hfirst
      simpa only [arguments, ho] using hfirst
    refine ⟨_, hstep, ?_⟩
    by_cases hx : x.isNull = true
    · have hoffer : set.offer b.distinct x = set := by simp [Count.offer, hx]
      rw [hoffer]
      exact hset.of_null hx
    · rw [Bool.not_eq_true] at hx
      by_cases hd : b.distinct = true
      · have hapart : b.tellsApart = true := by simp [tellsApart, hd, ho]
        rw [hd]
        exact hset.of_distinct hapart x
      · have hapart : b.tellsApart = false := by simp [tellsApart, hd]
        have hoffer : set.offer b.distinct x = set.increment := by simp [Count.offer, hx, hd]
        rw [hoffer]
        exact hset.of_plain hx hapart

end Tally

section Rows

variable {symbols : SymbolTable} {ctx : Context} {rows : List Record} {row : Record} {e : Evaluator}
  {entries : List Entry} {x : Entry}

/-- A row gives an entry, in every state of the calls. -/
def Gives (b : BareCount) (symbols : SymbolTable) (ctx : Context) (row : Record) (x : Entry) : Prop :=
  ∀ slots, b.read ⟨symbols, ctx, row, slots⟩ = .ok x

/-- An evaluator of a bare count that has taken these entries. -/
structure Runs (b : BareCount) (e : Evaluator) (entries : List Entry) : Prop where
  root : e.root = b.expr
  tally : ∃ c, e.accumulator b.call = .ok (.count c) ∧ b.Took c entries

theorem runs_ofExpr (b : BareCount) (symbols : SymbolTable) : b.Runs (.ofExpr symbols b.expr) [] := by
  have hcount : Count.empty.count = b.tally [] := by
    rw [tally]
    cases b.tellsApart <;> simp [Count.empty, notNull]
  exact ⟨rfl, .empty, rfl, hcount, rfl, fun _ _ => rfl⟩

theorem Runs.aggregate (h : b.Runs e entries) (hx : b.Gives e.symbols ctx row x) :
    ∃ next, e.aggregate ctx row = (.ok (), next) ∧ b.Runs next (entries ++ [x]) ∧ next.symbols = e.symbols := by
  obtain ⟨c, hacc, htook⟩ := h.tally
  obtain ⟨c', hstep, htook'⟩ := htook.step x
  have hargs : Evaluator.stepArguments (e.environment ctx row) b.call = .ok (b.arguments x) := by
    rw [stepArguments_call]
    exact congrArg (Except.map b.arguments) (hx e.slots)
  have hcalls : e.root.outermostAggregates = [b.call] := by rw [h.root, calls_expr]
  let next : Evaluator := { e with slots := e.slots.put b.call.id (.running (.count c')) }
  have haggregate : e.aggregate ctx row = (.ok (), next) := by
    simp only [Evaluator.aggregate, hcalls, Evaluator.stepAll, Evaluator.step, hargs, hacc, hstep, bind,
      Except.bind, pure, Except.pure, next]
  have hnext : next.accumulator b.call = .ok (.count c') :=
    Evaluator.accumulator_of_running (Slots.lookup_put_self _ _ _)
  exact ⟨next, haggregate, ⟨h.root, c', hnext, htook'⟩, rfl⟩

theorem Runs.aggregateAll {more : List Entry} (hrows : List.Forall₂ (b.Gives symbols ctx) rows more)
    (h : b.Runs e entries) (hsymbols : e.symbols = symbols) :
    ∃ fed, e.aggregateAll ctx rows = .ok fed ∧ b.Runs fed (entries ++ more) := by
  induction hrows generalizing e entries with
  | nil => exact ⟨e, rfl, by simpa using h⟩
  | @cons row x rows more hx hrows ih =>
    obtain ⟨next, hrow, hruns, hkept⟩ := h.aggregate (hsymbols ▸ hx)
    obtain ⟨fed, hall, hfed⟩ := ih hruns (hkept.trans hsymbols)
    exact ⟨fed, Evaluator.aggregateAll_cons_eq_ok.mpr ⟨next, hrow, hall⟩, by simpa using hfed⟩

theorem Runs.evaluate (h : b.Runs e entries) (ctx : Context) (row : Record) :
    e.reduce.evaluate ctx row = .ok (.constant (.int (Int64.ofNat (b.tally entries)))) := by
  obtain ⟨c, hacc, htook⟩ := h.tally
  have hcalls : e.root.outermostAggregates = [b.call] := by rw [h.root, calls_expr]
  have honly : ∀ other ∈ e.root.outermostAggregates, other.id = b.call.id → other = b.call := by simp [hcalls]
  have hslot := Evaluator.lookup_reduce (by simp [hcalls]) honly hacc
  have hreduced : e.reduce.root = b.expr := h.root
  rw [Evaluator.evaluate, hreduced, ← htook.count]
  exact Expr.meaning_of_finished hslot b.name b.distinct b.operand.toList []

/-- The item takes every row that gives an entry. -/
theorem exists_aggregateAll (h : List.Forall₂ (b.Gives symbols ctx) rows entries) :
    ∃ fed, (Evaluator.ofExpr symbols b.expr).aggregateAll ctx rows = .ok fed ∧ b.Runs fed entries :=
  (b.runs_ofExpr symbols).aggregateAll h rfl

theorem gives_of_read (hfree : ∀ operand ∈ b.operand, operand.callFree = true) {slots : Slots}
    (h : b.read ⟨symbols, ctx, row, slots⟩ = .ok x) : b.Gives symbols ctx row x := by
  intro later
  rw [← h]
  cases ho : b.operand with
  | none => simp only [read, ho]
  | some operand =>
    simp only [read, ho]
    exact operand.evaluate_slots ⟨symbols, ctx, row, slots⟩ later (hfree operand ho)

/-- Where no call stands in the operand, the rows that were taken give entries. -/
theorem gives_of_aggregateAll (hfree : ∀ operand ∈ b.operand, operand.callFree = true) {fed : Evaluator}
    (hroot : e.root = b.expr) (hsymbols : e.symbols = symbols) (h : e.aggregateAll ctx rows = .ok fed) :
    ∀ row ∈ rows, ∃ x, b.Gives symbols ctx row x := by
  induction rows generalizing e with
  | nil => simp
  | cons row rows ih =>
    obtain ⟨next, hrow, hrest⟩ := Evaluator.aggregateAll_cons_eq_ok.mp h
    have hcall : b.call ∈ e.root.outermostAggregates := by simp [hroot, calls_expr]
    obtain ⟨args, hargs⟩ := Evaluator.stepAll_exists_arguments hrow hcall
    obtain ⟨hroot', hsymbols', -⟩ := Evaluator.stepAll_frame hrow
    have hgiven : ∃ x, b.Gives symbols ctx row x := by
      rw [stepArguments_call, Evaluator.environment, hsymbols] at hargs
      cases hread : b.read ⟨symbols, ctx, row, e.slots⟩ with
      | error fault => simp [hread, Except.map] at hargs
      | ok x => exact ⟨x, gives_of_read hfree hread⟩
    exact List.forall_mem_cons.mpr
      ⟨hgiven, ih (hroot'.trans hroot) (hsymbols'.trans hsymbols) hrest⟩

end Rows

end BareCount

theorem length_classesBy_constants (values : List Value) :
    (classesBy Entry.same (values.map .constant)).length = (distinctValues values).length := by
  have htrans : ∀ a b c : Entry, a.same b = true → b.same c = true → a.same c = true :=
    fun _ _ _ => Entry.same_trans
  induction values using List.reverseRecOn with
  | nil => simp [distinctValues]
  | append_singleton values v ih =>
    have hany : ((values.map Entry.constant).any fun a => a.same (.constant v)) =
        (distinctValues values).any fun k => k.equal v := by
      rw [any_distinctValues, List.any_map]
      rfl
    rw [List.map_append, List.map_singleton, length_classesBy_append_singleton htrans, ih, hany,
      distinctValues_concat]
    split <;> simp

/-- A count with DISTINCT takes every row, and counts the values that equal none before them. -/
theorem Evaluator.count_distinct {symbols : SymbolTable} {ctx : Context} {operand : Expr} {id : ExprId}
    {name : String} (hname : AggregateFunction.ofName? name = some .count) {rows : List Record}
    {values : List Value} (hrows : List.Forall₂ (Gives symbols ctx operand) rows values) :
    ∃ fed, (ofExpr symbols (.node id (.aggregate name true [operand]))).aggregateAll ctx rows = .ok fed ∧
      ∀ row, fed.reduce.evaluate ctx row =
        .ok (.constant (.int (Int64.ofNat (distinctValues (nonNull values)).length))) := by
  let b : BareCount := ⟨id, name, hname, true, some operand⟩
  have hgiven : List.Forall₂ (b.Gives symbols ctx) rows (values.map .constant) :=
    List.forall₂_map_right_iff.mpr hrows
  obtain ⟨fed, hall, hruns⟩ := BareCount.exists_aggregateAll hgiven
  have hconstants : notNull (values.map .constant) = (nonNull values).map .constant := by
    rw [notNull, List.filter_map]
    rfl
  have htally : b.tally (values.map .constant) = (distinctValues (nonNull values)).length := by
    rw [← length_classesBy_constants, ← hconstants]
    rfl
  exact ⟨fed, hall, fun row => htally ▸ hruns.evaluate ctx row⟩

end GraphQuery
