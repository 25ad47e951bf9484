import GraphQuery.Aggregate.Config
import GraphQuery.Evaluation.Evaluator

/-! Grouping of rows. Items without an aggregate call give the key of a row; every group has
its own evaluators for the other items, and goes into one output row. -/

namespace GraphQuery

structure ReturnItem where
  expression : Expr
  name : String

/-- Output columns by name, and the items that give them with their column numbers: those of
the key, and those with aggregate calls. -/
structure Grouping where
  symbols : SymbolTable
  config : AggregateConfig
  aliases : List String
  keys : List (Nat × Evaluator)
  aggregated : List (Nat × Evaluator)

inductive GroupKey where
  | entries (entries : List Entry)
  | text (text : String)

namespace GroupKey

def ofEntries (entries : List Entry) : GroupKeyMode → GroupKey
  | .structured => .entries entries
  | .text => .text (joinWith "," (entries.map Entry.text))

def same : GroupKey → GroupKey → Bool
  | .entries a, .entries b => equalEntries a b
  | .text a, .text b => a == b
  | _, _ => false

end GroupKey

/-- `keys` are the group-by entries of the first row, `last` is the latest row that all
evaluators took. -/
structure Group where
  key : GroupKey
  keys : List Entry
  evaluators : List Evaluator
  last : Record

namespace Group

/-- Feeds a row to evaluators in turn, up to the first that fails. -/
def feedAll (ctx : Context) (row : Record) : List Evaluator → Outcome Unit × List Evaluator
  | [] => (.ok (), [])
  | e :: rest =>
    match e.aggregate ctx row with
    | (.ok _, e) =>
      let (result, rest) := feedAll ctx row rest
      (result, e :: rest)
    | (.error fault, e) => (.error fault, e :: rest)

def feed (g : Group) (ctx : Context) (row : Record) : Outcome Unit × Group :=
  match feedAll ctx row g.evaluators with
  | (.ok _, evaluators) => (.ok (), { g with evaluators, last := row })
  | (.error fault, evaluators) => (.error fault, { g with evaluators })

end Group

namespace Grouping

/-- Adds the next item in its column, unless it nests or mixes aggregates. -/
def addItem (s : Grouping) (item : ReturnItem) : Outcome Grouping := do
  item.expression.findings.validate
  let column := s.aliases.length
  let evaluator := Evaluator.ofExpr s.symbols item.expression
  let s := { s with aliases := s.aliases ++ [item.name] }
  if evaluator.containsAggregation then
    return { s with aggregated := s.aggregated ++ [(column, evaluator)] }
  else return { s with keys := s.keys ++ [(column, evaluator)] }

def ofItems (symbols : SymbolTable) (config : AggregateConfig) (items : List ReturnItem) :
    Outcome Grouping :=
  items.foldlM addItem ⟨symbols, config, [], [], []⟩

def width (s : Grouping) : Nat := s.aliases.length

def keysOf (s : Grouping) (ctx : Context) (row : Record) : Outcome (List Entry) :=
  s.keys.mapM fun (_, e) => do return (← e.evaluate ctx row).snapshot

def newGroup (s : Grouping) (keys : List Entry) (row : Record) : Group :=
  ⟨GroupKey.ofEntries keys s.config.mode, keys, s.aggregated.map fun (_, e) => e.fresh, row⟩

/-- Feeds a row to the group of the same key as a new one, which goes after all others when
there is none. -/
def route (ctx : Context) (row : Record) (new : Group) : List Group → Outcome Unit × List Group
  | [] =>
    let (result, g) := new.feed ctx row
    (result, [g])
  | g :: rest =>
    if g.key.same new.key then
      let (result, g) := g.feed ctx row
      (result, g :: rest)
    else
      let (result, rest) := route ctx row new rest
      (result, g :: rest)

def addRow (s : Grouping) (ctx : Context) (row : Record) (groups : List Group) :
    Outcome Unit × List Group :=
  match s.keysOf ctx row with
  | .error fault => (.error fault, groups)
  | .ok keys => route ctx row (s.newGroup keys row) groups

/-- The groups when all rows are in: an aggregation without a key over no rows has one group,
unless the settings say otherwise. -/
def complete (s : Grouping) (groups : List Group) : List Group :=
  if groups.isEmpty && s.keys.isEmpty && s.config.emptyGlobalGroup then
    [s.newGroup [] (Record.new s.symbols.size)]
  else groups

/-- Rejects an operand beside an aggregate that is a variable of the row, or a property of
one. Variables of kind constant may stand there. -/
def checkOperand (symbols : SymbolTable) (operand : Expr) : Outcome Unit := do
  if operand.containsAggregation then return
  let base := match operand with
    | .node _ (.property base _) => base
    | other => other
  match base with
  | .dangling id => .error (outOfRange id)
  | .node _ (.reference name) =>
    match symbols.resolve name with
    | some (_, .constant) => return
    | _ =>
      .error (.unimplemented ("combining an aggregate with the per-row variable " ++ name))
  | _ => return

def checkOperands (symbols : SymbolTable) : Expr → Outcome Unit
  | .node _ (.binary _ left right) => do
    checkOperand symbols left
    checkOperand symbols right
  | .node _ (.unary _ a) => checkOperand symbols a
  | .node _ _ => .ok ()
  | .dangling id => .error (outOfRange id)

/-- The result of a reduced evaluator, where the guard lets its item through. -/
def resultOf (s : Grouping) (ctx : Context) (last : Record) (e : Evaluator) : Outcome Entry := do
  checkOperands s.symbols e.root
  e.evaluate ctx last

theorem resultOf_eq_ok {s : Grouping} {ctx : Context} {last : Record} {e : Evaluator} {x : Entry} :
    s.resultOf ctx last e = .ok x ↔
      checkOperands s.symbols e.root = .ok () ∧ e.evaluate ctx last = .ok x := by
  rw [resultOf]
  cases checkOperands s.symbols e.root <;> simp [bind, Except.bind]

/-- Reduces evaluators in turn and writes their results into their columns, up to the first that
fails. That one is reduced too, and those after it are not. -/
def writeResults (s : Grouping) (ctx : Context) (last : Record) :
    List Nat → List Evaluator → Record → Outcome Record × List Evaluator
  | column :: columns, e :: rest, row =>
    let reduced := e.reduce
    match s.resultOf ctx last reduced with
    | .error fault => (.error fault, reduced :: rest)
    | .ok result =>
      let (answer, rest) := writeResults s ctx last columns rest (row.set column result)
      (answer, reduced :: rest)
  | _, rest, row => (.ok row, rest)

section Results

variable {s : Grouping} {ctx : Context} {last row : Record} {column : Nat} {columns : List Nat}
  {e : Evaluator} {rest : List Evaluator}

theorem writeResults_of_ok {result : Entry} (h : s.resultOf ctx last e.reduce = .ok result) :
    s.writeResults ctx last (column :: columns) (e :: rest) row =
      ((s.writeResults ctx last columns rest (row.set column result)).1,
        e.reduce :: (s.writeResults ctx last columns rest (row.set column result)).2) := by
  simp only [writeResults, h]

theorem writeResults_of_error {fault : Error} (h : s.resultOf ctx last e.reduce = .error fault) :
    s.writeResults ctx last (column :: columns) (e :: rest) row = (.error fault, e.reduce :: rest) := by
  simp only [writeResults, h]

end Results

/-- The columns of the key. -/
def keyRow (s : Grouping) (g : Group) : Record :=
  ((s.keys.map Prod.fst).zip g.keys).foldl (fun row (column, key) => row.set column key)
    (Record.new s.width)

/-- The output row of a group, and the group with what was reduced for it. -/
def handOver (s : Grouping) (ctx : Context) (g : Group) : Outcome Record × Group :=
  let (answer, evaluators) :=
    s.writeResults ctx g.last (s.aggregated.map Prod.fst) g.evaluators (s.keyRow g)
  (answer, { g with evaluators })

def outputRow (s : Grouping) (ctx : Context) (g : Group) : Outcome Record := (s.handOver ctx g).1

theorem outputRow_eq (s : Grouping) (ctx : Context) (g : Group) :
    s.outputRow ctx g =
      (s.writeResults ctx g.last (s.aggregated.map Prod.fst) g.evaluators (s.keyRow g)).1 :=
  rfl

end Grouping

end GraphQuery
