import GraphQuery.Evaluation.Basic
import GraphQuery.Expression.Detection

/-! An expression together with the state of its aggregate calls. Rows of a group are fed to
the calls one by one; once the calls are reduced the expression can be evaluated. -/

namespace GraphQuery

namespace Slots

def put (id : ExprId) (slot : Slot) : Slots → Slots
  | [] => [(id, slot)]
  | (i, s) :: rest => if i = id then (id, slot) :: rest else (i, s) :: put id slot rest

/-- Gives a call a fresh accumulator, unless it has a state. -/
def ensure (slots : Slots) (call : AggregateCall) : Slots :=
  match List.lookup call.id slots with
  | some _ => slots
  | none => slots.put call.id (.running (.start call.function))

end Slots

namespace Slot

def reduce : Slot → Slot
  | running acc => finished acc.finish
  | finished result => finished result

end Slot

structure Evaluator where
  root : Expr
  symbols : SymbolTable
  slots : Slots

namespace Evaluator

def ofExpr (symbols : SymbolTable) (root : Expr) : Evaluator := ⟨root, symbols, []⟩

def fresh (e : Evaluator) : Evaluator := { e with slots := [] }

def containsAggregation (e : Evaluator) : Bool := e.root.containsAggregation

def environment (e : Evaluator) (ctx : Context) (record : Record) : Environment :=
  ⟨e.symbols, ctx, record, e.slots⟩

def evaluate (e : Evaluator) (ctx : Context) (record : Record) : Outcome Entry :=
  e.root.evaluate (e.environment ctx record)

/-- Arguments of one step: the flag and the operands, or for a count of rows a mark that is
Null on a row of an optional match that found nothing. -/
def stepArguments (env : Environment) (call : AggregateCall) : Outcome (List Entry) :=
  if call.args.isEmpty && call.function = .count then
    .ok [if env.record.nullMarker then .null else .constant (.double Double.one)]
  else do
    let operands ← call.args.mapM fun arg => arg.evaluate env
    return .constant (.bool call.distinct) :: operands

theorem stepArguments_mark (env : Environment) {call : AggregateCall} (hargs : call.args = [])
    (hcount : call.function = .count) :
    stepArguments env call = .ok [if env.record.nullMarker then .null else .constant (.double Double.one)] := by
  rw [stepArguments, hargs, hcount]
  rfl

/-- Of a call that does not count rows, the first operand that fails is what the step fails with. -/
theorem stepArguments_operands (env : Environment) {call : AggregateCall}
    (h : ¬(call.args = [] ∧ call.function = .count)) :
    stepArguments env call =
      (call.args.mapM fun (arg : Expr) => arg.evaluate env).map (.constant (.bool call.distinct) :: ·) := by
  have hoperands : ¬(call.args.isEmpty && call.function = .count) = true := by simpa using h
  rw [stepArguments, if_neg hoperands]
  cases call.args.mapM fun arg => arg.evaluate env <;> rfl

def accumulator (e : Evaluator) (call : AggregateCall) : Outcome Accumulator :=
  match List.lookup call.id e.slots with
  | some (.running acc) => .ok acc
  | some (.finished _) =>
    .error (.internalInvariant (call.name ++ ": stepped after the group was reduced"))
  | none => .ok (.start call.function)

def step (e : Evaluator) (ctx : Context) (record : Record) (call : AggregateCall) :
    Outcome Unit × Evaluator :=
  let ready := do
    let args ← stepArguments (e.environment ctx record) call
    let acc ← e.accumulator call
    return (args, acc)
  match ready with
  | .error fault => (.error fault, e)
  | .ok (args, acc) =>
    let (result, acc) := acc.step args
    (result, { e with slots := e.slots.put call.id (.running acc) })

/-- Feeds one row to the calls in turn, up to the first that fails. -/
def stepAll (ctx : Context) (record : Record) :
    List AggregateCall → Evaluator → Outcome Unit × Evaluator
  | [], e => (.ok (), e)
  | call :: rest, e =>
    match e.step ctx record call with
    | (.ok _, e) => stepAll ctx record rest e
    | (.error fault, e) => (.error fault, e)

def aggregate (e : Evaluator) (ctx : Context) (record : Record) : Outcome Unit × Evaluator :=
  stepAll ctx record e.root.outermostAggregates e

/-- Finishes every call; one that saw no row has the result of no rows. -/
def reduce (e : Evaluator) : Evaluator :=
  let slots := e.root.outermostAggregates.foldl Slots.ensure e.slots
  { e with slots := slots.map fun (id, slot) => (id, slot.reduce) }

end Evaluator

end GraphQuery
