import GraphQuery.Aggregate.Counting
import GraphQuery.Aggregate.Sample

/-! What an aggregate call keeps of the rows of one group. Rows go in one by one; the result
can be read at any time. -/

namespace GraphQuery

inductive Accumulator where
  | count (c : Count)
  | collect (c : Collection)
  | percentile (kind : PercentileKind) (s : PercentileSample)
  | statistic (kind : Statistic) (s : Sample)

namespace Accumulator

def start : AggregateFunction → Accumulator
  | .count => count .empty
  | .collect => collect .empty
  | .percentile kind => percentile kind .empty
  | .statistic kind => statistic kind .empty

/-- A fresh accumulator for a name in any letter case. -/
def ofName (name : String) : Outcome Accumulator :=
  match AggregateFunction.ofName? name with
  | some function => .ok (start function)
  | none => .error (.functionNotFound name)

def step (acc : Accumulator) (args : List Entry) : Outcome Unit × Accumulator :=
  match acc with
  | count c => (c.step args).map id count
  | collect c => (attempt (Collection.step args) c).map id collect
  | percentile kind s => (s.step kind args).map id (percentile kind)
  | statistic kind s => (attempt (kind.step args) s).map id (statistic kind)

def ofNumber (x : Option Double) : Value := (x.map Value.double).getD .null

def finish : Accumulator → Entry
  | count c => .constant (.int (Int64.ofNat c.count))
  | collect c => .constant (.list c.items)
  | percentile kind s => .constant (ofNumber (s.result kind))
  | statistic kind s => .constant (ofNumber (kind.ofNumbers s.numbers))

end Accumulator

end GraphQuery
