import GraphQuery.Aggregate.Operand
import GraphQuery.Aggregate.Statistic

/-! Gathering the numbers of a group. With DISTINCT a number counts once, whatever its width. -/

namespace GraphQuery

/-- Numbers in arrival order, and the values that DISTINCT has let through. -/
structure Sample where
  numbers : List Double
  seen : List Value

namespace Sample

def empty : Sample := ⟨[], []⟩

/-- Adds the number read from a value; with DISTINCT, only when the value is new. -/
def add (s : Sample) (distinct : Bool) (value : Value) (number : Double) : Sample :=
  if !distinct then { s with numbers := s.numbers ++ [number] }
  else if s.seen.any fun v => v.equal value then s
  else ⟨s.numbers ++ [number], s.seen ++ [value]⟩

def offer (aggregate : String) (distinct : Bool) (operand : Entry) (s : Sample) :
    Outcome Sample := do
  match ← numericOperand aggregate operand with
  | some (value, number) => return s.add distinct value number
  | none => return s

end Sample

namespace Statistic

def step (kind : Statistic) (args : List Entry) (s : Sample) : Outcome Sample := do
  let (distinct, operands) ← splitFlag kind.name args
  let operand ← firstOperand kind.name operands
  s.offer kind.name (distinct && kind.heedsDistinct) operand

end Statistic

/-- Numbers of a group and the share asked for, which the first row with one decides. -/
structure PercentileSample where
  fraction : Option Double
  sample : Sample

namespace PercentileSample

def empty : PercentileSample := ⟨none, Sample.empty⟩

def readFraction (aggregate : String) (operand : Entry) : Outcome Double := do
  match ← numericOperand aggregate operand with
  | none => .error (.aggregateStep aggregate "percentile must not be null")
  | some (_, p) =>
    if Double.zero.lessEq p && p.lessEq Double.one then return p
    else .error (.invalidPercentile p)

/-- Settles the share from the last operand, unless it is settled. -/
def settle (aggregate : String) (operands : List Entry) (s : PercentileSample) :
    Outcome PercentileSample := do
  match s.fraction, operands.getLast? with
  | none, some last =>
    let p ← readFraction aggregate last
    return { s with fraction := some p }
  | _, _ => return s

def offer (aggregate : String) (distinct : Bool) (operand : Entry) (s : PercentileSample) :
    Outcome PercentileSample :=
  (s.sample.offer aggregate distinct operand).map fun sample => { s with sample }

def readOperands (aggregate : String) (args : List Entry) :
    Outcome (Bool × Entry × List Entry) := do
  match ← splitFlag aggregate args with
  | (distinct, value :: second :: rest) => return (distinct, value, value :: second :: rest)
  | _ => .error (.aggregateStep aggregate "expected (value, percentile)")

/-- The share stays settled when the value of the same row is no number. -/
def step (kind : PercentileKind) (args : List Entry) (s : PercentileSample) :
    Outcome Unit × PercentileSample :=
  match readOperands kind.name args with
  | .error e => (.error e, s)
  | .ok (distinct, value, operands) =>
    match s.settle kind.name operands with
    | .error e => (.error e, s)
    | .ok settled => attempt (offer kind.name distinct value) settled

def result (kind : PercentileKind) (s : PercentileSample) : Option Double :=
  s.fraction.bind fun p => kind.ofNumbers p s.sample.numbers

end PercentileSample

end GraphQuery
