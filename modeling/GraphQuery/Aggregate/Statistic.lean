import GraphQuery.Aggregate.Function
import GraphQuery.Binary.Arithmetic

/-! Statistics of a list of numbers in arrival order. Rounding makes the order count, so each
sum adds from the left. -/

namespace GraphQuery

namespace Double

def zero : Double := Binary.zero false

def one : Double := Binary.ofInt 1

def ofNat (n : Nat) : Double := Binary.ofInt n

end Double

def sum (xs : List Double) : Double := xs.foldl Binary.add Double.zero

def mean (xs : List Double) : Double := (sum xs).div (Double.ofNat xs.length)

/-- The first of the numbers than which none is better. -/
def extreme (better : Double → Double → Bool) : List Double → Option Double
  | [] => none
  | x :: xs => some (xs.foldl (fun best x => if better x best then x else best) x)

/-- Running sum with the rounding errors lost from it. -/
structure CompensatedSum where
  sum : Double
  lost : Double

namespace CompensatedSum

def add (s : CompensatedSum) (x : Double) : CompensatedSum :=
  let total := s.sum.add x
  let lost :=
    if x.abs.lessEq s.sum.abs then (s.sum.sub total).add x else (x.sub total).add s.sum
  ⟨total, s.lost.add lost⟩

def value (s : CompensatedSum) : Double := s.sum.add s.lost

end CompensatedSum

def compensatedSum (xs : List Double) : Double :=
  (xs.foldl CompensatedSum.add ⟨Double.zero, Double.zero⟩).value

/-- Mean square distance from the mean, over all numbers or over one fewer. It is never below
zero, nor NaN, and zero for fewer than two numbers. -/
def variance (population : Bool) (xs : List Double) : Double :=
  if xs.length < 2 then Double.zero
  else
    let mean := (compensatedSum xs).div (Double.ofNat xs.length)
    let squares := compensatedSum (xs.map fun x => (x.sub mean).mul (x.sub mean))
    let count := if population then xs.length else xs.length - 1
    let variance := squares.div (Double.ofNat count)
    if Double.zero.less variance then variance else Double.zero

def insertSorted (x : Double) : List Double → List Double
  | [] => [x]
  | y :: ys => if x.totalCompare y == .lt then x :: y :: ys else y :: insertSorted x ys

def sortNumbers (xs : List Double) : List Double :=
  xs.foldl (fun sorted x => insertSorted x sorted) []

/-- The least number of which at least the given share of all is not above it. -/
def discretePercentile (fraction : Double) (sorted : List Double) : Option Double :=
  let count := sorted.length
  let rank :=
    if Double.zero.less fraction then
      ((fraction.mul (Double.ofNat count)).ceil.toInt64.toInt - 1).toNat
    else 0
  sorted[min rank (count - 1)]?

def continuousPercentile (fraction : Double) (sorted : List Double) : Option Double :=
  if sorted.length = 1 || Double.one.lessEq fraction then sorted.getLast?
  else
    let position := fraction.mul (Double.ofNat (sorted.length - 1))
    let rank := position.floor.toInt64.toInt.toNat
    let part := position.sub (Double.ofNat rank)
    match sorted[rank]?, sorted[rank + 1]? with
    | some low, some high => some (low.add (part.mul (high.sub low)))
    | low, _ => low

namespace PercentileKind

def ofNumbers (kind : PercentileKind) (fraction : Double) (xs : List Double) : Option Double :=
  match kind with
  | discrete => discretePercentile fraction (sortNumbers xs)
  | continuous => continuousPercentile fraction (sortNumbers xs)

end PercentileKind

namespace Statistic

/-- The statistic of a list; there is none of the empty list for mean and extremes. -/
def ofNumbers (kind : Statistic) (xs : List Double) : Option Double :=
  match kind with
  | sum => some (GraphQuery.sum xs)
  | avg => if xs.isEmpty then none else some (mean xs)
  | max => extreme (fun x best => best.less x) xs
  | min => extreme (fun x best => x.less best) xs
  | stDev => some (GraphQuery.variance false xs).sqrt
  | stDevP => some (GraphQuery.variance true xs).sqrt
  | variance => some (GraphQuery.variance false xs)
  | varianceP => some (GraphQuery.variance true xs)

end Statistic

end GraphQuery
