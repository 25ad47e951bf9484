import GraphQuery.Text.Case

/-! The aggregate functions and their names. -/

namespace GraphQuery

inductive Statistic where
  | sum
  | avg
  | max
  | min
  | stDev
  | stDevP
  | variance
  | varianceP
deriving DecidableEq

/-- How a percentile falls between two ranks: on a number of the group, or between two. -/
inductive PercentileKind where
  | discrete
  | continuous
deriving DecidableEq

inductive AggregateFunction where
  | count
  | collect
  | percentile (kind : PercentileKind)
  | statistic (kind : Statistic)
deriving DecidableEq

namespace Statistic

def name : Statistic → String
  | sum => "sum"
  | avg => "avg"
  | max => "max"
  | min => "min"
  | stDev => "stDev"
  | stDevP => "stDevP"
  | variance => "variance"
  | varianceP => "varianceP"

/-- Whether repeated numbers can change the result. -/
def heedsDistinct : Statistic → Bool
  | max | min => false
  | _ => true

end Statistic

namespace PercentileKind

def name : PercentileKind → String
  | discrete => "percentileDisc"
  | continuous => "percentileCont"

end PercentileKind

namespace AggregateFunction

def registered : List (String × AggregateFunction) :=
  [("avg", statistic .avg), ("collect", collect), ("count", count), ("max", statistic .max),
   ("min", statistic .min), ("percentilecont", percentile .continuous),
   ("percentiledisc", percentile .discrete), ("stdev", statistic .stDev),
   ("stdevp", statistic .stDevP), ("sum", statistic .sum), ("variance", statistic .variance),
   ("variancep", statistic .varianceP)]

def ofName? (name : String) : Option AggregateFunction := List.lookup (lowerCase name) registered

end AggregateFunction

def isAggregateName (name : String) : Bool := (AggregateFunction.ofName? name).isSome

end GraphQuery
