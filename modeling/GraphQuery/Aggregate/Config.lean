/-! Settings of aggregation. -/

namespace GraphQuery

/-- How rows are put into groups: by the group-by entries themselves, or by their texts
joined with commas, in which case entries that print alike share a group. -/
inductive GroupKeyMode where
  | structured
  | text
deriving DecidableEq

/-- `emptyGlobalGroup`: whether aggregation without group-by items gives a row for no input.
`percentileCapacity`: how many values a percentile makes room for at first. -/
structure AggregateConfig where
  mode : GroupKeyMode
  emptyGlobalGroup : Bool
  percentileCapacity : Nat
deriving DecidableEq

namespace AggregateConfig

def default : AggregateConfig := ⟨.structured, true, 1024⟩

end AggregateConfig

end GraphQuery
