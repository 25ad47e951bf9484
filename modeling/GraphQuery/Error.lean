import GraphQuery.Binary.Printer

/-! What can go wrong while an expression is evaluated or an aggregate is fed. -/

namespace GraphQuery

inductive Error where
  | typeMismatch (operation detail : String)
  | divisionByZero
  | unimplemented (what : String)
  | internalInvariant (detail : String)
  | undefinedVariable (name : String)
  | undefinedParameter (name : String)
  | nestedAggregate (shape : String)
  | mixedAggregateScope (detail : String)
  | invalidPercentile (value : Double)
  | functionNotFound (name : String)
  | invalidArgument (function detail : String)
  | aggregateStep (aggregate detail : String)
  | caseNoMatch
deriving DecidableEq

namespace Error

def message : Error → String
  | typeMismatch operation detail => "Type mismatch in " ++ operation ++ ": " ++ detail
  | divisionByZero => "Division by zero"
  | unimplemented what => "Not implemented: " ++ what
  | internalInvariant detail => "Internal invariant violated: " ++ detail
  | undefinedVariable name => "Undefined variable: " ++ name
  | undefinedParameter name => "Undefined parameter: $" ++ name
  | nestedAggregate shape => "Nested aggregation is not allowed: " ++ shape
  | mixedAggregateScope detail => "Mixed aggregate scope: " ++ detail
  | invalidPercentile value =>
    "Invalid percentile " ++ value.plainText ++ ": must be within [0, 1]"
  | functionNotFound name => "Function not found: " ++ name
  | invalidArgument function detail => "Invalid argument for " ++ function ++ "(): " ++ detail
  | aggregateStep aggregate detail => aggregate ++ ": " ++ detail
  | caseNoMatch => "No CASE branch matched and no ELSE was given"

end Error

abbrev Outcome := Except Error

end GraphQuery
