import GraphQuery.Function.Argument
import GraphQuery.Value.Arithmetic

/-! Functions of one number. Null stays Null, and integers pass through rounding unchanged. -/

namespace GraphQuery

def numericFunction (function : String) (onInt : Int64 → Option Value) (onReal : Double → Value)
    (args : List Entry) : Outcome Value := do
  let arg ← oneArgument function args
  let v ← valueArgument function arg
  if v.isNull then return .null
  match v.asInt with
  | some n =>
    match onInt n with
    | some result => return result
    | none => .error (argumentMismatch function "Integer in range" arg)
  | none =>
    match v.asDouble with
    | some x => return onReal x
    | none => .error (argumentMismatch function "Integer or Float" arg)

def absFunction : List Entry → Outcome Value :=
  numericFunction "abs" (fun n => (exactInt64 n.toInt.natAbs).map .int) fun x => .double x.abs

def ceilFunction : List Entry → Outcome Value :=
  numericFunction "ceil" (fun n => some (.int n)) fun x => .double x.ceil

def floorFunction : List Entry → Outcome Value :=
  numericFunction "floor" (fun n => some (.int n)) fun x => .double x.floor

def roundFunction : List Entry → Outcome Value :=
  numericFunction "round" (fun n => some (.int n)) fun x => .double x.round

def signOf (negative : Bool) : Value := .int (if negative then -1 else 1)

/-- Minus one below zero and for a negative zero, otherwise one. -/
def signFunction : List Entry → Outcome Value :=
  numericFunction "sign" (fun n => some (signOf (n.toInt < 0))) fun x => signOf x.negative

end GraphQuery
