import GraphQuery.Error
import GraphQuery.Record.Entry

/-! Reading the arguments of one step of an aggregate: the DISTINCT flag first, then the
operands. -/

namespace GraphQuery

/-- Runs a change that may fail; a failed one leaves the state as it was. -/
def attempt {σ : Type} (change : σ → Outcome σ) (s : σ) : Outcome Unit × σ :=
  match change s with
  | .ok next => (.ok (), next)
  | .error e => (.error e, s)

def splitFlag (aggregate : String) (args : List Entry) : Outcome (Bool × List Entry) :=
  match args with
  | arg :: operands =>
    match arg.asConstant.bind Value.asBool with
    | some distinct => .ok (distinct, operands)
    | none => .error fault
  | [] => .error fault
where
  fault : Error :=
    .internalInvariant (aggregate ++ ": first step argument must be the DISTINCT flag")

def firstOperand (aggregate : String) : List Entry → Outcome Entry
  | [] => .error (.aggregateStep aggregate "missing argument")
  | operand :: _ => .ok operand

/-- The number of an operand together with the value it was read from, nothing for Null. -/
def numericOperand (aggregate : String) (operand : Entry) : Outcome (Option (Value × Double)) :=
  let fault : Error := .aggregateStep aggregate ("expected a number, got " ++ operand.kindName)
  match operand with
  | .constant v =>
    if v.isNull then .ok none
    else
      match v.asDouble with
      | some x => .ok (some (v, x))
      | none => .error fault
  | _ => .error fault

end GraphQuery
