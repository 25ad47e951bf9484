import GraphQuery.Error
import GraphQuery.Record.Entry

/-! Reading the arguments of a function: their number first, then each in turn. -/

namespace GraphQuery

def argumentMismatch (function expected : String) (got : Entry) : Error :=
  .invalidArgument function ("expected " ++ expected ++ ", got " ++ got.kindName)

def wrongCount (function : String) (expected : Nat) (args : List Entry) : Error :=
  .invalidArgument function
    ("expected " ++ toString expected ++ " argument(s), got " ++ toString args.length)

def wrongCountBetween (function : String) (low high : Nat) (args : List Entry) : Error :=
  .invalidArgument function
    ("expected " ++ toString low ++ " to " ++ toString high ++ " arguments, got " ++
      toString args.length)

def oneArgument (function : String) : List Entry → Outcome Entry
  | [a] => .ok a
  | args => .error (wrongCount function 1 args)

def twoArguments (function : String) : List Entry → Outcome (Entry × Entry)
  | [a, b] => .ok (a, b)
  | args => .error (wrongCount function 2 args)

def threeArguments (function : String) : List Entry → Outcome (Entry × Entry × Entry)
  | [a, b, c] => .ok (a, b, c)
  | args => .error (wrongCount function 3 args)

def twoOrThreeArguments (function : String) :
    List Entry → Outcome (Entry × Entry × Option Entry)
  | [a, b] => .ok (a, b, none)
  | [a, b, c] => .ok (a, b, some c)
  | args => .error (wrongCountBetween function 2 3 args)

def valueArgument (function : String) (arg : Entry) : Outcome Value :=
  match arg with
  | .constant v => .ok v
  | other => .error (argumentMismatch function "a value" other)

def textArgument (function : String) (arg : Entry) : Outcome (Option String) := do
  let v ← valueArgument function arg
  if v.isNull then return none
  match v.asString with
  | some s => return some s
  | none => .error (.invalidArgument function ("expected String, got " ++ v.typeName))

def intArgument (function : String) (arg : Entry) : Outcome Int64 := do
  let v ← valueArgument function arg
  match v.asInt with
  | some n => return n
  | none => .error (.invalidArgument function ("expected Integer, got " ++ v.typeName))

end GraphQuery
