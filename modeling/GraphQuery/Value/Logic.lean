import GraphQuery.Error
import GraphQuery.Value.Arithmetic
import GraphQuery.Value.Order

/-! Logic with three truth values, Null for the unknown one, and the six comparisons. -/

namespace GraphQuery

inductive Comparison where
  | eq
  | notEq
  | lt
  | ltEq
  | gt
  | gtEq
deriving DecidableEq

namespace Comparison

def symbol : Comparison → String
  | eq => "="
  | notEq => "<>"
  | lt => "<"
  | ltEq => "<="
  | gt => ">"
  | gtEq => ">="

def holds (op : Comparison) (order : Ordering) : Bool :=
  match op with
  | eq => order == .eq
  | notEq => order != .eq
  | lt => order == .lt
  | ltEq => order != .gt
  | gt => order == .gt
  | gtEq => order != .lt

end Comparison

/-- A truth value, `none` for Null. -/
def truthValue (operation : String) (v : Value) : Outcome (Option Bool) :=
  if v.isNull then .ok none
  else
    match v.asBool with
    | some b => .ok (some b)
    | none => .error (.typeMismatch operation ("expected Bool, got " ++ v.typeName))

namespace Value

def ofTruth : Option Bool → Value
  | some b => bool b
  | none => null

def not (a : Value) : Outcome Value := do
  let x ← truthValue "Not" a
  return ofTruth (x.map fun b => !b)

def and (a b : Value) : Outcome Value := do
  let x ← truthValue "And" a
  let y ← truthValue "And" b
  return match x, y with
  | some false, _ | _, some false => bool false
  | some true, some true => bool true
  | _, _ => null

def or (a b : Value) : Outcome Value := do
  let x ← truthValue "Or" a
  let y ← truthValue "Or" b
  return match x, y with
  | some true, _ | _, some true => bool true
  | some false, some false => bool false
  | _, _ => null

def xor (a b : Value) : Outcome Value := do
  let x ← truthValue "Xor" a
  let y ← truthValue "Xor" b
  return match x, y with
  | some p, some q => bool (p != q)
  | _, _ => null

/-- Applies a comparison. Null equals Null only, and is not ordered against anything; values
of different shape cannot be compared. -/
def compareBy (op : Comparison) (a b : Value) : Outcome Value :=
  if a.isNull || b.isNull then
    let both := a.isNull && b.isNull
    .ok <| match op with
      | .eq => bool both
      | .notEq => bool (!both)
      | _ => null
  else if a.isScalar != b.isScalar || a.isList != b.isList then
    .error (mismatch op.symbol a b)
  else .ok (bool (op.holds (a.compare b)))

end Value

end GraphQuery
