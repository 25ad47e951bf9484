import GraphQuery.Function.Argument
import GraphQuery.Text.Blank
import GraphQuery.Value.Arithmetic

/-! Conversions between kinds of values. Null converts to Null. -/

namespace GraphQuery

inductive IntegerFault where
  | empty
  | malformed
  | tooLarge
  | tooSmall
deriving DecidableEq

namespace IntegerFault

def message : IntegerFault → String
  | empty => "cannot parse integer from empty string"
  | malformed => "invalid digit found in string"
  | tooLarge => "number too large to fit in target type"
  | tooSmall => "number too small to fit in target type"

end IntegerFault

/-- Reads an optional sign and digits as a 64-bit integer. -/
def readInt64 (text : String) : Except IntegerFault Int64 :=
  if text.isEmpty then .error .empty
  else
    let (negative, digits) := splitSign text.toList
    if digits.isEmpty then .error .malformed
    else
      -- The digits are taken in turn: an overflow is met before a bad digit behind it.
      let bound := if negative then -Int64.minValue.toInt else Int64.maxValue.toInt
      match digitsValueWithin bound.toNat (digits.takeWhile Char.isDigit) with
      | none => .error (if negative then .tooSmall else .tooLarge)
      | some n =>
        if !digits.all Char.isDigit then .error .malformed
        else .ok (Int64.ofInt (if negative then -(n : Int) else n))

def toBooleanFunction (args : List Entry) : Outcome Value := do
  let arg ← oneArgument "toboolean" args
  let v ← valueArgument "toboolean" arg
  if v.isNull || v.isBool then return v
  match v.asString with
  | some "true" | some "True" => return .bool true
  | some "false" | some "False" => return .bool false
  | _ => .error (argumentMismatch "toboolean" "Bool or boolean string" arg)

def toFloatFunction (args : List Entry) : Outcome Value := do
  let arg ← oneArgument "tofloat" args
  let v ← valueArgument "tofloat" arg
  if v.isNull then return .null
  match v.asDouble with
  | some x => return .double x
  | none =>
    match v.asString with
    | some s =>
      match Binary.read .double (trim s) with
      | .ok x => return .double x
      | .error fault => .error (.invalidArgument "tofloat" fault.message)
    | none => .error (argumentMismatch "tofloat" "number or numeric string" arg)

/-- Reals lose their fraction. -/
def toIntegerFunction (args : List Entry) : Outcome Value := do
  let arg ← oneArgument "tointeger" args
  let v ← valueArgument "tointeger" arg
  if v.isNull then return .null
  match v.asInt with
  | some n => return .int n
  | none =>
    match v.asDouble with
    | some x => return .int x.toInt64
    | none =>
      match v.asString with
      | some s =>
        match readInt64 (trim s) with
        | .ok n => return .int n
        | .error fault => .error (.invalidArgument "tointeger" fault.message)
      | none => .error (argumentMismatch "tointeger" "number or numeric string" arg)

def toStringFunction (args : List Entry) : Outcome Value := do
  let arg ← oneArgument "tostring" args
  let v ← valueArgument "tostring" arg
  if v.isNull || v.isString then return v
  if v.isScalar then return .string v.text
  .error (argumentMismatch "tostring" "scalar value" arg)

end GraphQuery
