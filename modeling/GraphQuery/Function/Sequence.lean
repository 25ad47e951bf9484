import GraphQuery.Function.Argument
import GraphQuery.Value.Arithmetic

/-! Functions over lists, and functions that accept values of any kind. -/

namespace GraphQuery

def intOfLength (n : Nat) : Value := .int (Int64.ofInt n)

def sizeFunction (args : List Entry) : Outcome Value := do
  let arg ← oneArgument "size" args
  let v ← valueArgument "size" arg
  if v.isNull then return .null
  match v.asList with
  | some items => return intOfLength items.length
  | none =>
    match v.asString with
    | some s => return intOfLength s.toList.length
    | none => .error (argumentMismatch "size" "String or List" arg)

def endOfList (function : String) (pick : List Value → Option Value) (args : List Entry) :
    Outcome Value := do
  let arg ← oneArgument function args
  let v ← valueArgument function arg
  if v.isNull then return .null
  match v.asList with
  | some items => return (pick items).getD .null
  | none => .error (argumentMismatch function "List" arg)

def headFunction : List Entry → Outcome Value := endOfList "head" List.head?

def lastFunction : List Entry → Outcome Value := endOfList "last" List.getLast?

/-- Whether a member of a progression is not past `stop`, in the direction of the step. -/
def reaches (stop step n : Int64) : Bool := (0 < step && n ≤ stop) || (step < 0 && stop ≤ n)

theorem reaches_iff {stop step n : Int64} :
    reaches stop step n = true ↔
      0 < step.toInt ∧ n.toInt ≤ stop.toInt ∨ step.toInt < 0 ∧ stop.toInt ≤ n.toInt := by
  simp [reaches, Int64.lt_iff_toInt_lt, Int64.le_iff_toInt_le]

/-- How many integers there are from a member to `stop`, both included. -/
def distance (stop step n : Int64) : Nat :=
  (if 0 < step.toInt then stop.toInt - n.toInt + 1 else n.toInt - stop.toInt + 1).toNat

theorem distance_lt {stop step n m : Int64} (within : reaches stop step n = true)
    (next : exactInt64 (n.toInt + step.toInt) = some m) :
    distance stop step m < distance stop step n := by
  have sum := toInt_of_exactInt64 next
  rw [reaches_iff] at within
  rw [distance, distance]
  split <;> omega

/-- Members of a progression from `n` on, up to `stop` or as far as 64 bits have room for them. -/
def progression (stop step n : Int64) : List Int64 :=
  if _ : reaches stop step n then
    n :: match _ : exactInt64 (n.toInt + step.toInt) with
      | some m => progression stop step m
      | none => []
  else []
termination_by distance stop step n
decreasing_by exact distance_lt ‹_› ‹_›

def rangeFunction (args : List Entry) : Outcome Value := do
  let (first, last, step?) ← twoOrThreeArguments "range" args
  let start ← intArgument "range" first
  let stop ← intArgument "range" last
  let step ← match step? with
    | some step => intArgument "range" step
    | none => .ok 1
  if step = 0 then .error (.invalidArgument "range" "step must not be zero")
  return .list ((progression stop step start).map Value.int)

/-- The sum, or the end of the 64-bit range that it is past. -/
def saturatingAdd (a b : Int64) : Int64 :=
  Int64.ofInt (max Int64.minValue.toInt (min (a.toInt + b.toInt) Int64.maxValue.toInt))

/-- A position counted from the end when it is negative. -/
def resolvePosition (position length : Int64) : Int64 :=
  if position < 0 then saturatingAdd length position else position

def elementAt (items : List Value) (position : Int64) : Value :=
  let place := resolvePosition position (Int64.ofNat items.length)
  if place < 0 then .null else (items[place.toInt.toNat]?).getD .null

/-- A position moved into a list of the given length. -/
def clampPosition (position length : Int64) : Nat :=
  (max 0 (min (resolvePosition position length) length)).toInt.toNat

/-- The elements from one position up to another, both moved into the list. -/
def slice (items : List Value) (first last : Int64) : List Value :=
  let low := clampPosition first (Int64.ofNat items.length)
  let high := clampPosition last (Int64.ofNat items.length)
  if high ≤ low then [] else (items.take high).drop low

def subscriptFunction (args : List Entry) : Outcome Value := do
  let (subject, first, last?) ← twoOrThreeArguments "subscript" args
  let v ← valueArgument "subscript" subject
  if v.isNull || first.isNull || last?.any Entry.isNull then return .null
  match v.asList with
  | none => .error (argumentMismatch "subscript" "List" subject)
  | some items =>
    let first ← intArgument "subscript" first
    match last? with
    | none => return elementAt items first
    | some last =>
      let last ← intArgument "subscript" last
      return .list (slice items first last)

def firstNonNull : List Entry → Outcome Value
  | [] => .ok .null
  | arg :: rest => do
    let v ← valueArgument "coalesce" arg
    if v.isNull then firstNonNull rest else return v

def coalesceFunction (args : List Entry) : Outcome Value :=
  if args.isEmpty then .error (.invalidArgument "coalesce" "expected at least 1 argument")
  else firstNonNull args

/-- True for anything but Null and an unbound slot. -/
def existsFunction (args : List Entry) : Outcome Value := do
  let arg ← oneArgument "exists" args
  return .bool (!arg.isNull && !arg.isUnknown)

def narrowNumbers : List Value → Outcome (List Single)
  | [] => .ok []
  | v :: rest =>
    match v.asDouble with
    | some x => do
      let xs ← narrowNumbers rest
      return x.convert :: xs
    | none => .error (.invalidArgument "tofloat32list" "list elements must be numbers")

def toFloat32ListFunction (args : List Entry) : Outcome Value := do
  let arg ← oneArgument "tofloat32list" args
  let v ← valueArgument "tofloat32list" arg
  match v.asList with
  | some items =>
    let xs ← narrowNumbers items
    return .scalar (.floatVector xs)
  | none => .error (argumentMismatch "tofloat32list" "List of numbers" arg)

end GraphQuery
