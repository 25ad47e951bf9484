import GraphQuery.Binary.Arithmetic

/-! Comparison of numbers. Integers compare as integers and reals as reals. An integer and a
real compare as integers where the real is one; elsewhere the integer is rounded first. -/

namespace GraphQuery

/-- A number without its width: integers are widened to 64 bits, reals to doubles. -/
inductive Number where
  | int (n : Int64)
  | real (x : Double)

namespace Number

def rounded (n : Int64) : Double := Binary.ofInt n.toInt

def lowerBound : Double := Binary.ofInt (-9223372036854775808)

/-- The first number past the integers of 64 bits. -/
def upperBound : Double := Binary.ofInt 9223372036854775808

/-- The integer that a real is, when it is one of 64 bits. -/
def integral? (x : Double) : Option Int64 :=
  if lowerBound.lessEq x && x.less upperBound then
    if (rounded x.toInt64).equals x then some x.toInt64 else none
  else none

/-- The order of reals, with every NaN in one place above all others. -/
def compareReals (x y : Double) : Ordering :=
  match x.isNaN, y.isNaN with
  | true, true => .eq
  | true, false => .gt
  | false, true => .lt
  | false, false => Ord.compare x.value y.value

def compareIntReal (n : Int64) (x : Double) : Ordering :=
  if x.isNaN || upperBound.lessEq x then .lt
  else if x.less lowerBound then .gt
  else
    match integral? x with
    | some m => Ord.compare n.toInt m.toInt
    | none => compareReals (rounded n) x

def compare : Number → Number → Ordering
  | int m, int n => Ord.compare m.toInt n.toInt
  | real x, real y => compareReals x y
  | int n, real x => compareIntReal n x
  | real x, int n => (compareIntReal n x).swap

end Number

end GraphQuery
