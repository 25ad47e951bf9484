import GraphQuery.Binary.Reader

/-! Printing with the shortest digits that read back to the same number. Among the decimals
of one length only the two around the number are candidates; the shortest length at which
one of them reads back wins, and of two that do the nearer, the upper one on a tie. -/

namespace GraphQuery

namespace Decimal

def trimWithin : Nat → Decimal → Decimal
  | 0, d => d
  | fuel + 1, d =>
    if d.digits % 10 = 0 && d.digits != 0 then trimWithin fuel ⟨d.digits / 10, d.exponent + 1⟩
    else d

/-- Place of the point relative to the first digit. -/
def point (d : Decimal) : Int := length d.digits + d.exponent

/-- Digits with the point in its place; `tail` closes a number without a fraction. -/
def plain (tail : String) (d : Decimal) : String :=
  let digits := Nat.toDigits 10 d.digits
  let zeros (n : Int) := List.replicate n.toNat '0'
  if 0 ≤ d.exponent then String.ofList (digits ++ zeros d.exponent) ++ tail
  else if d.point ≤ 0 then "0." ++ String.ofList (zeros (-d.point) ++ digits)
  else
    let whole := d.point.toNat
    String.ofList (digits.take whole) ++ "." ++ String.ofList (digits.drop whole)

def scientific (d : Decimal) : String :=
  let digits := Nat.toDigits 10 d.digits
  let fraction := digits.drop 1
  String.ofList (digits.take 1) ++
    (if fraction.isEmpty then "" else "." ++ String.ofList fraction) ++
    "e" ++ toString (d.point - 1)

end Decimal

namespace Binary

variable {φ : Format}

/-- Distances to the ends of the interval that reads back to `x`, downwards and upwards, in
quarter units. A power of two has its lower neighbour at half the distance. -/
def readBackMargins (x : Binary φ) : Nat × Nat :=
  let ulp := Nat.pow 2 x.ulpExponent
  (if x.significand = φ.step then ulp else 2 * ulp, 2 * ulp)

/-- The candidate of the decimals that are multiples of `10 ^ exponent`. All lengths are
multiplied out to natural numbers. -/
def candidateAt (x : Binary φ) (exponent : Int) : Option Decimal :=
  let (below, above) := x.readBackMargins
  let (upScale, downScale) :=
    if exponent < 0 then (1, Nat.pow 10 exponent.natAbs) else (Nat.pow 10 exponent.natAbs, 1)
  let number := 4 * x.units * downScale
  let step := 4 * Nat.pow 2 φ.scale * upScale
  let lower := number / step
  let rest := number % step
  let within (distance margin : Nat) : Bool :=
    distance < margin * downScale ||
      (distance == margin * downScale && x.significand % 2 == 0)
  let down := within rest below
  let up := within (step - rest) above
  if up && (!down || step ≤ 2 * rest) then some ⟨lower + 1, exponent⟩
  else if down then some ⟨lower, exponent⟩
  else none

/-- Exponent of the power of ten at or below a positive number. Below one it is read off the
inverse, less its last unit where the inverse is whole. -/
def decimalExponent (x : Binary φ) : Int :=
  let one := Nat.pow 2 φ.scale
  if one ≤ x.units then (Decimal.length (x.units / one) : Int) - 1
  else -(Decimal.length ((one - 1) / x.units) : Int)

/-- Digits that always suffice to tell the numbers of a format apart. -/
def enoughDigits (φ : Format) : Nat := (φ.fractionBits + 1) * 30103 / 100000 + 2

def shortest (x : Binary φ) : Decimal :=
  let top := x.decimalExponent
  let exponents := (List.range (enoughDigits φ)).map fun (n : Nat) => top - n
  match exponents.findSome? x.candidateAt with
  | some decimal => decimal.trimWithin (enoughDigits φ)
  | none => ⟨0, 0⟩

def print (layout : Decimal → String) (x : Binary φ) : String :=
  if x.isNaN then "NaN"
  else
    let sign := if x.negative then "-" else ""
    if x.isInfinite then sign ++ "inf"
    else if x.isZero then sign ++ layout ⟨0, 0⟩
    else sign ++ layout x.shortest

/-- The form in which values are shown: a fraction is always present, and numbers below
`1e-4` or from `1e16` on have an exponent. -/
def text (x : Binary φ) : String :=
  x.print fun d => if -3 ≤ d.point && d.point ≤ 16 then d.plain ".0" else d.scientific

/-- The form without exponent or needless fraction. -/
def plainText (x : Binary φ) : String := x.print fun d => d.plain ""

end Binary

end GraphQuery
