import GraphQuery.Binary.Round

/-! Arithmetic on binary numbers: the exact result, rounded once. An invalid operation
gives the negative NaN, and a NaN operand is handed on, the left one first. -/

namespace GraphQuery

/-- Integer square root by halving the number of binary digits. -/
def squareRootWithin : Nat → Nat → Nat
  | 0, _ => 0
  | fuel + 1, n =>
    let root := 2 * squareRootWithin fuel (n / 4)
    if (root + 1) * (root + 1) ≤ n then root + 1 else root

def squareRoot (n : Nat) : Nat := squareRootWithin (Nat.log2 n / 2 + 1) n

namespace Binary

variable {φ : Format}

/-- The result of an operation without a value. -/
def invalid : Binary φ := nan true

/-- Runs `op` on numbers and hands on a NaN operand. -/
def onNumbers (x y : Binary φ) (op : Binary φ) : Binary φ :=
  if x.isNaN then x else if y.isNaN then y else op

/-- Rounds a signed count of units. `zeroSign` is the sign of an exact zero. -/
def ofUnits (zeroSign : Bool) (n : Int) : Binary φ :=
  if n = 0 then zero zeroSign else roundUnits (n < 0) n.natAbs 1

def addNumbers (x y : Binary φ) : Binary φ :=
  if x.isInfinite then
    if y.isInfinite && x.negative != y.negative then invalid else x
  else if y.isInfinite then y
  else ofUnits (x.negative && y.negative) (x.value + y.value)

def add (x y : Binary φ) : Binary φ := onNumbers x y (addNumbers x y)

def sub (x y : Binary φ) : Binary φ := onNumbers x y (addNumbers x y.neg)

def mul (x y : Binary φ) : Binary φ :=
  onNumbers x y <|
    let negative := x.negative != y.negative
    if x.isInfinite || y.isInfinite then
      if x.isZero || y.isZero then invalid else infinite negative
    else roundUnits negative (x.units * y.units) (Nat.pow 2 φ.scale)

def div (x y : Binary φ) : Binary φ :=
  onNumbers x y <|
    let negative := x.negative != y.negative
    if x.isInfinite then if y.isInfinite then invalid else infinite negative
    else if y.isInfinite then zero negative
    else if y.isZero then if x.isZero then invalid else infinite negative
    else roundUnits negative (x.units * Nat.pow 2 φ.scale) y.units

/-- Remainder of the truncated quotient, with the sign of the dividend. -/
def rem (x y : Binary φ) : Binary φ :=
  onNumbers x y <|
    if x.isInfinite || y.isZero then invalid
    else if y.isInfinite then x
    else roundUnits x.negative (x.units % y.units) 1

/-- Square root. A bit below the integer root records whether the root is exact. -/
def sqrt (x : Binary φ) : Binary φ :=
  if x.isNaN || x.isZero then x
  else if x.negative then invalid
  else if x.isInfinite then x
  else
    let square := x.units * Nat.pow 2 φ.scale
    let root := squareRoot square
    roundUnits false (2 * root + if root * root < square then 1 else 0) 2

/-- Replaces the magnitude by the whole number that `pick` chooses from the whole part and
the rest, the rest counted in units. Whole numbers and non-numbers stay as they are. -/
def toWhole (pick : Nat → Nat → Nat) (x : Binary φ) : Binary φ :=
  let one := Nat.pow 2 φ.scale
  if x.isNaN || x.isInfinite || x.units % one = 0 then x
  else ofRatio x.negative (pick (x.units / one) (x.units % one)) 1

def floor (x : Binary φ) : Binary φ :=
  toWhole (fun whole _ => if x.negative then whole + 1 else whole) x

def ceil (x : Binary φ) : Binary φ :=
  toWhole (fun whole _ => if x.negative then whole else whole + 1) x

/-- Halves go away from zero. -/
def round (x : Binary φ) : Binary φ :=
  toWhole (fun whole rest => if Nat.pow 2 φ.scale ≤ 2 * rest then whole + 1 else whole) x

/-- The integer part, cut to the range of 64-bit integers. NaN gives zero. -/
def toInt64 (x : Binary φ) : Int64 :=
  if x.isNaN then 0
  else
    let whole := x.units / Nat.pow 2 φ.scale
    if x.negative then Int64.ofInt (max (-(whole : Int)) Int64.minValue.toInt)
    else Int64.ofInt (min (whole : Int) Int64.maxValue.toInt)

def bits (x : Double) : Nat := (if x.negative then Nat.pow 2 63 else 0) + x.word

def ofBits (bits : Nat) : Double := ⟨Nat.pow 2 63 ≤ bits, bits % Nat.pow 2 63⟩

/-- Power by the machine's function, assumed to be the one of the C library `libm`. Nothing is used of it but
that it gives a number, a NaN or an infinity. The machine does not tell the sign of a NaN, so that sign
follows the operands as in the other operations. -/
def pow (x y : Double) : Double :=
  let machine (z : Double) : Float := Float.ofBits (UInt64.ofNat z.bits)
  let result := ofBits ((machine x).pow (machine y)).toBits.toNat
  if result.isNaN then onNumbers x y invalid else result

end Binary

end GraphQuery
