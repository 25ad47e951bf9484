import GraphQuery.Binary.Format

/-! Rounding to nearest, ties to even. A ratio is counted in least positive numbers, so the
shift below is the exponent of the last place and the packed word is a plain sum: a
quotient that rounds up to the next power of two carries into the exponent field. -/

namespace GraphQuery

/-- The integer nearest `num / den`, the even one of two equally near. -/
def nearestEven (num den : Nat) : Nat :=
  let quotient := num / den
  let twice := 2 * (num % den)
  if den < twice || (twice == den && quotient % 2 == 1) then quotient + 1 else quotient

namespace Binary

variable {φ : Format}

/-- Rounds `num / den` least positive numbers. -/
def roundUnits (negative : Bool) (num den : Nat) : Binary φ :=
  let shift := Nat.log2 (num / den) - φ.fractionBits
  let rounded := nearestEven num (den * Nat.pow 2 shift)
  ⟨negative, min (shift * φ.step + rounded) φ.infinity⟩

def ofRatio (negative : Bool) (num den : Nat) : Binary φ :=
  roundUnits negative (num * Nat.pow 2 φ.scale) den

def ofInt (n : Int) : Binary φ := ofRatio (n < 0) n.natAbs 1

/-- Conversion between formats. A NaN keeps its sign. -/
def convert {ψ : Format} (x : Binary ψ) : Binary φ :=
  if x.isNaN then nan x.negative
  else if x.isInfinite then infinite x.negative
  else ofRatio x.negative x.units (Nat.pow 2 ψ.scale)

end Binary

end GraphQuery
