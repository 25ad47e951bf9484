/-! Binary floating-point numbers as a sign and a word. The word packs the exponent field
above the fraction, so among words of one sign the larger word is the larger magnitude.
Every word past the word of infinity is a NaN. -/

namespace GraphQuery

structure Format where
  fractionBits : Nat
  exponentBits : Nat
deriving DecidableEq

namespace Format

def single : Format := ⟨23, 8⟩

def double : Format := ⟨52, 11⟩

/-- One step of the exponent field, seen as a word. -/
def step (φ : Format) : Nat := Nat.pow 2 φ.fractionBits

/-- The word of infinity: an exponent field of ones over an empty fraction. -/
def infinity (φ : Format) : Nat := (Nat.pow 2 φ.exponentBits - 1) * φ.step

/-- The word of the NaN that an invalid operation gives. -/
def quietNaN (φ : Format) : Nat := φ.infinity + Nat.pow 2 (φ.fractionBits - 1)

/-- The least positive number is `2 ^ -scale`. -/
def scale (φ : Format) : Nat := Nat.pow 2 (φ.exponentBits - 1) - 2 + φ.fractionBits

end Format

structure Binary (φ : Format) where
  negative : Bool
  word : Nat
deriving DecidableEq

abbrev Single := Binary .single

abbrev Double := Binary .double

namespace Binary

variable {φ : Format}

def zero (negative : Bool) : Binary φ := ⟨negative, 0⟩

def infinite (negative : Bool) : Binary φ := ⟨negative, φ.infinity⟩

def nan (negative : Bool) : Binary φ := ⟨negative, φ.quietNaN⟩

def isNaN (x : Binary φ) : Bool := φ.infinity < x.word

def isInfinite (x : Binary φ) : Bool := x.word = φ.infinity

def isZero (x : Binary φ) : Bool := x.word = 0

/-- Exponent of the unit in the last place, counted from the least positive number. -/
def ulpExponent (x : Binary φ) : Nat := x.word / φ.step - 1

/-- The fraction, with its leading one when the exponent field is not empty. -/
def significand (x : Binary φ) : Nat :=
  if x.word < φ.step then x.word else φ.step + x.word % φ.step

/-- The magnitude counted in least positive numbers. Infinity takes the place that follows
the greatest finite number. -/
def units (x : Binary φ) : Nat := x.significand * Nat.pow 2 x.ulpExponent

def value (x : Binary φ) : Int := if x.negative then -(x.units : Int) else x.units

/-- Position in the order of all words, where a negative word comes before every positive
one and NaNs lie beyond the infinities of their sign. -/
def totalKey (x : Binary φ) : Int := if x.negative then -(x.word : Int) - 1 else x.word

def totalCompare (x y : Binary φ) : Ordering := compare x.totalKey y.totalKey

/-- False as soon as a side is NaN. -/
def less (x y : Binary φ) : Bool := !x.isNaN && !y.isNaN && x.value < y.value

def lessEq (x y : Binary φ) : Bool := !x.isNaN && !y.isNaN && x.value ≤ y.value

/-- Equality of numbers: zeros of both signs are equal, a NaN equals nothing. -/
def equals (x y : Binary φ) : Bool := !x.isNaN && !y.isNaN && x.value = y.value

def neg (x : Binary φ) : Binary φ := ⟨!x.negative, x.word⟩

def abs (x : Binary φ) : Binary φ := ⟨false, x.word⟩

end Binary

end GraphQuery
