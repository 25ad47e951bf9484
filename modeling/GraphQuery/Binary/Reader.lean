import GraphQuery.Binary.Round

/-! Reading decimal text: an optional sign, then a name of a special number or digits with
an optional point and an optional exponent. The value is rounded once, directly to the
format asked for. -/

namespace GraphQuery

def digitsValue (digits : List Char) : Nat :=
  digits.foldl (fun value digit => 10 * value + (digit.toNat - '0'.toNat)) 0

def digitsValueWithin (bound : Nat) (digits : List Char) : Option Nat :=
  digits.foldlM (fun value digit =>
    let next := 10 * value + (digit.toNat - '0'.toNat)
    if next ≤ bound then some next else none) 0

def splitSign : List Char → Bool × List Char
  | '-' :: rest => (true, rest)
  | '+' :: rest => (false, rest)
  | text => (false, text)

/-- The number `digits * 10 ^ exponent`. -/
structure Decimal where
  digits : Nat
  exponent : Int
deriving DecidableEq

namespace Decimal

/-- The size of an exponent, which takes no more digits once it has reached 65536. -/
def exponentValue (digits : List Char) : Nat :=
  digits.foldl (fun value digit =>
    if value < 65536 then 10 * value + (digit.toNat - '0'.toNat) else value) 0

def readExponent (text : List Char) : Option Int :=
  let (negative, digits) := splitSign text
  if digits.isEmpty || !digits.all Char.isDigit then none
  else some (if negative then -(exponentValue digits : Int) else exponentValue digits)

/-- The decimal of a run of digits whose last one counts `10 ^ exponent`. Of the digits after
the eight hundredth it matters only whether one is not zero: no number halfway between
neighbours of a format has so many digits, so a single one in their place decides alike. -/
def ofDigits (digits : List Char) (exponent : Int) : Decimal :=
  let digits := digits.dropWhile fun c => c == '0'
  let kept := digitsValue (digits.take 800)
  let rest := digits.drop 800
  if rest.all fun c => c == '0' then ⟨kept, exponent + rest.length⟩
  else ⟨10 * kept + 1, exponent + rest.length - 1⟩

def read (text : List Char) : Option Decimal :=
  let whole := text.takeWhile Char.isDigit
  let rest := text.dropWhile Char.isDigit
  let (fraction, rest) :=
    match rest with
    | '.' :: rest => (rest.takeWhile Char.isDigit, rest.dropWhile Char.isDigit)
    | _ => ([], rest)
  if whole.isEmpty && fraction.isEmpty then none
  else
    let ofExponent (exponent : Int) := ofDigits (whole ++ fraction) (exponent - fraction.length)
    match rest with
    | [] => some (ofExponent 0)
    | letter :: rest =>
      if letter = 'e' || letter = 'E' then (readExponent rest).map ofExponent else none

def length (n : Nat) : Nat := (Nat.toDigits 10 n).length

/-- Rounds to a format. No number of the format reaches `10 ^ scale` or its inverse, so an
exponent past these bounds is settled without computing the power. -/
def round {φ : Format} (negative : Bool) (d : Decimal) : Binary φ :=
  let top := d.exponent + length d.digits
  if d.digits = 0 || top < -(φ.scale : Int) then Binary.zero negative
  else if (φ.scale : Int) < top then Binary.infinite negative
  else if d.exponent < 0 then
    Binary.ofRatio negative d.digits (Nat.pow 10 d.exponent.natAbs)
  else Binary.ofRatio negative (d.digits * Nat.pow 10 d.exponent.natAbs) 1

end Decimal

inductive RealFault where
  | empty
  | malformed
deriving DecidableEq

namespace RealFault

def message : RealFault → String
  | empty => "cannot parse float from empty string"
  | malformed => "invalid float literal"

end RealFault

namespace Binary

def readSpecial {φ : Format} (negative : Bool) (text : List Char) : Option (Binary φ) :=
  let name := String.ofList (text.map Char.toLower)
  if name = "inf" || name = "infinity" then some (infinite negative)
  else if name = "nan" then some (nan negative)
  else none

def read (φ : Format) (text : String) : Except RealFault (Binary φ) :=
  if text.isEmpty then .error .empty
  else
    let (negative, rest) := splitSign text.toList
    match Decimal.read rest with
    | some decimal => .ok (decimal.round negative)
    | none =>
      match readSpecial negative rest with
      | some number => .ok number
      | none => .error .malformed

end Binary

end GraphQuery
