import GraphQuery.Error
import GraphQuery.Value.Printer

/-! Arithmetic on values. Null absorbs; integers of any width give an exact 64-bit integer
or an error; a real on either side makes the operation one on doubles. Addition also joins
lists and texts. -/

namespace GraphQuery

inductive ArithmeticOp where
  | add
  | sub
  | mul
  | div
  | mod
  | pow
deriving DecidableEq

namespace ArithmeticOp

def name : ArithmeticOp → String
  | add => "Add"
  | sub => "Sub"
  | mul => "Mul"
  | div => "Div"
  | mod => "Mod"
  | pow => "Pow"

end ArithmeticOp

def exactInt64 (n : Int) : Option Int64 :=
  if Int64.minValue.toInt ≤ n && n ≤ Int64.maxValue.toInt then some (Int64.ofInt n) else none

theorem toInt_of_exactInt64 {n : Int} {m : Int64} (h : exactInt64 n = some m) : m.toInt = n := by
  rw [exactInt64] at h
  split at h
  · rename_i fits
    rw [Int64.toInt_minValue, Int64.toInt_maxValue, Bool.and_eq_true, decide_eq_true_iff,
      decide_eq_true_iff] at fits
    rw [← Option.some.inj h]
    exact Int64.toInt_ofInt_of_le fits.1 (Int.lt_of_le_sub_one fits.2)
  · cases h

/-- Exact integer arithmetic. Division truncates, and where the quotient overflows there is
no remainder either. -/
def integerArithmetic (op : ArithmeticOp) (a b : Int64) : Outcome Int64 :=
  let checked (n : Option Int64) : Outcome Int64 :=
    match n with
    | some n => .ok n
    | none => .error (.typeMismatch op.name "integer overflow")
  match op with
  | .add => checked (exactInt64 (a.toInt + b.toInt))
  | .sub => checked (exactInt64 (a.toInt - b.toInt))
  | .mul => checked (exactInt64 (a.toInt * b.toInt))
  | .div =>
    if b.toInt = 0 then .error .divisionByZero
    else checked (exactInt64 (Int.tdiv a.toInt b.toInt))
  | .mod =>
    if b.toInt = 0 then .error .divisionByZero
    else
      checked ((exactInt64 (Int.tdiv a.toInt b.toInt)).bind fun _ =>
        exactInt64 (Int.tmod a.toInt b.toInt))
  | .pow => .error (.internalInvariant "integer pow is computed as real")

def realArithmetic (op : ArithmeticOp) (a b : Double) : Outcome Double :=
  match op with
  | .add => .ok (a.add b)
  | .sub => .ok (a.sub b)
  | .mul => .ok (a.mul b)
  | .div => if b.isZero then .error .divisionByZero else .ok (a.div b)
  | .mod => if b.isZero then .error .divisionByZero else .ok (a.rem b)
  | .pow => .ok (a.pow b)

namespace Value

def mismatch (operation : String) (a b : Value) : Error :=
  .typeMismatch operation (a.typeName ++ " and " ++ b.typeName)

def arithmeticNumbers (op : ArithmeticOp) (a b : Value) : Outcome Value :=
  match a.asDouble, b.asDouble with
  | some x, some y =>
    match a.asInt, b.asInt with
    | some m, some n =>
      if op = .pow then (realArithmetic op x y).map double
      else (integerArithmetic op m n).map int
    | _, _ => (realArithmetic op x y).map double
  | _, _ => .error (mismatch op.name a b)

/-- Joining by addition, where one side is a list or a text. -/
def join (a b : Value) : Option (Outcome Value) :=
  match a, b with
  | list as, list bs => some (.ok (list (as ++ bs)))
  | list as, b => some (.ok (list (as ++ [b])))
  | a, list bs => some (.ok (list (a :: bs)))
  | a, b =>
    if a.isString || b.isString then
      if a.isBool || b.isBool || a.isMap || b.isMap then
        some (.error (mismatch ArithmeticOp.add.name a b))
      else some (.ok (string (a.text ++ b.text)))
    else none

def arithmetic (op : ArithmeticOp) (a b : Value) : Outcome Value :=
  if a.isNull || b.isNull then .ok null
  else if op = .add then
    match join a b with
    | some joined => joined
    | none => arithmeticNumbers op a b
  else arithmeticNumbers op a b

def add (a b : Value) : Outcome Value := arithmetic .add a b

def sub (a b : Value) : Outcome Value := arithmetic .sub a b

def mul (a b : Value) : Outcome Value := arithmetic .mul a b

def div (a b : Value) : Outcome Value := arithmetic .div a b

def mod (a b : Value) : Outcome Value := arithmetic .mod a b

def pow (a b : Value) : Outcome Value := arithmetic .pow a b

def neg (a : Value) : Outcome Value :=
  if a.isNull then .ok null
  else
    match a.asInt with
    | some n =>
      match exactInt64 (-n.toInt) with
      | some m => .ok (int m)
      | none => .error (.typeMismatch "Neg" "integer overflow")
    | none =>
      match a.asDouble with
      | some x => .ok (double x.neg)
      | none => .error (.typeMismatch "Neg" ("cannot negate " ++ a.typeName))

end Value

end GraphQuery
