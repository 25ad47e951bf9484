import GraphQuery.Function.Argument
import GraphQuery.Text.Blank
import GraphQuery.Text.Case
import GraphQuery.Text.Pieces

/-! Functions over texts. Positions and lengths count characters. -/

namespace GraphQuery

def textFunction (function : String) (f : String → String) (args : List Entry) :
    Outcome Value := do
  let arg ← oneArgument function args
  match ← textArgument function arg with
  | some s => return .string (f s)
  | none => return .null

def toLowerFunction : List Entry → Outcome Value := textFunction "tolower" lowerCase

def toUpperFunction : List Entry → Outcome Value := textFunction "toupper" upperCase

def trimFunction : List Entry → Outcome Value := textFunction "trim" trim

def leftTrimFunction : List Entry → Outcome Value := textFunction "ltrim" trimStart

def rightTrimFunction : List Entry → Outcome Value := textFunction "rtrim" trimEnd

def reverseFunction : List Entry → Outcome Value :=
  textFunction "reverse" fun s => String.ofList s.toList.reverse

def replaceFunction (args : List Entry) : Outcome Value := do
  let (subject, search, replacement) ← threeArguments "replace" args
  let s ← textArgument "replace" subject
  let search ← textArgument "replace" search
  let replacement ← textArgument "replace" replacement
  match s, search, replacement with
  | some s, some search, some replacement =>
    if search.isEmpty then return .string s
    else
      return .string (String.ofList (replaceFrom search.toList replacement.toList 0 s.toList))
  | _, _, _ => return .null

def splitText (s delimiters : String) : List String :=
  if delimiters.isEmpty then [s]
  else
    let delimiters := delimiters.toList
    (splitAtAny (fun c => delimiters.contains c) s.toList).map String.ofList

def splitFunction (args : List Entry) : Outcome Value := do
  let (subject, delimiters) ← twoArguments "split" args
  let s ← textArgument "split" subject
  let delimiters ← textArgument "split" delimiters
  match s, delimiters with
  | some s, some delimiters => return .strings (splitText s delimiters)
  | _, _ => return .null

def lengthArgument (function : String) (arg : Entry) : Outcome Nat := do
  let n ← intArgument function arg
  if n.toInt < 0 then
    .error (.invalidArgument function ("length must not be negative, got " ++ toString n.toInt))
  return n.toInt.toNat

def leftText (s : String) (n : Nat) : String := String.ofList (s.toList.take n)

def rightText (s : String) (n : Nat) : String :=
  String.ofList (s.toList.drop (s.toList.length - n))

/-- One end of a text. The length is read before the text. -/
def endOfText (function : String) (pick : String → Nat → String) (args : List Entry) :
    Outcome Value := do
  let (subject, length) ← twoArguments function args
  let n ← lengthArgument function length
  match ← textArgument function subject with
  | some s => return .string (pick s n)
  | none => return .null

def leftFunction : List Entry → Outcome Value := endOfText "left" leftText

def rightFunction : List Entry → Outcome Value := endOfText "right" rightText

/-- How many characters of a text there are from a position on. -/
def roomFrom (size start : Int64) : Int64 := size - (start - 1)

/-- The part of a text that starts at a position counted from one. Both ends of the part
must lie inside the text. -/
def substringText (s : String) (start length : Int64) : Outcome String :=
  let size := Int64.ofNat s.toList.length
  if start < 1 || size < start then
    .error (.invalidArgument "substring"
      ("start " ++ toString start.toInt ++ " out of range 1..=" ++ toString size.toInt))
  else if length < 1 || roomFrom size start < length then
    .error (.invalidArgument "substring"
      ("length " ++ toString length.toInt ++ " runs past the end of the string"))
  else .ok (String.ofList ((s.toList.drop (start - 1).toInt.toNat).take length.toInt.toNat))

/-- A text argument in a place where Null reads as the empty text. -/
def textOrEmpty (function : String) (arg : Entry) : Outcome String :=
  (textArgument function arg).map fun s => s.getD ""

def substringFunction (args : List Entry) : Outcome Value := do
  let (subject, start, length) ← threeArguments "substring" args
  let s ← textOrEmpty "substring" subject
  let start ← intArgument "substring" start
  let length ← intArgument "substring" length
  (substringText s start length).map Value.string

/-- Appends texts, which must not be Null, from the argument numbered `number` on. -/
def appendTexts (number : Nat) : List Entry → Outcome String
  | [] => .ok ""
  | arg :: rest => do
    match ← textArgument "concat" arg with
    | some s =>
      let tail ← appendTexts (number + 1) rest
      return s ++ tail
    | none =>
      .error (.invalidArgument "concat"
        ("argument " ++ toString number ++ " expects String, got Null"))

/-- Joins texts. Only the first may be Null and then reads as the empty text. -/
def concatFunction : List Entry → Outcome Value
  | first :: second :: rest => do
    let head ← textOrEmpty "concat" first
    let tail ← appendTexts 2 (second :: rest)
    return .string (head ++ tail)
  | _ => .error (.invalidArgument "concat" "expected at least 2 arguments")

/-- A test of a text against another. A Null text reads as empty; against Null the answer
is Null. -/
def textTest (function : String) (test : List Char → List Char → Bool) (args : List Entry) :
    Outcome Value := do
  let (subject, needle) ← twoArguments function args
  let s ← textOrEmpty function subject
  match ← textArgument function needle with
  | some needle => return .bool (test needle.toList s.toList)
  | none => return .null

def startsWithFunction : List Entry → Outcome Value := textTest "startswith" List.isPrefixOf

def endsWithFunction : List Entry → Outcome Value := textTest "endswith" List.isSuffixOf

def containsFunction : List Entry → Outcome Value := textTest "contains" occursIn

end GraphQuery
