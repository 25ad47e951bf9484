import GraphQuery.Text.CaseClasses
import GraphQuery.Text.CaseRuns

/-! Upper and lower case of whole texts. A character may turn into several, and a capital
sigma turns into the final form at the end of a word. -/

namespace GraphQuery

def mapCase (runs : List CaseRun) (sequences : List (Nat × List Nat)) (c : Char) : List Char :=
  let code := c.toNat
  match sequences.find? fun entry => entry.1 == code with
  | some (_, codes) => codes.map Char.ofNat
  | none =>
    match runs.find? fun run => run.covers code with
    | some run => [Char.ofNat (run.image code)]
    | none => [c]

def lowerChar (c : Char) : List Char := mapCase lowerRuns lowerSequences c

def upperChar (c : Char) : List Char := mapCase upperRuns upperSequences c

def startsCased (text : List Char) : Bool :=
  match text.find? fun c => !caseIgnorableRanges.has c with
  | some c => casedRanges.has c
  | none => false

/-- Lower case of `text`, where `before` holds the characters to its left, nearest first. -/
def lowerAfter (before : List Char) : List Char → List Char
  | [] => []
  | c :: rest =>
    let image :=
      if c = 'Σ' then
        if startsCased before && !startsCased rest then ['ς'] else ['σ']
      else lowerChar c
    image ++ lowerAfter (c :: before) rest

def lowerCase (text : String) : String := String.ofList (lowerAfter [] text.toList)

def upperCase (text : String) : String := String.ofList (text.toList.flatMap upperChar)

end GraphQuery
