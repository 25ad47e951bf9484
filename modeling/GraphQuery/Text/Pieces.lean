/-! Cutting texts: at delimiter characters, around a searched text, and by position. -/

namespace GraphQuery

/-- The pieces between delimiters. There is one piece more than there are delimiters. -/
def splitAtAny (isDelimiter : Char → Bool) : List Char → List (List Char)
  | [] => [[]]
  | c :: rest =>
    let pieces := splitAtAny isDelimiter rest
    if isDelimiter c then [] :: pieces
    else
      match pieces with
      | [] => [[c]]
      | piece :: others => (c :: piece) :: others

/-- Replaces every occurrence of a text that is not empty, from left to right without
overlap. `skip` counts the characters still covered by the last occurrence. -/
def replaceFrom (search replacement : List Char) : Nat → List Char → List Char
  | _, [] => []
  | skip + 1, _ :: rest => replaceFrom search replacement skip rest
  | 0, c :: rest =>
    if search.isPrefixOf (c :: rest) then
      replacement ++ replaceFrom search replacement (search.length - 1) rest
    else c :: replaceFrom search replacement 0 rest

def occursIn (search : List Char) : List Char → Bool
  | [] => search.isEmpty
  | c :: rest => search.isPrefixOf (c :: rest) || occursIn search rest

def joinWith (separator : String) : List String → String
  | [] => ""
  | [text] => text
  | text :: rest => text ++ separator ++ joinWith separator rest

end GraphQuery
