import GraphQuery.Text.CaseClasses

/-! Blank characters at the ends of a text. -/

namespace GraphQuery

def blankRanges : CodeRanges :=
  [(0x9, 0xd), (0x20, 0x20), (0x85, 0x85), (0xa0, 0xa0), (0x1680, 0x1680), (0x2000, 0x200a),
   (0x2028, 0x2029), (0x202f, 0x202f), (0x205f, 0x205f), (0x3000, 0x3000)]

def isBlank (c : Char) : Bool := blankRanges.has c

def dropBlank (text : List Char) : List Char := text.dropWhile isBlank

def dropBlankEnd (text : List Char) : List Char := (dropBlank text.reverse).reverse

def trimStart (text : String) : String := String.ofList (dropBlank text.toList)

def trimEnd (text : String) : String := String.ofList (dropBlankEnd text.toList)

def trim (text : String) : String := String.ofList (dropBlankEnd (dropBlank text.toList))

end GraphQuery
