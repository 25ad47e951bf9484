import GraphQuery.Text.Hidden

/-! Texts between double quotes, with every character that cannot be seen spelled out. -/

namespace GraphQuery

def spellCode (c : Char) : String :=
  "\\u\x7b" ++ String.ofList (Nat.toDigits 16 c.toNat) ++ "\x7d"

def spellChar (c : Char) : String :=
  match c with
  | '\x00' => "\\0"
  | '\t' => "\\t"
  | '\r' => "\\r"
  | '\n' => "\\n"
  | '"' => "\\\""
  | '\\' => "\\\\"
  | c => if hiddenRanges.has c then spellCode c else c.toString

def quoted (text : String) : String :=
  "\"" ++ String.join (text.toList.map spellChar) ++ "\""

end GraphQuery
