import GraphQuery.Binary.Printer
import GraphQuery.Calendar.Printer
import GraphQuery.Text.Pieces
import GraphQuery.Value.Basic

/-! Values as text. Texts stand without quotes, so different values may print alike. -/

namespace GraphQuery

namespace Scalar

def text : Scalar → String
  | null => "NULL"
  | bool b => if b then "true" else "false"
  | int8 n => toString n.toInt
  | int16 n => toString n.toInt
  | int32 n => toString n.toInt
  | int64 n => toString n.toInt
  | float x => x.text
  | double x => x.text
  | string s => s
  | date d => d.text
  | dateTime t => t.text
  | point g | lineString g | polygon g => g.wkt
  | floatVector xs => "[" ++ joinWith "," (xs.map Binary.text) ++ "]"

end Scalar

mutual

def Value.text : Value → String
  | .scalar s => s.text
  | .list items => "[" ++ joinWith "," (itemTexts items) ++ "]"
  | .map fields => "\x7b" ++ joinWith "," (fieldTexts fields) ++ "\x7d"
termination_by structural v => v

def itemTexts : List Value → List String
  | [] => []
  | v :: rest => v.text :: itemTexts rest
termination_by structural items => items

def fieldTexts : List (String × Value) → List String
  | [] => []
  | (key, v) :: rest => (key ++ ":" ++ v.text) :: fieldTexts rest
termination_by structural fields => fields

end

end GraphQuery
