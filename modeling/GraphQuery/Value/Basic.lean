import GraphQuery.Value.Scalar

/-! Property values: scalars, lists and maps. The fields of a map are kept in the order of
their keys, each key once. -/

namespace GraphQuery

inductive Value where
  | scalar (s : Scalar)
  | list (items : List Value)
  | map (fields : List (String × Value))

abbrev Fields := List (String × Value)

namespace Fields

def set (key : String) (value : Value) : Fields → Fields
  | [] => [(key, value)]
  | (k, v) :: rest =>
    if key = k then (key, value) :: rest
    else if key < k then (key, value) :: (k, v) :: rest
    else (k, v) :: set key value rest

def find? (key : String) (fields : Fields) : Option Value := List.lookup key fields

def keys (fields : Fields) : List String := fields.map Prod.fst

/-- Fields set one after the other; the last of one key stays. -/
def ofList (entries : List (String × Value)) : Fields :=
  entries.foldl (fun fields entry => set entry.1 entry.2 fields) []

end Fields

namespace Value

def null : Value := scalar .null

def bool (b : Bool) : Value := scalar (.bool b)

def int (n : Int64) : Value := scalar (.int64 n)

def double (x : Double) : Value := scalar (.double x)

def string (s : String) : Value := scalar (.string s)

def strings (items : List String) : Value := list (items.map string)

def asScalar : Value → Option Scalar
  | scalar s => some s
  | _ => none

def asBool (v : Value) : Option Bool := v.asScalar.bind Scalar.asBool

def asInt (v : Value) : Option Int64 := v.asScalar.bind Scalar.asInt

def asDouble (v : Value) : Option Double := v.asScalar.bind Scalar.asDouble

def asString (v : Value) : Option String := v.asScalar.bind Scalar.asString

def asList : Value → Option (List Value)
  | list items => some items
  | _ => none

def asMap : Value → Option Fields
  | map fields => some fields
  | _ => none

def isNull : Value → Bool
  | scalar s => s.isNull
  | _ => false

def isScalar : Value → Bool
  | scalar _ => true
  | _ => false

def isList : Value → Bool
  | list _ => true
  | _ => false

def isMap : Value → Bool
  | map _ => true
  | _ => false

def isBool (v : Value) : Bool := v.asScalar.any Scalar.isBool

def isInteger (v : Value) : Bool := v.asScalar.any Scalar.isInteger

def isReal (v : Value) : Bool := v.asScalar.any Scalar.isReal

def isNumeric (v : Value) : Bool := v.asScalar.any Scalar.isNumeric

def isString (v : Value) : Bool := v.asScalar.any Scalar.isString

def typeName : Value → String
  | scalar s => s.typeName
  | list _ => "List"
  | map _ => "Map"

end Value

end GraphQuery
