import GraphQuery.Calendar.Date
import GraphQuery.Value.Number

/-! Single property values. Numbers of every width stand in one order by their exact value,
with NaN above them all; other kinds follow by rank. -/

namespace GraphQuery

/-- A shape in well-known text with the id of its reference system. -/
structure Geometry where
  srid : UInt32
  wkt : String
deriving DecidableEq

inductive Scalar where
  | null
  | bool (b : Bool)
  | int8 (n : Int8)
  | int16 (n : Int16)
  | int32 (n : Int32)
  | int64 (n : Int64)
  | float (x : Single)
  | double (x : Double)
  | string (s : String)
  | date (d : Date)
  | dateTime (t : DateTime)
  | point (g : Geometry)
  | lineString (g : Geometry)
  | polygon (g : Geometry)
  | floatVector (xs : List Single)
deriving DecidableEq

namespace Geometry

def compare (a b : Geometry) : Ordering :=
  (Ord.compare a.srid b.srid).then (Ord.compare a.wkt b.wkt)

end Geometry

namespace Scalar

def typeName : Scalar → String
  | null => "Null"
  | bool _ => "Bool"
  | int8 _ => "Int8"
  | int16 _ => "Int16"
  | int32 _ => "Int32"
  | int64 _ => "Int64"
  | float _ => "Float"
  | double _ => "Double"
  | string _ => "String"
  | date _ => "Date"
  | dateTime _ => "DateTime"
  | point _ => "Point"
  | lineString _ => "LineString"
  | polygon _ => "Polygon"
  | floatVector _ => "FloatVector"

def rank : Scalar → Nat
  | null => 0
  | bool _ => 1
  | int8 _ | int16 _ | int32 _ | int64 _ | float _ | double _ => 2
  | string _ => 3
  | date _ => 4
  | dateTime _ => 5
  | point _ => 6
  | lineString _ => 7
  | polygon _ => 8
  | floatVector _ => 9

def asInt : Scalar → Option Int64
  | int8 n => some n.toInt64
  | int16 n => some n.toInt64
  | int32 n => some n.toInt64
  | int64 n => some n
  | _ => none

/-- The number as a double; large integers are rounded. -/
def asDouble : Scalar → Option Double
  | float x => some x.convert
  | double x => some x
  | s => s.asInt.map fun n => Binary.ofInt n.toInt

def asBool : Scalar → Option Bool
  | bool b => some b
  | _ => none

def asString : Scalar → Option String
  | string s => some s
  | _ => none

def isNull : Scalar → Bool
  | null => true
  | _ => false

def isBool : Scalar → Bool
  | bool _ => true
  | _ => false

def isInteger : Scalar → Bool
  | int8 _ | int16 _ | int32 _ | int64 _ => true
  | _ => false

def isReal : Scalar → Bool
  | float _ | double _ => true
  | _ => false

def isNumeric (s : Scalar) : Bool := s.isInteger || s.isReal

def isString : Scalar → Bool
  | string _ => true
  | _ => false

def number? : Scalar → Option Number
  | float x => some (.real x.convert)
  | double x => some (.real x)
  | s => s.asInt.map .int

end Scalar

/-- First difference decides; a list comes before its extensions. -/
def compareLists {α : Type} (compareItems : α → α → Ordering) : List α → List α → Ordering
  | [], [] => .eq
  | [], _ :: _ => .lt
  | _ :: _, [] => .gt
  | a :: as, b :: bs => (compareItems a b).then (compareLists compareItems as bs)

namespace Scalar

def compare (a b : Scalar) : Ordering :=
  match a.number?, b.number? with
  | some x, some y => x.compare y
  | _, _ =>
    match a, b with
    | null, null => .eq
    | bool x, bool y => Ord.compare x y
    | string x, string y => Ord.compare x y
    | date x, date y => x.compare y
    | dateTime x, dateTime y => x.compare y
    | point x, point y => x.compare y
    | lineString x, lineString y => x.compare y
    | polygon x, polygon y => x.compare y
    | floatVector xs, floatVector ys => compareLists Binary.totalCompare xs ys
    | _, _ => Ord.compare a.rank b.rank

/-- Equality of values: numbers are equal across widths. -/
def equal (a b : Scalar) : Bool := a.compare b == .eq

end Scalar

end GraphQuery
