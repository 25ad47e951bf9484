import GraphQuery.Value.Basic

/-! The order of values and their equality. Scalars come before lists and lists before maps;
within lists and maps the first difference decides. -/

namespace GraphQuery

mutual

def Value.compare : Value → Value → Ordering
  | .scalar a, .scalar b => a.compare b
  | .scalar _, _ => .lt
  | .list _, .scalar _ => .gt
  | .list as, .list bs => compareItems as bs
  | .list _, .map _ => .lt
  | .map as, .map bs => compareFields as bs
  | .map _, _ => .gt
termination_by structural a => a

def compareItems : List Value → List Value → Ordering
  | [], [] => .eq
  | [], _ :: _ => .lt
  | _ :: _, [] => .gt
  | a :: as, b :: bs => (a.compare b).then (compareItems as bs)
termination_by structural as => as

def compareFields : List (String × Value) → List (String × Value) → Ordering
  | [], [] => .eq
  | [], _ :: _ => .lt
  | _ :: _, [] => .gt
  | (j, a) :: as, (k, b) :: bs =>
    ((Ord.compare j k).then (a.compare b)).then (compareFields as bs)
termination_by structural as => as

end

mutual

def Value.equal : Value → Value → Bool
  | .scalar a, .scalar b => a.equal b
  | .list as, .list bs => equalItems as bs
  | .map as, .map bs => equalFields as bs
  | _, _ => false
termination_by structural a => a

def equalItems : List Value → List Value → Bool
  | [], [] => true
  | a :: as, b :: bs => a.equal b && equalItems as bs
  | _, _ => false
termination_by structural as => as

def equalFields : List (String × Value) → List (String × Value) → Bool
  | [], [] => true
  | (j, a) :: as, (k, b) :: bs => j == k && a.equal b && equalFields as bs
  | _, _ => false
termination_by structural as => as

end

end GraphQuery
