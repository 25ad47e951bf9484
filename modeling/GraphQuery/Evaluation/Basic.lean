import GraphQuery.Evaluation.Environment
import GraphQuery.Evaluation.Operator

/-! Evaluation of expressions. Each kind of node has its rule over the meanings of its
children, which are evaluated from left to right; the first error is the result. -/

namespace GraphQuery

/-- What an expression gives under the variables of the comprehensions around it. -/
abbrev Meaning := Scope → Outcome Entry

namespace Meaning

def null : Meaning := fun _ => .ok .null

def noMatch : Meaning := fun _ => .error .caseNoMatch

def all (items : List Meaning) (scope : Scope) : Outcome (List Entry) :=
  items.mapM fun item => item scope

def elements (items : List Meaning) (scope : Scope) : Outcome (List Value) :=
  items.mapM fun item => do (← item scope).elementValue

def fields (items : List (String × Meaning)) (scope : Scope) : Outcome Fields := do
  let pairs ← items.mapM fun (key, item) => do return (key, ← (← item scope).elementValue)
  return Fields.ofList pairs

def unary (op : UnaryOp) (a : Meaning) : Meaning := fun scope => do
  let value ← operand op.symbol (← a scope)
  return .constant (← op.apply value)

/-- The left operand is checked before the right one is evaluated, and may decide alone. -/
def binary (op : BinaryOp) (left right : Meaning) : Meaning := fun scope => do
  let l ← left scope
  if op.isEquality && !l.isConstant then
    return op.elementEquality l (← right scope)
  let a ← operand op.symbol l
  match op.decided? a with
  | some verdict => return .constant (.bool verdict)
  | none =>
    let r ← right scope
    if op.isEquality && !r.isConstant then return op.elementEquality l r
    let b ← operand op.symbol r
    return .constant (← op.apply a b)

def branches (accepts : Entry → Outcome Bool) (otherwise : Meaning) (scope : Scope) :
    List (Meaning × Meaning) → Outcome Entry
  | [] => otherwise scope
  | (condition, result) :: rest => do
    if ← accepts (← condition scope) then result scope
    else branches accepts otherwise scope rest

/-- Without ELSE, a CASE over conditions gives Null where no branch applies, and a CASE over
a subject fails. -/
def cases (subject : Option Meaning) (cs : List (Meaning × Meaning))
    (otherwise : Option Meaning) : Meaning := fun scope => do
  match subject with
  | none => branches (fun e => .ok e.isTrue) (otherwise.getD null) scope cs
  | some subject =>
    let s ← subject scope
    branches (matchesSubject s) (otherwise.getD noMatch) scope cs

def conditional (condition result : Meaning) (otherwise : Option Meaning) : Meaning :=
  fun scope => do
    if (← condition scope).isTrue then result scope else (otherwise.getD null) scope

def comprehendItem (binder : String) (filter projection : Option Meaning) (scope : Scope)
    (item : Value) : Outcome (Option Value) := do
  let inside : Scope := (binder, .constant item) :: scope
  let accepted ← match filter with
    | some filter => (filter inside).map Entry.isTrue
    | none => .ok true
  if !accepted then return none
  match projection with
  | some projection => return some (← (← projection inside).elementValue)
  | none => return some item

def comprehension (binder : String) (list : Meaning) (filter projection : Option Meaning) :
    Meaning := fun scope => do
  match ← list scope with
  | .constant (.list items) =>
    let values ← items.mapM (comprehendItem binder filter projection scope)
    return .constant (.list (values.filterMap id))
  | other =>
    if other.isNull then return .null
    else .error (.typeMismatch "list comprehension" ("expected a List, got " ++ other.kindName))

end Meaning

def evaluateNode (env : Environment) (id : ExprId) : Node Meaning → Meaning
  | .literal value => fun _ => .ok (.constant value.value)
  | .reference name => fun scope => env.resolve scope name
  | .parameter name => fun _ => env.parameter name
  | .unary op a => Meaning.unary op a
  | .binary op left right => Meaning.binary op left right
  | .property base name => fun scope => do
    readProperty env.context.graph (← base scope) name
  | .call function args => fun scope => do
    return .constant (← callFunction env.context function (← Meaning.all args scope))
  | .aggregate function _ _ => fun _ => env.aggregateResult id function
  | .cases subject branches otherwise => Meaning.cases subject branches otherwise
  | .conditional condition result otherwise => Meaning.conditional condition result otherwise
  | .list items | .tuple items => fun scope => do
    return .constant (.list (← Meaning.elements items scope))
  | .set items => fun scope => do
    return .constant (.list (distinctValues (← Meaning.elements items scope)))
  | .map fields | .record fields => fun scope => do
    return .constant (.map (← Meaning.fields fields scope))
  | .isNull a negated => fun scope => do
    return .constant (.bool ((← a scope).isNull != negated))
  | .hasLabel a label => fun scope => do
    checkLabel env.context.graph (← a scope) label
  | .pathExists aliases => fun scope =>
    .ok (.constant (.bool (aliases.all (env.isPresent scope))))
  | .comprehension binder list filter projection =>
    Meaning.comprehension binder list filter projection

namespace Expr

def meaning (env : Environment) (e : Expr) : Meaning :=
  e.fold (fun id _ below => evaluateNode env id below) fun id _ => .error (outOfRange id)

def evaluate (env : Environment) (e : Expr) : Outcome Entry := e.meaning env []

theorem meaning_node (env : Environment) (id : ExprId) (shape : Node Expr) :
    (node id shape).meaning env = evaluateNode env id (shape.mapChildren (meaning env)) :=
  fold_node _ _ id shape

end Expr

end GraphQuery
