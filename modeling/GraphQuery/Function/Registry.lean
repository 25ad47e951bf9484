import GraphQuery.Function.Conversion
import GraphQuery.Function.Entity
import GraphQuery.Function.Numeric
import GraphQuery.Function.Sequence
import GraphQuery.Function.Temporal
import GraphQuery.Function.Text
import GraphQuery.Graph.Context

/-! Calling functions by name: the built-in ones in any letter case, then those registered
from outside under the very name of the call. -/

namespace GraphQuery

abbrev Builtin := Graph → List Entry → Outcome Value

def builtins : List (String × Builtin) :=
  [(pathFunctionName, fun _ => pathFunction),
   ("abs", fun _ => absFunction),
   ("ceil", fun _ => ceilFunction),
   ("coalesce", fun _ => coalesceFunction),
   ("concat", fun _ => concatFunction),
   ("contains", fun _ => containsFunction),
   ("date", fun _ => dateFunction),
   ("datetime", fun _ => dateTimeFunction),
   ("datetimecomponent", fun _ => dateTimeComponentFunction),
   ("endnode", fun _ => endNodeFunction),
   ("endswith", fun _ => endsWithFunction),
   ("euid", edgeIdFunction),
   ("exists", fun _ => existsFunction),
   ("floor", fun _ => floorFunction),
   ("head", fun _ => headFunction),
   ("id", idFunction),
   ("keys", keysFunction),
   ("label", labelFunction),
   ("labels", labelsFunction),
   ("last", fun _ => lastFunction),
   ("left", fun _ => leftFunction),
   ("length", fun _ => sizeFunction),
   ("ltrim", fun _ => leftTrimFunction),
   ("properties", propertiesFunction),
   ("range", fun _ => rangeFunction),
   ("replace", fun _ => replaceFunction),
   ("reverse", fun _ => reverseFunction),
   ("right", fun _ => rightFunction),
   ("round", fun _ => roundFunction),
   ("rtrim", fun _ => rightTrimFunction),
   ("sign", fun _ => signFunction),
   ("size", fun _ => sizeFunction),
   ("split", fun _ => splitFunction),
   ("startnode", fun _ => startNodeFunction),
   ("startswith", fun _ => startsWithFunction),
   ("subscript", fun _ => subscriptFunction),
   ("substring", fun _ => substringFunction),
   ("toboolean", fun _ => toBooleanFunction),
   ("tofloat", fun _ => toFloatFunction),
   ("tofloat32list", fun _ => toFloat32ListFunction),
   ("tointeger", fun _ => toIntegerFunction),
   ("tolower", fun _ => toLowerFunction),
   ("tostring", fun _ => toStringFunction),
   ("toupper", fun _ => toUpperFunction),
   ("trim", fun _ => trimFunction),
   ("type", typeFunction)]

def builtin? (name : String) : Option Builtin := List.lookup name builtins

/-- The arguments of a function from outside, which takes values only. -/
def pluginArguments (name : String) : List Entry → Outcome (List Value)
  | [] => .ok []
  | .constant v :: rest => do
    let values ← pluginArguments name rest
    return v :: values
  | arg :: _ =>
    .error (.invalidArgument name ("plugins accept values only, got " ++ arg.kindName))

def callPlugin (plugins : Plugins) (name : String) (args : List Entry) : Outcome Value := do
  let values ← pluginArguments name args
  match ← plugins name values with
  | some result => return result
  | none => .error (.functionNotFound name)

def callFunction (ctx : Context) (name : String) (args : List Entry) : Outcome Value :=
  match builtin? (lowerCase name) with
  | some builtin => builtin ctx.graph args
  | none =>
    match ctx.plugins with
    | some plugins => callPlugin plugins name args
    | none => .error (.functionNotFound name)

end GraphQuery
