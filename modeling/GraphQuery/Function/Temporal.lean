import GraphQuery.Calendar.Reader
import GraphQuery.Function.Argument
import GraphQuery.Text.Case
import GraphQuery.Text.Quoted

/-! Dates and times from texts, and their fields. -/

namespace GraphQuery

/-- The argument of a function that would give the current time without one. -/
def momentArgument (function : String) : List Entry → Outcome (Entry × Value)
  | [] =>
    .error (.invalidArgument function
      "current time is not available; pass an ISO-8601 string")
  | [arg] => (valueArgument function arg).map fun v => (arg, v)
  | args => .error (wrongCountBetween function 0 1 args)

/-- A date from a text; a date and time loses its time. -/
def dateFunction (args : List Entry) : Outcome Value := do
  let (arg, v) ← momentArgument "date" args
  match v with
  | .scalar .null | .scalar (.date _) => return v
  | .scalar (.dateTime t) => return .scalar (.date t.date)
  | .scalar (.string s) =>
    match Date.read (trim s) with
    | .ok d => return .scalar (.date d)
    | .error fault => .error (.invalidArgument "date" (quoted s ++ ": " ++ fault.message))
  | _ => .error (argumentMismatch "date" "String or temporal value" arg)

/-- A date and time from a text; a date becomes its midnight. -/
def dateTimeFunction (args : List Entry) : Outcome Value := do
  let (arg, v) ← momentArgument "datetime" args
  match v with
  | .scalar .null | .scalar (.dateTime _) => return v
  | .scalar (.date d) => return .scalar (.dateTime ⟨d, Time.midnight⟩)
  | .scalar (.string s) =>
    match DateTime.read (trim s) with
    | some t => return .scalar (.dateTime t)
    | none => .error (.invalidArgument "datetime" ("cannot parse " ++ quoted s))
  | _ => .error (argumentMismatch "datetime" "String or temporal value" arg)

def momentField (t : DateTime) (component : String) : Outcome Int :=
  match component with
  | "year" => .ok t.date.year
  | "month" => .ok t.date.month
  | "day" => .ok t.date.day
  | "hour" => .ok t.time.hour
  | "minute" => .ok t.time.minute
  | "second" => .ok t.time.second
  | "microsecond" => .ok (t.time.nanosecond / 1000 : Nat)
  | other => .error (.invalidArgument "datetimecomponent" ("unknown component " ++ quoted other))

def dateTimeComponentFunction (args : List Entry) : Outcome Value := do
  let (subject, component) ← twoArguments "datetimecomponent" args
  let v ← valueArgument "datetimecomponent" subject
  let moment ← match v with
    | .scalar .null => .ok none
    | .scalar (.date d) => .ok (some ⟨d, Time.midnight⟩)
    | .scalar (.dateTime t) => .ok (some t)
    | _ => .error (argumentMismatch "datetimecomponent" "Date or DateTime" subject)
  match moment with
  | none => return .null
  | some t =>
    let name ← valueArgument "datetimecomponent" component
    match name.asString with
    | some name =>
      let n ← momentField t (lowerCase name)
      return .int (Int64.ofInt n)
    | none => .error (argumentMismatch "datetimecomponent" "String" component)

end GraphQuery
