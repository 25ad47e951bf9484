import GraphQuery.Aggregate.Operand

/-! Counting and collecting the operands of a group. -/

namespace GraphQuery

/-- `distinct` is the flag of the first row; `seen` are the operands it has let through. -/
structure Count where
  count : Nat
  distinct : Option Bool
  seen : List Entry

namespace Count

def empty : Count := ⟨0, none, []⟩

def increment (c : Count) : Count := { c with count := c.count + 1 }

/-- Counts an operand that is not Null; with DISTINCT, only when no other refers to the
same. -/
def offer (distinct : Bool) (operand : Entry) (c : Count) : Count :=
  if operand.isNull then c
  else if !distinct then c.increment
  else if c.seen.any fun e => e.equal operand.snapshot then c
  else { c.increment with seen := c.seen ++ [operand.snapshot] }

/-- A single argument is the mark of a row that counts as a whole. Otherwise the flag of the
first row stays, even when that row has no operand. -/
def step (args : List Entry) (c : Count) : Outcome Unit × Count :=
  match args with
  | [mark] => (.ok (), if mark.isNull then c else c.increment)
  | args =>
    match splitFlag "count" args with
    | .error e => (.error e, c)
    | .ok (flag, operands) =>
      let distinct := c.distinct.getD flag
      attempt (fun c => (firstOperand "count" operands).map fun operand => c.offer distinct operand)
        { c with distinct := some distinct }

end Count

/-- Values of a group in arrival order, and the texts that DISTINCT has let through. -/
structure Collection where
  items : List Value
  seen : List String

namespace Collection

def empty : Collection := ⟨[], []⟩

/-- A value as it is, an element by its text. -/
def collected : Entry → Value
  | .constant v => v
  | entity => .string entity.text

/-- Keeps an operand that is not Null; with DISTINCT, only when none prints alike. -/
def offer (distinct : Bool) (operand : Entry) (c : Collection) : Collection :=
  if operand.isNull then c
  else if !distinct then { c with items := c.items ++ [collected operand] }
  else if c.seen.contains operand.text then c
  else ⟨c.items ++ [collected operand], c.seen ++ [operand.text]⟩

def step (args : List Entry) (c : Collection) : Outcome Collection := do
  let (distinct, operands) ← splitFlag "collect" args
  let operand ← firstOperand "collect" operands
  return c.offer distinct operand

end Collection

end GraphQuery
