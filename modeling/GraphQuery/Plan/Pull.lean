import GraphQuery.Plan.Basic

/-! Pulling rows out of a plan, one at a time. An aggregation takes in all rows below it when
its first row is pulled. -/

namespace GraphQuery

inductive Pulled where
  | row
  | depleted
deriving DecidableEq

/-- Pulls until a row is accepted. -/
def pullUntil {σ : Type} (pull : σ → Outcome Pulled × σ) (accepts : σ → Outcome Bool) :
    Nat → σ → Outcome Pulled × σ
  | 0, s => (.ok .depleted, s)
  | fuel + 1, s =>
    match pull s with
    | (.ok .row, s) =>
      match accepts s with
      | .ok true => (.ok .row, s)
      | .ok false => pullUntil pull accepts fuel s
      | .error fault => (.error fault, s)
    | stop => stop

/-- Pulls every row and takes each in, up to the first failure. -/
def drain {σ τ : Type} (pull : σ → Outcome Pulled × σ) (take : σ → τ → Outcome Unit × τ) :
    Nat → σ → τ → Outcome Unit × τ × σ
  | 0, s, t => (.ok (), t, s)
  | fuel + 1, s, t =>
    match pull s with
    | (.ok .row, s) =>
      match take s t with
      | (.ok _, t) => drain pull take fuel s t
      | (.error fault, t) => (.error fault, t, s)
    | (.ok .depleted, s) => (.ok (), t, s)
    | (.error fault, s) => (.error fault, t, s)

/-- Evaluates items into the columns of a row, from the given column on; columns after a
failure keep what they had. -/
def writeColumns (ctx : Context) (input : Record) :
    Nat → List Evaluator → Record → Outcome Unit × Record
  | _, [], row => (.ok (), row)
  | column, e :: rest, row =>
    match e.evaluate ctx input with
    | .ok entry => writeColumns ctx input (column + 1) rest (row.set column entry)
    | .error fault => (.error fault, row)

namespace GroupingState

/-- Delivers the next group. A group that fails is not delivered, but stays reduced as far as it
got. -/
def deliver (s : GroupingState) (grouping : Grouping) (ctx : Context) :
    Outcome Pulled × GroupingState :=
  match s.groups[s.delivered]? with
  | none => (.ok .depleted, { s with phase := .depleted })
  | some group =>
    let (answer, group) := grouping.handOver ctx group
    let s := { s with groups := s.groups.set s.delivered group }
    match answer with
    | .ok record => (.ok .row, { s with record, delivered := s.delivered + 1 })
    | .error fault => (.error fault, s)

section Delivering

variable {s : GroupingState} {grouping : Grouping} {ctx : Context} {g : Group}

theorem deliver_of_none (hg : s.groups[s.delivered]? = none) :
    s.deliver grouping ctx = (.ok .depleted, { s with phase := .depleted }) := by
  simp only [deliver, hg]

theorem deliver_of_ok {row : Record} (hg : s.groups[s.delivered]? = some g)
    (ho : grouping.outputRow ctx g = .ok row) :
    s.deliver grouping ctx = (.ok .row, { s with
      groups := s.groups.set s.delivered (grouping.handOver ctx g).2, record := row,
      delivered := s.delivered + 1 }) := by
  have ho : (grouping.handOver ctx g).1 = .ok row := ho
  simp only [deliver, hg, ho]

theorem deliver_of_error {fault : Error} (hg : s.groups[s.delivered]? = some g)
    (ho : grouping.outputRow ctx g = .error fault) :
    s.deliver grouping ctx = (.error fault, { s with
      groups := s.groups.set s.delivered (grouping.handOver ctx g).2 }) := by
  have ho : (grouping.handOver ctx g).1 = .error fault := ho
  simp only [deliver, hg, ho]

end Delivering

end GroupingState

def notPrepared : Error :=
  .internalInvariant "aggregate operator consumed before initialize"

/-- What a projection answers to an answer from below. -/
def projectAnswer {σ : Type} (ctx : Context) (items : List Evaluator) (look : σ → Record)
    (record : Record) : Outcome Pulled × σ → Outcome Pulled × Record × σ
  | (.ok .row, c) =>
    let (result, record) := writeColumns ctx (look c) 0 items record
    (result.map fun _ => .row, record, c)
  | (stop, c) => (stop, record, c)

/-- What an aggregation answers when the rows below are drained: the failure that ended it, or
its first group. -/
def GroupingState.begin {σ : Type} (s : GroupingState) (grouping : Grouping) (ctx : Context) :
    Outcome Unit × List Group × σ → Outcome Pulled × GroupingState × σ
  | (.error fault, groups, c) => (.error fault, { s with groups }, c)
  | (.ok _, groups, c) =>
    let full := { s with phase := .delivering, groups := grouping.complete groups }
    let (result, s) := full.deliver grouping ctx
    (result, s, c)

namespace Plan

/-- Pulls the next row. Rows below are pulled once more than there can be, so that the end
is met. -/
def pull (ctx : Context) : (plan : Plan) → Cursor plan → Outcome Pulled × Cursor plan
  | values rows, (c : Nat) =>
    if c < rows.length then (.ok .row, (c + 1 : Nat)) else (.ok .depleted, c)
  | filter predicate child, c =>
    let accepts (c : Cursor child) : Outcome Bool :=
      (predicate.evaluate ctx (child.record c)).map Entry.isTrue
    pullUntil (child.pull ctx) accepts (child.remaining c + 1) c
  | project items child, (record, c) =>
    projectAnswer ctx items child.record record (child.pull ctx c)
  | aggregate grouping child, (s, c) =>
    match s.phase with
    | .unprepared => (.error notPrepared, s, c)
    | .depleted => (.ok .depleted, s, c)
    | .delivering =>
      let (result, s) := s.deliver grouping ctx
      (result, s, c)
    | .prepared =>
      let take (c : Cursor child) := grouping.addRow ctx (child.record c)
      s.begin grouping ctx (drain (child.pull ctx) take (child.remaining c + 1) c s.groups)

def pullAllWithin (ctx : Context) (plan : Plan) :
    Nat → Cursor plan → List (Outcome (Option Record)) × Cursor plan
  | 0, c => ([], c)
  | fuel + 1, c =>
    match plan.pull ctx c with
    | (.ok .row, c) =>
      let (rest, d) := pullAllWithin ctx plan fuel c
      (.ok (some (plan.record c)) :: rest, d)
    | (.ok .depleted, c) => ([.ok none], c)
    | (.error fault, c) => ([.error fault], c)

/-- The remaining rows, then depletion or the failure that ended them. -/
def pullAll (ctx : Context) (plan : Plan) (c : Cursor plan) :
    List (Outcome (Option Record)) × Cursor plan :=
  plan.pullAllWithin ctx (plan.remaining c + 1) c

end Plan

end GraphQuery
