/-! Variables of a query and the record columns they are bound to. -/

namespace GraphQuery

inductive SymbolKind where
  | node
  | relationship
  | constant
  | parameter
  | namedPath
deriving DecidableEq

structure Symbol where
  column : Nat
  kind : SymbolKind

theorem lookup_cons_entry {α : Type} (name key : String) (a : α) (entries : List (String × α)) :
    List.lookup name ((key, a) :: entries) = if name = key then some a else List.lookup name entries := by
  by_cases h : name = key
  · rw [if_pos h, h, List.lookup_cons_self]
  · rw [if_neg h, List.lookup_cons, beq_false_of_ne h]

/-- The symbol of a name holds the column in which the name stands, and a name without a symbol stands
in none. -/
def InStep (symbols : List (String × Symbol)) (names : List String) : Prop :=
  ∀ name column, names[column]? = some name ↔
    (List.lookup name symbols).map Symbol.column = some column

theorem inStep_nil : InStep [] [] := fun name column => by simp

theorem InStep.add {symbols : List (String × Symbol)} {names : List String} {name : String}
    (h : InStep symbols names) (hnew : List.lookup name symbols = none) (kind : SymbolKind) :
    InStep ((name, ⟨names.length, kind⟩) :: symbols) (names ++ [name]) := by
  intro other column
  rw [lookup_cons_entry, List.getElem?_append]
  by_cases hother : other = name
  · subst hother
    rw [if_pos rfl]
    -- without a symbol before, the name stands in no old column
    by_cases hold : column < names.length
    · have hfree : names[column]? ≠ some other := by simp [h other column, hnew]
      rw [if_pos hold]
      simp [hfree, Nat.ne_of_gt hold]
    · have hplace : column - names.length = 0 ↔ names.length = column := by omega
      rw [if_neg hold, List.getElem?_singleton]
      simp [hplace]
  · rw [if_neg hother, ← h other column]
    by_cases hold : column < names.length
    · rw [if_pos hold]
    · rw [if_neg hold, List.getElem?_singleton]
      simp [Ne.symm hother, Nat.le_of_not_lt hold]

/-- Symbols by name, the names in column order, and the elements of named paths. Of the entries of
a name the first counts. -/
structure SymbolTable where
  symbols : List (String × Symbol)
  names : List String
  paths : List (String × List String)
  inStep : InStep symbols names

namespace SymbolTable

def empty : SymbolTable := ⟨[], [], [], inStep_nil⟩

def resolve (t : SymbolTable) (name : String) : Option (Nat × SymbolKind) :=
  (List.lookup name t.symbols).map fun symbol => (symbol.column, symbol.kind)

def size (t : SymbolTable) : Nat := t.names.length

/-- Registers a variable and gives its column. A known variable keeps column and kind. -/
def insert (t : SymbolTable) (name : String) (kind : SymbolKind) : SymbolTable × Nat :=
  match h : List.lookup name t.symbols with
  | some symbol => (t, symbol.column)
  | none =>
    let column := t.size
    let symbols := (name, ⟨column, kind⟩) :: t.symbols
    ({ t with symbols, names := t.names ++ [name], inStep := t.inStep.add h kind }, column)

def definePath (t : SymbolTable) (name : String) (elements : List String) : SymbolTable × Nat :=
  let (t, column) := t.insert name .namedPath
  ({ t with paths := (name, elements) :: t.paths }, column)

def pathElements (t : SymbolTable) (name : String) : Option (List String) :=
  List.lookup name t.paths

def nameOf (t : SymbolTable) (column : Nat) : Option String := t.names[column]?

theorem nameOf_eq_some_iff {t : SymbolTable} {name : String} {column : Nat} :
    t.nameOf column = some name ↔ ∃ kind, t.resolve name = some (column, kind) := by
  rw [nameOf, t.inStep, resolve]
  cases List.lookup name t.symbols with
  | none => simp
  | some symbol => simp

section Insert

variable (t : SymbolTable) (name : String) (kind : SymbolKind)

theorem resolve_insert (other : String) :
    (t.insert name kind).1.resolve other =
      (t.resolve other).or (if other = name then some (t.size, kind) else none) := by
  rw [insert]
  split
  · rename_i symbol hname
    by_cases hother : other = name
    · simp [resolve, hother, hname]
    · simp [hother]
  · rename_i hname
    by_cases hother : other = name
    · simp [resolve, hother, hname]
    · simp [resolve, lookup_cons_entry, hother]

theorem exists_resolve_insert :
    ∃ kept, (t.insert name kind).1.resolve name = some ((t.insert name kind).2, kept) := by
  rw [insert]
  split
  · rename_i symbol hname
    exact ⟨symbol.kind, by simp [resolve, hname]⟩
  · exact ⟨kind, by simp [resolve]⟩

theorem pathElements_insert (path : String) :
    (t.insert name kind).1.pathElements path = t.pathElements path := by
  rw [insert]
  split <;> rfl

theorem pathElements_definePath (elements : List String) (path : String) :
    (t.definePath name elements).1.pathElements path =
      if path = name then some elements else t.pathElements path := by
  rw [← t.pathElements_insert name .namedPath path]
  exact lookup_cons_entry path name elements (t.insert name .namedPath).1.paths

end Insert

end SymbolTable

end GraphQuery
