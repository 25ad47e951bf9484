import GraphQuery.Evaluation.Environment
import GraphQuery.Proofs.FreeNames
import GraphQuery.Proofs.RelatedCalls

/-! What evaluation reads of a row: the columns of names and of the elements of the named paths among
them. Names read related things where the entries of these columns are related. -/

namespace GraphQuery

open Outcome (FailsWith Tolerance)

/-- The columns behind a name: its own, and those behind the elements of a named path. -/
inductive SymbolTable.Reads (t : SymbolTable) : String → Nat → Prop where
  | own {name : String} {column : Nat} {kind : SymbolKind}
    (hname : t.resolve name = some (column, kind)) : t.Reads name column
  | element {path name : String} {own column : Nat} {elements : List String}
    (hpath : t.resolve path = some (own, .namedPath)) (helements : t.pathElements path = some elements)
    (hname : name ∈ elements) (hcolumn : t.Reads name column) : t.Reads path column

/-- The columns that decide about a name. Whether it has an entry does not depend on the elements of a
path. -/
def SymbolTable.ReadsFor (t : SymbolTable) : NameUse → String → Nat → Prop
  | .entry, name, column => t.Reads name column
  | .presence, name, column => ∃ kind, t.resolve name = some (column, kind)

theorem SymbolTable.ReadsFor.reads {t : SymbolTable} {use : NameUse} {name : String} {column : Nat}
    (h : t.ReadsFor use name column) : t.Reads name column := by
  cases use with
  | entry => exact h
  | presence =>
    obtain ⟨kind, hname⟩ := h
    exact .own hname

theorem SymbolTable.exists_pathElements {t : SymbolTable} {path element : String}
    (h : element ∈ (t.pathElements path).getD []) :
    ∃ elements, t.pathElements path = some elements ∧ element ∈ elements := by
  cases hpath : t.pathElements path with
  | none => simp [hpath] at h
  | some elements => exact ⟨elements, rfl, by rwa [hpath] at h⟩

/-- The entry of a column, none where the row is too short or the slot is not bound. -/
def Record.entryAt? (r : Record) (column : Nat) : Option Entry :=
  (r.get? column).filter fun entry => !entry.isUnknown

theorem Record.mem_of_entryAt? {r : Record} {column : Nat} {entry : Entry}
    (h : r.entryAt? column = some entry) : entry ∈ r.entries :=
  List.mem_of_getElem? (Option.filter_eq_some_iff.mp h).1

namespace Environment

variable {T : Tolerance} {R : Entry → Entry → Prop} {env env' : Environment} {scope : Scope}
  {name : String}

theorem bound?_eq (env : Environment) (column : Nat) : env.bound? column = env.record.entryAt? column := by
  rw [bound?, Record.entryAt?]
  cases env.record.get? column with
  | none => rfl
  | some entry => cases hu : entry.isUnknown <;> simp [hu, Option.filter]

theorem isPresent_eq (env : Environment) (scope : Scope) (name : String) :
    env.isPresent scope name =
      ((List.lookup name scope).or
        ((env.symbols.resolve name).bind fun symbol => env.record.entryAt? symbol.1)).any fun entry =>
          !entry.isUnknown && !entry.isNull && env.context.graph.isValid entry := by
  simp only [isPresent]
  cases List.lookup name scope with
  | some entry => rfl
  | none =>
    cases env.symbols.resolve name with
    | none => rfl
    | some symbol =>
      simp only [Option.none_or, Option.bind_some, Record.entryAt?]
      cases env.record.get? symbol.1 with
      | none => rfl
      | some entry => cases hu : entry.isUnknown <;> simp [hu, Option.filter]

/-- What two environments show of everything but their rows is related, and the tolerance is for all
that evaluation can raise. -/
structure Related (T : Tolerance) (R : Entry → Entry → Prop) (env env' : Environment) : Prop where
  symbols : env.symbols = env'.symbols
  parameters : env.context.parameters = env'.context.parameters
  plugins : env.context.plugins = env'.context.plugins
  pluginFaults : ∀ plugins, env.context.plugins = some plugins → ∀ name values,
    FailsWith T.Accepts (plugins name values)
  entries : Resemblance T env.context.graph env'.context.graph R
  results : ∀ id function,
    Outcome.Related T R (env.aggregateResult id function) (env'.aggregateResult id function)

/-- The rows agree in the columns that decide about a name. -/
def AgreeAt (R : Entry → Entry → Prop) (env env' : Environment) (use : NameUse) (name : String) : Prop :=
  ∀ column, env.symbols.ReadsFor use name column →
    Option.Rel R (env.record.entryAt? column) (env'.record.entryAt? column)

theorem AgreeAt.of_eq {use : NameUse} (h : ∀ column, env.symbols.ReadsFor use name column →
    env.record.entryAt? column = env'.record.entryAt? column) : AgreeAt Eq env env' use name := by
  intro column hcolumn
  rw [h column hcolumn]
  cases env'.record.entryAt? column with
  | none => exact .none
  | some entry => exact .some rfl

section Names

variable (he : env.Related T R env') (hscope : ∀ p ∈ scope, R p.2 p.2)

include hscope

theorem related_of_lookup {entry : Entry} (h : List.lookup name scope = some entry) : R entry entry := by
  obtain ⟨before, after, hs, -⟩ := List.lookup_eq_some_iff.mp h
  exact hscope (name, entry) (by simp [hs])

include he

theorem Related.resolveWithin {depth : Nat} (hat : AgreeAt R env env' .entry name) :
    Outcome.Related T R (env.resolveWithin scope depth name) (env'.resolveWithin scope depth name) := by
  have hundefined : ∀ name, Outcome.Related T R (.error (.undefinedVariable name))
      (.error (.undefinedVariable name)) := fun name => .of_accepted (he.entries.accepts nofun)
  induction depth generalizing name with
  | zero => exact hundefined name
  | succ depth ih =>
    simp only [Environment.resolveWithin, ← he.symbols, bound?_eq]
    cases hlookup : List.lookup name scope with
    | some entry => exact .of_ok (related_of_lookup hscope hlookup)
    | none =>
      cases hname : env.symbols.resolve name with
      | none => exact hundefined name
      | some symbol =>
        obtain ⟨column, kind⟩ := symbol
        have hbound := hat column (.own hname)
        cases kind with
        | namedPath =>
          have helements : ∀ element ∈ (env.symbols.pathElements name).getD [],
              AgreeAt R env env' .entry element := by
            intro element helement column hcolumn
            obtain ⟨elements, hpath, helement⟩ := SymbolTable.exists_pathElements helement
            exact hat column (.element hname hpath helement hcolumn)
          refine (Outcome.Related.mapM_same fun element helement => ih (helements element helement)).bind ?_
          intro entries entries' hentries
          refine ((he.entries.pathTexts_related hentries).map (S := Eq) ?_).bind ?_
          · rintro texts _ rfl
            rfl
          · rintro path _ rfl
            exact .of_ok (he.entries.constant path)
        | _ =>
          simp only
          generalize env.record.entryAt? column = entry?, env'.record.entryAt? column = entry?' at hbound
          cases hbound with
          | some hab => exact .of_ok hab
          | none => exact hundefined name

theorem Related.resolve
    (hname : (∃ entry, List.lookup name scope = some entry) ∨ AgreeAt R env env' .entry name) :
    Outcome.Related T R (env.resolve scope name) (env'.resolve scope name) := by
  rcases hname with ⟨entry, hentry⟩ | hat
  · simp only [Environment.resolve, Environment.resolveWithin, hentry]
    exact .of_ok (related_of_lookup hscope hentry)
  · rw [Environment.resolve, Environment.resolve, ← he.symbols]
    exact he.resolveWithin hscope hat

theorem Related.isPresent
    (hname : (∃ entry, List.lookup name scope = some entry) ∨ AgreeAt R env env' .presence name) :
    env.isPresent scope name = env'.isPresent scope name := by
  rw [isPresent_eq, isPresent_eq, ← he.symbols]
  have hrel : Option.Rel R
      ((List.lookup name scope).or
        ((env.symbols.resolve name).bind fun symbol => env.record.entryAt? symbol.1))
      ((List.lookup name scope).or
        ((env.symbols.resolve name).bind fun symbol => env'.record.entryAt? symbol.1)) := by
    cases hlookup : List.lookup name scope with
    | some entry => exact .some (related_of_lookup hscope hlookup)
    | none =>
      have hat := hname.resolve_left fun ⟨entry, hentry⟩ => by simp [hentry] at hlookup
      cases hresolve : env.symbols.resolve name with
      | none => exact .none
      | some symbol => exact hat symbol.1 ⟨symbol.2, hresolve⟩
  revert hrel
  generalize (List.lookup name scope).or _ = entry?, (List.lookup name scope).or _ = entry?'
  rintro (⟨hab⟩ | _)
  · simp only [Option.any_some, he.entries.isUnknown hab, he.entries.isNull hab, he.entries.isValid _ _ hab]
  · rfl

end Names

end Environment

end GraphQuery
