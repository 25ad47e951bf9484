import Mathlib.Data.Finset.Card
import GraphQuery.Record.SymbolTable

/-! Symbol tables as histories of calls. A name has the column and the kind of its first registration,
a path the elements of its last definition, and a call shows at no name but its own. -/

namespace GraphQuery

/-- The calls that change a table. -/
inductive Registration where
  | insert (name : String) (kind : SymbolKind)
  | definePath (path : String) (elements : List String)

namespace Registration

def name : Registration → String
  | insert name _ => name
  | definePath path _ => path

def kind : Registration → SymbolKind
  | insert _ kind => kind
  | definePath _ _ => .namedPath

/-- The elements that a call gives a path, none when it does not define it. -/
def elementsOf (path : String) : Registration → Option (List String)
  | insert _ _ => none
  | definePath name elements => if path = name then some elements else none

theorem elementsOf_of_ne {path : String} {call : Registration} (h : path ≠ call.name) :
    call.elementsOf path = none := by
  cases call with
  | insert name kind => rfl
  | definePath name elements => exact if_neg h

end Registration

namespace SymbolTable

/-- The table after a call, and the column that the call gives. -/
def register (t : SymbolTable) : Registration → SymbolTable × Nat
  | .insert name kind => t.insert name kind
  | .definePath path elements => t.definePath path elements

def registerAll (t : SymbolTable) (calls : List Registration) : SymbolTable :=
  calls.foldl (fun t call => (t.register call).1) t

section Names

variable {t : SymbolTable}

theorem mem_names_iff {name : String} : name ∈ t.names ↔ ∃ symbol, t.resolve name = some symbol := by
  rw [List.mem_iff_getElem?]
  constructor
  · rintro ⟨column, hname⟩
    obtain ⟨kind, hkind⟩ := nameOf_eq_some_iff.mp hname
    exact ⟨(column, kind), hkind⟩
  · rintro ⟨⟨column, kind⟩, hname⟩
    exact ⟨column, nameOf_eq_some_iff.mpr ⟨kind, hname⟩⟩

theorem nodup_names (t : SymbolTable) : t.names.Nodup := by
  rw [List.nodup_iff_getElem?_ne_getElem?]
  intro i j hij hj heq
  have hname : t.nameOf j = some t.names[j] := List.getElem?_eq_getElem hj
  obtain ⟨kind, hkind⟩ := nameOf_eq_some_iff.mp hname
  obtain ⟨other, hother⟩ := nameOf_eq_some_iff.mp (heq.trans hname)
  rw [hkind] at hother
  simp only [Option.some.injEq, Prod.mk.injEq] at hother
  omega

theorem lt_size_iff {column : Nat} :
    column < t.size ↔ ∃ name kind, t.resolve name = some (column, kind) := by
  simp only [← nameOf_eq_some_iff]
  constructor
  · intro hcolumn
    exact ⟨t.names[column], List.getElem?_eq_getElem hcolumn⟩
  · rintro ⟨name, hname⟩
    exact (List.getElem?_eq_some_iff.mp hname).1

end Names

section Calls

variable (t : SymbolTable) (call : Registration) (calls earlier later : List Registration)

theorem resolve_register (name : String) :
    (t.register call).1.resolve name =
      (t.resolve name).or (if name = call.name then some (t.size, call.kind) else none) := by
  cases call with
  | insert added kind => exact t.resolve_insert added kind name
  | definePath path elements => exact t.resolve_insert path .namedPath name

theorem exists_resolve_register :
    ∃ kind, (t.register call).1.resolve call.name = some ((t.register call).2, kind) := by
  cases call with
  | insert added kind => exact t.exists_resolve_insert added kind
  | definePath path elements => exact t.exists_resolve_insert path .namedPath

theorem pathElements_register (path : String) :
    (t.register call).1.pathElements path = (call.elementsOf path).or (t.pathElements path) := by
  cases call with
  | insert added kind => exact t.pathElements_insert added kind path
  | definePath defined elements =>
    refine (t.pathElements_definePath defined elements path).trans ?_
    by_cases hpath : path = defined
    · simp [Registration.elementsOf, hpath]
    · simp [Registration.elementsOf, hpath]

theorem registerAll_split : t.registerAll (earlier ++ call :: later) =
    ((t.registerAll earlier).register call).1.registerAll later :=
  List.foldl_append

variable {t calls}

theorem resolve_registerAll_of_some {name : String} {symbol : Nat × SymbolKind}
    (h : t.resolve name = some symbol) : (t.registerAll calls).resolve name = some symbol := by
  induction calls generalizing t with
  | nil => exact h
  | cons call calls ih =>
    apply ih
    rw [resolve_register, h, Option.some_or]

theorem resolve_registerAll_of_notMem {name : String} (h : name ∉ calls.map Registration.name) :
    (t.registerAll calls).resolve name = t.resolve name := by
  induction calls generalizing t with
  | nil => rfl
  | cons call calls ih =>
    rw [List.map_cons, List.mem_cons, not_or] at h
    have hcall : (t.register call).1.resolve name = t.resolve name := by
      rw [resolve_register, if_neg h.1, Option.or_none]
    exact (ih h.2).trans hcall

theorem exists_resolve_registerAll :
    ∃ kind, (t.registerAll (earlier ++ call :: later)).resolve call.name =
      some (((t.registerAll earlier).register call).2, kind) := by
  obtain ⟨kind, hkind⟩ := exists_resolve_register (t.registerAll earlier) call
  refine ⟨kind, ?_⟩
  rw [registerAll_split]
  exact resolve_registerAll_of_some hkind

theorem resolve_registerAll_of_first (hfree : t.resolve call.name = none)
    (hfirst : call.name ∉ earlier.map Registration.name) :
    (t.registerAll (earlier ++ call :: later)).resolve call.name =
      some ((t.registerAll earlier).size, call.kind) := by
  have hcall : ((t.registerAll earlier).register call).1.resolve call.name =
      some ((t.registerAll earlier).size, call.kind) := by
    rw [resolve_register, resolve_registerAll_of_notMem hfirst, hfree, if_pos rfl, Option.none_or]
  rw [registerAll_split]
  exact resolve_registerAll_of_some hcall

theorem pathElements_registerAll (path : String) :
    (t.registerAll calls).pathElements path =
      (calls.reverse.findSome? (Registration.elementsOf path)).or (t.pathElements path) := by
  induction calls generalizing t with
  | nil => rfl
  | cons call calls ih =>
    rw [List.reverse_cons, List.findSome?_append, List.findSome?_singleton, Option.or_assoc,
      ← pathElements_register]
    exact ih

theorem mem_names_registerAll {name : String} :
    name ∈ (empty.registerAll calls).names ↔ name ∈ calls.map Registration.name := by
  rw [mem_names_iff]
  constructor
  · rintro ⟨symbol, hsymbol⟩
    by_contra hname
    rw [resolve_registerAll_of_notMem hname] at hsymbol
    cases hsymbol
  · intro hname
    -- whichever call of the name is taken, it leaves a symbol that stays
    obtain ⟨call, hcall, rfl⟩ := List.mem_map.mp hname
    obtain ⟨earlier, later, rfl⟩ := List.append_of_mem hcall
    obtain ⟨kind, hkind⟩ := exists_resolve_registerAll call earlier later
    exact ⟨_, hkind⟩

theorem size_registerAll (calls : List Registration) :
    (empty.registerAll calls).size = (calls.map Registration.name).toFinset.card := by
  have hsame : (empty.registerAll calls).names.toFinset = (calls.map Registration.name).toFinset := by
    ext name
    rw [List.mem_toFinset, List.mem_toFinset, mem_names_registerAll]
  rw [← hsame, List.toFinset_card_of_nodup (nodup_names _)]
  rfl

end Calls

end SymbolTable

open SymbolTable

/-- The columns are those below the size, each with the one name that resolves to it. A name keeps the
column and the kind of its first registration, every call of it answers that column, and a call shows at
no other name. -/
theorem symbols_follow_registrations (calls : List Registration) :
    let t := SymbolTable.empty.registerAll calls
    (∀ column, column < t.size ↔ ∃ name kind, t.resolve name = some (column, kind)) ∧
      (∀ column name, t.nameOf column = some name ↔ ∃ kind, t.resolve name = some (column, kind)) ∧
      t.size = (calls.map Registration.name).toFinset.card ∧
      (∀ earlier call later, calls = earlier ++ call :: later →
        let before := SymbolTable.empty.registerAll earlier
        (∃ kind, t.resolve call.name = some ((before.register call).2, kind)) ∧
          (call.name ∉ earlier.map Registration.name →
            t.resolve call.name = some (before.size, call.kind))) ∧
      (∀ name, name ∉ calls.map Registration.name → t.resolve name = none) ∧
      (∀ path, t.pathElements path = calls.reverse.findSome? (Registration.elementsOf path)) ∧
      ∀ call name, name ≠ call.name →
        let after := (t.register call).1
        after.resolve name = t.resolve name ∧ after.pathElements name = t.pathElements name ∧
          ∀ column, after.nameOf column = some name ↔ t.nameOf column = some name := by
  intro t
  refine ⟨fun _ => lt_size_iff, fun _ _ => nameOf_eq_some_iff, size_registerAll calls, ?_, ?_, ?_, ?_⟩
  · rintro earlier call later rfl
    exact ⟨exists_resolve_registerAll call earlier later, resolve_registerAll_of_first call earlier later rfl⟩
  · exact fun name hname => resolve_registerAll_of_notMem hname
  · exact fun path => (pathElements_registerAll path).trans Option.or_none
  · intro call name hname after
    have hresolve : after.resolve name = t.resolve name := by
      rw [resolve_register, if_neg hname, Option.or_none]
    refine ⟨hresolve, ?_, fun column => ?_⟩
    · rw [pathElements_register, Registration.elementsOf_of_ne hname, Option.none_or]
    · rw [nameOf_eq_some_iff, nameOf_eq_some_iff, hresolve]

/-- A node that comes again as a relationship, and a constant that is defined as a path, twice. -/
def repeatedNames : List Registration :=
  [.insert "a" .node, .insert "p" .constant, .insert "a" .relationship, .definePath "p" ["a"],
    .definePath "p" ["a", "a"]]

theorem repeatedNames_keep_first :
    let t := SymbolTable.empty.registerAll repeatedNames
    t.size = 2 ∧ t.resolve "a" = some (0, .node) ∧ t.resolve "p" = some (1, .constant) ∧
      t.pathElements "p" = some ["a", "a"] ∧ t.resolve "b" = none ∧
      (t.definePath "b" []).1.resolve "p" = some (1, .constant) := by
  intro t
  obtain ⟨-, -, hsize, hcalls, hothers, hpaths, hframe⟩ := symbols_follow_registrations repeatedNames
  have ha := (hcalls [] (.insert "a" .node) _ rfl).2 List.not_mem_nil
  have hp := (hcalls [.insert "a" .node] (.insert "p" .constant) _ rfl).2 (by decide)
  have hb : (t.definePath "b" []).1.resolve "p" = t.resolve "p" :=
    (hframe (.definePath "b" []) "p" (by decide)).1
  exact ⟨hsize, ha, hp, hpaths "p", hothers "b" (by decide), hb.trans hp⟩

end GraphQuery
