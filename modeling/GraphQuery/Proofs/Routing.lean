import GraphQuery.Proofs.Classes
import GraphQuery.Proofs.Delivery
import GraphQuery.Proofs.EntryOrder
import GraphQuery.Proofs.PairedLists

/-! What the groups hold while rows are added: they are the classes of these rows by key, each with
evaluators that took the rows of the class in order. -/

namespace GraphQuery

theorem equalEntries_iff (as bs : List Entry) :
    equalEntries as bs = true ↔ compareLists Entry.compare as bs = .eq := by
  induction as generalizing bs with
  | nil => cases bs <;> simp [equalEntries, compareLists]
  | cons a as ih =>
    cases bs with
    | nil => simp [equalEntries, compareLists]
    | cons b bs => simp [equalEntries, compareLists, Ordering.then_eq_eq, Entry.equal_iff, ih]

theorem equalEntries_iff_forall₂ {as bs : List Entry} :
    equalEntries as bs = true ↔ List.Forall₂ (fun a b => a.equal b = true) as bs := by
  induction as generalizing bs with
  | nil => cases bs <;> simp [equalEntries]
  | cons a as ih => cases bs <;> simp [equalEntries, ih]

namespace GroupKey

theorem same_refl (k : GroupKey) : k.same k = true := by
  cases k with
  | entries as => exact (equalEntries_iff as as).mpr Std.ReflCmp.compare_self
  | text s => simp [same]

theorem same_symm {k l : GroupKey} (h : k.same l = true) : l.same k = true := by
  cases k <;> cases l <;> simp only [same, Bool.false_eq_true] at h ⊢
  · rw [equalEntries_iff] at h ⊢
    exact Std.OrientedCmp.eq_symm h
  · rw [beq_iff_eq] at h ⊢
    exact h.symm

theorem same_trans {k l m : GroupKey} (h : k.same l = true) (h' : l.same m = true) :
    k.same m = true := by
  cases k <;> cases l <;> cases m <;> simp only [same, Bool.false_eq_true] at h h' ⊢
  · rw [equalEntries_iff] at h h' ⊢
    exact Std.TransCmp.eq_trans h h'
  · rw [beq_iff_eq] at h h' ⊢
    exact h.trans h'

end GroupKey

/-- Whether two rows have keys, and the same. -/
def sameKey (key : Record → Outcome GroupKey) (a b : Record) : Bool :=
  match key a, key b with
  | .ok k, .ok l => k.same l
  | _, _ => false

section SameKey

variable {key : Record → Outcome GroupKey} {a b c : Record}

theorem sameKey_iff : sameKey key a b = true ↔ ∃ k l, key a = .ok k ∧ key b = .ok l ∧ k.same l = true := by
  rw [sameKey]
  cases key a <;> cases key b <;> simp

theorem sameKey_refl {k : GroupKey} (h : key a = .ok k) : sameKey key a a = true :=
  sameKey_iff.mpr ⟨k, k, h, h, k.same_refl⟩

theorem sameKey_symm (h : sameKey key a b = true) : sameKey key b a = true := by
  obtain ⟨k, l, ha, hb, hs⟩ := sameKey_iff.mp h
  exact sameKey_iff.mpr ⟨l, k, hb, ha, GroupKey.same_symm hs⟩

theorem sameKey_trans (h : sameKey key a b = true) (h' : sameKey key b c = true) :
    sameKey key a c = true := by
  obtain ⟨k, l, ha, hb, hs⟩ := sameKey_iff.mp h
  obtain ⟨l', m, hb', hc, hs'⟩ := sameKey_iff.mp h'
  obtain rfl : l = l' := by simpa [hb] using hb'
  exact sameKey_iff.mpr ⟨k, m, ha, hc, GroupKey.same_trans hs hs'⟩

end SameKey

namespace Evaluator

def aggregateAll (ctx : Context) (e : Evaluator) : List Record → Outcome Evaluator
  | [] => .ok e
  | row :: rest =>
    match e.aggregate ctx row with
    | (.ok _, e) => e.aggregateAll ctx rest
    | (.error fault, _) => .error fault

theorem aggregateAll_cons_eq_ok {ctx : Context} {e f : Evaluator} {row : Record} {rows : List Record} :
    e.aggregateAll ctx (row :: rows) = .ok f ↔
      ∃ next, e.aggregate ctx row = (.ok (), next) ∧ next.aggregateAll ctx rows = .ok f := by
  rw [aggregateAll]
  cases hr : e.aggregate ctx row with
  | mk result next => cases result <;> simp

theorem aggregateAll_append_singleton_eq_ok {ctx : Context} {e g : Evaluator} {rows : List Record}
    {row : Record} :
    e.aggregateAll ctx (rows ++ [row]) = .ok g ↔
      ∃ f, e.aggregateAll ctx rows = .ok f ∧ f.aggregate ctx row = (.ok (), g) := by
  induction rows generalizing e with
  | nil =>
    rw [List.nil_append, aggregateAll_cons_eq_ok]
    simp [aggregateAll]
  | cons r rows ih =>
    rw [List.cons_append, aggregateAll_cons_eq_ok]
    simp only [ih, aggregateAll_cons_eq_ok]
    constructor
    · rintro ⟨next, hr, f, hf, hg⟩
      exact ⟨f, ⟨next, hr, hf⟩, hg⟩
    · rintro ⟨f, ⟨next, hr, hf⟩, hg⟩
      exact ⟨next, hr, f, hf, hg⟩

end Evaluator

namespace Group

theorem feedAll_ok {ctx : Context} {row : Record} {es fs : List Evaluator}
    (h : feedAll ctx row es = (.ok (), fs)) :
    List.Forall₂ (fun e f => e.aggregate ctx row = (.ok (), f)) es fs := by
  induction es generalizing fs with
  | nil =>
    simp only [feedAll, Prod.mk.injEq, true_and] at h
    exact h ▸ .nil
  | cons e es ih =>
    rw [feedAll] at h
    cases he : e.aggregate ctx row with
    | mk result f =>
      cases result with
      | error fault => simp [he] at h
      | ok =>
        simp only [he, Prod.mk.injEq] at h
        obtain ⟨hr, rfl⟩ := h
        exact .cons he (ih (Prod.ext hr rfl))

theorem feed_ok {ctx : Context} {row : Record} {g g' : Group} (h : g.feed ctx row = (.ok (), g')) :
    g'.key = g.key ∧ g'.keys = g.keys ∧ g'.last = row ∧
      List.Forall₂ (fun e f => e.aggregate ctx row = (.ok (), f)) g.evaluators g'.evaluators := by
  rw [feed] at h
  cases hf : feedAll ctx row g.evaluators with
  | mk result fs =>
    cases result with
    | error fault => simp [hf] at h
    | ok =>
      simp only [hf, Prod.mk.injEq, true_and] at h
      subst h
      exact ⟨rfl, rfl, rfl, feedAll_ok hf⟩

end Group

namespace Grouping

variable {s : Grouping} {ctx : Context}

def keyOf (s : Grouping) (ctx : Context) (row : Record) : Outcome GroupKey :=
  (s.keysOf ctx row).map fun keys => .ofEntries keys s.config.mode

/-- A group took the rows of a class in order. -/
structure Holds (s : Grouping) (ctx : Context) (rows : List Record) (g : Group) : Prop where
  keys : ∃ first, rows.head? = some first ∧ s.keysOf ctx first = .ok g.keys
  key : g.key = .ofEntries g.keys s.config.mode
  fed : List.Forall₂ (fun p e => p.2.fresh.aggregateAll ctx rows = .ok e) s.aggregated g.evaluators
  last : rows.getLast? = some g.last

theorem Holds.of_newGroup {row : Record} {keys : List Entry} {g : Group}
    (hk : s.keysOf ctx row = .ok keys) (h : (s.newGroup keys row).feed ctx row = (.ok (), g)) :
    s.Holds ctx [row] g := by
  obtain ⟨hkey, hkeys, hlast, hfed⟩ := Group.feed_ok h
  refine ⟨⟨row, rfl, by rw [hk, hkeys]; rfl⟩, by rw [hkey, hkeys]; rfl, ?_, by rw [hlast]; rfl⟩
  simp only [newGroup, List.forall₂_map_left_iff] at hfed
  refine hfed.imp fun p e he => ?_
  simp [Evaluator.aggregateAll, he]

theorem Holds.feed {rows : List Record} {row : Record} {g g' : Group} (hg : s.Holds ctx rows g)
    (h : g.feed ctx row = (.ok (), g')) : s.Holds ctx (rows ++ [row]) g' := by
  obtain ⟨hkey, hkeys, hlast, hfed⟩ := Group.feed_ok h
  obtain ⟨first, hfirst, hk⟩ := hg.keys
  refine ⟨⟨first, by simp [List.head?_append, hfirst], by rw [hk, hkeys]⟩,
    by rw [hkey, hkeys, hg.key], ?_, by simp [hlast]⟩
  refine forall₂_trans (fun p e f he hf => ?_) hg.fed hfed
  exact Evaluator.aggregateAll_append_singleton_eq_ok.mpr ⟨e, he, hf⟩

theorem route_ok {row : Record} {keys : List Entry} {C : List (List Record)}
    {groups groups' : List Group} (hk : s.keysOf ctx row = .ok keys)
    (hg : List.Forall₂ (s.Holds ctx) C groups)
    (h : route ctx row (s.newGroup keys row) groups = (.ok (), groups')) :
    List.Forall₂ (s.Holds ctx) (addToClasses (sameKey (s.keyOf ctx)) row C) groups' := by
  induction hg generalizing groups' with
  | nil =>
    rw [route] at h
    cases hf : (s.newGroup keys row).feed ctx row with
    | mk result g =>
      simp only [hf, Prod.mk.injEq] at h
      obtain ⟨rfl, rfl⟩ := h
      exact .cons (.of_newGroup hk hf) .nil
  | @cons rows g C groups hrows hg ih =>
    obtain ⟨first, hfirst, hkeys⟩ := hrows.keys
    have hsame : sameKey (s.keyOf ctx) first row = g.key.same (s.newGroup keys row).key := by
      simp only [sameKey, keyOf, hkeys, hk, Except.map, hrows.key, newGroup]
    rw [addToClasses, hfirst, Option.any_some, hsame]
    rw [route] at h
    by_cases hs : g.key.same (s.newGroup keys row).key = true
    · rw [if_pos hs] at h ⊢
      cases hf : g.feed ctx row with
      | mk result g' =>
        simp only [hf, Prod.mk.injEq] at h
        obtain ⟨rfl, rfl⟩ := h
        exact .cons (hrows.feed hf) hg
    · rw [if_neg hs] at h ⊢
      cases hr : route ctx row (s.newGroup keys row) groups with
      | mk result rest =>
        simp only [hr, Prod.mk.injEq] at h
        obtain ⟨rfl, rfl⟩ := h
        exact .cons hrows (ih hr)

theorem addRow_ok {row : Record} {C : List (List Record)} {groups groups' : List Group}
    (hg : List.Forall₂ (s.Holds ctx) C groups) (h : s.addRow ctx row groups = (.ok (), groups')) :
    List.Forall₂ (s.Holds ctx) (addToClasses (sameKey (s.keyOf ctx)) row C) groups' ∧
      ∃ k, s.keyOf ctx row = .ok k := by
  rw [addRow] at h
  cases hk : s.keysOf ctx row with
  | error fault => simp [hk] at h
  | ok keys =>
    simp only [hk] at h
    exact ⟨route_ok hk hg h, _, by rw [keyOf, hk]; rfl⟩

/-- When rows are added after others, the groups are the classes of all of them. -/
theorem addRows_ok {before rows : List Record} {groups groups' : List Group}
    (hg : List.Forall₂ (s.Holds ctx) (classesBy (sameKey (s.keyOf ctx)) before) groups)
    (h : s.addRows ctx none groups rows = .ok groups') :
    List.Forall₂ (s.Holds ctx) (classesBy (sameKey (s.keyOf ctx)) (before ++ rows)) groups' ∧
      ∀ row ∈ rows, ∃ k, s.keyOf ctx row = .ok k := by
  induction rows generalizing before groups with
  | nil =>
    obtain rfl : groups = groups' := by simpa [addRows] using h
    simpa using hg
  | cons row rows ih =>
    rw [addRows] at h
    cases hr : s.addRow ctx row groups with
    | mk result groups'' =>
      cases result with
      | error fault => simp [hr] at h
      | ok =>
        simp only [hr] at h
        obtain ⟨hrow, hkey⟩ := addRow_ok hg hr
        rw [← classesBy_append_singleton] at hrow
        obtain ⟨hall, hkeys⟩ := ih hrow h
        refine ⟨by simpa using hall, fun r hr => ?_⟩
        rcases List.mem_cons.mp hr with rfl | hr
        · exact hkey
        · exact hkeys r hr

end Grouping

end GraphQuery
