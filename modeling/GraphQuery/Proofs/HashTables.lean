import GraphQuery.Proofs.DistinctValues
import GraphQuery.Proofs.HashedEquality

/-! Sets, counts and groups that look their keys up in a hash table. They are those that compare a key
with all before it. -/

namespace GraphQuery

section Tables

variable {K : Type}

/-- No two keys are equal. -/
def Different (equal : K → K → Bool) (keys : List K) : Prop :=
  keys.Pairwise fun j k => equal j k = false

/-- A hash table tells which of the keys it holds, in the order in which they came, equals another.
It does so when equal keys feed the hasher the same. -/
structure HashTable (equal : K → K → Bool) (feed : K → List HashWrite) where
  find? : List K → K → Option Nat
  find?_eq : (∀ j k, equal j k = true → feed j = feed k) → ∀ keys key, Different equal keys →
    find? keys key = keys.findIdx? fun k => equal k key

variable {equal : K → K → Bool} {feed : K → List HashWrite}

theorem Different.append {keys : List K} (h : Different equal keys) {key : K}
    (hnew : (keys.any fun k => equal k key) = false) : Different equal (keys ++ [key]) := by
  refine List.pairwise_append.mpr ⟨h, List.pairwise_singleton _ _, fun k hk key' hkey => ?_⟩
  rw [List.mem_singleton.mp hkey]
  simpa using List.any_eq_false.mp hnew k hk

namespace HashTable

/-- Looks at the keys with the same writes only. -/
def ofFeed (equal : K → K → Bool) (feed : K → List HashWrite) : HashTable equal feed where
  find? keys key := keys.findIdx? fun k => feed k = feed key && equal k key
  find?_eq hfeed keys key _ := by
    congr
    funext k
    cases he : equal k key with
    | true => simp [hfeed k key he]
    | false => simp

variable (t : HashTable equal feed)

def holds (keys : List K) (key : K) : Bool := (t.find? keys key).isSome

theorem holds_eq (hfeed : ∀ j k, equal j k = true → feed j = feed k) {keys : List K}
    (h : Different equal keys) (key : K) : t.holds keys key = keys.any fun k => equal k key := by
  rw [holds, t.find?_eq hfeed keys key h, List.findIdx?_isSome]

end HashTable

end Tables

/-- The values that a set lets in one after the other. -/
def distinctWith (t : HashTable Value.equal Value.feed) (values : List Value) : List Value :=
  values.foldl (fun kept v => if t.holds kept v then kept else kept ++ [v]) []

theorem distinctWith_concat (t : HashTable Value.equal Value.feed) (values : List Value) (v : Value) :
    distinctWith t (values ++ [v]) =
      if t.holds (distinctWith t values) v then distinctWith t values else distinctWith t values ++ [v] := by
  simp only [distinctWith, List.foldl_append, List.foldl_cons, List.foldl_nil]
  rfl

theorem different_distinctValues (values : List Value) : Different Value.equal (distinctValues values) := by
  induction values using List.reverseRecOn with
  | nil => exact .nil
  | append_singleton values v ih =>
    rw [distinctValues_concat]
    split
    · exact ih
    · rename_i hnew
      exact ih.append (Bool.eq_false_of_not_eq_true hnew)

theorem distinctWith_eq (t : HashTable Value.equal Value.feed) (values : List Value) :
    distinctWith t values = distinctValues values := by
  induction values using List.reverseRecOn with
  | nil => rfl
  | append_singleton values v ih =>
    rw [distinctWith_concat, distinctValues_concat, ih,
      t.holds_eq (fun _ _ => Value.feed_eq_of_equal) (different_distinctValues values)]

namespace Count

def offerWith (t : HashTable Entry.equal Entry.feed) (distinct : Bool) (operand : Entry) (c : Count) :
    Count :=
  if operand.isNull then c
  else if !distinct then c.increment
  else if t.holds c.seen operand.snapshot then c
  else { c.increment with seen := c.seen ++ [operand.snapshot] }

variable {c : Count}

theorem different_offer (h : Different Entry.equal c.seen) (distinct : Bool) (operand : Entry) :
    Different Entry.equal (c.offer distinct operand).seen := by
  rw [offer]
  repeat' split
  · exact h
  · exact h
  · exact h
  · rename_i hnew
    exact h.append (Bool.eq_false_of_not_eq_true hnew)

theorem offerWith_eq (t : HashTable Entry.equal Entry.feed) (h : Different Entry.equal c.seen)
    (distinct : Bool) (operand : Entry) : c.offerWith t distinct operand = c.offer distinct operand := by
  rw [offerWith, offer, t.holds_eq (fun _ _ => Entry.feed_eq_of_equal) h]

/-- A count of the same operands, with the flag of each. -/
theorem offersWith_eq (t : HashTable Entry.equal Entry.feed) (h : Different Entry.equal c.seen)
    (operands : List (Bool × Entry)) :
    operands.foldl (fun c p => c.offerWith t p.1 p.2) c = operands.foldl (fun c p => c.offer p.1 p.2) c := by
  induction operands generalizing c with
  | nil => rfl
  | cons p operands ih =>
    rw [List.foldl_cons, List.foldl_cons, offerWith_eq t h]
    exact ih (different_offer h p.1 p.2)

end Count

theorem Group.feed_key (g : Group) (ctx : Context) (row : Record) : (g.feed ctx row).2.key = g.key := by
  rw [feed]
  split <;> rfl

namespace Grouping

/-- A group is looked up by its key, and keeps its place. -/
def routeWith (t : HashTable GroupKey.same GroupKey.feed) (ctx : Context) (row : Record) (new : Group)
    (groups : List Group) : Outcome Unit × List Group :=
  match t.find? (groups.map Group.key) new.key with
  | none =>
    let (result, g) := new.feed ctx row
    (result, groups ++ [g])
  | some i =>
    let (result, g) := (groups.getD i new).feed ctx row
    (result, groups.set i g)

def addRowWith (t : HashTable GroupKey.same GroupKey.feed) (s : Grouping) (ctx : Context) (row : Record)
    (groups : List Group) : Outcome Unit × List Group :=
  match s.keysOf ctx row with
  | .error fault => (.error fault, groups)
  | .ok keys => routeWith t ctx row (s.newGroup keys row) groups

variable {ctx : Context} {row : Record} {new : Group} {groups : List Group}

theorem route_eq : route ctx row new groups =
    match (groups.map Group.key).findIdx? fun k => k.same new.key with
    | none => ((new.feed ctx row).1, groups ++ [(new.feed ctx row).2])
    | some i =>
      (((groups.getD i new).feed ctx row).1, groups.set i ((groups.getD i new).feed ctx row).2) := by
  induction groups with
  | nil => rfl
  | cons g groups ih =>
    rw [route, List.map_cons, List.findIdx?_cons]
    split
    · rfl
    · rw [ih]
      cases (groups.map Group.key).findIdx? fun k => k.same new.key <;> rfl

theorem routeWith_eq (t : HashTable GroupKey.same GroupKey.feed)
    (h : Different GroupKey.same (groups.map Group.key)) :
    routeWith t ctx row new groups = route ctx row new groups := by
  rw [route_eq, routeWith, t.find?_eq (fun _ _ => GroupKey.feed_eq_of_same) _ _ h]

theorem different_route (h : Different GroupKey.same (groups.map Group.key)) :
    Different GroupKey.same ((route ctx row new groups).2.map Group.key) := by
  rw [route_eq]
  cases hfind : (groups.map Group.key).findIdx? fun k => k.same new.key with
  | none =>
    simp only [List.map_append, List.map_cons, List.map_nil, Group.feed_key]
    refine h.append ?_
    rw [← List.findIdx?_isSome, hfind]
    rfl
  | some i =>
    have hkeys : (groups.set i ((groups.getD i new).feed ctx row).2).map Group.key = groups.map Group.key := by
      rw [List.map_set, Group.feed_key]
      refine List.ext_getElem? fun j => ?_
      rw [List.getElem?_set]
      split
      · rename_i hij
        subst hij
        obtain ⟨hi, -⟩ := List.findIdx?_eq_some_iff_getElem.mp hfind
        rw [List.length_map] at hi
        simp [hi]
      · rfl
    simpa only [hkeys] using h

variable {s : Grouping}

theorem addRowWith_eq (t : HashTable GroupKey.same GroupKey.feed)
    (h : Different GroupKey.same (groups.map Group.key)) :
    s.addRowWith t ctx row groups = s.addRow ctx row groups := by
  rw [addRowWith, addRow]
  cases s.keysOf ctx row with
  | error fault => rfl
  | ok keys => exact routeWith_eq t h

theorem different_addRow (h : Different GroupKey.same (groups.map Group.key)) :
    Different GroupKey.same ((s.addRow ctx row groups).2.map Group.key) := by
  rw [addRow]
  cases s.keysOf ctx row with
  | error fault => exact h
  | ok keys => exact different_route h

/-- The groups after rows of which some may have failed. -/
def groupsAfter (s : Grouping) (ctx : Context) (rows : List Record) : List Group :=
  rows.foldl (fun groups row => (s.addRow ctx row groups).2) []

def groupsAfterWith (t : HashTable GroupKey.same GroupKey.feed) (s : Grouping) (ctx : Context)
    (rows : List Record) : List Group :=
  rows.foldl (fun groups row => (s.addRowWith t ctx row groups).2) []

theorem groupsAfterWith_eq (t : HashTable GroupKey.same GroupKey.feed) (s : Grouping) (ctx : Context)
    (rows : List Record) : s.groupsAfterWith t ctx rows = s.groupsAfter ctx rows := by
  have hrun : ∀ groups : List Group, Different GroupKey.same (groups.map Group.key) →
      rows.foldl (fun groups row => (s.addRowWith t ctx row groups).2) groups =
        rows.foldl (fun groups row => (s.addRow ctx row groups).2) groups := by
    induction rows with
    | nil => exact fun _ _ => rfl
    | cons row rows ih =>
      intro groups h
      rw [List.foldl_cons, List.foldl_cons, addRowWith_eq t h]
      exact ih _ (different_addRow h)
  exact hrun [] .nil

end Grouping

end GraphQuery
