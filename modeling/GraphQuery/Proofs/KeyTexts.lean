import Mathlib.Data.List.Basic
import Mathlib.Data.List.Forall2
import GraphQuery.Proofs.HashedEquality
import GraphQuery.Proofs.SplitTexts

/-! Entries whose texts tell them apart: Null, booleans, integers of every width, nodes and
relationships. Their texts hold no comma, so joined texts tell lists of them apart as well. -/

namespace GraphQuery

section Pieces

theorem splitAtAny_joinWith {texts : List String} (hne : texts ≠ [])
    (h : ∀ text ∈ texts, ',' ∉ text.toList) :
    splitAtAny (· == ',') (joinWith "," texts).toList = texts.map String.toList := by
  have hfree (text : String) (ht : text ∈ texts) : ∀ c ∈ text.toList, (c == ',') = false := by
    intro c hc
    by_contra hcomma
    have hc' : c = ',' := by simpa using hcomma
    exact h text ht (hc' ▸ hc)
  induction texts with
  | nil => exact absurd rfl hne
  | cons text texts ih =>
    have htext := hfree text List.mem_cons_self
    cases texts with
    | nil => exact splitAtAny_of_no_delimiter htext
    | cons next later =>
      have hlist : (joinWith "," (text :: next :: later)).toList =
          text.toList ++ ',' :: (joinWith "," (next :: later)).toList := by
        simp [joinWith]
      rw [hlist, splitAtAny_append_cons (by decide), splitAtAny_of_no_delimiter htext, List.singleton_append,
        List.map_cons]
      congr 1
      exact ih (by simp) (fun t ht => h t (List.mem_cons_of_mem _ ht))
        fun t ht => hfree t (List.mem_cons_of_mem _ ht)

theorem joinWith_inj {texts others : List String} (hl : texts.length = others.length)
    (h : ∀ text ∈ texts, ',' ∉ text.toList) (h' : ∀ text ∈ others, ',' ∉ text.toList) :
    joinWith "," texts = joinWith "," others ↔ texts = others := by
  refine ⟨fun he => ?_, congrArg _⟩
  by_cases hne : texts = []
  · subst hne
    exact (List.length_eq_zero_iff.mp hl.symm).symm
  · have hne' : others ≠ [] := by
      rintro rfl
      exact hne (List.length_eq_zero_iff.mp hl)
    have hpieces := (splitAtAny_joinWith hne h).symm.trans ((he ▸ splitAtAny_joinWith hne' h'))
    exact List.map_injective_iff.mpr (fun s t => String.toList_inj.mp) hpieces

end Pieces

section Numbers

variable {n : Int} {c : Char}

theorem mem_repr_int (h : c ∈ n.repr.toList) : c = '-' ∨ c.isDigit = true := by
  rw [Int.repr_eq_if] at h
  by_cases hn : 0 ≤ n
  · rw [if_pos hn, Nat.toList_repr] at h
    exact .inr (Nat.isDigit_of_mem_toDigits (by decide) (by decide) h)
  · rw [if_neg hn, String.toList_append, Nat.toList_repr, List.mem_append] at h
    rcases h with h | h
    · exact .inl (List.mem_singleton.mp h)
    · exact .inr (Nat.isDigit_of_mem_toDigits (by decide) (by decide) h)

theorem notMem_repr_int (h : c ≠ '-') (h' : c.isDigit = false) : c ∉ n.repr.toList := by
  intro hc
  rcases mem_repr_int hc with he | hd
  · exact h he
  · exact Bool.false_ne_true (h'.symm.trans hd)

theorem repr_int_inj {m n : Int} : m.repr = n.repr ↔ m = n := by
  refine ⟨fun h => ?_, congrArg _⟩
  -- a number is read off its text, its sign by whether there is a minus in it
  have hread (k : Int) : (if '-' ∈ k.repr.toList then -(Nat.ofDigitChars 10 k.repr.toList.tail 0 : Int)
      else Nat.ofDigitChars 10 k.repr.toList 0) = k := by
    by_cases hk : 0 ≤ k
    · have hdigits : k.repr.toList = Nat.toDigits 10 k.toNat := by rw [Int.repr_eq_if, if_pos hk, Nat.toList_repr]
      have hminus : '-' ∉ Nat.toDigits 10 k.toNat := fun hc =>
        absurd (Nat.isDigit_of_mem_toDigits (by decide) (by decide) hc) (by decide)
      rw [hdigits, if_neg hminus, Nat.ofDigitChars_ten_toDigits, Int.toNat_of_nonneg hk]
    · have hdigits : k.repr.toList = '-' :: Nat.toDigits 10 (-k).toNat := by
        rw [Int.repr_eq_if, if_neg hk, String.toList_append, Nat.toList_repr]
        rfl
      rw [hdigits, if_pos List.mem_cons_self, List.tail_cons, Nat.ofDigitChars_ten_toDigits]
      omega
  rw [← hread m, h, hread n]

theorem repr_int_ne_nil (n : Int) : n.repr.toList ≠ [] := by
  rw [Int.repr_eq_if]
  by_cases hn : 0 ≤ n
  · rw [if_pos hn, Nat.toList_repr]
    exact Nat.toDigits_ne_nil
  · rw [if_neg hn, String.toList_append]
    exact List.append_ne_nil_of_left_ne_nil (by decide) _

end Numbers

/-- What a key entry is, whatever its width. -/
inductive PlainKey where
  | null
  | bool (b : Bool)
  | int (n : Int)
  | node (id : Int)
  | edge (source target id : Int)
deriving DecidableEq

namespace PlainKey

def edgeText (source target id : Int) : String :=
  toString source ++ "_" ++ toString target ++ "_" ++ toString id

def text : PlainKey → String
  | null => "NULL"
  | bool b => if b then "true" else "false"
  | int n => toString n
  | node id => "V[" ++ toString id ++ "]"
  | edge source target id => "E[" ++ edgeText source target id ++ "]"

/-- Texts of different kinds start differently; a number starts with a digit or a sign. -/
def kindAt (c : Char) : Nat :=
  if c = 'N' then 0 else if c = 't' ∨ c = 'f' then 1 else if c = 'V' then 3 else if c = 'E' then 4 else 2

def kind : PlainKey → Nat
  | null => 0
  | bool _ => 1
  | int _ => 2
  | node _ => 3
  | edge _ _ _ => 4

theorem kindAt_head (k : PlainKey) : k.text.toList.head?.map kindAt = some k.kind := by
  cases k with
  | null => rfl
  | bool b => cases b <;> rfl
  | int n =>
    obtain ⟨c, rest, hc⟩ := List.exists_cons_of_ne_nil (repr_int_ne_nil n)
    have hmem : c ∈ n.repr.toList := by
      rw [hc]
      exact List.mem_cons_self
    have hkind : kindAt c = 2 := by
      have hnot (d : Char) (h : d ≠ '-') (h' : d.isDigit = false) : c ≠ d := by
        rintro rfl
        exact notMem_repr_int h h' hmem
      simp [kindAt, hnot 'N' (by decide) (by decide), hnot 't' (by decide) (by decide),
        hnot 'f' (by decide) (by decide), hnot 'V' (by decide) (by decide), hnot 'E' (by decide) (by decide)]
    simp [text, kind, hc, hkind]
  | node id => simp [text, kind, kindAt]
  | edge source target id => simp [text, kind, kindAt]

theorem edgeText_inj {s t i s' t' i' : Int} (h : edgeText s t i = edgeText s' t' i') :
    s = s' ∧ t = t' ∧ i = i' := by
  have hpieces (s t i : Int) : splitAtAny (· == '_') (edgeText s t i).toList =
      [s.repr.toList, t.repr.toList, i.repr.toList] := by
    have hfree (n : Int) : ∀ c ∈ n.repr.toList, (c == '_') = false := by
      intro c hc
      by_contra hunder
      have he : c = '_' := by simpa using hunder
      exact notMem_repr_int (by decide) (by decide) (he ▸ hc)
    have hlist : (edgeText s t i).toList = s.repr.toList ++ '_' :: (t.repr.toList ++ '_' :: i.repr.toList) := by
      simp [edgeText]
    rw [hlist, splitAtAny_append_cons (by decide), splitAtAny_append_cons (by decide),
      splitAtAny_of_no_delimiter (hfree s), splitAtAny_of_no_delimiter (hfree t),
      splitAtAny_of_no_delimiter (hfree i), List.singleton_append, List.singleton_append]
  have heq := hpieces s t i
  rw [h, hpieces] at heq
  simpa [String.toList_inj, repr_int_inj, eq_comm] using heq

theorem text_injective {a b : PlainKey} (h : a.text = b.text) : a = b := by
  have hkind : some a.kind = some b.kind := by rw [← kindAt_head, ← kindAt_head, h]
  cases a <;> cases b <;> simp [kind] at hkind
  case null.null => rfl
  case bool.bool b b' => cases b <;> cases b' <;> first | rfl | exact absurd h (by decide)
  case int.int m n =>
    have hn : m = n := by simpa [text, repr_int_inj] using h
    rw [hn]
  case node.node m n =>
    have hn : m = n := by simpa [text, repr_int_inj] using h
    rw [hn]
  case edge.edge s t i s' t' i' =>
    have hedge : edgeText s t i = edgeText s' t' i' := by simpa [text] using h
    obtain ⟨rfl, rfl, rfl⟩ := edgeText_inj hedge
    rfl

theorem comma_notMem_text (k : PlainKey) : ',' ∉ k.text.toList := by
  have hint (n : Int) : ',' ∉ n.repr.toList := notMem_repr_int (by decide) (by decide)
  cases k with
  | null => decide
  | bool b => cases b <;> decide
  | int n => exact hint n
  | node id => simp [text, hint]
  | edge source target id => simp [text, edgeText, hint]

end PlainKey

namespace Scalar

def plainKey? : Scalar → Option PlainKey
  | null => some .null
  | bool b => some (.bool b)
  | s => s.asInt.map fun n => .int n.toInt

variable {a b : Scalar} {x y : PlainKey}

theorem plainKey?_cases (h : a.plainKey? = some x) :
    (a = null ∧ x = .null) ∨ (∃ b, a = bool b ∧ x = .bool b) ∨
      ∃ n, a.number? = some (.int n) ∧ a.rank = 2 ∧ x = .int n.toInt := by
  cases a with
  | null =>
    left
    exact ⟨rfl, (Option.some.inj h).symm⟩
  | bool b =>
    right; left
    exact ⟨b, rfl, (Option.some.inj h).symm⟩
  | int8 n | int16 n | int32 n | int64 n =>
    right; right
    exact ⟨_, rfl, rfl, (Option.some.inj h).symm⟩
  | _ => simp [plainKey?, asInt] at h

theorem text_of_plainKey (h : a.plainKey? = some x) : a.text = x.text := by
  cases a with
  | null | bool b | int64 n => obtain rfl := Option.some.inj h; rfl
  | int8 n | int16 n | int32 n =>
    obtain rfl := Option.some.inj h
    simp [text, PlainKey.text]
  | _ => simp [plainKey?, asInt] at h

theorem rank_of_plainKey (h : a.plainKey? = some x) : a.rank = x.kind := by
  rcases plainKey?_cases h with ⟨rfl, rfl⟩ | ⟨b, rfl, rfl⟩ | ⟨n, -, hr, rfl⟩
  · rfl
  · rfl
  · exact hr

theorem equal_iff_of_plainKey (ha : a.plainKey? = some x) (hb : b.plainKey? = some y) :
    a.equal b = true ↔ x = y := by
  rw [equal_iff]
  by_cases hk : x.kind = y.kind
  · rcases plainKey?_cases ha with ⟨rfl, rfl⟩ | ⟨p, rfl, rfl⟩ | ⟨m, hm, -, rfl⟩ <;>
      rcases plainKey?_cases hb with ⟨rfl, rfl⟩ | ⟨q, rfl, rfl⟩ | ⟨n, hn, -, rfl⟩ <;>
      simp [PlainKey.kind] at hk
    · simp [compare, number?, asInt]
    · simp [compare, number?, asInt]
    · simp [compare_of_numbers hm hn, Number.compare]
  · constructor
    · intro h
      have hr := rank_eq_of_compare_eq h
      rw [rank_of_plainKey ha, rank_of_plainKey hb] at hr
      exact absurd hr hk
    · rintro rfl
      exact absurd rfl hk

end Scalar

namespace Entry

/-- Entries that print apart: Null, booleans, integers of every width, and elements, live or in
snapshots. -/
def isPlain : Entry → Bool
  | constant (.scalar s) => s.isNull || s.isBool || s.isInteger
  | node _ | nodeSnapshot _ | relationship _ | relationshipSnapshot _ => true
  | _ => false

/-- What a snapshot is as a key. -/
def plainKey? : Entry → Option PlainKey
  | constant (.scalar s) => s.plainKey?
  | nodeSnapshot id => some (.node id.toInt)
  | relationshipSnapshot e => some (.edge e.source.toInt e.target.toInt e.id.toInt)
  | _ => none

variable {a b : Entry} {x y : PlainKey}

theorem exists_plainKey (h : a.isPlain = true) : ∃ x, a.snapshot.plainKey? = some x := by
  cases a with
  | constant v =>
    cases v with
    | scalar s =>
      cases s with
      | null | bool b | int8 n | int16 n | int32 n | int64 n => exact ⟨_, rfl⟩
      | _ => simp [isPlain, Scalar.isNull, Scalar.isBool, Scalar.isInteger] at h
    | _ => simp [isPlain] at h
  | path es => simp [isPlain] at h
  | unknown => simp [isPlain] at h
  | _ => exact ⟨_, rfl⟩

theorem plainKey?_cases (h : a.plainKey? = some x) :
    (∃ s, a = constant (.scalar s) ∧ s.plainKey? = some x ∧ x.kind ≤ 2) ∨
      (∃ id, a = nodeSnapshot id ∧ x = .node id.toInt) ∨
      ∃ e, a = relationshipSnapshot e ∧ x = .edge e.source.toInt e.target.toInt e.id.toInt := by
  cases a with
  | constant v =>
    cases v with
    | scalar s =>
      left
      refine ⟨s, rfl, h, ?_⟩
      rcases Scalar.plainKey?_cases h with ⟨-, rfl⟩ | ⟨b, -, rfl⟩ | ⟨n, -, -, rfl⟩ <;>
        simp [PlainKey.kind]
    | _ => simp [plainKey?] at h
  | nodeSnapshot id =>
    right; left
    exact ⟨id, rfl, (Option.some.inj h).symm⟩
  | relationshipSnapshot e =>
    right; right
    exact ⟨e, rfl, (Option.some.inj h).symm⟩
  | _ => simp [plainKey?] at h

theorem text_of_plainKey (h : a.plainKey? = some x) : a.text = x.text := by
  rcases plainKey?_cases h with ⟨s, rfl, hs, -⟩ | ⟨id, rfl, rfl⟩ | ⟨e, rfl, rfl⟩
  · exact Scalar.text_of_plainKey hs
  · rfl
  · rfl

theorem equal_iff_of_plainKey (ha : a.plainKey? = some x) (hb : b.plainKey? = some y) :
    a.equal b = true ↔ x = y := by
  rcases plainKey?_cases ha with ⟨s, rfl, hs, hk⟩ | ⟨id, rfl, rfl⟩ | ⟨e, rfl, rfl⟩ <;>
    rcases plainKey?_cases hb with ⟨t, rfl, ht, hk'⟩ | ⟨id', rfl, rfl⟩ | ⟨e', rfl, rfl⟩
  case inl.inl => exact Scalar.equal_iff_of_plainKey hs ht
  case inr.inl.inr.inl => simp [equal, Int64.toInt_inj]
  case inr.inr.inr.inr =>
    obtain ⟨source, target, id⟩ := e
    obtain ⟨source', target', id'⟩ := e'
    simp [equal, Int64.toInt_inj]
  case inl.inr.inl | inl.inr.inr =>
    simp only [equal, Bool.false_eq_true, false_iff]
    rintro rfl
    simp [PlainKey.kind] at hk
  case inr.inl.inl | inr.inr.inl =>
    simp only [equal, Bool.false_eq_true, false_iff]
    rintro rfl
    simp [PlainKey.kind] at hk'
  all_goals simp [equal]

end Entry

/-- What the entries of a key are. -/
def PlainKeys (keys : List Entry) (plain : List PlainKey) : Prop :=
  List.Forall₂ (fun key x => key.plainKey? = some x) keys plain

namespace PlainKeys

variable {keys others : List Entry} {xs ys : List PlainKey}

theorem map_text (h : PlainKeys keys xs) : keys.map Entry.text = xs.map PlainKey.text := by
  induction h with
  | nil => rfl
  | cons hk h ih => rw [List.map_cons, List.map_cons, ih, Entry.text_of_plainKey hk]

theorem equalEntries_iff (h : PlainKeys keys xs) (h' : PlainKeys others ys) :
    equalEntries keys others = true ↔ xs = ys := by
  induction h generalizing others ys with
  | nil => cases h' <;> simp [equalEntries]
  | cons hk h ih =>
    cases h' with
    | nil => simp [equalEntries]
    | cons hk' h' => simp [equalEntries, Entry.equal_iff_of_plainKey hk hk', ih h']

/-- Joined texts and entries put the same keys together. -/
theorem same_ofEntries (h : PlainKeys keys xs) (h' : PlainKeys others ys)
    (hl : keys.length = others.length) (mode : GroupKeyMode) :
    (GroupKey.ofEntries keys mode).same (.ofEntries others mode) = equalEntries keys others := by
  cases mode with
  | structured => rfl
  | text =>
    have hcomma (zs : List PlainKey) : ∀ t ∈ zs.map PlainKey.text, ',' ∉ t.toList := by
      intro t ht
      obtain ⟨z, -, rfl⟩ := List.mem_map.mp ht
      exact z.comma_notMem_text
    have hlength : (xs.map PlainKey.text).length = (ys.map PlainKey.text).length := by
      rw [List.length_map, List.length_map, ← h.length_eq, ← h'.length_eq, hl]
    have hinj : Function.Injective (List.map PlainKey.text) :=
      List.map_injective_iff.mpr fun _ _ => PlainKey.text_injective
    rw [Bool.eq_iff_iff, equalEntries_iff h h', GroupKey.ofEntries, GroupKey.ofEntries, GroupKey.same,
      beq_iff_eq, h.map_text, h'.map_text, joinWith_inj hlength (hcomma xs) (hcomma ys), hinj.eq_iff]

end PlainKeys

end GraphQuery
