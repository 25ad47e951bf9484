import GraphQuery.Proofs.Classes
import GraphQuery.Proofs.DistinctOperands

/-! The stores that DISTINCT keeps. Each has taken one operand of every class that its function tells
apart; Null makes no class. -/

namespace GraphQuery

/-- The entries that a count takes. -/
def notNull (entries : List Entry) : List Entry := entries.filter fun x => !x.isNull

variable {operands : List Entry} {x : Entry}

theorem notNull_append_of_null (hx : x.isNull = true) : notNull (operands ++ [x]) = notNull operands := by
  simp [notNull, hx]

theorem notNull_append (hx : x.isNull = false) : notNull (operands ++ [x]) = notNull operands ++ [x] := by
  simp [notNull, hx]

/-- A store that keeps one operand of every class: how many it has, and what it knows. -/
structure Keeps (function : AggregateFunction) (size : Nat) (knows : Entry → Bool) (operands : List Entry) :
    Prop where
  size_eq : size = (classesBy function.alike (notNull operands)).length
  covers : Covers function knows (notNull operands)

namespace Keeps

variable {function : AggregateFunction} {size : Nat} {knows : Entry → Bool}

theorem nil (function : AggregateFunction) : Keeps function 0 (fun _ => false) [] := ⟨by simp [notNull], fun _ => rfl⟩

theorem of_null (h : Keeps function size knows operands) (hx : x.isNull = true) :
    Keeps function size knows (operands ++ [x]) := by
  have hgiven : notNull (operands ++ [x]) = notNull operands := notNull_append_of_null hx
  exact ⟨by rw [hgiven, h.size_eq], by rw [hgiven]; exact h.covers⟩

theorem length_classesBy_concat (h : Keeps function size knows operands) (hx : x.isNull = false) :
    (classesBy function.alike (notNull (operands ++ [x]))).length = size + if knows x then 0 else 1 := by
  have htrans : ∀ a b c : Entry, function.alike a b = true → function.alike b c = true →
      function.alike a c = true := fun _ _ _ => function.alike_trans
  rw [notNull_append hx, length_classesBy_append_singleton htrans, h.size_eq, h.covers x]

theorem again (h : Keeps function size knows operands) (hx : x.isNull = false) (hknown : knows x = true) :
    Keeps function size knows (operands ++ [x]) := by
  constructor
  · rw [h.length_classesBy_concat hx, if_pos hknown, Nat.add_zero]
  · rw [notNull_append hx]
    exact h.covers.again ((h.covers x).symm.trans hknown)

theorem concat (h : Keeps function size knows operands) (hx : x.isNull = false) (hnew : knows x = false)
    {next : Entry → Bool} (hnext : ∀ y, next y = (knows y || function.alike x y)) :
    Keeps function (size + 1) next (operands ++ [x]) := by
  constructor
  · rw [h.length_classesBy_concat hx, hnew, if_neg Bool.false_ne_true]
  · rw [notNull_append hx]
    exact h.covers.concat hnext

theorem offer {size' : Nat} {next : Entry → Bool} (h : Keeps function size knows operands) (x : Entry)
    (hstays : x.isNull = true ∨ knows x = true → size' = size ∧ next = knows)
    (htakes : x.isNull = false → knows x = false →
      size' = size + 1 ∧ ∀ y, next y = (knows y || function.alike x y)) :
    Keeps function size' next (operands ++ [x]) := by
  cases hx : x.isNull with
  | true =>
    obtain ⟨rfl, rfl⟩ := hstays (.inl hx)
    exact h.of_null hx
  | false =>
    cases hknown : knows x with
    | true =>
      obtain ⟨rfl, rfl⟩ := hstays (.inr hknown)
      exact h.again hx hknown
    | false =>
      obtain ⟨rfl, hnext⟩ := htakes hx hknown
      exact h.concat hx hknown hnext

end Keeps

theorem Count.keeps_offer {c : Count} (x : Entry)
    (h : Keeps .count c.count (fun x => c.seen.any fun e => e.equal x.snapshot) operands) :
    Keeps .count (c.offer true x).count (fun y => (c.offer true x).seen.any fun e => e.equal y.snapshot)
      (operands ++ [x]) := by
  refine h.offer x (fun hold => ?_) fun hx hnew => ?_
  · have hoffer : c.offer true x = c := by
      unfold Count.offer
      rcases hold with hx | hknown
      · rw [if_pos hx]
      · simp [hknown]
    rw [hoffer]
    exact ⟨rfl, rfl⟩
  · have hoffer : c.offer true x = { c.increment with seen := c.seen ++ [x.snapshot] } := by
      simp [Count.offer, hx, hnew]
    rw [hoffer]
    exact ⟨rfl, fun y => by simp [AggregateFunction.alike, Entry.same]⟩

theorem Count.distinct_offer (c : Count) (distinct : Bool) (x : Entry) :
    (c.offer distinct x).distinct = c.distinct := by
  unfold Count.offer
  split
  · rfl
  · split
    · rfl
    · split <;> rfl

theorem Collection.keeps_offer {c : Collection} (x : Entry)
    (h : Keeps .collect c.items.length (fun x => c.seen.contains x.text) operands) :
    Keeps .collect (c.offer true x).items.length (fun y => (c.offer true x).seen.contains y.text)
      (operands ++ [x]) := by
  refine h.offer x (fun hold => ?_) fun hx hnew => ?_
  · have hoffer : c.offer true x = c := by
      unfold Collection.offer
      rcases hold with hx | hknown
      · rw [if_pos hx]
      · simp only [hknown, Bool.not_true, Bool.false_eq_true, if_false, if_true, ite_self]
    rw [hoffer]
    exact ⟨rfl, rfl⟩
  · have hoffer : c.offer true x = ⟨c.items ++ [collected x], c.seen ++ [x.text]⟩ := by
      simp only [Collection.offer, hx, hnew, Bool.not_true, Bool.false_eq_true, if_false]
    rw [hoffer]
    exact ⟨List.length_append, fun y => by simp [AggregateFunction.alike, beq_eq_decide, eq_comm (a := y.text)]⟩

end GraphQuery
