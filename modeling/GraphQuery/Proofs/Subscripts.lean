import Mathlib.Algebra.Group.Nat.Defs
import GraphQuery.Function.Registry

/-! Elements and slices of lists by 64-bit positions, against positions as exact integers. -/

namespace GraphQuery

/-- The place that a position stands for. Negative ones count from the end. -/
def place (position : Int) (length : Nat) : Int := if position < 0 then length + position else position

/-- The place moved into a list of the given length. -/
def boundary (position : Int) (length : Nat) : Int := max 0 (min (place position length) length)

/-- The elements at places from `low` on, before `high`. -/
def elementsBetween (items : List Value) (low high : Int) : List Value :=
  (items.zipIdx.filter fun (_, p) => low ≤ p ∧ p < high).map Prod.fst

theorem filter_zipIdx_between (items : List Value) (start low high : Nat) :
    ((items.zipIdx start).filter fun (_, p) => (low : Int) ≤ p ∧ (p : Int) < high).map Prod.fst =
      (items.take (high - start)).drop (low - start) := by
  induction items generalizing start with
  | nil => simp
  | cons v items ih =>
    have hrest := ih (start + 1)
    rw [List.zipIdx_cons, List.filter_cons]
    by_cases hhigh : start < high
    · have htake : high - start = high - (start + 1) + 1 := by omega
      rw [htake, List.take_succ_cons]
      by_cases hlow : low ≤ start
      · have hin : decide ((low : Int) ≤ start ∧ (start : Int) < high) = true := decide_eq_true (by omega)
        have hzero : low - start = 0 := by omega
        have hzero' : low - (start + 1) = 0 := by omega
        rw [hzero', List.drop_zero] at hrest
        simp only [hin, if_true, List.map_cons, hrest, hzero, List.drop_zero]
      · have hout : decide ((low : Int) ≤ start ∧ (start : Int) < high) = false := decide_eq_false (by omega)
        have hdrop : low - start = low - (start + 1) + 1 := by omega
        simp only [hout, Bool.false_eq_true, if_false, hrest, hdrop, List.drop_succ_cons]
    · have hout : decide ((low : Int) ≤ start ∧ (start : Int) < high) = false := decide_eq_false (by omega)
      have hzero : high - start = 0 := by omega
      have hzero' : high - (start + 1) = 0 := by omega
      simp only [hout, Bool.false_eq_true, if_false, hrest, hzero, hzero', List.take_zero, List.drop_nil]

section Positions

variable {n : Nat} (hfit : n < 2 ^ 63)

theorem toInt_saturatingAdd (a b : Int64) :
    (saturatingAdd a b).toInt = max Int64.minValue.toInt (min (a.toInt + b.toInt) Int64.maxValue.toInt) := by
  rw [saturatingAdd, Int64.toInt_minValue, Int64.toInt_maxValue]
  exact Int64.toInt_ofInt_of_le (by omega) (by omega)

theorem toInt_max (a b : Int64) : (max a b).toInt = max a.toInt b.toInt := by
  have hmax : max a b = if a ≤ b then b else a := rfl
  simp only [hmax, Int.max_def, Int64.le_iff_toInt_le]
  split <;> rfl

theorem toInt_min (a b : Int64) : (min a b).toInt = min a.toInt b.toInt := by
  have hmin : min a b = if a ≤ b then a else b := rfl
  simp only [hmin, Int.min_def, Int64.le_iff_toInt_le]
  split <;> rfl

include hfit

/-- No sum of a position and a length leaves the 64-bit range. -/
theorem toInt_resolvePosition (position : Int64) :
    (resolvePosition position (Int64.ofNat n)).toInt = place position.toInt n := by
  have hlow := position.le_toInt
  simp only [resolvePosition, place, Int64.lt_iff_toInt_lt, Int64.toInt_zero]
  split
  · rw [toInt_saturatingAdd, Int64.toInt_ofNat_of_lt hfit, Int64.toInt_minValue, Int64.toInt_maxValue]
    omega
  · rfl

theorem clampPosition_eq (position : Int64) :
    (clampPosition position (Int64.ofNat n) : Int) = boundary position.toInt n := by
  rw [clampPosition, toInt_max, toInt_min, toInt_resolvePosition hfit, Int64.toInt_ofNat_of_lt hfit,
    Int64.toInt_zero, boundary]
  omega

theorem clampPosition_le (position : Int64) : clampPosition position (Int64.ofNat n) ≤ n := by
  have heq := clampPosition_eq hfit position
  rw [boundary] at heq
  omega

end Positions

section Lists

variable {items : List Value} (hfit : items.length < 2 ^ 63)

include hfit

theorem elementAt_of_place {position : Int64} {p : Nat} (hp : p < items.length)
    (h : place position.toInt items.length = p) : elementAt items position = items[p] := by
  have hresolved := toInt_resolvePosition hfit position
  rw [h] at hresolved
  have hinside : ¬ resolvePosition position (Int64.ofNat items.length) < 0 := by
    rw [Int64.lt_iff_toInt_lt, hresolved, Int64.toInt_zero]
    omega
  rw [elementAt, if_neg hinside, hresolved, Int.toNat_natCast, List.getElem?_eq_getElem hp, Option.getD_some]

theorem elementAt_outside {position : Int64}
    (h : place position.toInt items.length < 0 ∨ items.length ≤ place position.toInt items.length) :
    elementAt items position = .null := by
  have hresolved := toInt_resolvePosition hfit position
  simp only [elementAt, Int64.lt_iff_toInt_lt, hresolved, Int64.toInt_zero]
  rcases h with hbefore | hbehind
  · rw [if_pos hbefore]
  · rw [if_neg (by omega), List.getElem?_eq_none (by omega), Option.getD_none]

omit hfit in
theorem slice_eq_drop_take (items : List Value) (first last : Int64) :
    slice items first last =
      (items.take (clampPosition last (Int64.ofNat items.length))).drop
        (clampPosition first (Int64.ofNat items.length)) := by
  rw [slice]
  split
  · rename_i hempty
    exact (List.drop_of_length_le (Nat.le_trans (List.length_take_le _ _) hempty)).symm
  · rfl

theorem slice_eq_elementsBetween (first last : Int64) :
    slice items first last =
      elementsBetween items (boundary first.toInt items.length) (boundary last.toInt items.length) := by
  rw [slice_eq_drop_take, elementsBetween, ← clampPosition_eq hfit, ← clampPosition_eq hfit]
  exact (filter_zipIdx_between items 0 _ _).symm

/-- A list is its slices up to a position and from there on. -/
theorem slice_append_slice (position : Int64) :
    slice items 0 position ++ slice items position (Int64.ofNat items.length) = items := by
  have hstart : clampPosition 0 (Int64.ofNat items.length) = 0 := by
    have heq := clampPosition_eq hfit 0
    rw [boundary, place, Int64.toInt_zero] at heq
    omega
  have hend : clampPosition (Int64.ofNat items.length) (Int64.ofNat items.length) = items.length := by
    have heq := clampPosition_eq hfit (Int64.ofNat items.length)
    rw [boundary, place, Int64.toInt_ofNat_of_lt hfit] at heq
    omega
  rw [slice_eq_drop_take, slice_eq_drop_take, hstart, hend, List.drop_zero, List.take_length,
    List.take_append_drop]

end Lists

theorem subscriptFunction_of_position (items : List Value) (position : Int64) :
    subscriptFunction [.constant (.list items), .constant (.int position)] = .ok (elementAt items position) :=
  rfl

theorem subscriptFunction_of_positions (items : List Value) (first last : Int64) :
    subscriptFunction [.constant (.list items), .constant (.int first), .constant (.int last)] =
      .ok (.list (slice items first last)) :=
  rfl

/-- Subscripts of a list, which in memory has fewer than `2 ^ 63` elements. A position gives its element,
counted from the end when it is negative, and Null when there is none; two positions give the elements
between them, both moved into the list, so that the slices on the two sides of any position join to the
list again. Sums of positions and lengths stay in the 64-bit range, and slices are taken inside the list. -/
theorem subscripts_are_exact (ctx : Context) {items : List Value} (hfit : items.length < 2 ^ 63) :
    let call (positions : List Int64) := callFunction ctx "subscript"
      (.constant (.list items) :: positions.map fun i => .constant (.int i))
    (∀ (i : Int64) (p : Nat) (hp : p < items.length),
      i.toInt = p ∨ i.toInt = p - items.length → call [i] = .ok items[p]) ∧
    (∀ i : Int64, i.toInt < -items.length ∨ items.length ≤ i.toInt → call [i] = .ok .null) ∧
    (∀ i j : Int64, call [i, j] = .ok (.list
      (elementsBetween items (boundary i.toInt items.length) (boundary j.toInt items.length)))) ∧
    (∀ i : Int64, (resolvePosition i (Int64.ofNat items.length)).toInt = place i.toInt items.length ∧
      clampPosition i (Int64.ofNat items.length) ≤ items.length) ∧
    ∀ k : Int64, ∃ before behind, call [0, k] = .ok before ∧
      call [k, Int64.ofNat items.length] = .ok behind ∧ before.add behind = .ok (.list items) := by
  intro call
  refine ⟨fun i p hp h => ?_, fun i h => ?_, fun i j => ?_, fun i => ?_, fun k => ?_⟩
  · have hplace : place i.toInt items.length = p := by
      rw [place]
      omega
    exact (subscriptFunction_of_position items i).trans (congrArg _ (elementAt_of_place hfit hp hplace))
  · have hplace : place i.toInt items.length < 0 ∨ items.length ≤ place i.toInt items.length := by
      rw [place]
      omega
    exact (subscriptFunction_of_position items i).trans (congrArg _ (elementAt_outside hfit hplace))
  · rw [← slice_eq_elementsBetween hfit]
    exact subscriptFunction_of_positions items i j
  · exact ⟨toInt_resolvePosition hfit i, clampPosition_le hfit i⟩
  · refine ⟨.list (slice items 0 k), .list (slice items k (Int64.ofNat items.length)), rfl, rfl, ?_⟩
    have hjoined : (Value.list (slice items 0 k)).add (.list (slice items k (Int64.ofNat items.length))) =
        .ok (.list (slice items 0 k ++ slice items k (Int64.ofNat items.length))) := rfl
    rw [hjoined, slice_append_slice hfit]

/-- The ends of the 64-bit range as positions in a list of two. -/
theorem subscripts_at_limits :
    let items : List Value := [.int 7, .bool true]
    let call (positions : List Int64) := callFunction (.ofGraph .empty) "subscript"
      (.constant (.list items) :: positions.map fun i => .constant (.int i))
    items.length < 2 ^ 63 ∧ call [-2] = .ok (.int 7) ∧ call [Int64.minValue] = .ok .null ∧
      call [Int64.minValue, Int64.maxValue] = .ok (.list items) := by
  intro items call
  have hfit : items.length < 2 ^ 63 := by decide
  obtain ⟨hinside, houtside, hslice, -⟩ := subscripts_are_exact (.ofGraph .empty) hfit
  exact ⟨hfit, hinside (-2) 0 (by decide) (.inr (by decide)), houtside _ (.inl (by decide)), hslice _ _⟩

end GraphQuery
