import GraphQuery.Proofs.ValueOrder

/-! The order of record entries is total, and its equality is that of entries. -/

namespace GraphQuery

open Std

namespace Entry

theorem compare_across (a b : Entry) (h : a.rank ≠ b.rank) :
    a.compare b = Ord.compare a.rank b.rank := by
  cases a <;> cases b <;> first | rfl | exact absurd rfl h

theorem ordersAt_of_kind {κ : Type} (c : κ → κ → Ordering) [TransCmp c] (make : κ → Entry) (x : κ)
    (only : ∀ b, b.rank = (make x).rank → ∃ k, make k = b)
    (within : ∀ x y, (make x).compare (make y) = c x y) : OrdersAt Entry.compare (make x) :=
  .of_rank rank compare_across make x only within (.of_transCmp x)

theorem ordersAt (a : Entry) : OrdersAt Entry.compare a := by
  have ids := transCmp_on Int64.toInt (c := Ord.compare)
  cases a with
  | constant v =>
    exact ordersAt_of_kind Value.compare constant v
      (fun b hb => by cases b <;> simp_all [rank]) fun _ _ => rfl
  | node id =>
    exact ordersAt_of_kind (fun x y : NodeId => Ord.compare x.toInt y.toInt) node id
      (fun b hb => by cases b <;> simp_all [rank]) fun _ _ => rfl
  | relationship e =>
    exact ordersAt_of_kind EdgeId.compare relationship e
      (fun b hb => by cases b <;> simp_all [rank]) fun _ _ => rfl
  | path edges =>
    exact ordersAt_of_kind (compareLists EdgeId.compare) path edges
      (fun b hb => by cases b <;> simp_all [rank]) fun _ _ => rfl
  | nodeSnapshot id =>
    exact ordersAt_of_kind (fun x y : NodeId => Ord.compare x.toInt y.toInt) nodeSnapshot id
      (fun b hb => by cases b <;> simp_all [rank]) fun _ _ => rfl
  | relationshipSnapshot e =>
    exact ordersAt_of_kind EdgeId.compare relationshipSnapshot e
      (fun b hb => by cases b <;> simp_all [rank]) fun _ _ => rfl
  | unknown =>
    exact ordersAt_of_kind (Ord.compare (α := Unit)) (fun _ => unknown) ()
      (fun b hb => by cases b <;> simp_all [rank]) fun _ _ => rfl

instance : TransCmp Entry.compare := OrdersAt.transCmp ordersAt

theorem equal_iff (a b : Entry) : a.equal b = true ↔ a.compare b = .eq := by
  have hedge (e f : EdgeId) : e.compare f = .eq ↔ e = f := LawfulEqCmp.compare_eq_iff_eq
  have hpath (es fs : List EdgeId) : compareLists EdgeId.compare es fs = .eq ↔ es = fs :=
    LawfulEqCmp.compare_eq_iff_eq
  cases a <;> cases b <;>
    simp [equal, compare, rank, Value.equal_iff, hedge, hpath, Int64.toInt_inj]

variable {a b c : Entry}

theorem equal_refl (a : Entry) : a.equal a = true := (equal_iff a a).mpr ReflCmp.compare_self

theorem equal_symm (h : a.equal b = true) : b.equal a = true := by
  rw [equal_iff] at *
  exact OrientedCmp.eq_symm h

theorem equal_trans (h : a.equal b = true) (h' : b.equal c = true) : a.equal c = true := by
  rw [equal_iff] at *
  exact TransCmp.eq_trans h h'

end Entry

theorem Scalar.isSome_exactNumber? (s : Scalar) : s.exactNumber?.isSome = s.isNumeric := by
  cases s <;> rfl

theorem cmp_nan_left (x : ExactNumber) :
    cmp ExactNumber.nan x = if x = .nan then .eq else .gt := by
  by_cases hx : x = .nan
  · rw [if_pos hx, hx, cmp_self_eq_eq]
  · rw [if_neg hx, cmp_eq_gt_iff]
    exact lt_top_iff_ne_top.mpr hx

/-- Scalars, values and entries are totally ordered, and equal where the order does not tell them
apart. Numbers of all widths stand by what they are exactly, and NaN above every other. -/
theorem comparison_total_and_exact :
    Orders Scalar.compare Scalar.equal ∧ Orders Value.compare Value.equal ∧
      Orders Entry.compare Entry.equal ∧
      (∀ a : Scalar, a.exactNumber?.isSome = a.isNumeric) ∧
      ∀ (a b : Scalar) (x y : ExactNumber), a.exactNumber? = some x → b.exactNumber? = some y →
        a.compare b = cmp x y ∧ (x = .nan → a.compare b = if y = .nan then .eq else .gt) := by
  refine ⟨.of_transCmp Scalar.equal_iff, .of_transCmp Value.equal_iff, .of_transCmp Entry.equal_iff,
    Scalar.isSome_exactNumber?, fun a b x y ha hb => ?_⟩
  have he := Scalar.compare_eq_cmp_exact ha hb
  refine ⟨he, fun hx => ?_⟩
  rw [he, hx, cmp_nan_left]

/-- One above 2 ^ 53, which no double holds, comes after the double 2 ^ 53. -/
theorem comparison_past_double_precision :
    ∃ x y, (Scalar.int64 9007199254740993).exactNumber? = some x ∧
      (Scalar.double (Binary.ofInt 9007199254740992)).exactNumber? = some y ∧ cmp x y = .gt := by
  refine ⟨_, _, rfl, rfl, ?_⟩
  have h := (comparison_total_and_exact.2.2.2.2 (.int64 9007199254740993)
    (.double (Binary.ofInt 9007199254740992)) _ _ rfl rfl).1
  exact h.symm.trans (by decide +kernel)

end GraphQuery
