import GraphQuery.Proofs.Comparison
import GraphQuery.Proofs.ExactNumber

/-! The order of scalars, values and entries is total, and its equality is theirs. -/

namespace GraphQuery

open Std

instance : TransCmp Geometry.compare :=
  inferInstanceAs (TransCmp (compareLex (compareOn Geometry.srid) (compareOn Geometry.wkt)))

instance : TransCmp Date.compare :=
  inferInstanceAs (TransCmp (compareLex (compareOn Date.year)
    (compareLex (compareOn Date.month) (compareOn Date.day))))

instance : TransCmp Time.compare :=
  inferInstanceAs (TransCmp (compareLex (compareOn Time.hour) (compareLex (compareOn Time.minute)
    (compareLex (compareOn Time.second) (compareOn Time.nanosecond)))))

instance : TransCmp DateTime.compare :=
  have := transCmp_on DateTime.date (c := Date.compare)
  have := transCmp_on DateTime.time (c := Time.compare)
  transCmp_then (c := fun a b : DateTime => a.date.compare b.date)
    (d := fun a b => a.time.compare b.time)

instance : TransCmp (Binary.totalCompare (φ := Format.single)) :=
  inferInstanceAs (TransCmp (compareOn Binary.totalKey))

instance : TransCmp EdgeId.compare :=
  inferInstanceAs (TransCmp (compareLex (compareOn fun e : EdgeId => e.source.toInt)
    (compareLex (compareOn fun e : EdgeId => e.target.toInt)
      (compareOn fun e : EdgeId => e.id.toInt))))

instance : LawfulEqCmp EdgeId.compare where
  eq_of_compare {a b} h := by
    simp only [EdgeId.compare, Ordering.then_eq_eq, Int.compare_eq_eq, Int64.toInt_inj] at h
    cases a
    cases b
    simp_all

namespace Number

instance : TransCmp Number.compare := by
  have he : Number.compare = fun a b => Ord.compare a.key b.key := funext₂ compare_eq_key
  rw [he]
  exact transCmp_on key

end Number

namespace Scalar

theorem exactNumber?_eq (s : Scalar) : s.exactNumber? = s.number?.map Number.exact := by
  cases s with
  | float x => exact congrArg some x.exact_convert.symm
  | _ => rfl

theorem compare_of_numbers {a b : Scalar} {x y : Number} (ha : a.number? = some x)
    (hb : b.number? = some y) : a.compare b = x.compare y := by
  simp only [compare, ha, hb]

theorem compare_eq_cmp_exact {a b : Scalar} {x y : ExactNumber} (ha : a.exactNumber? = some x)
    (hb : b.exactNumber? = some y) : a.compare b = cmp x y := by
  rw [exactNumber?_eq, Option.map_eq_some_iff] at ha hb
  obtain ⟨m, hm, rfl⟩ := ha
  obtain ⟨n, hn, rfl⟩ := hb
  rw [compare_of_numbers hm hn, Number.compare_eq_cmp_exact]

theorem compare_across (a b : Scalar) (h : a.rank ≠ b.rank) :
    a.compare b = Ord.compare a.rank b.rank := by
  cases a <;> cases b <;> first | rfl | exact absurd rfl h

theorem exists_number {a : Scalar} (h : a.rank = 2) : ∃ x, a.number? = some x := by
  cases a <;> simp_all [rank, number?, asInt]

theorem transCmp_numbers : TransCmp fun a b : { s : Scalar // s.rank = 2 } => a.val.compare b.val := by
  have he : (fun a b : { s : Scalar // s.rank = 2 } => a.val.compare b.val) =
      fun a b => Ord.compare ((a.val.number?.map Number.key).getD 0)
        ((b.val.number?.map Number.key).getD 0) := by
    funext a b
    obtain ⟨x, hx⟩ := exists_number a.property
    obtain ⟨y, hy⟩ := exists_number b.property
    simp [compare_of_numbers hx hy, Number.compare_eq_key, hx, hy]
  rw [he]
  exact transCmp_on fun a : { s : Scalar // s.rank = 2 } => (a.val.number?.map Number.key).getD 0

/-- A kind of its own rank is ordered when what its scalars hold is. -/
theorem ordersAt_of_kind {κ : Type} (c : κ → κ → Ordering) [TransCmp c] (make : κ → Scalar) (x : κ)
    (only : ∀ b, b.rank = (make x).rank → ∃ k, make k = b)
    (within : ∀ x y, (make x).compare (make y) = c x y) : OrdersAt Scalar.compare (make x) :=
  .of_rank rank compare_across make x only within (.of_transCmp x)

theorem ordersAt (a : Scalar) : OrdersAt Scalar.compare a := by
  by_cases hn : a.rank = 2
  · have := transCmp_numbers
    exact ordersAt_of_kind _ Subtype.val ⟨a, hn⟩ (fun b hb => ⟨⟨b, hb.trans hn⟩, rfl⟩) fun _ _ => rfl
  · cases a with
    | null =>
      exact ordersAt_of_kind (Ord.compare (α := Unit)) (fun _ => null) ()
        (fun b hb => by cases b <;> simp_all [rank]) fun _ _ => rfl
    | bool x =>
      exact ordersAt_of_kind Ord.compare bool x (fun b hb => by cases b <;> simp_all [rank])
        fun _ _ => rfl
    | string x =>
      exact ordersAt_of_kind Ord.compare string x (fun b hb => by cases b <;> simp_all [rank])
        fun _ _ => rfl
    | date x =>
      exact ordersAt_of_kind Date.compare date x (fun b hb => by cases b <;> simp_all [rank])
        fun _ _ => rfl
    | dateTime x =>
      exact ordersAt_of_kind DateTime.compare dateTime x
        (fun b hb => by cases b <;> simp_all [rank]) fun _ _ => rfl
    | point x =>
      exact ordersAt_of_kind Geometry.compare point x
        (fun b hb => by cases b <;> simp_all [rank]) fun _ _ => rfl
    | lineString x =>
      exact ordersAt_of_kind Geometry.compare lineString x
        (fun b hb => by cases b <;> simp_all [rank]) fun _ _ => rfl
    | polygon x =>
      exact ordersAt_of_kind Geometry.compare polygon x
        (fun b hb => by cases b <;> simp_all [rank]) fun _ _ => rfl
    | floatVector x =>
      exact ordersAt_of_kind (compareLists Binary.totalCompare) floatVector x
        (fun b hb => by cases b <;> simp_all [rank]) fun _ _ => rfl
    | _ => simp [rank] at hn

instance : TransCmp Scalar.compare := OrdersAt.transCmp ordersAt

theorem equal_iff (a b : Scalar) : a.equal b = true ↔ a.compare b = .eq := by
  simp [equal]

end Scalar

/-- Induction on values: a list or map has the property when all of its parts have it. -/
theorem Value.induction {P : Value → Prop} (scalar : ∀ s, P (.scalar s))
    (list : ∀ items : List Value, (∀ v ∈ items, P v) → P (.list items))
    (map : ∀ fields : List (String × Value), (∀ f ∈ fields, P f.2) → P (.map fields))
    (v : Value) : P v := by
  refine @Value.rec P (fun items => ∀ v ∈ items, P v) (fun fields => ∀ f ∈ fields, P f.2)
    (fun f => P f.2) scalar list map ?_ ?_ ?_ ?_ ?_ v
  · simp
  · intro v items hv hitems
    simpa using ⟨hv, hitems⟩
  · simp
  · intro f fields hf hfields g hg
    rcases List.mem_cons.mp hg with rfl | hg
    · exact hf
    · exact hfields g hg
  · exact fun _ _ h => h

theorem compareItems_eq : compareItems = compareLists Value.compare := by
  funext as bs
  induction as generalizing bs with
  | nil => cases bs <;> rfl
  | cons a as ih =>
    cases bs with
    | nil => rfl
    | cons b bs => rw [compareItems, compareLists, ih]

theorem compareFields_eq : compareFields = compareLists (comparePairs Ord.compare Value.compare) := by
  funext as bs
  induction as generalizing bs with
  | nil => cases bs <;> rfl
  | cons a as ih =>
    cases bs with
    | nil => rfl
    | cons b bs => rw [compareFields, compareLists, ih, comparePairs]

namespace Value

def rank : Value → Nat
  | scalar _ => 0
  | list _ => 1
  | map _ => 2

theorem compare_across (a b : Value) (h : a.rank ≠ b.rank) :
    a.compare b = Ord.compare a.rank b.rank := by
  cases a <;> cases b <;> first | rfl | exact absurd rfl h

theorem ordersAt (v : Value) : OrdersAt Value.compare v := by
  induction v using Value.induction with
  | scalar s =>
    exact .of_rank rank compare_across scalar s (fun b hb => by cases b <;> simp_all [rank])
      (fun _ _ => rfl) s.ordersAt
  | list items ih =>
    exact .of_rank rank compare_across list items (fun b hb => by cases b <;> simp_all [rank])
      (fun as bs => congrFun (congrFun compareItems_eq as) bs) (.list ih)
  | map fields ih =>
    refine .of_rank rank compare_across map fields (fun b hb => by cases b <;> simp_all [rank])
      (fun as bs => congrFun (congrFun compareFields_eq as) bs) (.list fun f hf => ?_)
    exact .pair (.of_transCmp f.1) (ih f hf)

instance : TransCmp Value.compare := OrdersAt.transCmp ordersAt

theorem equalItems_iff {as : List Value}
    (h : ∀ a ∈ as, ∀ b, a.equal b = true ↔ a.compare b = .eq) (bs : List Value) :
    equalItems as bs = true ↔ compareItems as bs = .eq := by
  induction as generalizing bs with
  | nil => cases bs <;> simp [equalItems, compareItems]
  | cons a as ih =>
    cases bs with
    | nil => simp [equalItems, compareItems]
    | cons b bs =>
      have ha := h a (by simp) b
      have has := ih (fun x hx => h x (List.mem_cons_of_mem a hx)) bs
      simp [equalItems, compareItems, Ordering.then_eq_eq, ha, has]

theorem equalFields_iff {as : List (String × Value)}
    (h : ∀ f ∈ as, ∀ b, f.2.equal b = true ↔ f.2.compare b = .eq) (bs : List (String × Value)) :
    equalFields as bs = true ↔ compareFields as bs = .eq := by
  induction as generalizing bs with
  | nil => cases bs <;> simp [equalFields, compareFields]
  | cons f as ih =>
    cases bs with
    | nil => simp [equalFields, compareFields]
    | cons g bs =>
      have hf := h f (by simp) g.2
      have has := ih (fun x hx => h x (List.mem_cons_of_mem f hx)) bs
      have hk : Ord.compare f.1 g.1 = .eq ↔ f.1 = g.1 := LawfulEqCmp.compare_eq_iff_eq
      simp [equalFields, compareFields, Ordering.then_eq_eq, hf, has, hk]

theorem equal_iff (v w : Value) : v.equal w = true ↔ v.compare w = .eq := by
  induction v using Value.induction generalizing w with
  | scalar s =>
    cases w with
    | scalar t => simpa only [equal, compare] using s.equal_iff t
    | _ => simp [equal, compare]
  | list items ih =>
    cases w with
    | list others => simpa only [equal, compare] using equalItems_iff ih others
    | _ => simp [equal, compare]
  | map fields ih =>
    cases w with
    | map others => simpa only [equal, compare] using equalFields_iff ih others
    | _ => simp [equal, compare]

end Value

end GraphQuery
