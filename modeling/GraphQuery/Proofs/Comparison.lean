import GraphQuery.Record.Entry

/-! Comparisons that order a type up to an equality, and ways to make them: lexicographically,
by rank first, and place by place in lists. -/

namespace GraphQuery

open Std

/-- A comparison is a total order whose equality is `equal`. -/
structure Orders {α : Type} (compare : α → α → Ordering) (equal : α → α → Bool) : Prop where
  swap : ∀ a b, compare b a = (compare a b).swap
  trans : ∀ a b c, (compare a b).isLE → (compare b c).isLE → (compare a c).isLE
  equal_iff : ∀ a b, equal a b = true ↔ compare a b = .eq
  congr : ∀ a b, equal a b = true →
    ∀ c, compare a c = compare b c ∧ compare c a = compare c b

theorem Orders.of_transCmp {α : Type} {compare : α → α → Ordering} {equal : α → α → Bool}
    [TransCmp compare] (h : ∀ a b, equal a b = true ↔ compare a b = .eq) :
    Orders compare equal where
  swap _ _ := OrientedCmp.eq_swap
  trans _ _ _ := TransCmp.isLE_trans
  equal_iff := h
  congr a b hab _ :=
    ⟨TransCmp.congr_left ((h a b).mp hab), TransCmp.congr_right ((h a b).mp hab)⟩

/-- The laws of an order at one element, against any two others. They pass from the parts of
a nested value to the whole. -/
structure OrdersAt {α : Type} (compare : α → α → Ordering) (a : α) : Prop where
  swap : ∀ b, compare b a = (compare a b).swap
  congr_left : ∀ b c, compare a b = .eq → compare a c = compare b c
  congr_right : ∀ b c, compare b c = .eq → compare a b = compare a c
  lt_trans : ∀ b c, compare a b = .lt → compare b c = .lt → compare a c = .lt

theorem OrdersAt.of_transCmp {α : Type} {compare : α → α → Ordering} [TransCmp compare] (a : α) :
    OrdersAt compare a where
  swap _ := OrientedCmp.eq_swap
  congr_left _ _ := TransCmp.congr_left
  congr_right _ _ := TransCmp.congr_right
  lt_trans _ _ := TransCmp.lt_trans

theorem OrdersAt.transCmp {α : Type} {compare : α → α → Ordering}
    (h : ∀ a, OrdersAt compare a) : TransCmp compare where
  eq_swap {a b} := (h b).swap a
  isLE_trans {a b c} hab hbc := by
    cases he : compare a b with
    | gt => simp [he] at hab
    | eq => rwa [(h a).congr_left b c he]
    | lt =>
      cases he' : compare b c with
      | gt => simp [he'] at hbc
      | eq => rwa [← (h a).congr_right b c he']
      | lt => rw [(h a).lt_trans b c he he']; rfl

section Lexicographic

variable {α β : Type} {first : α → α → Ordering} {second : β → β → Ordering}

/-- Comparison of pairs by their first parts, and by their second parts where these agree. -/
def comparePairs (first : α → α → Ordering) (second : β → β → Ordering) (p q : α × β) : Ordering :=
  (first p.1 q.1).then (second p.2 q.2)

theorem OrdersAt.pair {a : α} {b : β} (ha : OrdersAt first a) (hb : OrdersAt second b) :
    OrdersAt (comparePairs first second) (a, b) where
  swap q := by rw [comparePairs, ha.swap, hb.swap, ← Ordering.swap_then]; rfl
  congr_left q r h := by
    obtain ⟨hq, hr⟩ := Ordering.then_eq_eq.mp h
    simp only [comparePairs, ha.congr_left _ r.1 hq, hb.congr_left _ r.2 hr]
  congr_right q r h := by
    obtain ⟨hq, hr⟩ := Ordering.then_eq_eq.mp h
    simp only [comparePairs, ha.congr_right _ _ hq, hb.congr_right _ _ hr]
  lt_trans q r hq hr := by
    simp only [comparePairs, Ordering.then_eq_lt] at hq hr ⊢
    rcases hq with hq | ⟨hq, hq'⟩ <;> rcases hr with hr | ⟨hr, hr'⟩
    · exact .inl (ha.lt_trans _ _ hq hr)
    · exact .inl (by rw [← ha.congr_right _ _ hr, hq])
    · exact .inl (by rw [ha.congr_left _ _ hq, hr])
    · exact .inr ⟨by rw [ha.congr_left _ _ hq, hr], hb.lt_trans _ _ hq' hr'⟩

theorem transCmp_then {c d : α → α → Ordering} [TransCmp c] [TransCmp d] :
    TransCmp fun a b => (c a b).then (d a b) :=
  inferInstanceAs (TransCmp (compareLex c d))

theorem transCmp_on (f : β → α) {c : α → α → Ordering} [TransCmp c] :
    TransCmp fun a b => c (f a) (f b) where
  eq_swap := OrientedCmp.eq_swap
  isLE_trans := TransCmp.isLE_trans

end Lexicographic

/-- A comparison goes by rank across ranks. The elements of the rank of `make x` all come from
`make`, and are compared by what it was applied to. -/
theorem OrdersAt.of_rank {α κ : Type} {compare : α → α → Ordering} (rank : α → Nat)
    (across : ∀ a b, rank a ≠ rank b → compare a b = Ord.compare (rank a) (rank b))
    {c : κ → κ → Ordering} (make : κ → α) (x : κ)
    (only : ∀ b, rank b = rank (make x) → ∃ k, make k = b)
    (within : ∀ x y, compare (make x) (make y) = c x y) (hx : OrdersAt c x) :
    OrdersAt compare (make x) := by
  have hle {a b : α} (h : compare a b ≠ .gt) : rank a ≤ rank b := by
    by_cases hr : rank a = rank b
    · exact Nat.le_of_eq hr
    · rw [across a b hr] at h
      exact Nat.compare_ne_gt.mp h
  have heq {a b : α} (h : compare a b = .eq) : rank a = rank b := by
    by_cases hr : rank a = rank b
    · exact hr
    · rw [across a b hr] at h
      exact Nat.compare_eq_eq.mp h
  refine ⟨fun b => ?_, fun b d he => ?_, fun b d he => ?_, fun b d he he' => ?_⟩
  · by_cases hr : rank b = rank (make x)
    · obtain ⟨y, rfl⟩ := only b hr
      rw [within, within, hx.swap]
    · rw [across _ _ hr, across _ _ (Ne.symm hr)]
      exact OrientedOrd.eq_swap
  · have hb := heq he
    obtain ⟨y, rfl⟩ := only b hb.symm
    by_cases hr : rank d = rank (make x)
    · obtain ⟨z, rfl⟩ := only d hr
      rw [within] at he ⊢
      rw [within, hx.congr_left y z he]
    · rw [across _ _ (Ne.symm hr), across _ _ (hb ▸ Ne.symm hr), hb]
  · have hd := heq he
    by_cases hr : rank b = rank (make x)
    · obtain ⟨y, rfl⟩ := only b hr
      obtain ⟨z, rfl⟩ := only d (hd ▸ hr)
      rw [within] at he ⊢
      rw [within, hx.congr_right y z he]
    · rw [across _ _ (Ne.symm hr), across _ _ (hd ▸ Ne.symm hr), hd]
  · have hb := hle (by rw [he]; decide)
    have hd := hle (by rw [he']; decide)
    by_cases hr : rank d = rank (make x)
    · obtain ⟨y, rfl⟩ := only b (by omega)
      obtain ⟨z, rfl⟩ := only d hr
      rw [within] at he he' ⊢
      exact hx.lt_trans y z he he'
    · rw [across _ _ (Ne.symm hr), Nat.compare_eq_lt]
      omega

theorem OrdersAt.list {α : Type} {c : α → α → Ordering} {as : List α}
    (h : ∀ a ∈ as, OrdersAt c a) : OrdersAt (compareLists c) as := by
  induction as with
  | nil =>
    refine ⟨fun b => ?_, fun b d he => ?_, fun b d he => ?_, fun b d he he' => ?_⟩
    · cases b <;> rfl
    · cases b with
      | nil => rfl
      | cons => cases he
    · cases b <;> cases d <;> first | rfl | cases he
    · cases d with
      | nil => cases b <;> cases he'
      | cons => rfl
  | cons a as ih =>
    have hp := OrdersAt.pair (h a (by simp)) (ih fun x hx => h x (List.mem_cons_of_mem a hx))
    refine ⟨fun b => ?_, fun b d he => ?_, fun b d he => ?_, fun b d he he' => ?_⟩
    · cases b with
      | nil => rfl
      | cons b bs => exact hp.swap (b, bs)
    · cases b with
      | nil => cases he
      | cons b bs =>
        cases d with
        | nil => rfl
        | cons d ds => exact hp.congr_left (b, bs) (d, ds) he
    · cases b <;> cases d <;> first | rfl | cases he | skip
      rename_i b bs d ds
      exact hp.congr_right (b, bs) (d, ds) he
    · cases b <;> cases d <;> first | cases he | cases he' | skip
      rename_i b bs d ds
      exact hp.lt_trans (b, bs) (d, ds) he he'

theorem compareLists_eq_compareLex {α : Type} (c : α → α → Ordering) :
    compareLists c = List.compareLex c := by
  funext as bs
  induction as generalizing bs with
  | nil => cases bs <;> rfl
  | cons a as ih =>
    cases bs with
    | nil => rfl
    | cons b bs => rw [compareLists, ih, List.compareLex_cons_cons]

instance {α : Type} {c : α → α → Ordering} [TransCmp c] : TransCmp (compareLists c) := by
  rw [compareLists_eq_compareLex]
  infer_instance

instance {α : Type} {c : α → α → Ordering} [LawfulEqCmp c] : LawfulEqCmp (compareLists c) := by
  rw [compareLists_eq_compareLex]
  infer_instance

end GraphQuery
