import Mathlib.Data.List.Forall2
import Mathlib.Data.List.Perm.Basic

/-! Lists split by a relation: the elements related to the first one, then the split of the others.
When the relation is an equivalence these are its classes, in the order of their first elements. -/

namespace GraphQuery

variable {α : Type}

def unrelated (same : α → α → Bool) (a : α) (as : List α) : List α := as.filter fun b => !same a b

def classesBy (same : α → α → Bool) : List α → List (List α)
  | [] => []
  | a :: rest => (a :: rest.filter (same a)) :: classesBy same (unrelated same a rest)
termination_by as => as.length
decreasing_by exact Nat.lt_succ_of_le (List.length_filter_le _ rest)

/-- Adds an element to the first class whose first element is related to it, else as a new class. -/
def addToClasses (same : α → α → Bool) (b : α) : List (List α) → List (List α)
  | [] => [[b]]
  | C :: rest =>
    if C.head?.any fun a => same a b then (C ++ [b]) :: rest else C :: addToClasses same b rest

variable {same : α → α → Bool}

@[simp]
theorem classesBy_nil : classesBy same [] = [] := by
  rw [classesBy]

theorem classesBy_cons (a : α) (rest : List α) :
    classesBy same (a :: rest) =
      (a :: rest.filter (same a)) :: classesBy same (unrelated same a rest) := by
  rw [classesBy]

theorem classesBy_eq_nil_iff {as : List α} : classesBy same as = [] ↔ as = [] := by
  cases as <;> simp [classesBy_cons]

theorem classesBy_append_singleton (as : List α) (b : α) :
    classesBy same (as ++ [b]) = addToClasses same b (classesBy same as) := by
  induction as using classesBy.induct same with
  | case1 => simp [classesBy_cons, addToClasses, unrelated]
  | case2 a rest ih =>
    simp only [List.cons_append, classesBy_cons, List.filter_append, addToClasses, List.head?_cons,
      Option.any_some]
    by_cases hab : same a b = true
    · have hother : unrelated same a (rest ++ [b]) = unrelated same a rest := by
        simp [unrelated, hab]
      simp [hab, hother]
    · have hother : unrelated same a (rest ++ [b]) = unrelated same a rest ++ [b] := by
        simp [unrelated, hab]
      simp [hab, hother, ih]

/-- An element that is related to one before it makes no class. -/
theorem length_classesBy_append_singleton
    (htrans : ∀ a b c, same a b = true → same b c = true → same a c = true) (as : List α) (b : α) :
    (classesBy same (as ++ [b])).length =
      (classesBy same as).length + if as.any fun a => same a b then 0 else 1 := by
  induction as using classesBy.induct same with
  | case1 => simp [classesBy_cons, unrelated]
  | case2 a rest ih =>
    rw [List.cons_append, classesBy_cons, classesBy_cons, List.any_cons]
    by_cases hab : same a b = true
    · have hother : unrelated same a (rest ++ [b]) = unrelated same a rest := by
        simp [unrelated, hab]
      simp [hab, hother]
    · have hother : unrelated same a (rest ++ [b]) = unrelated same a rest ++ [b] := by
        simp [unrelated, hab]
      have hany : ((unrelated same a rest).any fun c => same c b) = rest.any fun c => same c b := by
        rw [unrelated, List.any_filter]
        refine congrArg (List.any rest) (funext fun c => ?_)
        by_cases hac : same a c = true
        · have hcb : ¬ same c b = true := fun hcb => hab (htrans a c b hac hcb)
          simp [hac, hcb]
        · simp [hac]
      rw [hother, List.length_cons, ih, hany, List.length_cons]
      simp only [hab, Bool.false_or]
      omega

theorem classesBy_congr {other : α → α → Bool} {as : List α} (h : ∀ a ∈ as, ∀ b ∈ as, same a b = other a b) :
    classesBy same as = classesBy other as := by
  induction as using classesBy.induct same with
  | case1 => rw [classesBy_nil, classesBy_nil]
  | case2 a rest ih =>
    have hfirst : ∀ b ∈ rest, same a b = other a b := fun b hb => h a (by simp) b (by simp [hb])
    have hsame : rest.filter (same a) = rest.filter (other a) := List.filter_congr hfirst
    have hapart : unrelated same a rest = unrelated other a rest :=
      List.filter_congr fun b hb => by rw [hfirst b hb]
    have hrest : ∀ b ∈ unrelated same a rest, b ∈ a :: rest := fun b hb =>
      List.mem_cons_of_mem a (List.mem_of_mem_filter hb)
    have hclasses := ih fun b hb c hc => h b (hrest b hb) c (hrest c hc)
    rw [classesBy_cons, classesBy_cons, hsame, ← hapart, hclasses]

theorem flatten_classesBy_perm (as : List α) : (classesBy same as).flatten.Perm as := by
  induction as using classesBy.induct same with
  | case1 => simp
  | case2 a rest ih =>
    rw [classesBy_cons, List.flatten_cons, List.cons_append]
    refine .cons a ?_
    exact (ih.append_left _).trans (List.filter_append_perm (same a) rest)

theorem mem_of_mem_classesBy {as C : List α} {a : α} (hC : C ∈ classesBy same as) (ha : a ∈ C) :
    a ∈ as :=
  (flatten_classesBy_perm as).mem_iff.mp (List.mem_flatten.mpr ⟨C, hC, ha⟩)

theorem nil_notMem_classesBy (as : List α) : [] ∉ classesBy same as := by
  induction as using classesBy.induct same with
  | case1 => simp
  | case2 a rest ih => simp [classesBy_cons, ih]

/-- Classes come in the order of their first elements. -/
theorem classesBy_heads_sublist (as : List α) :
    ((classesBy same as).filterMap List.head?).Sublist as := by
  induction as using classesBy.induct same with
  | case1 => simp
  | case2 a rest ih =>
    have hrest := ih.trans (List.filter_sublist (l := rest))
    simpa [classesBy_cons] using hrest

theorem sublist_of_mem_classesBy {as C : List α} (hC : C ∈ classesBy same as) : C.Sublist as := by
  induction as using classesBy.induct same with
  | case1 => simp at hC
  | case2 a rest ih =>
    rw [classesBy_cons] at hC
    rcases List.mem_cons.mp hC with rfl | hC
    · exact List.filter_sublist.cons_cons a
    · exact ((ih hC).trans List.filter_sublist).cons a

theorem classesBy_of_all_same {as : List α} (hne : as ≠ [])
    (h : ∀ a ∈ as, ∀ b ∈ as, same a b = true) : classesBy same as = [as] := by
  obtain _ | ⟨a, rest⟩ := as
  · exact absurd rfl hne
  · have hall : ∀ b ∈ rest, same a b = true := fun b hb => h a (by simp) b (by simp [hb])
    have hsame : rest.filter (same a) = rest := List.filter_eq_self.mpr hall
    have hother : unrelated same a rest = [] := by simpa [unrelated] using hall
    rw [classesBy_cons, hsame, hother, classesBy_nil]

theorem same_of_mem_class (hsymm : ∀ a b, same a b = true → same b a = true)
    (htrans : ∀ a b c, same a b = true → same b c = true → same a c = true) {as : List α}
    (hrefl : ∀ a ∈ as, same a a = true) {C : List α} (hC : C ∈ classesBy same as) {b c : α}
    (hb : b ∈ C) (hc : c ∈ C) : same b c = true := by
  induction as using classesBy.induct same with
  | case1 => simp at hC
  | case2 a rest ih =>
    rw [classesBy_cons] at hC
    rcases List.mem_cons.mp hC with rfl | hC
    · have hfirst : ∀ x ∈ a :: rest.filter (same a), same a x = true := by
        intro x hx
        rcases List.mem_cons.mp hx with rfl | hx
        · exact hrefl x (by simp)
        · exact (List.mem_filter.mp hx).2
      exact htrans b a c (hsymm a b (hfirst b hb)) (hfirst c hc)
    · exact ih (fun x hx => hrefl x (List.mem_cons_of_mem a (List.mem_of_mem_filter hx))) hC

theorem classesBy_pairwise (htrans : ∀ a b c, same a b = true → same b c = true → same a c = true)
    (as : List α) :
    (classesBy same as).Pairwise fun C D => ∀ b ∈ C, ∀ c ∈ D, same b c = false := by
  induction as using classesBy.induct same with
  | case1 => simp
  | case2 a rest ih =>
    rw [classesBy_cons]
    refine List.pairwise_cons.mpr ⟨fun D hD b hb c hc => ?_, ih⟩
    have hac : same a c = false := by
      have := mem_of_mem_classesBy hD hc
      simpa using (List.mem_filter.mp this).2
    by_cases hbc : same b c = true
    · rcases List.mem_cons.mp hb with rfl | hb
      · rw [hac] at hbc
        cases hbc
      · have := htrans a b c (List.mem_filter.mp hb).2 hbc
        rw [hac] at this
        cases this
    · simpa using hbc

theorem mem_class_of_same (hsymm : ∀ a b, same a b = true → same b a = true)
    (htrans : ∀ a b c, same a b = true → same b c = true → same a c = true) {as C : List α}
    (hC : C ∈ classesBy same as) {b c : α} (hb : b ∈ C) (hc : c ∈ as) (hbc : same b c = true) : c ∈ C := by
  induction as using classesBy.induct same with
  | case1 => simp at hc
  | case2 a rest ih =>
    rw [classesBy_cons] at hC
    rcases List.mem_cons.mp hC with rfl | hC
    · rcases List.mem_cons.mp hc with rfl | hc
      · exact List.mem_cons_self
      · have hac : same a c = true := by
          rcases List.mem_cons.mp hb with rfl | hb
          · exact hbc
          · exact htrans a b c (List.mem_filter.mp hb).2 hbc
        exact List.mem_cons_of_mem a (List.mem_filter.mpr ⟨hc, hac⟩)
    · have hab : same a b = false := by
        simpa using (List.mem_filter.mp (mem_of_mem_classesBy hC hb)).2
      have hac : ¬ same a c = true := fun h => by
        rw [htrans a c b h (hsymm b c hbc)] at hab
        cases hab
      rcases List.mem_cons.mp hc with rfl | hc
      · rw [hsymm b c hbc] at hab
        cases hab
      · exact ih hC (List.mem_filter.mpr ⟨hc, by simpa using hac⟩)

/-- Two elements are in one class when they are related. -/
theorem exists_class_iff (hsymm : ∀ a b, same a b = true → same b a = true)
    (htrans : ∀ a b c, same a b = true → same b c = true → same a c = true) {as : List α}
    (hrefl : ∀ a ∈ as, same a a = true) {b c : α} (hb : b ∈ as) (hc : c ∈ as) :
    (∃ C ∈ classesBy same as, b ∈ C ∧ c ∈ C) ↔ same b c = true := by
  refine ⟨fun ⟨C, hC, hbC, hcC⟩ => same_of_mem_class hsymm htrans hrefl hC hbC hcC, fun hbc => ?_⟩
  obtain ⟨C, hC, hbC⟩ := List.mem_flatten.mp ((flatten_classesBy_perm as).mem_iff.mpr hb)
  exact ⟨C, hC, hbC, mem_class_of_same hsymm htrans hC hbC hc hbc⟩

section Permutations

variable (hsymm : ∀ a b, same a b = true → same b a = true)
  (htrans : ∀ a b c, same a b = true → same b c = true → same a c = true)

include hsymm htrans

theorem same_congr_left {a b : α} (h : same a b = true) (c : α) : same a c = same b c := by
  rw [Bool.eq_iff_iff]
  exact ⟨htrans b a c (hsymm a b h), htrans a b c h⟩

/-- The class of any element may come first. -/
theorem classesBy_perm_of_mem {as : List α} {a : α} (ha : a ∈ as) (hrefl : same a a = true) :
    (classesBy same as).Perm (as.filter (same a) :: classesBy same (unrelated same a as)) := by
  induction as using classesBy.induct same with
  | case1 => simp at ha
  | case2 b rest ih =>
    rw [classesBy_cons]
    by_cases hab : same a b = true
    · have hsame : same a = same b := funext (same_congr_left hsymm htrans hab)
      have hclass : (b :: rest).filter (same a) = b :: rest.filter (same b) := by
        rw [List.filter_cons_of_pos hab, hsame]
      have hother : unrelated same a (b :: rest) = unrelated same b rest := by
        rw [unrelated, List.filter_cons_of_neg (by simp [hab]), hsame, unrelated]
      rw [hclass, hother]
    · have hba : ¬ same b a = true := fun h => hab (hsymm b a h)
      have hmem : a ∈ unrelated same b rest := by
        rcases List.mem_cons.mp ha with rfl | ha
        · exact absurd hrefl hab
        · exact List.mem_filter.mpr ⟨ha, by simpa using hba⟩
      have hapart (c : α) : same a c = true → same b c = false := by
        intro hac
        by_contra hbc
        rw [Bool.not_eq_false] at hbc
        exact hab (htrans a c b hac (hsymm b c hbc))
      have hclass : (b :: rest).filter (same a) = (unrelated same b rest).filter (same a) := by
        rw [List.filter_cons_of_neg hab, unrelated, List.filter_filter]
        refine List.filter_congr fun c _ => ?_
        by_cases hac : same a c = true
        · simp [hac, hapart c hac]
        · simp [hac]
      have hfirst : (unrelated same a rest).filter (same b) = rest.filter (same b) := by
        rw [unrelated, List.filter_filter]
        refine List.filter_congr fun c _ => ?_
        by_cases hac : same a c = true
        · simp [hapart c hac]
        · simp [hac]
      have hswap : unrelated same b (unrelated same a rest) = unrelated same a (unrelated same b rest) := by
        rw [unrelated, unrelated, unrelated, unrelated, List.filter_filter, List.filter_filter]
        exact List.filter_congr fun c _ => Bool.and_comm _ _
      have hother : classesBy same (unrelated same a (b :: rest)) =
          (b :: rest.filter (same b)) :: classesBy same (unrelated same a (unrelated same b rest)) := by
        have hcons : unrelated same a (b :: rest) = b :: unrelated same a rest :=
          List.filter_cons_of_pos (by simpa using hab)
        rw [hcons, classesBy_cons, hfirst, hswap]
      rw [hclass, hother]
      exact ((ih hmem).cons _).trans (.swap _ _ _)

/-- The classes of a list in another order are the same up to the order of them and in them. -/
theorem classesBy_perm {as bs : List α} (h : as.Perm bs) (hrefl : ∀ a ∈ as, same a a = true) :
    ∃ mid, (classesBy same as).Perm mid ∧ List.Forall₂ List.Perm mid (classesBy same bs) := by
  induction as using classesBy.induct same generalizing bs with
  | case1 =>
    obtain rfl := h.nil_eq
    rw [classesBy_nil]
    exact ⟨[], .refl _, .nil⟩
  | case2 a rest ih =>
    have ha : a ∈ bs := h.mem_iff.mp List.mem_cons_self
    have hself : same a a = true := hrefl a List.mem_cons_self
    have hclass : (a :: rest.filter (same a)).Perm (bs.filter (same a)) := by
      have hfilter := h.filter (same a)
      rwa [List.filter_cons_of_pos hself] at hfilter
    have hother : (unrelated same a rest).Perm (unrelated same a bs) := by
      have hfilter := h.filter fun b => !same a b
      rwa [List.filter_cons_of_neg (by simp [hself])] at hfilter
    have hrest : ∀ b ∈ unrelated same a rest, same b b = true := fun b hb =>
      hrefl b (List.mem_cons_of_mem a (List.mem_of_mem_filter hb))
    obtain ⟨mid, hmid, hperm⟩ := ih hother hrest
    have hpulled := classesBy_perm_of_mem hsymm htrans ha hself
    have hcomp : (Relation.Comp (List.Forall₂ List.Perm) List.Perm) ((a :: rest.filter (same a)) :: mid)
        (classesBy same bs) := ⟨_, .cons hclass hperm, hpulled.symm⟩
    rw [List.forall₂_comp_perm_eq_perm_comp_forall₂] at hcomp
    obtain ⟨mid', hmid', hperm'⟩ := hcomp
    rw [classesBy_cons]
    exact ⟨mid', (hmid.cons _).trans hmid', hperm'⟩

theorem length_classesBy_perm {as bs : List α} (h : as.Perm bs) (hrefl : ∀ a ∈ as, same a a = true) :
    (classesBy same as).length = (classesBy same bs).length := by
  obtain ⟨mid, hmid, hperm⟩ := classesBy_perm hsymm htrans h hrefl
  rw [hmid.length_eq, hperm.length_eq]

end Permutations

end GraphQuery
