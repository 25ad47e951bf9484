import GraphQuery.Proofs.NumericOperands
import GraphQuery.Proofs.RoundedProducts

/-! A percentile reads the sorted numbers of its group. Sorting forgets the order of the rows, and the
share never leads out of the sorted list. -/

namespace GraphQuery

section Sorted

variable {xs ys : List Double}

def Ascending (xs : List Double) : Prop := xs.Pairwise fun a b => a.totalKey ≤ b.totalKey

theorem insertSorted_cons (x y : Double) (ys : List Double) :
    insertSorted x (y :: ys) = if x.totalKey < y.totalKey then x :: y :: ys else y :: insertSorted x ys := by
  have hlt : (x.totalCompare y == .lt) = decide (x.totalKey < y.totalKey) := by
    rw [Binary.totalCompare, Bool.eq_iff_iff, beq_iff_eq, decide_eq_true_iff]
    exact Int.compare_eq_lt
  simp only [insertSorted, hlt, decide_eq_true_eq]

theorem insertSorted_perm (x : Double) (ys : List Double) : (insertSorted x ys).Perm (x :: ys) := by
  induction ys with
  | nil => exact .refl _
  | cons y ys ih =>
    rw [insertSorted_cons]
    split
    · exact .refl _
    · exact (ih.cons y).trans (.swap x y ys)

theorem Ascending.insertSorted (x : Double) (h : Ascending ys) : Ascending (insertSorted x ys) := by
  induction ys with
  | nil => exact List.pairwise_singleton _ x
  | cons y ys ih =>
    obtain ⟨hy, hys⟩ := List.pairwise_cons.mp h
    rw [insertSorted_cons]
    split
    · rename_i hlt
      refine List.pairwise_cons.mpr ⟨fun z hz => ?_, h⟩
      rcases List.mem_cons.mp hz with rfl | hz
      · exact hlt.le
      · exact hlt.le.trans (hy z hz)
    · rename_i hge
      refine List.pairwise_cons.mpr ⟨fun z hz => ?_, ih hys⟩
      rcases List.mem_cons.mp ((insertSorted_perm x ys).mem_iff.mp hz) with rfl | hz
      · exact Int.not_lt.mp hge
      · exact hy z hz

theorem sortNumbers_concat (xs : List Double) (x : Double) :
    sortNumbers (xs ++ [x]) = insertSorted x (sortNumbers xs) := List.foldl_concat ..

theorem sortNumbers_perm (xs : List Double) : (sortNumbers xs).Perm xs := by
  -- from the end, since the last number is the last to be put in its place
  induction xs using List.reverseRecOn with
  | nil => exact .refl _
  | append_singleton xs x ih =>
    rw [sortNumbers_concat]
    exact ((insertSorted_perm x _).trans (ih.cons x)).trans (List.perm_append_singleton x xs).symm

theorem ascending_sortNumbers (xs : List Double) : Ascending (sortNumbers xs) := by
  induction xs using List.reverseRecOn with
  | nil => exact .nil
  | append_singleton xs x ih =>
    rw [sortNumbers_concat]
    exact ih.insertSorted x

/-- No two words share a place in the order, so the sorted list does not tell how it came about. -/
theorem sortNumbers_eq_of_perm (h : xs.Perm ys) : sortNumbers xs = sortNumbers ys :=
  List.Perm.eq_of_pairwise (fun _ _ _ _ hab hba => Binary.totalKey_injective (Int.le_antisymm hab hba))
    (ascending_sortNumbers xs) (ascending_sortNumbers ys)
    (((sortNumbers_perm xs).trans h).trans (sortNumbers_perm ys).symm)

theorem length_sortNumbers (xs : List Double) : (sortNumbers xs).length = xs.length :=
  (sortNumbers_perm xs).length_eq

end Sorted

/-- Whether a percentile takes a number for its share. -/
def IsShare (p : Double) : Prop := Double.zero.lessEq p = true ∧ p.lessEq Double.one = true

def nearestRank (p : Double) (count : Nat) : Nat :=
  min (if Double.zero.less p then ((p.mul (Double.ofNat count)).ceil.toInt64.toInt - 1).toNat else 0) (count - 1)

/-- The place below the point that a share marks between the first number and the last. -/
def rankBelow (p : Double) (count : Nat) : Nat :=
  (p.mul (Double.ofNat (count - 1))).floor.toInt64.toInt.toNat

/-- Whether one times a count is the count, as it is for every count that is a double. -/
def IsExactCount (count : Nat) : Prop :=
  count < 2 ^ 63 ∧ (Double.one.mul (Double.ofNat count)).value = count * Format.double.one

section Ranks

variable {p : Double} {count : Nat}

theorem IsShare.nonneg (hp : IsShare p) : 0 ≤ p.value := by
  have h := hp.1
  simp only [Binary.lessEq, Bool.and_eq_true, decide_eq_true_eq] at h
  exact h.2

theorem IsShare.lt_one (hp : IsShare p) (h : Double.one.lessEq p = false) : p.value < Double.one.value := by
  have hone := hp.2
  simp only [Binary.lessEq, Bool.and_eq_true, decide_eq_true_eq, Bool.not_eq_true'] at hone h
  simpa [hone.1.1, hone.1.2] using h

theorem nearestRank_of_zero (hzero : p.equals Double.zero = true) (count : Nat) : nearestRank p count = 0 := by
  have hvalue : p.value = Double.zero.value := by
    simp only [Binary.equals, Bool.and_eq_true, decide_eq_true_eq] at hzero
    exact hzero.2
  have hnot : Double.zero.less p = false := by simp [Binary.less, hvalue]
  rw [nearestRank, hnot, if_neg Bool.false_ne_true, Nat.zero_min]

theorem nearestRank_of_one (hone : p.equals Double.one = true) (hcount : IsExactCount count) :
    nearestRank p count = count - 1 := by
  obtain ⟨hlt, hexact⟩ := hcount
  simp only [Binary.equals, Bool.and_eq_true, Bool.not_eq_true', decide_eq_true_eq] at hone
  have hvalue : p.value = Format.double.one := hone.2.trans Double.value_one
  have hproduct : (p.mul (Double.ofNat count)).value = count * Format.double.one := by
    rw [Double.value_mul_ofNat_of_one hvalue hlt, ← Double.value_mul_ofNat_of_one Double.value_one hlt, hexact]
  have hless : Double.zero.less p = true := by
    have hpos : Double.zero.value < p.value := by
      rw [hvalue]
      exact Int.natCast_pos.mpr Format.double.one_pos
    have hnumber : Double.zero.isNaN = false := by decide
    simp [Binary.less, hnumber, hone.1.1, hpos]
  have hwhole : (p.mul (Double.ofNat count)).units % Format.double.one = 0 := by
    rw [← Binary.natAbs_value, hproduct, Int.natAbs_mul, Int.natAbs_natCast, Int.natAbs_natCast,
      Nat.mul_mod_left]
  rw [nearestRank, hless, if_pos rfl, Double.ceil_of_whole hwhole, Double.toInt_of_value hlt hproduct]
  omega

theorem isExactCount_of_le (h : count ≤ 2 ^ 53) : IsExactCount count := by
  have hlt : count < 2 ^ 63 := by omega
  refine ⟨hlt, ?_⟩
  rw [Double.value_mul_ofNat_of_one Double.value_one hlt]
  rcases Nat.lt_or_eq_of_le h with hsmall | rfl
  · exact Double.value_ofNat_exact (e := 0) (by simp) hsmall hlt
  · exact Double.value_ofNat_exact (m := 1) (e := 53) (by decide) (by decide) hlt

end Ranks

namespace PercentileKind

variable {kind : PercentileKind} {p : Double} {count : Nat} {xs : List Double}

/-- The places of the sorted numbers that a percentile reads. -/
def places (kind : PercentileKind) (p : Double) (count : Nat) : List Nat :=
  match kind with
  | discrete => [nearestRank p count]
  | continuous =>
    if count = 1 || Double.one.lessEq p then [count - 1] else [rankBelow p count, rankBelow p count + 1]

/-- What a percentile makes of the numbers it reads: the one number, or a point between the two. -/
def blend (p : Double) (count : Nat) : List (Option Double) → Option Double
  | [number] => number
  | [some low, some high] =>
    let part := (p.mul (Double.ofNat (count - 1))).sub (Double.ofNat (rankBelow p count))
    some (low.add (part.mul (high.sub low)))
  | low :: _ => low
  | [] => none

theorem ofNumbers_eq_blend (kind : PercentileKind) (p : Double) (xs : List Double) :
    kind.ofNumbers p xs =
      blend p xs.length ((kind.places p xs.length).map fun place => (sortNumbers xs)[place]?) := by
  rw [← length_sortNumbers xs]
  cases kind with
  | discrete => rfl
  | continuous =>
    change continuousPercentile p (sortNumbers xs) = _
    generalize sortNumbers xs = sorted
    rw [continuousPercentile, places]
    split
    · exact List.getLast?_eq_getElem?
    · simp only [List.map_cons, List.map_nil, ← rankBelow.eq_1]
      cases sorted[rankBelow p sorted.length]? <;> cases sorted[rankBelow p sorted.length + 1]? <;> rfl

theorem places_lt (kind : PercentileKind) (hp : IsShare p) (hpos : 0 < count) :
    ∀ place ∈ kind.places p count, place < count := by
  intro place hplace
  cases kind with
  | discrete =>
    obtain rfl := List.mem_singleton.mp hplace
    exact (Nat.min_le_right _ _).trans_lt (Nat.sub_lt hpos Nat.one_pos)
  | continuous =>
    rw [places] at hplace
    split at hplace
    · obtain rfl := List.mem_singleton.mp hplace
      exact Nat.sub_lt hpos Nat.one_pos
    · rename_i hbetween
      simp only [Bool.or_eq_true, decide_eq_true_eq, not_or, Bool.not_eq_true] at hbetween
      -- The number above is read too, so the whole part has to stay short of the last place.
      have hbelow : rankBelow p count < count - 1 :=
        Double.share_lt_count hp.nonneg (hp.lt_one hbetween.2) (by omega)
      simp only [List.mem_cons, List.not_mem_nil, or_false] at hplace
      omega

theorem exists_ofNumbers (kind : PercentileKind) (hp : IsShare p) (hxs : xs ≠ []) :
    ∃ x, kind.ofNumbers p xs = some x := by
  have hpos := List.length_pos_iff.mpr hxs
  have hread (place : Nat) (h : place ∈ kind.places p xs.length) : ∃ x, (sortNumbers xs)[place]? = some x :=
    ⟨_, List.getElem?_eq_getElem ((length_sortNumbers xs).symm ▸ kind.places_lt hp hpos place h)⟩
  rw [ofNumbers_eq_blend]
  obtain ⟨place, hplaces⟩ | ⟨low, high, hplaces⟩ : (∃ place, kind.places p xs.length = [place]) ∨
      ∃ low high, kind.places p xs.length = [low, high] := by
    cases kind with
    | discrete => exact .inl ⟨_, rfl⟩
    | continuous =>
      rw [places]
      split
      · exact .inl ⟨_, rfl⟩
      · exact .inr ⟨_, _, rfl⟩
  · obtain ⟨x, hx⟩ := hread place (by simp [hplaces])
    exact ⟨x, by rw [hplaces]; exact hx⟩
  · obtain ⟨x, hx⟩ := hread low (by simp [hplaces])
    obtain ⟨y, hy⟩ := hread high (by simp [hplaces])
    rw [hplaces, List.map_cons, List.map_singleton, hx, hy]
    exact ⟨_, rfl⟩

theorem ofNumbers_nil (kind : PercentileKind) (p : Double) : kind.ofNumbers p [] = none := by
  rw [ofNumbers_eq_blend]
  cases kind with
  | discrete => rfl
  | continuous =>
    rw [places]
    split <;> rfl

theorem ofNumbers_eq_of_perm {ys : List Double} (h : xs.Perm ys) : kind.ofNumbers p xs = kind.ofNumbers p ys := by
  rw [ofNumbers_eq_blend, ofNumbers_eq_blend, sortNumbers_eq_of_perm h, h.length_eq]

theorem exists_discrete (hp : IsShare p) (hxs : xs ≠ []) : ∃ x ∈ xs, discrete.ofNumbers p xs = some x ∧
    (p.equals Double.zero = true → ∀ y ∈ xs, (x.totalCompare y).isLE = true) ∧
    (p.equals Double.one = true → IsExactCount xs.length → ∀ y ∈ xs, (y.totalCompare x).isLE = true) := by
  have hperm := sortNumbers_perm xs
  have hlength := length_sortNumbers xs
  have hsorted := List.pairwise_iff_getElem.mp (ascending_sortNumbers xs)
  have hrank : nearestRank p xs.length < (sortNumbers xs).length :=
    hlength.symm ▸ places_lt discrete hp (List.length_pos_iff.mpr hxs) _ (List.mem_singleton_self _)
  have hle {i j : Nat} (hi : i < (sortNumbers xs).length) (hj : j < (sortNumbers xs).length) (hij : i ≤ j) :
      (((sortNumbers xs)[i]).totalCompare (sortNumbers xs)[j]).isLE = true := by
    rw [Binary.totalCompare, Int.isLE_compare]
    rcases Nat.lt_or_eq_of_le hij with hlt | rfl
    · exact hsorted i j hi hj hlt
    · exact Int.le_refl _
  refine ⟨(sortNumbers xs)[nearestRank p xs.length], hperm.mem_iff.mp (List.getElem_mem _), ?_, ?_, ?_⟩
  · rw [ofNumbers_eq_blend]
    exact List.getElem?_eq_getElem hrank
  · intro hzero y hy
    obtain ⟨j, hj, rfl⟩ := List.getElem_of_mem (hperm.mem_iff.mpr hy)
    exact hle hrank hj (by rw [nearestRank_of_zero hzero]; exact Nat.zero_le j)
  · intro hone hcount y hy
    obtain ⟨j, hj, rfl⟩ := List.getElem_of_mem (hperm.mem_iff.mpr hy)
    exact hle hj hrank (by rw [nearestRank_of_one hone hcount]; omega)

end PercentileKind

def HasNumberOrNull (row : List Entry) : Prop := operandOf row = none ∨ (numberOf row).isSome = true

namespace PercentileSample

variable {kind : PercentileKind} {p : Double} {row : List Entry}

theorem isShare_of_readFraction {aggregate : String} {operand : Entry}
    (h : readFraction aggregate operand = .ok p) : IsShare p := by
  obtain ⟨read, -, hread⟩ := Outcome.bind_eq_ok.mp h
  cases read with
  | none => cases hread
  | some read =>
    dsimp only at hread
    split at hread
    · rename_i haccepted
      cases hread
      exact Bool.and_eq_true_iff.mp haccepted
    · cases hread

theorem exists_of_shareOf {flag : Bool} (h : shareOf kind (.constant (.bool flag) :: row) = some p) :
    IsShare p ∧ ∃ value rest, row = value :: rest ∧
      readOperands kind.name (.constant (.bool flag) :: row) = .ok (flag, value, row) := by
  rw [shareOf] at h
  cases hread : readOperands kind.name (.constant (.bool flag) :: row) with
  | error fault => simp [hread] at h
  | ok read =>
    obtain ⟨distinct, value, operands⟩ := read
    obtain ⟨rfl, rfl, hhead⟩ := readOperands_flagged hread
    rw [hread] at h
    obtain ⟨last, -, hlast⟩ := Option.bind_eq_some_iff.mp h
    obtain ⟨rest, rfl⟩ := List.head?_eq_some_iff.mp hhead
    have hfraction : readFraction kind.name last = .ok p := by
      cases hr : readFraction kind.name last with
      | error fault => simp [hr, Except.toOption] at hlast
      | ok q => simpa [hr, Except.toOption] using hlast
    exact ⟨isShare_of_readFraction hfraction, value, rest, rfl, rfl⟩

end PercentileSample

namespace Accumulator

variable {kind : PercentileKind} {p : Double} {s : PercentileSample} {row : List Entry} {rows : List (List Entry)}
  {next : Accumulator}

theorem percentile_step_eq_ok (hshare : PercentileSample.shareOf kind (.constant (.bool false) :: row) = some p)
    (hs : s.fraction.or (some p) = some p) :
    (percentile kind s).step (.constant (.bool false) :: row) = (.ok (), next) ↔ HasNumberOrNull row ∧
      percentile kind ⟨some p, { s.sample with numbers := s.sample.numbers ++ (numberOf row).toList }⟩ = next := by
  obtain ⟨-, value, rest, rfl, hread⟩ := PercentileSample.exists_of_shareOf hshare
  have hstep := PercentileSample.step_of_share (s := s) (p := p) hread (by rwa [hshare])
  have hvalue : HasNumberOrNull (value :: rest) ↔ value.isNull = true ∨ value.number?.isSome = true := by
    rw [HasNumberOrNull, operandOf_cons, Entry.unlessNull]
    simp [numberOf]
  change ((s.step kind _).map id (percentile kind)) = _ ↔ _
  rw [map_eq_ok, hstep, hvalue]
  simp only [PercentileSample.attempt_offer_eq_ok, Sample.offer_plain_eq_ok]
  constructor
  · rintro ⟨_, ⟨_, ⟨hnumber, rfl⟩, rfl⟩, rfl⟩
    exact ⟨hnumber, rfl⟩
  · rintro ⟨hnumber, rfl⟩
    exact ⟨_, ⟨_, ⟨hnumber, rfl⟩, rfl⟩, rfl⟩

theorem percentile_stepAll_eq_ok
    (hshare : ∀ row ∈ rows, PercentileSample.shareOf kind (.constant (.bool false) :: row) = some p)
    (hs : s.fraction.or (some p) = some p) :
    (percentile kind s).stepAll (flagged false rows) = .ok next ↔ (∀ row ∈ rows, HasNumberOrNull row) ∧
      percentile kind ⟨s.fraction.or (rows.head?.map fun _ => p),
        { s.sample with numbers := s.sample.numbers ++ rows.filterMap numberOf }⟩ = next := by
  induction rows generalizing s with
  | nil => simp [flagged, stepAll]
  | cons row rows ih =>
    obtain ⟨hrow, hrows⟩ := List.forall_mem_cons.mp hshare
    have hnumbers : (row :: rows).filterMap numberOf = (numberOf row).toList ++ rows.filterMap numberOf := by
      cases hn : numberOf row <;> simp [hn]
    rw [flagged, List.map_cons, stepAll_cons_eq_ok]
    simp only [percentile_step_eq_ok hrow hs, and_assoc, exists_and_left, exists_eq_left']
    rw [← flagged, ih hrows rfl, hnumbers, List.forall_mem_cons, and_assoc, List.head?_cons, Option.map_some, hs,
      Option.some_or, List.append_assoc]

theorem finish_percentile (kind : PercentileKind) (p : Double) (rows : List (List Entry)) (seen : List Value) :
    (percentile kind ⟨rows.head?.map fun _ => p, ⟨rows.filterMap numberOf, seen⟩⟩).finish =
      .constant (ofNumber (kind.ofNumbers p (rows.filterMap numberOf))) := by
  cases rows with
  | nil =>
    rw [List.filterMap_nil, PercentileKind.ofNumbers_nil]
    rfl
  | cons row rows => rfl

theorem start_percentile_eq_ok
    (hshare : ∀ row ∈ rows, PercentileSample.shareOf kind (.constant (.bool false) :: row) = some p) :
    (start (.percentile kind)).stepAll (flagged false rows) = .ok next ↔ (∀ row ∈ rows, HasNumberOrNull row) ∧
      percentile kind ⟨rows.head?.map fun _ => p, ⟨rows.filterMap numberOf, []⟩⟩ = next := by
  rw [start, percentile_stepAll_eq_ok hshare rfl]
  rfl

end Accumulator

/-- Plain steps that ask for one share give the same in every order: Null where no row has an operand, and
otherwise what is made of the numbers at places inside the sorted list. -/
theorem percentile_reads_inside_sorted_numbers {kind : PercentileKind} {p : Double} {rows : List (List Entry)}
    {acc : Accumulator}
    (hshare : ∀ row ∈ rows, PercentileSample.shareOf kind (.constant (.bool false) :: row) = some p)
    (hsteps : (Accumulator.start (.percentile kind)).stepAll (flagged false rows) = .ok acc) :
    let numbers := rows.filterMap numberOf
    let count := numbers.length
    (acc.finish = .null ↔ ∀ row ∈ rows, operandOf row = none) ∧
    (∀ other, rows.Perm other →
      ∃ again, (Accumulator.start (.percentile kind)).stepAll (flagged false other) = .ok again ∧
        again.finish = acc.finish) ∧
    (numbers ≠ [] → (∀ place ∈ kind.places p count, place < count) ∧
      acc.finish = .constant (Accumulator.ofNumber (PercentileKind.blend p count
        ((kind.places p count).map fun place => (sortNumbers numbers)[place]?)))) ∧
    (kind = .discrete → numbers ≠ [] → ∃ x ∈ numbers, acc.finish = .constant (.double x) ∧
      (p.equals Double.zero = true → ∀ y ∈ numbers, (x.totalCompare y).isLE = true) ∧
      (p.equals Double.one = true → IsExactCount count → ∀ y ∈ numbers, (y.totalCompare x).isLE = true)) ∧
    ∀ n ≤ 2 ^ 53, IsExactCount n := by
  intro numbers count
  obtain ⟨hrows, rfl⟩ := (Accumulator.start_percentile_eq_ok hshare).mp hsteps
  have hp (hnumbers : numbers ≠ []) : IsShare p := by
    obtain ⟨row, hrow⟩ := List.exists_mem_of_ne_nil rows fun h => hnumbers (by simp [numbers, h])
    exact (PercentileSample.exists_of_shareOf (hshare row hrow)).1
  rw [Accumulator.finish_percentile]
  refine ⟨⟨fun hnull => ?_, fun hnone => ?_⟩, fun other hperm => ?_, fun hnumbers => ?_, ?_,
    fun n => isExactCount_of_le⟩
  · have hempty : numbers = [] := by
      by_contra hnumbers
      obtain ⟨x, hx⟩ := kind.exists_ofNumbers (hp hnumbers) hnumbers
      rw [hx] at hnull
      cases hnull
    intro row hrow
    have hnone : numberOf row = none := List.filterMap_eq_nil_iff.mp hempty row hrow
    simpa [HasNumberOrNull, hnone] using hrows row hrow
  · have hempty : rows.filterMap numberOf = [] :=
      List.filterMap_eq_nil_iff.mpr fun row hrow => numberOf_of_operandOf_eq_none (hnone row hrow)
    rw [hempty, PercentileKind.ofNumbers_nil]
    rfl
  · have hnumbers : kind.ofNumbers p (rows.filterMap numberOf) = kind.ofNumbers p (other.filterMap numberOf) :=
      PercentileKind.ofNumbers_eq_of_perm (hperm.filterMap numberOf)
    refine ⟨_, (Accumulator.start_percentile_eq_ok fun row hrow => hshare row (hperm.mem_iff.mpr hrow)).mpr
      ⟨fun row hrow => hrows row (hperm.mem_iff.mpr hrow), rfl⟩, ?_⟩
    rw [Accumulator.finish_percentile, hnumbers]
  · rw [PercentileKind.ofNumbers_eq_blend]
    exact ⟨kind.places_lt (hp hnumbers) (List.length_pos_iff.mpr hnumbers), rfl⟩
  · rintro rfl hnumbers
    obtain ⟨x, hx, hresult, hleast, hgreatest⟩ := PercentileKind.exists_discrete (hp hnumbers) hnumbers
    exact ⟨x, hx, by rw [hresult]; rfl, hleast, hgreatest⟩

/-- The greatest of three numbers, Null beside them, in any order of the rows. -/
theorem discrete_percentile_of_all :
    let row (v p : Value) : List Entry := [.constant v, .constant p]
    let rows := [row (.int 5) (.int 1), row .null (.int 1), row (.double (Double.ofNat 7)) (.double Double.one),
      row (.int 2) (.int 1)]
    let fresh := Accumulator.start (.percentile .discrete)
    ∀ other, rows.Perm other → ∃ again, fresh.stepAll (flagged false other) = .ok again ∧
      again.finish = .constant (.double (Double.ofNat 7)) := by
  intro row rows fresh other hother
  have hshare : ∀ row ∈ rows,
      PercentileSample.shareOf .discrete (.constant (.bool false) :: row) = some Double.one := by
    decide +kernel
  have hnumbers : ∀ row ∈ rows, HasNumberOrNull row := by
    simp only [rows, List.forall_mem_cons]
    exact ⟨.inr rfl, .inl rfl, .inr rfl, .inr rfl, by simp⟩
  have hgreatest : PercentileKind.discrete.ofNumbers Double.one (rows.filterMap numberOf) =
      some (Double.ofNat 7) := by
    decide +kernel
  have hsteps := (Accumulator.start_percentile_eq_ok hshare).mpr ⟨hnumbers, rfl⟩
  obtain ⟨again, hagain, hsame⟩ := (percentile_reads_inside_sorted_numbers hshare hsteps).2.1 other hother
  refine ⟨again, hagain, hsame.trans ?_⟩
  rw [Accumulator.finish_percentile, hgreatest]
  rfl

end GraphQuery
