import Mathlib.Data.List.Nodup
import GraphQuery.Function.Registry

/-! Ranges as arithmetic progressions of exact integers. Where the loop ends for want of 64-bit room, no
further member is due. -/

namespace GraphQuery

section Terms

variable {start stop step : Int}

/-- The first members of a progression. -/
def terms (start step : Int) (count : Nat) : List Int := (List.range count).map fun k : Nat => start + k * step

/-- The number of members up to `stop`. -/
def termCount (start stop step : Int) : Nat := (Int.fdiv (stop - start) step + 1).toNat

theorem terms_succ (start step : Int) (count : Nat) :
    terms start step (count + 1) = start :: terms (start + step) step count := by
  rw [terms, terms, List.range_succ_eq_map, List.map_cons, List.map_map]
  congr 1
  · omega
  · refine List.map_congr_left fun k _ => ?_
    simp only [Function.comp_apply, Nat.succ_eq_add_one, Int.natCast_add, Int.cast_ofNat_Int, Int.add_mul]
    omega

theorem nodup_terms (hstep : step ≠ 0) (count : Nat) : (terms start step count).Nodup := by
  refine List.nodup_range.map fun i j hij => ?_
  have hmul : (i : Int) * step = j * step := Int.add_left_cancel hij
  exact Int.ofNat_inj.mp (Int.eq_of_mul_eq_mul_right hstep hmul)

theorem le_fdiv_iff {d k : Int} (hstep : step ≠ 0) :
    k ≤ d.fdiv step ↔ 0 < step ∧ k * step ≤ d ∨ step < 0 ∧ d ≤ k * step := by
  rcases Int.lt_or_gt_of_ne hstep with hneg | hpos
  · rw [← Int.neg_fdiv_neg, Int.fdiv_eq_ediv_of_nonneg _ (by omega), Int.le_ediv_iff_mul_le (by omega)]
    simp only [Int.mul_neg]
    omega
  · rw [Int.fdiv_eq_ediv_of_nonneg _ (by omega), Int.le_ediv_iff_mul_le hpos]
    omega

theorem lt_termCount_iff (hstep : step ≠ 0) {k : Nat} :
    k < termCount start stop step ↔
      0 < step ∧ start + k * step ≤ stop ∨ step < 0 ∧ stop ≤ start + k * step := by
  have hle : k < termCount start stop step ↔ (k : Int) ≤ (stop - start).fdiv step := by
    rw [termCount]
    omega
  rw [hle, le_fdiv_iff hstep]
  omega

theorem termCount_pos_iff (hstep : step ≠ 0) :
    0 < termCount start stop step ↔ 0 < step ∧ start ≤ stop ∨ step < 0 ∧ stop ≤ start := by
  simpa using lt_termCount_iff (k := 0) hstep

/-- The members from the next one on are one less. -/
theorem termCount_add (start stop : Int) (hstep : step ≠ 0) :
    termCount (start + step) stop step = termCount start stop step - 1 := by
  have hdiff : stop - (start + step) = stop - start - 1 * step := by omega
  rw [termCount, termCount, hdiff, Int.sub_mul_fdiv_right _ _ hstep]
  omega

end Terms

variable {stop step : Int64}

theorem exactInt64_eq_none {n : Int} :
    exactInt64 n = none ↔ n < Int64.minValue.toInt ∨ Int64.maxValue.toInt < n := by
  simp only [exactInt64, ite_eq_right_iff, reduceCtorEq, imp_false, Bool.and_eq_true, decide_eq_true_iff]
  omega

/-- Where the next member does not fit into 64 bits, it is past `stop`, which does. -/
theorem termCount_eq_zero_of_overflow {n : Int64} (hstep : step.toInt ≠ 0)
    (h : exactInt64 (n.toInt + step.toInt) = none) :
    termCount (n.toInt + step.toInt) stop.toInt step.toInt = 0 := by
  refine Nat.eq_zero_of_not_pos fun hpos => ?_
  have hwithin := (termCount_pos_iff hstep).mp hpos
  have houtside := exactInt64_eq_none.mp h
  rw [Int64.toInt_minValue, Int64.toInt_maxValue] at houtside
  have hn := n.le_toInt
  have hn' := n.toInt_lt
  have hstop := stop.le_toInt
  have hstop' := stop.toInt_lt
  omega

/-- The loop gives the members up to `stop`, one after the other. -/
theorem map_toInt_progression (hstep : step.toInt ≠ 0) (start stop : Int64) :
    (progression stop step start).map Int64.toInt =
      terms start.toInt step.toInt (termCount start.toInt stop.toInt step.toInt) := by
  induction start using progression.induct stop step with
  | case1 n hreaches ih =>
    have hpos : 0 < termCount n.toInt stop.toInt step.toInt :=
      (termCount_pos_iff hstep).mpr (reaches_iff.mp hreaches)
    rw [progression, dif_pos hreaches, ← Nat.sub_add_cancel hpos, terms_succ, ← termCount_add _ _ hstep,
      List.map_cons]
    congr 1
    split
    · rename_i m hm
      rw [ih m hm, toInt_of_exactInt64 hm]
    · rename_i hm
      rw [termCount_eq_zero_of_overflow hstep hm]
      rfl
  | case2 n hreaches =>
    have hzero : termCount n.toInt stop.toInt step.toInt = 0 :=
      Nat.eq_zero_of_not_pos fun hpos => hreaches (reaches_iff.mpr ((termCount_pos_iff hstep).mp hpos))
    rw [progression, dif_neg hreaches, hzero]
    rfl

theorem rangeFunction_of_ints (start stop : Int64) (hstep : step ≠ 0) :
    rangeFunction [.constant (.int start), .constant (.int stop), .constant (.int step)] =
      .ok (.list ((progression stop step start).map Value.int)) := by
  have hread : rangeFunction [.constant (.int start), .constant (.int stop), .constant (.int step)] =
      if step = 0 then .error (.invalidArgument "range" "step must not be zero")
      else .ok (.list ((progression stop step start).map Value.int)) := rfl
  rw [hread, if_neg hstep]

/-- A range has the members of the progression that do not pass `stop`, each once and in order, however
close to the ends of the 64-bit range they are. -/
theorem range_is_progression (ctx : Context) (start stop : Int64) {step : Int64} (hstep : step ≠ 0) :
    ∃ members : List Int64,
      callFunction ctx "range" [.constant (.int start), .constant (.int stop), .constant (.int step)] =
        .ok (.list (members.map Value.int)) ∧
      members.map Int64.toInt = terms start.toInt step.toInt members.length ∧
      members.length = (Int.fdiv (stop.toInt - start.toInt) step.toInt + 1).toNat ∧
      (∀ k : Nat, k < members.length ↔
        0 < step.toInt ∧ start.toInt + k * step.toInt ≤ stop.toInt ∨
          step.toInt < 0 ∧ stop.toInt ≤ start.toInt + k * step.toInt) ∧
      members.Nodup := by
  have hstep' : step.toInt ≠ 0 := fun h => hstep (Int64.toInt_inj.mp (h.trans Int64.toInt_zero.symm))
  have hmembers := map_toInt_progression hstep' start stop
  have hlength : (progression stop step start).length = termCount start.toInt stop.toInt step.toInt := by
    rw [← List.length_map Int64.toInt, hmembers, terms, List.length_map, List.length_range]
  refine ⟨progression stop step start, rangeFunction_of_ints start stop hstep, ?_, hlength, fun k => ?_, ?_⟩
  · rw [hmembers, hlength]
  · rw [hlength]
    exact lt_termCount_iff hstep'
  · exact (hmembers ▸ nodup_terms hstep' _).of_map _

/-- From the least integer by the largest step, three members fit. The next one does not. -/
theorem range_at_limits :
    ∃ members : List Int64,
      callFunction (.ofGraph .empty) "range" [.constant (.int Int64.minValue),
        .constant (.int Int64.maxValue), .constant (.int Int64.maxValue)] =
          .ok (.list (members.map Value.int)) ∧
      members.map Int64.toInt = [-9223372036854775808, -1, 9223372036854775806] := by
  obtain ⟨members, hcall, hmembers, hlength, -⟩ :=
    @range_is_progression (.ofGraph .empty) Int64.minValue Int64.maxValue Int64.maxValue (by decide)
  have hthree : members.length = 3 := hlength.trans (by decide)
  rw [hthree] at hmembers
  exact ⟨members, hcall, hmembers.trans (by decide)⟩

end GraphQuery
