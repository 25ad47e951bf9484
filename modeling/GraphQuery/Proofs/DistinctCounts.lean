import GraphQuery.Proofs.DistinctStores
import GraphQuery.Proofs.KeyTexts
import GraphQuery.Proofs.Resemblance

/-! A count and a collection with DISTINCT tell operands apart by different means, one by the snapshots
and one by the texts. Where texts tell apart what snapshots do, both keep as many. -/

namespace GraphQuery

variable {operands earlier : List Entry}

def distinctSteps (operands : List Entry) : List (List Entry) := flagged true (operands.map fun x => [x])

/-- What every step with DISTINCT keeps up holds after all of them. -/
theorem Accumulator.stepAll_distinct {σ : Type} (make : σ → Accumulator) (Taken : σ → List Entry → Prop)
    (hstep : ∀ s earlier x, Taken s earlier →
      ∃ next, (make s).step [.constant (.bool true), x] = (.ok (), make next) ∧ Taken next (earlier ++ [x]))
    {s : σ} (h : Taken s earlier) (operands : List Entry) :
    ∃ next, (make s).stepAll (distinctSteps operands) = .ok (make next) ∧ Taken next (earlier ++ operands) := by
  induction operands generalizing s earlier with
  | nil => exact ⟨s, rfl, by rwa [List.append_nil]⟩
  | cons x operands ih =>
    obtain ⟨middle, hx, hmiddle⟩ := hstep s earlier x h
    obtain ⟨next, hrest, hnext⟩ := ih hmiddle
    rw [List.append_assoc] at hnext
    exact ⟨next, Accumulator.stepAll_cons_eq_ok.mpr ⟨make middle, hx, hrest⟩, hnext⟩

/-- A count with DISTINCT that has taken these operands. -/
structure Count.Counted (c : Count) (operands : List Entry) : Prop where
  flag : c.distinct.getD true = true
  keeps : Keeps .count c.count (fun x => c.seen.any fun e => e.equal x.snapshot) operands

theorem Count.Counted.step {c : Count} (h : c.Counted earlier) (x : Entry) : ∃ next,
    (Accumulator.count c).step [.constant (.bool true), x] = (.ok (), .count next) ∧
      next.Counted (earlier ++ [x]) := by
  let set : Count := { c with distinct := some (c.distinct.getD true) }
  have hstep : (Accumulator.count c).step [.constant (.bool true), x] =
      (.ok (), .count (set.offer (c.distinct.getD true) x)) := rfl
  rw [h.flag] at hstep
  refine ⟨set.offer true x, hstep, ?_, Count.keeps_offer (c := set) x h.keeps⟩
  rw [Count.distinct_offer]
  exact h.flag

def Collection.Collected (c : Collection) (operands : List Entry) : Prop :=
  Keeps .collect c.items.length (fun x => c.seen.contains x.text) operands

theorem Collection.Collected.step {c : Collection} (h : c.Collected earlier) (x : Entry) : ∃ next,
    (Accumulator.collect c).step [.constant (.bool true), x] = (.ok (), .collect next) ∧
      next.Collected (earlier ++ [x]) :=
  ⟨c.offer true x, rfl, Collection.keeps_offer x h⟩

theorem Entry.text_beq_eq_same {a b : Entry} (ha : a.isPlain = true) (hb : b.isPlain = true) :
    (a.text == b.text) = a.same b := by
  obtain ⟨k, hk⟩ := exists_plainKey ha
  obtain ⟨l, hl⟩ := exists_plainKey hb
  have htext : a.text = b.text ↔ k = l := by
    rw [← text_snapshot a, ← text_snapshot b, text_of_plainKey hk, text_of_plainKey hl]
    exact ⟨fun h => PlainKey.text_injective h, congrArg _⟩
  rw [Bool.eq_iff_iff, beq_iff_eq, htext, same, equal_iff_of_plainKey hk hl]

/-- A count and a collection with DISTINCT keep as many operands as snapshots tell apart, provided that
these are Null, booleans, integers and elements. -/
theorem distinct_count_is_collected_length (h : ∀ x ∈ operands, x.isPlain = true) :
    ∃ counted collected items,
      (Accumulator.start .count).stepAll (distinctSteps operands) = .ok counted ∧
      (Accumulator.start .collect).stepAll (distinctSteps operands) = .ok collected ∧
      collected.finish = .constant (.list items) ∧
      counted.finish = .constant (.int (Int64.ofNat items.length)) ∧
      items.length = (classesBy Entry.same (notNull operands)).length := by
  have hcounts : Count.empty.Counted [] := ⟨rfl, .nil .count⟩
  have hcollects : Collection.empty.Collected [] := .nil .collect
  obtain ⟨counted, hcount, hcounted⟩ :=
    Accumulator.stepAll_distinct .count Count.Counted (fun _ _ x h => h.step x) hcounts operands
  obtain ⟨collected, hcollect, hcollected⟩ :=
    Accumulator.stepAll_distinct .collect Collection.Collected (fun _ _ x h => h.step x) hcollects operands
  have hclasses : classesBy AggregateFunction.collect.alike (notNull operands) =
      classesBy Entry.same (notNull operands) :=
    classesBy_congr fun a ha b hb =>
      Entry.text_beq_eq_same (h a (List.mem_of_mem_filter ha)) (h b (List.mem_of_mem_filter hb))
  have hitems : collected.items.length = (classesBy Entry.same (notNull operands)).length := by
    rw [← hclasses]
    exact hcollected.size_eq
  have hsame : counted.count = collected.items.length := hcounted.keeps.size_eq.trans hitems.symm
  exact ⟨_, _, collected.items, hcount, hcollect, rfl, by rw [← hsame]; rfl, hitems⟩

/-- One number in two widths and one node, live and in a snapshot, count once each. -/
theorem distinct_count_of_widths_and_snapshots :
    let operands : List Entry :=
      [.constant (.scalar (.int8 1)), .node 7, .null, .constant (.int 1), .nodeSnapshot 7, .constant (.bool true)]
    ∃ counted collected items,
      (Accumulator.start .count).stepAll (distinctSteps operands) = .ok counted ∧
      (Accumulator.start .collect).stepAll (distinctSteps operands) = .ok collected ∧
      collected.finish = .constant (.list items) ∧ items.length = 3 ∧ counted.finish = .constant (.int 3) := by
  intro operands
  have hplain : ∀ x ∈ operands, x.isPlain = true := by decide
  obtain ⟨counted, collected, items, hcount, hcollect, hitems, hfinish, hlength⟩ :=
    distinct_count_is_collected_length hplain
  have hthree : (classesBy Entry.same (notNull operands)).length = 3 := by decide +kernel
  rw [hthree] at hlength
  rw [hlength] at hfinish
  exact ⟨counted, collected, items, hcount, hcollect, hitems, hlength, hfinish⟩

end GraphQuery
