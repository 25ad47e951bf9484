import Mathlib.Data.List.Basic
import GraphQuery.Function.Registry

/-! Texts split at delimiters. The pieces and the delimiters between them give the text back. -/

namespace GraphQuery

/-- Every piece with the delimiter behind it, and the last piece. -/
def interleave (pieces : List (List Char)) (delimiters : List Char) : List Char :=
  (List.zipWith (fun piece delimiter => piece ++ delimiter) pieces
    (delimiters.map (fun c => [c]) ++ [[]])).flatten

section Pieces

variable {isDelimiter : Char → Bool} {text before behind : List Char}

theorem splitAtAny_eq_splitOnP (isDelimiter : Char → Bool) (text : List Char) :
    splitAtAny isDelimiter text = text.splitOnP isDelimiter := by
  induction text with
  | nil => rw [splitAtAny, List.splitOnP_nil]
  | cons c rest ih =>
    obtain ⟨piece, others, hpieces⟩ := List.exists_cons_of_ne_nil (List.splitOnP_ne_nil isDelimiter rest)
    rw [splitAtAny, ih, List.splitOnP_cons_eq_if_modifyHead, hpieces, List.modifyHead_cons]

theorem splitAtAny_of_no_delimiter (h : ∀ c ∈ text, isDelimiter c = false) :
    splitAtAny isDelimiter text = [text] := by
  rw [splitAtAny_eq_splitOnP, List.splitOnP_eq_singleton h]

/-- A delimiter cuts a text into two that are split on their own. -/
theorem splitAtAny_append_cons {delimiter : Char} (h : isDelimiter delimiter = true) (before behind : List Char) :
    splitAtAny isDelimiter (before ++ delimiter :: behind) =
      splitAtAny isDelimiter before ++ splitAtAny isDelimiter behind := by
  simp only [splitAtAny_eq_splitOnP, List.splitOnP_append_cons before behind h]

theorem interleave_splitAtAny (isDelimiter : Char → Bool) (text : List Char) :
    interleave (splitAtAny isDelimiter text) (text.filter isDelimiter) = text := by
  rw [interleave, splitAtAny_eq_splitOnP]
  exact List.splitOnP_spec text

theorem length_splitAtAny (isDelimiter : Char → Bool) (text : List Char) :
    (splitAtAny isDelimiter text).length = text.countP isDelimiter + 1 := by
  rw [splitAtAny_eq_splitOnP]
  induction text with
  | nil => rw [List.splitOnP_nil, List.countP_nil, List.length_singleton]
  | cons c rest ih =>
    rw [List.splitOnP_cons_eq_if_modifyHead]
    by_cases hc : isDelimiter c = true
    · rw [if_pos hc, List.length_cons, ih, List.countP_cons_of_pos hc]
    · rw [if_neg hc, List.length_modifyHead, ih, List.countP_cons_of_neg hc]

theorem not_delimiter_of_mem_splitAtAny {piece : List Char} (h : piece ∈ splitAtAny isDelimiter text) :
    ∀ c ∈ piece, isDelimiter c = false := by
  rw [splitAtAny_eq_splitOnP] at h
  induction text generalizing piece with
  | nil =>
    rw [List.splitOnP_nil, List.mem_singleton] at h
    simp [h]
  | cons c rest ih =>
    obtain ⟨first, others, hpieces⟩ := List.exists_cons_of_ne_nil (List.splitOnP_ne_nil isDelimiter rest)
    rw [List.splitOnP_cons_eq_if_modifyHead, hpieces, List.modifyHead_cons] at h
    rw [hpieces] at ih
    by_cases hc : isDelimiter c = true
    · rw [if_pos hc] at h
      rcases List.mem_cons.mp h with rfl | hold
      · simp
      · exact ih hold
    · rw [if_neg hc] at h
      rcases List.mem_cons.mp h with rfl | hold
      · intro d hd
        rcases List.mem_cons.mp hd with rfl | hd
        · exact Bool.eq_false_iff.mpr hc
        · exact ih List.mem_cons_self d hd
      · exact ih (List.mem_cons_of_mem _ hold)

section EmptyPieces

variable {c : Char} (hc : isDelimiter c = true)

include hc

theorem splitAtAny_cons (behind : List Char) :
    splitAtAny isDelimiter (c :: behind) = [] :: splitAtAny isDelimiter behind :=
  splitAtAny_append_cons hc [] behind

theorem getLast?_splitAtAny_concat (before : List Char) :
    (splitAtAny isDelimiter (before ++ [c])).getLast? = some [] := by
  rw [splitAtAny_append_cons hc before []]
  exact List.getLast?_concat

/-- The piece between two delimiters beside one another, counted by the delimiters before it. -/
theorem getElem?_splitAtAny_between {d : Char} (hd : isDelimiter d = true) (before behind : List Char) :
    (splitAtAny isDelimiter (before ++ c :: d :: behind))[before.countP isDelimiter + 1]? = some [] := by
  rw [splitAtAny_append_cons hc before (d :: behind), splitAtAny_cons hd, ← length_splitAtAny,
    List.getElem?_append_right (Nat.le_refl _), Nat.sub_self, List.getElem?_cons_zero]

end EmptyPieces

end Pieces

/-- Splitting a text at the characters of another. The pieces are one more than the delimiters, have none in
them, and give the text back with the delimiters between them; delimiters at an end or beside one another
leave empty pieces. Without delimiters the text is the only piece. -/
theorem split_is_undone_by_joining (ctx : Context) (s delimiters : String) :
    let isDelimiter (c : Char) := delimiters.toList.contains c
    ∃ pieces : List String,
      callFunction ctx "split" [.constant (.string s), .constant (.string delimiters)] = .ok (.strings pieces) ∧
      (delimiters = "" → pieces = [s]) ∧
      (delimiters ≠ "" →
        pieces.length = s.toList.countP isDelimiter + 1 ∧
        (∀ piece ∈ pieces, ∀ c ∈ piece.toList, c ∉ delimiters.toList) ∧
        interleave (pieces.map String.toList) (s.toList.filter isDelimiter) = s.toList ∧
        ∀ before c behind, s.toList = before ++ c :: behind → c ∈ delimiters.toList →
          (before = [] → pieces.head? = some "") ∧ (behind = [] → pieces.getLast? = some "") ∧
          ∀ d rest, behind = d :: rest → d ∈ delimiters.toList →
            pieces[before.countP isDelimiter + 1]? = some "") := by
  intro isDelimiter
  refine ⟨splitText s delimiters, rfl, fun hnone => ?_, fun hsome => ?_⟩
  · rw [splitText, hnone]
    rfl
  · have hpieces : splitText s delimiters = (splitAtAny isDelimiter s.toList).map String.ofList := by
      rw [splitText, if_neg]
      rwa [String.isEmpty_iff]
    have hmem {c : Char} : isDelimiter c = true ↔ c ∈ delimiters.toList := List.contains_iff_mem
    have hchars : (splitText s delimiters).map String.toList = splitAtAny isDelimiter s.toList := by
      rw [hpieces, List.map_map]
      exact (List.map_congr_left fun piece _ => String.toList_ofList).trans (List.map_id _)
    refine ⟨?_, fun piece hpiece c hc hdelimiter => ?_, ?_, fun before c behind hs hc => ?_⟩
    · rw [hpieces, List.length_map, length_splitAtAny]
    · have hold : piece.toList ∈ splitAtAny isDelimiter s.toList := hchars ▸ List.mem_map_of_mem hpiece
      have hfree := not_delimiter_of_mem_splitAtAny hold c hc
      exact Bool.false_ne_true (hfree.symm.trans (hmem.mpr hdelimiter))
    · rw [hchars, interleave_splitAtAny]
    · rw [hpieces, hs]
      refine ⟨fun hstart => ?_, fun hend => ?_, fun d rest hrest hd => ?_⟩
      · rw [hstart, List.nil_append, splitAtAny_cons (hmem.mpr hc)]
        rfl
      · rw [hend, List.getLast?_map, getLast?_splitAtAny_concat (hmem.mpr hc)]
        rfl
      · rw [hrest, List.getElem?_map, getElem?_splitAtAny_between (hmem.mpr hc) (hmem.mpr hd)]
        rfl

end GraphQuery
