import Mathlib.Algebra.Group.Int.Defs
import Mathlib.Algebra.Group.Nat.Defs
import GraphQuery.Function.Registry

/-! Parts of texts by position: prefixes, suffixes, and the part between two ends. Positions are
64-bit numbers and count characters, from one in the part between and as lengths elsewhere. -/

namespace GraphQuery

section Positions

variable {size : Nat} {start length : Int64}

theorem toInt_sub_of_fits {a b : Int64} (hlow : -2 ^ 63 ≤ a.toInt - b.toInt) (hhigh : a.toInt - b.toInt < 2 ^ 63) :
    (a - b).toInt = a.toInt - b.toInt := by
  rw [Int64.toInt_sub]
  exact Int.bmod_eq_of_le (by omega) (by omega)

theorem toInt_sub_one (h : 1 ≤ start.toInt) : (start - 1).toInt = start.toInt - 1 := by
  have hhigh := start.toInt_lt
  have hone : (1 : Int64).toInt = 1 := rfl
  rw [toInt_sub_of_fits (by omega) (by omega), hone]

theorem toInt_roomFrom (hfit : size < 2 ^ 63) (h : 1 ≤ start.toInt) :
    (roomFrom (Int64.ofNat size) start).toInt = size - (start.toInt - 1) := by
  have hhigh := start.toInt_lt
  have hsize := Int64.toInt_ofNat_of_lt hfit
  have hstart := toInt_sub_one h
  rw [roomFrom, toInt_sub_of_fits (by omega) (by omega), hsize, hstart]

end Positions

section Parts

variable (s : String) (n : Nat)

theorem leftText_append : leftText s n ++ String.ofList (s.toList.drop n) = s := by
  rw [leftText, ← String.ofList_append, List.take_append_drop, String.ofList_toList]

theorem length_leftText : (leftText s n).length = min n s.length := by
  rw [leftText, String.length_ofList, List.length_take, String.length_toList]

theorem append_rightText : String.ofList (s.toList.take (s.length - n)) ++ rightText s n = s := by
  rw [rightText, ← String.ofList_append, String.length_toList, List.take_append_drop, String.ofList_toList]

theorem length_rightText : (rightText s n).length = min n s.length := by
  rw [rightText, String.length_ofList, List.length_drop, String.length_toList]
  omega

end Parts

section Substring

variable {s : String} {start length : Int64} (hfit : s.length < 2 ^ 63)

include hfit

theorem substringText_eq_ok_iff {part : String} :
    substringText s start length = .ok part ↔
      (1 ≤ start.toInt ∧ start.toInt ≤ s.length ∧
        1 ≤ length.toInt ∧ length.toInt ≤ s.length - (start.toInt - 1)) ∧
      part = String.ofList ((s.toList.drop (start.toInt - 1).toNat).take length.toInt.toNat) := by
  have hone : (1 : Int64).toInt = 1 := rfl
  have hsize : (Int64.ofNat s.length).toInt = s.length := Int64.toInt_ofNat_of_lt hfit
  simp only [substringText, String.length_toList, Bool.or_eq_true, decide_eq_true_iff, Int64.lt_iff_toInt_lt,
    hone, hsize]
  by_cases hstart : 1 ≤ start.toInt
  · rw [toInt_roomFrom hfit hstart, toInt_sub_one hstart]
    split
    · simp only [reduceCtorEq, false_iff]
      omega
    · split
      · simp only [reduceCtorEq, false_iff]
        omega
      · rw [Except.ok.injEq, eq_comm, iff_and_self]
        omega
  · rw [if_pos (by omega)]
    simp only [reduceCtorEq, false_iff]
    omega

/-- The characters before a part, the part and the characters behind it. -/
theorem parts_of_substringText {part : String} (h : substringText s start length = .ok part) :
    part.length = length.toInt ∧
      leftText s (start.toInt - 1).toNat ++ part ++
        rightText s (s.length - (start.toInt - 1) - length.toInt).toNat = s := by
  obtain ⟨hinside, rfl⟩ := (substringText_eq_ok_iff hfit).mp h
  obtain ⟨before, hbefore⟩ : ∃ n : Nat, start.toInt = n + 1 := ⟨(start.toInt - 1).toNat, by omega⟩
  obtain ⟨middle, hmiddle⟩ : ∃ n : Nat, length.toInt = n := ⟨length.toInt.toNat, by omega⟩
  rw [hbefore, hmiddle] at hinside ⊢
  have hstart : ((before : Int) + 1 - 1).toNat = before := by omega
  have hbehind : s.length - ((s.length : Int) - (before + 1 - 1) - middle).toNat = before + middle := by omega
  refine ⟨?_, ?_⟩
  · rw [String.length_ofList, List.length_take, List.length_drop, String.length_toList]
    omega
  · rw [leftText, rightText, String.length_toList, hbehind, hstart, Int.toNat_natCast, ← String.ofList_append,
      ← String.ofList_append, List.append_assoc, ← List.drop_drop, List.take_append_drop, List.take_append_drop,
      String.ofList_toList]

end Substring

theorem substringFunction_eq_ok_iff {s : String} {start length : Int64} {v : Value} :
    substringFunction [.constant (.string s), .constant (.int start), .constant (.int length)] = .ok v ↔
      ∃ part, substringText s start length = .ok part ∧ v = .string part := by
  have heq : substringFunction [.constant (.string s), .constant (.int start), .constant (.int length)] =
      (substringText s start length).map Value.string := rfl
  rw [heq]
  cases substringText s start length with
  | ok part => simp [Except.map, eq_comm]
  | error fault => simp [Except.map]

theorem endOfText_of_length {n : Int64} (h : 0 ≤ n.toInt) (function : String) (pick : String → Nat → String)
    (s : String) :
    endOfText function pick [.constant (.string s), .constant (.int n)] = .ok (.string (pick s n.toInt.toNat)) := by
  have hlength : lengthArgument function (.constant (.int n)) = .ok n.toInt.toNat := by
    have hread : intArgument function (.constant (.int n)) = .ok n := rfl
    rw [lengthArgument, hread]
    exact if_neg (by omega)
  simp only [endOfText, twoArguments, bind, Except.bind, hlength]
  rfl

/-- Parts of a text, which in memory has fewer than `2 ^ 63` characters. A part exists if and only if both of
its ends lie inside the text; the differences that decide it stay in the 64-bit range. It has the length asked
for, and joined with the characters before and behind it, it gives the text. The left and the right end of
a text are its first and last characters, as many as asked for or all. -/
theorem text_parts_fit_together (ctx : Context) {s : String} (hfit : s.length < 2 ^ 63) :
    let call (function : String) (numbers : List Int64) := callFunction ctx function
      (.constant (.string s) :: numbers.map fun n => .constant (.int n))
    (∀ start length : Int64, (∃ v, call "substring" [start, length] = .ok v) ↔
      1 ≤ start.toInt ∧ start.toInt ≤ s.length ∧ 1 ≤ length.toInt ∧ length.toInt ≤ s.length - (start.toInt - 1)) ∧
    (∀ start : Int64, 1 ≤ start.toInt → start.toInt ≤ s.length → (start - 1).toInt = start.toInt - 1 ∧
      (roomFrom (Int64.ofNat s.length) start).toInt = s.length - (start.toInt - 1)) ∧
    (∀ (start length : Int64) (v : Value), call "substring" [start, length] = .ok v →
      ∃ before part behind, v = .string part ∧ part.length = length.toInt ∧
        call "left" [Int64.ofInt (start.toInt - 1)] = .ok (.string before) ∧
        call "right" [Int64.ofInt (s.length - (start.toInt - 1) - length.toInt)] = .ok (.string behind) ∧
        before ++ part ++ behind = s) ∧
    ∀ n : Int64, 0 ≤ n.toInt →
      (∃ first rest, call "left" [n] = .ok (.string first) ∧ first ++ rest = s ∧
        first.length = min n.toInt s.length) ∧
      ∃ rest last, call "right" [n] = .ok (.string last) ∧ rest ++ last = s ∧
        last.length = min n.toInt s.length := by
  intro call
  have hsubstring {start length : Int64} {v : Value} : call "substring" [start, length] = .ok v ↔
      ∃ part, substringText s start length = .ok part ∧ v = .string part := substringFunction_eq_ok_iff
  have hleft {n : Int64} (h : 0 ≤ n.toInt) : call "left" [n] = .ok (.string (leftText s n.toInt.toNat)) :=
    endOfText_of_length h "left" leftText s
  have hright {n : Int64} (h : 0 ≤ n.toInt) : call "right" [n] = .ok (.string (rightText s n.toInt.toNat)) :=
    endOfText_of_length h "right" rightText s
  have hexact {m : Int} (hlow : 0 ≤ m) (hhigh : m ≤ s.length) : (Int64.ofInt m).toInt = m :=
    Int64.toInt_ofInt_of_le (by omega) (by omega)
  refine ⟨fun start length => ?_, fun start hlow _ => ?_, fun start length v h => ?_, fun n h => ⟨?_, ?_⟩⟩
  · constructor
    · rintro ⟨v, hv⟩
      obtain ⟨part, hpart, -⟩ := hsubstring.mp hv
      exact ((substringText_eq_ok_iff hfit).mp hpart).1
    · intro hinside
      exact ⟨_, hsubstring.mpr ⟨_, (substringText_eq_ok_iff hfit).mpr ⟨hinside, rfl⟩, rfl⟩⟩
  · exact ⟨toInt_sub_one hlow, toInt_roomFrom hfit hlow⟩
  · obtain ⟨part, hpart, rfl⟩ := hsubstring.mp h
    have hinside := ((substringText_eq_ok_iff hfit).mp hpart).1
    obtain ⟨hlength, hjoined⟩ := parts_of_substringText hfit hpart
    have hbefore := hexact (m := start.toInt - 1) (by omega) (by omega)
    have hbehind := hexact (m := s.length - (start.toInt - 1) - length.toInt) (by omega) (by omega)
    refine ⟨_, part, _, rfl, hlength, hleft ?_, hright ?_, ?_⟩
    · rw [hbefore]
      omega
    · rw [hbehind]
      omega
    · rw [hbefore, hbehind]
      exact hjoined
  · refine ⟨_, _, hleft h, leftText_append s _, ?_⟩
    rw [length_leftText]
    omega
  · refine ⟨_, _, hright h, append_rightText s _, ?_⟩
    rw [length_rightText]
    omega

/-- Letters of one, two and four bytes, cut between them, and a length at the limit. -/
theorem part_between_wide_letters :
    let call (function : String) (numbers : List Int64) := callFunction (.ofGraph .empty) function
      (.constant (.string "aé😀z") :: numbers.map fun n => .constant (.int n))
    "aé😀z".length < 2 ^ 63 ∧ (∃ v, call "substring" [2, 2] = .ok v) ∧
      (¬ ∃ v, call "substring" [2, Int64.maxValue] = .ok v) ∧
      ∃ first rest, call "left" [3] = .ok (.string first) ∧ first ++ rest = "aé😀z" ∧
        (first.length : Int) = min 3 "aé😀z".length := by
  have hfit : "aé😀z".length < 2 ^ 63 := by decide
  obtain ⟨hexists, -, -, hends⟩ := text_parts_fit_together (.ofGraph .empty) hfit
  refine ⟨hfit, (hexists 2 2).mpr (by decide), fun h => ?_, (hends 3 (by decide)).1⟩
  exact absurd ((hexists 2 Int64.maxValue).mp h) (by decide)

end GraphQuery
