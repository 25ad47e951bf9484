import Mathlib.Algebra.Group.Int.Defs
import Mathlib.Algebra.Group.Nat.Defs
import Mathlib.Data.List.TakeWhile
import GraphQuery.Calendar.Printer
import GraphQuery.Calendar.Reader
import GraphQuery.Function.Conversion

/-! Digits of numbers, with and without padding, and the numbers that readers take from them. -/

namespace GraphQuery

/-- Digits that stand for a number. Zeros before it do not count. -/
structure Writes (digits : List Char) (n : Nat) : Prop where
  ne_nil : digits ≠ []
  isDigit : ∀ c ∈ digits, c.isDigit = true
  value : Nat.ofDigitChars 10 digits 0 = n

/-- No number goes on into this text. -/
def NoDigitFirst (text : List Char) : Prop := ∀ c ∈ text.head?, c.isDigit = false

theorem noDigitFirst_nil : NoDigitFirst [] := nofun

theorem noDigitFirst_cons {c : Char} (h : c.isDigit = false) (text : List Char) : NoDigitFirst (c :: text) := by
  rintro d ⟨⟩
  exact h

theorem isBlank_of_isDigit {c : Char} (h : c.isDigit = true) : isBlank c = false := by
  have hrange : 48 ≤ c.toNat ∧ c.toNat ≤ 57 := by
    simpa [Char.isDigit, UInt32.le_iff_toNat_le] using h
  simp only [isBlank, CodeRanges.has, blankRanges, List.any_cons, List.any_nil, Bool.or_false, Bool.or_eq_false_iff,
    Bool.and_eq_false_iff, decide_eq_false_iff_not]
  omega

theorem ne_sign_of_isDigit {c : Char} (h : c.isDigit = true) : c ≠ '-' ∧ c ≠ '+' := by
  constructor
  · rintro rfl
    cases h
  · rintro rfl
    cases h

theorem digitsValueWithin_of_le {bound : Nat} {digits : List Char} (h : Nat.ofDigitChars 10 digits 0 ≤ bound) :
    digitsValueWithin bound digits = some (Nat.ofDigitChars 10 digits 0) := by
  rw [digitsValueWithin]
  generalize hstart : (0 : Nat) = start at h ⊢
  clear hstart
  induction digits generalizing start with
  | nil => rfl
  | cons c digits ih =>
    rw [Nat.ofDigitChars_cons] at h ⊢
    have hgrows : 10 * start + (c.toNat - '0'.toNat) ≤ bound := by
      rw [Nat.ofDigitChars_eq_ofDigitChars_zero] at h
      have hpos : 1 ≤ 10 ^ digits.length := Nat.one_le_pow _ _ (by decide)
      calc 10 * start + (c.toNat - '0'.toNat)
          ≤ 10 ^ digits.length * (10 * start + (c.toNat - '0'.toNat)) := Nat.le_mul_of_pos_left _ hpos
        _ ≤ bound := by omega
    rw [List.foldlM_cons]
    simp only [if_pos hgrows]
    exact ih _ h

namespace Writes

variable {digits rest : List Char} {n : Nat} (h : Writes digits n)

include h

theorem exists_cons : ∃ c more, digits = c :: more ∧ c.isDigit = true := by
  obtain ⟨c, more, rfl⟩ := List.exists_cons_of_ne_nil h.ne_nil
  exact ⟨c, more, rfl, h.isDigit c List.mem_cons_self⟩

theorem takeWhile_append (hrest : NoDigitFirst rest) : (digits ++ rest).takeWhile Char.isDigit = digits := by
  rw [List.takeWhile_append_of_pos h.isDigit]
  cases rest with
  | nil => rw [List.takeWhile_nil, List.append_nil]
  | cons c rest => rw [List.takeWhile_cons_of_neg (by simp [hrest c rfl]), List.append_nil]

theorem dropBlank_append (rest : List Char) : dropBlank (digits ++ rest) = digits ++ rest := by
  obtain ⟨c, more, rfl, hc⟩ := h.exists_cons
  rw [dropBlank, List.cons_append, List.dropWhile_cons_of_neg (by simp [isBlank_of_isDigit hc])]

theorem digitsValueWithin {bound : Nat} (hbound : n ≤ bound) : digitsValueWithin bound digits = some n := by
  rw [digitsValueWithin_of_le (h.value ▸ hbound), h.value]

theorem number_append {limit : Option Nat} (hrest : NoDigitFirst rest)
    (hlimit : ∀ k ∈ limit, digits.length ≤ k) (hn : n < 2 ^ 63) :
    CalendarReader.number limit (digits ++ rest) = .ok (n, rest) := by
  have hrun := h.takeWhile_append hrest
  have hvalue : GraphQuery.digitsValueWithin Int64.maxValue.toInt.toNat digits = some n :=
    h.digitsValueWithin (by rw [Int64.toInt_maxValue]; omega)
  have hkept : (match limit with
      | some k => digits.take k
      | none => digits) = digits := by
    cases limit with
    | none => rfl
    | some k => exact List.take_of_length_le (hlimit k rfl)
  have hdrop : (digits ++ rest).drop digits.length = rest := List.drop_left
  obtain ⟨c, more, hdigits, hc⟩ := h.exists_cons
  have htext : digits ++ rest = c :: (more ++ rest) := by rw [hdigits, List.cons_append]
  rw [htext] at hrun hdrop ⊢
  have hdigit : (!c.isDigit) = false := by rw [hc, Bool.not_true]
  simp only [CalendarReader.number, hrun, hdigit, Bool.false_eq_true, if_false]
  cases limit with
  | none => simp only [hvalue, hdrop]
  | some k => simp only [List.take_of_length_le (hlimit k rfl), hvalue, hdrop]

/-- A text that starts with no blank and ends with digits stays as it is. -/
theorem trim_eq {text : String} (init : List Char) (htext : text.toList = init ++ digits)
    (hinit : ∀ c ∈ init.head?, isBlank c = false) : trim text = text := by
  have hstart : dropBlank (init ++ digits) = init ++ digits := by
    cases init with
    | nil => simpa using h.dropBlank_append []
    | cons c more => exact List.dropWhile_cons_of_neg (by simp [hinit c rfl])
  have hreversed : Writes digits.reverse (Nat.ofDigitChars 10 digits.reverse 0) :=
    ⟨by simpa using h.ne_nil, fun c hc => h.isDigit c (List.mem_reverse.mp hc), rfl⟩
  have hend : dropBlankEnd (init ++ digits) = init ++ digits := by
    rw [dropBlankEnd, List.reverse_append, hreversed.dropBlank_append, ← List.reverse_append, List.reverse_reverse]
  rw [trim, htext, hstart, hend, ← htext, String.ofList_toList]

end Writes

theorem writes_toDigits (n : Nat) : Writes (Nat.toDigits 10 n) n where
  ne_nil := Nat.toDigits_ne_nil
  isDigit _ := Nat.isDigit_of_mem_toDigits (by decide) (by decide)
  value := Nat.ofDigitChars_toDigits (by decide) (by decide)

theorem toList_padded (width n : Nat) : (padded width n).toList =
    List.replicate (width - (Nat.toDigits 10 n).length) '0' ++ Nat.toDigits 10 n :=
  String.toList_ofList

theorem writes_padded (width n : Nat) : Writes (padded width n).toList n where
  ne_nil := by
    rw [toList_padded]
    exact List.append_ne_nil_of_right_ne_nil _ Nat.toDigits_ne_nil
  isDigit c hc := by
    rw [toList_padded, List.mem_append] at hc
    rcases hc with hzero | hdigit
    · rw [(List.mem_replicate.mp hzero).2]
      rfl
    · exact (writes_toDigits n).isDigit c hdigit
  value := by
    rw [toList_padded, Nat.ofDigitChars_append, Nat.ofDigitChars_replicate_zero, Nat.mul_zero]
    exact (writes_toDigits n).value

theorem length_padded_le {width n : Nat} (hwidth : 0 < width) (h : n < 10 ^ width) :
    (padded width n).toList.length ≤ width := by
  have hdigits : (Nat.toDigits 10 n).length ≤ width := (Nat.length_toDigits_le_iff (by decide) hwidth).mpr h
  rw [toList_padded, List.length_append, List.length_replicate]
  omega

theorem field_append (low high : Nat) {n : Nat} (hlow : low ≤ n) (hhigh : n ≤ high) (hn : n < 100) {rest : List Char}
    (hrest : NoDigitFirst rest) :
    CalendarReader.field low high ((padded 2 n).toList ++ rest) = .ok (n, rest) := by
  have hwrites := writes_padded 2 n
  have hread : CalendarReader.number (some 2) ((padded 2 n).toList ++ rest) = .ok (n, rest) :=
    hwrites.number_append hrest (by rintro k ⟨⟩; exact length_padded_le (by decide) hn) (by omega)
  have hinside : (decide (low ≤ n) && decide (n ≤ high)) = true := by simp [hlow, hhigh]
  rw [CalendarReader.field, hwrites.dropBlank_append, hread]
  exact if_pos hinside

theorem splitSign_of_writes {digits : List Char} {n : Nat} (h : Writes digits n) :
    splitSign digits = (false, digits) := by
  obtain ⟨c, more, rfl, hc⟩ := h.exists_cons
  simp [splitSign, ne_sign_of_isDigit hc]

theorem readInt64_of_splitSign {text : String} {negative : Bool} {digits : List Char} {n : Nat}
    (hsplit : splitSign text.toList = (negative, digits)) (h : Writes digits n)
    (hbound : (n : Int) ≤ if negative then -Int64.minValue.toInt else Int64.maxValue.toInt) :
    readInt64 text = .ok (Int64.ofInt (if negative then -(n : Int) else n)) := by
  have htext : text.isEmpty = false := by
    rw [Bool.eq_false_iff]
    intro hempty
    rw [String.isEmpty_iff.mp hempty] at hsplit
    exact h.ne_nil (congrArg Prod.snd hsplit).symm
  have hdigits : digits.isEmpty = false := by simpa using h.ne_nil
  have hall : digits.all Char.isDigit = true := List.all_eq_true.mpr h.isDigit
  have hrun : digits.takeWhile Char.isDigit = digits := List.takeWhile_eq_self_iff.mpr h.isDigit
  have hvalue := h.digitsValueWithin (Int.toNat_le_toNat hbound)
  simp only [readInt64, htext, hsplit, hdigits, hrun, hvalue, hall, Bool.false_eq_true, if_false, Bool.not_true]

theorem toList_toString_of_nonneg {n : Int} (h : 0 ≤ n) : (toString n).toList = Nat.toDigits 10 n.toNat := by
  have htext : toString n = n.repr := rfl
  rw [htext, Int.repr_eq_if, if_pos h, Nat.toList_repr]

theorem toList_toString_of_neg {n : Int} (h : n < 0) : (toString n).toList = '-' :: Nat.toDigits 10 (-n).toNat := by
  have htext : toString n = n.repr := rfl
  rw [htext, Int.repr_eq_if, if_neg (by omega), String.toList_append, Nat.toList_repr]
  rfl

theorem trim_toString (n : Int) : trim (toString n) = toString n := by
  by_cases h : 0 ≤ n
  · exact (writes_toDigits n.toNat).trim_eq [] (toList_toString_of_nonneg h) nofun
  · refine (writes_toDigits (-n).toNat).trim_eq ['-'] (toList_toString_of_neg (by omega)) ?_
    rintro c ⟨⟩
    rfl

/-- Reading the text of a 64-bit integer gives the integer. -/
theorem readInt64_toString {n : Int} (hlow : Int64.minValue.toInt ≤ n) (hhigh : n ≤ Int64.maxValue.toInt) :
    readInt64 (toString n) = .ok (Int64.ofInt n) := by
  by_cases h : 0 ≤ n
  · have hnat : (n.toNat : Int) = n := Int.toNat_of_nonneg h
    have hdigits := writes_toDigits n.toNat
    have hsplit : splitSign (toString n).toList = (false, Nat.toDigits 10 n.toNat) := by
      rw [toList_toString_of_nonneg h, splitSign_of_writes hdigits]
    rw [readInt64_of_splitSign hsplit hdigits (by rwa [hnat]), hnat]
    rfl
  · have hnat : -((-n).toNat : Int) = n := by omega
    have hsplit : splitSign (toString n).toList = (true, Nat.toDigits 10 (-n).toNat) := by
      rw [toList_toString_of_neg (by omega)]
      rfl
    rw [readInt64_of_splitSign hsplit (writes_toDigits _) (by rw [if_pos rfl]; omega), hnat]
    rfl

end GraphQuery
