import Mathlib.Data.List.Basic
import GraphQuery.Function.Registry
import GraphQuery.Proofs.PrintedNumbers

/-! Reading what was printed: integers and dates give themselves again, and times the second they show. -/

namespace GraphQuery

/-- The time at the start of its second. -/
def Time.truncated (t : Time) : Time where
  hour := t.hour
  minute := t.minute
  second := t.second
  nanosecond := t.nanosecond - t.nanosecond % 1000000000
  valid := by
    have hvalid := t.valid
    simp only [isTime, Bool.and_eq_true, decide_eq_true_iff] at hvalid ⊢
    omega

/-- The time that the text of `t` stands for. A leap second shows as one more than the second it follows, and
only after second 59 does that tell it from the next second. -/
def Time.shown (t : Time) : Time :=
  if h : t.isLeapSecond = true ∧ t.second ≠ 59 then
    { hour := t.hour
      minute := t.minute
      second := t.second + 1
      nanosecond := 0
      valid := by
        have hvalid := t.valid
        simp only [isTime, Bool.and_eq_true, decide_eq_true_iff] at hvalid ⊢
        omega }
  else t.truncated

section Fields

theorem Date.fields_le (d : Date) : -262143 ≤ d.year ∧ d.year ≤ 262142 ∧ 1 ≤ d.month ∧ d.month ≤ 12 ∧
    1 ≤ d.day ∧ d.day ≤ 31 := by
  have hvalid := d.valid
  simp only [isDate, Bool.and_eq_true, decide_eq_true_iff] at hvalid
  have hlength : monthLength d.year d.month ≤ 31 := by
    rw [monthLength]
    repeat' split
    all_goals omega
  omega

theorem Time.fields_le (t : Time) :
    t.hour ≤ 23 ∧ t.minute ≤ 59 ∧ t.second ≤ 59 ∧ t.nanosecond < 2000000000 := by
  have hvalid := t.valid
  simp only [isTime, Bool.and_eq_true, decide_eq_true_iff] at hvalid
  omega

theorem Time.shown_eq_truncated_iff (t : Time) :
    t.shown = t.truncated ↔ (t.isLeapSecond = true → t.second = 59) := by
  rw [shown]
  split
  · rename_i h
    have hne : t.second + 1 ≠ t.truncated.second := Nat.succ_ne_self t.second
    exact iff_of_false (fun heq => hne (congrArg second heq)) fun hlast => h.2 (hlast h.1)
  · rename_i h
    exact iff_of_true rfl fun hleap => not_not.mp fun hne => h ⟨hleap, hne⟩

end Fields

namespace CalendarReader

variable {rest : List Char} (hrest : NoDigitFirst rest)

include hrest

theorem year_append {y : Int} (hlow : -2 ^ 31 ≤ y) (hhigh : y < 2 ^ 31) :
    year ((yearText y).toList ++ rest) = .ok (y, rest) := by
  have hwrites := writes_padded 4 y.natAbs
  have hany : number none ((padded 4 y.natAbs).toList ++ rest) = .ok (y.natAbs, rest) :=
    hwrites.number_append hrest nofun (by omega)
  have hfits : (decide (Int32.minValue.toInt ≤ y) && decide (y ≤ Int32.maxValue.toInt)) = true := by
    rw [Int32.toInt_minValue, Int32.toInt_maxValue, Bool.and_eq_true, decide_eq_true_iff, decide_eq_true_iff]
    omega
  by_cases hneg : y < 0
  · have htext : (yearText y).toList ++ rest = '-' :: ((padded 4 y.natAbs).toList ++ rest) := by
      rw [yearText, if_pos hneg, String.toList_append]
      rfl
    have hblank : dropBlank ('-' :: ((padded 4 y.natAbs).toList ++ rest)) =
        '-' :: ((padded 4 y.natAbs).toList ++ rest) := rfl
    have hvalue : -(y.natAbs : Int) = y := by omega
    simp only [htext, year, hblank, hany, Except.map, bind, Except.bind, hvalue]
    exact if_pos hfits
  · have hvalue : (y.natAbs : Int) = y := by omega
    by_cases hbig : 9999 < y
    · have htext : (yearText y).toList ++ rest = '+' :: ((padded 4 y.natAbs).toList ++ rest) := by
        rw [yearText, if_neg hneg, if_pos hbig, String.toList_append]
        rfl
      have hblank : dropBlank ('+' :: ((padded 4 y.natAbs).toList ++ rest)) =
          '+' :: ((padded 4 y.natAbs).toList ++ rest) := rfl
      simp only [htext, year, hblank, hany, Except.map, bind, Except.bind, hvalue]
      exact if_pos hfits
    · have htext : (yearText y).toList = (padded 4 y.natAbs).toList := by
        rw [yearText, if_neg hneg, if_neg hbig, String.toList_append]
        exact List.nil_append _
      have hfour : number (some 4) ((padded 4 y.natAbs).toList ++ rest) = .ok (y.natAbs, rest) :=
        hwrites.number_append hrest (by rintro k ⟨⟩; exact length_padded_le (by decide) (by omega)) (by omega)
      have hblank := hwrites.dropBlank_append rest
      obtain ⟨c, more, hdigits, hc⟩ := hwrites.exists_cons
      obtain ⟨hminus, hplus⟩ := ne_sign_of_isDigit hc
      rw [hdigits, List.cons_append] at hblank hfour
      rw [htext, hdigits, List.cons_append]
      simp only [year, hblank, Except.map, bind, Except.bind]
      split
      · rename_i heq
        exact absurd (List.cons.inj heq).1 hminus
      · rename_i heq
        exact absurd (List.cons.inj heq).1 hplus
      · simp only [hfour, hvalue]
        exact if_pos hfits

theorem day_append (d : Date) : day (d.text.toList ++ rest) = .ok ((d.year, d.month, d.day), rest) := by
  have hfields := d.fields_le
  have htext : d.text.toList ++ rest = (yearText d.year).toList ++
      '-' :: ((padded 2 d.month).toList ++ '-' :: ((padded 2 d.day).toList ++ rest)) := by
    simp [Date.text]
  have hyear := year_append (noDigitFirst_cons (c := '-') rfl
    ((padded 2 d.month).toList ++ '-' :: ((padded 2 d.day).toList ++ rest))) (y := d.year) (by omega) (by omega)
  have hmonth := field_append 1 12 (n := d.month) (by omega) (by omega) (by omega)
    (noDigitFirst_cons (c := '-') rfl ((padded 2 d.day).toList ++ rest))
  have hday := field_append 1 31 (n := d.day) (by omega) (by omega) (by omega) hrest
  simp only [day, htext, hyear, literal, hmonth, hday, if_true, bind, Except.bind]

/-- A leap second is printed as one more than the second it follows, and read as that. -/
theorem clock_append (t : Time) : clock (t.text.toList ++ rest) =
    .ok ((t.hour, t.minute, if t.isLeapSecond then t.second + 1 else t.second), rest) := by
  have hfields := t.fields_le
  let s := if t.isLeapSecond then t.second + 1 else t.second
  have hs : s ≤ 60 := by
    simp only [s]
    split <;> omega
  have htext : t.text.toList ++ rest = (padded 2 t.hour).toList ++
      ':' :: ((padded 2 t.minute).toList ++ ':' :: ((padded 2 s).toList ++ rest)) := by
    simp [Time.text, s]
  have hhour := field_append 0 23 (n := t.hour) (by omega) (by omega) (by omega)
    (noDigitFirst_cons (c := ':') rfl ((padded 2 t.minute).toList ++ ':' :: ((padded 2 s).toList ++ rest)))
  have hminute := field_append 0 59 (n := t.minute) (by omega) (by omega) (by omega)
    (noDigitFirst_cons (c := ':') rfl ((padded 2 s).toList ++ rest))
  have hsecond := field_append 0 60 (n := s) (by omega) hs (by omega) hrest
  simp only [clock, htext, hhour, literal, hminute, hsecond, if_true, bind, Except.bind, s]

end CalendarReader

theorem Date.read_text (d : Date) : Date.read d.text = .ok d := by
  have hday := CalendarReader.day_append noDigitFirst_nil d
  rw [List.append_nil] at hday
  simp only [Date.read, hday, CalendarReader.finish, bind, Except.bind, ofDay, ofFields, d.valid, dite_true]

theorem Time.ofFields_eq_some {t : Time} {hour minute second nanosecond : Nat} (hhour : t.hour = hour)
    (hminute : t.minute = minute) (hsecond : t.second = second) (hnanosecond : t.nanosecond = nanosecond) :
    Time.ofFields hour minute second nanosecond = some t := by
  subst hhour hminute hsecond hnanosecond
  exact dif_pos t.valid

namespace DateTime

theorem ofClock_printed (d : Date) (t : Time) :
    ofClock d 0 (t.hour, t.minute, if t.isLeapSecond then t.second + 1 else t.second) = .ok ⟨d, t.shown⟩ := by
  obtain ⟨-, -, hsecond, hnanosecond⟩ := t.fields_le
  by_cases h : 1000000000 ≤ t.nanosecond
  · have hisLeap : t.isLeapSecond = true := decide_eq_true h
    by_cases hlast : t.second = 59
    · have hwhole : t.nanosecond - t.nanosecond % 1000000000 = 0 + 1000000000 := by omega
      have hshown : t.shown = t.truncated := t.shown_eq_truncated_iff.mpr fun _ => hlast
      have hfields : Time.ofFields t.hour t.minute 59 (0 + 1000000000) = some t.truncated :=
        Time.ofFields_eq_some rfl rfl hlast hwhole
      simp only [ofClock, hisLeap, if_true, hlast, hfields, hshown]
    · have hsixty : t.second + 1 ≠ 60 := by omega
      have hfields : Time.ofFields t.hour t.minute (t.second + 1) 0 = some t.shown := by
        rw [Time.shown, dif_pos ⟨hisLeap, hlast⟩]
        exact Time.ofFields_eq_some rfl rfl rfl rfl
      simp only [ofClock, hisLeap, if_true, hsixty, if_false, hfields]
  · have hisLeap : t.isLeapSecond = false := decide_eq_false h
    have hwhole : t.nanosecond - t.nanosecond % 1000000000 = 0 := by omega
    have hsixty : t.second ≠ 60 := by omega
    have hshown : t.shown = t.truncated :=
      t.shown_eq_truncated_iff.mpr fun hleap => absurd (hisLeap.symm.trans hleap) Bool.false_ne_true
    have hfields : Time.ofFields t.hour t.minute t.second 0 = some t.truncated :=
      Time.ofFields_eq_some rfl rfl rfl hwhole
    simp only [ofClock, hisLeap, Bool.false_eq_true, if_false, hsixty, hfields, hshown]

section Text

variable (t : DateTime)

theorem day_text : CalendarReader.day t.text.toList =
    .ok ((t.date.year, t.date.month, t.date.day), ' ' :: t.time.text.toList) := by
  have htext : t.text.toList = t.date.text.toList ++ ' ' :: t.time.text.toList := by simp [text]
  rw [htext]
  exact CalendarReader.day_append (noDigitFirst_cons rfl _) t.date

/-- The form with the letter does not fit. -/
theorem readWith_letter : readWith (CalendarReader.literal 'T') false t.text = .error .malformed := by
  simp only [readWith, t.day_text, bind, Except.bind]
  rfl

theorem readWith_blanks : readWith CalendarReader.blanks false t.text = .ok ⟨t.date, t.time.shown⟩ := by
  have hblank : dropBlank (' ' :: t.time.text.toList) = t.time.text.toList := by
    have hhour : t.time.text.toList = (padded 2 t.time.hour).toList ++
        (":" ++ padded 2 t.time.minute ++ ":" ++
          padded 2 (if t.time.isLeapSecond then t.time.second + 1 else t.time.second)).toList := by
      simp [Time.text]
    have hspace : dropBlank (' ' :: t.time.text.toList) = dropBlank t.time.text.toList :=
      List.dropWhile_cons_of_pos rfl
    rw [hspace, hhour, (writes_padded 2 t.time.hour).dropBlank_append]
  have hclock := CalendarReader.clock_append noDigitFirst_nil t.time
  rw [List.append_nil] at hclock
  have hdate : Date.ofDay (t.date.year, t.date.month, t.date.day) = .ok t.date := by
    simp only [Date.ofDay, Date.ofFields, t.date.valid, dite_true]
  simp only [readWith, t.day_text, CalendarReader.blanks, hblank, hclock, CalendarReader.finish, hdate,
    ofClock_printed, bind, Except.bind, Bool.false_eq_true, if_false]

theorem read_text : DateTime.read t.text = some ⟨t.date, t.time.shown⟩ := by
  simp only [DateTime.read, t.readWith_letter, t.readWith_blanks]

end Text

end DateTime

section Ends

theorem isBlank_head_yearText (y : Int) (rest : List Char) :
    ∀ c ∈ ((yearText y).toList ++ rest).head?, isBlank c = false := by
  obtain ⟨c, more, hdigits, hc⟩ := (writes_padded 4 y.natAbs).exists_cons
  have htext : (yearText y).toList ++ rest =
      (if y < 0 then "-" else if 9999 < y then "+" else "").toList ++ (c :: more ++ rest) := by
    rw [yearText, String.toList_append, hdigits, List.append_assoc]
  rw [htext]
  split
  · rintro d ⟨⟩
    rfl
  · split
    · rintro d ⟨⟩
      rfl
    · rintro d ⟨⟩
      exact isBlank_of_isDigit hc

theorem Date.trim_text (d : Date) : trim d.text = d.text := by
  have htext : d.text.toList =
      ((yearText d.year).toList ++ '-' :: ((padded 2 d.month).toList ++ ['-'])) ++ (padded 2 d.day).toList := by
    simp [Date.text]
  exact (writes_padded 2 d.day).trim_eq _ htext (isBlank_head_yearText d.year _)

theorem DateTime.trim_text (t : DateTime) : trim t.text = t.text := by
  have htext : t.text.toList = ((yearText t.date.year).toList ++
      ("-" ++ padded 2 t.date.month ++ "-" ++ padded 2 t.date.day ++ " " ++ padded 2 t.time.hour ++ ":" ++
        padded 2 t.time.minute ++ ":").toList) ++
      (padded 2 (if t.time.isLeapSecond then t.time.second + 1 else t.time.second)).toList := by
    simp [DateTime.text, Date.text, Time.text]
  exact (writes_padded 2 _).trim_eq _ htext (isBlank_head_yearText t.date.year _)

end Ends

theorem Scalar.text_of_asInt {x : Scalar} {n : Int64} (h : x.asInt = some n) : x.text = toString n.toInt := by
  cases x with
  | int8 k | int16 k | int32 k | int64 k =>
    obtain rfl := Option.some.inj h
    simp [Scalar.text]
  | _ => cases h

theorem toStringFunction_of_scalar {x : Scalar} (h : x.isNull = false) :
    toStringFunction [.constant (.scalar x)] = .ok (.string x.text) := by
  cases x with
  | null => cases h
  | _ => rfl

theorem toIntegerFunction_of_string {s : String} {n : Int64} (h : readInt64 (trim s) = .ok n) :
    toIntegerFunction [.constant (.string s)] = .ok (.int n) := by
  have harg : oneArgument "tointeger" [.constant (.string s)] = .ok (.constant (.string s)) := rfl
  have hvalue : valueArgument "tointeger" (.constant (.string s)) = .ok (.string s) := rfl
  have hnull : (Value.string s).isNull = false := rfl
  have hint : (Value.string s).asInt = none := rfl
  have hdouble : (Value.string s).asDouble = none := rfl
  have hstring : (Value.string s).asString = some s := rfl
  simp only [toIntegerFunction, harg, hvalue, hnull, hint, hdouble, hstring, h, bind, Except.bind,
    Bool.false_eq_true, if_false]
  rfl

theorem dateFunction_of_string {s : String} {d : Date} (h : Date.read (trim s) = .ok d) :
    dateFunction [.constant (.string s)] = .ok (.scalar (.date d)) := by
  simp only [dateFunction, momentArgument, valueArgument, Value.string, Except.map, bind, Except.bind, h]
  rfl

theorem dateTimeFunction_of_string {s : String} {t : DateTime} (h : DateTime.read (trim s) = some t) :
    dateTimeFunction [.constant (.string s)] = .ok (.scalar (.dateTime t)) := by
  simp only [dateTimeFunction, momentArgument, valueArgument, Value.string, Except.map, bind, Except.bind, h]
  rfl

end GraphQuery
