import GraphQuery.Calendar.Date

/-! Dates and times as text. Years outside 0 to 9999 carry a sign, fractions of a second are
not shown, and a leap second shows as one more than the second it follows, mostly as second 60. -/

namespace GraphQuery

def padded (width n : Nat) : String :=
  let digits := Nat.toDigits 10 n
  String.ofList (List.replicate (width - digits.length) '0' ++ digits)

def yearText (year : Int) : String :=
  let sign := if year < 0 then "-" else if 9999 < year then "+" else ""
  sign ++ padded 4 year.natAbs

namespace Date

def text (d : Date) : String :=
  yearText d.year ++ "-" ++ padded 2 d.month ++ "-" ++ padded 2 d.day

end Date

namespace Time

def text (t : Time) : String :=
  padded 2 t.hour ++ ":" ++ padded 2 t.minute ++ ":" ++
    padded 2 (if t.isLeapSecond then t.second + 1 else t.second)

end Time

namespace DateTime

def text (t : DateTime) : String := t.date.text ++ " " ++ t.time.text

end DateTime

end GraphQuery
