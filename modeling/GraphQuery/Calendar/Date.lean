/-! Days of the proleptic Gregorian calendar and times of day, without a zone. -/

namespace GraphQuery

def isLeapYear (year : Int) : Bool :=
  year % 4 == 0 && (year % 100 != 0 || year % 400 == 0)

def monthLength (year : Int) (month : Nat) : Nat :=
  if month = 2 then if isLeapYear year then 29 else 28
  else if month = 4 || month = 6 || month = 9 || month = 11 then 30
  else 31

def isDate (year : Int) (month day : Nat) : Bool :=
  -262143 ≤ year && year ≤ 262142 && 1 ≤ month && month ≤ 12 && 1 ≤ day &&
    day ≤ monthLength year month

structure Date where
  year : Int
  month : Nat
  day : Nat
  valid : isDate year month day = true
deriving DecidableEq

/-- From a second of nanoseconds on the time is in a leap second after `second`, mostly 59 but any may be
followed by one. -/
def isTime (hour minute second nanosecond : Nat) : Bool :=
  hour < 24 && minute < 60 && second < 60 && nanosecond < 2000000000

structure Time where
  hour : Nat
  minute : Nat
  second : Nat
  nanosecond : Nat
  valid : isTime hour minute second nanosecond = true
deriving DecidableEq

structure DateTime where
  date : Date
  time : Time
deriving DecidableEq

namespace Date

def ofFields (year : Int) (month day : Nat) : Option Date :=
  if h : isDate year month day = true then some ⟨year, month, day, h⟩ else none

def compare (a b : Date) : Ordering :=
  (Ord.compare a.year b.year).then ((Ord.compare a.month b.month).then (Ord.compare a.day b.day))

end Date

namespace Time

def ofFields (hour minute second nanosecond : Nat) : Option Time :=
  if h : isTime hour minute second nanosecond = true then
    some ⟨hour, minute, second, nanosecond, h⟩
  else none

def midnight : Time := ⟨0, 0, 0, 0, rfl⟩

def isLeapSecond (t : Time) : Bool := 1000000000 ≤ t.nanosecond

def compare (a b : Time) : Ordering :=
  (Ord.compare a.hour b.hour).then <| (Ord.compare a.minute b.minute).then <|
    (Ord.compare a.second b.second).then (Ord.compare a.nanosecond b.nanosecond)

end Time

namespace DateTime

def compare (a b : DateTime) : Ordering := (a.date.compare b.date).then (a.time.compare b.time)

end DateTime

end GraphQuery
