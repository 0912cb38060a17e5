namespace TreeSelect.Log

/-- A moment, with its distance in seconds from the beginning of 1970. -/
structure Moment where
  seconds : Int
  year : Int
  month : Nat
  day : Nat
  hour : Nat
  minute : Nat
  second : Nat
  weekday : Nat
  yearday : Nat
  deriving DecidableEq

def isLeap (year : Int) : Bool :=
  (year % 4 == 0 && year % 100 != 0) || year % 400 == 0

/-- How many days of a year lie before each month of it. -/
def daysBefore (year : Int) (month : Nat) : Nat :=
  ([0, 31, 59, 90, 120, 151, 181, 212, 243, 273, 304, 334][month - 1]?.getD 0) +
    if isLeap year && 2 < month then 1 else 0

/-- The moment at a distance from the beginning of 1970. Years are counted from March on, in eras
of 400, so that the leap day comes last. -/
def momentOf (seconds : Int) : Moment :=
  let days := seconds / 86400
  let rest := (seconds % 86400).toNat
  let shifted := days + 719468
  let era := shifted / 146097
  let dayOfEra := (shifted % 146097).toNat
  let yearOfEra := (dayOfEra - dayOfEra / 1460 + dayOfEra / 36524 - dayOfEra / 146096) / 365
  let dayOfYear := dayOfEra - (365 * yearOfEra + yearOfEra / 4 - yearOfEra / 100)
  let shiftedMonth := (5 * dayOfYear + 2) / 153
  let day := dayOfYear - (153 * shiftedMonth + 2) / 5 + 1
  let month := if shiftedMonth < 10 then shiftedMonth + 3 else shiftedMonth - 9
  let year := era * 400 + yearOfEra + if month ≤ 2 then 1 else 0
  ⟨seconds, year, month, day, rest / 3600, rest / 60 % 60, rest % 60, ((days + 4) % 7).toNat,
    daysBefore year month + day⟩

/-- The week of a day, where weeks begin on a Sunday and days before the first one are in week 0. -/
def Moment.sundayWeek (m : Moment) : Nat :=
  (m.yearday + 6 - m.weekday) / 7

/-- The same with weeks that begin on a Monday. -/
def Moment.mondayWeek (m : Moment) : Nat :=
  (m.yearday + 6 - (m.weekday + 6) % 7) / 7

/-- The year to which the week of a day belongs, and the number of the week in it: those of its
Thursday. -/
def Moment.week (m : Moment) : Int × Nat :=
  let sinceMonday := (m.weekday + 6) % 7
  let thursday := momentOf (m.seconds + (3 - (sinceMonday : Int)) * 86400)
  (thursday.year, (thursday.yearday - 1) / 7 + 1)

/-- The hour on a clock of twelve hours. -/
def Moment.clockHour (m : Moment) : Nat :=
  (m.hour + 11) % 12 + 1

def weekdayNames : List String :=
  ["Sunday", "Monday", "Tuesday", "Wednesday", "Thursday", "Friday", "Saturday"]

def monthNames : List String :=
  ["January", "February", "March", "April", "May", "June", "July", "August", "September",
    "October", "November", "December"]

def Moment.weekdayName (m : Moment) : List Char :=
  ((weekdayNames[m.weekday]?).getD "").toList

def Moment.monthName (m : Moment) : List Char :=
  ((monthNames[m.month - 1]?).getD "").toList

end TreeSelect.Log
