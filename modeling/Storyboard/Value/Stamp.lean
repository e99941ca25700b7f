import Storyboard.Fault

/-!
# Storyboard.Value.Stamp

Dates and moments, which a document may hold where no field asks for them.  All the
library does with one is to check that it exists in the calendar and to write it.
-/

namespace Storyboard

/-- A day, or a moment of a day to the microsecond with an optional distance from
universal time in minutes. -/
inductive Stamp
  | day (year month day : Nat)
  | moment (year month day hour minute second micros : Nat) (offset : Option Int)
  deriving DecidableEq, Repr

namespace Stamp

/-- Whether a year has a 29th of February. -/
def isLeap (year : Nat) : Bool := year % 4 == 0 && (year % 100 != 0 || year % 400 == 0)

/-- The number of days of a month. -/
def daysIn (year month : Nat) : Nat :=
  if month = 2 then (if isLeap year then 29 else 28)
  else if month = 4 ∨ month = 6 ∨ month = 9 ∨ month = 11 then 30
  else 31

/-- Whether a day exists, from the year 1 to 9999. -/
def dayExists (year month day : Nat) : Bool :=
  decide (1 ≤ year ∧ year ≤ 9999 ∧ 1 ≤ month ∧ month ≤ 12 ∧ 1 ≤ day ∧ day ≤ daysIn year month)

/-- Whether a stamp exists; its distance from universal time is less than a day. -/
def exists? : Stamp → Bool
  | .day y m d => dayExists y m d
  | .moment y m d hour minute second micros offset =>
    dayExists y m d && decide (hour < 24 ∧ minute < 60 ∧ second < 60 ∧ micros < 1000000)
      && offset.all fun o => decide (o.natAbs < 24 * 60)

/-- The moment a number of seconds after the start of 1970, in universal time.  Years are
counted from March, so that the day which only leap years have is the last of its year;
`era` are four hundred years. -/
def ofSeconds (seconds micros : Nat) : Stamp :=
  let days := seconds / 86400 + 719468
  let era := days / 146097
  let dayOfEra := days % 146097
  let yearOfEra := (dayOfEra - dayOfEra / 1460 + dayOfEra / 36524 - dayOfEra / 146096) / 365
  let dayOfYear := dayOfEra - (365 * yearOfEra + yearOfEra / 4 - yearOfEra / 100)
  let monthFromMarch := (5 * dayOfYear + 2) / 153
  let day := dayOfYear - (153 * monthFromMarch + 2) / 5 + 1
  let month := if monthFromMarch < 10 then monthFromMarch + 3 else monthFromMarch - 9
  let year := era * 400 + yearOfEra + (if month ≤ 2 then 1 else 0)
  let second := seconds % 86400
  .moment year month day (second / 3600) (second / 60 % 60) (second % 60) micros (some 0)

/-- A number with zeros in front up to a width. -/
def padded (width n : Nat) : String :=
  let ds := n.repr.toList
  String.ofList (List.replicate (width - ds.length) '0' ++ ds)

/-- Year, month and day. -/
def dayText (y m d : Nat) : String := padded 4 y ++ "-" ++ padded 2 m ++ "-" ++ padded 2 d

/-- A stamp as text with a separator between day and time, a zero fraction left out. -/
def textWith (separator : String) : Stamp → String
  | .day y m d => dayText y m d
  | .moment y m d hour minute second micros offset =>
    dayText y m d ++ separator ++ padded 2 hour ++ ":" ++ padded 2 minute ++ ":" ++ padded 2 second
      ++ (if micros = 0 then "" else "." ++ padded 6 micros)
      ++ match offset with
        | none => ""
        | some o =>
          (if o < 0 then "-" else "+")
            ++ padded 2 (o.natAbs / 60) ++ ":" ++ padded 2 (o.natAbs % 60)

/-- A stamp as text: `2024-01-02 03:04:05.000006+00:00`. -/
def text (t : Stamp) : String := t.textWith " "

/-- A stamp in the form of ISO 8601: `2024-01-02T03:04:05.000006+00:00`. -/
def isoText (t : Stamp) : String := t.textWith "T"

/-- The distance from universal time as part of a written list. -/
def offsetText (o : Int) : String :=
  if o = 0 then "datetime.timezone.utc"
  else if o < 0 then
    "datetime.timezone(datetime.timedelta(days=-1, seconds="
      ++ (24 * 3600 - o.natAbs * 60).repr ++ "))"
  else "datetime.timezone(datetime.timedelta(seconds=" ++ (o.natAbs * 60).repr ++ "))"

/-- A stamp as part of a written list or mapping: its parts as numbers, zero
microseconds, and before them zero seconds, left out. -/
def quoted : Stamp → String
  | .day y m d => "datetime.date(" ++ String.intercalate ", " [y.repr, m.repr, d.repr] ++ ")"
  | .moment y m d hour minute second micros offset =>
    let tail :=
      if micros ≠ 0 then [second.repr, micros.repr]
      else if second ≠ 0 then [second.repr] else []
    let zone := offset.elim [] fun o => ["tzinfo=" ++ offsetText o]
    "datetime.datetime("
      ++ String.intercalate ", "
          ([y.repr, m.repr, d.repr, hour.repr, minute.repr] ++ tail ++ zone)
      ++ ")"

end Stamp

end Storyboard
