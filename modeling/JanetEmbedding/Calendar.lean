/-!
# Dates and times

Dates of the Gregorian calendar from the year 1 to the year 9999, times of day to the microsecond,
and their offsets from universal time.

## Main definitions

* `Calendar.Date`, `Calendar.Time`, `Calendar.Moment`: values that exist in the calendar.
* `Calendar.Date.make`, `Calendar.Time.make`: the same from unchecked parts.
* `Calendar.Date.iso`, `Calendar.Time.iso`, `Calendar.Moment.iso`: the standard notation.
* `Calendar.Date.constructed`, …: the notation in which messages show them.
-/

namespace JanetEmbedding.Calendar

/-- Why parts make no date, time or offset. -/
inductive Fault where
  | year (n : Nat)
  | month
  | day
  | hour
  | minute
  | second
  /-- The offset from universal time is a day or more. -/
  | offset (seconds : Int)
  deriving DecidableEq, Repr

/-- Whether a year has a 29th of February. -/
def isLeap (year : Nat) : Bool := year % 4 == 0 && (year % 100 != 0 || year % 400 == 0)

/-- The number of days of a month. -/
def daysIn (year month : Nat) : Nat :=
  if month = 2 then if isLeap year then 29 else 28
  else if month = 4 ∨ month = 6 ∨ month = 9 ∨ month = 11 then 30
  else 31

/-- A date of the calendar. -/
structure Date where
  year : Nat
  month : Nat
  day : Nat
  exists_in_calendar : (1 ≤ year ∧ year ≤ 9999) ∧ (1 ≤ month ∧ month ≤ 12) ∧
    1 ≤ day ∧ day ≤ daysIn year month
  deriving DecidableEq

/-- A time of day, with its offset from universal time in seconds if it has one. -/
structure Time where
  hour : Nat
  minute : Nat
  second : Nat
  microsecond : Nat
  offset : Option Int
  deriving DecidableEq

/-- A time of a day. -/
structure Moment where
  date : Date
  time : Time
  deriving DecidableEq

/-! ### Checked construction -/

/-- The date with the given parts, which are checked from the year on. -/
def Date.make (year month day : Nat) : Except Fault Date :=
  if hy : 1 ≤ year ∧ year ≤ 9999 then
    if hm : 1 ≤ month ∧ month ≤ 12 then
      if hd : 1 ≤ day ∧ day ≤ daysIn year month then .ok ⟨year, month, day, hy, hm, hd⟩
      else .error .day
    else .error .month
  else .error (.year year)

/-- The time with the given parts, which are checked from the hour on. -/
def Time.make (hour minute second microsecond : Nat) (offset : Option Int) : Except Fault Time :=
  if 24 ≤ hour then .error .hour
  else if 60 ≤ minute then .error .minute
  else if 60 ≤ second then .error .second
  else .ok ⟨hour, minute, second, microsecond, offset⟩

/-- An offset from universal time, which has to be less than a day either way. -/
def checkOffset (seconds : Int) : Except Fault Int :=
  if -86400 < seconds ∧ seconds < 86400 then .ok seconds else .error (.offset seconds)

/-! ### Comparison -/

/-- The days from the first day of the year 1 to a date. -/
def Date.ordinal (d : Date) : Nat :=
  let y := d.year - 1
  let before := (List.range d.month).foldl (fun n m => if m = 0 then n else n + daysIn d.year m) 0
  y * 365 + y / 4 - y / 100 + y / 400 + before + d.day

/-- The microseconds from midnight to a time of day, by its own clock. -/
def Time.sinceMidnight (t : Time) : Nat :=
  ((t.hour * 60 + t.minute) * 60 + t.second) * 1000000 + t.microsecond

/-- Whether two times of day are the same. With an offset they are compared by universal time, and a
time with an offset never equals one without. -/
def Time.same (s t : Time) : Bool :=
  match s.offset, t.offset with
  | none, none => s.sinceMidnight == t.sinceMidnight
  | some a, some b =>
    (s.sinceMidnight : Int) - a * 1000000 == (t.sinceMidnight : Int) - b * 1000000
  | _, _ => false

/-- Whether two moments are the same, in the sense of `Time.same`. -/
def Moment.same (s t : Moment) : Bool :=
  let clock (m : Moment) : Int := m.date.ordinal * 86400000000 + m.time.sinceMidnight
  match s.time.offset, t.time.offset with
  | none, none => clock s == clock t
  | some a, some b => clock s - a * 1000000 == clock t - b * 1000000
  | _, _ => false

/-! ### Standard notation -/

/-- A number with leading zeros. -/
def padded (width n : Nat) : String :=
  let digits := Nat.toDigits 10 n
  String.ofList (List.replicate (width - digits.length) '0' ++ digits)

/-- An offset as a sign, hours and minutes, and seconds if it has any. -/
def offsetText (seconds : Int) : String :=
  let n := seconds.natAbs
  let sign := if seconds < 0 then "-" else "+"
  let rest := if n % 60 = 0 then "" else ":" ++ padded 2 (n % 60)
  sign ++ padded 2 (n / 3600) ++ ":" ++ padded 2 (n / 60 % 60) ++ rest

/-- A date as `2020-01-31`. -/
def Date.iso (d : Date) : String :=
  padded 4 d.year ++ "-" ++ padded 2 d.month ++ "-" ++ padded 2 d.day

/-- A time as `10:00:00`, with a fraction of a second and an offset if it has them. -/
def Time.iso (t : Time) : String :=
  let fraction := if t.microsecond = 0 then "" else "." ++ padded 6 t.microsecond
  padded 2 t.hour ++ ":" ++ padded 2 t.minute ++ ":" ++ padded 2 t.second ++ fraction ++
    (t.offset.map offsetText).getD ""

/-- A date and a time with a separator between them. -/
def Moment.iso (separator : String) (m : Moment) : String :=
  m.date.iso ++ separator ++ m.time.iso

/-! ### Constructed notation -/

/-- A duration in days and seconds. -/
def durationText (seconds : Int) : String :=
  let days := Int.fdiv seconds 86400
  let rest := Int.fmod seconds 86400
  let parts := (if days = 0 then [] else [s!"days={days}"]) ++
    (if rest = 0 then [] else [s!"seconds={rest}"])
  "datetime.timedelta(" ++ (if parts.isEmpty then "0" else ", ".intercalate parts) ++ ")"

/-- An offset from universal time. -/
def zoneText (seconds : Int) : String :=
  if seconds = 0 then "datetime.timezone.utc" else s!"datetime.timezone({durationText seconds})"

/-- The arguments for a time of day: the hour, the minute, and as many further parts as are not
zero. -/
def Time.arguments (t : Time) : List String :=
  [toString t.hour, toString t.minute] ++
    (if t.second = 0 ∧ t.microsecond = 0 then [] else [toString t.second]) ++
    (if t.microsecond = 0 then [] else [toString t.microsecond]) ++
    (match t.offset with
    | none => []
    | some o => ["tzinfo=" ++ zoneText o])

/-- A date as the expression that makes it. -/
def Date.constructed (d : Date) : String := s!"datetime.date({d.year}, {d.month}, {d.day})"

/-- A time as the expression that makes it. -/
def Time.constructed (t : Time) : String := "datetime.time(" ++ ", ".intercalate t.arguments ++ ")"

/-- A moment as the expression that makes it. -/
def Moment.constructed (m : Moment) : String :=
  s!"datetime.datetime({m.date.year}, {m.date.month}, {m.date.day}, " ++
    ", ".intercalate m.time.arguments ++ ")"

/-- The wording of a fault. -/
def Fault.message : Fault → String
  | .year n => s!"year {n} is out of range"
  | .month => "month must be in 1..12"
  | .day => "day is out of range for month"
  | .hour => "hour must be in 0..23"
  | .minute => "minute must be in 0..59"
  | .second => "second must be in 0..59"
  | .offset seconds =>
    "offset must be a timedelta strictly between -timedelta(hours=24) and timedelta(hours=24), not " ++
      durationText seconds ++ "."

end JanetEmbedding.Calendar
