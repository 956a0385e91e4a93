import DataRelay.Tools.Values

/-! Timestamps: `datetime.fromisoformat`, and the two functions of the watch that read and write one.

    An aware datetime is its instant, in microseconds from the start of year 1 in UTC. What
    `fromisoformat` accepts is the format that its documentation gives. -/

namespace DataRelay.Tools
open Lib

/-- A point in time, in microseconds since the first day of year one. -/
abbrev Instant := ℤ

/-- A second, in microseconds. -/
def second : ℤ := 10 ^ 6

/-- A day, in microseconds. -/
def day : ℤ := 86400 * second

/-! ### The calendar -/

/-- `_is_leap`. -/
def isLeap (year : ℕ) : Bool := year % 4 = 0 && (year % 100 ≠ 0 || year % 400 = 0)

/-- The lengths of the months of a year. -/
def monthLengths (year : ℕ) : List ℕ :=
  [31, if isLeap year then 29 else 28, 31, 30, 31, 30, 31, 31, 30, 31, 30, 31]

/-- `_days_before_year`. -/
def daysBeforeYear (year : ℕ) : ℕ :=
  (year - 1) * 365 + (year - 1) / 4 - (year - 1) / 100 + (year - 1) / 400

/-- `_days_before_month`. -/
def daysBeforeMonth (year month : ℕ) : ℕ := ((monthLengths year).take (month - 1)).sum

/-- The ordinal of a date, the first of January of year 1 being day 1. -/
def ymd2ord (year month dayOfMonth : ℕ) : ℕ :=
  daysBeforeYear year + daysBeforeMonth year month + dayOfMonth

/-- The last day of year 9999. -/
def maxOrdinal : ℕ := ymd2ord 9999 12 31

/-- The month and the day in it of the day `n` of a year, from 0 on. -/
def monthDay : ℕ → List ℕ → ℕ → ℕ × ℕ
  | month, [], n => (month, n + 1)
  | month, len :: lens, n => if n < len then (month, n + 1) else monthDay (month + 1) lens (n - len)

/-- Year, month and day of an ordinal. -/
def ord2ymd (ordinal : ℕ) : ℕ × ℕ × ℕ :=
  let n := ordinal - 1
  let n400 := n / 146097
  let n100 := n % 146097 / 36524
  let n4 := n % 146097 % 36524 / 1461
  let n1 := n % 146097 % 36524 % 1461 / 365
  let year := n400 * 400 + n100 * 100 + n4 * 4 + n1 + 1
  if n1 = 4 || n100 = 4 then (year - 1, 12, 31)
  else (year, monthDay 1 (monthLengths year) (n % 146097 % 36524 % 1461 % 365))

/-- The ordinal of a date that exists. -/
def dateOrdinal (year month dayOfMonth : ℕ) : Option ℕ :=
  if 1 ≤ year ∧ 1 ≤ month ∧ month ≤ 12 ∧ 1 ≤ dayOfMonth ∧
      dayOfMonth ≤ ((monthLengths year)[month - 1]?).getD 0 then
    some (ymd2ord year month dayOfMonth)
  else none

/-- The ordinal of a week date; only a long year has a week 53. -/
def weekOrdinal (year week weekday : ℕ) : Option ℕ :=
  let first := ymd2ord year 1 1
  let firstWeekday := (first + 6) % 7
  let long := first % 7 = 4 ∨ first % 7 = 3 ∧ isLeap year
  let monday := first - firstWeekday + if 3 < firstWeekday then 7 else 0
  let ordinal := monday + (week - 1) * 7 + (weekday - 1)
  if 1 ≤ year ∧ 1 ≤ week ∧ (week ≤ 52 ∨ week = 53 ∧ long) ∧ 1 ≤ weekday ∧ weekday ≤ 7 ∧
      ordinal ≤ maxOrdinal then
    some ordinal
  else none

/-! ### `fromisoformat` -/

/-- Exactly `n` digits, and what follows them. -/
def readDigits (n : ℕ) (cs : List Char) : Option (ℕ × List Char) :=
  let ds := cs.take n
  if ds.length = n ∧ ds.all isDigitAscii then some (Json.readNat ds, cs.drop n) else none

/-- A separator that is there exactly when the text uses one. -/
def readSeparator (sep : Char) (used : Bool) (cs : List Char) : Option (List Char) :=
  if !used then some cs else if cs.head? = some sep then some cs.tail else none

/-- Where the date ends and the separator stands. -/
def separatorLocation (cs : List Char) : ℕ :=
  let digitAt (i : ℕ) : Bool := (cs[i]?.map isDigitAscii).getD false
  if cs.length = 7 then 7
  else if cs[4]? = some '-' then
    if cs[5]? = some 'W' then
      if cs[8]? = some '-' then if digitAt 10 then 8 else 10 else 8
    else 10
  else if cs[4]? = some 'W' then
    let stop := 7 + ((cs.drop 7).takeWhile isDigitAscii).length
    if stop < 9 then stop else if stop % 2 = 0 then 7 else 8
  else 8

/-- `YYYY-MM-DD`, `YYYY-Www`, `YYYY-Www-D`, and the same without the dashes. -/
def isoDate (cs : List Char) : Option ℕ := do
  let (year, cs) ← readDigits 4 cs
  let dashes := cs.head? = some '-'
  let cs ← readSeparator '-' dashes cs
  if cs.head? = some 'W' then
    let (week, cs) ← readDigits 2 cs.tail
    if cs = [] then weekOrdinal year week 1
    else
      let cs ← readSeparator '-' dashes cs
      let (weekday, cs) ← readDigits 1 cs
      if cs = [] then weekOrdinal year week weekday else none
  else
    let (month, cs) ← readDigits 2 cs
    let cs ← readSeparator '-' dashes cs
    let (dayOfMonth, cs) ← readDigits 2 cs
    if cs = [] then dateOrdinal year month dayOfMonth else none

/-- The places of a second, up to the sixth, in microseconds. -/
def isoFraction (cs : List Char) : Option ℕ :=
  match cs with
  | [] => some 0
  | c :: ds =>
    if (c = '.' ∨ c = ',') ∧ ds ≠ [] ∧ ds.all isDigitAscii then
      some (Json.readNat (ds.take 6) * 10 ^ (6 - (ds.take 6).length))
    else none

/-- `HH[:MM[:SS[.ffffff]]]`, or without the colons: hours, minutes, seconds and microseconds. -/
def isoClock (cs : List Char) : Option (ℕ × ℕ × ℕ × ℕ) := do
  let (hour, cs) ← readDigits 2 cs
  let colons := cs.head? = some ':'
  if cs = [] then return (hour, 0, 0, 0)
  let cs ← readSeparator ':' colons cs
  let (minute, cs) ← readDigits 2 cs
  if cs = [] then return (hour, minute, 0, 0)
  let cs ← readSeparator ':' colons cs
  let (secs, cs) ← readDigits 2 cs
  let micros ← isoFraction cs
  return (hour, minute, secs, micros)

/-- A time of the day, in microseconds. -/
def micros (clock : ℕ × ℕ × ℕ × ℕ) : ℤ :=
  (clock.1 * 3600 + clock.2.1 * 60 + clock.2.2.1) * second + clock.2.2.2

/-- The offset from UTC, strictly less than a day either way; `none` inside for no offset. -/
def isoOffset : List Char → Option (Option ℤ)
  | [] => some none
  | ['Z'] => some (some 0)
  | c :: cs => do
    let clock ← isoClock cs
    if c ≠ 'Z' ∧ micros clock < day then
      return some (if c = '-' then -micros clock else micros clock)
    else none

/-- Where the offset of a timestamp starts. -/
def isOffsetStart (c : Char) : Bool := c == '+' || c == '-' || c == 'Z'

/-- `datetime.fromisoformat(text)`: the time on the clock, and the offset of its zone. -/
def fromisoformat (text : String) : Option (ℤ × Option ℤ) := do
  let cs := text.toList
  if cs.length < 7 then none
  let ordinal ← isoDate (cs.take (separatorLocation cs))
  let date : ℤ := (ordinal - 1) * day
  let time := cs.drop (separatorLocation cs + 1)
  if time = [] then return (date, none)
  let clock ← isoClock (time.takeWhile fun c => !isOffsetStart c)
  let offset ← isoOffset (time.dropWhile fun c => !isOffsetStart c)
  if clock.1 < 24 ∧ clock.2.1 < 60 ∧ clock.2.2.1 < 60 then return (date + micros clock, offset)
  else none

/-! ### Reading and writing -/

/-- An instant that a `datetime` can hold. -/
def checkRange (t : ℤ) : Except ToolError Instant :=
  if 0 ≤ t ∧ t < maxOrdinal * day then .ok t else .error .overflowError

/-- `WatchFactsError`, with the class that ambiguous facts are denied under. -/
def watchFactsError (reason : String) : ToolError := .watchFacts reason ambiguousFacts

/-- A final `Z` is the offset zero. -/
def zuluOffset (text : List Char) : List Char :=
  if text.getLast? = some 'Z' then text.dropLast ++ ['+', '0', '0', ':', '0', '0'] else text

/-- `_parse_time`. -/
def parseTime (value label : String) : Except ToolError Instant :=
  match fromisoformat (String.ofList (zuluOffset (strip value).toList)) with
  | none => .error (watchFactsError s!"{label} must be an ISO-8601 timestamp")
  | some (_, none) => .error (watchFactsError s!"{label} must include a timezone")
  | some (t, some offset) => checkRange (t - offset)

/-- A number with leading zeros. -/
def padded (width n : ℕ) : List Char :=
  List.replicate (width - (Json.natText n).length) '0' ++ Json.natText n

/-- `_format_time`: whole seconds. -/
def formatTime (t : Instant) : String :=
  let (year, month, dayOfMonth) := ord2ymd ((t / day).toNat + 1)
  let secs := (t % day / second).toNat
  String.ofList (padded 4 year ++ '-' :: padded 2 month ++ '-' :: padded 2 dayOfMonth ++
    'T' :: padded 2 (secs / 3600) ++ ':' :: padded 2 (secs / 60 % 60) ++
    ':' :: padded 2 (secs % 60) ++ ['Z'])

example : (parseTime "2026-03-01T10:00:00.5+01:30" "t").map formatTime =
    .ok "2026-03-01T08:30:00Z" := by decide +kernel

end DataRelay.Tools
