/-!
Contract: dates of the Gregorian calendar for times in seconds since the start of 1970.

The calendar runs on without a break in both directions and has a year zero.  Its cycle of 400
years is counted from the first of March of year zero, so that a leap day ends its year.

Owns:
- `Date.ofSeconds?`, within the years that dates are written for, and `Date.text`;
- `ageText`, how long ago something was, in words.

Does not own: the clock, and time zones.
-/

namespace NostrCapsule

structure Date where
  year : Int
  month : Nat
  day : Nat
deriving DecidableEq, Repr

namespace Date

def daySeconds : Int := 86400

def cycleDays : Int := 146097

/-- Days from the first of March of year zero to the first of January 1970. -/
def epochDays : Int := 719468

def firstSecond : Int := -8334601228800

def lastSecond : Int := 8210266876799

/-- The date with a number of days since the first of January 1970. -/
def ofDays (days : Int) : Date :=
  let shifted := days + epochDays
  let cycle := shifted.fdiv cycleDays
  let dayOfCycle := (shifted.fmod cycleDays).toNat
  let yearOfCycle :=
    (dayOfCycle - dayOfCycle / 1460 + dayOfCycle / 36524 - dayOfCycle / 146096) / 365
  let dayOfYear := dayOfCycle - (365 * yearOfCycle + yearOfCycle / 4 - yearOfCycle / 100)
  let monthFromMarch := (5 * dayOfYear + 2) / 153
  let day := dayOfYear - (153 * monthFromMarch + 2) / 5 + 1
  let month := if monthFromMarch < 10 then monthFromMarch + 3 else monthFromMarch - 9
  let year := cycle * 400 + yearOfCycle + (if month ≤ 2 then 1 else 0)
  { year, month, day }

/-- The date of a time, if it lies in the years that dates are written for. -/
def ofSeconds? (seconds : Int) : Option Date :=
  if firstSecond ≤ seconds ∧ seconds ≤ lastSecond then some (ofDays (seconds.fdiv daySeconds))
  else none

def padded (width value : Nat) : String :=
  let digits := toString value
  String.ofList (List.replicate (width - digits.length) '0') ++ digits

/-- A year with at least four digits; one after 9999 or before zero has its sign in front. -/
def yearText (year : Int) : String :=
  let digits := padded 4 year.natAbs
  if year < 0 then "-" ++ digits else if 9999 < year then "+" ++ digits else digits

def text (date : Date) : String :=
  yearText date.year ++ "-" ++ padded 2 date.month ++ "-" ++ padded 2 date.day

end Date

/-! ## Ages -/

def minuteSeconds : Int := 60

def hourSeconds : Int := 60 * minuteSeconds

/-- The date of a time, or the bare number of seconds where there is none. -/
def dateText (seconds : Int) : String :=
  match Date.ofSeconds? seconds with
  | some date => date.text
  | none => toString seconds

/-- The age of something made at one time and looked at at another: in whole minutes, hours or
days up to a week, and by its date after that.  What is less than a minute old, or lies ahead, is
new. -/
def ageText (createdAt now : Int) : String :=
  let age := now - createdAt
  if age < minuteSeconds then "just now"
  else if age < hourSeconds then toString (age / minuteSeconds) ++ "m ago"
  else if age < Date.daySeconds then toString (age / hourSeconds) ++ "h ago"
  else if age < 7 * Date.daySeconds then toString (age / Date.daySeconds) ++ "d ago"
  else dateText createdAt

end NostrCapsule
