import Typings.Text

/-!
# Dates and times

A date, a time of day, or both, and then perhaps the distance from universal time.

* `Date.isValid`: months have their days, also in leap years.
* `DateTime.text`: the plain spelling; fractions of a second end in no zero.

A day or a time that there is not is refused when it is read. A date, a time and both together are
told apart, and so are no distance at all, universal time itself and a distance of zero.
-/

namespace Typings.Toml

/-- A day. -/
structure Date where
  year : Nat
  month : Nat
  day : Nat
deriving DecidableEq, Repr

/-- A time of day. -/
structure Time where
  hour : Nat
  minute : Nat
  second : Nat
  nanosecond : Nat := 0
deriving DecidableEq, Repr

/-- The distance from universal time. -/
inductive Offset where
  /-- Universal time itself. -/
  | universal
  | minutes (n : Int)
deriving DecidableEq, Repr

/-- A date, a time of day or both. -/
structure DateTime where
  date : Option Date := none
  time : Option Time := none
  offset : Option Offset := none
deriving DecidableEq, Repr, Inhabited

/-- The year has a 29th of February. -/
def isLeapYear (year : Nat) : Bool := year % 4 == 0 && (year % 100 != 0 || year % 400 == 0)

/-- The number of days of a month. -/
def daysOfMonth (year month : Nat) : Nat :=
  if month == 2 then if isLeapYear year then 29 else 28
  else if [4, 6, 9, 11].contains month then 30
  else 31

/-- There is such a day. -/
def Date.isValid (d : Date) : Bool :=
  1 ≤ d.month && d.month ≤ 12 && 1 ≤ d.day && d.day ≤ daysOfMonth d.year d.month

/-- There is such a time; a minute may have a leap second. -/
def Time.isValid (t : Time) : Bool := t.hour ≤ 23 && t.minute ≤ 59 && t.second ≤ 60

/-- The decimal digits of a number, with zeros in front up to a width. -/
def padded (width n : Nat) : Text :=
  let digits := Text.ofNat n
  List.replicate (width - digits.length) '0' ++ digits

/-- The spelling of a date. -/
def Date.text (d : Date) : Text :=
  padded 4 d.year ++ "-" ++ padded 2 d.month ++ "-" ++ padded 2 d.day

/-- The spelling of a time. -/
def Time.text (t : Time) : Text :=
  padded 2 t.hour ++ ":" ++ padded 2 t.minute ++ ":" ++ padded 2 t.second ++
    if t.nanosecond == 0 then []
    else '.' :: Text.trimEndBy (· == '0') (padded 9 t.nanosecond)

/-- The spelling of an offset. -/
def Offset.text : Offset → Text
  | .universal => "Z"
  | .minutes n =>
    let sign := if n < 0 then '-' else '+'
    sign :: (padded 2 (n.natAbs / 60) ++ ":" ++ padded 2 (n.natAbs % 60))

/-- The plain spelling. -/
def DateTime.text (d : DateTime) : Text :=
  let date := (d.date.map Date.text).getD []
  let mark : Text := if d.date.isSome && d.time.isSome then "T" else []
  date ++ mark ++ (d.time.map Time.text).getD [] ++ (d.offset.map Offset.text).getD []

end Typings.Toml
