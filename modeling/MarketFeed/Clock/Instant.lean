import MarketFeed.Decimal.Numeral

/-!
# Instants in Universal Time

A count of nanoseconds since 1970 as a date and time of day.

The calendar is the Gregorian one continued without leap seconds. Days are
counted from the first of March of the year zero, so that the leap day is the
last day of its year and a month's place in the year follows one linear rule:
153 days make five months.

## Main definitions

* `Date.ofDays`: The date of a day counted from 1970.
* `Instant.text`: The instant as date, time and offset, with the fraction of
  the second cut after its last digit that is not zero.
-/

namespace MarketFeed

/-- A day of the Gregorian calendar. -/
structure Date where
  /-- The year. -/
  year : Nat
  /-- The month, from 1 on. -/
  month : Nat
  /-- The day of the month, from 1 on. -/
  day : Nat
  deriving DecidableEq, Repr

namespace Date

/-- The date of the day that lies `days` after the first of January 1970.

    Four hundred years are an era of 146097 days. Within an era the year is
    found by taking the leap days out of the count, the month by the rule of
    153 days in five months. -/
def ofDays (days : Nat) : Date :=
  let shifted := days + 719468
  let era := shifted / 146097
  let dayOfEra := shifted % 146097
  let yearOfEra :=
    (dayOfEra - dayOfEra / 1460 + dayOfEra / 36524 - dayOfEra / 146096) / 365
  let dayOfYear := dayOfEra - (365 * yearOfEra + yearOfEra / 4 - yearOfEra / 100)
  let monthFromMarch := (5 * dayOfYear + 2) / 153
  let month := if monthFromMarch < 10 then monthFromMarch + 3 else monthFromMarch - 9
  { year := yearOfEra + era * 400 + (if month ≤ 2 then 1 else 0)
    month := month
    day := dayOfYear - (153 * monthFromMarch + 2) / 5 + 1 }

/-- Year, month and day with hyphens between them. -/
def text (d : Date) : String :=
  Text.padZeros 4 (toString d.year) ++ "-" ++ Text.padZeros 2 (toString d.month) ++ "-" ++
    Text.padZeros 2 (toString d.day)

end Date

namespace Instant

/-- The fraction of a second, with its point, down to the last digit that is
    not zero. A whole second has none. -/
def fraction (nanos : Nat) : String :=
  if nanos = 0 then ""
  else
    let digits := (Text.padZeros 9 (toString nanos)).toList
    "." ++ String.ofList (digits.reverse.dropWhile (· == '0')).reverse

/-- Hours, minutes and seconds of a day with colons between them. -/
def clockText (secondOfDay : Nat) : String :=
  let pair (n : Nat) := Text.padZeros 2 (toString n)
  pair (secondOfDay / 3600) ++ ":" ++ pair (secondOfDay / 60 % 60) ++ ":" ++
    pair (secondOfDay % 60)

/-- Nanoseconds since 1970 as a date, a time of day and the offset of
    universal time. -/
def text (unixNanos : UInt64) : String :=
  let nanos := unixNanos.toNat
  let seconds := nanos / 1000000000
  (Date.ofDays (seconds / 86400)).text ++ "T" ++ clockText (seconds % 86400) ++
    fraction (nanos % 1000000000) ++ "Z"

end Instant

end MarketFeed
