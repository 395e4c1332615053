import ChatArchive.Text.Digits
import ChatArchive.Time.Timestamp

/-!
# Writing instants

All forms are RFC 3339 in UTC and differ in the fraction and the separators. `Timestamp.columnText`
has nine fraction digits and, for years 0 to 9999, always the same length, so that texts of such
instants compare as the instants do. `Timestamp.shortText` has as many fraction digits as the
instant needs, in groups of three.
-/

namespace ChatArchive.Time

open ChatArchive.Text

/-- A year: four digits, or a sign and at least four digits outside 0 to 9999. -/
def yearText (y : Int) : List Char :=
  if 0 ≤ y ∧ y ≤ 9999 then fixedDigits 4 y.toNat
  else (if y < 0 then '-' else '+') :: paddedDigits 4 y.natAbs

/-- A date as year, month and day, joined by hyphens. -/
def Date.text (d : Date) : List Char :=
  yearText d.year ++ '-' :: fixedDigits 2 d.month ++ '-' :: fixedDigits 2 d.day

namespace Timestamp

/-- Hours and minutes, joined by a colon. -/
def hourMinuteText (t : Timestamp) : List Char :=
  fixedDigits 2 t.hour ++ ':' :: fixedDigits 2 t.minute

/-- Hours, minutes and seconds, joined by colons. -/
def timeText (t : Timestamp) : List Char :=
  t.hourMinuteText ++ ':' :: fixedDigits 2 t.secondOfMinute

/-- The fraction in nine digits, after a point. -/
def nanosText (t : Timestamp) : List Char := '.' :: fixedDigits 9 t.fraction

/-- The fraction in none, three, six or nine digits: the fewest of these that are exact. -/
def shortFraction (t : Timestamp) : List Char :=
  let n := t.fraction
  if n = 0 then []
  else if n % 1000000 = 0 then '.' :: fixedDigits 3 (n / 1000000)
  else if n % 1000 = 0 then '.' :: fixedDigits 6 (n / 1000)
  else '.' :: fixedDigits 9 n

/-- The form in which columns hold instants: nine fraction digits and a final `Z`. -/
def columnText (t : Timestamp) : List Char :=
  t.date.text ++ 'T' :: t.timeText ++ t.nanosText ++ ['Z']

/-- The form in which JSON holds instants: no more fraction digits than needed and a final `Z`. -/
def shortText (t : Timestamp) : List Char :=
  t.date.text ++ 'T' :: t.timeText ++ t.shortFraction ++ ['Z']

/-- The form in which log lines name instants: a blank between date and time, and `UTC` at the end.
-/
def displayText (t : Timestamp) : List Char :=
  t.date.text ++ ' ' :: t.timeText ++ t.shortFraction ++ " UTC".toList

/-- Date, hour and minute: the form in which reports show instants. -/
def minuteText (t : Timestamp) : List Char := t.date.text ++ ' ' :: t.hourMinuteText

/-- `columnText` as a string. -/
def toColumn (t : Timestamp) : String := String.ofList t.columnText

end Timestamp

end ChatArchive.Time
