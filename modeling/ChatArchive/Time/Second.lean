import ChatArchive.Text.Digits
import ChatArchive.Time.Civil

/-!
# The second that a time text counts in

Figures over time texts count in whole seconds since 1970. The text is a date, or a date and a time
of day with an optional offset from UTC; parts have fixed numbers of digits, and a minus sign may
stand before the year. The time is rounded to the nearest millisecond, a half going up, before the
second is taken, so a text half a millisecond before a second counts in that second. Time is kept as
a Julian day: what comes before the first of them, or after the year 9999 once it is rounded, has no
second, and neither has a text of any other form. The leap days of negative years are found by
quotients that are cut towards zero, so that some of these years count a day late.
-/

namespace ChatArchive.Time

open Text

/-- Blanks of a time text: the six blank ASCII characters. -/
def isTimeBlank (c : Char) : Bool := c = ' ' || (9 ≤ c.toNat && c.toNat ≤ 13)

/-- A number of exactly `width` digits between two bounds, and the text after it. -/
def boundedDigits? (width low high : Nat) (cs : List Char) : Option (Nat × List Char) :=
  let (ds, rest) := cs.splitAt width
  let n := ofDigits ds
  if ds.length = width && ds.all isDigit && low ≤ n && n ≤ high then some (n, rest) else none

/-- The text after a character that must be there. -/
def after? (c : Char) : List Char → Option (List Char)
  | [] => none
  | d :: rest => if d = c then some rest else none

/-- Minutes east of UTC, up to the end of the text. -/
def offsetMinutes? (cs : List Char) : Option Int :=
  match cs.dropWhile isTimeBlank with
  | [] => some 0
  | c :: rest =>
    if c = 'Z' || c = 'z' then
      if rest.all isTimeBlank then some 0 else none
    else if c = '+' || c = '-' then do
      let (h, rest) ← boundedDigits? 2 0 14 rest
      let rest ← after? ':' rest
      let (m, rest) ← boundedDigits? 2 0 59 rest
      if rest.all isTimeBlank then
        let minutes : Int := h * 60 + m
        some (if c = '-' then -minutes else minutes)
      else none
    else none

/-- Milliseconds of a second and a fraction given by its digits, rounded to the nearest. -/
def roundedMillis (second : Nat) (fraction : List Char) : Nat :=
  let unit := Nat.pow 10 fraction.length
  ((second * unit + ofDigits fraction) * 2000 + unit) / (2 * unit)

/-- Seconds and their fraction after a colon, in milliseconds; without a colon there are none. -/
def secondMillis? : List Char → Option (Nat × List Char)
  | ':' :: cs => do
    let (s, rest) ← boundedDigits? 2 0 59 cs
    match rest with
    | '.' :: c :: more =>
      if isDigit c then
        some (roundedMillis s ((c :: more).takeWhile isDigit), (c :: more).dropWhile isDigit)
      else some (s * 1000, rest)
    | _ => some (s * 1000, rest)
  | cs => some (0, cs)

/-- Milliseconds since midnight UTC of a time of day, up to the end of the text. -/
def timeMillis? (cs : List Char) : Option Int := do
  let (h, rest) ← boundedDigits? 2 0 24 cs
  let rest ← after? ':' rest
  let (m, rest) ← boundedDigits? 2 0 59 rest
  let (ms, rest) ← secondMillis? rest
  let offset ← offsetMinutes? rest
  some (h * 3600000 + m * 60000 + ms - offset * 60000)

/-- A year of four digits, negative behind a minus sign. -/
def signedYear? : List Char → Option (Int × List Char)
  | '-' :: cs => do
    let (y, rest) ← boundedDigits? 4 0 9999 cs
    some (-y, rest)
  | cs => do
    let (y, rest) ← boundedDigits? 4 0 9999 cs
    some (y, rest)

/-- Whether the dates of a month count a day late. Years begin in March here, and their hundreds are
cut off towards zero, so the leap day that a negative century lacks is left out a year too late. -/
def isLate (y : Int) (month : Nat) : Bool :=
  let y := if month ≤ 2 then y - 1 else y
  y < 0 && y % 100 = 0 && y % 400 != 0

/-- Days since 1970-01-01 to a date, as the date counts. -/
def countedDays (d : Date) : Int := d.toDays + if isLate d.year d.month then 1 else 0

/-- The first millisecond of the Julian days: noon of -4713-11-24. -/
def firstMilli : Int := -210866760000000

/-- The last millisecond of the year 9999. -/
def lastMilli : Int := 253402300799999

/-- The second of a number of milliseconds since 1970, between the first Julian day and the end of
the year 9999. -/
def secondOfMillis? (ms : Int) : Option Int :=
  if firstMilli ≤ ms ∧ ms ≤ lastMilli then some (ms / 1000) else none

/-- The second since 1970 that a time text counts in. -/
def secondOfText? (cs : List Char) : Option Int := do
  let (y, rest) ← signedYear? cs
  let rest ← after? '-' rest
  let (m, rest) ← boundedDigits? 2 1 12 rest
  let rest ← after? '-' rest
  let (d, rest) ← boundedDigits? 2 1 31 rest
  let days := countedDays ⟨y, m, d⟩
  match rest.dropWhile fun c => isTimeBlank c || c = 'T' with
  | [] => secondOfMillis? (days * 86400000)
  | time => do
    let ms ← timeMillis? time
    secondOfMillis? (days * 86400000 + ms)

end ChatArchive.Time
