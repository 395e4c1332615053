import ChatArchive.Text.Digits
import ChatArchive.Time.Timestamp

/-!
# Reading instants

Two readers of RFC 3339. `Timestamp.parseStrict` takes the fixed layout that columns are written in,
with any offset and any number of fraction digits. `Timestamp.parseRelaxed` also takes blanks
between the fields, fields of fewer digits, signed years and offsets without a colon. Both say why
they refuse a text, and the first cause in reading order wins: a field out of its own range is
refused where it stands, a date that does not exist only when the whole text has been read by the
relaxed reader.
-/

namespace ChatArchive.Time

open ChatArchive.Text

/-- Why a text is not an instant. -/
inductive TimeFault
  | tooShort
  | invalid
  | outOfRange
  | trailing
  | impossible
deriving DecidableEq, Repr

/-- The wording of a refusal. -/
def TimeFault.message : TimeFault → String
  | .tooShort => "premature end of input"
  | .invalid => "input contains invalid characters"
  | .outOfRange => "input is out of range"
  | .trailing => "trailing input"
  | .impossible => "no possible date and time matching input"

/-- A step that reads from the front of a text. -/
abbrev Scan := StateT (List Char) (Except TimeFault)

namespace Scan

/-- Gives up with a reason. -/
def refuse {α : Type} (fault : TimeFault) : Scan α := fun _ => .error fault

/-- Passes the fault of a failed check on, and goes on with the text as it is otherwise. -/
def require {α : Type} (fault : TimeFault) : Option α → Scan α
  | some a => pure a
  | none => refuse fault

/-- One character out of those that satisfy `p`. -/
def charOf (p : Char → Bool) : Scan Char
  | [] => .error .tooShort
  | c :: rest => if p c then .ok (c, rest) else .error .invalid

/-- Exactly `n` digits, added to the number `acc` read so far. -/
def digitsFrom : (n acc : Nat) → Scan Nat
  | 0, acc => pure acc
  | n + 1, acc => do
    let c ← charOf isDigit
    digitsFrom n (acc * 10 + digitValue c)

/-- Exactly `n` digits. -/
def exactly (n : Nat) : Scan Nat := digitsFrom n 0

/-- Between one and `most` digits, as many as there are. -/
def upTo (most : Nat) : Scan (List Char)
  | [] => .error .tooShort
  | c :: rest =>
    if isDigit c then
      let ds := ((c :: rest).take most).takeWhile isDigit
      .ok (ds, (c :: rest).drop ds.length)
    else .error .invalid

/-- One or more digits. -/
def allDigits : Scan (List Char) := fun cs => upTo cs.length cs

/-- Drops leading blanks. -/
def blanks : Scan Unit := fun cs => .ok ((), trimStart cs)

/-- The fraction of a second, if a point follows; digits past the ninth are dropped. -/
def fraction : Scan Nat := fun cs =>
  match cs with
  | '.' :: rest => (do
      let ds ← upTo 9
      modify (List.dropWhile isDigit)
      pure (ofDigits ds * Nat.pow 10 (9 - ds.length))) rest
  | _ => .ok (0, cs)

/-- Two digits of an offset. A text of fewer than two bytes is too short, whatever it holds. -/
def offsetDigits : Scan (Nat × Nat) := fun cs =>
  if byteLength cs < 2 then .error .tooShort
  else match cs with
    | a :: b :: rest =>
      if isDigit a && isDigit b then .ok ((digitValue a, digitValue b), rest) else .error .invalid
    | _ => .error .invalid

/-- The sign of an offset: plus, hyphen, or the minus sign of typography. -/
def offsetSign : Scan Int := do
  let c ← charOf fun c => c = '+' || c = '-' || c = '−'
  pure (if c = '+' then 1 else -1)

/-- An offset in seconds east of UTC: `Z`, or hours and minutes with what `separator` takes in
between. -/
def offset (separator : Scan Unit) : Scan Int := fun cs =>
  match cs with
  | 'Z' :: rest | 'z' :: rest => .ok (0, rest)
  | _ => (do
      let sign ← offsetSign
      let (h₁, h₂) ← offsetDigits
      separator
      let (m₁, m₂) ← offsetDigits
      if 6 ≤ m₁ then refuse .outOfRange
      else pure (sign * ((h₁ * 10 + h₂) * 3600 + (m₁ * 10 + m₂) * 60 : Nat))) cs

/-- A number of at most two digits within bounds, after blanks. -/
def field (low high : Nat) : Scan Nat := do
  blanks
  let ds ← upTo 2
  let n := ofDigits ds
  if low ≤ n ∧ n ≤ high then pure n else refuse .outOfRange

/-- A year after blanks: with a sign any number of digits, without one at most four. -/
def year : Scan Int := do
  blanks
  let cs ← get
  let y : Int ← match cs with
    | '-' :: rest => set rest; do let ds ← allDigits; pure (-(ofDigits ds : Int))
    | '+' :: rest => set rest; do let ds ← allDigits; pure (ofDigits ds : Int)
    | _ => do let ds ← upTo 4; pure (ofDigits ds : Int)
  if -2147483648 ≤ y ∧ y ≤ 2147483647 then pure y else refuse .outOfRange

/-- A separator character, after blanks. -/
def mark (c : Char) : Scan Unit := do
  blanks
  let _ ← charOf (· = c)

end Scan

namespace Timestamp

/-- The years that dates are kept in. -/
def yearInRange (y : Int) : Bool := -262143 ≤ y && y ≤ 262142

/-- Hours, minutes and seconds as seconds of the day. Second 60 stands for a leap second: the last
second of its minute with a nanosecond part of a second or more. -/
def clockReading (h m s nanos : Nat) : Nat × Nat :=
  if s = 60 then (h * 3600 + m * 60 + 59, nanos + 1000000000) else (h * 3600 + m * 60 + s, nanos)

/-- The fixed layout: four-digit year, two-digit fields, one separator each. -/
def scanStrict : Scan Timestamp := do
  let year ← Scan.exactly 4
  let _ ← Scan.charOf (· = '-')
  let month ← Scan.exactly 2
  let _ ← Scan.charOf (· = '-')
  let day ← Scan.exactly 2
  let date : Date := ⟨year, month, day⟩
  Scan.require .outOfRange (if date.IsValid then some () else none)
  let _ ← Scan.charOf fun c => c = 'T' || c = 't' || c = ' '
  let h ← Scan.exactly 2
  let _ ← Scan.charOf (· = ':')
  let m ← Scan.exactly 2
  let _ ← Scan.charOf (· = ':')
  let s ← Scan.exactly 2
  let nanos ← Scan.fraction
  Scan.require .outOfRange (if h < 24 ∧ m < 60 ∧ s ≤ 60 then some () else none)
  let offset ← Scan.offset (do let _ ← Scan.charOf (· = ':'))
  let rest ← get
  if !rest.isEmpty then Scan.refuse .trailing
  else if offset.natAbs ≥ 86400 then Scan.refuse .outOfRange
  else
    let (second, nanos) := clockReading h m s nanos
    Scan.require .outOfRange (ofCivil? date second nanos offset)

/-- Reads the fixed layout; a text shorter than a date and a time is refused before anything else.
-/
def parseStrict (cs : List Char) : Except TimeFault Timestamp :=
  if byteLength cs < 19 then .error .tooShort else (scanStrict cs).map (·.1)

/-- The offset at the end of a relaxed text: also the letters UTC in any case. -/
def scanRelaxedOffset : Scan Int := fun cs =>
  match cs with
  | u :: t :: c :: rest =>
    if (u = 'U' || u = 'u') && (t = 'T' || t = 't') && (c = 'C' || c = 'c') then .ok (0, rest)
    else Scan.offset (modify (List.dropWhile fun c => c = ':' || isBlank c)) cs
  | _ => Scan.offset (modify (List.dropWhile fun c => c = ':' || isBlank c)) cs

/-- The relaxed layout. -/
def scanRelaxed : Scan Timestamp := do
  let year ← Scan.year
  Scan.mark '-'
  let month ← Scan.field 1 12
  Scan.mark '-'
  let day ← Scan.field 1 31
  let _ ← Scan.charOf fun c => c = 'T' || c = 't' || c = ' '
  let h ← Scan.field 0 23
  Scan.mark ':'
  let m ← Scan.field 0 59
  Scan.mark ':'
  let s ← Scan.field 0 60
  let nanos ← Scan.fraction
  Scan.blanks
  let offset ← scanRelaxedOffset
  Scan.blanks
  let rest ← get
  if !rest.isEmpty then Scan.refuse .trailing
  else
    let date : Date := ⟨year, month, day⟩
    if !(yearInRange year) || !(decide date.IsValid) || offset.natAbs ≥ 86400 then
      Scan.refuse .outOfRange
    else
      let (second, nanos) := clockReading h m s nanos
      Scan.require .impossible (ofCivil? date second nanos offset)

/-- Reads the relaxed layout. -/
def parseRelaxed (cs : List Char) : Except TimeFault Timestamp :=
  (scanRelaxed cs).map (·.1)

end Timestamp

end ChatArchive.Time
