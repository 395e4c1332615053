import ChatArchive.Number.Decimal
import ChatArchive.Text.Digits
import ChatArchive.Time.Civil
import ChatArchive.Toml.Value

/-!
# Scalars of TOML

Numbers, dates, times and strings, each read from the front of a text. Integers fit 64 bits; digits
may be separated by single underscores.
-/

namespace ChatArchive.Toml

open Number Text Time

/-- A step that reads from the front of a text, or does not apply. -/
abbrev Scan := StateT (List Char) Option

namespace Scan

/-- The next character, which stays. -/
def peek : Scan (Option Char) := fun cs => some (cs.head?, cs)

/-- The text that is left, which stays. -/
def remaining : Scan (List Char) := fun cs => some (cs, cs)

/-- The next character. -/
def next : Scan Char
  | [] => none
  | c :: rest => some (c, rest)

/-- The next character, if it satisfies `p`. -/
def charOf (p : Char → Bool) : Scan Char
  | [] => none
  | c :: rest => if p c then some (c, rest) else none

/-- This character. -/
def mark (c : Char) : Scan Unit := do
  let _ ← charOf (· = c)

/-- These characters. -/
def word : List Char → Scan Unit
  | [] => pure ()
  | c :: rest => do
    mark c
    word rest

/-- As many characters as satisfy `p`. -/
def run (p : Char → Bool) : Scan (List Char) := fun cs => some (cs.takeWhile p, cs.dropWhile p)

/-- A step, or nothing where it does not apply. -/
def optionally {α : Type} (step : Scan α) : Scan (Option α) := fun cs =>
  match step cs with
  | some (a, rest) => some (some a, rest)
  | none => some (none, cs)

/-! ## Numbers -/

/-- Characters that satisfy `p`, single underscores between them left out, and the text after them.
-/
def spanUnderscored (p : Char → Bool) : List Char → List Char × List Char
  | '_' :: c :: rest =>
    if p c then
      let (ds, after) := spanUnderscored p rest
      (c :: ds, after)
    else ([], '_' :: c :: rest)
  | c :: rest =>
    if p c then
      let (ds, after) := spanUnderscored p rest
      (c :: ds, after)
    else ([], c :: rest)
  | [] => ([], [])

/-- At least one character that satisfies `p`; single underscores may stand between two. -/
def underscored (p : Char → Bool) : Scan (List Char) := do
  let first ← charOf p
  fun cs =>
    let (ds, rest) := spanUnderscored p cs
    some (first :: ds, rest)

/-- Digits without a leading zero. -/
def plainDigits : Scan (List Char) := do
  match ← peek with
  | some '0' => do
    mark '0'
    pure ['0']
  | _ => underscored isDigit

/-- An optional sign, and whether it is a minus. -/
def sign : Scan Bool := do
  match ← optionally (charOf fun c => c = '+' || c = '-') with
  | some c => pure (c = '-')
  | none => pure false

/-- An integer that fits 64 bits. -/
def fitting (i : Int) : Scan Toml :=
  if -9223372036854775808 ≤ i ∧ i ≤ 9223372036854775807 then pure (.integer i) else failure

/-- A decimal integer. -/
def decimalInteger : Scan Toml := do
  let negative ← sign
  let ds ← plainDigits
  let n : Int := ofDigits ds
  fitting (if negative then -n else n)

/-- An integer after `0` and the letter of its base. -/
def basedInteger (letter : Char) (base : Nat) : Scan Toml := do
  word ['0', letter]
  let ds ← underscored fun c => (hexValue? c).any (· < base)
  fitting (ds.foldl (fun n c => n * base + (hexValue? c).getD 0) 0 : Nat)

/-- An exponent. -/
def exponent : Scan Int := do
  let _ ← charOf fun c => c = 'e' || c = 'E'
  let negative ← sign
  let ds ← underscored isDigit
  let n : Int := ofDigits ds
  pure (if negative then -n else n)

/-- The digits after a point. -/
def fractionDigits : Scan (List Char) := do
  mark '.'
  underscored isDigit

/-- A number with a fraction, an exponent or both. Numbers that are too large are refused, but only
positive ones. -/
def decimalFloat : Scan Toml := do
  let negative ← sign
  let whole ← plainDigits
  let fraction ← optionally fractionDigits
  let power ← if fraction.isSome then optionally exponent else some <$> exponent
  let digits := whole ++ fraction.getD []
  let f := Binary64.ofDecimal negative (ofDigits digits)
    (power.getD 0 - (fraction.getD []).length)
  if f = .infinite false then failure else pure (.float f)

/-- Infinity or not a number, by name. -/
def namedFloat : Scan Toml := do
  let negative ← sign
  (do word ['i', 'n', 'f']; pure (.float (.infinite negative))) <|>
    (do word ['n', 'a', 'n']; pure (.float .nan))

/-! ## Dates and times -/

/-- A number of exactly `width` digits that is at most `most`. -/
def field (width least most : Nat) : Scan Nat := fun cs =>
  let (ds, rest) := cs.splitAt width
  let n := ofDigits ds
  if ds.length = width && ds.all isDigit && least ≤ n && n ≤ most then some (n, rest) else none

/-- A date that exists. -/
def date : Scan Unit := do
  let y ← field 4 0 9999
  mark '-'
  let m ← field 2 1 12
  mark '-'
  let d ← field 2 1 31
  if d ≤ daysInMonth y m then pure () else failure

/-- A time of day, to the second or finer. -/
def timeOfDay : Scan Unit := do
  let _ ← field 2 0 23
  mark ':'
  let _ ← field 2 0 59
  mark ':'
  let _ ← field 2 0 60
  let _ ← optionally do
    mark '.'
    let _ ← charOf isDigit
    run isDigit

/-- An offset from UTC. -/
def offset : Scan Unit :=
  (do let _ ← charOf fun c => c = 'Z' || c = 'z') <|> do
    let _ ← charOf fun c => c = '+' || c = '-'
    let _ ← field 2 0 23
    mark ':'
    let _ ← field 2 0 59

/-- A date, a time, or both with or without an offset. -/
def instantValue : Scan Toml := do
  (do
    date
    let _ ← optionally do
      let _ ← charOf fun c => c = 'T' || c = 't' || c = ' '
      timeOfDay
      optionally offset) <|> timeOfDay
  pure .instant

/-! ## Strings -/

/-- Blanks within a line. -/
def isSpace (c : Char) : Bool := c = ' ' || c = '\t'

/-- Skips blanks within a line. -/
def spaces : Scan Unit := do
  let _ ← run isSpace

/-- A line break. -/
def lineBreak : Scan Unit := mark '\n' <|> word ['\r', '\n']

/-- Characters that may stand anywhere: tabs and everything but control characters. -/
def isPrintable (c : Char) : Bool := c = '\t' || (32 ≤ c.toNat && c.toNat != 127)

/-- A character by exactly `width` hexadecimal digits of its number. -/
def numberedChar (width : Nat) : Scan Char := fun cs =>
  let (ds, rest) := cs.splitAt width
  let n := ds.foldl (fun n c => n * 16 + (hexValue? c).getD 0) 0
  if ds.length = width && ds.all (fun c => (hexValue? c).isSome) && n.isValidChar then
    some (Char.ofNat n, rest)
  else none

/-- What a backslash stands for, by the characters after it. -/
def escapedChar : Scan Char := do
  match ← next with
  | 'b' => pure (Char.ofNat 8)
  | 't' => pure '\t'
  | 'n' => pure '\n'
  | 'f' => pure (Char.ofNat 12)
  | 'r' => pure '\r'
  | '"' => pure '"'
  | '\\' => pure '\\'
  | 'u' => numberedChar 4
  | 'U' => numberedChar 8
  | _ => failure

/-- The rest of a quoted string on one line. -/
def quotedFrom : (fuel : Nat) → Scan (List Char)
  | 0 => failure
  | fuel + 1 => do
    let c ← next
    if c = '"' then pure []
    else if c = '\\' then do
      let c ← escapedChar
      let rest ← quotedFrom fuel
      pure (c :: rest)
    else if isPrintable c then do
      let rest ← quotedFrom fuel
      pure (c :: rest)
    else failure

/-- A quoted string on one line. -/
def quoted : Scan (List Char) := do
  mark '"'
  quotedFrom (← remaining).length

/-- A string between apostrophes on one line, in which nothing is escaped. -/
def verbatim : Scan (List Char) := do
  mark '\''
  let cs ← run fun c => isPrintable c && c != '\''
  mark '\''
  pure cs

/-- How many quotes of a run belong to a string of several lines, and whether the string ends with
the run: three quotes end it, after up to two that belong to it. -/
def quoteRun (length : Nat) : Nat × Bool :=
  if length < 3 then (length, false) else (min (length - 3) 2, true)

/-- The text after blanks and line breaks; a carriage return counts only as part of a line break. -/
def afterGap : List Char → List Char
  | '\r' :: '\n' :: rest => afterGap rest
  | c :: rest => if isSpace c || c = '\n' then afterGap rest else c :: rest
  | [] => []

/-- Skips the end of a line after a backslash, with all blanks and line breaks that follow. -/
def continuedLine : Scan Unit := do
  spaces
  lineBreak
  modify afterGap

/-- The rest of a string of several lines between threefold `quote`s; backslashes escape only if
`escapes`. -/
def linesFrom (quote : Char) (escapes : Bool) : (fuel : Nat) → Scan (List Char)
  | 0 => failure
  | fuel + 1 => do
    let cs ← remaining
    let length := (cs.takeWhile (· = quote)).length
    if 0 < length then do
      let (kept, ends) := quoteRun length
      fun _ => some ((), cs.drop (if ends then kept + 3 else kept))
      if ends then pure (List.replicate kept quote)
      else do
        let rest ← linesFrom quote escapes fuel
        pure (List.replicate kept quote ++ rest)
    else do
      match ← optionally lineBreak with
      | some _ => do
        let rest ← linesFrom quote escapes fuel
        pure ('\n' :: rest)
      | none => do
        let c ← next
        if c = '\\' && escapes then do
          match ← optionally continuedLine with
          | some _ => linesFrom quote escapes fuel
          | none => do
            let c ← escapedChar
            let rest ← linesFrom quote escapes fuel
            pure (c :: rest)
        else if isPrintable c then do
          let rest ← linesFrom quote escapes fuel
          pure (c :: rest)
        else failure

/-- A string of several lines; a line break right after the opening quotes does not count. -/
def lines (quote : Char) (escapes : Bool) : Scan (List Char) := do
  word [quote, quote, quote]
  let _ ← optionally lineBreak
  linesFrom quote escapes ((← remaining).length + 1)

/-- A string in any of its four forms. -/
def text : Scan String := do
  let cs ← lines '"' true <|> quoted <|> lines '\'' false <|> verbatim
  pure (String.ofList cs)

/-! ## All scalars -/

/-- A truth value, a string, a date or a number. -/
def scalar : Scan Toml :=
  (do word ['t', 'r', 'u', 'e']; pure (.bool true)) <|>
  (do word ['f', 'a', 'l', 's', 'e']; pure (.bool false)) <|>
  (Toml.string <$> text) <|>
  instantValue <|> decimalFloat <|> namedFloat <|>
  basedInteger 'x' 16 <|> basedInteger 'o' 8 <|> basedInteger 'b' 2 <|> decimalInteger

end Scan

end ChatArchive.Toml
