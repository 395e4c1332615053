import ChatArchive.Json.Fault
import ChatArchive.Json.Value
import ChatArchive.Number.Decimal

/-!
# Reading JSON

A `Reader` takes a value from the front of a text or names the first fault. Values are read as what
the caller asks for, not into a tree first: a value of the wrong type is refused where it stands,
before anything after it has been looked at. A value nobody asked for is skipped by its grammar
alone.

The readers that repeat a step are given the text itself as `fuel`, of which each step takes one
character. A step also takes at least one character of the text, so the fuel is used up only where
the text has ended, and the fault is then the one for a text that ends there.
-/

namespace ChatArchive.Json

open ChatArchive.Text ChatArchive.Number

/-- A step that reads from the front of a text. -/
abbrev Reader := StateT (List Char) (Except Fault)

namespace Reader

/-- Stops with a fault. -/
def fail {α : Type} (fault : Fault) : Reader α := fun _ => .error fault

/-- Blanks between tokens. -/
def isBlank (c : Char) : Bool := c = ' ' || c = '\n' || c = '\t' || c = '\r'

/-- The next character that is not blank, left in place. -/
def peek : Reader (Option Char) := fun cs =>
  let rest := cs.dropWhile isBlank
  .ok (rest.head?, rest)

/-- Drops one character. -/
def skip : Reader Unit := fun cs => .ok ((), cs.drop 1)

/-- The next character; `fault` if there is none. -/
def next (fault : Fault) : Reader Char
  | [] => .error fault
  | c :: rest => .ok (c, rest)

/-- The rest of a keyword. -/
def keyword : List Char → Reader Unit
  | [] => pure ()
  | expected :: more => do
    let c ← next .eofValue
    if c = expected then keyword more else fail .expectedKeyword

/-! ## Strings -/

/-- Four hexadecimal digits. Fewer than four bytes are the end of the text. -/
def hexEscape : Reader Nat
  | a :: b :: c :: d :: rest =>
    match hexValue? a, hexValue? b, hexValue? c, hexValue? d with
    | some w, some x, some y, some z => .ok (w * 4096 + x * 256 + y * 16 + z, rest)
    | _, _, _, _ => .error .invalidEscape
  | cs => if 4 ≤ byteLength cs then .error .invalidEscape else .error .eofString

/-- The second half of a surrogate pair, after its first half. -/
def lowSurrogate (high : Nat) : Reader Char := do
  let c ← next .eofString
  if c ≠ '\\' then fail .hexEscapeCut
  else
    let c ← next .eofString
    if c ≠ 'u' then fail .hexEscapeCut
    else
      let low ← hexEscape
      if 0xDC00 ≤ low ∧ low ≤ 0xDFFF then
        pure (Char.ofNat (0x10000 + (high - 0xD800) * 0x400 + (low - 0xDC00)))
      else fail .loneSurrogate

/-- The character that an escape stands for, after its backslash. -/
def escaped : Reader Char := do
  let c ← next .eofString
  if c = '"' || c = '\\' || c = '/' then pure c
  else if c = 'b' then pure '\x08'
  else if c = 'f' then pure '\x0c'
  else if c = 'n' then pure '\n'
  else if c = 'r' then pure '\r'
  else if c = 't' then pure '\t'
  else if c = 'u' then do
    let n ← hexEscape
    if 0xDC00 ≤ n ∧ n ≤ 0xDFFF then fail .loneSurrogate
    else if 0xD800 ≤ n ∧ n ≤ 0xDBFF then lowSurrogate n
    else pure (Char.ofNat n)
  else fail .invalidEscape

/-- The characters of a string up to its closing quote; one character of `fuel` pays for each. -/
def stringChars : (fuel : List Char) → Reader (List Char)
  | [] => fail .eofString
  | _ :: fuel => do
    let c ← next .eofString
    if c = '"' then pure []
    else if c = '\\' then do
      let c ← escaped
      let rest ← stringChars fuel
      pure (c :: rest)
    else if c.toNat < 32 then fail .controlCharacter
    else do
      let rest ← stringChars fuel
      pure (c :: rest)

/-- The rest of a string after its opening quote. -/
def stringRest : Reader String := fun cs =>
  ((stringChars cs).map String.ofList) cs

/-- An escape that is skipped: a surrogate may stand alone. -/
def skipEscaped : Reader Unit := do
  let c ← next .eofString
  if ['"', '\\', '/', 'b', 'f', 'n', 'r', 't'].contains c then pure ()
  else if c = 'u' then do
    let _ ← hexEscape
  else fail .invalidEscape

/-- The rest of a string that is skipped. -/
def skipStringChars : (fuel : List Char) → Reader Unit
  | [] => fail .eofString
  | _ :: fuel => do
    let c ← next .eofString
    if c = '"' then pure ()
    else if c = '\\' then do
      skipEscaped
      skipStringChars fuel
    else if c.toNat < 32 then fail .controlCharacter
    else skipStringChars fuel

/-- The rest of a string that is skipped, after its opening quote. -/
def skipString : Reader Unit := fun cs => skipStringChars cs cs

/-! ## Numbers -/

/-- A number as the reader sees it: an integer that fits 64 bits with or without a sign, or a
binary64 number. -/
inductive Numeral
  | natural (n : Nat)
  | negative (n : Nat)
  | float (value : Binary64)

/-- The largest significand that is kept exactly. -/
def significandMax : Nat := 18446744073709551615

/-- Appends digits to a significand as long as it stays within the limit, and counts them. -/
def absorb : (significand count : Nat) → List Char → Nat × Nat
  | s, k, [] => (s, k)
  | s, k, c :: rest =>
    let t := s * 10 + digitValue c
    if t ≤ significandMax then absorb t (k + 1) rest else (s, k)

/-- The leading digits of the text. -/
def digitRun : Reader (List Char) := fun cs =>
  .ok (cs.takeWhile isDigit, cs.dropWhile isDigit)

/-- The number with these digits and power of ten. -/
def scaled (negative : Bool) (significand : Nat) (exponent : Int) : Reader Numeral :=
  match Binary64.ofScaled? negative significand exponent with
  | some f => pure (.float f)
  | none => fail .numberOutOfRange

/-- The exponent part after its letter, applied to the digits read so far. -/
def exponentPart (negative : Bool) (significand : Nat) (exponent : Int) : Reader Numeral := do
  let cs ← get
  let down := cs.head? = some '-'
  if down || cs.head? = some '+' then skip
  let c ← next .eofValue
  if isDigit c then do
    let rest ← digitRun
    let n := ofDigits (c :: rest)
    if 2147483647 < n then
      if significand ≠ 0 && !down then fail .numberOutOfRange
      else pure (.float (.finite negative 0 (-1074)))
    else scaled negative significand (if down then exponent - n else exponent + n)
  else fail .invalidNumber

/-- The fraction and the exponent, if there are any. -/
def numberTail (negative : Bool) (significand : Nat) (exponent : Int) : Reader Numeral := do
  match (← get).head? with
  | some '.' =>
    skip
    let ds ← digitRun
    if ds.isEmpty then
      if (← get).isEmpty then fail .eofValue else fail .invalidNumber
    else
      let (s, k) := absorb significand 0 ds
      let exponent := exponent - k
      match (← get).head? with
      | some 'e' | some 'E' => skip; exponentPart negative s exponent
      | _ => scaled negative s exponent
  | some 'e' | some 'E' => skip; exponentPart negative significand exponent
  | _ =>
    if exponent ≠ 0 then scaled negative significand exponent
    else if !negative then pure (.natural significand)
    else if significand = 0 ∨ 9223372036854775808 < significand then
      pure (.float (Binary64.ofNat significand).neg)
    else pure (.negative significand)

/-- A number after its sign. -/
def unsignedNumber (negative : Bool) : Reader Numeral := do
  let c ← next .eofValue
  if c = '0' then
    match (← get).head? with
    | some d => if isDigit d then fail .invalidNumber else numberTail negative 0 0
    | none => numberTail negative 0 0
  else if isDigit c then do
    let rest ← digitRun
    let ds := c :: rest
    let (s, k) := absorb 0 0 ds
    numberTail negative s (ds.length - k : Nat)
  else fail .invalidNumber

/-- A number whose first character is known to be a digit or a minus sign. -/
def number : Reader Numeral := do
  match (← get).head? with
  | some '-' => skip; unsignedNumber true
  | _ => unsignedNumber false

/-- A number that is skipped: only its grammar counts. -/
def skipNumber : Reader Unit := do
  if (← get).head? = some '-' then skip
  let c ← next .invalidNumber
  if c = '0' then
    match (← get).head? with
    | some d => if isDigit d then fail .invalidNumber
    | none => pure ()
  else if isDigit c then do
    let _ ← digitRun
  else fail .invalidNumber
  if (← get).head? = some '.' then
    skip
    let ds ← digitRun
    if ds.isEmpty then fail .invalidNumber
  let cs ← get
  if cs.head? = some 'e' || cs.head? = some 'E' then
    skip
    let cs ← get
    if cs.head? = some '-' || cs.head? = some '+' then skip
    let c ← next .invalidNumber
    if isDigit c then do
      let _ ← digitRun
    else fail .invalidNumber

/-! ## Values of a wrong type -/

/-- Refuses the value that starts with `c`: a scalar must be well formed before its type counts. -/
def wrongType {α : Type} (c : Char) : Reader α := do
  if c = 'n' then skip; keyword ['u', 'l', 'l']; fail .invalidType
  else if c = 't' then skip; keyword ['r', 'u', 'e']; fail .invalidType
  else if c = 'f' then skip; keyword ['a', 'l', 's', 'e']; fail .invalidType
  else if c = '-' || isDigit c then do
    let _ ← number
    fail .invalidType
  else if c = '"' then do
    skip
    let _ ← stringRest
    fail .invalidType
  else if c = '[' || c = '{' then fail .invalidType
  else fail .expectedValue

/-- The first character of a value. -/
def valueStart : Reader Char := do
  match ← peek with
  | none => fail .eofValue
  | some c => pure c

/-- A string. -/
def string : Reader String := do
  let c ← valueStart
  if c = '"' then do
    skip
    stringRest
  else wrongType c

/-- A truth value. -/
def bool : Reader Bool := do
  let c ← valueStart
  if c = 't' then skip; keyword ['r', 'u', 'e']; pure true
  else if c = 'f' then skip; keyword ['a', 'l', 's', 'e']; pure false
  else wrongType c

/-- A number. -/
def numeral : Reader Numeral := do
  let c ← valueStart
  if c = '-' || isDigit c then number else wrongType c

/-- An integer between bounds: a number with a fraction or an exponent has the wrong type, one out
of bounds the wrong value. -/
def integer (low high : Int) : Reader Int := do
  let check (i : Int) : Reader Int := if low ≤ i ∧ i ≤ high then pure i else fail .invalidValue
  match ← numeral with
  | .natural n => check n
  | .negative n => check (-n)
  | .float _ => fail .invalidType

/-- An unsigned 64-bit integer. -/
def uint64 : Reader UInt64 := do
  let i ← integer 0 18446744073709551615
  pure (UInt64.ofNat i.toNat)

/-- An unsigned 32-bit integer. -/
def uint32 : Reader UInt32 := do
  let i ← integer 0 4294967295
  pure (UInt32.ofNat i.toNat)

/-- A signed 64-bit integer. -/
def int64 : Reader Int64 := do
  let i ← integer (-9223372036854775808) 9223372036854775807
  pure (Int64.ofInt i)

/-- A binary64 number; integers are rounded. -/
def float : Reader Binary64 := do
  match ← numeral with
  | .natural n => pure (Binary64.ofNat n)
  | .negative n => pure (Binary64.ofNat n).neg
  | .float f => pure f

/-- A value, or none for null. -/
def option {α : Type} (value : Reader α) : Reader (Option α) := do
  if (← peek) = some 'n' then skip; keyword ['u', 'l', 'l']; pure none
  else do
    let a ← value
    pure (some a)

/-! ## Arrays and objects -/

/-- Whether another item follows in an array. -/
def nextItem (first : Bool) : Reader Bool := do
  match ← peek with
  | none => fail .eofArray
  | some c =>
    if c = ']' then pure false
    else if first then pure true
    else if c = ',' then do
      skip
      match ← peek with
      | none => fail .eofValue
      | some d => if d = ']' then fail .trailingComma else pure true
    else fail .expectedArrayEnd

/-- The end of an array whose items have been taken. -/
def arrayEnd : Reader Unit := do
  match ← peek with
  | none => fail .eofArray
  | some c =>
    if c = ']' then skip
    else if c = ',' then do
      skip
      if (← peek) = some ']' then fail .trailingComma else fail .trailingText
    else fail .trailingText

/-- The items of an array after its bracket; one character of `fuel` pays for each. -/
def items {α : Type} (item : Reader α) : (fuel : List Char) → (first : Bool) → Reader (List α)
  | [], _ => fail .eofArray
  | _ :: fuel, first => do
    if ← nextItem first then do
      let a ← item
      let rest ← items item fuel false
      pure (a :: rest)
    else do
      arrayEnd
      pure []

/-- An array. -/
def array {α : Type} (item : Reader α) : Reader (List α) := do
  let c ← valueStart
  if c = '[' then do
    skip
    items item (← get) true
  else wrongType c

/-- Whether another member follows in an object. -/
def nextMember (first : Bool) : Reader Bool := do
  match ← peek with
  | none => fail .eofObject
  | some c =>
    if c = '}' then pure false
    else if first then if c = '"' then pure true else fail .keyNotString
    else if c = ',' then do
      skip
      match ← peek with
      | none => fail .eofValue
      | some d =>
        if d = '"' then pure true
        else if d = '}' then fail .trailingComma
        else fail .keyNotString
    else fail .expectedObjectEnd

/-- The colon after a key. -/
def colon : Reader Unit := do
  match ← peek with
  | none => fail .eofObject
  | some c => if c = ':' then skip else fail .expectedColon

/-- The end of an object whose members have been taken. -/
def objectEnd : Reader Unit := do
  match ← peek with
  | none => fail .eofObject
  | some c =>
    if c = '}' then skip else if c = ',' then fail .trailingComma else fail .trailingText

/-- The members of an object after its brace; `value` reads the value that belongs to a key. -/
def members {α : Type} (value : String → Reader α) :
    (fuel : List Char) → (first : Bool) → Reader (List (String × α))
  | [], _ => fail .eofObject
  | _ :: fuel, first => do
    if ← nextMember first then do
      let key ← string
      colon
      let a ← value key
      let rest ← members value fuel false
      pure ((key, a) :: rest)
    else do
      objectEnd
      pure []

/-- An object all of whose members have values of one kind. -/
def object {α : Type} (value : Reader α) : Reader (List (String × α)) := do
  let c ← valueStart
  if c = '{' then do
    skip
    members (fun _ => value) (← get) true
  else wrongType c

/-! ## Skipping -/

/-- The items of an array that is skipped. -/
def skipItems (value : Reader Unit) : (fuel : List Char) → (first : Bool) → Reader Unit
  | [], _ => fail .eofArray
  | _ :: fuel, first => do
    match ← peek with
    | none => fail .eofArray
    | some c =>
      if c = ']' then skip
      else if first then do
        value
        skipItems value fuel false
      else if c = ',' then do
        skip
        value
        skipItems value fuel false
      else fail .expectedArrayEnd

/-- A member that is skipped. -/
def skipMember (value : Reader Unit) : Reader Unit := do
  match ← peek with
  | none => fail .eofObject
  | some c =>
    if c = '"' then do
      skip
      skipString
      colon
      value
    else fail .keyNotString

/-- The members of an object that is skipped. -/
def skipMembers (value : Reader Unit) : (fuel : List Char) → (first : Bool) → Reader Unit
  | [], _ => fail .eofObject
  | _ :: fuel, first => do
    match ← peek with
    | none => fail .eofObject
    | some c =>
      if c = '}' then skip
      else if first then do
        skipMember value
        skipMembers value fuel false
      else if c = ',' then do
        skip
        skipMember value
        skipMembers value fuel false
      else fail .expectedObjectEnd

/-- Skips a value; one character of `fuel` pays for each level of nesting. -/
def skipValue : (fuel : List Char) → Reader Unit
  | [] => fail .eofValue
  | _ :: fuel => do
    let c ← valueStart
    if c = 'n' then skip; keyword ['u', 'l', 'l']
    else if c = 't' then skip; keyword ['r', 'u', 'e']
    else if c = 'f' then skip; keyword ['a', 'l', 's', 'e']
    else if c = '-' || isDigit c then skipNumber
    else if c = '"' then do
      skip
      skipString
    else if c = '[' then do
      skip
      skipItems (skipValue fuel) (← get) true
    else if c = '{' then do
      skip
      skipMembers (skipValue fuel) (← get) true
    else fail .expectedValue

/-- Skips a value; a text nests at most as deep as it is long. -/
def ignore : Reader Unit := fun cs => skipValue cs cs

/-! ## Whole texts -/

/-- Reads a text that holds one value and nothing after it. -/
def run {α : Type} (value : Reader α) (text : List Char) : Except Fault α :=
  match value text with
  | .error fault => .error fault
  | .ok (a, rest) => if (rest.dropWhile isBlank).isEmpty then .ok a else .error .trailingText

end Reader

end ChatArchive.Json
