/-!
# Decimal digits

Numbers meet text in two ways: written with as many digits as they need, and written with a
fixed number of digits, as the fields of a date are. Both are kept as lists of characters, most
significant digit first, with `ofDigits` as the one way back.
-/

namespace ChatArchive.Text

/-- The character of a digit; only the last decimal place of `d` counts. -/
def digitChar (d : Nat) : Char := Char.ofNat (48 + d % 10)

/-- Whether a character is one of the ten ASCII digits. -/
def isDigit (c : Char) : Bool := '0' ≤ c && c ≤ '9'

/-- The value of a digit character. -/
def digitValue (c : Char) : Nat := c.toNat - 48

/-- The number written by a list of digit characters. -/
def ofDigits (cs : List Char) : Nat := cs.foldl (fun n c => n * 10 + digitValue c) 0

/-- Exactly `width` digits: the last `width` decimal places of `n`. -/
def fixedDigits : (width : Nat) → (n : Nat) → List Char
  | 0, _ => []
  | w + 1, n => fixedDigits w (n / 10) ++ [digitChar n]

/-- The digits of `n` without leading zeros; zero has one digit. -/
def digits (n : Nat) : List Char :=
  if n < 10 then [digitChar n] else digits (n / 10) ++ [digitChar n]
termination_by n

/-- The digits of `n`, with zeros in front up to `width` characters. -/
def paddedDigits (width n : Nat) : List Char :=
  let ds := digits n
  List.replicate (width - ds.length) '0' ++ ds

/-- The digits of an integer, with a minus sign in front of a negative one. -/
def signedDigits : Int → List Char
  | .ofNat n => digits n
  | .negSucc n => '-' :: digits (n + 1)

theorem length_fixedDigits (w n : Nat) : (fixedDigits w n).length = w := by
  induction w generalizing n with
  | zero => rfl
  | succ w ih => simp [fixedDigits, ih]

/-- The value of a hexadecimal digit of either case. -/
def hexValue? (c : Char) : Option Nat :=
  if isDigit c then some (c.toNat - 48)
  else if 'a' ≤ c && c ≤ 'f' then some (c.toNat - 87)
  else if 'A' ≤ c && c ≤ 'F' then some (c.toNat - 55)
  else none

/-- The lower-case hexadecimal digit of `d % 16`. -/
def hexChar (d : Nat) : Char :=
  let d := d % 16
  if d < 10 then Char.ofNat (48 + d) else Char.ofNat (87 + d)

/-- Two hexadecimal digits to the byte. -/
def hexOfBytes (bytes : List UInt8) : List Char :=
  bytes.flatMap fun b => [hexChar (b.toNat / 16), hexChar b.toNat]

/-- The bytes written in hexadecimal, if the text has an even number of digits and nothing else. -/
def bytesOfHex? : List Char → Option (List UInt8)
  | [] => some []
  | [_] => none
  | a :: b :: rest => do
    let high ← hexValue? a
    let low ← hexValue? b
    let bytes ← bytesOfHex? rest
    pure (UInt8.ofNat (high * 16 + low) :: bytes)

/-- Unicode white space. -/
def isBlank (c : Char) : Bool :=
  let n := c.toNat
  (9 ≤ n && n ≤ 13) || n = 0x20 || n = 0x85 || n = 0xA0 || n = 0x1680 || (0x2000 ≤ n && n ≤ 0x200A)
    || n = 0x2028 || n = 0x2029 || n = 0x202F || n = 0x205F || n = 0x3000

/-- The text after its leading white space. -/
def trimStart (cs : List Char) : List Char := cs.dropWhile isBlank

/-- Whether `pattern` occurs in `text` as a contiguous run of characters. -/
def occursIn (pattern : List Char) : (text : List Char) → Bool
  | [] => pattern.isEmpty
  | c :: rest => pattern.isPrefixOf (c :: rest) || occursIn pattern rest

/-- The number of bytes a list of characters takes in UTF-8. -/
def byteLength (cs : List Char) : Nat := cs.foldl (fun n c => n + c.utf8Size) 0

end ChatArchive.Text
