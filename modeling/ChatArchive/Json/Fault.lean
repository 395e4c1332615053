/-!
# Why a text is refused

A reader of JSON stops at the first fault in reading order. `Fault.message` is the first clause of
its wording, the part that does not depend on the place or on what was expected.
-/

namespace ChatArchive.Json

/-- The cause for which a JSON text is refused. -/
inductive Fault
  | eofValue
  | eofString
  | eofArray
  | eofObject
  | expectedColon
  | expectedArrayEnd
  | expectedObjectEnd
  | expectedKeyword
  | expectedValue
  | invalidEscape
  | invalidNumber
  | numberOutOfRange
  | controlCharacter
  | keyNotString
  | loneSurrogate
  | trailingComma
  | trailingText
  | hexEscapeCut
  | tooDeep
  | invalidType
  | invalidValue
  | invalidLength (length : Nat)
  | unknownVariant (name : String)
  | unknownField (name : String)
  | missingField (name : String)
  | duplicateField (name : String)
  | unreadable (reason : String)
deriving DecidableEq, Repr

/-- The text before the first occurrence of `mark`, or the whole text. -/
def before (mark : List Char) : List Char → List Char
  | [] => []
  | c :: rest => if mark.isPrefixOf (c :: rest) then [] else c :: before mark rest

/-- The first clause of a wording: what stands before a place, a colon or a comma. -/
def firstClause (text : String) : String :=
  String.ofList (before ", ".toList (before ": ".toList (before " at line ".toList text.toList)))

/-- The first clause of the wording of a fault. -/
def Fault.message : Fault → String
  | .eofValue => "EOF while parsing a value"
  | .eofString => "EOF while parsing a string"
  | .eofArray => "EOF while parsing a list"
  | .eofObject => "EOF while parsing an object"
  | .expectedColon => "expected `:`"
  | .expectedArrayEnd => "expected `,` or `]`"
  | .expectedObjectEnd => "expected `,` or `\x7d`"
  | .expectedKeyword => "expected ident"
  | .expectedValue => "expected value"
  | .invalidEscape => "invalid escape"
  | .invalidNumber => "invalid number"
  | .numberOutOfRange => "number out of range"
  | .controlCharacter => "control character (\\u0000-\\u001F) found while parsing a string"
  | .keyNotString => "key must be a string"
  | .loneSurrogate => "lone leading surrogate in hex escape"
  | .trailingComma => "trailing comma"
  | .trailingText => "trailing characters"
  | .hexEscapeCut => "unexpected end of hex escape"
  | .tooDeep => "recursion limit exceeded"
  | .invalidType => "invalid type"
  | .invalidValue => "invalid value"
  | .invalidLength n => "invalid length " ++ toString n
  | .unknownVariant name => firstClause ("unknown variant `" ++ name ++ "`")
  | .unknownField name => firstClause ("unknown field `" ++ name ++ "`")
  | .missingField name => "missing field `" ++ name ++ "`"
  | .duplicateField name => "duplicate field `" ++ name ++ "`"
  | .unreadable reason => firstClause reason

end ChatArchive.Json
