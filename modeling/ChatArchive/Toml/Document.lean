import ChatArchive.Toml.Scalar

/-!
# TOML documents

A document is a list of lines: comments, headers of tables and keys with values. Values may be
arrays, which run over several lines, and tables in braces, which do not.
-/

namespace ChatArchive.Toml

namespace Scan

/-- The deepest nesting of arrays and tables in braces. -/
def maxDepth : Nat := 79

/-- The longest dotted key. -/
def maxKeys : Nat := 79

/-- A comment up to the end of its line. -/
def comment : Scan Unit := do
  mark '#'
  let _ ← run isPrintable

/-- Characters of a key without quotes. -/
def isKeyChar (c : Char) : Bool :=
  Text.isDigit c || ('a' ≤ c && c ≤ 'z') || ('A' ≤ c && c ≤ 'Z') || c = '-' || c = '_'

/-- One part of a key. -/
def simpleKey : Scan String := do
  let cs ← quoted <|> verbatim <|> do
    let first ← charOf isKeyChar
    let rest ← run isKeyChar
    pure (first :: rest)
  pure (String.ofList cs)

/-- The parts of a dotted key after its first. -/
def moreKeys : (fuel : Nat) → Scan (List String)
  | 0 => failure
  | fuel + 1 => do
    match ← optionally (mark '.') with
    | none => pure []
    | some _ => do
      spaces
      let k ← simpleKey
      spaces
      let rest ← moreKeys fuel
      pure (k :: rest)

/-- A key: parts joined by points, with blanks around them. -/
def key : Scan (List String) := do
  spaces
  let k ← simpleKey
  spaces
  let rest ← moreKeys maxKeys
  pure (k :: rest)

/-- Blanks, line breaks and comments between the items of an array. -/
def gap : (fuel : Nat) → Scan Unit
  | 0 => pure ()
  | fuel + 1 => do
    modify afterGap
    match ← optionally comment with
    | some _ => gap fuel
    | none => pure ()

/-- A gap of any length. -/
def anyGap : Scan Unit := do gap ((← remaining).length + 1)

/-- Items up to the closing bracket; the last may be followed by a comma. -/
def itemsFrom (item : Scan Toml) : (fuel : Nat) → Scan (List Toml)
  | 0 => failure
  | fuel + 1 => do
    anyGap
    match ← optionally (mark ']') with
    | some _ => pure []
    | none => do
      let v ← item
      anyGap
      match ← optionally (mark ',') with
      | some _ => do
        let rest ← itemsFrom item fuel
        pure (v :: rest)
      | none => do
        mark ']'
        pure [v]

/-- An array of items. -/
def array (item : Scan Toml) : Scan Toml := do
  mark '['
  let items ← itemsFrom item ((← remaining).length + 1)
  pure (.array items)

/-- Goes on with a value, if there is one. -/
def ofOption {α : Type} : Option α → Scan α
  | some a => pure a
  | none => failure

/-- Keys with values up to the closing brace; the last is not followed by a comma. -/
def pairsFrom (item : Scan Toml) : (fuel : Nat) → Entries → Scan Entries
  | 0, _ => failure
  | fuel + 1, entries => do
    let path ← key
    mark '='
    spaces
    let v ← item
    spaces
    let entries ← ofOption (entries.setValue path v .declared)
    match ← optionally (mark ',') with
    | some _ => pairsFrom item fuel entries
    | none => do
      mark '}'
      pure entries

/-- A table in braces. -/
def bracedTable (item : Scan Toml) : Scan Toml := do
  mark '{'
  spaces
  match ← optionally (mark '}') with
  | some _ => pure (.table [])
  | none => do
    let entries ← pairsFrom item ((← remaining).length + 1) []
    pure (.table (finishAll entries))

/-- A value, with arrays and tables in braces nested up to `depth`. -/
def value : (depth : Nat) → Scan Toml
  | 0 => scalar
  | depth + 1 => array (value depth) <|> bracedTable (value depth) <|> scalar

/-- The end of a line: a line break or the end of the text. -/
def lineEnd : Scan Unit := do
  match ← peek with
  | none => pure ()
  | some _ => lineBreak

/-- The end of a line after a header or a value. -/
def trailing : Scan Unit := do
  spaces
  let _ ← optionally comment
  lineEnd

/-- A document as far as it has been read: its entries and the path of the table that keys belong
to. -/
structure Reading where
  entries : Entries
  header : List String

/-- The header of a table or of the next table of an array of tables. -/
def headerLine (r : Reading) : Scan Reading := do
  mark '['
  match ← optionally (mark '[') with
  | some _ => do
    let path ← key
    word [']', ']']
    trailing
    let entries ← ofOption (r.entries.declareNext path)
    pure ⟨entries, path⟩
  | none => do
    let path ← key
    mark ']'
    trailing
    let entries ← ofOption (r.entries.declare path)
    pure ⟨entries, path⟩

/-- A key with its value. -/
def pairLine (r : Reading) : Scan Reading := do
  let path ← key
  mark '='
  spaces
  let v ← value maxDepth
  trailing
  let entries ← ofOption (r.entries.within false .declared (Entries.setValue path v) r.header)
  pure { r with entries := entries }

/-- One line. -/
def line (r : Reading) : Scan Reading := do
  spaces
  match ← peek with
  | some '[' => headerLine r
  | some '#' => do
    comment
    lineEnd
    pure r
  | some '\n' | some '\r' => do
    lineBreak
    pure r
  | none => pure r
  | some _ => pairLine r

/-- Line after line to the end of the text. -/
def linesToEnd : (fuel : Nat) → Reading → Scan Reading
  | 0, _ => failure
  | fuel + 1, r => do
    match ← peek with
    | none => pure r
    | some _ => do
      let r ← line r
      linesToEnd fuel r

end Scan

/-- The table of a document, if the text is one. A byte order mark at its start is passed over. -/
def parse? (document : List Char) : Option (List (String × Toml)) := do
  let cs := match document with
    | '\ufeff' :: rest => rest
    | cs => cs
  let (r, _) ← Scan.linesToEnd (cs.length + 1) ⟨[], []⟩ cs
  some (finishAll r.entries)

end ChatArchive.Toml
