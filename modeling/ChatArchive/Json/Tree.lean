import ChatArchive.Json.Reader
import ChatArchive.Number.Shortest

/-!
# Reading JSON trees

`Json.parse` reads a whole text into a tree. Arrays and objects nest at most 127 deep.
-/

namespace ChatArchive.Json

namespace Reader

/-- Whether a character may stand in a number. -/
def isNumberChar (c : Char) : Bool := Text.isDigit c || ['-', '+', '.', 'e', 'E'].contains c

/-- The literal a number is written as: what is left of the characters that may stand in a number is
no part of it. -/
def literal : Reader String := fun cs =>
  match number cs with
  | .error fault => .error fault
  | .ok (_, rest) =>
    let run := cs.takeWhile isNumberChar
    let left := rest.takeWhile isNumberChar
    .ok (String.ofList (run.take (run.length - left.length)), rest)

/-- A value of any type whose items and members, if it may have any, are read by `inner`. -/
def treeOf (inner : Option (Reader Json)) : Reader Json := do
  let c ← valueStart
  if c = 'n' then skip; keyword ['u', 'l', 'l']; pure .null
  else if c = 't' then skip; keyword ['r', 'u', 'e']; pure (.bool true)
  else if c = 'f' then skip; keyword ['a', 'l', 's', 'e']; pure (.bool false)
  else if c = '"' then do
    skip
    let s ← stringRest
    pure (.string s)
  else if c = '-' || Text.isDigit c then do
    let l ← literal
    pure (.number l)
  else if c = '[' then
    match inner with
    | none => fail .tooDeep
    | some item => do
      skip
      let js ← items item (← get) true
      pure (.array js)
  else if c = '{' then
    match inner with
    | none => fail .tooDeep
    | some value => do
      skip
      let ms ← members (fun _ => value) (← get) true
      pure (.object ms)
  else fail .expectedValue

/-- A value of any type with at most `depth` levels of arrays and objects. -/
def tree : (depth : Nat) → Reader Json
  | 0 => treeOf none
  | depth + 1 => treeOf (some (tree depth))

end Reader

/-- Levels of arrays and objects that a tree may have. -/
def maxDepth : Nat := 127

/-- Reads a text that holds one value. -/
def parse (text : String) : Except Fault Json := Reader.run (Reader.tree maxDepth) text.toList

/-- The integer a number denotes, if its literal is one. -/
def int? : Json → Option Int
  | .number literal =>
    match Reader.run Reader.number literal.toList with
    | .ok (.natural n) => some n
    | .ok (.negative n) => some (-n)
    | _ => none
  | _ => none

/-- The name of a value in a message about its type. -/
def kind : Json → String
  | .null => "null"
  | .bool b => "boolean `" ++ (if b then "true" else "false") ++ "`"
  | .string s => "string " ++ String.ofList (quoted s)
  | .array _ => "sequence"
  | .object _ => "map"
  | .number literal =>
    match Reader.run Reader.number literal.toList with
    | .ok (.natural n) => "integer `" ++ toString n ++ "`"
    | .ok (.negative n) => "integer `-" ++ toString n ++ "`"
    | .ok (.float f) => "floating point `" ++ String.ofList (f.text?.getD []) ++ "`"
    | .error _ => "number"

end ChatArchive.Json
