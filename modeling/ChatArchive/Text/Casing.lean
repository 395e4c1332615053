import ChatArchive.Text.CaseTable
import ChatArchive.Text.Ranges

/-!
# Lower case

Lower-casing of whole texts by the Unicode rules: every character by its mapping, the dotted capital
I by two characters, and a capital sigma by the final form when it ends a word: a cased character
comes before it and none after it, characters that do not count being passed over.
-/

namespace ChatArchive.Text

/-- The lower-case character; a character without one stays. -/
def lowerChar (c : Char) : Char :=
  let n := c.toNat
  let inRun (r : CaseRun) : Bool := r.first ≤ n && n ≤ r.last && (n - r.first) % r.step = 0
  match lowerRuns.find? inRun with
  | some r => Char.ofNat ((n : Int) + r.shift).toNat
  | none => c

/-- Whether the first character that counts is cased. -/
def startsCased (cs : List Char) : Bool :=
  match cs.dropWhile (inRanges caseIgnorableRanges) with
  | [] => false
  | c :: _ => inRanges casedRanges c

/-- Lower case of a text; `before` holds the characters in front of it, nearest first. -/
def lowerFrom (before : List Char) : List Char → List Char
  | [] => []
  | c :: rest =>
    let here :=
      if c = 'Σ' then [if startsCased before && !startsCased rest then 'ς' else 'σ']
      else if c = 'İ' then ['i', '\u0307']
      else [lowerChar c]
    here ++ lowerFrom (c :: before) rest

/-- Lower case of a text. -/
def lower (s : String) : String := String.ofList (lowerFrom [] s.toList)

end ChatArchive.Text
