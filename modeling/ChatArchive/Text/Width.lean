import ChatArchive.Text.Ranges
import ChatArchive.Text.WidthTable

/-!
# The width of text on a screen

How many columns a text takes on a screen of fixed pitch. Characters take none, one or two columns;
some sequences take less than their characters do: a picture with a skin tone, pictures that are
joined into one, a line break of two characters.
-/

namespace ChatArchive.Text

/-- Two columns wide. -/
def isWide (c : Char) : Bool := 0x1100 ≤ c.toNat && inRanges wideRanges c

/-- The columns of a character that stands alone. -/
def charWidth (c : Char) : Nat :=
  if c.toNat < 0xAD then 1
  else if inRanges zeroWidthRanges c then 0
  else if isWide c then 2
  else 1

/-- Whether a variation selector chooses between text and picture for this character. -/
def hasVariants (c : Char) : Bool := inRanges pictureRanges c

/-- A character that may be shown as a picture. -/
def isPicture (c : Char) : Bool :=
  hasVariants c || (isWide c && (c.toNat < 0x2E80 || 0x1F000 ≤ c.toNat))

/-- A skin tone. -/
def isSkinTone (c : Char) : Bool := 0x1F3FB ≤ c.toNat && c.toNat ≤ 0x1F3FF

/-- What the text so far ends with: nothing that goes on, a picture, or a picture with a joiner. -/
inductive PictureState
  | none
  | picture
  | joined
deriving DecidableEq, Repr

/-- The columns of a character after the text so far and before the next character, and what the
text ends with then. -/
def widthStep (state : PictureState) (c : Char) (next : Option Char) : Nat × PictureState :=
  if c = '\u200d' then (0, if state = .picture then .joined else .none)
  else if c = '\ufe0f' then (0, state)
  else if c = '\r' && next = some '\n' then (0, .none)
  else if state = .picture && isSkinTone c then (0, .picture)
  else if state = .joined && isPicture c then (0, .picture)
  else if hasVariants c && next = some '\ufe0f' then (2, .picture)
  else if hasVariants c && next = some '\ufe0e' then (1, .none)
  else (charWidth c, if isPicture c then .picture else .none)

/-- The columns of a text after a text that ends like this. -/
def widthFrom : PictureState → List Char → Nat
  | _, [] => 0
  | state, c :: rest =>
    let (w, state) := widthStep state c rest.head?
    w + widthFrom state rest

/-- The columns of a text. -/
def displayWidth (cs : List Char) : Nat := widthFrom .none cs

end ChatArchive.Text
