/-!
# Events

What the program reports while it works: a message with named values, at a level.
-/

namespace ChatArchive

/-- How much an event matters. -/
inductive Level
  | info
  | warning
deriving DecidableEq, Repr

/-- The name of a level. -/
def Level.name : Level → String
  | .info => "INFO"
  | .warning => "WARN"

/-- A value that is reported with an event. -/
inductive EventValue
  | text (value : String)
  | number (value : Int)
deriving DecidableEq, Repr

/-- A report. -/
structure Event where
  level : Level
  message : String
  values : List (String × EventValue)
deriving DecidableEq, Repr

end ChatArchive
