import ChatArchive.Session.Listing
import ChatArchive.Text.Digits
import ChatArchive.Time.Parse

/-!
# Command lines

A command line names a command by one or two words and gives it options and at most one argument.
The words are read from left to right and the first that does not fit ends the reading. Options that
every command takes may also stand before its words, and no option may be given twice to the same
word.
-/

namespace ChatArchive.Command

open Text Time

/-- A window of time, either end of which may be left open. -/
structure Window where
  start : Option Timestamp
  finish : Option Timestamp
deriving DecidableEq

/-- What is asked for. -/
inductive Request
  | init
  | list (query : ListQuery)
  | active
  | transcript (id : String)
  | finish (id : String)
  | metrics (window : Window)
  | tokens (window : Window)
deriving DecidableEq

/-- A command line that can be carried out. -/
structure Invocation where
  request : Request
  json : Bool
deriving DecidableEq

/-- Why a command line is not carried out: it asks for the version of a command or for help, or it
does not fit. -/
inductive Detour
  | version (command : String)
  | help
  | misuse
deriving DecidableEq

/-- The words that name a request. -/
inductive Verb
  | init
  | list
  | active
  | transcript
  | finish
  | metrics
  | tokens
deriving DecidableEq

/-- The commands that command lines pass through before they come to a verb. -/
inductive Group
  | top
  | sessions
deriving DecidableEq

/-- The name of a group with the groups around it. -/
def Group.fullName : Group → String
  | .top => "chatvault"
  | .sessions => "chatvault-sessions"

/-- The name of a verb with the groups around it. -/
def Verb.fullName : Verb → String
  | .init => "chatvault-init"
  | .list => "chatvault-sessions-list"
  | .active => "chatvault-sessions-active"
  | .transcript => "chatvault-sessions-show"
  | .finish => "chatvault-sessions-end"
  | .metrics => "chatvault-metrics"
  | .tokens => "chatvault-tokens"

/-- The verb of a word in a group. -/
def Group.verb? (g : Group) (word : String) : Option Verb :=
  match g, word with
  | .top, "init" => some .init
  | .top, "metrics" => some .metrics
  | .top, "tokens" => some .tokens
  | .sessions, "list" => some .list
  | .sessions, "ls" => some .list
  | .sessions, "active" => some .active
  | .sessions, "show" => some .transcript
  | .sessions, "end" => some .finish
  | _, _ => none

/-- The group of a word in a group. -/
def Group.subgroup? (g : Group) (word : String) : Option Group :=
  if g = .top ∧ word = "sessions" then some .sessions else none

/-- The options with a value that a verb takes. -/
def Verb.options : Verb → List String
  | .list =>
    ["user", "from", "to", "admin-assisted", "active", "sort", "order", "limit", "offset"]
  | .metrics | .tokens => ["from", "to"]
  | _ => []

/-- Whether a verb takes an argument. -/
def Verb.takesId : Verb → Bool
  | .transcript | .finish => true
  | _ => false

/-! ## Values of options -/

/-- An unsigned 32-bit number, with an optional sign. -/
def parseCount (text : String) : Option UInt32 :=
  let (negative, ds) := match text.toList with
    | '+' :: ds => (false, ds)
    | '-' :: ds => (true, ds)
    | ds => (false, ds)
  let n := ofDigits ds
  if ds.isEmpty || !ds.all isDigit then none
  else if negative then (if n = 0 then some 0 else none)
  else if n < 4294967296 then some (UInt32.ofNat n)
  else none

/-- A truth value. -/
def parseFlag (text : String) : Option Bool :=
  if text = "true" then some true else if text = "false" then some false else none

/-- An instant. -/
def parseTime (text : String) : Option Timestamp := (Timestamp.parseRelaxed text.toList).toOption

/-- What the options of a verb have said so far. -/
structure Draft where
  query : ListQuery
  window : Window
  id : Option String

/-- Nothing has been said. -/
def Draft.blank : Draft := ⟨.all, ⟨none, none⟩, none⟩

/-- The draft with a bound of its window, which is also one of its query. -/
def Draft.bound (d : Draft) (start finish : Option Timestamp) : Draft :=
  { d with
    window := ⟨start.or d.window.start, finish.or d.window.finish⟩
    query := { d.query with
      startFrom := start.or d.query.startFrom
      startTo := finish.or d.query.startTo } }

/-- The draft with the value of an option, if the option takes it. -/
def Draft.set? (d : Draft) (option value : String) : Option Draft :=
  let q := d.query
  match option with
  | "user" => some { d with query := { q with userId := some value } }
  | "from" => (parseTime value).map fun t => d.bound (some t) none
  | "to" => (parseTime value).map fun t => d.bound none (some t)
  | "admin-assisted" =>
    (parseFlag value).map fun b => { d with query := { q with adminAssisted := some b } }
  | "active" => (parseFlag value).map fun b => { d with query := { q with active := some b } }
  | "sort" =>
    (SortKey.parse value).toOption.map fun k => { d with query := { q with sortKey := k } }
  | "order" =>
    (Direction.parse value).toOption.map fun o => { d with query := { q with direction := o } }
  | "limit" => (parseCount value).map fun n => { d with query := { q with limit := n } }
  | "offset" => (parseCount value).map fun n => { d with query := { q with offset := n } }
  | _ => none

/-- The request of a verb, if all that it needs has been said. -/
def Verb.request? (v : Verb) (d : Draft) : Option Request :=
  match v with
  | .init => some .init
  | .list => some (.list d.query)
  | .active => some .active
  | .transcript => d.id.map .transcript
  | .finish => d.id.map .finish
  | .metrics => some (.metrics d.window)
  | .tokens => some (.tokens d.window)

/-! ## Words -/

/-- What a word of a command line is by its form. -/
inductive Word
  | plain (text : String)
  | long (name : String) (attached : Option String)
  | short (letters : List Char)
  | terminator
deriving DecidableEq

/-- The text before the first equals sign, and the text after it. -/
def splitEquals : List Char → List Char × Option (List Char)
  | [] => ([], none)
  | '=' :: rest => ([], some rest)
  | c :: rest =>
    let (name, value) := splitEquals rest
    (c :: name, value)

/-- The form of a word. A single hyphen is a plain word. -/
def Word.ofText (text : String) : Word :=
  match text.toList with
  | ['-', '-'] => .terminator
  | '-' :: '-' :: rest =>
    let (name, value) := splitEquals rest
    .long (String.ofList name) (value.map String.ofList)
  | '-' :: c :: rest => .short (c :: rest)
  | _ => .plain text

/-- The options that have been given to a word of the command line. -/
structure Seen where
  json : Bool
  names : List String

/-- No options yet. -/
def Seen.none : Seen := ⟨false, []⟩

/-- Takes note of an option that may be given once. -/
def Seen.once (seen : Seen) (name : String) : Except Detour Seen :=
  if seen.names.contains name then .error .misuse
  else .ok ⟨seen.json || name = "json", name :: seen.names⟩

/-- An option that every command takes, given by its long name. -/
def commonLong (command : String) (seen : Seen) (name : String) : Except Detour Seen :=
  match name with
  | "json" => seen.once "json"
  | "otel" => seen.once "otel"
  | "verbose" => .ok seen
  | "version" => .error (.version command)
  | "help" => .error .help
  | _ => .error .misuse

/-- Options that every command takes, given by their letters. -/
def commonShort (command : String) : List Char → Except Detour Unit
  | [] => .ok ()
  | 'v' :: rest => commonShort command rest
  | 'V' :: _ => .error (.version command)
  | 'h' :: _ => .error .help
  | _ => .error .misuse

/-- Notes the argument of a verb. -/
def Draft.argument (d : Draft) (v : Verb) (text : String) : Except Detour Draft :=
  if v.takesId && d.id.isNone then .ok { d with id := some text } else .error .misuse

/-- Notes the value of an option of a verb. -/
def Draft.option (d : Draft) (seen : Seen) (name value : String) :
    Except Detour (Seen × Draft) := do
  let seen ← seen.once name
  match d.set? name value with
  | some d => pure (seen, d)
  | none => throw .misuse

/-- Reads the words after a terminator: they are arguments, whatever their form. -/
def readArguments (v : Verb) : Draft → List String → Except Detour Draft
  | d, [] => .ok d
  | d, text :: rest => do
    let d ← d.argument v text
    readArguments v d rest

/-- Reads the words after a verb. -/
def readVerb (v : Verb) : Seen → Draft → List String → Except Detour (Seen × Draft)
  | seen, d, [] => .ok (seen, d)
  | seen, d, text :: rest =>
    match Word.ofText text with
    | .terminator => do
      let d ← readArguments v d rest
      pure (seen, d)
    | .plain text => do
      let d ← d.argument v text
      readVerb v seen d rest
    | .short letters => do
      commonShort v.fullName letters
      readVerb v seen d rest
    | .long name (some value) =>
      if v.options.contains name then do
        let (seen, d) ← d.option seen name value
        readVerb v seen d rest
      else .error .misuse
    | .long name none =>
      if v.options.contains name then
        match rest with
        | [] => .error .misuse
        | value :: rest =>
          match Word.ofText value with
          | .plain value => do
            let (seen, d) ← d.option seen name value
            readVerb v seen d rest
          | _ => .error .misuse
      else do
        let seen ← commonLong v.fullName seen name
        readVerb v seen d rest

/-- The invocation of a verb with the words after it. -/
def readRequest (v : Verb) (json : Bool) (words : List String) : Except Detour Invocation := do
  let (seen, d) ← readVerb v .none .blank words
  match v.request? d with
  | some request => pure ⟨request, json || seen.json⟩
  | none => throw .misuse

/-- Whether words name a command that there is help for. -/
def hasHelp (g : Group) : List String → Bool
  | [] => true
  | word :: rest =>
    match g.subgroup? word with
    | some g => hasHelp g rest
    | none => ((g.verb? word).isSome || word = "help") && rest.isEmpty

/-- Reads the words after a group, up to the end of the command line. -/
def readGroup (g : Group) (json : Bool) : Seen → List String → Except Detour Invocation
  | _, [] => .error .misuse
  | seen, text :: rest =>
    match Word.ofText text with
    | .plain word =>
      match g.verb? word, g.subgroup? word with
      | some v, _ => readRequest v (json || seen.json) rest
      | none, some inner => readGroup inner (json || seen.json) .none rest
      | none, none => .error (if word = "help" && hasHelp g rest then .help else .misuse)
    | .short letters => do
      commonShort g.fullName letters
      readGroup g json seen rest
    | .long name none => do
      let seen ← commonLong g.fullName seen name
      readGroup g json seen rest
    | _ => .error .misuse

/-- Reads a command line, the name of the program left out. -/
def read (words : List String) : Except Detour Invocation := readGroup .top false .none words

end ChatArchive.Command
