import ChatArchive.Store.Error

/-!
# Scopes of operations

An operation works in a scope: it is over when the scope is cancelled or its deadline has passed. A
scope has a token of its own and may hang on a parent token; cancelling either cancels the scope,
and copies of a scope share its token. Time is a virtual clock that counts milliseconds.
-/

namespace ChatArchive.Retry

/-- A scope: its own token, the token it hangs on, and the time at which it ends. -/
structure Scope where
  own : Nat
  parent : Option Nat
  deadline : Nat
deriving DecidableEq, Repr

/-- All tokens with whether they have been cancelled, the names given to tokens and scopes, and the
clock. -/
structure Scopes where
  now : Nat
  cancelled : List Bool
  tokens : List (String × Nat)
  scopes : List (String × Scope)
deriving DecidableEq, Repr

/-- Something done to scopes, or asked about them. -/
inductive ScopeStep
  | token (name : String)
  | derive (name : String) (timeout : Nat) (parent : Option String)
  | copy (name source : String)
  | cancelToken (name : String)
  | isCancelled (name : String)
  | cancel (name : String)
  | advance (millis : Nat)
  | finished (name : String)
  | wait (name : String)
deriving DecidableEq, Repr

/-- The answer to a step. -/
inductive ScopeAnswer
  | nothing
  | flag (value : Bool)
  | reason (value : CancelReason)
deriving DecidableEq, Repr

namespace Scopes

/-- No tokens and no scopes, at time zero. -/
def empty : Scopes := ⟨0, [], [], []⟩

/-- Whether a token has been cancelled itself. -/
def tokenCancelled (s : Scopes) (token : Nat) : Bool := s.cancelled.getD token false

/-- The token of a name; the last one given counts. -/
def token? (s : Scopes) (name : String) : Option Nat := s.tokens.lookup name

/-- The scope of a name; the last one given counts. -/
def scope? (s : Scopes) (name : String) : Option Scope := s.scopes.lookup name

/-- Whether a scope has been cancelled, itself or through its parent. -/
def isCancelled (s : Scopes) (scope : Scope) : Bool :=
  s.tokenCancelled scope.own || scope.parent.any s.tokenCancelled

/-- Why a scope is over, if it is. Cancellation counts before the deadline. -/
def finished (s : Scopes) (scope : Scope) : Option CancelReason :=
  if s.isCancelled scope then some .cancelled
  else if scope.deadline ≤ s.now then some .deadlineExceeded
  else none

/-- Cancels a token. -/
def cancelToken (s : Scopes) (token : Nat) : Scopes :=
  { s with cancelled := s.cancelled.set token true }

/-- The answer that holds a reason, if there is one. -/
def answer : Option CancelReason → ScopeAnswer
  | none => .nothing
  | some r => .reason r

/-- One step. Names that are not known are passed over. -/
def step (s : Scopes) : ScopeStep → ScopeAnswer × Scopes
  | .token name =>
    (.nothing, { s with
      cancelled := s.cancelled ++ [false]
      tokens := (name, s.cancelled.length) :: s.tokens })
  | .derive name timeout parent =>
    let scope := ⟨s.cancelled.length, parent.bind s.token?, s.now + timeout⟩
    (.nothing, { s with
      cancelled := s.cancelled ++ [false]
      scopes := (name, scope) :: s.scopes })
  | .copy name source =>
    match s.scope? source with
    | some scope => (.nothing, { s with scopes := (name, scope) :: s.scopes })
    | none => (.nothing, s)
  | .cancelToken name =>
    match s.token? name with
    | some token => (.nothing, s.cancelToken token)
    | none => (.nothing, s)
  | .isCancelled name =>
    match s.token? name with
    | some token => (.flag (s.tokenCancelled token), s)
    | none => (.nothing, s)
  | .cancel name =>
    match s.scope? name with
    | some scope => (.nothing, s.cancelToken scope.own)
    | none => (.nothing, s)
  | .advance ms => (.nothing, { s with now := s.now + ms })
  | .finished name =>
    match s.scope? name with
    | some scope => (answer (s.finished scope), s)
    | none => (.nothing, s)
  | .wait name =>
    match s.scope? name with
    | some scope =>
      let s := if s.isCancelled scope then s else { s with now := max s.now scope.deadline }
      (answer (s.finished scope), s)
    | none => (.nothing, s)

/-- The answers to a list of steps, each with the time after it, and the scopes at the end. -/
def run : Scopes → List ScopeStep → List (ScopeAnswer × Nat) × Scopes
  | s, [] => ([], s)
  | s, step :: rest =>
    let (a, s) := s.step step
    let (as, last) := s.run rest
    ((a, s.now) :: as, last)

end Scopes

end ChatArchive.Retry
