import ChatArchive.Session.Basic

/-!
# Sessions that several writers share

Writers take turns. What a writer has changed before it fails stays changed, and that it failed is
remembered, but neither keeps later writers and readers out.
-/

namespace ChatArchive

open Time

/-- A change that a writer makes to a session. -/
inductive SessionChange
  | rename (name : String)
  | addTokens (count : UInt64)
  | finish (time : Timestamp)
  | say (content : String)
  | fail
deriving DecidableEq

/-- A session that several writers share, and whether one of them failed while it held it. -/
structure SharedSession where
  session : Session
  poisoned : Bool
deriving DecidableEq

namespace SessionChange

/-- The session after a change; none if the writer fails at it. A count of tokens does not wrap
around. -/
def step? (s : Session) : SessionChange → Option Session
  | .rename name => some { s with name := name }
  | .addTokens count =>
    if s.totalTokens.toNat + count.toNat < 18446744073709551616 then
      some { s with totalTokens := s.totalTokens + count }
    else none
  | .finish time => some { s with endTime := some time }
  | .say content =>
    some { s with messages := s.messages ++ [Message.plain .user content s.lastActivity] }
  | .fail => none

/-- The session after as many changes as the writer gets through, and whether it got through all. -/
def applyAll (s : Session) : List SessionChange → Session × Bool
  | [] => (s, true)
  | c :: rest =>
    match c.step? s with
    | some s => applyAll s rest
    | none => (s, false)

end SessionChange

/-- A session that is shared from now on. -/
def Session.share (s : Session) : SharedSession := ⟨s, false⟩

/-- A turn of one writer, and whether it came to its end. -/
def SharedSession.write (shared : SharedSession) (changes : List SessionChange) :
    Bool × SharedSession :=
  let (session, finished) := SessionChange.applyAll shared.session changes
  (finished, ⟨session, shared.poisoned || !finished⟩)

end ChatArchive
