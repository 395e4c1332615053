import ChatArchive.Proofs.Atomicity
import ChatArchive.Proofs.Attempts

/-!
# Which failures are worth another attempt

A failure of the database is worth another attempt if its wording contains one of the
patterns of transient failures. The store puts the code of the failure in front of the
message, which neither adds a pattern nor hides one, so it is the message that decides. No
other failure is tried again, whatever text it quotes: an id or a user may be called as they
like.

What is in force may change between two attempts, and the operation may run out of time while
it pauses. Attempts are used up only if there is time for all pauses between them.
-/

namespace ChatArchive

open Time

/-! ## The wording of failures -/

namespace Text

theorem occursIn_iff {pattern text : List Char} :
    occursIn pattern text = true ↔ pattern <:+: text := by
  induction text with
  | nil => rw [occursIn, List.isEmpty_iff, List.infix_nil]
  | cons c rest ih =>
      rw [occursIn, Bool.or_eq_true, List.isPrefixOf_iff_prefix, ih, List.infix_cons_iff]

/-- A pattern occurs in front of a character that it does not have, or behind it. -/
theorem infix_append_cons {pattern before after : List Char} {c : Char} (hc : c ∉ pattern) :
    pattern <:+: before ++ c :: after ↔ pattern <:+: before ∨ pattern <:+: after := by
  -- a part that reaches behind `before` begins with `c`, so it is empty
  have hstart : ∀ p : List Char, c ∉ p → p <+: c :: after → p = [] := by
    intro p hp h
    rcases List.prefix_cons_iff.1 h with rfl | ⟨rest, rfl, -⟩
    · rfl
    · exact absurd List.mem_cons_self hp
  rw [List.infix_append_iff, List.infix_cons_iff]
  constructor
  · rintro (h | (h | h) | ⟨p, p', rfl, hp, hp'⟩)
    · exact Or.inl h
    · rw [hstart pattern hc h]
      exact Or.inl (List.nil_infix)
    · exact Or.inr h
    · rw [hstart p' (fun h => hc (List.mem_append_right p h)) hp', List.append_nil]
      exact Or.inl hp.isInfix
  · rintro (h | h)
    · exact Or.inl h
    · exact Or.inr (Or.inl (Or.inr h))

end Text

namespace Retry

/-- A pattern that a code in front of a message does not touch: it does not occur in the words
before the code, does not reach into the message from there, and is not a number. -/
structure Uncoded (pattern : List Char) : Prop where
  source : Text.occursIn pattern "error returned from database".toList = false
  code : Text.occursIn pattern " (code".toList = false
  colon : ':' ∉ pattern
  bracket : ')' ∉ pattern
  space : pattern.head? ≠ some ' '
  number : pattern.all Char.isDigit = false

theorem uncoded_of_mem {pattern : String} (h : pattern ∈ transientPatterns) :
    Uncoded pattern.toList := by
  have hsource : ∀ p ∈ transientPatterns,
      Text.occursIn p.toList "error returned from database".toList = false := by decide +kernel
  have hcode : ∀ p ∈ transientPatterns, Text.occursIn p.toList " (code".toList = false := by
    decide +kernel
  have hcolon : ∀ p ∈ transientPatterns, ':' ∉ p.toList := by decide +kernel
  have hbracket : ∀ p ∈ transientPatterns, ')' ∉ p.toList := by decide +kernel
  have hspace : ∀ p ∈ transientPatterns, p.toList.head? ≠ some ' ' := by decide +kernel
  have hnumber : ∀ p ∈ transientPatterns, p.toList.all Char.isDigit = false := by decide +kernel
  exact ⟨hsource pattern h, hcode pattern h, hcolon pattern h, hbracket pattern h,
    hspace pattern h, hnumber pattern h⟩

namespace Uncoded

variable {pattern : List Char}

theorem infix_space (h : Uncoded pattern) (text : List Char) :
    pattern <:+: ' ' :: text ↔ pattern <:+: text := by
  rw [List.infix_cons_iff]
  refine or_iff_right_of_imp fun hprefix => ?_
  rcases List.prefix_cons_iff.1 hprefix with rfl | ⟨rest, rfl, -⟩
  · exact List.nil_infix
  · exact absurd rfl h.space

theorem not_infix_digits (h : Uncoded pattern) (n : Nat) :
    ¬ pattern <:+: (toString n).toList := by
  obtain ⟨c, hc, hdigit⟩ := List.all_eq_false.1 h.number
  intro hinfix
  have hmem : c ∈ Nat.toDigits 10 n := Nat.toList_repr ▸ hinfix.mem hc
  exact hdigit (Nat.isDigit_of_mem_toDigits (by decide) (by decide) hmem)

/-- A pattern occurs behind a code if it occurs in the message. -/
theorem infix_coded (h : Uncoded pattern) (code : Nat) (message : String) :
    pattern <:+: ("error returned from database: (code: " ++ toString code ++ ") "
        ++ message).toList ↔ pattern <:+: message.toList := by
  have hparts : ("error returned from database: (code: " ++ toString code ++ ") "
      ++ message).toList = "error returned from database".toList ++ ':' :: (" (code".toList
        ++ ':' :: (' ' :: (toString code).toList ++ ')' :: (' ' :: message.toList))) := by
    have hsource : "error returned from database: (code: ".toList
        = "error returned from database".toList ++ ':' :: (" (code".toList ++ [':', ' ']) := by
      decide +kernel
    have hclose : ") ".toList = [')', ' '] := by decide +kernel
    simp only [String.toList_append, hsource, hclose, List.append_assoc, List.cons_append,
      List.nil_append]
  rw [hparts, Text.infix_append_cons h.colon, Text.infix_append_cons h.colon,
    Text.infix_append_cons h.bracket, h.infix_space, h.infix_space, ← Text.occursIn_iff,
    ← Text.occursIn_iff, h.source, h.code]
  simp only [h.not_infix_digits, Bool.false_eq_true, false_or]

end Uncoded

/-- Whether another attempt may help is up to the message, not to its code. -/
theorem isTransient_coded (code : Nat) (message : String) :
    isTransient ("error returned from database: (code: " ++ toString code ++ ") " ++ message)
      = isTransient message := by
  rw [Bool.eq_iff_iff, isTransient, isTransient, List.any_eq_true, List.any_eq_true]
  refine exists_congr fun pattern => and_congr_right fun hmem => ?_
  rw [Text.occursIn_iff, Text.occursIn_iff]
  exact (uncoded_of_mem hmem).infix_coded code message

end Retry

namespace Store

variable {α : Type} {s : Store} {now : Timestamp} {operation : Operation} {name : String}
  {transaction : Transaction α}

/-! ## Writes that fail -/

/-- A write statement that an operation of the store needs fails on a table, although nothing is
wrong with what it brings and it has a row to write. The row of a new session fails for another
reason than that its id is taken. -/
inductive FailsToWrite (s : Store) (t : Table) (now : Timestamp) :
    Operation → DatabaseError → Prop
  | create {session : Session} {stored : StoredSession} {e : DatabaseError}
      (hstored : (s.perform (prepare now session)).1 = .ok stored)
      (hinsert : t.insert (Row.ofStored stored) = .error e)
      (hother : Text.occursIn "UNIQUE".toList e.message.toList = false) :
    FailsToWrite s t now (.create session) e
  | update {session : Session} {stored : StoredSession} {e : DatabaseError}
      (hstored : (s.perform (prepare now session)).1 = .ok stored)
      (hupdate : t.update updatedColumns (·.id = stored.id)
        (fun old => .ok (updatedRow (Row.ofStored stored) old)) = .error e) :
    FailsToWrite s t now (.update session) e
  | updateEnd {session : Session} {stored : StoredSession} {n : Nat} {table : Table}
      {finish : String} {e : DatabaseError}
      (hstored : (s.perform (prepare now session)).1 = .ok stored)
      (hupdate : t.update updatedColumns (·.id = stored.id)
        (fun old => .ok (updatedRow (Row.ofStored stored) old)) = .ok (n + 1, table))
      (hfinish : (Row.ofStored stored).endTime = some finish)
      (hset : setEnd table stored.id finish = .error e) :
    FailsToWrite s t now (.update session) e
  | addMessage {id : String} {message : Message} {stored : StoredMessage} {e : DatabaseError}
      (hstored : (s.perform (do
        requireId id
        encrypting (message.toStored s.cipher))).1 = .ok stored)
      (happend : t.update [.messages, .lastActivity] (·.id = id)
        (appendedRow (StoredMessage.encoding.write stored) now.toColumn) = .error e) :
    FailsToWrite s t now (.addMessage id message) e
  | finish {id : String} {time : Timestamp} {row : Row} {e : DatabaseError} (hid : id ≠ "")
      (hrow : t.rows.find? (isOpen id) = some row)
      (hset : setEnd t id time.toColumn = .error e) :
    FailsToWrite s t now (.finish id time) e

/-- A needed write that fails is the failure of what the operation asks. -/
theorem FailsToWrite.task {e : DatabaseError} (h : FailsToWrite s t now operation e) :
    ∃ name task, operation.name? = some name ∧ s.task? now operation = some task ∧
      task.transaction t = .error e.toStoreError := by
  cases h with
  | @create session stored _ hstored hinsert hother =>
      refine ⟨_, ⟨Unit, insertion (Row.ofStored stored)⟩, rfl, by rw [task?, hstored]; rfl, ?_⟩
      show insertion (Row.ofStored stored) t = _
      rw [insertion, hinsert]
      simp only [insertError, hother, Bool.false_eq_true, if_false]
  | @update session stored _ hstored hupdate =>
      refine ⟨_, ⟨Bool, updating (Row.ofStored stored)⟩, rfl, by rw [task?, hstored]; rfl, ?_⟩
      show updating (Row.ofStored stored) t = _
      have hid : (Row.ofStored stored).id = stored.id := rfl
      rw [updating, hid, hupdate]
  | @updateEnd session stored n table finish _ hstored hupdate hfinish hset =>
      refine ⟨_, ⟨Bool, updating (Row.ofStored stored)⟩, rfl, by rw [task?, hstored]; rfl, ?_⟩
      show updating (Row.ofStored stored) t = _
      have hid : (Row.ofStored stored).id = stored.id := rfl
      rw [updating, hid, hupdate, hfinish]
      simp only [hset]
  | @addMessage id message stored _ hstored happend =>
      refine ⟨_, ⟨Nat, appending id stored now.toColumn⟩, rfl, by rw [task?, hstored]; rfl, ?_⟩
      show appending id stored now.toColumn t = _
      rw [appending, happend]
  | @finish id time row _ hid hrow hset =>
      refine ⟨_, ⟨Ending, ending id time.toColumn⟩, rfl, ?_, ?_⟩
      · rw [task?, perform_requireId_ok hid]
        rfl
      · show ending id time.toColumn t = _
        rw [ending, hrow]
        simp only [hset]

theorem isTransient_toStoreError (e : DatabaseError) :
    isTransient e.toStoreError = Retry.isTransient e.message :=
  Retry.isTransient_coded e.code e.message

/-! ## Operations -/

/-- The refusal in force stays as it is while an operation pauses. -/
def Steady (t : Table) : Prop := ∀ pauses, t.refusalAfter pauses = t.refusal

theorem steady_of_scheduled (h : t.scheduled = []) : Steady t := by
  intro pauses
  rw [Table.refusalAfter, h, List.length_nil, Nat.min_zero]
  rfl

theorem Steady.paused (h : Steady t) (pauses : Nat) : t.paused pauses = t := by
  rw [Table.paused, h]
  rfl

/-- It is tried twice if the lock is gone by then. -/
example : (lockedEnd.step .epoch (.schedule [none])).2.1.attemptsOf .epoch (.finish "a" .epoch)
    = 2 := by decide +kernel

/-- It is tried once if the first pause takes a minute, which is longer than it may take. -/
example : failure? ({ lockedEnd with settings := { Settings.standard with
    retry := ⟨3, 60000, 60000, Settings.standard.retry.multiplier⟩ } }.step .epoch
      (.finish "a" .epoch)).1 = some (.failed (.cancelled "end_session" .deadlineExceeded)) := by
  decide +kernel

end Store

end ChatArchive
