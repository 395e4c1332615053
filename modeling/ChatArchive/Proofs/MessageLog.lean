import ChatArchive.Proofs.Answers
import ChatArchive.Proofs.Runs

/-!
# The log of messages of a session

The messages of a session are those that it was created with, followed by those
that were added to it, in the order of the calls. The invariant behind this is
`Logged`: it compares the stored messages of an id, decrypted, with what the
replies so far tell about the id. Encryption, the JSON text of the column and the
append in it enter only through `Transition`; what is left is one case for each
thing that a call can do to the session of an id.
-/

namespace ChatArchive

open Time

namespace Store

/-- The sessions that were created with an id. -/
def createdSessions (id : String) (replies : List Reply) : List Session :=
  replies.filterMap fun r => created? id r.1.operation r.2

/-- The messages that were added to the session of an id. -/
def addedMessages (id : String) (replies : List Reply) : List Message :=
  replies.filterMap fun r => added? id r.1.operation r.2

theorem createdSessions_concat (id : String) (replies : List Reply) (r : Reply) :
    createdSessions id (replies ++ [r])
      = createdSessions id replies ++ (created? id r.1.operation r.2).toList := by
  rw [createdSessions, List.filterMap_append]
  rfl

theorem addedMessages_concat (id : String) (replies : List Reply) (r : Reply) :
    addedMessages id (replies ++ [r])
      = addedMessages id replies ++ (added? id r.1.operation r.2).toList := by
  rw [addedMessages, List.filterMap_append]
  rfl

/-- The stored session of an id, if there is one, agrees with what the replies tell:
it was created once, and its messages correspond to those of then and those added since. -/
def LoggedBy (R : Message → StoredMessage → Prop) (id : String) (replies : List Reply) :
    Option StoredSession → Prop
  | none => createdSessions id replies = [] ∧ addedMessages id replies = []
  | some stored => ∃ session, createdSessions id replies = [session] ∧
      List.Forall₂ R (session.messages ++ addedMessages id replies) stored.messages

/-- The same, where the stored messages are decrypted and compared. -/
def Logged (cipher : ContentCipher) (id : String) (replies : List Reply) :
    Option StoredSession → Prop
  | none => createdSessions id replies = [] ∧ addedMessages id replies = []
  | some stored => ∃ session, createdSessions id replies = [session] ∧
      stored.messages.map (StoredMessage.toMessage cipher)
        = session.messages ++ addedMessages id replies

variable {cipher : ContentCipher} {now : Timestamp} {id : String} {operation : Operation}
  {answer : Except Abort Answer} {x x' : Option StoredSession} {s : Store}
  {replies : List Reply} {sessions : List StoredSession} {R : Message → StoredMessage → Prop}

theorem LoggedBy.concat_of_none (h : LoggedBy R id replies x) (r : Reply)
    (hcreated : created? id r.1.operation r.2 = none)
    (hadded : added? id r.1.operation r.2 = none) :
    LoggedBy R id (replies ++ [r]) x := by
  cases x with
  | none =>
      rw [LoggedBy, createdSessions_concat, addedMessages_concat, hcreated, hadded,
        Option.toList_none, List.append_nil, Option.toList_none, List.append_nil]
      exact h
  | some stored =>
      rw [LoggedBy, createdSessions_concat, addedMessages_concat, hcreated, hadded,
        Option.toList_none, List.append_nil, Option.toList_none, List.append_nil]
      exact h

/-- A call keeps the log of every id, if messages correspond to what they are stored as. -/
theorem Transition.loggedBy (h : Transition cipher now id operation answer x x')
    (hR : ∀ m s, ContentCipher.Draws (m.toStored cipher) s → R m s)
    (hlogged : LoggedBy R id replies x) :
    LoggedBy R id (replies ++ [(⟨now, operation⟩, answer)]) x' := by
  cases h with
  | kept x hspares =>
      exact hlogged.concat_of_none _ (created?_of_spares hspares) (added?_of_spares hspares)
  | @created session stored hstored hid =>
      obtain ⟨hcreated, hadded⟩ := hlogged
      refine ⟨session, ?_, ?_⟩
      · rw [createdSessions_concat, hcreated, created?, if_pos hid]
        rfl
      · rw [addedMessages_concat, hadded]
        show List.Forall₂ R (session.messages ++ []) stored.messages
        rw [List.append_nil]
        exact hstored.messages.imp hR
  | @updated session stored old hstored hid =>
      exact hlogged.concat_of_none (⟨now, .update session⟩, .ok .nothing) rfl rfl
  | @added message stored old hstored =>
      obtain ⟨session, hcreated, hmessages⟩ := hlogged
      refine ⟨session, ?_, ?_⟩
      · rw [createdSessions_concat, hcreated]
        rfl
      · have hadded : added? id (.addMessage id message) (.ok .nothing) = some message :=
          if_pos rfl
        rw [addedMessages_concat, hadded, StoredSession.withMessage, ← List.append_assoc]
        exact List.rel_append hmessages (.cons (hR message stored hstored) .nil)
  | ended time duration answer old =>
      exact hlogged.concat_of_none (⟨now, .finish id time⟩, answer) rfl rfl

theorem logged_iff :
    Logged cipher id replies x ↔ LoggedBy (fun m s => s.toMessage cipher = m) id replies x := by
  cases x with
  | none => exact Iff.rfl
  | some stored =>
      simp only [Logged, LoggedBy, ← List.forall₂_eq_eq_eq, List.forall₂_map_left_iff]
      exact exists_congr fun session => and_congr_right fun _ =>
        ⟨List.Forall₂.flip, List.Forall₂.flip⟩

/-- So decrypting the stored messages gives back the log. -/
theorem Transition.logged (h : Transition cipher now id operation answer x x')
    (hlogged : Logged cipher id replies x) :
    Logged cipher id (replies ++ [(⟨now, operation⟩, answer)]) x' := by
  rw [logged_iff] at hlogged ⊢
  exact h.loggedBy (fun m s => Message.toMessage_toStored) hlogged

/-- The stored session of an id agrees with the replies and is readable. -/
def LoggedPlainly (cipher : ContentCipher) (replies : List Reply) (id : String)
    (x : Option StoredSession) : Prop :=
  Logged cipher id replies x ∧ ∀ stored ∈ x, stored.HasPlainYears

/-- After every run of ordinary calls on a fresh database with plain years, whatever
the key, a session that is there can be loaded. It was created once, and its messages
are those that it was created with and those that were added since. -/
theorem messages_after_run (settings : Settings) (key : List UInt8) (nonces : Cipher.Nonces)
    (calls : List Call) (hcalls : ∀ c ∈ calls, c.operation.IsOrdinary ∧ c.HasPlainYears)
    (id : String)
    (hid : ((fresh settings (.ofKey key) nonces).after calls).table.row? id ≠ none)
    (now : Timestamp) :
    ∃ created session,
      createdSessions id ((fresh settings (.ofKey key) nonces).history calls) = [created] ∧
      (((fresh settings (.ofKey key) nonces).after calls).step now (.get id)).1
        = .ok (.session session) ∧
      session.messages = created.messages
        ++ addedMessages id ((fresh settings (.ofKey key) nonces).history calls) := by
  have hfresh : Along (.ofKey key) (LoggedPlainly (.ofKey key) [])
      (fresh settings (.ofKey key) nonces) [] :=
    along_fresh settings _ nonces fun _ => ⟨⟨rfl, rfl⟩, fun _ hx => nomatch hx⟩
  obtain ⟨sessions, h⟩ := hfresh.after [] (fun c hc => (hcalls c hc).1)
    fun c hc replies answer id x x' ht hx =>
      ⟨ht.logged hx.1, ht.hasPlainYears (hcalls c hc).2 hx.2⟩
  rw [List.nil_append] at h
  rw [row?_of_holds h.sound.holds] at hid
  obtain ⟨hlogged, hplain⟩ := h.property id
  cases hsession : sessionOf sessions id with
  | none => rw [hsession] at hid; exact absurd rfl hid
  | some stored =>
      rw [hsession] at hlogged
      obtain ⟨created, hcreated, hmessages⟩ := hlogged
      obtain ⟨hmem, hstored⟩ := mem_of_sessionOf hsession
      refine ⟨created, _, hcreated, step_get_ok.2 ⟨h.opened, ?_, _, _, ?_,
        Row.toStored_ofStored (hplain stored hsession), rfl⟩, ?_⟩
      · rw [← hstored]
        exact h.sound.named stored hmem
      · rw [row?_of_holds h.sound.holds, hsession]
        rfl
      · rw [← hmessages, h.unchanged]
        rfl

/-- A session is created, and a message is added to it. -/
def firstMessage : List Call := [
  ⟨.epoch, .create (.start "a" "u" .epoch)⟩,
  ⟨.epoch, .addMessage "a" (.plain .user "hello" .epoch)⟩]

theorem messages_after_firstMessage :
    ∃ created session,
      createdSessions "a" ((fresh .standard (.ofKey (List.replicate 16 7)) (.counting 0)).history
        firstMessage) = [created] ∧
      (((fresh .standard (.ofKey (List.replicate 16 7)) (.counting 0)).after firstMessage).step
        .epoch (.get "a")).1 = .ok (.session session) ∧
      session.messages = created.messages
        ++ addedMessages "a" ((fresh .standard (.ofKey (List.replicate 16 7)) (.counting 0)).history
          firstMessage) := by
  have hplain : Timestamp.epoch.HasPlainYear := by decide
  refine messages_after_run .standard (List.replicate 16 7) (.counting 0) firstMessage ?_ "a"
    ?_ .epoch
  · intro c hc
    rcases List.mem_cons.1 hc with rfl | hc
    · exact ⟨trivial, hplain, hplain, (fun _ ht => nomatch ht), hplain⟩
    · rw [List.mem_singleton.1 hc]
      exact ⟨trivial, hplain, trivial⟩
  · decide +kernel

end Store

end ChatArchive
