import ChatArchive.Proofs.Envelopes
import ChatArchive.Proofs.Lockstep
import ChatArchive.Proofs.Rows
import ChatArchive.Store.Operation

/-!
# Tables that differ in message content only

Two things are alike if they are one thing with different message content in it. Content in
a table must have been sealed, on both sides with one nonce, so what is alike under a cipher
is: equal in every column but the messages, and there equal in everything but texts that
the cipher has made.

Rows that are alike sort alike, are read with the same errors and show the same times and
counts, and what a statement makes of them is alike again.
-/

namespace ChatArchive

open Cipher ContentCipher Json Text Time

/-! ## Alike -/

/-- Two stored texts that the cipher has made of two texts with one nonce. -/
def ContentCipher.SealsBoth (cipher : ContentCipher) (stored stored' : String) : Prop :=
  ∃ nonce plain plain', Encrypts cipher nonce plain stored ∧ Encrypts cipher nonce plain' stored'

/-- One message with two contents. -/
inductive Message.Alike : Message → Message → Prop
  | mk (m : Message) (content content' : String) :
      Message.Alike { m with content := content } { m with content := content' }

/-- One session with messages that are alike. -/
inductive Session.Alike : Session → Session → Prop
  | mk (s : Session) {messages messages' : List Message}
      (h : List.Forall₂ Message.Alike messages messages') :
      Session.Alike { s with messages := messages } { s with messages := messages' }

/-- One stored message with two sealed contents. -/
inductive StoredMessage.Alike (cipher : ContentCipher) : StoredMessage → StoredMessage → Prop
  | mk (m : StoredMessage) {content content' : String} (h : cipher.SealsBoth content content') :
      StoredMessage.Alike cipher { m with content := content } { m with content := content' }

/-- One stored session with messages that are alike. -/
inductive StoredSession.Alike (cipher : ContentCipher) : StoredSession → StoredSession → Prop
  | mk (s : StoredSession) {messages messages' : List StoredMessage}
      (h : List.Forall₂ (StoredMessage.Alike cipher) messages messages') :
      StoredSession.Alike cipher { s with messages := messages } { s with messages := messages' }

/-- One row with messages that are alike in the messages column. -/
inductive Row.Alike (cipher : ContentCipher) : Row → Row → Prop
  | mk (r : Row) {messages messages' : List StoredMessage}
      (h : List.Forall₂ (StoredMessage.Alike cipher) messages messages') :
      Row.Alike cipher { r with messages := MessageColumn.text messages }
        { r with messages := MessageColumn.text messages' }

/-- One table with rows that are alike. -/
structure Table.Alike (cipher : ContentCipher) (t t' : Table) : Prop where
  rows : List.Forall₂ (Row.Alike cipher) t.rows t'.rows
  indexes : t.indexes = t'.indexes
  refusal : t.refusal = t'.refusal
  scheduled : t.scheduled = t'.scheduled

theorem Table.Alike.refusing {cipher : ContentCipher} {t t' : Table} (h : t.Alike cipher t')
    (refusal : Option Refusal) : (t.refusing refusal).Alike cipher (t'.refusing refusal) :=
  ⟨h.rows, h.indexes, rfl, h.scheduled⟩

theorem Table.Alike.paused {cipher : ContentCipher} {t t' : Table} (h : t.Alike cipher t')
    (pauses : Nat) : (t.paused pauses).Alike cipher (t'.paused pauses) := by
  have hrefusal : t.refusalAfter pauses = t'.refusalAfter pauses := by
    rw [Table.refusalAfter, Table.refusalAfter, h.refusal, h.scheduled]
  rw [Table.paused, Table.paused, hrefusal]
  exact h.refusing _

/-- One store with this cipher and tables that are alike. -/
inductive Store.Alike (cipher : ContentCipher) : Store → Store → Prop
  | mk (s : Store) (hcipher : s.cipher = cipher) {t t' : Table} (h : t.Alike cipher t') :
      Store.Alike cipher { s with table := t } { s with table := t' }

/-- The content of a message is not too long to be sealed. -/
def Message.Fits (m : Message) : Prop := (utf8 m.content).length ≤ Gcm.maxLength

/-! ## Sealing -/

section Sealing

variable {schedule : List Block}

theorem lockstep_encrypt {plain plain' : String} (h : (utf8 plain).length ≤ Gcm.maxLength)
    (h' : (utf8 plain').length ≤ Gcm.maxLength) :
    Lockstep Eq (SealsBoth (.ready schedule)) (encrypt (.ready schedule) plain)
      (encrypt (.ready schedule) plain') := by
  intro nonces _ hnonces
  cases hnonces
  have hrun : ∀ {plain : String}, (utf8 plain).length ≤ Gcm.maxLength →
      ∃ stored, (encrypt (.ready schedule) plain).run.run nonces
          = (.ok stored, nonces.forward 1) := by
    intro plain hfits
    obtain ⟨sealedText, hseal⟩ := Gcm.sealText_isSome_iff.2 hfits
    rw [encrypt, run_bind_ok (run_draw nonces), hseal]
    exact ⟨_, rfl⟩
  obtain ⟨stored, hstored⟩ := hrun h
  obtain ⟨stored', hstored'⟩ := hrun h'
  have hboth : SealsBoth (.ready schedule) stored stored' :=
    ⟨nonces.first, plain, plain', encrypts_first_iff.2 (congrArg Prod.fst hstored),
      encrypts_first_iff.2 (congrArg Prod.fst hstored')⟩
  rw [hstored, hstored']
  exact ⟨.ok hboth, rfl⟩

theorem lockstep_message {m m' : Message} (h : m.Alike m') (hfits : m.Fits) (hfits' : m'.Fits) :
    Lockstep Eq (StoredMessage.Alike (.ready schedule)) (m.toStored (.ready schedule))
      (m'.toStored (.ready schedule)) := by
  cases h with
  | mk m content content' =>
      refine (lockstep_encrypt hfits hfits').bind fun stored stored' hboth => .pure ?_
      exact .mk ⟨stored, m.time, m.sender, m.fileId, m.fileUrl, m.labels⟩ hboth

/-- Two sessions that are alike are stored in lockstep, unless their response times are too
long, which does not depend on their messages. -/
theorem lockstep_session {session session' : Session} (h : session.Alike session')
    (hfits : ∀ m ∈ session.messages, m.Fits) (hfits' : ∀ m ∈ session'.messages, m.Fits)
    (now : Timestamp) :
    Option.Rel (Lockstep Eq (StoredSession.Alike (.ready schedule)))
      (session.toStored (.ready schedule) now) (session'.toStored (.ready schedule) now) := by
  cases h with
  | @mk session messages messages' h =>
      rw [Session.toStored, Session.toStored]
      cases responseFigures session.responseTimes with
      | none => exact .none
      | some figures =>
          have hmessages := forall₂_and_mem h hfits hfits'
          refine .some ((Lockstep.mapM hmessages fun m m' hm =>
            lockstep_message hm.1 hm.2.1 hm.2.2).bind fun stored stored' hstored => .pure ?_)
          exact .mk ⟨session.id, session.userId, session.name, session.modelId, stored,
            session.startTime, session.endTime,
            durationSecs session.startTime (session.endTime.getD now), session.adminAssisted,
            session.assistingAdminId, session.assistingAdminName, session.helpRequested,
            session.totalTokens, figures.1, figures.2, some session.lastActivity⟩ hstored

end Sealing

section Opening

variable {cipher : ContentCipher}

/-- Content that was sealed is never shown as it is stored. -/
theorem ContentCipher.SealsBoth.reveal {stored stored' : String}
    (h : cipher.SealsBoth stored stored') :
    (cipher.reveal stored).2 = (cipher.reveal stored').2 := by
  obtain ⟨nonce, plain, plain', hplain, hplain'⟩ := h
  rw [reveal_encrypt hplain.draws, reveal_encrypt hplain'.draws]

theorem StoredMessage.Alike.toMessage {m m' : StoredMessage} (h : m.Alike cipher m') :
    (m.toMessage cipher).Alike (m'.toMessage cipher) := by
  cases h with
  | mk m h => exact .mk ⟨m.content, m.time, m.sender, m.fileId, m.fileUrl, m.labels⟩ _ _

theorem StoredSession.Alike.toSession {x x' : StoredSession} (h : x.Alike cipher x') :
    (x.toSession cipher).Alike (x'.toSession cipher) := by
  cases h with
  | mk x h =>
      refine .mk (x.toSession cipher) ?_
      rw [List.forall₂_map_left_iff, List.forall₂_map_right_iff]
      exact h.imp fun m m' hm => hm.toMessage

theorem StoredSession.Alike.revealEvents {x x' : StoredSession} (h : x.Alike cipher x') :
    Store.revealEvents cipher x = Store.revealEvents cipher x' := by
  cases h with
  | mk x h =>
      have hcount := countP_eq_of_forall₂ h (p := fun m => (cipher.reveal m.content).2)
        (q := fun m => (cipher.reveal m.content).2) fun m m' hm => by
          cases hm with
          | mk m hboth => exact hboth.reveal
      rw [Store.revealEvents, Store.revealEvents, StoredSession.fallbacks,
        StoredSession.fallbacks, hcount]

end Opening

/-! ## Rows -/

/-- A question to a row that does not depend on the messages column. -/
def Row.Blind {α : Type} (f : Row → α) : Prop :=
  ∀ (r : Row) (text : String), f { r with messages := text } = f r

namespace Row.Alike

variable {cipher : ContentCipher} {r r' : Row}

theorem eq_of_blind {α : Type} {f : Row → α} (hf : Row.Blind f) (h : r.Alike cipher r') :
    f r = f r' := by
  cases h with
  | mk r h => exact (hf r _).trans (hf r _).symm

theorem id_eq (h : r.Alike cipher r') : r.id = r'.id := h.eq_of_blind fun _ _ => rfl

theorem startTime_eq (h : r.Alike cipher r') : r.startTime = r'.startTime :=
  h.eq_of_blind fun _ _ => rfl

theorem endTime_eq (h : r.Alike cipher r') : r.endTime = r'.endTime :=
  h.eq_of_blind fun _ _ => rfl

theorem toStored (h : r.Alike cipher r') :
    Agree (StoredSession.Alike cipher) r.toStored r'.toStored := by
  cases h with
  | @mk r messages messages' h =>
      have hread : Agree (List.Forall₂ (StoredMessage.Alike cipher))
          (readMessages (MessageColumn.text messages))
          (readMessages (MessageColumn.text messages')) := by
        rw [readMessages_text, readMessages_text]
        exact .ok h
      refine hread.bind fun ms ms' hms => ?_
      refine (Agree.of_eq (fun _ => rfl) rfl).bind fun start start' hstart => ?_
      cases hstart
      refine (Agree.of_eq (fun _ => rfl) rfl).bind fun finish finish' hfinish => ?_
      cases hfinish
      refine (Agree.of_eq (fun _ => rfl) rfl).bind fun last last' hlast => ?_
      cases hlast
      exact .ok (.mk ⟨r.id, r.userId, r.name, r.modelId, ms, start, finish, r.duration,
        r.adminAssisted != 0, r.assistingAdminId, r.assistingAdminName, r.helpRequested != 0,
        loadedTokens r.totalTokens, r.maxResponseMs, r.avgResponseMs, last⟩ hms)

theorem sortValue_eq (h : r.Alike cipher r') (key : SortKey) :
    Store.sortValue key r = Store.sortValue key r' := by
  cases h with
  | @mk r messages messages' h =>
      cases key with
      | messageCount =>
          show (MessageColumn.tree (MessageColumn.text messages) >>= _)
            = (MessageColumn.tree (MessageColumn.text messages') >>= _)
          rw [MessageColumn.tree_text, MessageColumn.tree_text]
          show Except.ok (Store.SortValue.integer (MessageColumn.count _))
            = Except.ok (Store.SortValue.integer (MessageColumn.count _))
          rw [MessageColumn.count_text, MessageColumn.count_text, h.length_eq]
      | _ => rfl

theorem appendedRow (h : r.Alike cipher r') {m m' : StoredMessage} (hm : m.Alike cipher m')
    (lastActivity : String) :
    Agree (Row.Alike cipher)
      (Store.appendedRow (StoredMessage.encoding.write m) lastActivity r)
      (Store.appendedRow (StoredMessage.encoding.write m') lastActivity r') := by
  cases h with
  | @mk r messages messages' h =>
      have happended : List.Forall₂ (StoredMessage.Alike cipher) (messages ++ [m])
          (messages' ++ [m']) := List.rel_append h (.cons hm .nil)
      rw [Store.appendedRow, Store.appendedRow]
      show Agree _ (MessageColumn.tree (MessageColumn.text messages) >>= _)
        (MessageColumn.tree (MessageColumn.text messages') >>= _)
      rw [MessageColumn.tree_text, MessageColumn.tree_text]
      show Agree _ (Except.ok _) (Except.ok _)
      rw [MessageColumn.append_text, MessageColumn.append_text]
      exact .ok (.mk { r with lastActivity := some lastActivity } happended)

theorem updatedRow {new new' : Row} (hnew : new.Alike cipher new') (h : r.Alike cipher r') :
    (Store.updatedRow new r).Alike cipher (Store.updatedRow new' r') := by
  cases hnew with
  | @mk new _ _ _ =>
      cases h with
      | mk r h => exact .mk (Store.updatedRow new r) h

theorem set?_eq_map {column : Column} (hcolumn : column ≠ .messages) (v : ColumnValue)
    (r : Row) (text : String) :
    ({ r with messages := text } : Row).set? column v
      = (r.set? column v).map fun r => { r with messages := text } := by
  cases column with
  | messages => exact absurd rfl hcolumn
  | _ => cases v <;> rfl

/-- A value that another column takes leaves the rows alike. -/
theorem set? (h : r.Alike cipher r') {column : Column} (hcolumn : column ≠ .messages)
    (v : ColumnValue) :
    Option.Rel (Row.Alike cipher) (r.set? column v) (r'.set? column v) := by
  cases h with
  | @mk r messages messages' h =>
      have hset := set?_eq_map hcolumn v r (MessageColumn.text messages)
      have hset' := set?_eq_map hcolumn v r (MessageColumn.text messages')
      rw [hset, hset']
      cases r.set? column v with
      | none => exact .none
      | some r => exact .some (.mk r h)

end Row.Alike

theorem StoredSession.Alike.ofStored {cipher : ContentCipher} {x x' : StoredSession}
    (h : x.Alike cipher x') : (Row.ofStored x).Alike cipher (Row.ofStored x') := by
  cases h with
  | mk x h => exact .mk (Row.ofStored x) h

namespace Store

/-- One row in a listing, with what its messages show. -/
inductive ListedRow.Alike (cipher : ContentCipher) : ListedRow → ListedRow → Prop
  | mk {r r' : Row} (h : r.Alike cipher r') (count : Nat) (lastTime : String) :
      ListedRow.Alike cipher ⟨r, count, lastTime⟩ ⟨r', count, lastTime⟩

variable {cipher : ContentCipher} {r r' : Row}

theorem listedRow_agree (h : r.Alike cipher r') :
    Agree (ListedRow.Alike cipher) (listedRow r) (listedRow r') := by
  cases h with
  | @mk r messages messages' h =>
      have htimes : messages.map (fun m => String.ofList m.time.shortText)
          = messages'.map fun m => String.ofList m.time.shortText :=
        map_eq_of_forall₂ h fun m m' hm => by
          cases hm with
          | mk m hboth => rfl
      rw [listedRow, listedRow]
      show Agree _ (MessageColumn.tree (MessageColumn.text messages) >>= _)
        (MessageColumn.tree (MessageColumn.text messages') >>= _)
      rw [MessageColumn.tree_text, MessageColumn.tree_text]
      show Agree _ (Except.ok _) (Except.ok _)
      rw [MessageColumn.count_text, MessageColumn.count_text, MessageColumn.lastTime?_text,
        MessageColumn.lastTime?_text, ← List.getLast?_map, ← List.getLast?_map, htimes,
        h.length_eq]
      exact .ok (.mk (.mk r h) _ _)

theorem summary_eq {l l' : ListedRow} (h : l.Alike cipher l') : summary l = summary l' := by
  cases h with
  | mk h count lastTime =>
      cases h with
      | mk r h => rfl

end Store

end ChatArchive
