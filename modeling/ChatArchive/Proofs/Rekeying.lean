import ChatArchive.Proofs.Disclosure
import ChatArchive.Proofs.Envelopes
import ChatArchive.Proofs.MessageLog
import ChatArchive.Proofs.Readable

/-!
# Changing the key

A database that was begun without a key holds contents in the clear, and after a key has
been set it holds encrypted ones next to them. Nothing in a row tells which is which. What
was encrypted is decrypted; what is in the clear fails to be decrypted and is shown as it
stands, unless somebody wrote a text that happens to be an encrypted one.

The invariant is the log of messages, once more, with a finer correspondence: each message
is stored in the clear, and then it was written before the key was set, or it was encrypted
with the key. The change of the key itself touches no row.
-/

namespace ChatArchive

open Cipher Time

namespace Store

/-- The messages that were written to the session of an id: those that it was created with
and those that were added. -/
def writtenMessages (id : String) (replies : List Reply) : List Message :=
  (createdSessions id replies).flatMap (·.messages) ++ addedMessages id replies

/-- A message as it is stored in a database that was begun without a key: in the clear, if
it is one of these, or encrypted with the key that was set later. -/
def StoredUnder (key : List UInt8) (clear : List Message) (m : Message) (s : StoredMessage) :
    Prop :=
  m ∈ clear ∧ ContentCipher.Draws (m.toStored (.ofKey [])) s ∨
    ContentCipher.Draws (m.toStored (.ofKey key)) s

variable {R : Message → StoredMessage → Prop} {id : String} {replies : List Reply}
  {x : StoredSession} {key : List UInt8} {clear : List Message} {m : Message}
  {s : StoredMessage}

theorem LoggedBy.written (h : LoggedBy R id replies (some x)) :
    List.Forall₂ R (writtenMessages id replies) x.messages := by
  obtain ⟨session, hcreated, hmessages⟩ := h
  rw [writtenMessages, hcreated, List.flatMap_singleton]
  exact hmessages

theorem LoggedBy.exists_of_created {before : Option StoredSession}
    (h : LoggedBy R id replies before) (hcreated : createdSessions id replies ≠ []) :
    ∃ x, before = some x := by
  cases before with
  | none => exact absurd h.1 hcreated
  | some x => exact ⟨x, rfl⟩

theorem LoggedBy.imp {S : Message → StoredMessage → Prop} {before : Option StoredSession}
    (h : LoggedBy R id replies before)
    (hRS : ∀ m ∈ writtenMessages id replies, ∀ s, R m s → S m s) :
    LoggedBy S id replies before := by
  cases before with
  | none => exact h
  | some x =>
      obtain ⟨session, hcreated, hmessages⟩ := h
      rw [writtenMessages, hcreated, List.flatMap_singleton] at hRS
      refine ⟨session, hcreated, ?_⟩
      refine ((List.forall₂_and_left _ _).2 ⟨hRS, hmessages⟩).imp fun m s hm => ?_
      exact hm.1 s hm.2

/-! ## Messages under a key -/

/-- A text that no encryption with the key gives is shown as it stands. -/
theorem reveal_clear (hkey : key.length ∈ ContentCipher.keySizes) {text : String}
    (h : ∀ nonce plain, ¬ ContentCipher.Encrypts (.ofKey key) nonce plain text) :
    (ContentCipher.ofKey key).reveal text = (text, true) := by
  rw [ContentCipher.reveal]
  cases hdecrypt : (ContentCipher.ofKey key).decrypt text with
  | error e => rfl
  | ok plain =>
      cases (ContentCipher.decrypt_eq_iff hkey).1 hdecrypt with
      | written hwritten => exact absurd hwritten (h _ plain)

theorem StoredUnder.keptIn (h : StoredUnder key clear m s) : m.KeptIn s := by
  rcases h with ⟨-, h⟩ | h
  · exact Message.keptIn_of_draws h
  · exact Message.keptIn_of_draws h

/-- A message is loaded as it was written, whether it was stored before or after the key
was set. -/
theorem StoredUnder.toMessage_eq (hkey : key.length ∈ ContentCipher.keySizes)
    (hclear : ∀ m ∈ clear, ∀ nonce plain,
      ¬ ContentCipher.Encrypts (.ofKey key) nonce plain m.content)
    (h : StoredUnder key clear m s) : s.toMessage (.ofKey key) = m := by
  rcases h with ⟨hm, h⟩ | h
  · obtain ⟨content, hcontent, h⟩ := ContentCipher.draws_bind h
    have hsame : content = m.content := ContentCipher.draws_pure hcontent
    rw [ContentCipher.draws_pure h, StoredMessage.toMessage, hsame, reveal_clear hkey (hclear m hm)]
  · exact Message.toMessage_toStored h

theorem messages_toSession (hkey : key.length ∈ ContentCipher.keySizes)
    (hclear : ∀ m ∈ clear, ∀ nonce plain,
      ¬ ContentCipher.Encrypts (.ofKey key) nonce plain m.content) {messages : List Message}
    (h : List.Forall₂ (StoredUnder key clear) messages x.messages) :
    (x.shown.toSession (.ofKey key)).messages = messages := by
  have heach : List.Forall₂ (· = ·) messages
      (x.messages.map (StoredMessage.toMessage (.ofKey key))) :=
    List.forall₂_map_right_iff.2 (h.imp fun m s hm => (hm.toMessage_eq hkey hclear).symm)
  rw [List.forall₂_eq_eq_eq] at heach
  exact heach.symm

/-! ## The run -/

/-- The stored session of an id is the log of its messages, and it is readable. -/
def LoggedReadably (R : String → Message → StoredMessage → Prop) (replies : List Reply)
    (id : String) (x : Option StoredSession) : Prop :=
  LoggedBy (R id) id replies x ∧ ∀ y ∈ x, y.HasPlainYears

theorem Along.loggedReadably {R : String → Message → StoredMessage → Prop}
    {cipher : ContentCipher} {calls : List Call} {s : Store} {sessions : List StoredSession}
    (h : Along cipher (LoggedReadably R replies) s sessions)
    (hcalls : ∀ c ∈ calls, c.operation.IsOrdinary ∧ c.HasPlainYears)
    (hR : ∀ id m y, ContentCipher.Draws (m.toStored cipher) y → R id m y) :
    ∃ sessions', Along cipher (LoggedReadably R (replies ++ s.history calls)) (s.after calls)
      sessions' :=
  h.after replies (fun c hc => (hcalls c hc).1) fun c hc _ _ id _ _ ht hx =>
    ⟨ht.loggedBy (hR id) hx.1, ht.hasPlainYears (hcalls c hc).2 hx.2⟩

theorem history_append (s : Store) (calls more : List Call) :
    s.history (calls ++ more) = s.history calls ++ (s.after calls).history more := by
  induction calls generalizing s with
  | nil => rfl
  | cons c calls ih => exact congrArg _ (ih _)

variable {before later : List Call}

/-- A run that begins without a key and sets one on its way. -/
theorem along_rekey (settings : Settings) (nonces : Nonces) (key : List UInt8) (time : Timestamp)
    (hcalls : ∀ c ∈ before ++ later, c.operation.IsOrdinary ∧ c.HasPlainYears) :
    ∃ sessions, Along (.ofKey key)
      (LoggedReadably
        (fun id => StoredUnder key
          (writtenMessages id ((fresh settings (.ofKey []) nonces).history before)))
        ((fresh settings (.ofKey []) nonces).history (before ++ ⟨time, .rekey key⟩ :: later)))
      ((fresh settings (.ofKey []) nonces).after (before ++ ⟨time, .rekey key⟩ :: later))
      sessions := by
  have hfresh : Along (.ofKey [])
      (LoggedReadably (fun _ m y => ContentCipher.Draws (m.toStored (.ofKey [])) y) [])
      (fresh settings (.ofKey []) nonces) [] :=
    along_fresh settings _ nonces fun _ =>
      ⟨⟨rfl, rfl⟩, fun _ hy => absurd hy (Option.not_mem_none _)⟩
  obtain ⟨sessions, h⟩ := hfresh.loggedReadably
    (fun c hc => hcalls c (List.mem_append_left later hc)) fun _ _ _ hy => hy
  rw [List.nil_append] at h
  -- Setting the key changes no row. What was written so far now counts as stored in the clear.
  have hset : Along (.ofKey key)
      (LoggedReadably
        (fun id => StoredUnder key
          (writtenMessages id ((fresh settings (.ofKey []) nonces).history before)))
        ((fresh settings (.ofKey []) nonces).history before ++
          [(⟨time, .rekey key⟩, .ok .nothing)]))
      (((fresh settings (.ofKey []) nonces).after before).step time (.rekey key)).2.1
      sessions := by
    refine ⟨⟨h.sound.holds, h.sound.distinct, h.sound.named⟩, rfl, h.opened, fun id => ?_⟩
    obtain ⟨hlogged, hplain⟩ := h.property id
    refine ⟨LoggedBy.concat_of_none ?_ (⟨time, .rekey key⟩, .ok .nothing) rfl rfl, hplain⟩
    exact hlogged.imp fun m hm y hy => Or.inl ⟨hm, hy⟩
  obtain ⟨sessions', h'⟩ := hset.loggedReadably
    (fun c hc => hcalls c (List.mem_append_right before hc)) fun _ _ _ hy => Or.inr hy
  rw [List.append_assoc] at h'
  rw [history_append, after_append]
  exact ⟨sessions', h'⟩

/-! ## What is shown -/

/-- Every session that was created is loaded under the key of a store, alone or with the
active ones, and shows all its messages, with one warning for each session of which content
is not decrypted. -/
structure ShowsAll (key : List UInt8) (replies : List Reply) (s : Store) (now : Timestamp) :
    Prop where
  get : ∀ id, createdSessions id replies ≠ [] → ∃ x session,
    s.table.row? id = some (Row.ofStored x) ∧
    s.step now (.get id)
      = (.ok (.session session), { s with events := [] }, x.warnings (.ofKey key)) ∧
    session.Shows (.ofKey key) (writtenMessages id replies) x
  active : ∃ xs sessions, xs.map Row.ofStored = s.activeRows ∧
    s.step now .active = (.ok (.sessions sessions), { s with events := [] },
      xs.flatMap (StoredSession.warnings (.ofKey key))) ∧
    List.Forall₂ (fun x session =>
      Session.Shows (.ofKey key) (writtenMessages x.id replies) x session) xs sessions

variable {s : Store} {sessions : List StoredSession}

/-- A store shows all its sessions if they are readable and have kept what was written,
whichever key they were written with. -/
theorem showsAll_of_kept (h : Sound s sessions) (hopen : s.closed = false)
    (hcipher : s.cipher = .ofKey key)
    (hcreated : ∀ id, createdSessions id replies ≠ [] → ∃ x ∈ sessions, x.id = id)
    (hkept : ∀ x ∈ sessions, x.HasPlainYears ∧
      List.Forall₂ Message.KeptIn (writtenMessages x.id replies) x.messages)
    (now : Timestamp) : ShowsAll key replies s now := by
  have hshows : ∀ x ∈ sessions, Session.Shows (.ofKey key) (writtenMessages x.id replies) x
      (x.shown.toSession s.cipher) := by
    intro x hx
    rw [hcipher]
    exact StoredSession.shows_toSession (hkept x hx).2 (.ofKey key)
  refine ⟨fun id hid => ?_, ?_⟩
  · obtain ⟨x, hx, rfl⟩ := hcreated id hid
    refine ⟨x, _, h.row?_of_mem hx, ?_, hshows x hx⟩
    rw [← hcipher]
    exact step_get hopen (h.named x hx) (h.row?_of_mem hx) (Row.toStored_shown (hkept x hx).1) now
  · obtain ⟨xs, hxs⟩ := exists_forall₂_iff.2 fun row hrow =>
      exists_of_mem_rows h.holds (mem_rows_of_mem_activeRows (s := s) hrow)
    have hrows : xs.map Row.ofStored = s.activeRows := by
      rw [← List.forall₂_eq_eq_eq, List.forall₂_map_left_iff]
      exact hxs.flip.imp fun x row hx => hx.2
    have hmem : ∀ x ∈ xs, x ∈ sessions := by
      intro x hx
      obtain ⟨row, -, hx, -⟩ := exists_of_forall₂_right hxs hx
      exact hx
    have hstored : List.Forall₂ (fun row x => row.toStored = .ok x) s.activeRows
        (xs.map StoredSession.shown) := by
      rw [List.forall₂_map_right_iff]
      refine hxs.imp fun row x hx => ?_
      rw [← hx.2]
      exact Row.toStored_shown (hkept x hx.1).1
    refine ⟨xs, xs.map fun x => x.shown.toSession s.cipher, hrows, ?_, ?_⟩
    · rw [step_active hopen hstored now, List.map_map, List.flatMap_map, ← hcipher]
      rfl
    · exact List.forall₂_map_right_iff.2 (List.forall₂_same.2 fun x hx => hshows x (hmem x hx))

/-- A database that was begun without a key and is carried on with one. In every run of
ordinary calls with plain years, a session of which no text in the clear is an encrypted one
is loaded with all messages of both phases as they were written. And whichever key is set
afterwards, all sessions still show all their messages, decrypted or as they are stored. -/
theorem messages_after_rekey (settings : Settings) (nonces : Nonces) (before later : List Call)
    (hcalls : ∀ c ∈ before ++ later, c.operation.IsOrdinary ∧ c.HasPlainYears)
    (key : List UInt8) (hkey : key.length ∈ ContentCipher.keySizes) (time : Timestamp) :
    let run := before ++ ⟨time, .rekey key⟩ :: later
    let s := (fresh settings (.ofKey []) nonces).after run
    let replies := (fresh settings (.ofKey []) nonces).history run
    (∀ id, createdSessions id replies ≠ [] →
      (∀ m ∈ writtenMessages id ((fresh settings (.ofKey []) nonces).history before),
        ∀ n plain, ¬ ContentCipher.Encrypts (.ofKey key) n plain m.content) →
      ∀ now, ∃ session, (s.step now (.get id)).1 = .ok (.session session) ∧
        session.messages = writtenMessages id replies) ∧
    ∀ (other : List UInt8) (t now : Timestamp),
      ShowsAll other replies (s.step t (.rekey other)).2.1 now := by
  intro run s replies
  obtain ⟨sessions, h⟩ := along_rekey settings nonces key time hcalls
  have hkept : ∀ x ∈ sessions, x.HasPlainYears ∧ List.Forall₂
      (StoredUnder key (writtenMessages x.id ((fresh settings (.ofKey []) nonces).history before)))
      (writtenMessages x.id replies) x.messages := by
    intro x hx
    obtain ⟨hlogged, hplain⟩ := h.property x.id
    rw [h.sound.sessionOf_id hx] at hlogged hplain
    exact ⟨hplain x rfl, hlogged.written⟩
  have hcreated : ∀ id, createdSessions id replies ≠ [] → ∃ x ∈ sessions, x.id = id := by
    intro id hid
    obtain ⟨x, hx⟩ := (h.property id).1.exists_of_created hid
    exact ⟨x, mem_of_sessionOf hx⟩
  refine ⟨fun id hid hclear now => ?_, fun other t now => ?_⟩
  · obtain ⟨x, hx, rfl⟩ := hcreated id hid
    refine ⟨x.shown.toSession s.cipher, step_get_ok.2 ⟨h.opened, h.sound.named x hx,
      Row.ofStored x, x.shown, h.sound.row?_of_mem hx, Row.toStored_shown (hkept x hx).1, rfl⟩, ?_⟩
    rw [h.unchanged]
    exact messages_toSession hkey hclear (hkept x hx).2
  · have hsound : Sound (s.step t (.rekey other)).2.1 sessions :=
      ⟨h.sound.holds, h.sound.distinct, h.sound.named⟩
    refine showsAll_of_kept hsound h.opened rfl hcreated (fun x hx => ?_) now
    exact ⟨(hkept x hx).1, (hkept x hx).2.imp fun m y => StoredUnder.keptIn⟩

/-- One message is written before the key is set and one after it. -/
theorem messages_after_rekey_twoMessages :
    let key : List UInt8 := List.replicate 16 7
    let run := firstMessage ++
      ⟨.epoch, .rekey key⟩ :: [⟨.epoch, .addMessage "a" (.plain .user "again" .epoch)⟩]
    let s := (fresh .standard (.ofKey []) (.counting 0)).after run
    (∃ session, (s.step .epoch (.get "a")).1 = .ok (.session session) ∧
      session.messages = [.plain .user "hello" .epoch, .plain .user "again" .epoch]) ∧
    ShowsAll (List.replicate 5 7) ((fresh .standard (.ofKey []) (.counting 0)).history run)
      (s.step .epoch (.rekey (List.replicate 5 7))).2.1 .epoch := by
  intro key run s
  have hplain : Timestamp.epoch.HasPlainYear := by decide
  have hkey : key.length ∈ ContentCipher.keySizes := by decide
  have hcalls : ∀ c ∈ firstMessage ++ [⟨.epoch, .addMessage "a" (.plain .user "again" .epoch)⟩],
      c.operation.IsOrdinary ∧ c.HasPlainYears := by
    intro c hc
    simp only [firstMessage, List.cons_append, List.nil_append, List.mem_cons, List.not_mem_nil,
      or_false] at hc
    rcases hc with rfl | rfl | rfl
    · exact ⟨trivial, hplain, hplain, (fun _ ht => absurd ht (Option.not_mem_none _)), hplain⟩
    · exact ⟨trivial, hplain, trivial⟩
    · exact ⟨trivial, hplain, trivial⟩
  have hwritten : writtenMessages "a"
      ((fresh .standard (.ofKey []) (.counting 0)).history firstMessage)
      = [.plain .user "hello" .epoch] := by
    decide +kernel
  have hclear : ∀ m ∈ writtenMessages "a"
      ((fresh .standard (.ofKey []) (.counting 0)).history firstMessage),
      ∀ n plain, ¬ ContentCipher.Encrypts (.ofKey key) n plain m.content := by
    intro m hm n plain h
    rw [hwritten, List.mem_singleton] at hm
    rw [hm] at h
    have hdecrypt : (ContentCipher.ofKey key).decrypt "hello" = .ok plain :=
      ContentCipher.decrypt_encrypt h.draws
    have hrefused : ((ContentCipher.ofKey key).decrypt "hello").isOk = false := by decide +kernel
    rw [hdecrypt] at hrefused
    cases hrefused
  obtain ⟨hget, hshows⟩ := messages_after_rekey .standard (.counting 0) firstMessage
    [⟨.epoch, .addMessage "a" (.plain .user "again" .epoch)⟩] hcalls key hkey .epoch
  obtain ⟨session, hsession, hmessages⟩ := hget "a" (by decide +kernel) hclear .epoch
  refine ⟨⟨session, hsession, ?_⟩, hshows _ .epoch .epoch⟩
  rw [hmessages]
  decide +kernel

end Store

end ChatArchive
