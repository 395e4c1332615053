import ChatArchive.Proofs.Answers
import ChatArchive.Proofs.Rows

/-!
# What loading shows under any cipher

Loading decides about each message by itself, from its stored text and the cipher alone:
what can be decrypted is shown decrypted, and anything else as it is stored. So a cipher
that has nothing to do with what was stored still shows every message, with all its other
fields, and the number of texts that were passed through is told in one warning for each
document.
-/

namespace ChatArchive

/-- The number of messages of a stored session that a cipher does not decrypt. -/
def StoredSession.undecrypted (cipher : ContentCipher) (x : StoredSession) : Nat :=
  x.messages.countP fun s => !(cipher.decrypt s.content).isOk

/-- The warning that tells of them, if there are any. -/
def StoredSession.warnings (cipher : ContentCipher) (x : StoredSession) : List Event :=
  if x.undecrypted cipher = 0 then [] else [Store.fallbackEvent x.id (x.undecrypted cipher)]

/-- A stored message has all fields of a message but the content. -/
def Message.KeptIn (m : Message) (s : StoredMessage) : Prop :=
  s = ⟨s.content, m.time, m.sender, m.fileId, m.fileUrl, m.labels⟩

/-- A session shows these messages of a stored session under a cipher: each with all its
fields, and its content decrypted or else as it is stored. -/
structure Session.Shows (cipher : ContentCipher) (messages : List Message) (x : StoredSession)
    (session : Session) : Prop where
  id : session.id = x.id
  fields : List.Forall₂ (fun m v => v = { m with content := v.content }) messages session.messages
  contents : List.Forall₂ (fun s v => cipher.decrypt s.content = .ok v.content ∨
    (cipher.decrypt s.content).isOk = false ∧ v.content = s.content) x.messages session.messages

section

variable {cipher : ContentCipher} {m : Message} {s : StoredMessage} {x : StoredSession}

theorem Message.keptIn_of_draws (h : ContentCipher.Draws (m.toStored cipher) s) : m.KeptIn s := by
  obtain ⟨content, -, h⟩ := ContentCipher.draws_bind h
  rw [ContentCipher.draws_pure h]
  rfl

theorem ContentCipher.reveal_cases (cipher : ContentCipher) (stored : String) :
    cipher.decrypt stored = .ok (cipher.reveal stored).1 ∧ (cipher.reveal stored).2 = false ∨
      (cipher.decrypt stored).isOk = false ∧ cipher.reveal stored = (stored, true) := by
  rw [reveal]
  cases cipher.decrypt stored with
  | ok plain => exact Or.inl ⟨rfl, rfl⟩
  | error e => exact Or.inr ⟨rfl, rfl⟩

theorem StoredSession.fallbacks_eq (cipher : ContentCipher) (x : StoredSession) :
    x.fallbacks cipher = x.undecrypted cipher := by
  refine List.countP_congr fun s _ => ?_
  rcases cipher.reveal_cases s.content with ⟨hok, hshown⟩ | ⟨herror, hshown⟩
  · rw [hshown, hok]
    exact Iff.rfl
  · rw [hshown, herror]
    exact Iff.rfl

theorem Store.revealEvents_eq (cipher : ContentCipher) (x : StoredSession) :
    revealEvents cipher x = x.warnings cipher := by
  rw [revealEvents, x.fallbacks_eq, StoredSession.warnings]
  cases x.undecrypted cipher with
  | zero => rfl
  | succ n => rfl

/-- Under every cipher a stored session shows the messages that it was made from. -/
theorem StoredSession.shows_toSession {messages : List Message}
    (h : List.Forall₂ Message.KeptIn messages x.messages) (cipher : ContentCipher) :
    Session.Shows cipher messages x (x.shown.toSession cipher) where
  id := rfl
  fields := by
    refine List.forall₂_map_right_iff.2 (h.imp fun m s hkept => ?_)
    rw [hkept]
    rfl
  contents := by
    refine List.forall₂_map_right_iff.2 (List.forall₂_same.2 fun s _ => ?_)
    exact (cipher.reveal_cases s.content).imp And.left
      fun hshown => ⟨hshown.1, congrArg Prod.fst hshown.2⟩

end

namespace Store

variable {s : Store} {now : Time.Timestamp} {x : StoredSession} {row : Row} {id : String}

/-! ## Loading -/

/-- A readable row is loaded, with a warning if content of it is not decrypted. -/
theorem perform_load (h : row.toStored = .ok x) (s : Store) :
    s.perform (load row) = (.ok (x.toSession s.cipher),
      { s with events := s.events ++ x.warnings s.cipher }) := by
  rw [load, h, perform_bind_ok (perform_ofExcept_ok s x), perform_bind_ok (perform_getThe s),
    perform_bind_ok (perform_forM_report _ s), perform_pure, revealEvents_eq]

theorem perform_loads {rows : List Row} {xs : List StoredSession}
    (h : List.Forall₂ (fun row x => row.toStored = .ok x) rows xs) (s : Store) :
    s.perform (rows.mapM load) = (.ok (xs.map (StoredSession.toSession s.cipher)),
      { s with events := s.events ++ xs.flatMap (StoredSession.warnings s.cipher) }) := by
  induction h generalizing s with
  | nil => rw [List.mapM_nil, perform_pure, List.flatMap_nil, List.append_nil]; rfl
  | @cons row x rows xs hrow _ ih =>
      rw [List.mapM_cons, perform_bind_ok (perform_load hrow s), perform_bind_ok (ih _),
        perform_pure, List.flatMap_cons, List.append_assoc]
      rfl

/-- The row of an id is loaded, and nothing else happens. -/
theorem step_get (hopen : s.closed = false) (hid : id ≠ "") (hrow : s.table.row? id = some row)
    (h : row.toStored = .ok x) (now : Time.Timestamp) :
    s.step now (.get id) = (.ok (.session (x.toSession s.cipher)), { s with events := [] },
      x.warnings s.cipher) := by
  have hask : Store.perform { s with events := [] }
      (asking "get_session" (·.defaultSecs) fun table => .ok (table.row? id))
      = (.ok (some row), { s with events := [] }) := perform_asking_ok hopen (by rw [← hrow])
  have hget : Store.perform { s with events := [] } (get id)
      = (.ok (x.toSession s.cipher), { s with events := x.warnings s.cipher }) := by
    rw [get, if_neg (by rwa [String.isEmpty_iff]), perform_bind_ok hask]
    exact perform_load h _
  rw [step, run, map_eq_pure_bind, perform_bind_ok hget, perform_pure]

/-- The rows of a page of active sessions are loaded in their order. -/
theorem step_active (hopen : s.closed = false) {xs : List StoredSession}
    (h : List.Forall₂ (fun row x => row.toStored = .ok x) s.activeRows xs)
    (now : Time.Timestamp) :
    s.step now .active = (.ok (.sessions (xs.map (StoredSession.toSession s.cipher))),
      { s with events := [] }, xs.flatMap (StoredSession.warnings s.cipher)) := by
  have hactive : Store.perform { s with events := [] } active
      = (.ok (xs.map (StoredSession.toSession s.cipher)),
        { s with events := xs.flatMap (StoredSession.warnings s.cipher) }) := by
    rw [active, perform_bind_ok (perform_getThe _)]
    refine Eq.trans (perform_bind_ok (a := s.activeRows) ?_)
      (perform_loads h { s with events := [] })
    exact perform_asking_ok hopen rfl
  rw [step, run, map_eq_pure_bind, perform_bind_ok hactive, perform_pure]

end Store

end ChatArchive
