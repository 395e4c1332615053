import ChatArchive.Proofs.Orders

/-!
# Messages that are added one by one

A session can be created with its messages or without any, and then get them one by one.
Creation encrypts the messages in a row and writes them as one array; an addition encrypts
one message and puts it behind those that the column has. From the same nonces both ways
encrypt the same messages to the same texts, and the column is the same text in the end.

The rows differ in what time does to them: an addition sets the last activity, and an
active session is as long as it has lasted when its row is created. So a session may be
readable the one way and not the other, if an activity has no plain year.
-/

namespace ChatArchive

open Cipher Time

/-- The time of the last of some additions. -/
def lastAddition (additions : List (Timestamp × Message)) : Option Timestamp :=
  additions.getLast?.map (·.1)

/-- A session after some additions, as far as its times show them. -/
def Session.activeAt (additions : List (Timestamp × Message)) (session : Session) : Session :=
  { session with lastActivity := (lastAddition additions).getD session.lastActivity }

/-- A stored session with more messages, the last one added at this time. -/
def StoredSession.extended (messages : List StoredMessage) (last : Option Timestamp)
    (x : StoredSession) : StoredSession :=
  { x with messages := x.messages ++ messages, lastActivity := last.or x.lastActivity }

/-- Messages that a cipher encrypts to these, with these nonces, and the nonces left then. -/
def ContentCipher.Seals (cipher : ContentCipher) (nonces : Nonces) (messages : List Message)
    (stored : List StoredMessage) (after : Nonces) : Prop :=
  (messages.mapM (Message.toStored cipher)).run.run nonces = (.ok stored, after)

theorem lastAddition_cons (t : Timestamp) (m : Message)
    (additions : List (Timestamp × Message)) :
    lastAddition ((t, m) :: additions) = (lastAddition additions).or (some t) := by
  rw [lastAddition, lastAddition, List.getLast?_cons]
  cases additions.getLast? <;> rfl

theorem StoredSession.extended_nil (x : StoredSession) : x.extended [] none = x := by
  rw [extended, List.append_nil, Option.none_or]

theorem StoredSession.extended_cons (m : StoredMessage) (messages : List StoredMessage)
    (t : Timestamp) (last : Option Timestamp) (x : StoredSession) :
    (x.withMessage m t).extended messages last
      = x.extended (m :: messages) (last.or (some t)) := by
  rw [extended, extended, withMessage, List.append_assoc, Option.or_assoc, Option.some_or]
  rfl

/-- The times of a stored session are those of the session. -/
theorem hasPlainYears_storedWith (now : Timestamp) (figures : Int64 × Int64)
    (messages : List StoredMessage) (session : Session) :
    (session.storedWith now figures messages).HasPlainYears ↔ session.HasPlainYears := by
  constructor
  · rintro ⟨hstart, hend, hactive⟩
    exact ⟨hstart, hend, hactive _ rfl⟩
  · rintro ⟨hstart, hend, hactive⟩
    refine ⟨hstart, hend, fun t ht => ?_⟩
    cases ht
    exact hactive

namespace ContentCipher

variable {cipher : ContentCipher} {nonces after : Nonces} {m : Message} {messages : List Message}
  {stored : List StoredMessage}

theorem seals_nil : cipher.Seals nonces [] stored after ↔ stored = [] ∧ after = nonces := by
  rw [Seals, List.mapM_nil]
  constructor
  · intro h
    cases h
    exact ⟨rfl, rfl⟩
  · rintro ⟨rfl, rfl⟩
    rfl

theorem seals_cons :
    cipher.Seals nonces (m :: messages) stored after ↔
      ∃ y between ys, (m.toStored cipher).run.run nonces = (.ok y, between) ∧
        cipher.Seals between messages ys after ∧ stored = y :: ys := by
  rw [Seals, List.mapM_cons, run_bind_eq_ok]
  refine exists_congr fun y => exists_congr fun between => ?_
  rw [run_bind_eq_ok]
  constructor
  · rintro ⟨hy, ys, last, hys, hstored⟩
    cases hstored
    exact ⟨ys, hy, hys, rfl⟩
  · rintro ⟨ys, hy, hys, rfl⟩
    exact ⟨hy, ys, after, hys, rfl⟩

theorem exists_seals (h : ∀ m ∈ messages, cipher.Encryptable m.content) (nonces : Nonces) :
    ∃ stored after, cipher.Seals nonces messages stored after := by
  obtain ⟨stored, hstored⟩ := exists_drawsFrom h nonces
  exact ⟨stored, _, Prod.ext hstored rfl⟩

/-- What messages are encrypted to is decrypted to them. -/
theorem Seals.opens (h : cipher.Seals nonces messages stored after) :
    stored.map (StoredMessage.toMessage cipher) = messages :=
  Message.map_toMessage (draws_mapM ⟨nonces, after, h⟩)

end ContentCipher

namespace Store

variable {s : Store} {now now' t : Timestamp} {id : String} {session : Session} {m : Message}
  {front : List Row} {x : StoredSession} {y : StoredMessage} {after : Nonces}
  {additions : List (Timestamp × Message)}

/-- All of some calls succeed. -/
def Accepts (s : Store) (calls : List Call) : Prop :=
  ∀ r ∈ s.history calls, ∃ answer, r.2 = .ok answer

/-- The calls that add messages to a session, each at a time. -/
def addingTo (id : String) (additions : List (Timestamp × Message)) : List Call :=
  additions.map fun a => ⟨a.1, .addMessage id a.2⟩

/-- A session is created with all its messages. -/
def inBulk (now : Timestamp) (session : Session) : List Call := [⟨now, .create session⟩]

/-- A session is created without messages, and then messages are added to it. -/
def oneByOne (now : Timestamp) (session : Session) (additions : List (Timestamp × Message)) :
    List Call :=
  ⟨now, .create { session with messages := [] }⟩ :: addingTo session.id additions

/-- The session of an id is loaded exactly if its times have plain years, and then with
its messages. -/
structure Loads (s : Store) (session : Session) : Prop where
  readable : ∀ now, (∃ loaded, (s.step now (.get session.id)).1 = .ok (.session loaded)) ↔
    session.HasPlainYears
  messages : ∀ now loaded, (s.step now (.get session.id)).1 = .ok (.session loaded) →
    loaded.messages = session.messages

theorem accepts_nil (s : Store) : s.Accepts [] := fun _ hr => absurd hr List.not_mem_nil

theorem accepts_cons {c : Call} {calls : List Call} :
    s.Accepts (c :: calls) ↔
      s.Succeeds c ∧ (s.step c.now c.operation).2.1.Accepts calls := List.forall_mem_cons

theorem accepts_inBulk : s.Accepts (inBulk now session) ↔ s.Succeeds ⟨now, .create session⟩ :=
  accepts_cons.trans (and_iff_left (accepts_nil _))

/-! ## Creating a session -/

theorem ordered_of_validate (h : validate x = .ok ()) :
    ∀ finish ∈ x.endTime, ¬ finish < x.startTime := by
  intro finish hfinish hbefore
  rw [validate_eq_error (id_ne_of_validate h) hfinish hbefore] at h
  cases h

theorem validate_of_valid (hvalid : session.Valid s.cipher) (figures : Int64 × Int64)
    (messages : List StoredMessage) :
    validate (session.storedWith now figures messages) = .ok () :=
  validate_eq_ok hvalid.named fun finish hfinish hbefore =>
    hvalid.ordered ⟨finish, hfinish, hbefore⟩

section

variable (session) (hopen : s.closed = false) (hrefusal : s.table.refusal = none)
  (hnew : s.table.row? session.id = none)

include hopen hrefusal hnew

/-- A session that can be created gets a row behind the others, and its messages move the
nonces of the store. -/
theorem step_create_seals {figures : Int64 × Int64} {stored : List StoredMessage}
    (hvalid : session.Valid s.cipher)
    (hfigures : responseFigures session.responseTimes = some figures)
    (hseals : s.cipher.Seals s.nonces session.messages stored after) (now : Timestamp) :
    s.step now (.create session) = (.ok .nothing, { s with
      nonces := after
      table := { s.table with
        rows := s.table.rows ++ [Row.ofStored (session.storedWith now figures stored)] }
      counters := s.counters.create session.endTime.isNone
      events := [] }, []) := by
  have hdrawing : session.toStored s.cipher now = some (do
      let messages ← session.messages.mapM (Message.toStored s.cipher)
      pure (session.storedWith now figures messages)) :=
    Option.bind_eq_some_iff.2 ⟨figures, hfigures, rfl⟩
  have hencrypt := perform_encrypting_run (s := { s with events := [] })
    (run_bind_eq_ok.2 ⟨stored, after, hseals, rfl⟩ :
      (session.messages.mapM (Message.toStored s.cipher) >>= fun messages =>
        pure (session.storedWith now figures messages)).run.run s.nonces
          = (.ok (session.storedWith now figures stored), after))
  have hprepare : Store.perform { s with events := [] } (prepare now session)
      = (.ok (session.storedWith now figures stored),
        { s with nonces := after, events := [] }) := by
    rw [prepare, perform_bind_ok (perform_getThe _), hdrawing]
    refine (perform_bind_ok hencrypt).trans ?_
    rw [validate_of_valid hvalid]
    rfl
  have hpermit : s.table.permit .insert = .ok () := by rw [Table.permit, hrefusal]
  exact step_create_prepared hopen hpermit hnew hprepare

theorem succeeds_create_iff (now : Timestamp) :
    s.Succeeds ⟨now, .create session⟩ ↔ session.Valid s.cipher := by
  constructor
  · rintro ⟨answer, hok⟩
    rcases perform_create now session { s with events := [] } with
      ⟨stored, pauses, table, nonces, events, hstored, hvalid, -⟩ | ⟨e, nonces, events, hcreate⟩
    · obtain ⟨hfigures, hsealable⟩ := Session.exists_storedFrom_iff.1 ⟨stored, hstored⟩
      have hordered := ordered_of_validate hvalid
      rw [hstored.storedAs.endTime, hstored.storedAs.startTime] at hordered
      refine ⟨?_, fun hends => ?_, hfigures, hsealable⟩
      · rw [← hstored.storedAs.id]
        exact id_ne_of_validate hvalid
      · obtain ⟨finish, hfinish, hbefore⟩ := hends
        exact hordered finish hfinish hbefore
    · rw [step, run, perform_bind_error hcreate] at hok
      cases hok
  · intro hvalid
    obtain ⟨figures, hfigures⟩ := Option.isSome_iff_exists.1 hvalid.measured
    obtain ⟨stored, after, hseals⟩ := ContentCipher.exists_seals hvalid.sealable s.nonces
    have hstep := step_create_seals session hopen hrefusal hnew hvalid hfigures hseals now
    exact ⟨.nothing, congrArg Prod.fst hstep⟩

end

/-! ## Adding messages -/

/-- The last row of a store is that of a session, and no other row has its id. -/
structure EndsWith (s : Store) (front : List Row) (x : StoredSession) : Prop where
  opened : s.closed = false
  refusal : s.table.refusal = none
  rows : s.table.rows = front ++ [Row.ofStored x]
  others : ∀ row ∈ front, row.id ≠ x.id
  named : x.id ≠ ""

/-- A message is put into the last row. -/
theorem EndsWith.appending (h : s.EndsWith front x) (y : StoredMessage) (t : Timestamp) :
    Store.appending x.id y t.toColumn s.table = .ok (1,
      { s.table with rows := front ++ [Row.ofStored (x.withMessage y t)] }) := by
  have hcount : s.table.rows.countP (·.id = x.id) = 1 := by
    have hnone : front.countP (·.id = x.id) = 0 :=
      List.countP_eq_zero.2 fun row hrow => by simpa using h.others row hrow
    rw [h.rows, List.countP_append, hnone, List.countP_singleton, if_pos (by simp [Row.ofStored])]
  have hlast : s.table.reach [.messages, .lastActivity] (·.id = x.id)
      (appendedRow (StoredMessage.encoding.write y) t.toColumn) (Row.ofStored x)
      = .ok (Row.ofStored (x.withMessage y t)) := by
    rw [Table.reach_permitted (Table.permit_unrefused h.refusal _)
      (Row.appendedRow_ofStored y t x), if_pos (by simp [Row.ofStored])]
  have hfront : List.Forall₂ (fun row row' => s.table.reach [.messages, .lastActivity]
      (·.id = x.id) (appendedRow (StoredMessage.encoding.write y) t.toColumn) row = .ok row')
      front front := by
    refine List.forall₂_same.2 fun row hrow => ?_
    rw [Table.reach, if_neg (by simpa using h.others row hrow)]
    rfl
  have hupdate : s.table.update [.messages, .lastActivity] (·.id = x.id)
      (appendedRow (StoredMessage.encoding.write y) t.toColumn) = .ok (1,
        { s.table with rows := front ++ [Row.ofStored (x.withMessage y t)] }) := by
    refine Except.bind_eq_ok.2 ⟨_, mapM_eq_ok.2 ?_, by rw [hcount]; rfl⟩
    rw [h.rows]
    exact List.rel_append hfront (.cons hlast .nil)
  rw [Store.appending, hupdate]

/-- A message that can be encrypted is added to the last row. -/
theorem EndsWith.step (h : s.EndsWith front x)
    (hrun : (m.toStored s.cipher).run.run s.nonces = (.ok y, after)) (t : Timestamp) :
    s.step t (.addMessage x.id m) = (.ok .nothing, { s with
      nonces := after
      table := { s.table with rows := front ++ [Row.ofStored (x.withMessage y t)] }
      events := [] }, []) := by
  have hencrypt := perform_encrypting_run (s := { s with events := [] }) hrun
  have hretry : Store.perform { s with nonces := after, events := [] }
      (retrying "add_message" (·.messageAddSecs) (Store.appending x.id y t.toColumn)) = (.ok 1,
      { s with
        nonces := after
        table := { s.table with rows := front ++ [Row.ofStored (x.withMessage y t)] }
        events := [] }) := perform_retrying_ok h.opened (h.appending y t) rfl
  have hadd : Store.perform { s with events := [] } (addMessage t x.id m) = (.ok (), { s with
      nonces := after
      table := { s.table with rows := front ++ [Row.ofStored (x.withMessage y t)] }
      events := [] }) := by
    rw [perform_addMessage_named h.named, perform_bind_ok hencrypt, perform_bind_ok hretry,
      if_neg Nat.one_ne_zero, perform_pure]
  rw [Store.step, run, perform_bind_ok hadd, perform_pure]

/-- Messages that are encrypted in a row are added to the last row one by one. -/
theorem EndsWith.after_adding {stored : List StoredMessage} (h : s.EndsWith front x)
    (hevents : s.events = [])
    (hseals : s.cipher.Seals s.nonces (additions.map (·.2)) stored after) :
    s.Accepts (addingTo x.id additions) ∧
      s.after (addingTo x.id additions) = { s with
        nonces := after
        table := { s.table with rows := front ++
          [Row.ofStored (x.extended stored (lastAddition additions))] } } := by
  -- each addition leaves a store that ends with the session and the messages so far
  induction additions generalizing s x stored with
  | nil =>
      obtain ⟨rfl, rfl⟩ := ContentCipher.seals_nil.1 hseals
      refine ⟨accepts_nil s, ?_⟩
      rw [lastAddition, List.getLast?_nil, Option.map_none, x.extended_nil, ← h.rows]
      rfl
  | cons a additions ih =>
      obtain ⟨t, m⟩ := a
      obtain ⟨y, between, ys, hy, hys, rfl⟩ := ContentCipher.seals_cons.1 hseals
      have hstep := h.step hy t
      have hnext : EndsWith (s.step t (.addMessage x.id m)).2.1 front (x.withMessage y t) := by
        rw [hstep]
        exact ⟨h.opened, h.refusal, rfl, h.others, h.named⟩
      have hquiet : (s.step t (.addMessage x.id m)).2.1.events = [] := by rw [hstep]
      have hsealed : (s.step t (.addMessage x.id m)).2.1.cipher.Seals
          (s.step t (.addMessage x.id m)).2.1.nonces (additions.map (·.2)) ys after := by
        rw [hstep]
        exact hys
      have hrest := ih hnext hquiet hsealed
      rw [lastAddition_cons, ← StoredSession.extended_cons]
      refine ⟨accepts_cons.2 ⟨⟨.nothing, congrArg Prod.fst hstep⟩, hrest.1⟩, ?_⟩
      refine hrest.2.trans ?_
      rw [hstep, hevents]

theorem step_cipher (s : Store) (now : Timestamp) (operation : Operation)
    (h : operation.IsOrdinary) : (s.step now operation).2.1.cipher = s.cipher := by
  obtain ⟨nonces, table, counters, events, hrun, -⟩ := perform_run now h { s with events := [] }
  show ({ (Store.perform { s with events := [] } (run now operation)).2 with
    events := [] } : Store).cipher = s.cipher
  rw [hrun]

/-- Messages that were added could be encrypted. -/
theorem encryptable_of_accepts (h : s.Accepts (addingTo id additions)) :
    ∀ a ∈ additions, s.cipher.Encryptable a.2.content := by
  induction additions generalizing s with
  | nil => exact fun a ha => absurd ha List.not_mem_nil
  | cons a additions ih =>
      obtain ⟨⟨answer, hok⟩, hrest⟩ := accepts_cons.1 h
      refine List.forall_mem_cons.2 ⟨?_, ?_⟩
      · rcases perform_addMessage a.1 id a.2 { s with events := [] } with
          ⟨y, n, pauses, table, nonces, events, hy, -⟩ | ⟨e, nonces, events, hadd⟩
        · exact ContentCipher.encryptable_of_draws hy.draws
        · rw [Store.step, run, perform_bind_error hadd] at hok
          cases hok
      · rw [← step_cipher s a.1 (.addMessage id a.2) trivial]
        exact ih hrest

/-! ## Both ways -/

/-- The session of a row is loaded exactly if its times have plain years, and then with its
messages. -/
theorem loads_of_row (session : Session) {figures : Int64 × Int64} {stored : List StoredMessage}
    (hopen : s.closed = false) (hid : session.id ≠ "")
    (hrow : s.table.row? session.id
      = some (Row.ofStored (session.storedWith now figures stored)))
    (hopens : stored.map (StoredMessage.toMessage s.cipher) = session.messages) :
    s.Loads session where
  readable later := by
    simp only [step_get_row hopen hid hrow, Answer.session.injEq, hasPlainYears_storedWith,
      exists_and_left, exists_eq, and_true]
  messages later loaded hok := by
    obtain ⟨-, hloaded⟩ := (step_get_row hopen hid hrow).1 hok
    cases hloaded
    exact hopens

section

variable (hopen : s.closed = false) (hrefusal : s.table.refusal = none)
  (hnew : s.table.row? session.id = none)

include hopen hrefusal hnew

/-- A session that is created without messages gets those that are added, in the order of
the additions, and the last of these is when it was active last. -/
theorem after_oneByOne {figures : Int64 × Int64} {stored : List StoredMessage}
    (hvalid : session.Valid s.cipher)
    (hfigures : responseFigures session.responseTimes = some figures)
    (hadditions : additions.map (·.2) = session.messages)
    (hseals : s.cipher.Seals s.nonces session.messages stored after) (now : Timestamp) :
    s.Accepts (oneByOne now session additions) ∧
      s.after (oneByOne now session additions) = { s with
        nonces := after
        table := { s.table with rows := s.table.rows ++
          [Row.ofStored ((session.activeAt additions).storedWith now figures stored)] }
        counters := s.counters.create session.endTime.isNone
        events := [] } := by
  have hempty : ({ session with messages := [] } : Session).Valid s.cipher :=
    ⟨hvalid.named, hvalid.ordered, hvalid.measured, fun m hm => absurd hm List.not_mem_nil⟩
  have hstep := step_create_seals { session with messages := [] } hopen hrefusal hnew hempty
    hfigures (ContentCipher.seals_nil.2 ⟨rfl, rfl⟩) now
  have hothers : ∀ row ∈ s.table.rows, row.id ≠ session.id := fun row hrow hid =>
    List.find?_eq_none.1 hnew row hrow (decide_eq_true hid)
  have hends : EndsWith (s.step now (.create { session with messages := [] })).2.1 s.table.rows
      (session.storedWith now figures []) := by
    rw [hstep]
    exact ⟨hopen, hrefusal, rfl, hothers, hvalid.named⟩
  have hextended : (session.storedWith now figures []).extended stored (lastAddition additions)
      = (session.activeAt additions).storedWith now figures stored := by
    rw [StoredSession.extended, Session.storedWith, Option.or_some]
    rfl
  have hquiet : (s.step now (.create { session with messages := [] })).2.1.events = [] := by
    rw [hstep]
  have hsealed : (s.step now (.create { session with messages := [] })).2.1.cipher.Seals
      (s.step now (.create { session with messages := [] })).2.1.nonces (additions.map (·.2))
      stored after := by
    rw [hstep, hadditions]
    exact hseals
  obtain ⟨haccepts, hafter⟩ := hends.after_adding hquiet hsealed
  refine ⟨accepts_cons.2 ⟨⟨.nothing, congrArg Prod.fst hstep⟩, haccepts⟩, ?_⟩
  refine hafter.trans ?_
  rw [hstep, hextended]

theorem accepts_oneByOne_iff (hadditions : additions.map (·.2) = session.messages)
    (now : Timestamp) :
    s.Accepts (oneByOne now session additions) ↔ session.Valid s.cipher := by
  constructor
  · intro h
    obtain ⟨hcreated, hadded⟩ := accepts_cons.1 h
    have hempty := (succeeds_create_iff { session with messages := [] } hopen hrefusal hnew
      now).1 hcreated
    refine ⟨hempty.named, hempty.ordered, hempty.measured, fun m hm => ?_⟩
    rw [← hadditions] at hm
    obtain ⟨a, ha, rfl⟩ := List.mem_map.1 hm
    have hsealable := encryptable_of_accepts hadded a ha
    rwa [step_cipher s now (.create { session with messages := [] }) trivial] at hsealable
  · intro hvalid
    obtain ⟨figures, hfigures⟩ := Option.isSome_iff_exists.1 hvalid.measured
    obtain ⟨stored, after, hseals⟩ := ContentCipher.exists_seals hvalid.sealable s.nonces
    exact (after_oneByOne hopen hrefusal hnew hvalid hfigures hadditions hseals now).1

end

/-- In a store that has no row of its id and lets statements through, under any cipher and
from any nonces, a session can be created with all its messages exactly if it can be created
without them and they can be added one by one. Both ways leave the same text of messages
and the same nonces, and rows that differ at most in the last activity and the duration, in
this only if the session is active and was not created at the same time. Loading shows the
same messages, each way exactly if the times that the row has then have plain years. -/
theorem one_by_one_as_in_bulk (s : Store) (hopen : s.closed = false)
    (hrefusal : s.table.refusal = none) (session : Session)
    (hnew : s.table.row? session.id = none) (now now' : Timestamp)
    (additions : List (Timestamp × Message))
    (hadditions : additions.map (·.2) = session.messages) :
    (s.Accepts (inBulk now session) ↔ session.Valid s.cipher) ∧
    (s.Accepts (oneByOne now' session additions) ↔ session.Valid s.cipher) ∧
    (session.Valid s.cipher → ∃ row row' : Row,
      (s.after (inBulk now session)).table.rows = s.table.rows ++ [row] ∧
      (s.after (oneByOne now' session additions)).table.rows = s.table.rows ++ [row'] ∧
      row' = { row with duration := row'.duration, lastActivity := row'.lastActivity } ∧
      (session.endTime.isSome ∨ now' = now → row'.duration = row.duration) ∧
      (s.after (oneByOne now' session additions)).nonces
        = (s.after (inBulk now session)).nonces ∧
      (s.after (inBulk now session)).Loads session ∧
      (s.after (oneByOne now' session additions)).Loads (session.activeAt additions)) := by
  refine ⟨accepts_inBulk.trans (succeeds_create_iff session hopen hrefusal hnew now),
    accepts_oneByOne_iff hopen hrefusal hnew hadditions now', fun hvalid => ?_⟩
  obtain ⟨figures, hfigures⟩ := Option.isSome_iff_exists.1 hvalid.measured
  obtain ⟨stored, after, hseals⟩ := ContentCipher.exists_seals hvalid.sealable s.nonces
  have hbulk : s.after (inBulk now session) = _ :=
    congrArg (·.2.1) (step_create_seals session hopen hrefusal hnew hvalid hfigures hseals now)
  have hsingle := (after_oneByOne hopen hrefusal hnew hvalid hfigures hadditions hseals now').2
  rw [hbulk, hsingle]
  refine ⟨_, _, rfl, rfl, rfl, fun hsame => ?_, rfl, ?_, ?_⟩
  · show durationSecs session.startTime (session.endTime.getD now')
      = durationSecs session.startTime (session.endTime.getD now)
    rcases hsame with hended | rfl
    · obtain ⟨finish, hfinish⟩ := Option.isSome_iff_exists.1 hended
      rw [hfinish]
      rfl
    · rfl
  · exact loads_of_row session hopen hvalid.named (row?_concat hnew) hseals.opens
  · exact loads_of_row (session.activeAt additions) hopen hvalid.named (row?_concat hnew)
      hseals.opens

/-- A session with two messages. -/
def twoLines : Session :=
  { Session.start "a" "u" .epoch with
    messages := [.plain .user "hello" .epoch, .plain .ai "hi" .epoch] }

/-- Its messages, each added at a time of its own. -/
def twoLinesLater : List (Timestamp × Message) :=
  [(.epoch, .plain .user "hello" .epoch), (tenThousand, .plain .ai "hi" .epoch)]

theorem one_by_one_as_in_bulk_twoLines :
    let s := fresh .standard (.ofKey (List.replicate 16 7)) (.counting 5)
    s.Accepts (inBulk .epoch twoLines) ∧ s.Accepts (oneByOne .epoch twoLines twoLinesLater) ∧
      (s.after (oneByOne .epoch twoLines twoLinesLater)).table.rows.map (·.messages)
        = (s.after (inBulk .epoch twoLines)).table.rows.map (·.messages) ∧
      (∃ loaded, ((s.after (inBulk .epoch twoLines)).step .epoch (.get "a")).1
        = .ok (.session loaded) ∧ loaded.messages = twoLines.messages) ∧
      ¬ ∃ loaded, ((s.after (oneByOne .epoch twoLines twoLinesLater)).step .epoch (.get "a")).1
        = .ok (.session loaded) := by
  intro s
  have hvalid : twoLines.Valid s.cipher := by
    refine ⟨by decide, ?_, rfl, fun m hm => ?_⟩
    · rintro ⟨finish, hfinish, -⟩
      cases hfinish
    · simp only [twoLines, List.mem_cons, List.not_mem_nil, or_false] at hm
      have hkey : (List.replicate 16 7 : List UInt8) = [] ∨
          (List.replicate 16 7 : List UInt8).length ∈ ContentCipher.keySizes :=
        Or.inr (by decide)
      refine (ContentCipher.encryptable_ofKey hkey).2 (Or.inr ?_)
      rcases hm with rfl | rfl <;> decide +kernel
  have hepoch : Timestamp.epoch.HasPlainYear := by decide
  have hplain : twoLines.HasPlainYears := ⟨hepoch, fun t ht => (by cases ht), hepoch⟩
  have hlate : ¬ (twoLines.activeAt twoLinesLater).HasPlainYears :=
    fun h => absurd h.lastActivity (by decide)
  obtain ⟨hbulk, hsingle, h⟩ := one_by_one_as_in_bulk s rfl rfl twoLines rfl .epoch .epoch
    twoLinesLater rfl
  obtain ⟨row, row', hrow, hrow', hsame, -, -, hloads, hloads'⟩ := h hvalid
  obtain ⟨loaded, hloaded⟩ := (hloads.readable .epoch).2 hplain
  refine ⟨hbulk.2 hvalid, hsingle.2 hvalid, ?_, ⟨loaded, hloaded, hloads.messages _ _ hloaded⟩,
    fun hread => hlate ((hloads'.readable _).1 hread)⟩
  rw [hrow, hrow', List.map_append, List.map_append, hsame]
  rfl

/-- A session with a message that was active last in the year 10000. -/
def lateActivity : Session :=
  { Session.start "a" "u" .epoch with
    messages := [.plain .user "hello" .epoch]
    lastActivity := tenThousand }

/-- A session that was active last in the year 10000 is accepted both ways, but it cannot
be loaded if it was created with its messages. -/
theorem one_by_one_loaded_alone :
    ¬ ∀ (s : Store) (session : Session) (now : Timestamp)
        (additions : List (Timestamp × Message)), s.closed = false → s.table.refusal = none →
      s.table.row? session.id = none → additions.map (·.2) = session.messages →
      s.Accepts (inBulk now session) → s.Accepts (oneByOne now session additions) →
      ∃ loaded loaded',
        ((s.after (inBulk now session)).step now (.get session.id)).1 = .ok (.session loaded) ∧
        ((s.after (oneByOne now session additions)).step now (.get session.id)).1
          = .ok (.session loaded') ∧ loaded.messages = loaded'.messages := by
  intro h
  have hvalid : lateActivity.Valid .disabled := by
    refine ⟨by decide, ?_, rfl, fun _ _ => trivial⟩
    rintro ⟨finish, hfinish, -⟩
    cases hfinish
  obtain ⟨loaded, -, hloaded, -⟩ := h (fresh .standard .disabled (.counting 0)) lateActivity .epoch
    [(.epoch, .plain .user "hello" .epoch)] rfl rfl rfl rfl
    (accepts_inBulk.2 ((succeeds_create_iff lateActivity rfl rfl rfl .epoch).2 hvalid))
    ((accepts_oneByOne_iff rfl rfl rfl rfl .epoch).2 hvalid)
  have hfails : (((fresh .standard .disabled (.counting 0)).after (inBulk .epoch lateActivity)).step
      .epoch (.get "a")).1.isOk = false := by
    decide +kernel
  rw [show lateActivity.id = "a" from rfl] at hloaded
  rw [hloaded] at hfails
  cases hfails

end Store

end ChatArchive
