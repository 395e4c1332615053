import ChatArchive.Proofs.Creation
import ChatArchive.Proofs.Disclosure
import ChatArchive.Proofs.SavingBack

/-!
# Whether an id has a row

Whether an id is taken is found out in five ways: by the rule that ids are unique, by the
rows that a statement of a transaction changed, by the rows that a message was added to, by
a second look for a session that has ended, and by reading. Each of them is an operation on
one id, and `Answered` says for all of them alike how it ends by whether the id has a row:
where statements are not refused and columns can be read, nothing else matters.

A session that cannot be stored is refused before any of this. It may have no id, or bring
more than a key encrypts.
-/

namespace ChatArchive

open Time

namespace Operation

/-- The id that an operation is about. -/
def key? : Operation → Option String
  | .get id => some id
  | operation => operation.target?

/-- A new session. -/
def Creates : Operation → Prop
  | .create _ => True
  | _ => False

/-- The response times that an operation brings have figures. -/
def Measured : Operation → Prop
  | .create session | .update session => (responseFigures session.responseTimes).isSome
  | _ => True

/-- The messages that an operation brings. -/
def messages : Operation → List Message
  | .create session | .update session => session.messages
  | .addMessage _ message => [message]
  | _ => []

/-- The contents that an operation brings can be encrypted. -/
def Sealable (cipher : ContentCipher) (operation : Operation) : Prop :=
  ∀ m ∈ operation.messages, cipher.Encryptable m.content

/-- The session that an operation brings does not end before it starts. -/
def Ordered : Operation → Prop
  | .create session | .update session => ¬ session.EndsEarly
  | _ => True

end Operation

namespace Store

variable {s : Store} {now : Timestamp} {id : String} {t t' : Table} {c : Call}
  {sessions : List StoredSession}

/-- An operation fails for a reason and leaves the table as it was. -/
def Refuses (s : Store) (c : Call) (e : StoreError) : Prop :=
  (s.step c.now c.operation).1 = .error (.failed e) ∧
    (s.step c.now c.operation).2.1.table = s.table

/-- An operation succeeds. -/
def Succeeds (s : Store) (c : Call) : Prop :=
  ∃ answer, (s.step c.now c.operation).1 = .ok answer

theorem Refuses.not_succeeds {e : StoreError} (h : Refuses s c e) : ¬ Succeeds s c := by
  rintro ⟨answer, hok⟩
  rw [h.1] at hok
  cases hok

/-! ## Statements that find a row or do not -/

theorem countP_of_row? {row : Row} (hrow : t.row? id = some row) :
    t.rows.countP (·.id = id) ≠ 0 := by
  obtain ⟨hmem, hid⟩ := Table.mem_of_row? hrow
  exact (List.countP_pos_iff.2 ⟨row, hmem, decide_eq_true hid⟩).ne'

theorem countP_of_row?_none (hrow : t.row? id = none) : t.rows.countP (·.id = id) = 0 :=
  List.countP_eq_zero.2 (List.find?_eq_none.1 hrow)

theorem insertion_duplicate {row old : Row} (hrefusal : t.refusal = none)
    (hrow : t.row? row.id = some old) : insertion row t = .error (.duplicateSession row.id) := by
  obtain ⟨hmem, hid⟩ := Table.mem_of_row? hrow
  have hany : t.rows.any (·.id = row.id) = true :=
    List.any_eq_true.2 ⟨old, hmem, decide_eq_true hid⟩
  have hinsert : t.insert row = .error .duplicateId := by
    rw [Table.insert, Table.permit, hrefusal]
    show (if _ then _ else _) = _
    rw [if_pos hany]
    rfl
  rw [insertion, hinsert]
  rfl

theorem updating_missing {new : Row} (hrefusal : t.refusal = none) (hrow : t.row? new.id = none) :
    updating new t = .error .notFound := by
  rw [updating, Table.update_unrefused hrefusal, countP_of_row?_none hrow]
  rfl

theorem ending_missing {time : String} (hrow : t.row? id = none) :
    ending id time t = .error .notFound := by
  have hnone : t.rows.find? (isOpen id) = none := by
    refine List.find?_eq_none.2 fun row hmem hopen => ?_
    rw [isOpen, Bool.and_eq_true] at hopen
    exact List.find?_eq_none.1 hrow row hmem hopen.1
  rw [ending, hnone, hrow]

/-- A statement that nothing refuses succeeds if it can change every row. -/
theorem update_succeeds {columns : List Column} {select : Row → Bool}
    {change : Row → Except DatabaseError Row} (hrefusal : t.refusal = none)
    (hchange : ∀ row ∈ t.rows, ∃ row', change row = .ok row') :
    ∃ t', t.update columns select change = .ok (t.rows.countP select, t') := by
  obtain ⟨rows, hrows⟩ : ∃ rows, List.Forall₂
      (fun row row' => t.reach columns select change row = .ok row') t.rows rows := by
    refine exists_forall₂_iff.2 fun row hrow => ?_
    obtain ⟨row', hrow'⟩ := hchange row hrow
    exact ⟨_, Table.reach_permitted (Table.permit_unrefused hrefusal _) hrow'⟩
  exact ⟨_, Except.bind_eq_ok.2 ⟨rows, mapM_eq_ok.2 hrows, rfl⟩⟩

/-- A message can be added to every row of a table that holds sessions. -/
theorem appending_unrefused (hholds : t.Holds sessions) (hrefusal : t.refusal = none)
    (id : String) (m : StoredMessage) (time : Timestamp) :
    ∃ t', appending id m time.toColumn t = .ok (t.rows.countP (·.id = id), t') := by
  have hchange : ∀ row ∈ t.rows, ∃ row',
      appendedRow (StoredMessage.encoding.write m) time.toColumn row = .ok row' := by
    intro row hrow
    obtain ⟨x, -, rfl⟩ := exists_of_mem_rows hholds hrow
    exact ⟨_, Row.appendedRow_ofStored m time x⟩
  obtain ⟨t', hupdate⟩ : ∃ t', t.update [.messages, .lastActivity] (·.id = id)
      (appendedRow (StoredMessage.encoding.write m) time.toColumn)
        = .ok (t.rows.countP (·.id = id), t') := update_succeeds hrefusal hchange
  exact ⟨t', by rw [appending, hupdate]⟩

/-! ## Content that cannot be encrypted -/

theorem perform_encrypting_error {α : Type} {step : ContentCipher.Drawing α}
    (h : ∀ a, ¬ ContentCipher.DrawsFrom step s.nonces a) :
    ∃ e nonces, s.perform (encrypting step)
      = (.error (.failed (.cipher e)), { s with nonces := nonces }) := by
  rw [encrypting, perform_bind_ok (perform_getThe s)]
  rcases hstep : step.run.run s.nonces with ⟨e | a, nonces⟩
  · exact ⟨e, nonces, rfl⟩
  · exact absurd (congrArg Prod.fst hstep) (h a)

theorem exists_drawsFrom_message {cipher : ContentCipher} {m : Message}
    (h : cipher.Encryptable m.content) (nonces : Cipher.Nonces) :
    ∃ stored, ContentCipher.DrawsFrom (m.toStored cipher) nonces stored := by
  obtain ⟨content, after, hcontent⟩ := ContentCipher.encryptable_iff.1 h
  exact ⟨_, congrArg Prod.fst (run_bind_eq_ok.2 ⟨content, after, hcontent, rfl⟩)⟩

/-! ## Adding a message -/

theorem perform_addMessage_named (hid : id ≠ "") (now : Timestamp) (message : Message)
    (s : Store) :
    s.perform (addMessage now id message) = s.perform (do
      let stored ← encrypting (message.toStored s.cipher)
      let touched ← retrying "add_message" (·.messageAddSecs) (appending id stored now.toColumn)
      if touched = 0 then fail .notFound else pure ()) := by
  rw [addMessage, perform_bind_ok (perform_requireId_ok hid s),
    perform_bind_ok (perform_getThe s)]

theorem perform_addMessage_tooLong {message : Message} (hid : id ≠ "")
    (hlong : ¬ s.cipher.Encryptable message.content) (now : Timestamp) :
    ∃ e nonces, s.perform (addMessage now id message)
      = (.error (.failed (.cipher e)), { s with nonces := nonces }) := by
  have hnone : ∀ stored, ¬ ContentCipher.DrawsFrom (message.toStored s.cipher) s.nonces stored :=
    fun stored h => hlong (ContentCipher.encryptable_of_draws h.draws)
  obtain ⟨e, nonces, herror⟩ := perform_encrypting_error hnone
  rw [perform_addMessage_named hid]
  exact ⟨e, nonces, perform_bind_error herror⟩

theorem appending_refusal {m : StoredMessage} {time : String} {n : Nat}
    (h : appending id m time t = .ok (n, t')) : t'.refusal = t.refusal := by
  rw [appending] at h
  split at h
  · next hupdate =>
      cases h
      exact Table.update_refusal hupdate
  · cases h

/-- A message reaches all rows of its id, and is refused if there are none. -/
theorem perform_addMessage_unrefused {message : Message} (hopen : s.closed = false)
    (hrefusal : s.table.refusal = none) (hholds : s.table.Holds sessions) (hid : id ≠ "")
    (hsealable : s.cipher.Encryptable message.content) (now : Timestamp) :
    ∃ stored nonces table,
      appending id stored now.toColumn s.table
        = .ok (s.table.rows.countP (·.id = id), table) ∧
      s.perform (addMessage now id message)
        = (if s.table.rows.countP (·.id = id) = 0 then .error (.failed .notFound) else .ok (),
          { s with nonces := nonces, table := table }) := by
  obtain ⟨stored, hstored⟩ := exists_drawsFrom_message hsealable s.nonces
  obtain ⟨nonces, hencrypt⟩ := perform_encrypting_ok hstored
  obtain ⟨table, happend⟩ := appending_unrefused hholds hrefusal id stored now
  have hretry : Store.perform { s with nonces := nonces }
      (retrying "add_message" (·.messageAddSecs) (appending id stored now.toColumn))
      = (.ok (s.table.rows.countP (·.id = id)), { s with nonces := nonces, table := table }) :=
    perform_retrying_ok hopen happend (appending_refusal happend)
  refine ⟨stored, nonces, table, happend, ?_⟩
  rw [perform_addMessage_named hid, perform_bind_ok hencrypt, perform_bind_ok hretry]
  split <;> rfl

/-! ## Preparing a session -/

theorem exists_drawing {session : Session} (h : (responseFigures session.responseTimes).isSome)
    (cipher : ContentCipher) (now : Timestamp) :
    ∃ drawing, session.toStored cipher now = some drawing := by
  obtain ⟨figures, hfigures⟩ := Option.isSome_iff_exists.1 h
  exact ⟨_, by rw [Session.toStored_eq, hfigures, Option.map_some]⟩

section

variable {session : Session} (hfigures : (responseFigures session.responseTimes).isSome)

include hfigures

theorem perform_prepare_tooLong
    (hlong : ¬ ∀ m ∈ session.messages, s.cipher.Encryptable m.content) (now : Timestamp) :
    ∃ e nonces, s.perform (prepare now session)
      = (.error (.failed (.cipher e)), { s with nonces := nonces }) := by
  obtain ⟨drawing, hdrawing⟩ := exists_drawing hfigures s.cipher now
  have hnone : ∀ stored, ¬ ContentCipher.DrawsFrom drawing s.nonces stored :=
    fun stored hdraws =>
      hlong (Session.exists_storedFrom_iff.1 ⟨stored, drawing, hdrawing, hdraws⟩).2
  obtain ⟨e, nonces, herror⟩ := perform_encrypting_error hnone
  rw [prepare, perform_bind_ok (perform_getThe s), hdrawing]
  exact ⟨e, nonces, perform_bind_error herror⟩

theorem perform_prepare_unnamed
    (hsealable : ∀ m ∈ session.messages, s.cipher.Encryptable m.content)
    (hid : session.id = "") (now : Timestamp) :
    ∃ nonces, s.perform (prepare now session)
      = (.error (.failed .invalidSessionId), { s with nonces := nonces }) := by
  obtain ⟨stored, hstored⟩ : ∃ stored, session.StoredFrom s.cipher s.nonces now stored :=
    Session.exists_storedFrom_iff.2 ⟨hfigures, hsealable⟩
  have hinvalid : validate stored = .error .invalidSessionId := by
    rw [validate, hstored.storedAs.id, hid]
    rfl
  exact perform_prepare_invalid hstored hinvalid

theorem exists_storedFrom_valid
    (hsealable : ∀ m ∈ session.messages, s.cipher.Encryptable m.content)
    (hid : session.id ≠ "") (hordered : ¬ session.EndsEarly) (now : Timestamp) :
    ∃ stored, session.StoredFrom s.cipher s.nonces now stored ∧ validate stored = .ok () := by
  obtain ⟨stored, hstored⟩ := Session.exists_storedFrom_iff.2 ⟨hfigures, hsealable⟩
  refine ⟨stored, hstored, validate_eq_ok ?_ ?_⟩
  · rwa [hstored.storedAs.id]
  · rw [hstored.storedAs.endTime, hstored.storedAs.startTime]
    exact fun finish hfinish hbefore => hordered ⟨finish, hfinish, hbefore⟩

end

/-- A creation whose insertion fails for good fails for the same reason. -/
theorem perform_create_refused {session : Session} {stored : StoredSession} {e : StoreError}
    (hopen : s.closed = false) (h : session.StoredFrom s.cipher s.nonces now stored)
    (hvalid : validate stored = .ok ())
    (hinsert : insertion (Row.ofStored stored) s.table = .error e)
    (hpermanent : isTransient e = false) :
    ∃ nonces, s.perform (create now session)
        = (.error (.failed e), { s with nonces := nonces }) := by
  obtain ⟨nonces, hprepare⟩ := perform_prepare_ok h hvalid
  have hretry : Store.perform { s with nonces := nonces }
      (retrying "create_session" (·.defaultSecs) (insertion (Row.ofStored stored)))
      = (.error (.failed e), { s with nonces := nonces }) :=
    perform_retrying_permanent hopen hinsert hpermanent
  exact ⟨nonces, by rw [create, perform_bind_ok hprepare, perform_bind_error hretry]⟩

/-- An update whose statements fail for good fails for the same reason. -/
theorem perform_update_refused {session : Session} {stored : StoredSession} {e : StoreError}
    (hopen : s.closed = false) (h : session.StoredFrom s.cipher s.nonces now stored)
    (hvalid : validate stored = .ok ())
    (hupdate : updating (Row.ofStored stored) s.table = .error e)
    (hpermanent : isTransient e = false) :
    ∃ nonces, s.perform (update now session)
        = (.error (.failed e), { s with nonces := nonces }) := by
  obtain ⟨nonces, hprepare⟩ := perform_prepare_ok h hvalid
  have hretry : Store.perform { s with nonces := nonces }
      (retrying "update_session" (·.defaultSecs) (updating (Row.ofStored stored)))
      = (.error (.failed e), { s with nonces := nonces }) :=
    perform_retrying_permanent hopen hupdate hpermanent
  exact ⟨nonces, by rw [update, perform_bind_ok hprepare, perform_bind_error hretry]⟩

/-! ## One operation -/

theorem refuses_of_perform {e : StoreError} (after : Store)
    (h : Store.perform { s with events := [] } (run c.now c.operation)
      = (.error (.failed e), after)) (htable : after.table = s.table) : Refuses s c e := by
  refine ⟨?_, ?_⟩
  · rw [step, h]
  · rw [step, h]
    exact htable

theorem succeeds_of_perform {answer : Answer} {after : Store}
    (h : Store.perform { s with events := [] } (run c.now c.operation) = (.ok answer, after)) :
    Succeeds s c := ⟨answer, by rw [step, h]⟩

/-- How a call on an id is answered, by whether the id has a row. -/
structure Answered (s : Store) (c : Call) (id : String) : Prop where
  unnamed : c.operation.Sealable s.cipher → id = "" → Refuses s c .invalidSessionId
  tooLong : ¬ c.operation.Sealable s.cipher → id ≠ "" → ∃ e, Refuses s c (.cipher e)
  missing : c.operation.Sealable s.cipher → c.operation.Ordered → id ≠ "" →
    s.table.row? id = none →
    (c.operation.Creates → Succeeds s c) ∧ (¬ c.operation.Creates → Refuses s c .notFound)
  present : c.operation.Sealable s.cipher → c.operation.Ordered → id ≠ "" →
    ∀ row, s.table.row? id = some row →
    (c.operation.Creates → Refuses s c (.duplicateSession id)) ∧
      (¬ c.operation.Creates → Succeeds s c)

/-- What goes wrong with preparing a session goes wrong with the operation that begins
with it. -/
theorem refuses_of_prepare {session : Session} {f : StoredSession → Action Unit}
    {e : StoreError} (hrun : run c.now c.operation
      = (prepare c.now session >>= f) >>= fun _ => pure .nothing)
    (hprepare : ∃ nonces, Store.perform { s with events := [] } (prepare c.now session)
      = (.error (.failed e), { s with nonces := nonces, events := [] })) : Refuses s c e := by
  obtain ⟨nonces, hprepare⟩ := hprepare
  refine refuses_of_perform { s with nonces := nonces, events := [] } ?_ rfl
  rw [hrun]
  exact perform_bind_error (perform_bind_error hprepare)

section

variable (hopen : s.closed = false) (hrefusal : s.table.refusal = none)

include hopen hrefusal

theorem answered_create {session : Session}
    (hfigures : (responseFigures session.responseTimes).isSome) (now : Timestamp) :
    Answered s ⟨now, .create session⟩ session.id where
  unnamed hsealable hid := by
    refine refuses_of_prepare rfl ?_
    exact perform_prepare_unnamed (s := { s with events := [] }) hfigures hsealable hid now
  tooLong hlong _ := by
    obtain ⟨e, hprepare⟩ :=
      perform_prepare_tooLong (s := { s with events := [] }) hfigures hlong now
    exact ⟨e, refuses_of_prepare rfl hprepare⟩
  missing hsealable hordered hid hrow := by
    obtain ⟨stored, hstored, hvalid⟩ :=
      exists_storedFrom_valid (s := { s with events := [] }) hfigures hsealable hid hordered now
    have hpermit : s.table.permit .insert = .ok () := by rw [Table.permit, hrefusal]
    rw [← hstored.storedAs.id] at hrow
    have hinsert : insertion (Row.ofStored stored) s.table = .ok _ := insertion_new hpermit hrow
    obtain ⟨nonces, hcreate⟩ :=
      perform_create_ok (s := { s with events := [] }) hopen hstored hvalid hinsert
    exact ⟨fun _ => succeeds_of_perform (perform_bind_ok hcreate), fun h => absurd trivial h⟩
  present hsealable hordered hid row hrow := by
    obtain ⟨stored, hstored, hvalid⟩ :=
      exists_storedFrom_valid (s := { s with events := [] }) hfigures hsealable hid hordered now
    have hsame : stored.id = session.id := hstored.storedAs.id
    rw [← hsame] at hrow ⊢
    have hinsert : insertion (Row.ofStored stored) s.table
        = .error (.duplicateSession stored.id) := insertion_duplicate hrefusal hrow
    obtain ⟨nonces, hcreate⟩ := perform_create_refused (s := { s with events := [] }) hopen
      hstored hvalid hinsert rfl
    exact ⟨fun _ => refuses_of_perform _ (perform_bind_error hcreate) rfl,
      fun h => absurd trivial h⟩

theorem answered_update {session : Session}
    (hfigures : (responseFigures session.responseTimes).isSome) (now : Timestamp) :
    Answered s ⟨now, .update session⟩ session.id where
  unnamed hsealable hid := by
    refine refuses_of_prepare rfl ?_
    exact perform_prepare_unnamed (s := { s with events := [] }) hfigures hsealable hid now
  tooLong hlong _ := by
    obtain ⟨e, hprepare⟩ :=
      perform_prepare_tooLong (s := { s with events := [] }) hfigures hlong now
    exact ⟨e, refuses_of_prepare rfl hprepare⟩
  missing hsealable hordered hid hrow := by
    obtain ⟨stored, hstored, hvalid⟩ :=
      exists_storedFrom_valid (s := { s with events := [] }) hfigures hsealable hid hordered now
    rw [← hstored.storedAs.id] at hrow
    have hupdate : updating (Row.ofStored stored) s.table = .error .notFound :=
      updating_missing hrefusal hrow
    obtain ⟨nonces, hperform⟩ := perform_update_refused (s := { s with events := [] }) hopen
      hstored hvalid hupdate rfl
    exact ⟨fun h => False.elim h,
      fun _ => refuses_of_perform _ (perform_bind_error hperform) rfl⟩
  present hsealable hordered hid row hrow := by
    obtain ⟨stored, hstored, hvalid⟩ :=
      exists_storedFrom_valid (s := { s with events := [] }) hfigures hsealable hid hordered now
    obtain ⟨hmem, hsame⟩ := Table.mem_of_row? hrow
    obtain ⟨ended, t', hupdate⟩ : ∃ ended t', updating (Row.ofStored stored) s.table
        = .ok (ended, t') :=
      updating_unrefused hrefusal hmem (hsame.trans hstored.storedAs.id.symm)
    obtain ⟨nonces, hperform⟩ :=
      perform_update_ok (s := { s with events := [] }) hopen hstored hvalid hupdate
    exact ⟨fun h => False.elim h, fun _ => succeeds_of_perform (perform_bind_ok hperform)⟩

theorem answered_addMessage (hholds : s.table.Holds sessions) (now : Timestamp) (id : String)
    (message : Message) : Answered s ⟨now, .addMessage id message⟩ id where
  unnamed _ hid := by
    refine refuses_of_perform { s with events := [] } ?_ rfl
    rw [run, addMessage, requireId, if_pos (by rw [String.isEmpty_iff, hid])]
    exact perform_bind_error (perform_bind_error (perform_fail _ _))
  tooLong hlong hid := by
    obtain ⟨e, nonces, hadd⟩ :=
      perform_addMessage_tooLong (s := { s with events := [] }) hid
        (fun h => hlong (List.forall_mem_singleton.2 h)) now
    exact ⟨e, refuses_of_perform _ (perform_bind_error hadd) rfl⟩
  missing hsealable _ hid hrow := by
    have hcount := countP_of_row?_none hrow
    obtain ⟨stored, nonces, table, happend, hadd⟩ := perform_addMessage_unrefused
      (s := { s with events := [] }) hopen hrefusal hholds hid
      (hsealable message (List.mem_singleton_self _)) now
    dsimp only at happend hadd
    rw [hcount] at happend
    rw [hcount, if_pos rfl] at hadd
    exact ⟨fun h => False.elim h,
      fun _ => refuses_of_perform _ (perform_bind_error hadd) (appending_none happend)⟩
  present hsealable _ hid row hrow := by
    obtain ⟨stored, nonces, table, -, hadd⟩ := perform_addMessage_unrefused
      (s := { s with events := [] }) hopen hrefusal hholds hid
      (hsealable message (List.mem_singleton_self _)) now
    rw [if_neg (countP_of_row? hrow)] at hadd
    exact ⟨fun h => False.elim h, fun _ => succeeds_of_perform (perform_bind_ok hadd)⟩

theorem answered_finish (h : Sound s sessions) (now : Timestamp) (id : String) (time : Timestamp)
    (hread : ∀ row, s.table.row? id = some row → ∃ start finish,
      Row.readTime row.startTime = .ok start ∧
        Row.readTime (row.endTime.getD time.toColumn) = .ok finish) :
    Answered s ⟨now, .finish id time⟩ id where
  unnamed _ hid := by
    refine refuses_of_perform { s with events := [] } ?_ rfl
    rw [run, finish, requireId, if_pos (by rw [String.isEmpty_iff, hid])]
    exact perform_bind_error (perform_bind_error (perform_fail _ _))
  tooLong hlong _ := absurd (fun _ hm => absurd hm List.not_mem_nil) hlong
  missing _ _ hid hrow := by
    have hretry : Store.perform { s with events := [] }
        (retryingFrom "end_session" s.endProgress (ending id time.toColumn))
        = (.error (.failed .notFound), { s with events := [] }) :=
      perform_retryingFrom_permanent hopen (after_eq_error.2 (ending_missing hrow)) rfl
    have hfinish : Store.perform { s with events := [] } (finish id time)
        = (.error (.failed .notFound), { s with events := [] }) := by
      rw [perform_finish_eq, perform_bind_ok (perform_requireId_ok hid _)]
      exact perform_bind_error hretry
    exact ⟨fun h => False.elim h, fun _ =>
      refuses_of_perform { s with events := [] } (perform_bind_error hfinish) rfl⟩
  present _ _ hid row hrow := by
    obtain ⟨start, finish, hstart, hfinish⟩ := hread row hrow
    have hperform := finish_unrefused (s := { s with events := [] }) hopen hrefusal
      h.distinct_rows hid hrow time hstart hfinish
    exact ⟨fun h => False.elim h, fun _ => succeeds_of_perform (perform_bind_ok hperform)⟩

omit hrefusal in
/-- A row that is there is read if its columns can be. -/
theorem answered_get (now : Timestamp) (id : String)
    (hread : ∀ row, s.table.row? id = some row → ∃ x, row.toStored = .ok x) :
    Answered s ⟨now, .get id⟩ id where
  unnamed _ hid := by
    refine refuses_of_perform { s with events := [] } ?_ rfl
    rw [run, map_eq_pure_bind, get, if_pos (by rw [String.isEmpty_iff, hid])]
    exact perform_bind_error (perform_bind_error (perform_fail _ _))
  tooLong hlong _ := absurd (fun _ hm => absurd hm List.not_mem_nil) hlong
  missing _ _ hid hrow := by
    have hask : Store.perform { s with events := [] }
        (asking "get_session" (·.defaultSecs) fun table => .ok (table.row? id))
        = (.ok none, { s with events := [] }) := perform_asking_ok hopen (by rw [← hrow])
    refine ⟨fun h => False.elim h, fun _ => refuses_of_perform { s with events := [] } ?_ rfl⟩
    rw [run, map_eq_pure_bind, get, if_neg (by rwa [String.isEmpty_iff])]
    exact perform_bind_error ((perform_bind_ok hask).trans (perform_fail _ _))
  present _ _ hid row hrow := by
    obtain ⟨x, hx⟩ := hread row hrow
    exact ⟨fun h => False.elim h, fun _ =>
      ⟨_, congrArg Prod.fst (step_get hopen hid hrow hx now)⟩⟩

end

theorem Unhindered.answered (h : Unhindered s sessions) (hopen : s.closed = false)
    (hcall : c.HasPlainYears) (hid : c.operation.key? = some id)
    (hmeasured : c.operation.Measured) :
    Answered s c id := by
  have hplain : ∀ row, s.table.row? id = some row →
      ∃ x, row = Row.ofStored x ∧ x.HasPlainYears := by
    intro row hrow
    rw [row?_of_holds h.sound.holds, Option.map_eq_some_iff] at hrow
    obtain ⟨x, hx, rfl⟩ := hrow
    exact ⟨x, rfl, h.plain id x hx⟩
  obtain ⟨now, operation⟩ := c
  cases operation with
  | create session =>
      cases hid
      exact answered_create hopen h.refusal hmeasured now
  | update session =>
      cases hid
      exact answered_update hopen h.refusal hmeasured now
  | get i =>
      cases hid
      refine answered_get hopen now id fun row hrow => ?_
      obtain ⟨x, rfl, hx⟩ := hplain row hrow
      exact ⟨x.shown, Row.toStored_shown hx⟩
  | addMessage i message =>
      cases hid
      exact answered_addMessage hopen h.refusal h.sound.holds now id message
  | finish i time =>
      cases hid
      refine answered_finish hopen h.refusal h.sound now id time fun row hrow => ?_
      obtain ⟨x, rfl, hx⟩ := hplain row hrow
      refine ⟨x.startTime, x.endTime.getD time, Row.readTime_column hx.startTime, ?_⟩
      cases hend : x.endTime with
      | none => simpa [Row.ofStored, hend] using Row.readTime_column hcall.2
      | some e => simpa [Row.ofStored, hend] using Row.readTime_column (hx.endTime e hend)
  | _ => cases hid

end Store

end ChatArchive
