import ChatArchive.Proofs.Storing

/-!
# What a request asks of the table

A request checks its arguments and encrypts what it brings. Then it asks one thing of the
table: a transaction, which is retried under the name of the request. Only the end of a
session goes on to ask another, in the time that is left.

Which arguments are refused, and for which reason, is read off the arguments and the cipher.
Neither the table nor the state of the store has a part in it, and a request that is refused
asks nothing.
-/

namespace ChatArchive

open Cipher Text Time

/-- Why there is no value, if there is none. -/
def errorOf {ε α : Type} : Except ε α → Option ε
  | .error e => some e
  | .ok _ => none

/-- Why a text is not encrypted. -/
def ContentCipher.fault? (cipher : ContentCipher) (plain : String) : Option CipherError :=
  match cipher with
  | .disabled => none
  | .ready _ => if Gcm.maxLength < (utf8 plain).length then some .encryptionFailed else none
  | .misconfigured size => some (.invalidKeySize size)

/-- What is wrong with a session: it has no id, or it ends before it starts. -/
def Session.invalid? (session : Session) : Option StoreError :=
  if session.id.isEmpty then some .invalidSessionId
  else if session.endTime.any (· < session.startTime) then
    some (.invalidSession "end time precedes start time")
  else none

/-- Why a session is not written. Its response times are looked at first, then its messages, and
then what is wrong with itself. -/
def Session.fault? (cipher : ContentCipher) (session : Session) : Option Abort :=
  if (responseFigures session.responseTimes).isNone then some .overflow
  else
    match session.messages.findSome? fun m => cipher.fault? m.content with
    | some e => some (.failed (.cipher e))
    | none => session.invalid?.map .failed

/-- A session is asked for by its id. -/
def idFault? (id : String) : Option Abort :=
  if id.isEmpty then some (.failed .invalidSessionId) else none

/-- A window must not be inverted. -/
def rangeFault? (start finish : Timestamp) : Option Abort :=
  if finish < start then some (.failed .invalidTimeRange) else none

/-- Why a request is refused before anything is asked. -/
def Operation.fault? (cipher : ContentCipher) : Operation → Option Abort
  | .create session | .update session => session.fault? cipher
  | .get id | .finish id _ => idFault? id
  | .addMessage id message =>
    (idFault? id).or ((cipher.fault? message.content).map fun e => .failed (.cipher e))
  | .listUser userId _ => if userId.isEmpty then some (.failed .invalidUserId) else none
  | .list q =>
    match q.startFrom, q.startTo with
    | some first, some last => rangeFault? first last
    | _, _ => none
  | .metrics first last | .tokens first last => rangeFault? first last
  | _ => none

/-- The name under which a request is retried. What acts on the store from outside has none. -/
def Operation.name? : Operation → Option String
  | .create _ => some "create_session"
  | .update _ => some "update_session"
  | .get _ => some "get_session"
  | .addMessage _ _ => some "add_message"
  | .finish _ _ => some "end_session"
  | .listUser _ _ => some "list_user_sessions"
  | .listAll _ => some "list_all_sessions"
  | .list _ => some "list_sessions"
  | .active => some "load_active_sessions"
  | .ensureIndexes => some "ensure_indexes"
  | .metrics _ _ => some "session_metrics"
  | .tokens _ _ => some "token_usage"
  | _ => none

/-- How many seconds a request has. What acts on the store from outside needs none. -/
def Operation.seconds (timeouts : TimeoutSettings) : Operation → UInt64
  | .addMessage _ _ => timeouts.messageAddSecs
  | .finish _ _ => timeouts.sessionEndSecs
  | .list _ | .metrics _ _ => timeouts.metricsSecs
  | .ensureIndexes => timeouts.indexSecs
  | _ => timeouts.defaultSecs

namespace Store

/-- A transaction, whatever its result. -/
structure Task where
  Result : Type
  transaction : Transaction Result

/-- The task for an argument, if it is accepted. -/
def taskFor {α β : Type} (argument : Except Abort α) (transaction : α → Transaction β) :
    Option Task :=
  match argument with
  | .ok a => some ⟨β, transaction a⟩
  | .error _ => none

/-- Both bounds of a listing, if it has both, must make a window. -/
def requireWindow (q : ListQuery) : Action Unit :=
  match q.startFrom, q.startTo with
  | some start, some finish => ofExcept (validateRange start finish)
  | _, _ => pure ()

/-- Sessions are listed of a user with an id. -/
def requireUser (userId : String) : Action Unit :=
  if userId.isEmpty then fail .invalidUserId else pure ()

/-- The page that a listing asks for. -/
def pageAsked (s : Store) (q : ListQuery) : Transaction (List ListedRow) :=
  asked (page q (q.pageSize s.settings.listing.defaultLimit s.settings.listing.maxLimit).toNat)

/-- The rows of running sessions that a store asks for. -/
def activeAsked (s : Store) : Transaction (List Row) := asked fun table =>
  .ok (((table.rows.filter (·.endTime.isNone)).mergeSort
    fun a b => b.startTime ≤ a.startTime).take s.settings.listing.maxLimit.toNat)

/-- What a request asks of the table, if its arguments are accepted. -/
def task? (s : Store) (now : Timestamp) : Operation → Option Task
  | .create session =>
    taskFor (s.perform (prepare now session)).1 fun stored => insertion (Row.ofStored stored)
  | .update session =>
    taskFor (s.perform (prepare now session)).1 fun stored => updating (Row.ofStored stored)
  | .get id => taskFor (s.perform (requireId id)).1 fun _ => asked fun table => .ok (table.row? id)
  | .addMessage id message =>
    taskFor (s.perform (do requireId id; encrypting (message.toStored s.cipher))).1
      fun stored => appending id stored now.toColumn
  | .finish id time => taskFor (s.perform (requireId id)).1 fun _ => ending id time.toColumn
  | .listUser userId limit =>
    taskFor (s.perform (requireUser userId)).1
      fun _ => s.pageAsked { ListQuery.all with limit := limit, userId := some userId }
  | .listAll limit => some ⟨_, s.pageAsked { ListQuery.all with limit := limit }⟩
  | .list q => taskFor (s.perform (requireWindow q)).1 fun _ => s.pageAsked q
  | .active => some ⟨_, s.activeAsked⟩
  | .ensureIndexes => some ⟨_, fun table => .ok ((), table.ensureIndexes)⟩
  | .metrics start finish =>
    taskFor (s.perform (ofExcept (validateRange start finish))).1
      fun _ => asked (windowReport start finish (max s.settings.metrics.maxScan 1).toNat)
  | .tokens start finish =>
    taskFor (s.perform (ofExcept (validateRange start finish))).1
      fun _ => asked (windowTokens start finish)
  | _ => none

/-- A request that begins, with all of the time that the store has for it. -/
def progressOf (s : Store) (operation : Operation) : Progress :=
  .start (operation.seconds s.settings.timeouts)

/-- How a request begins: it is refused, or it asks its task of the table and goes on with the
answer and with what is left of its time. Either way nonces may have been drawn. -/
inductive Requested (s : Store) (now : Timestamp) (operation : Operation) (name : String) : Prop
  | refused (e : Abort) (nonces : Nonces) (hfault : operation.fault? s.cipher = some e)
      (htask : s.task? now operation = none)
      (hrun : s.perform (run now operation) = (.error e, { s with nonces := nonces }))
  | asks (task : Task) (nonces : Nonces) (rest : task.Result × Progress → Action Answer)
      (hfault : operation.fault? s.cipher = none) (htask : s.task? now operation = some task)
      (hrun : s.perform (run now operation) = Store.perform { s with nonces := nonces }
        (retryingFrom name (s.progressOf operation) task.transaction >>= rest))

/-- An action that fails with a fault, if there is one, and succeeds otherwise. All that it
leaves behind is that nonces were drawn. -/
def Checks {α : Type} (s : Store) (argument : Action α) (fault? : Option Abort) : Prop :=
  ∃ answer nonces,
    s.perform argument = (answer, { s with nonces := nonces }) ∧ errorOf answer = fault?

variable {s : Store} {now : Timestamp} {operation : Operation} {name : String}

/-- A request that checks an argument first and then asks. -/
theorem requested_after {α β : Type} {argument : Action α} {transaction : α → Transaction β}
    (next : α → Action Answer) (rest : α → β × Progress → Action Answer)
    (hrun : s.perform (run now operation) = s.perform (argument >>= next))
    (hnext : ∀ a nonces, Store.perform { s with nonces := nonces } (next a)
      = Store.perform { s with nonces := nonces }
          (retryingFrom name (s.progressOf operation) (transaction a) >>= rest a))
    (htask : s.task? now operation = taskFor (s.perform argument).1 transaction)
    (hchecks : Checks s argument (operation.fault? s.cipher)) :
    Requested s now operation name := by
  obtain ⟨answer, nonces, hperform, hfault⟩ := hchecks
  cases answer with
  | error e =>
      refine .refused e nonces hfault.symm ?_ ?_
      · rw [htask, hperform]
        rfl
      · rw [hrun, perform_bind_error hperform]
  | ok a =>
      refine .asks ⟨β, transaction a⟩ nonces (rest a) hfault.symm ?_ ?_
      · rw [htask, hperform]
        rfl
      · rw [hrun, perform_bind_ok hperform, hnext]

/-- What follows on a transaction of an operation that begins. -/
theorem perform_retrying_bind {α : Type} {timeout : TimeoutSettings → UInt64}
    {transaction : Transaction α} {rest : α → Action Answer} {p : Progress} (s : Store)
    (name : String) (hp : .start (timeout s.settings.timeouts) = p) :
    s.perform (retrying name timeout transaction >>= rest)
      = s.perform (retryingFrom name p transaction >>= fun x => rest x.1) := by
  subst hp
  rw [retrying, bind_assoc, perform_bind_ok (perform_getThe s), bind_assoc]
  rfl

theorem requested_of {α β : Type} {argument : Action α} {transaction : α → Transaction β}
    (timeout : TimeoutSettings → UInt64) (rest : α → β → Action Answer)
    (hrun : run now operation
      = argument >>= fun a => retrying name timeout (transaction a) >>= rest a)
    (htimeout : timeout s.settings.timeouts = operation.seconds s.settings.timeouts)
    (htask : s.task? now operation = taskFor (s.perform argument).1 transaction)
    (hchecks : Checks s argument (operation.fault? s.cipher)) :
    Requested s now operation name :=
  requested_after _ (fun a x => rest a x.1) (by rw [hrun])
    (fun _ _ => perform_retrying_bind _ name (congrArg Progress.start htimeout)) htask hchecks

/-- A request that checks nothing. -/
theorem requested_at_once {α : Type} {transaction : Transaction α}
    (timeout : TimeoutSettings → UInt64) (rest : α → Action Answer)
    (hrun : s.perform (run now operation)
      = s.perform (retrying name timeout transaction >>= rest))
    (htimeout : timeout s.settings.timeouts = operation.seconds s.settings.timeouts)
    (htask : s.task? now operation = some ⟨α, transaction⟩)
    (hfault : operation.fault? s.cipher = none) : Requested s now operation name :=
  .asks ⟨α, transaction⟩ s.nonces (fun x => rest x.1) hfault htask
    (hrun.trans (perform_retrying_bind s name (congrArg Progress.start htimeout)))

/-! ## Encryption -/

/-- A step that fails with a fault, if there is one, and succeeds otherwise, whatever the nonces. -/
def Faults {α : Type} (step : ContentCipher.Drawing α) (fault? : Option CipherError) : Prop :=
  ∀ nonces, errorOf (step.run.run nonces).1 = fault?

theorem faults_encrypt (cipher : ContentCipher) (plain : String) :
    Faults (cipher.encrypt plain) (cipher.fault? plain) := by
  intro nonces
  cases cipher with
  | disabled => rfl
  | misconfigured size => rfl
  | ready schedule =>
      rw [ContentCipher.fault?, ContentCipher.encrypt,
        run_bind_ok (ContentCipher.run_draw nonces), Gcm.sealText]
      by_cases hlong : (utf8 plain).length ≤ Gcm.maxLength
      · rw [if_neg (Nat.not_lt.2 hlong), if_pos hlong]
        rfl
      · rw [if_pos (Nat.not_le.1 hlong), if_neg hlong]
        rfl

theorem Faults.bind_pure {α β : Type} {step : ContentCipher.Drawing α}
    {fault? : Option CipherError} (h : Faults step fault?) (f : α → β) :
    Faults (step >>= fun a => pure (f a)) fault? := by
  intro nonces
  rw [← h nonces]
  rcases hrun : step.run.run nonces with ⟨e | a, after⟩
  · rw [run_bind_error hrun]
    rfl
  · rw [run_bind_ok hrun]
    rfl

theorem faults_message (cipher : ContentCipher) (m : Message) :
    Faults (m.toStored cipher) (cipher.fault? m.content) :=
  (faults_encrypt cipher m.content).bind_pure _

/-- Of several messages the first that is not encrypted ends the step. -/
theorem faults_messages (cipher : ContentCipher) (messages : List Message) :
    Faults (messages.mapM (Message.toStored cipher))
      (messages.findSome? fun m => cipher.fault? m.content) := by
  induction messages with
  | nil => exact fun nonces => rfl
  | cons m messages ih =>
      intro nonces
      rw [List.mapM_cons, List.findSome?_cons, ← faults_message cipher m nonces]
      rcases hrun : (m.toStored cipher).run.run nonces with ⟨e | stored, after⟩
      · rw [run_bind_error hrun]
        rfl
      · rw [run_bind_ok hrun]
        exact ih.bind_pure (stored :: ·) after

/-! ## Arguments -/

theorem checks_encrypting {α : Type} {step : ContentCipher.Drawing α}
    {fault? : Option CipherError} (h : Faults step fault?) (s : Store) :
    Checks s (encrypting step) (fault?.map fun e => .failed (.cipher e)) := by
  rw [← h s.nonces, encrypting, Checks, perform_bind_ok (perform_getThe s)]
  rcases step.run.run s.nonces with ⟨e | a, after⟩
  · exact ⟨_, after, rfl, rfl⟩
  · exact ⟨_, after, rfl, rfl⟩

theorem checks_requireId (id : String) (s : Store) : Checks s (requireId id) (idFault? id) := by
  rw [requireId, idFault?]
  split
  · exact ⟨_, s.nonces, rfl, rfl⟩
  · exact ⟨_, s.nonces, rfl, rfl⟩

theorem checks_requireUser (userId : String) (s : Store) : Checks s (requireUser userId)
    (if userId.isEmpty then some (.failed .invalidUserId) else none) := by
  rw [requireUser]
  split
  · exact ⟨_, s.nonces, rfl, rfl⟩
  · exact ⟨_, s.nonces, rfl, rfl⟩

theorem checks_validateRange (start finish : Timestamp) (s : Store) :
    Checks s (ofExcept (validateRange start finish)) (rangeFault? start finish) := by
  rw [validateRange, rangeFault?]
  split
  · exact ⟨_, s.nonces, rfl, rfl⟩
  · exact ⟨_, s.nonces, rfl, rfl⟩

theorem Checks.bind {α β : Type} {x : Action α} {f : α → Action β} {fault? fault?' : Option Abort}
    (h : Checks s x fault?) (h' : ∀ a nonces, Checks { s with nonces := nonces } (f a) fault?') :
    Checks s (x >>= f) (fault?.or fault?') := by
  obtain ⟨answer, nonces, hx, rfl⟩ := h
  cases answer with
  | error e => exact ⟨_, nonces, perform_bind_error hx, rfl⟩
  | ok a =>
      obtain ⟨answer', nonces', hf, hfault⟩ := h' a nonces
      exact ⟨answer', nonces', (perform_bind_ok hx).trans hf, hfault⟩

/-- Whether a stored form is valid is read off the session. -/
theorem errorOf_validate (session : Session) (figures : Int64 × Int64)
    (messages : List StoredMessage) :
    errorOf (validate (session.storedWith now figures messages)) = session.invalid? := by
  have hid : (session.storedWith now figures messages).id = session.id := rfl
  have hstart : (session.storedWith now figures messages).startTime = session.startTime := rfl
  have hend : (session.storedWith now figures messages).endTime = session.endTime := rfl
  rw [validate, hid, hstart, hend, Session.invalid?]
  split
  · rfl
  · cases session.endTime with
    | none => rfl
    | some finish =>
        simp only [Option.any_some, decide_eq_true_eq]
        split
        · rfl
        · rfl

/-- A session is prepared unless something is wrong with it. -/
theorem checks_prepare (now : Timestamp) (session : Session) (s : Store) :
    Checks s (prepare now session) (session.fault? s.cipher) := by
  rw [Checks, prepare, perform_bind_ok (perform_getThe s), Session.fault?, Session.toStored_eq]
  cases hfigures : responseFigures session.responseTimes with
  | none => exact ⟨_, s.nonces, rfl, rfl⟩
  | some figures =>
      rw [Option.map_some, if_neg (by simp),
        ← faults_messages s.cipher session.messages s.nonces]
      rcases hrun : (session.messages.mapM (Message.toStored s.cipher)).run.run s.nonces with
        ⟨e | messages, after⟩
      · refine ⟨_, after, perform_bind_error ?_, rfl⟩
        rw [encrypting, perform_bind_ok (perform_getThe s), run_bind_error hrun]
        rfl
      · have hencrypt : s.perform (encrypting (do
            let messages ← session.messages.mapM (Message.toStored s.cipher)
            pure (session.storedWith now figures messages)))
            = (.ok (session.storedWith now figures messages), { s with nonces := after }) :=
          perform_encrypting_run (run_bind_ok hrun)
        simp only []
        rw [perform_bind_ok hencrypt, ← errorOf_validate session figures messages]
        cases validate (session.storedWith now figures messages) with
        | error e => exact ⟨_, after, rfl, rfl⟩
        | ok u => exact ⟨_, after, rfl, rfl⟩

/-! ## Requests -/

/-- The session of a row that was found. -/
def loadFound : Option Row → Action Session
  | some row => load row
  | none => fail .notFound

theorem get_eq (id : String) : get id = (do
    requireId id
    let row? ← asking "get_session" (·.defaultSecs) fun table => .ok (table.row? id)
    loadFound row?) := by
  rw [get, requireId]
  split
  · rfl
  · rfl

theorem listing_eq (name : String) (timeout : TimeoutSettings → UInt64) (q : ListQuery) :
    listing name timeout q = (do
      requireWindow q
      let s ← getThe Store
      let rows ← retrying name timeout (s.pageAsked q)
      rows.mapM fun row => ofExcept (summary row)) := by
  rw [listing, requireWindow]
  cases q.startFrom with
  | none => rfl
  | some start =>
      cases q.startTo with
      | none => rfl
      | some finish => rfl

theorem listUser_eq (userId : String) (limit : UInt32) : listUser userId limit = (do
    requireUser userId
    listing "list_user_sessions" (·.defaultSecs)
      { ListQuery.all with limit := limit, userId := some userId }) := by
  rw [listUser, requireUser]
  split
  · rfl
  · rfl

theorem checks_requireWindow (q : ListQuery) (s : Store) :
    Checks s (requireWindow q) ((Operation.list q).fault? s.cipher) := by
  rw [requireWindow, Operation.fault?]
  split
  · exact checks_validateRange _ _ s
  · exact ⟨_, s.nonces, rfl, rfl⟩

/-- The summaries of the rows of a page. -/
def summariesOf (rows : List ListedRow) : Action Answer := do
  let found ← rows.mapM fun row => ofExcept (summary row)
  pure (.summaries found)

theorem pageAsked_withNonce (s : Store) (nonces : Nonces) (q : ListQuery) :
    pageAsked { s with nonces := nonces } q = s.pageAsked q := rfl

/-- A listing asks for its page, whose size the settings of the store limit. -/
theorem requested_listing (check : Action Unit) (timeout : TimeoutSettings → UInt64)
    {q : ListQuery}
    (hrun : run now operation = do
      check
      let s ← getThe Store
      let rows ← retrying name timeout (s.pageAsked q)
      summariesOf rows)
    (htimeout : timeout s.settings.timeouts = operation.seconds s.settings.timeouts)
    (htask : s.task? now operation = taskFor (s.perform check).1 fun _ => s.pageAsked q)
    (hchecks : Checks s check (operation.fault? s.cipher)) : Requested s now operation name := by
  refine requested_after _ (fun _ x => summariesOf x.1) (congrArg s.perform hrun) ?_ htask hchecks
  intro _ nonces
  rw [perform_bind_ok (perform_getThe _), pageAsked_withNonce]
  exact perform_retrying_bind _ name (congrArg Progress.start htimeout)

theorem checks_nothing (s : Store) : Checks s (pure ()) none := ⟨_, s.nonces, rfl, rfl⟩

/-- Whatever is requested, the arguments are checked and then one task is asked of the table. -/
theorem requested (s : Store) (now : Timestamp) (hname : operation.name? = some name) :
    Requested s now operation name := by
  cases operation with
  | create session =>
      cases hname
      exact requested_of (·.defaultSecs) (fun stored _ => do
          modify fun s => { s with counters := s.counters.create stored.endTime.isNone }
          pure .nothing)
        (by simp only [run, create, bind_assoc]) rfl rfl (checks_prepare now session s)
  | update session =>
      cases hname
      exact requested_of (·.defaultSecs) (fun _ ended => do countEnded ended; pure .nothing)
        (by simp only [run, update, bind_assoc]) rfl rfl (checks_prepare now session s)
  | get id =>
      cases hname
      exact requested_of (·.defaultSecs)
        (fun _ row? => do let v ← loadFound row?; pure (.session v))
        (by simp only [run, get_eq, map_eq_pure_bind, bind_assoc, asking_eq]) rfl rfl
        (checks_requireId id s)
  | addMessage id message =>
      cases hname
      refine requested_after (fun stored => do
          let touched ← retrying "add_message" (·.messageAddSecs) (appending id stored now.toColumn)
          (if touched = 0 then fail .notFound else pure ()) >>= fun _ => pure .nothing)
        (fun _ x => (if x.1 = 0 then fail .notFound else pure ()) >>= fun _ => pure .nothing)
        ?_ (fun _ _ => perform_retrying_bind _ _ rfl) rfl ?_
      · -- the cipher is looked up after the id is checked: with it the two checks are one argument
        simp only [run, addMessage, bind_assoc]
        rcases perform_requireId id s with hid | ⟨e, hid⟩
        · rw [perform_bind_ok hid, perform_bind_ok hid, perform_bind_ok (perform_getThe s)]
        · rw [perform_bind_error hid, perform_bind_error hid]
      · refine (checks_requireId id s).bind fun _ nonces => ?_
        exact checks_encrypting (faults_message s.cipher message) _
  | finish id time =>
      cases hname
      refine requested_after (fun _ => do
          let ended ← retryingFrom "end_session" s.endProgress (ending id time.toColumn)
          afterEnding id ended.1 ended.2
          pure .nothing)
        (fun _ x => do afterEnding id x.1 x.2; pure .nothing) ?_ (fun _ _ => rfl) rfl
        (checks_requireId id s)
      rw [run, perform_bind_congr (perform_finish_eq id time s)]
      simp only [bind_assoc]
  | listUser userId limit =>
      cases hname
      exact requested_listing (requireUser userId) (·.defaultSecs) (by
          simp only [run, listUser_eq, listing_eq, map_eq_pure_bind, bind_assoc]
          rfl)
        rfl rfl (checks_requireUser userId s)
  | listAll limit =>
      cases hname
      exact requested_listing (pure ()) (·.defaultSecs) (by
          simp only [run, listAll, listing_eq, map_eq_pure_bind, bind_assoc]
          rfl)
        rfl rfl (checks_nothing s)
  | list q =>
      cases hname
      exact requested_listing (requireWindow q) (·.metricsSecs)
        (by simp only [run, list, listing_eq, map_eq_pure_bind, bind_assoc, summariesOf]) rfl rfl
        (checks_requireWindow q s)
  | active =>
      cases hname
      refine requested_at_once (·.defaultSecs) (fun rows => .sessions <$> rows.mapM load) ?_
        rfl rfl rfl
      simp only [run, active, map_bind]
      exact perform_bind_ok (perform_getThe s)
  | ensureIndexes =>
      cases hname
      exact requested_at_once (·.indexSecs) (fun _ => do report indexEvent; pure .nothing)
        (by simp only [run, ensureIndexes, bind_assoc]) rfl rfl rfl
  | metrics start finish =>
      cases hname
      refine requested_after _ (fun _ x => .report <$> do
          if x.1.truncated then
            report (truncationEvent start finish (max s.settings.metrics.maxScan 1))
          pure x.1)
        (congrArg s.perform (map_bind _ _ _)) ?_ rfl (checks_validateRange start finish s)
      -- the limit of the scan is read when the window has been checked, and is still that of `s`
      intro _ nonces
      simp only [map_bind]
      refine (perform_bind_ok (perform_getThe { s with nonces := nonces })).trans ?_
      exact perform_retrying_bind _ _ rfl
  | tokens start finish =>
      cases hname
      exact requested_of (·.defaultSecs) (fun _ total => pure (.count (countOf total).toNat))
        (by simp only [run, tokens, bind_assoc, asking_eq, pure_bind]) rfl rfl
        (checks_validateRange start finish s)
  | _ => cases hname

end Store

end ChatArchive
