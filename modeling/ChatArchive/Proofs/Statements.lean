import ChatArchive.Proofs.Sealing
import ChatArchive.Store.Operation

/-!
# Statements and the actions around them

An action of the store hands its answer and the store on to the next one, and
ends with the store as it is when it fails. A retried transaction changes the
table once or not at all: an attempt that fails leaves the table as it was, so the
next one meets the same rows, under a refusal of its own, and the events are all that
a failure leaves behind.

Actions that at most report something are `Quiet`. Everything that reads a store
is.
-/

namespace ChatArchive

/-- An operation that only reads sessions. -/
def Operation.Reads : Operation → Prop
  | .get _ | .listUser _ _ | .listAll _ | .list _ | .active | .metrics _ _ | .tokens _ _ => True
  | _ => False

namespace Store

variable {α β : Type} {s t : Store}

/-! ## Actions in sequence -/

theorem perform_bind_ok {x : Action α} {f : α → Action β} {a : α}
    (h : s.perform x = (.ok a, t)) : s.perform (x >>= f) = t.perform (f a) :=
  run_bind_ok h

theorem perform_bind_error {x : Action α} {f : α → Action β} {e : Abort}
    (h : s.perform x = (.error e, t)) : s.perform (x >>= f) = (.error e, t) :=
  run_bind_error h

theorem perform_bind_congr {x y : Action α} {f : α → Action β} (h : s.perform x = s.perform y) :
    s.perform (x >>= f) = s.perform (y >>= f) := by
  rcases hy : s.perform y with ⟨e | a, t⟩
  · rw [perform_bind_error hy, perform_bind_error (h.trans hy)]
  · rw [perform_bind_ok hy, perform_bind_ok (h.trans hy)]

theorem perform_tryCatch_ok {x : Action α} {f : Abort → Action α} {a : α}
    (h : s.perform x = (.ok a, t)) : s.perform (tryCatch x f) = (.ok a, t) := by
  have hx : x.run.run s = (.ok a, t) := h
  show (tryCatch x f).run.run s = _
  rw [run_tryCatch, hx]

theorem perform_tryCatch_error {x : Action α} {f : Abort → Action α} {e : Abort}
    (h : s.perform x = (.error e, t)) : s.perform (tryCatch x f) = t.perform (f e) := by
  have hx : x.run.run s = (.error e, t) := h
  show (tryCatch x f).run.run s = _
  rw [run_tryCatch, hx]
  rfl

theorem perform_pure (s : Store) (a : α) : s.perform (pure a) = (.ok a, s) := rfl

theorem perform_fail (s : Store) (e : StoreError) :
    s.perform (fail e : Action α) = (.error (.failed e), s) := rfl

theorem perform_ofExcept_ok (s : Store) (a : α) :
    s.perform (ofExcept (.ok a)) = (.ok a, s) := rfl

theorem perform_ofExcept_error (s : Store) (e : StoreError) :
    s.perform (ofExcept (.error e) : Action α) = (.error (.failed e), s) := rfl

theorem perform_getThe (s : Store) : s.perform (getThe Store) = (.ok s, s) := rfl

theorem perform_modify (s : Store) (f : Store → Store) :
    s.perform (modify f) = (.ok ⟨⟩, f s) := rfl

theorem perform_report (s : Store) (e : Event) :
    s.perform (report e) = (.ok ⟨⟩, { s with events := s.events ++ [e] }) := rfl

/-! ## Refusals of the moment -/

theorem paused_zero (t : Table) : t.paused 0 = t := rfl

/-- The first attempt meets the table as it is. -/
theorem after_zero {transaction : Transaction α} {t t' : Table} {a : α}
    (h : transaction t = .ok (a, t')) (hkept : t'.refusal = t.refusal) :
    transaction.after 0 t = .ok (a, t') := by
  rw [Transaction.after, paused_zero, h, ← hkept]
  rfl

theorem after_eq_error {transaction : Transaction α} {t : Table} {e : StoreError} {pauses : Nat} :
    transaction.after pauses t = .error e ↔ transaction (t.paused pauses) = .error e := by
  rw [Transaction.after]
  cases transaction (t.paused pauses) with
  | ok result => exact iff_of_false nofun nofun
  | error e' => exact Iff.rfl

/-- What an attempt has done, it has done under the refusal of the moment. -/
theorem of_after_ok {transaction : Transaction α} {t t' : Table} {a : α} {pauses : Nat}
    (h : transaction.after pauses t = .ok (a, t')) :
    ∃ changed, transaction (t.paused pauses) = .ok (a, changed) ∧
      t' = changed.refusing t.refusal := by
  rw [Transaction.after] at h
  split at h
  · next b changed hchanged =>
      cases h
      exact ⟨changed, hchanged, rfl⟩
  · cases h

/-! ## Retried transactions -/

section Retried

variable {operation : String} {timeout : TimeoutSettings → UInt64} {p : Progress}
  {transaction : Transaction α} {a : α} {table : Table} {e : StoreError}

theorem attempt_closed (h : s.closed = true) :
    (surroundings transaction).attempt (s, p) = (.error .cancelled, s, p) := if_pos h

theorem attempt_ok (hopen : s.closed = false)
    (h : transaction.after p.pauses s.table = .ok (a, table)) :
    (surroundings transaction).attempt (s, p) = (.ok (.ok a), { s with table := table }, p) := by
  simp only [surroundings]
  rw [if_neg (by rw [hopen]; decide), h]

theorem attempt_error (hopen : s.closed = false)
    (h : transaction.after p.pauses s.table = .error e) :
    (surroundings transaction).attempt (s, p) = (.ok (.error e), s, p) := by
  simp only [surroundings]
  rw [if_neg (by rw [hopen]; decide), h]

theorem pause_some {p' : Progress} {delay : Time.Span} (h : p.pause? delay = some p') :
    (surroundings transaction).pause delay (s, p) = (none, s, p') := by
  simp only [surroundings, h]

theorem pause_none {delay : Time.Span} (h : p.pause? delay = none) :
    (surroundings transaction).pause delay (s, p) = (some .deadlineExceeded, s, p) := by
  simp only [surroundings, h]

theorem report_apply (transaction : Transaction α) (e : Event) (s : Store) (p : Progress) :
    (surroundings transaction).report e (s, p) = ({ s with events := s.events ++ [e] }, p) := rfl

/-- What attempts have come to: one of them changed the table and was the last, or all that they
have left is events. -/
inductive Settled (s : Store) (transaction : Transaction α) :
    Retry.Outcome StoreError α × Store × Progress → Prop
  | done {a : α} {table : Table} {p : Progress} (events : List Event) (hopen : s.closed = false)
      (h : transaction.after p.pauses s.table = .ok (a, table)) :
    Settled s transaction (.done a, { s with table := table, events := events }, p)
  | failed (failure : Retry.Failure StoreError) (events : List Event) (p : Progress) :
    Settled s transaction (.failed failure, { s with events := events }, p)
  | overflow (events : List Event) (p : Progress) :
    Settled s transaction (.overflow, { s with events := events }, p)

/-- Events that were reported earlier make no difference. -/
theorem Settled.of_events {events : List Event}
    {result : Retry.Outcome StoreError α × Store × Progress}
    (h : Settled { s with events := events } transaction result) :
    Settled s transaction result := by
  cases h with
  | done events hopen h => exact .done events hopen h
  | failed failure events p => exact .failed failure events p
  | overflow events p => exact .overflow events p

/-- An attempt that fails leaves the table as it was, so the next one meets the same rows: the
induction is on the attempts that are left. -/
theorem attemptFrom_settled (plan : Retry.Plan StoreError) (transaction : Transaction α)
    (left made : Nat) (delay : Time.Span) (s : Store) (p : Progress) :
    Settled s transaction
      (Retry.attemptFrom plan (surroundings transaction) left made delay (s, p)) := by
  rcases Bool.eq_false_or_eq_true s.closed with hclosed | hopen
  · rw [Retry.attemptFrom.eq_def, attempt_closed hclosed]
    exact .failed _ s.events p
  · induction left generalizing made delay s p with
    | zero =>
        rw [Retry.attemptFrom]
        cases h : transaction.after p.pauses s.table with
        | ok result =>
            rw [attempt_ok hopen h]
            exact .done s.events hopen h
        | error e =>
            rw [attempt_error hopen h]
            simp only []
            split
            · exact .failed _ s.events p
            · exact .failed _ s.events p
    | succ left ih =>
        rw [Retry.attemptFrom]
        cases h : transaction.after p.pauses s.table with
        | ok result =>
            rw [attempt_ok hopen h]
            exact .done s.events hopen h
        | error e =>
            rw [attempt_error hopen h]
            simp only []
            split
            · exact .failed _ s.events p
            · rw [report_apply]
              cases hpause : p.pause? delay with
              | none =>
                  rw [pause_none hpause]
                  exact .failed _ _ p
              | some p' =>
                  rw [pause_some hpause]
                  simp only []
                  split
                  · exact .overflow _ p'
                  · exact Settled.of_events (ih _ _ { s with events := _ } p' hopen)

/-- A transaction that succeeds at once needs no other attempt. -/
theorem perform_retryingFrom_ok (hopen : s.closed = false)
    (h : transaction.after p.pauses s.table = .ok (a, table)) :
    s.perform (retryingFrom operation p transaction)
      = (.ok (a, p), { s with table := table }) := by
  have hrun : Retry.run (plan s.settings operation) (surroundings transaction) (s, p)
      = (.done a, { s with table := table }, p) := by
    rw [Retry.run, Retry.attemptFrom.eq_def, attempt_ok hopen h]
  rw [retryingFrom, perform_bind_ok (perform_getThe s), hrun]
  rfl

/-- A retried transaction succeeds once, or it leaves only events. -/
theorem perform_retryingFrom (operation : String) (p : Progress) (transaction : Transaction α)
    (s : Store) :
    (∃ a p' table events, s.closed = false ∧
        transaction.after p'.pauses s.table = .ok (a, table) ∧
        s.perform (retryingFrom operation p transaction)
          = (.ok (a, p'), { s with table := table, events := events })) ∨
      ∃ e events, s.perform (retryingFrom operation p transaction)
        = (.error e, { s with events := events }) := by
  have hsettled := attemptFrom_settled (plan s.settings operation) transaction
    ((plan s.settings operation).policy.attemptLimit - 1) 0
    (plan s.settings operation).policy.firstDelay s p
  rw [← Retry.run] at hsettled
  rw [retryingFrom, perform_bind_ok (perform_getThe s)]
  generalize Retry.run _ (surroundings transaction) (s, p) = result at hsettled
  cases hsettled with
  | @done a table p' events hopen h => exact Or.inl ⟨a, p', table, events, hopen, h, rfl⟩
  | failed failure events p' => exact Or.inr ⟨_, events, rfl⟩
  | overflow events p' => exact Or.inr ⟨_, events, rfl⟩

/-- A store that is shut down starts nothing. -/
theorem perform_retryingFrom_closed (hclosed : s.closed = true) (operation : String)
    (p : Progress) (transaction : Transaction α) :
    s.perform (retryingFrom operation p transaction)
      = (.error (.failed (.cancelled operation .cancelled)), s) := by
  have hrun : Retry.run (plan s.settings operation) (surroundings transaction) (s, p)
      = (.failed (.cancelled operation 0 .cancelled), s, p) := by
    rw [Retry.run, Retry.attemptFrom.eq_def, attempt_closed hclosed]
    rfl
  rw [retryingFrom, perform_bind_ok (perform_getThe s), hrun]
  rfl

/-- A failure that does not pass by itself is the answer of the first attempt. -/
theorem perform_retryingFrom_permanent (hopen : s.closed = false)
    (h : transaction.after p.pauses s.table = .error e) (hpermanent : isTransient e = false) :
    s.perform (retryingFrom operation p transaction) = (.error (.failed e), s) := by
  have hrun : Retry.run (plan s.settings operation) (surroundings transaction) (s, p)
      = (.failed (.permanent e), s, p) := by
    rw [Retry.run, Retry.attemptFrom.eq_def, attempt_error hopen h]
    exact if_pos (congrArg Bool.not hpermanent)
  rw [retryingFrom, perform_bind_ok (perform_getThe s), hrun]
  rfl

/-- The transaction of an operation that begins is that of one that has all of its time left. -/
theorem perform_retrying_eq {x : Except Abort α} (timeout : TimeoutSettings → UInt64)
    {q : Except Abort (α × Progress)} {t : Store}
    (h : s.perform (retryingFrom operation (.start (timeout s.settings.timeouts)) transaction)
      = (q, t)) (hx : q.map Prod.fst = x) :
    s.perform (retrying operation timeout transaction) = (x, t) := by
  rw [retrying, perform_bind_ok (perform_getThe s)]
  subst hx
  cases q with
  | ok q => rw [perform_bind_ok h]; rfl
  | error e => rw [perform_bind_error h]; rfl

theorem perform_retrying_ok (hopen : s.closed = false)
    (h : transaction s.table = .ok (a, table)) (hkept : table.refusal = s.table.refusal) :
    s.perform (retrying operation timeout transaction) = (.ok a, { s with table := table }) :=
  perform_retrying_eq timeout (perform_retryingFrom_ok hopen (after_zero h hkept)) rfl

theorem perform_retrying_permanent (hopen : s.closed = false)
    (h : transaction s.table = .error e) (hpermanent : isTransient e = false) :
    s.perform (retrying operation timeout transaction) = (.error (.failed e), s) :=
  perform_retrying_eq timeout
    (perform_retryingFrom_permanent hopen (after_eq_error.2 h) hpermanent) rfl

theorem perform_retrying (operation : String) (timeout : TimeoutSettings → UInt64)
    (transaction : Transaction α) (s : Store) :
    (∃ a pauses table events, s.closed = false ∧
        transaction.after pauses s.table = .ok (a, table) ∧
        s.perform (retrying operation timeout transaction)
          = (.ok a, { s with table := table, events := events })) ∨
      ∃ e events, s.perform (retrying operation timeout transaction)
        = (.error e, { s with events := events }) := by
  rcases perform_retryingFrom operation (.start (timeout s.settings.timeouts)) transaction s with
    ⟨a, p, table, events, hopen, h, hperform⟩ | ⟨e, events, hperform⟩
  · exact Or.inl ⟨a, p.pauses, table, events, hopen, h, perform_retrying_eq timeout hperform rfl⟩
  · exact Or.inr ⟨e, events, perform_retrying_eq timeout hperform rfl⟩

end Retried

/-! ## Questions -/

/-- A question as a transaction that leaves the table as it is. -/
def asked (question : Table → Except DatabaseError α) : Transaction α := fun table =>
  match question table with
  | .ok a => .ok (a, table)
  | .error e => .error e.toStoreError

theorem asking_eq (operation : String) (timeout : TimeoutSettings → UInt64)
    (question : Table → Except DatabaseError α) :
    asking operation timeout question = retrying operation timeout (asked question) := rfl

/-- A question has its answer from the rows and the indexes. -/
def Plain (question : Table → Except DatabaseError α) : Prop :=
  ∀ (t : Table) (refusal : Option Refusal), question (t.refusing refusal) = question t

/-- A question that is answered leaves the table as it was. -/
theorem of_asked_after {question : Table → Except DatabaseError α} {t t' : Table} {a : α}
    {pauses : Nat} (h : (asked question).after pauses t = .ok (a, t')) :
    t' = t ∧ question (t.paused pauses) = .ok a := by
  obtain ⟨changed, hchanged, rfl⟩ := of_after_ok h
  rw [asked] at hchanged
  split at hchanged
  · next hanswer =>
      cases hchanged
      exact ⟨rfl, hanswer⟩
  · cases hchanged

theorem after_asked {question : Table → Except DatabaseError α} (hplain : Plain question)
    (pauses : Nat) (t : Table) : (asked question).after pauses t = asked question t := by
  rw [Transaction.after, asked, asked, Table.paused, hplain]
  cases question t with
  | ok a => rfl
  | error e => rfl

theorem perform_asking_ok {operation : String} {timeout : TimeoutSettings → UInt64}
    {question : Table → Except DatabaseError α} {a : α} (hopen : s.closed = false)
    (h : question s.table = .ok a) :
    s.perform (asking operation timeout question) = (.ok a, s) := by
  rw [asking_eq]
  exact perform_retrying_ok hopen (by rw [asked, h]) rfl

/-! ## Encryption -/

theorem perform_encrypting (step : ContentCipher.Drawing α) (s : Store) :
    ∃ nonces, (∃ a, ContentCipher.DrawsFrom step s.nonces a ∧
        s.perform (encrypting step) = (.ok a, { s with nonces := nonces })) ∨
      ∃ e, s.perform (encrypting step) = (.error e, { s with nonces := nonces }) := by
  rw [encrypting, perform_bind_ok (perform_getThe s)]
  rcases hstep : step.run.run s.nonces with ⟨_ | a, nonces⟩
  · exact ⟨nonces, Or.inr ⟨_, rfl⟩⟩
  · exact ⟨nonces, Or.inl ⟨a, congrArg Prod.fst hstep, rfl⟩⟩

/-! ## Quiet actions -/

/-- An action that changes nothing but the events. -/
def Quiet (x : Action α) : Prop :=
  ∀ s : Store, ∃ answer events, s.perform x = (answer, { s with events := events })

namespace Quiet

theorem pure (a : α) : Quiet (Pure.pure a) := fun s => ⟨_, s.events, rfl⟩

theorem fail (e : StoreError) : Quiet (Store.fail e : Action α) := fun s => ⟨_, s.events, rfl⟩

theorem ofExcept (x : Except StoreError α) : Quiet (Store.ofExcept x) := by
  cases x with
  | error e => exact .fail e
  | ok a => exact .pure a

theorem getThe : Quiet (MonadStateOf.get : Action Store) := fun s => ⟨_, s.events, rfl⟩

theorem report (e : Event) : Quiet (Store.report e) := fun _ => ⟨_, _, rfl⟩

theorem bind {x : Action α} {f : α → Action β} (hx : Quiet x) (hf : ∀ a, Quiet (f a)) :
    Quiet (x >>= f) := by
  intro s
  obtain ⟨_ | a, events, h⟩ := hx s
  · exact ⟨_, events, perform_bind_error h⟩
  · obtain ⟨answer, events', h'⟩ := hf a { s with events := events }
    exact ⟨answer, events', by rw [perform_bind_ok h, h']⟩

theorem map {x : Action α} (f : α → β) (hx : Quiet x) : Quiet (f <$> x) := by
  rw [map_eq_pure_bind]
  exact hx.bind fun a => .pure (f a)

theorem mapM {f : α → Action β} (hf : ∀ a, Quiet (f a)) (as : List α) :
    Quiet (as.mapM f) := by
  induction as with
  | nil => exact .pure []
  | cons a as ih =>
      rw [List.mapM_cons]
      exact (hf a).bind fun b => ih.bind fun bs => .pure (b :: bs)

theorem forM {f : α → Action PUnit} (hf : ∀ a, Quiet (f a)) (as : List α) :
    Quiet (as.forM f) := by
  induction as with
  | nil => exact .pure PUnit.unit
  | cons a as ih => exact bind (hf a) fun _ => ih

/-- A question leaves the table as it is, whether it is answered or not. -/
theorem asking (operation : String) (timeout : TimeoutSettings → UInt64)
    (question : Table → Except DatabaseError α) :
    Quiet (Store.asking operation timeout question) := by
  intro s
  rw [asking_eq]
  rcases perform_retrying operation timeout (asked question) s with
    ⟨a, pauses, table, events, -, hasked, h⟩ | ⟨e, events, h⟩
  · rw [(of_asked_after hasked).1] at h
    exact ⟨_, events, h⟩
  · exact ⟨_, events, h⟩

theorem load (row : Row) : Quiet (Store.load row) := by
  refine (ofExcept _).bind fun stored => getThe.bind fun s => ?_
  exact (forM report _).bind fun _ => .pure _

theorem found (row? : Option Row) :
    Quiet (match row? with
      | some row => Store.load row
      | none => Store.fail .notFound) := by
  cases row? with
  | some row => exact load row
  | none => exact fail _

theorem get (id : String) : Quiet (Store.get id) := by
  rw [Store.get]
  split
  · exact (fail _).bind fun _ => (asking _ _ _).bind found
  · exact (asking _ _ _).bind found

theorem active : Quiet Store.active :=
  getThe.bind fun _ => (asking _ _ _).bind fun rows => mapM load rows

theorem listing (operation : String) (timeout : TimeoutSettings → UInt64) (q : ListQuery) :
    Quiet (Store.listing operation timeout q) := by
  have hrest : Quiet (do
      let s ← MonadStateOf.get (σ := Store)
      let size := q.pageSize s.settings.listing.defaultLimit s.settings.listing.maxLimit
      let rows ← Store.asking operation timeout (page q size.toNat)
      rows.mapM fun row => Store.ofExcept (summary row)) :=
    getThe.bind fun _ => (asking _ _ _).bind fun rows => mapM (fun row => ofExcept _) rows
  rw [Store.listing]
  split
  · exact (ofExcept _).bind fun _ => hrest
  · exact hrest

theorem listUser (userId : String) (limit : UInt32) : Quiet (Store.listUser userId limit) := by
  rw [Store.listUser]
  split
  · exact (fail _).bind fun _ => listing _ _ _
  · exact listing _ _ _

theorem metrics (start finish : Time.Timestamp) : Quiet (Store.metrics start finish) := by
  refine (ofExcept _).bind fun _ => getThe.bind fun s => (asking _ _ _).bind fun figures => ?_
  split
  · exact (report _).bind fun _ => .pure _
  · exact .pure _

theorem tokens (start finish : Time.Timestamp) : Quiet (Store.tokens start finish) :=
  (ofExcept _).bind fun _ => (asking _ _ _).bind fun _ => .pure _

/-- Reading is quiet. -/
theorem run {operation : Operation} (h : operation.Reads) (now : Time.Timestamp) :
    Quiet (Store.run now operation) := by
  cases operation with
  | get id => exact (get id).map _
  | listUser userId limit => exact (listUser userId limit).map _
  | listAll limit => exact (listing _ _ _).map _
  | list query => exact (listing _ _ _).map _
  | active => exact active.map _
  | metrics start finish => exact (metrics start finish).map _
  | tokens start finish => exact (tokens start finish).bind fun _ => .pure _
  | _ => exact absurd h id

end Quiet

end Store

end ChatArchive
