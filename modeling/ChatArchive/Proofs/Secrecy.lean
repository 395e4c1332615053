import ChatArchive.Proofs.Indifference
import ChatArchive.Proofs.Runs
import ChatArchive.Proofs.Underway

/-!
# Secrecy of message content

Two runs of a store that differ in message content only cannot be told apart by what they
answer and report, except where an answer is a session, and then by the content of its
messages only. What they leave in the table differs in sealed texts only.

Every operation is put together from steps that run in lockstep on stores that are alike.
The step lemma goes through the operations, and a run is an induction over its calls.
-/

namespace ChatArchive

open Cipher ContentCipher Time

namespace Store

/-! ## Steps of an operation -/

section Steps

variable {cipher : ContentCipher} {α β : Type} {R : α → β → Prop}

namespace Alike

variable {s s' : Store}

theorem cipher_eq (h : s.Alike cipher s') : s.cipher = cipher ∧ s'.cipher = cipher := by
  cases h with
  | mk s hcipher h => exact ⟨hcipher, hcipher⟩

theorem settings_eq (h : s.Alike cipher s') : s.settings = s'.settings := by
  cases h with
  | mk s hcipher h => rfl

end Alike

theorem lockstep_fail (e : StoreError) :
    Lockstep (Store.Alike cipher) R (Store.fail e) (Store.fail e) :=
  .throw (Abort.failed e)

theorem lockstep_ofExcept {x : Except StoreError α} {y : Except StoreError β}
    (h : Agree R x y) :
    Lockstep (Store.Alike cipher) R (Store.ofExcept x) (Store.ofExcept y) := by
  cases h with
  | error e => exact lockstep_fail e
  | ok h => exact .pure h

theorem lockstep_sameExcept (x : Except StoreError α) :
    Lockstep (Store.Alike cipher) Eq (Store.ofExcept x) (Store.ofExcept x) :=
  lockstep_ofExcept (.of_eq (fun _ => rfl) rfl)

theorem lockstep_report (e : Event) :
    Lockstep (Store.Alike cipher) Eq (report e) (report e) :=
  .modify fun s s' h => by
    cases h with
    | mk s hcipher h => exact .mk { s with events := s.events ++ [e] } hcipher h

theorem lockstep_reports (events : List Event) :
    Lockstep (Store.Alike cipher) Eq (events.forM report) (events.forM report) := by
  induction events with
  | nil => exact .pure rfl
  | cons e events ih => exact (lockstep_report e).bind fun _ _ _ => ih

theorem surroundings_agree {f : Transaction α} {g : Transaction β}
    (hfg : Transaction.Agree cipher R f g) :
    Retry.Surroundings.Agree (Underway (Store.Alike cipher)) R (surroundings f)
      (surroundings g) where
  attempt s s' h := by
    obtain ⟨s, p⟩ := s
    obtain ⟨s', p'⟩ := s'
    obtain ⟨h, rfl⟩ := h
    cases h with
    | @mk s hcipher t t' h =>
        have htransaction := hfg.after p.pauses t t' h
        simp only [surroundings]
        split
        · exact ⟨.error _, .mk s hcipher h, rfl⟩
        · generalize f.after p.pauses t = x at htransaction ⊢
          generalize g.after p.pauses t' = y at htransaction ⊢
          cases htransaction with
          | error e => exact ⟨.ok (.error e), .mk s hcipher h, rfl⟩
          | ok hpq => exact ⟨.ok (.ok hpq.1), .mk s hcipher hpq.2, rfl⟩
  pause := underway_pause f g
  report e s s' h := by
    obtain ⟨s, p⟩ := s
    obtain ⟨s', p'⟩ := s'
    obtain ⟨h, hp⟩ := h
    cases h with
    | mk s hcipher h => exact ⟨.mk { s with events := s.events ++ [e] } hcipher h, hp⟩

theorem lockstep_retriedFrom (operation : String) (p : Progress) {f : Transaction α}
    {g : Transaction β} (hfg : Transaction.Agree cipher R f g) :
    Lockstep (Store.Alike cipher) (fun x y => R x.1 y.1 ∧ x.2 = y.2)
      (retryingFrom operation p f) (retryingFrom operation p g) :=
  lockstep_retryingFrom (fun h => h.settings_eq) (surroundings_agree hfg) operation p

theorem lockstep_retried (operation : String) (timeout : TimeoutSettings → UInt64)
    {f : Transaction α} {g : Transaction β} (hfg : Transaction.Agree cipher R f g) :
    Lockstep (Store.Alike cipher) R (retrying operation timeout f)
      (retrying operation timeout g) :=
  lockstep_retrying (fun h => h.settings_eq) (surroundings_agree hfg) operation timeout

theorem lockstep_asking (operation : String) (timeout : TimeoutSettings → UInt64)
    {f : Table → Except DatabaseError α} {g : Table → Except DatabaseError β}
    (hfg : ∀ t t', t.Alike cipher t' → Agree R (f t) (g t')) :
    Lockstep (Store.Alike cipher) R (asking operation timeout f)
      (asking operation timeout g) := by
  rw [asking_eq, asking_eq]
  exact lockstep_retried operation timeout (asked_agree hfg)

/-- Steps that draw nonces in lockstep draw the same number of them. -/
theorem lockstep_encrypting {step : Drawing α} {step' : Drawing β}
    (h : Lockstep Eq R step step') :
    Lockstep (Store.Alike cipher) R (encrypting step) (encrypting step') := by
  intro s s' hs
  cases hs with
  | @mk s hcipher t t' htable =>
      obtain ⟨hanswer, hnonce⟩ := h s.nonces s.nonces rfl
      rw [encrypting, encrypting, run_bind_ok (run_getThe _), run_bind_ok (run_getThe _)]
      dsimp only
      generalize step.run.run s.nonces = p at hanswer hnonce ⊢
      generalize step'.run.run s.nonces = p' at hanswer hnonce ⊢
      obtain ⟨answer, nonces⟩ := p
      obtain ⟨answer', nonces'⟩ := p'
      cases hnonce
      cases hanswer with
      | error e => exact ⟨.error _, .mk { s with nonces := nonces } hcipher htable⟩
      | ok hab => exact ⟨.ok hab, .mk { s with nonces := nonces } hcipher htable⟩

end Steps

/-! ## Reading -/

section Reading

variable {cipher : ContentCipher}

theorem lockstep_load {r r' : Row} (hr : r.Alike cipher r') :
    Lockstep (Store.Alike cipher) Session.Alike (load r) (load r') := by
  refine (lockstep_ofExcept hr.toStored).bind fun x x' hx => ?_
  refine Lockstep.getThe.bind fun s s' hs => ?_
  rw [hs.cipher_eq.1, hs.cipher_eq.2, hx.revealEvents]
  exact (lockstep_reports _).bind fun _ _ _ => .pure hx.toSession

theorem lockstep_found {row? row?' : Option Row} :
    Option.Rel (Row.Alike cipher) row? row?' → Lockstep (Store.Alike cipher) Session.Alike
      (match row? with
        | some row => load row
        | none => Store.fail .notFound)
      (match row?' with
        | some row => load row
        | none => Store.fail .notFound) := by
  intro h
  cases h with
  | some hr => exact lockstep_load hr
  | none => exact lockstep_fail _

theorem lockstep_get (id : String) :
    Lockstep (Store.Alike cipher) Session.Alike (get id) (get id) := by
  have hask : Lockstep (Store.Alike cipher) (Option.Rel (Row.Alike cipher))
      (asking "get_session" (·.defaultSecs) fun table => .ok (table.row? id))
      (asking "get_session" (·.defaultSecs) fun table => .ok (table.row? id)) :=
    lockstep_asking _ _ fun t t' h => .ok (row?_rel h id)
  rw [get]
  split
  · exact (lockstep_fail (R := Eq) _).bind fun _ _ _ => hask.bind fun _ _ h => lockstep_found h
  · exact hask.bind fun _ _ h => lockstep_found h

theorem lockstep_active :
    Lockstep (Store.Alike cipher) (List.Forall₂ Session.Alike) active active := by
  refine Lockstep.getThe.bind fun s s' hs => ?_
  rw [hs.settings_eq]
  refine (lockstep_asking _ _ fun t t' h => .ok (active_rel h _)).bind fun rows rows' hrows => ?_
  exact Lockstep.mapM hrows fun r r' hr => lockstep_load hr

theorem lockstep_listing (operation : String) (timeout : TimeoutSettings → UInt64)
    (q : ListQuery) : Lockstep (Store.Alike cipher) Eq (listing operation timeout q)
      (listing operation timeout q) := by
  have hrest : Lockstep (Store.Alike cipher) Eq (do
      let s ← MonadStateOf.get (σ := Store)
      let size := q.pageSize s.settings.listing.defaultLimit s.settings.listing.maxLimit
      let rows ← asking operation timeout (page q size.toNat)
      rows.mapM fun row => Store.ofExcept (summary row)) (do
      let s ← MonadStateOf.get (σ := Store)
      let size := q.pageSize s.settings.listing.defaultLimit s.settings.listing.maxLimit
      let rows ← asking operation timeout (page q size.toNat)
      rows.mapM fun row => Store.ofExcept (summary row)) := by
    refine Lockstep.getThe.bind fun s s' hs => ?_
    dsimp only
    rw [hs.settings_eq]
    refine (lockstep_asking _ _ fun t t' h => page_agree h q _).bind fun rows rows' hrows => ?_
    have hsummaries : Lockstep (Store.Alike cipher) (List.Forall₂ Eq)
        (rows.mapM fun row => Store.ofExcept (summary row))
        (rows'.mapM fun row => Store.ofExcept (summary row)) :=
      Lockstep.mapM hrows fun l l' hl => by
        rw [summary_eq hl]
        exact lockstep_sameExcept _
    rwa [List.forall₂_eq_eq_eq] at hsummaries
  rw [listing]
  split
  · exact (lockstep_sameExcept _).bind fun _ _ _ => hrest
  · exact hrest

theorem lockstep_listUser (userId : String) (limit : UInt32) :
    Lockstep (Store.Alike cipher) Eq (listUser userId limit) (listUser userId limit) := by
  rw [listUser]
  split
  · exact (lockstep_fail (R := Eq) _).bind fun _ _ _ => lockstep_listing _ _ _
  · exact lockstep_listing _ _ _

theorem lockstep_metrics (start finish : Timestamp) :
    Lockstep (Store.Alike cipher) Eq (metrics start finish) (metrics start finish) := by
  refine (lockstep_sameExcept _).bind fun _ _ _ => Lockstep.getThe.bind fun s s' hs => ?_
  dsimp only
  rw [hs.settings_eq]
  refine (lockstep_asking _ _ fun t t' h => .of_eq (fun _ => rfl)
    (windowReport_eq h start finish _)).bind fun figures figures' hfigures => ?_
  cases hfigures
  split
  · exact (lockstep_report _).bind fun _ _ _ => .pure rfl
  · exact .pure rfl

theorem lockstep_tokens (start finish : Timestamp) :
    Lockstep (Store.Alike cipher) Eq (tokens start finish) (tokens start finish) := by
  refine (lockstep_sameExcept _).bind fun _ _ _ => ?_
  refine (lockstep_asking _ _ fun t t' h => .of_eq (fun _ => rfl)
    (windowTokens_eq h start finish)).bind fun total total' htotal => ?_
  exact .pure (congrArg countOf htotal)

end Reading

/-! ## Writing -/

section Writing

variable {cipher : ContentCipher}

theorem lockstep_requireId (id : String) :
    Lockstep (Store.Alike cipher) Eq (requireId id) (requireId id) := by
  rw [requireId]
  split
  · exact lockstep_fail _
  · exact .pure rfl

/-- A change that leaves the table and the cipher alone. -/
theorem lockstep_modify {f : Store → Store}
    (hf : ∀ (s : Store) (t : Table), f { s with table := t } = { f s with table := t })
    (hcipher : ∀ s, (f s).cipher = s.cipher) :
    Lockstep (Store.Alike cipher) Eq (modify f : Action PUnit) (modify f) :=
  .modify fun s s' h => by
    cases h with
    | @mk s hs t t' h =>
        rw [hf s t, hf s t']
        exact .mk (f s) ((hcipher s).trans hs) h

theorem lockstep_setRefusal (refusal : Option Refusal) :
    Lockstep (Store.Alike cipher) Eq
      (modify fun s => { s with table := s.table.refusing refusal } : Action PUnit)
      (modify fun s => { s with table := s.table.refusing refusal }) :=
  .modify fun s s' h => by
    cases h with
    | mk s hs h => exact .mk s hs (h.refusing refusal)

theorem lockstep_setScheduled (refusals : List (Option Refusal)) :
    Lockstep (Store.Alike cipher) Eq
      (modify fun s => { s with table := { s.table with scheduled := refusals } } : Action PUnit)
      (modify fun s => { s with table := { s.table with scheduled := refusals } }) :=
  .modify fun s s' h => by
    cases h with
    | mk s hs h => exact .mk s hs ⟨h.rows, h.indexes, h.refusal, rfl⟩

theorem lockstep_countEnded (ended : Bool) :
    Lockstep (Store.Alike cipher) Eq (countEnded ended) (countEnded ended) := by
  cases ended with
  | false => exact .pure rfl
  | true => exact lockstep_modify (fun _ _ => rfl) fun _ => rfl

theorem validate_eq {x x' : StoredSession} (h : x.Alike cipher x') : validate x = validate x' := by
  cases h with
  | mk x h => rfl

theorem lockstep_recordDuration (id : String) (duration : Int64) (p : Progress) :
    Lockstep (Store.Alike cipher) Eq (recordDuration id duration p)
      (recordDuration id duration p) := by
  refine Lockstep.tryCatch ((lockstep_retriedFrom _ p (settingDuration_agree id duration)).bind
    fun _ _ _ => .pure rfl) fun e => ?_
  cases e with
  | failed e => exact lockstep_report _
  | overflow => exact .throw Abort.overflow

theorem lockstep_finish (id : String) (time : Timestamp) :
    Lockstep (Store.Alike cipher) Eq (finish id time) (finish id time) := by
  refine (lockstep_requireId id).bind fun _ _ _ => Lockstep.getThe.bind fun s s' hs => ?_
  rw [hs.settings_eq]
  refine (lockstep_retriedFrom _ _ (ending_agree id time.toColumn)).bind fun x x' hx => ?_
  obtain ⟨found, p⟩ := x
  obtain ⟨found', p'⟩ := x'
  obtain ⟨rfl, rfl⟩ := hx
  refine (lockstep_countEnded _).bind fun _ _ _ => ?_
  refine (lockstep_sameExcept _).bind fun startTime _ hstart => ?_
  cases hstart
  refine (lockstep_sameExcept _).bind fun endTime _ hend => ?_
  cases hend
  exact lockstep_recordDuration id _ p

theorem lockstep_ensureIndexes :
    Lockstep (Store.Alike cipher) Eq ensureIndexes ensureIndexes :=
  (lockstep_retried _ _ ensureIndexes_agree).bind fun _ _ _ => lockstep_report _

theorem lockstep_overwrite (id : String) {column : Column} (hcolumn : column ≠ .messages)
    (v : ColumnValue) :
    Lockstep (Store.Alike cipher) Eq (overwrite id column v) (overwrite id column v) := by
  intro s s' h
  cases h with
  | @mk s hs t t' h =>
      have hoverwrite := overwrite_agree h id hcolumn v
      rw [overwrite, run_bind_ok (run_getThe _), run_bind_ok (run_getThe _)]
      dsimp only
      generalize t.overwrite id column v = x at hoverwrite ⊢
      generalize t'.overwrite id column v = y at hoverwrite ⊢
      cases hoverwrite with
      | error e => exact ⟨.error _, .mk s hs h⟩
      | ok hpq => exact ⟨.ok hpq.1, .mk s hs hpq.2⟩

variable {schedule : List Block}

theorem lockstep_prepare (now : Timestamp) {session session' : Session}
    (h : session.Alike session') (hfits : ∀ m ∈ session.messages, m.Fits)
    (hfits' : ∀ m ∈ session'.messages, m.Fits) :
    Lockstep (Store.Alike (.ready schedule)) (StoredSession.Alike (.ready schedule))
      (prepare now session) (prepare now session') := by
  refine Lockstep.getThe.bind fun s s' hs => ?_
  rw [hs.cipher_eq.1, hs.cipher_eq.2]
  have hstored : Option.Rel (Lockstep Eq (StoredSession.Alike (.ready schedule)))
      (session.toStored (.ready schedule) now) (session'.toStored (.ready schedule) now) :=
    lockstep_session h hfits hfits' now
  generalize session.toStored (.ready schedule) now = x at hstored ⊢
  generalize session'.toStored (.ready schedule) now = y at hstored ⊢
  cases hstored with
  | none => exact .throw Abort.overflow
  | some hdrawing =>
      refine (lockstep_encrypting hdrawing).bind fun stored stored' hstored => ?_
      rw [validate_eq hstored]
      exact (lockstep_sameExcept _).bind fun _ _ _ => .pure hstored

theorem lockstep_create (now : Timestamp) {session session' : Session}
    (h : session.Alike session') (hfits : ∀ m ∈ session.messages, m.Fits)
    (hfits' : ∀ m ∈ session'.messages, m.Fits) :
    Lockstep (Store.Alike (.ready schedule)) Eq (create now session) (create now session') := by
  refine (lockstep_prepare now h hfits hfits').bind fun stored stored' hstored => ?_
  refine (lockstep_retried _ _ (insertion_agree hstored.ofStored)).bind fun _ _ _ => ?_
  have hend : stored.endTime = stored'.endTime := by
    cases hstored with
    | mk x h => rfl
  rw [hend]
  exact lockstep_modify (fun _ _ => rfl) fun _ => rfl

theorem lockstep_update (now : Timestamp) {session session' : Session}
    (h : session.Alike session') (hfits : ∀ m ∈ session.messages, m.Fits)
    (hfits' : ∀ m ∈ session'.messages, m.Fits) :
    Lockstep (Store.Alike (.ready schedule)) Eq (update now session) (update now session') := by
  refine (lockstep_prepare now h hfits hfits').bind fun stored stored' hstored => ?_
  refine (lockstep_retried _ _ (updating_agree hstored.ofStored)).bind fun ended _ hended => ?_
  cases hended
  exact lockstep_countEnded ended

theorem lockstep_addMessage (now : Timestamp) (id : String) {m m' : Message} (h : m.Alike m')
    (hfits : m.Fits) (hfits' : m'.Fits) :
    Lockstep (Store.Alike (.ready schedule)) Eq (addMessage now id m) (addMessage now id m') := by
  refine (lockstep_requireId id).bind fun _ _ _ => Lockstep.getThe.bind fun s s' hs => ?_
  rw [hs.cipher_eq.1, hs.cipher_eq.2]
  refine (lockstep_encrypting (lockstep_message h hfits hfits')).bind fun stored stored' hm => ?_
  refine (lockstep_retried _ _ (appending_agree hm id now.toColumn)).bind
    fun touched _ htouched => ?_
  cases htouched
  split
  · exact lockstep_fail _
  · exact .pure rfl

end Writing

end Store

/-! ## Runs -/

/-- Operations that bring no content, and neither change the key nor write to the messages
column past the cipher. -/
def Operation.BringsNoContent : Operation → Prop
  | .create _ | .update _ | .addMessage _ _ | .rekey _ | .overwrite _ .messages _ => False
  | _ => True

/-- One operation with two contents of its messages. -/
inductive Operation.Alike : Operation → Operation → Prop
  | create {session session' : Session} (h : session.Alike session') :
      Operation.Alike (.create session) (.create session')
  | update {session session' : Session} (h : session.Alike session') :
      Operation.Alike (.update session) (.update session')
  | addMessage (id : String) {m m' : Message} (h : m.Alike m') :
      Operation.Alike (.addMessage id m) (.addMessage id m')
  | same (operation : Operation) (h : operation.BringsNoContent) :
      Operation.Alike operation operation

/-- One call with two contents of its messages. -/
inductive Call.Alike : Call → Call → Prop
  | mk (now : Timestamp) {operation operation' : Operation} (h : operation.Alike operation') :
      Call.Alike ⟨now, operation⟩ ⟨now, operation'⟩

/-- One answer with two contents of the messages in it. -/
inductive Answer.Alike : Answer → Answer → Prop
  | same (answer : Answer) : Answer.Alike answer answer
  | session {x x' : Session} (h : x.Alike x') : Answer.Alike (.session x) (.session x')
  | sessions {xs xs' : List Session} (h : List.Forall₂ Session.Alike xs xs') :
      Answer.Alike (.sessions xs) (.sessions xs')

/-- No content that the call brings is too long to be sealed. -/
def Call.Fits (c : Call) : Prop :=
  match c.operation with
  | .create session | .update session => ∀ m ∈ session.messages, m.Fits
  | .addMessage _ m => m.Fits
  | _ => True

namespace Store

/-- What one call shows: its answer, the store after it, and the events reported meanwhile. -/
abbrev Shown := Except Abort Answer × Store × List Event

/-- The same error or answers that are alike, stores that are alike, and the same events. -/
structure Shown.Alike (cipher : ContentCipher) (a b : Shown) : Prop where
  answer : Agree Answer.Alike a.1 b.1
  store : a.2.1.Alike cipher b.2.1
  events : a.2.2 = b.2.2

/-- What the calls of a run show, one after another. -/
def shown (s : Store) : List Call → List Shown
  | [] => []
  | c :: calls =>
    s.step c.now c.operation :: (s.step c.now c.operation).2.1.shown calls

section Calls

variable {cipher : ContentCipher}

theorem lockstep_nothing {x y : Action Unit} (h : Lockstep (Store.Alike cipher) Eq x y) :
    Lockstep (Store.Alike cipher) Answer.Alike (do x; pure .nothing) (do y; pure .nothing) :=
  h.bind fun _ _ _ => .pure (.same _)

theorem lockstep_answer {α : Type} {x y : Action α} (f : α → Answer)
    (h : Lockstep (Store.Alike cipher) Eq x y) :
    Lockstep (Store.Alike cipher) Answer.Alike (f <$> x) (f <$> y) :=
  h.map fun a b hab => by
    rw [hab]
    exact .same (f b)

theorem lockstep_noContent (now : Timestamp) {operation : Operation}
    (h : operation.BringsNoContent) :
    Lockstep (Store.Alike cipher) Answer.Alike (run now operation) (run now operation) := by
  cases operation with
  | create session => exact absurd h id
  | update session => exact absurd h id
  | addMessage _ m => exact absurd h id
  | rekey key => exact absurd h id
  | get id => exact (lockstep_get id).map fun _ _ hx => .session hx
  | finish id time => exact lockstep_nothing (lockstep_finish id time)
  | listUser userId limit => exact lockstep_answer _ (lockstep_listUser userId limit)
  | listAll limit => exact lockstep_answer _ (lockstep_listing _ _ _)
  | list q => exact lockstep_answer _ (lockstep_listing _ _ q)
  | active => exact lockstep_active.map fun _ _ hxs => .sessions hxs
  | ensureIndexes => exact lockstep_nothing lockstep_ensureIndexes
  | metrics start finish => exact lockstep_answer _ (lockstep_metrics start finish)
  | tokens start finish =>
      refine (lockstep_tokens start finish).bind fun n n' hn => .pure ?_
      rw [hn]
      exact .same _
  | shutdown => exact lockstep_nothing (lockstep_modify (fun _ _ => rfl) fun _ => rfl)
  | refuse refusal => exact lockstep_nothing (lockstep_setRefusal (some refusal))
  | relent => exact lockstep_nothing (lockstep_setRefusal none)
  | schedule refusals => exact lockstep_nothing (lockstep_setScheduled refusals)
  | overwrite id column v =>
      have hcolumn : column ≠ .messages := by
        intro hmessages
        rw [hmessages] at h
        exact h
      exact lockstep_answer _ (lockstep_overwrite id hcolumn v)

end Calls

variable {schedule : List Block}

/-- The operations run in lockstep, one case for each that brings content. -/
theorem lockstep_run {c c' : Call} (h : c.Alike c') (hfits : c.Fits) (hfits' : c'.Fits) :
    Lockstep (Store.Alike (.ready schedule)) Answer.Alike (run c.now c.operation)
      (run c'.now c'.operation) := by
  cases h with
  | mk now h =>
      cases h with
      | create h => exact lockstep_nothing (lockstep_create now h hfits hfits')
      | update h => exact lockstep_nothing (lockstep_update now h hfits hfits')
      | addMessage id h => exact lockstep_nothing (lockstep_addMessage now id h hfits hfits')
      | same operation h => exact lockstep_noContent now h

/-- One call shows the same on stores that are alike, up to content. -/
theorem step_alike {s s' : Store} (hs : s.Alike (.ready schedule) s') {c c' : Call}
    (h : c.Alike c') (hfits : c.Fits) (hfits' : c'.Fits) :
    Shown.Alike (.ready schedule) (s.step c.now c.operation) (s'.step c'.now c'.operation) := by
  have hsilent : Store.Alike (.ready schedule) { s with events := [] }
      { s' with events := [] } := by
    cases hs with
    | mk s hcipher ht => exact .mk { s with events := [] } hcipher ht
  obtain ⟨hanswer, hstate⟩ := lockstep_run h hfits hfits' _ _ hsilent
  rw [step, step, perform, perform]
  generalize ((run c.now c.operation).run.run { s with events := [] } : Except Abort Answer × Store)
    = p at hanswer hstate ⊢
  generalize ((run c'.now c'.operation).run.run { s' with events := [] } :
    Except Abort Answer × Store) = p' at hanswer hstate ⊢
  obtain ⟨answer, s⟩ := p
  obtain ⟨answer', s'⟩ := p'
  cases hstate with
  | mk s hcipher ht => exact ⟨hanswer, .mk { s with events := [] } hcipher ht, rfl⟩

/-- Two runs from stores that are alike. The induction is on the calls, and what carries it is
that every call leaves the stores alike. -/
theorem shown_alike {s s' : Store} (hs : s.Alike (.ready schedule) s') {calls calls' : List Call}
    (h : List.Forall₂ Call.Alike calls calls') (hfits : ∀ c ∈ calls, c.Fits)
    (hfits' : ∀ c ∈ calls', c.Fits) :
    List.Forall₂ (Shown.Alike (.ready schedule)) (s.shown calls) (s'.shown calls') := by
  induction h generalizing s s' with
  | nil => exact .nil
  | cons hc hrest ih =>
      rw [List.forall_mem_cons] at hfits hfits'
      have hstep := step_alike hs hc hfits.1 hfits'.1
      exact .cons hstep (ih hstep.store hfits.2 hfits'.2)

/-- On a fresh database with a key, two runs that differ in message content only show the
same at every call: the same error or the same answer, up to the content of the messages in
it, the same events, the same counters, and tables that differ only in sealed content. -/
theorem content_shows_nowhere (settings : Settings) {key : List UInt8}
    (hkey : key.length ∈ keySizes) (nonces : Nonces) {calls calls' : List Call}
    (h : List.Forall₂ Call.Alike calls calls') (hfits : ∀ c ∈ calls, c.Fits)
    (hfits' : ∀ c ∈ calls', c.Fits) :
    List.Forall₂ (Shown.Alike (.ofKey key)) ((fresh settings (.ofKey key) nonces).shown calls)
      ((fresh settings (.ofKey key) nonces).shown calls') := by
  rw [ofKey_of_size hkey]
  have htable : Table.Alike (.ready (Aes.schedule key)) .empty .empty := ⟨.nil, rfl, rfl, rfl⟩
  exact shown_alike (.mk (fresh settings _ nonces) rfl htable) h hfits hfits'

/-- A session that begins with a note, takes another one, and is read and listed. -/
def notes (first second : String) : List Call := [
  ⟨.epoch, .create { Session.start "a" "u" .epoch with
    messages := [.plain .user first .epoch] }⟩,
  ⟨.epoch, .addMessage "a" (.plain .user second .epoch)⟩,
  ⟨.epoch, .get "a"⟩,
  ⟨.epoch, .listAll 10⟩]

theorem notes_show_nowhere :
    List.Forall₂ Call.Alike (notes "yes" "tomorrow") (notes "no" "") ∧
      List.Forall₂ (Shown.Alike (.ofKey zeroKey))
        ((fresh .standard (.ofKey zeroKey) (.counting 0)).shown (notes "yes" "tomorrow"))
        ((fresh .standard (.ofKey zeroKey) (.counting 0)).shown (notes "no" "")) := by
  have hplain : ∀ content content' : String,
      (Message.plain .user content .epoch).Alike (.plain .user content' .epoch) :=
    fun content content' => .mk (.plain .user content .epoch) content content'
  have halike : List.Forall₂ Call.Alike (notes "yes" "tomorrow") (notes "no" "") :=
    .cons (.mk _ (.create (.mk (.start "a" "u" .epoch) (.cons (hplain _ _) .nil))))
      (.cons (.mk _ (.addMessage "a" (hplain _ _)))
        (.cons (.mk _ (.same _ trivial)) (.cons (.mk _ (.same _ trivial)) .nil)))
  have hfits : ∀ first second : String, (Message.plain .user first .epoch).Fits →
      (Message.plain .user second .epoch).Fits → ∀ c ∈ notes first second, c.Fits := by
    intro first second hfirst hsecond c hc
    simp only [notes, List.mem_cons, List.not_mem_nil, or_false] at hc
    rcases hc with rfl | rfl | rfl | rfl
    · exact List.forall_mem_singleton.2 hfirst
    · exact hsecond
    · trivial
    · trivial
  refine ⟨halike, ?_⟩
  exact content_shows_nowhere .standard (by decide) (.counting 0) halike
    (hfits _ _ (by unfold Message.Fits; decide) (by unfold Message.Fits; decide))
    (hfits _ _ (by unfold Message.Fits; decide) (by unfold Message.Fits; decide))

end Store

end ChatArchive
