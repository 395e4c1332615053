import ChatArchive.Proofs.Outcomes
import ChatArchive.Proofs.Rows

/-!
# What operations do to the stored sessions

A table holds sessions if its rows are theirs. Every statement that the store runs
maps the held sessions one by one, or adds one at the end, so a table that nobody
writes to directly always holds some sessions. `Effect` says what an operation
does to them and to the counters, given its answer: this is the only place where the
statements of an operation are looked at, and whatever is said about runs of a store
goes by cases on `Effect`.

An operation that fails has no effect, with one exception: a session may be ended
although its duration cannot be computed or recorded, which is why the answer of
that operation is left open.
-/

namespace ChatArchive

open Time

/-- A table holds these sessions, in this order. -/
def Table.Holds (t : Table) (sessions : List StoredSession) : Prop :=
  t.rows = sessions.map Row.ofStored

theorem Table.Holds.refusing {t : Table} {sessions : List StoredSession} (h : t.Holds sessions)
    (refusal : Option Refusal) : (t.refusing refusal).Holds sessions := h

/-- A change of the sessions with this id. -/
def onId (id : String) (f : StoredSession → StoredSession) (s : StoredSession) :
    StoredSession :=
  if s.id = id then f s else s

theorem onId_of_eq {id : String} {f : StoredSession → StoredSession} {s : StoredSession}
    (h : s.id = id) : onId id f s = f s := if_pos h

theorem onId_of_ne {id : String} {f : StoredSession → StoredSession} {s : StoredSession}
    (h : s.id ≠ id) : onId id f s = s := if_neg h

/-- A change that leaves the ids alone. -/
def KeepsId (f : StoredSession → StoredSession) : Prop := ∀ s, (f s).id = s.id

theorem keepsId_refreshed (new : StoredSession) : KeepsId new.refreshed := fun _ => rfl

theorem keepsId_merged (new : StoredSession) : KeepsId new.merged := fun _ => rfl

theorem keepsId_withMessage (m : StoredMessage) (now : Timestamp) :
    KeepsId (StoredSession.withMessage m now) := fun _ => rfl

theorem keepsId_ended (finish : Timestamp) (duration : Option Int64) :
    KeepsId (StoredSession.ended finish duration) := fun _ => rfl

/-- An operation that writes sessions if it succeeds. -/
def Operation.Writes : Operation → Prop
  | .create _ | .update _ | .addMessage _ _ | .finish _ _ => True
  | _ => False

namespace Table

variable {t t' : Table} {sessions : List StoredSession}

theorem insert_ok {row : Row} (h : t.insert row = .ok t') :
    (∀ r ∈ t.rows, r.id ≠ row.id) ∧ t'.rows = t.rows ++ [row] := by
  obtain ⟨-, -, h⟩ := Except.bind_eq_ok.1 h
  split at h
  · cases h
  · next hnew =>
      cases h
      exact ⟨fun r hr hid => hnew (List.any_eq_true.2 ⟨r, hr, decide_eq_true hid⟩), rfl⟩

/-- A statement that changes held sessions into sessions. -/
theorem update_ok {columns : List Column} {select : Row → Bool}
    {change : Row → Except DatabaseError Row} {pick : StoredSession → Bool}
    {f : StoredSession → StoredSession} {n : Nat} (hholds : t.Holds sessions)
    (h : t.update columns select change = .ok (n, t'))
    (hselect : ∀ s, select (Row.ofStored s) = pick s)
    (hchange : ∀ s, change (Row.ofStored s) = .ok (Row.ofStored (f s))) :
    n = sessions.countP pick ∧ t'.Holds (sessions.map fun s => if pick s then f s else s) := by
  obtain ⟨hcount, rows, rfl, hrows⟩ := update_rows h
  constructor
  · rw [hcount, hholds, List.countP_map]
    exact List.countP_congr fun s _ => by rw [Function.comp, hselect]
  · rw [hholds, List.forall₂_map_left_iff] at hrows
    show rows = _
    rw [List.map_map, eq_comm, ← List.forall₂_eq_eq_eq, List.forall₂_map_left_iff]
    refine hrows.imp fun s row hrow => ?_
    rw [hselect, hchange] at hrow
    rw [Function.comp]
    split at hrow
    · next hpick => rw [if_pos hpick]; cases hrow; rfl
    · next hpick => rw [if_neg hpick, hrow]

end Table

namespace Store

variable {t t' : Table} {sessions : List StoredSession} {id : String}

/-! ## Transactions -/

theorem insertion_ok {new : StoredSession} (hholds : t.Holds sessions)
    (h : insertion (Row.ofStored new) t = .ok ((), t')) :
    (∀ s ∈ sessions, s.id ≠ new.id) ∧ t'.Holds (sessions ++ [new]) := by
  rw [insertion] at h
  split at h
  · next table hinsert =>
      cases h
      obtain ⟨hnew, hrows⟩ := Table.insert_ok hinsert
      constructor
      · intro s hs
        refine hnew (Row.ofStored s) ?_
        rw [hholds]
        exact List.mem_map_of_mem hs
      · rw [Table.Holds, hrows, hholds, List.map_append]
        rfl
  · cases h

/-- A stored session that ends now unless it has ended. -/
def closeOpen (finish : Timestamp) (s : StoredSession) : StoredSession :=
  if s.endTime.isNone then { s with endTime := some finish } else s

/-- Whether a session with this id is there and has no end. -/
def hasOpen (sessions : List StoredSession) (id : String) : Bool :=
  sessions.any fun s => s.id = id && s.endTime.isNone

theorem hasOpen_map_onId {f : StoredSession → StoredSession} (hf : KeepsId f)
    (hend : ∀ s, (f s).endTime = s.endTime) (sessions : List StoredSession) (id : String) :
    hasOpen (sessions.map (onId id f)) id = hasOpen sessions id := by
  rw [hasOpen, List.any_map, hasOpen]
  congr 1
  funext s
  rw [Function.comp, onId]
  split
  · rw [hf, hend]
  · rfl

/-- An end is set for the open sessions of an id, and counted if there are any. -/
theorem setEnd_ok {finish : Timestamp} {n : Nat} (hholds : t.Holds sessions)
    (h : setEnd t id finish.toColumn = .ok (n, t')) :
    decide (0 < n) = hasOpen sessions id ∧
      t'.Holds (sessions.map (onId id (closeOpen finish))) := by
  obtain ⟨hcount, hset⟩ := Table.update_ok (f := fun s => { s with endTime := some finish })
    hholds h (Row.isOpen_ofStored id) (fun s => rfl)
  refine ⟨?_, ?_⟩
  · rw [hcount, Bool.eq_iff_iff, decide_eq_true_iff, List.countP_pos_iff, hasOpen,
      List.any_eq_true]
  · convert hset using 2
    funext s
    rw [onId, closeOpen]
    by_cases hid : s.id = id
    · rw [if_pos hid]
      simp only [hid, decide_true, Bool.true_and]
    · rw [if_neg hid]
      simp only [hid, decide_false, Bool.false_and]
      rfl

theorem exists_of_countP {n : Nat} (h : n = sessions.countP fun s => s.id = id)
    (hn : n ≠ 0) : ∃ s ∈ sessions, s.id = id := by
  rw [h] at hn
  obtain ⟨s, hs, hid⟩ := List.countP_pos_iff.1 (Nat.pos_of_ne_zero hn)
  exact ⟨s, hs, of_decide_eq_true hid⟩

theorem map_onId (f : StoredSession → StoredSession) :
    (fun s : StoredSession => if decide (s.id = id) = true then f s else s) = onId id f := by
  funext s
  rw [onId]
  simp only [decide_eq_true_eq]

theorem map_onId_map_onId {f g : StoredSession → StoredSession} (hf : KeepsId f)
    (sessions : List StoredSession) :
    (sessions.map (onId id f)).map (onId id g) = sessions.map (onId id fun s => g (f s)) := by
  rw [List.map_map]
  refine List.map_congr_left fun s _ => ?_
  rw [Function.comp]
  by_cases hid : s.id = id
  · rw [onId_of_eq hid, onId_of_eq hid, onId_of_eq (by rw [hf, hid])]
  · rw [onId_of_ne hid, onId_of_ne hid, onId_of_ne hid]

theorem merged_eq_refreshed {new : StoredSession} (h : new.endTime = none) :
    new.merged = new.refreshed := by
  funext old
  rw [StoredSession.merged, h, Option.or_none]
  rfl

theorem closeOpen_refreshed {new : StoredSession} {finish : Timestamp}
    (h : new.endTime = some finish) (old : StoredSession) :
    closeOpen finish (new.refreshed old) = new.merged old := by
  rw [closeOpen, StoredSession.merged, h]
  cases hold : old.endTime with
  | none => rw [if_pos (by rw [StoredSession.refreshed, hold]; rfl), Option.none_or]
  | some e =>
      rw [if_neg (by rw [StoredSession.refreshed, hold]; exact Bool.false_ne_true), Option.some_or,
        StoredSession.refreshed, hold]

/-- Both statements of an update together. -/
theorem updating_ok {new : StoredSession} {ended : Bool} (hholds : t.Holds sessions)
    (h : updating (Row.ofStored new) t = .ok (ended, t')) :
    (∃ s ∈ sessions, s.id = new.id) ∧
      ended = (new.endTime.isSome && hasOpen sessions new.id) ∧
      t'.Holds (sessions.map (onId new.id new.merged)) := by
  rw [updating] at h
  split at h
  · cases h
  · cases h
  · next n table hn hupdate =>
      have hselect : ∀ s, decide ((Row.ofStored s).id = (Row.ofStored new).id)
          = decide (s.id = new.id) := fun s => rfl
      obtain ⟨hcount, hfirst⟩ := Table.update_ok hholds hupdate hselect
        fun s => congrArg Except.ok (Row.updatedRow_ofStored new s)
      refine ⟨exists_of_countP hcount hn, ?_⟩
      rw [map_onId] at hfirst
      cases hend : new.endTime with
      | none =>
          simp only [Row.ofStored, hend, Option.map_none] at h
          cases h
          rw [merged_eq_refreshed hend]
          exact ⟨rfl, hfirst⟩
      | some finish =>
          simp only [Row.ofStored, hend, Option.map_some] at h
          split at h
          · cases h
          · next k closed hset =>
              cases h
              obtain ⟨hopen, hsecond⟩ := setEnd_ok hfirst hset
              rw [map_onId_map_onId (keepsId_refreshed new)] at hsecond
              simp only [closeOpen_refreshed hend] at hsecond
              refine ⟨?_, hsecond⟩
              rw [hopen, hasOpen_map_onId (keepsId_refreshed new) fun _ => rfl]
              rfl

theorem appending_ok {m : StoredMessage} {now : Timestamp} {n : Nat}
    (hholds : t.Holds sessions) (h : appending id m now.toColumn t = .ok (n, t')) :
    (n = sessions.countP fun s => s.id = id) ∧
      t'.Holds (sessions.map (onId id (StoredSession.withMessage m now))) := by
  rw [appending] at h
  split at h
  · next result hupdate =>
      cases h
      have hselect : ∀ s, decide ((Row.ofStored s).id = id) = decide (s.id = id) :=
        fun s => rfl
      obtain ⟨hcount, hrows⟩ := Table.update_ok hholds hupdate hselect
        (Row.appendedRow_ofStored m now)
      rw [map_onId] at hrows
      exact ⟨hcount, hrows⟩
  · cases h

theorem settingDuration_ok {duration : Int64} (hholds : t.Holds sessions)
    (h : settingDuration id duration t = .ok ((), t')) :
    t'.Holds (sessions.map (onId id fun s => { s with duration := duration })) := by
  rw [settingDuration] at h
  split at h
  · next n table hupdate =>
      cases h
      have hselect : ∀ s, decide ((Row.ofStored s).id = id) = decide (s.id = id) :=
        fun s => rfl
      have hrows := (Table.update_ok (f := fun s => { s with duration := duration }) hholds
        hupdate hselect fun s => rfl).2
      rw [map_onId] at hrows
      exact hrows
  · cases h

theorem closeOpen_eq_ended (finish : Timestamp) :
    closeOpen finish = StoredSession.ended finish none := by
  funext s
  rw [closeOpen, StoredSession.ended]
  cases hend : s.endTime with
  | none => rfl
  | some e => rw [if_neg nofun, Option.some_or, ← hend]; rfl

theorem exists_of_find? {p : Row → Bool} {row : Row} (hholds : t.Holds sessions)
    (h : t.rows.find? p = some row) : ∃ s ∈ sessions, p (Row.ofStored s) = true := by
  have hmem := List.mem_of_find?_eq_some h
  rw [hholds] at hmem
  obtain ⟨s, hs, rfl⟩ := List.mem_map.1 hmem
  exact ⟨s, hs, List.find?_some h⟩

/-- Ending a session closes it if it is open; if it is not, there is nothing to
close. -/
theorem ending_ok {time : Timestamp} {found : Ending} (hholds : t.Holds sessions)
    (h : ending id time.toColumn t = .ok (found, t')) :
    (∃ s ∈ sessions, s.id = id) ∧ found.recorded = hasOpen sessions id ∧
      t'.Holds (sessions.map (onId id (StoredSession.ended time none))) := by
  rw [ending] at h
  split at h
  · next row hrow =>
      split at h
      · next n table hset =>
          cases h
          obtain ⟨s, hs, hopen⟩ := exists_of_find? hholds hrow
          rw [Row.isOpen_ofStored] at hopen
          refine ⟨⟨s, hs, ?_⟩, ?_, ?_⟩
          · rw [Bool.and_eq_true] at hopen
            exact of_decide_eq_true hopen.1
          · exact (List.any_eq_true.2 ⟨s, hs, hopen⟩).symm
          · rw [← closeOpen_eq_ended]
            exact (setEnd_ok hholds hset).2
      · cases h
  · next hnone =>
      split at h
      · next row hrow =>
          cases h
          obtain ⟨s, hs, hid⟩ := exists_of_find? hholds hrow
          have hshut : ∀ x ∈ sessions, ¬ (x.id = id && x.endTime.isNone) = true := by
            intro x hx
            have hmem : Row.ofStored x ∈ t.rows := by
              rw [hholds]
              exact List.mem_map_of_mem hx
            rw [← Row.isOpen_ofStored]
            exact List.find?_eq_none.1 hnone _ hmem
          refine ⟨⟨s, hs, of_decide_eq_true hid⟩, ?_, ?_⟩
          · exact (List.any_eq_false.2 hshut).symm
          · have hclosed : sessions.map (onId id (StoredSession.ended time none))
                = sessions := by
              rw [← closeOpen_eq_ended]
              refine (List.map_congr_left fun x hx => ?_).trans (List.map_id sessions)
              have hx' := hshut x hx
              by_cases hid : x.id = id
              · rw [decide_eq_true hid, Bool.true_and] at hx'
                rw [onId_of_eq hid, closeOpen, if_neg hx']
                rfl
              · exact onId_of_ne hid
            rw [hclosed]
            exact hholds
      · cases h

/-! ## Operations -/

/-- What an operation does to the sessions of a store and to its counters, given its
answer and the nonces that is drawn next. -/
inductive Effect (cipher : ContentCipher) (nonces : Cipher.Nonces) (now : Timestamp)
    (sessions : List StoredSession) (c : Counters) :
    Operation → Except Abort Answer → List StoredSession → Counters → Prop
  | failed (operation : Operation) (e : Abort) :
      Effect cipher nonces now sessions c operation (.error e) sessions c
  | read {operation : Operation} (answer : Except Abort Answer) (h : ¬ operation.Writes) :
      Effect cipher nonces now sessions c operation answer sessions c
  | created {session : Session} {stored : StoredSession}
      (hstored : session.StoredFrom cipher nonces now stored) (hvalid : validate stored = .ok ())
      (hnew : ∀ s ∈ sessions, s.id ≠ stored.id) :
      Effect cipher nonces now sessions c (.create session) (.ok .nothing) (sessions ++ [stored])
        (c.create stored.endTime.isNone)
  | updated {session : Session} {stored : StoredSession}
      (hstored : session.StoredFrom cipher nonces now stored) (hvalid : validate stored = .ok ())
      (hmem : ∃ s ∈ sessions, s.id = stored.id) :
      Effect cipher nonces now sessions c (.update session) (.ok .nothing)
        (sessions.map (onId stored.id stored.merged))
        (c.finishIf (stored.endTime.isSome && hasOpen sessions stored.id))
  | added {id : String} {message : Message} {stored : StoredMessage}
      (hstored : ContentCipher.DrawsFrom (message.toStored cipher) nonces stored)
      (hmem : ∃ s ∈ sessions, s.id = id) :
      Effect cipher nonces now sessions c (.addMessage id message) (.ok .nothing)
        (sessions.map (onId id (StoredSession.withMessage stored now))) c
  | ended {id : String} (time : Timestamp) (duration : Option Int64)
      (answer : Except Abort Answer) (hmem : ∃ s ∈ sessions, s.id = id) :
      Effect cipher nonces now sessions c (.finish id time) answer
        (sessions.map (onId id (StoredSession.ended time duration)))
        (c.finishIf (hasOpen sessions id))

/-- What an operation leaves behind: some held sessions and counters by its effect, and
all else that later operations depend on as it was. -/
structure Leaves (s : Store) (now : Timestamp) (sessions : List StoredSession)
    (operation : Operation) (result : Except Abort Answer × Store) : Prop where
  effect : ∃ sessions',
    Effect s.cipher s.nonces now sessions s.counters operation result.1 sessions'
        result.2.counters ∧
    result.2.table.Holds sessions'
  settings : result.2.settings = s.settings
  cipher : (∀ key, operation ≠ .rekey key) → result.2.cipher = s.cipher
  closed : operation ≠ .shutdown → result.2.closed = s.closed

variable {s : Store} {now : Timestamp} {operation : Operation}

theorem leaves_failed (hholds : s.table.Holds sessions) (e : Abort) (nonces : Cipher.Nonces)
    (events : List Event) :
    Leaves s now sessions operation (.error e, { s with nonces := nonces, events := events }) :=
  ⟨⟨sessions, .failed operation e, hholds⟩, rfl, fun _ => rfl, fun _ => rfl⟩

theorem leaves_create (hholds : s.table.Holds sessions) (session : Session) :
    Leaves s now sessions (.create session) (s.perform (run now (.create session))) := by
  rw [run]
  rcases perform_create now session s with
    ⟨stored, pauses, table, nonces, events, hstored, hvalid, hinsert, h⟩ | ⟨e, nonces, events, h⟩
  · obtain ⟨changed, hchanged, rfl⟩ := of_after_ok hinsert
    obtain ⟨hnew, hrows⟩ := insertion_ok (hholds.refusing _) hchanged
    rw [perform_bind_ok h]
    exact ⟨⟨_, .created hstored hvalid hnew, hrows⟩, rfl, fun _ => rfl, fun _ => rfl⟩
  · rw [perform_bind_error h]
    exact leaves_failed hholds e nonces events

theorem leaves_update (hholds : s.table.Holds sessions) (session : Session) :
    Leaves s now sessions (.update session) (s.perform (run now (.update session))) := by
  rw [run]
  rcases perform_update now session s with
    ⟨stored, ended, pauses, table, nonces, events, hstored, hvalid, hupdate, h⟩ |
      ⟨e, nonces, events, h⟩
  · obtain ⟨changed, hchanged, rfl⟩ := of_after_ok hupdate
    obtain ⟨hmem, rfl, hrows⟩ := updating_ok (hholds.refusing _) hchanged
    rw [perform_bind_ok h]
    exact ⟨⟨_, .updated hstored hvalid hmem, hrows⟩, rfl, fun _ => rfl, fun _ => rfl⟩
  · rw [perform_bind_error h]
    exact leaves_failed hholds e nonces events

theorem leaves_addMessage (hholds : s.table.Holds sessions) (id : String)
    (message : Message) :
    Leaves s now sessions (.addMessage id message)
      (s.perform (run now (.addMessage id message))) := by
  rw [run]
  rcases perform_addMessage now id message s with
    ⟨stored, n, pauses, table, nonces, events, hstored, happend, h⟩ | ⟨e, nonces, events, h⟩
  · obtain ⟨changed, hchanged, rfl⟩ := of_after_ok happend
    obtain ⟨hcount, hrows⟩ := appending_ok (hholds.refusing _) hchanged
    rw [perform_bind_ok h]
    exact ⟨⟨_, .added hstored (exists_of_countP hcount (Nat.succ_ne_zero n)), hrows⟩, rfl,
      fun _ => rfl, fun _ => rfl⟩
  · rw [perform_bind_error h]
    exact leaves_failed hholds e nonces events

theorem leaves_finish (hholds : s.table.Holds sessions) (id : String) (time : Timestamp) :
    Leaves s now sessions (.finish id time) (s.perform (run now (.finish id time))) := by
  rw [run]
  rcases perform_finish id time s with
    ⟨found, pauses, table, hend, answer, events, table', h, htable⟩ | ⟨e, events, h⟩
  · obtain ⟨changed, hchanged, rfl⟩ := of_after_ok hend
    obtain ⟨hmem, hrecorded, hrows⟩ := ending_ok (hholds.refusing _) hchanged
    rw [hrecorded] at h
    obtain ⟨duration, hrows'⟩ : ∃ duration,
        table'.Holds (sessions.map (onId id (StoredSession.ended time duration))) := by
      rcases htable with rfl | ⟨duration, pauses, hset⟩
      · exact ⟨none, hrows⟩
      · obtain ⟨measured, hmeasured, rfl⟩ := of_after_ok hset
        have hrows' := settingDuration_ok (hrows.refusing _) hmeasured
        rw [map_onId_map_onId (keepsId_ended time none)] at hrows'
        exact ⟨some duration, hrows'⟩
    cases answer with
    | error e =>
        rw [perform_bind_error h]
        exact ⟨⟨_, .ended time duration _ hmem, hrows'⟩, rfl, fun _ => rfl, fun _ => rfl⟩
    | ok u =>
        rw [perform_bind_ok h]
        exact ⟨⟨_, .ended time duration _ hmem, hrows'⟩, rfl, fun _ => rfl, fun _ => rfl⟩
  · rw [perform_bind_error h]
    exact leaves_failed hholds e s.nonces events

theorem leaves_reading (hholds : s.table.Holds sessions) (hreads : operation.Reads) :
    Leaves s now sessions operation (s.perform (run now operation)) := by
  have hwrites : ¬ operation.Writes := by
    cases operation <;> first | exact id | exact absurd hreads id
  obtain ⟨answer, events, h⟩ := Quiet.run hreads now s
  rw [h]
  exact ⟨⟨sessions, .read answer hwrites, hholds⟩, rfl, fun _ => rfl, fun _ => rfl⟩

theorem leaves_ensureIndexes (hholds : s.table.Holds sessions) :
    Leaves s now sessions .ensureIndexes (s.perform (run now .ensureIndexes)) := by
  rw [run, ensureIndexes]
  rcases perform_retrying "ensure_indexes" (·.indexSecs)
    (fun table => .ok ((), table.ensureIndexes)) s with
    ⟨u, pauses, table, events, -, h, h'⟩ | ⟨e, events, h'⟩
  · cases h
    rw [perform_bind_ok (by rw [perform_bind_ok h', perform_report])]
    exact ⟨⟨sessions, .read _ nofun, hholds⟩, rfl, fun _ => rfl, fun _ => rfl⟩
  · rw [perform_bind_error (perform_bind_error h')]
    exact leaves_failed hholds e s.nonces events

/-- An operation leaves held sessions behind, unless it writes to the table directly. -/
theorem leaves_run (hholds : s.table.Holds sessions) (operation : Operation)
    (hdirect : ∀ id column v, operation ≠ .overwrite id column v) :
    Leaves s now sessions operation (s.perform (run now operation)) := by
  cases operation with
  | create session => exact leaves_create hholds session
  | update session => exact leaves_update hholds session
  | addMessage id message => exact leaves_addMessage hholds id message
  | finish id time => exact leaves_finish hholds id time
  | ensureIndexes => exact leaves_ensureIndexes hholds
  | rekey key =>
      exact ⟨⟨sessions, .read _ nofun, hholds⟩, rfl, fun h => absurd rfl (h key), fun _ => rfl⟩
  | shutdown =>
      exact ⟨⟨sessions, .read _ nofun, hholds⟩, rfl, fun _ => rfl, fun h => absurd rfl h⟩
  | refuse refusal =>
      exact ⟨⟨sessions, .read _ nofun, hholds⟩, rfl, fun _ => rfl, fun _ => rfl⟩
  | relent => exact ⟨⟨sessions, .read _ nofun, hholds⟩, rfl, fun _ => rfl, fun _ => rfl⟩
  | schedule refusals =>
      exact ⟨⟨sessions, .read _ nofun, hholds⟩, rfl, fun _ => rfl, fun _ => rfl⟩
  | overwrite id column v => exact absurd rfl (hdirect id column v)
  | _ => exact leaves_reading hholds trivial

end Store

end ChatArchive
