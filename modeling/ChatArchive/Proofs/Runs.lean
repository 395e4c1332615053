import ChatArchive.Proofs.Operations

/-!
# Runs of a store

A run is a list of calls, each an operation at a time. `Store.after` is the store
that a run leads to and `Store.history` what was called and answered on the way.

A table that is only written through operations holds sessions with ids, each id
once; `Sound` says so, and every call preserves it. Seen from one id, a call does
one of five things to the session that has it, and `Transition` lists them. A property
of the session of an id along a run is therefore proved by five cases, once for a
call and then by induction on the run.
-/

namespace ChatArchive

open Time

/-- An operation that is called at a time. -/
structure Call where
  now : Timestamp
  operation : Operation

/-- A call and its answer. -/
abbrev Reply := Call × Except Abort Answer

/-- The id of the session that an operation writes to. -/
def Operation.target? : Operation → Option String
  | .create session | .update session => some session.id
  | .addMessage id _ | .finish id _ => some id
  | _ => none

/-- Writes to the table past the operations. -/
def Operation.IsOverwrite : Operation → Prop
  | .overwrite _ _ _ => True
  | _ => False

/-- An operation of the program, or a rehearsed fault: the key, the database and the
columns are left alone. -/
def Operation.IsOrdinary : Operation → Prop
  | .rekey _ | .shutdown | .overwrite _ _ _ => False
  | _ => True

theorem Operation.IsOrdinary.direct {operation : Operation} (h : operation.IsOrdinary) :
    ¬ operation.IsOverwrite := by
  cases operation with
  | overwrite i column v => exact absurd h id
  | _ => exact nofun

/-- The times of a session have plain years. Those of its messages do not count. -/
structure Session.HasPlainYears (session : Session) : Prop where
  startTime : session.startTime.HasPlainYear
  endTime : ∀ t ∈ session.endTime, t.HasPlainYear
  lastActivity : session.lastActivity.HasPlainYear

/-- All instants that a call brings to time columns have plain years: the clock, the
times of a session that is created or updated, and an end. -/
def Call.HasPlainYears (c : Call) : Prop :=
  c.now.HasPlainYear ∧
    match c.operation with
    | .create session | .update session => session.HasPlainYears
    | .finish _ time => time.HasPlainYear
    | _ => True

namespace Store

/-- The store after some calls. -/
def after (s : Store) : List Call → Store
  | [] => s
  | c :: calls => (s.step c.now c.operation).2.1.after calls

/-- Some calls with their answers. -/
def history (s : Store) : List Call → List Reply
  | [] => []
  | c :: calls =>
    (c, (s.step c.now c.operation).1) :: (s.step c.now c.operation).2.1.history calls

theorem after_append (s : Store) (calls more : List Call) :
    s.after (calls ++ more) = (s.after calls).after more := by
  induction calls generalizing s with
  | nil => rfl
  | cons c calls ih => exact ih _

theorem map_history (s : Store) (calls : List Call) : (s.history calls).map (·.1) = calls := by
  induction calls generalizing s with
  | nil => rfl
  | cons c calls ih => rw [history, List.map_cons, ih]

theorem call_mem {s : Store} {calls : List Call} {r : Reply} (h : r ∈ s.history calls) :
    r.1 ∈ calls := by
  rw [← map_history s calls]
  exact List.mem_map_of_mem h

variable {s : Store} {cipher : ContentCipher} {nonces : Cipher.Nonces} {now : Timestamp}
  {sessions sessions' : List StoredSession} {counters counters' : Counters}
  {operation : Operation} {answer : Except Abort Answer}

/-- One call at a time leaves what its operation leaves. -/
theorem leaves_step (hholds : s.table.Holds sessions) (now : Timestamp)
    (hdirect : ¬ operation.IsOverwrite) :
    Leaves s now sessions operation
      ((s.step now operation).1, (s.step now operation).2.1) := by
  have hsilent : ({ s with events := [] } : Store).table.Holds sessions := hholds
  have h : Leaves { s with events := [] } now sessions operation _ :=
    leaves_run hsilent operation fun id column v hoverwrite =>
      hdirect (by rw [hoverwrite]; trivial)
  exact ⟨h.effect, h.settings, h.cipher, h.closed⟩

/-! ## All sessions -/

/-- What a table is like that is only written through operations: it holds sessions
that have ids, each its own. -/
structure Sound (s : Store) (sessions : List StoredSession) : Prop where
  holds : s.table.Holds sessions
  distinct : sessions.Pairwise (·.id ≠ ·.id)
  named : ∀ x ∈ sessions, x.id ≠ ""

theorem sound_fresh (settings : Settings) (cipher : ContentCipher) (nonces : Cipher.Nonces) :
    Sound (fresh settings cipher nonces) [] :=
  ⟨rfl, .nil, fun _ hx => absurd hx List.not_mem_nil⟩

/-- Soundness does not depend on the events. -/
theorem Sound.withEvents (h : Sound s sessions) (events : List Event) :
    Sound { s with events := events } sessions := ⟨h.holds, h.distinct, h.named⟩

theorem id_ne_of_validate {stored : StoredSession} (h : validate stored = .ok ()) :
    stored.id ≠ "" := by
  intro hid
  rw [validate, hid, if_pos (by decide)] at h
  cases h

theorem id_onId {id : String} {f : StoredSession → StoredSession}
    (hf : KeepsId f) (x : StoredSession) : (onId id f x).id = x.id := by
  rw [onId]
  split
  · exact hf x
  · rfl

/-- Sessions that are changed under their ids keep them. -/
theorem ids_map_onId {id : String} {f : StoredSession → StoredSession}
    (hf : KeepsId f) (sessions : List StoredSession) :
    (sessions.map (onId id f)).map (·.id) = sessions.map (·.id) := by
  rw [List.map_map]
  exact List.map_congr_left fun x _ => id_onId hf x

/-- The ids after a call: those before it, and perhaps a new one. -/
theorem Effect.ids
    (h : Effect cipher nonces now sessions counters operation answer sessions' counters') :
    sessions'.map (·.id) = sessions.map (·.id) ∨
      ∃ id, id ≠ "" ∧ (∀ x ∈ sessions, x.id ≠ id) ∧
        sessions'.map (·.id) = sessions.map (·.id) ++ [id] := by
  cases h with
  | failed _ e => exact Or.inl rfl
  | read _ h => exact Or.inl rfl
  | @created session stored hstored hvalid hnew =>
      refine Or.inr ⟨stored.id, id_ne_of_validate hvalid, hnew, ?_⟩
      rw [List.map_append]
      rfl
  | updated hstored hvalid hmem => exact Or.inl (ids_map_onId (keepsId_merged _) sessions)
  | added hstored hmem => exact Or.inl (ids_map_onId (keepsId_withMessage _ _) sessions)
  | ended time duration _ hmem => exact Or.inl (ids_map_onId (keepsId_ended _ _) sessions)

theorem sound_iff_ids (hholds : s.table.Holds sessions) :
    Sound s sessions ↔ (sessions.map (·.id)).Nodup ∧ "" ∉ sessions.map (·.id) := by
  constructor
  · intro h'
    obtain ⟨-, hdistinct, hnamed⟩ := h'
    refine ⟨List.pairwise_map.2 hdistinct, fun hmem => ?_⟩
    obtain ⟨x, hx, hid⟩ := List.mem_map.1 hmem
    exact hnamed x hx hid
  · intro h'
    obtain ⟨hdistinct, hnamed⟩ := h'
    refine ⟨hholds, List.pairwise_map.1 hdistinct, fun x hx hid => hnamed ?_⟩
    rw [← hid]
    exact List.mem_map_of_mem hx

/-- Every call preserves soundness. -/
theorem Sound.step (h : Sound s sessions) (now : Timestamp)
    (hdirect : ¬ operation.IsOverwrite) :
    ∃ sessions', Effect s.cipher s.nonces now sessions s.counters operation
        (s.step now operation).1 sessions' (s.step now operation).2.1.counters ∧
      Sound (s.step now operation).2.1 sessions' := by
  obtain ⟨sessions', heffect, hholds⟩ := (leaves_step h.holds now hdirect).effect
  obtain ⟨hdistinct, hnamed⟩ := (sound_iff_ids h.holds).1 h
  refine ⟨sessions', heffect, (sound_iff_ids hholds).2 ?_⟩
  rcases heffect.ids with hids | ⟨id, hid, hnew, hids⟩
  · rw [hids]
    exact ⟨hdistinct, hnamed⟩
  · rw [hids]
    refine ⟨List.nodup_append.2 ⟨hdistinct, List.pairwise_singleton _ id, ?_⟩, ?_⟩
    · intro a ha b hb
      obtain ⟨x, hx, rfl⟩ := List.mem_map.1 ha
      rw [List.mem_singleton.1 hb]
      exact hnew x hx
    · intro hmem
      rcases List.mem_append.1 hmem with hmem | hmem
      · exact hnamed hmem
      · exact hid (List.mem_singleton.1 hmem).symm

/-- What every call on a sound store keeps, given what was called and answered before
it, a run keeps. -/
theorem Sound.run {P : List Reply → Store → List StoredSession → Prop} {calls : List Call}
    (h : Sound s sessions) (hdirect : ∀ c ∈ calls, ¬ c.operation.IsOverwrite)
    (hP : ∀ c ∈ calls, ∀ replies s sessions sessions', Sound s sessions →
      Effect s.cipher s.nonces c.now sessions s.counters c.operation (s.step c.now c.operation).1
        sessions' (s.step c.now c.operation).2.1.counters →
      Sound (s.step c.now c.operation).2.1 sessions' → P replies s sessions →
      P (replies ++ [(c, (s.step c.now c.operation).1)]) (s.step c.now c.operation).2.1
        sessions')
    (replies : List Reply) (hs : P replies s sessions) :
    ∃ sessions', Sound (s.after calls) sessions' ∧
      P (replies ++ s.history calls) (s.after calls) sessions' := by
  induction calls generalizing replies s sessions with
  | nil => exact ⟨sessions, h, by rw [history, List.append_nil]; exact hs⟩
  | cons c calls ih =>
      obtain ⟨sessions', heffect, h'⟩ := h.step c.now (hdirect c List.mem_cons_self)
      rw [history, List.append_cons]
      exact ih h' (fun d hd => hdirect d (List.mem_cons_of_mem c hd))
        (fun d hd => hP d (List.mem_cons_of_mem c hd)) _
        (hP c List.mem_cons_self replies s sessions sessions' h heffect h' hs)

/-- What every call on a sound store keeps, a run keeps. -/
theorem Sound.keeps {P : Store → Prop} {calls : List Call} (h : Sound s sessions)
    (hdirect : ∀ c ∈ calls, ¬ c.operation.IsOverwrite)
    (hP : ∀ s sessions, ∀ c : Call, Sound s sessions → ¬ c.operation.IsOverwrite → P s →
      P (s.step c.now c.operation).2.1)
    (hs : P s) : P (s.after calls) := by
  obtain ⟨sessions', -, hafter⟩ := h.run (P := fun _ s _ => P s) hdirect
    (fun c hc _ s sessions _ h _ _ => hP s sessions c h (hdirect c hc)) [] hs
  exact hafter

theorem settings_after (settings : Settings) (cipher : ContentCipher) (nonces : Cipher.Nonces)
    {calls : List Call} (hdirect : ∀ c ∈ calls, ¬ c.operation.IsOverwrite) :
    ((fresh settings cipher nonces).after calls).settings = settings :=
  (sound_fresh settings cipher nonces).keeps (P := fun s => s.settings = settings) hdirect
    (fun _ _ c h hc hs => (leaves_step h.holds c.now hc).settings.trans hs) rfl

/-- A store that no run has written to directly is sound. -/
theorem Sound.after (h : Sound s sessions) {calls : List Call}
    (hdirect : ∀ c ∈ calls, ¬ c.operation.IsOverwrite) :
    ∃ sessions', Sound (s.after calls) sessions' := by
  obtain ⟨sessions', h', -⟩ := h.run (P := fun _ _ _ => True) hdirect
    (fun _ _ _ _ _ _ _ _ _ _ => trivial) [] trivial
  exact ⟨sessions', h'⟩

/-! ## The session of an id -/

/-- The session with this id. -/
def sessionOf (sessions : List StoredSession) (id : String) : Option StoredSession :=
  sessions.find? (·.id = id)

theorem row?_of_holds {t : Table} (h : t.Holds sessions) (id : String) :
    t.row? id = (sessionOf sessions id).map Row.ofStored := by
  rw [Table.row?, h, List.find?_map]
  rfl

theorem mem_of_sessionOf {id : String} {x : StoredSession}
    (h : sessionOf sessions id = some x) : x ∈ sessions ∧ x.id = id := by
  have hid := List.find?_some (p := fun x : StoredSession => decide (x.id = id)) h
  exact ⟨List.mem_of_find?_eq_some h, of_decide_eq_true hid⟩

theorem sessionOf_eq_none {id : String} :
    sessionOf sessions id = none ↔ ∀ x ∈ sessions, x.id ≠ id := by
  simp [sessionOf]

/-- A session of a sound store is the session of its id. -/
theorem Sound.sessionOf_id (h : Sound s sessions) {x : StoredSession} (hx : x ∈ sessions) :
    sessionOf sessions x.id = some x := by
  have hdistinct := h.distinct
  clear h
  induction sessions with
  | nil => cases hx
  | cons y ys ih =>
      obtain ⟨hy, hys⟩ := List.pairwise_cons.1 hdistinct
      rcases List.mem_cons.1 hx with rfl | hx
      · exact List.find?_cons_of_pos (decide_eq_true rfl)
      · rw [sessionOf, List.find?_cons_of_neg (by simpa using hy x hx)]
        exact ih hx hys

/-- Of the sessions of a sound store, one has an id. -/
theorem Sound.eq_of_id (h : Sound s sessions) {x y : StoredSession} (hx : x ∈ sessions)
    (hy : y ∈ sessions) (hid : y.id = x.id) : y = x := by
  have hsame := h.sessionOf_id hy
  rw [hid, h.sessionOf_id hx, Option.some.injEq] at hsame
  exact hsame.symm

theorem Sound.row?_of_mem (h : Sound s sessions) {x : StoredSession} (hx : x ∈ sessions) :
    s.table.row? x.id = some (Row.ofStored x) := by
  rw [row?_of_holds h.holds, h.sessionOf_id hx]
  rfl

theorem sessionOf_map {f : StoredSession → StoredSession} (hf : KeepsId f) (id : String) :
    sessionOf (sessions.map f) id = (sessionOf sessions id).map f := by
  rw [sessionOf, List.find?_map]
  congr 2
  funext x
  rw [Function.comp, hf]

/-- The session that a reply tells was created with an id. -/
def created? (id : String) : Operation → Except Abort Answer → Option Session
  | .create session, .ok _ => if session.id = id then some session else none
  | _, _ => none

/-- The message that a reply tells was added to the session of an id. -/
def added? (id : String) : Operation → Except Abort Answer → Option Message
  | .addMessage i message, .ok _ => if i = id then some message else none
  | _, _ => none

/-- A call that is about another id, or fails. -/
def Spares (id : String) (operation : Operation) (answer : Except Abort Answer) : Prop :=
  operation.target? ≠ some id ∨ ∃ e, answer = .error e

theorem spares_of_ne {id i : String} (htarget : operation.target? = some i) (hid : i ≠ id) :
    Spares id operation answer := by
  refine Or.inl fun h => hid ?_
  rw [htarget] at h
  exact Option.some.inj h

theorem spares_of_not_writes {id : String} (h : ¬ operation.Writes) :
    Spares id operation answer := by
  refine Or.inl fun htarget => ?_
  cases operation <;> first | exact h trivial | cases htarget

theorem created?_of_spares {id : String} (h : Spares id operation answer) :
    created? id operation answer = none := by
  rcases h with h | ⟨e, rfl⟩
  · cases operation with
    | create session =>
        cases answer with
        | error e => rfl
        | ok a => exact if_neg fun hid => h (congrArg some hid)
    | _ => rfl
  · cases operation <;> rfl

theorem added?_of_spares {id : String} (h : Spares id operation answer) :
    added? id operation answer = none := by
  rcases h with h | ⟨e, rfl⟩
  · cases operation with
    | addMessage i message =>
        cases answer with
        | error e => rfl
        | ok a => exact if_neg fun hid => h (congrArg some hid)
    | _ => rfl
  · cases operation <;> rfl

/-- What a call does to the session of an id. -/
inductive Transition (cipher : ContentCipher) (now : Timestamp) (id : String) :
    Operation → Except Abort Answer → (before after : Option StoredSession) → Prop
  | kept {operation : Operation} {answer : Except Abort Answer} (x : Option StoredSession)
      (hspares : Spares id operation answer) :
      Transition cipher now id operation answer x x
  | created {session : Session} {stored : StoredSession}
      (hstored : session.StoredAs cipher now stored) (hid : session.id = id) :
      Transition cipher now id (.create session) (.ok .nothing) none (some stored)
  | updated {session : Session} {stored : StoredSession} (old : StoredSession)
      (hstored : session.StoredAs cipher now stored) (hid : session.id = id) :
      Transition cipher now id (.update session) (.ok .nothing) (some old)
        (some (stored.merged old))
  | added {message : Message} {stored : StoredMessage} (old : StoredSession)
      (hstored : ContentCipher.Draws (message.toStored cipher) stored) :
      Transition cipher now id (.addMessage id message) (.ok .nothing) (some old)
        (some (old.withMessage stored now))
  | ended (time : Timestamp) (duration : Option Int64) (answer : Except Abort Answer)
      (old : StoredSession) :
      Transition cipher now id (.finish id time) answer (some old)
        (some (old.ended time duration))

theorem sessionOf_concat (sessions : List StoredSession) (stored : StoredSession)
    (id : String) :
    sessionOf (sessions ++ [stored]) id
      = (sessionOf sessions id).or (if stored.id = id then some stored else none) := by
  rw [sessionOf, List.find?_append, List.find?_singleton]
  simp only [decide_eq_true_eq]
  rfl

/-- A change on one id, seen from another or the same. -/
theorem sessionOf_map_onId {i : String} {f : StoredSession → StoredSession}
    (hf : KeepsId f) (sessions : List StoredSession) (id : String) :
    sessionOf (sessions.map (onId i f)) id
      = if id = i then (sessionOf sessions id).map f else sessionOf sessions id := by
  rw [sessionOf_map (id_onId hf)]
  cases hsession : sessionOf sessions id with
  | none => rw [Option.map_none, Option.map_none, ite_self]
  | some x =>
      have hid := (mem_of_sessionOf hsession).2
      by_cases hi : id = i
      · rw [if_pos hi, Option.map_some, Option.map_some, onId_of_eq (hid.trans hi)]
      · rw [if_neg hi, Option.map_some, onId_of_ne (by rwa [hid])]

theorem exists_sessionOf {id : String} (h : ∃ x ∈ sessions, x.id = id) :
    ∃ x, sessionOf sessions id = some x := by
  obtain ⟨x, hx, hid⟩ := h
  cases hsession : sessionOf sessions id with
  | none => exact absurd hid (sessionOf_eq_none.1 hsession x hx)
  | some y => exact ⟨y, rfl⟩

/-- The effect of a call, seen from one id. -/
theorem Effect.transition
    (h : Effect cipher nonces now sessions counters operation answer sessions' counters')
    (id : String) :
    Transition cipher now id operation answer (sessionOf sessions id)
      (sessionOf sessions' id) := by
  cases h with
  | failed _ e => exact .kept _ (Or.inr ⟨e, rfl⟩)
  | read _ h => exact .kept _ (spares_of_not_writes h)
  | @created session stored hstored hvalid hnew =>
      rw [sessionOf_concat]
      by_cases hid : stored.id = id
      · rw [sessionOf_eq_none.2 fun x hx => by rw [← hid]; exact hnew x hx, if_pos hid]
        exact .created hstored.storedAs (hstored.storedAs.id.symm.trans hid)
      · rw [if_neg hid, Option.or_none]
        exact .kept _ (spares_of_ne (congrArg some hstored.storedAs.id.symm) hid)
  | @updated session stored hstored hvalid hmem =>
      rw [sessionOf_map_onId (keepsId_merged stored)]
      by_cases hid : id = stored.id
      · rw [← hid] at hmem
        obtain ⟨old, hold⟩ := exists_sessionOf hmem
        rw [if_pos hid, hold]
        exact .updated old hstored.storedAs (hstored.storedAs.id.symm.trans hid.symm)
      · rw [if_neg hid]
        exact .kept _ (spares_of_ne (congrArg some hstored.storedAs.id.symm) (Ne.symm hid))
  | @added i message stored hstored hmem =>
      rw [sessionOf_map_onId (keepsId_withMessage stored now)]
      by_cases hid : id = i
      · obtain ⟨old, hold⟩ := exists_sessionOf hmem
        rw [if_pos hid, hid, hold]
        exact .added old hstored.draws
      · rw [if_neg hid]
        exact .kept _ (spares_of_ne rfl (Ne.symm hid))
  | @ended i time duration _ hmem =>
      rw [sessionOf_map_onId (keepsId_ended time duration)]
      by_cases hid : id = i
      · obtain ⟨old, hold⟩ := exists_sessionOf hmem
        rw [if_pos hid, hid, hold]
        exact .ended time duration answer old
      · rw [if_neg hid]
        exact .kept _ (spares_of_ne rfl (Ne.symm hid))

/-! ## Properties along a run -/

/-- A property of the session of every id, in an open store with this cipher. -/
structure Along (cipher : ContentCipher) (P : String → Option StoredSession → Prop)
    (s : Store) (sessions : List StoredSession) : Prop where
  sound : Sound s sessions
  unchanged : s.cipher = cipher
  opened : s.closed = false
  property : ∀ id, P id (sessionOf sessions id)

theorem along_fresh {P : String → Option StoredSession → Prop} (settings : Settings)
    (cipher : ContentCipher) (nonces : Cipher.Nonces) (hP : ∀ id, P id none) :
    Along cipher P (fresh settings cipher nonces) [] :=
  ⟨sound_fresh settings cipher nonces, rfl, rfl, hP⟩

theorem Along.step {P P' : String → Option StoredSession → Prop}
    (h : Along cipher P s sessions) (c : Call) (hordinary : c.operation.IsOrdinary)
    (heffect : Effect s.cipher s.nonces c.now sessions s.counters c.operation
      (s.step c.now c.operation).1 sessions' (s.step c.now c.operation).2.1.counters)
    (hsound : Sound (s.step c.now c.operation).2.1 sessions')
    (hP : ∀ id x x', Transition cipher c.now id c.operation
      (s.step c.now c.operation).1 x x' → P id x → P' id x') :
    Along cipher P' (s.step c.now c.operation).2.1 sessions' := by
  have hleaves := leaves_step h.sound.holds c.now hordinary.direct
  rw [h.unchanged] at heffect
  refine ⟨hsound, ?_, ?_, fun id => ?_⟩
  · refine (hleaves.cipher fun key hkey => ?_).trans h.unchanged
    rw [hkey] at hordinary
    exact hordinary
  · refine (hleaves.closed fun hshutdown => ?_).trans h.opened
    rw [hshutdown] at hordinary
    exact hordinary
  · exact hP id _ _ (heffect.transition id) (h.property id)

/-- A property of the session of an id, relative to the replies so far, holds along a
run of ordinary calls if every call preserves it for every id. -/
theorem Along.after {P : List Reply → String → Option StoredSession → Prop}
    {calls : List Call} (replies : List Reply) (h : Along cipher (P replies) s sessions)
    (hordinary : ∀ c ∈ calls, c.operation.IsOrdinary)
    (hP : ∀ c ∈ calls, ∀ replies answer id x x',
      Transition cipher c.now id c.operation answer x x' →
        P replies id x → P (replies ++ [(c, answer)]) id x') :
    ∃ sessions', Along cipher (P (replies ++ s.history calls)) (s.after calls) sessions' := by
  obtain ⟨sessions', -, h'⟩ := h.sound.run
    (P := fun replies s sessions => Along cipher (P replies) s sessions)
    (fun c hc => (hordinary c hc).direct)
    (fun c hc replies _ _ _ _ heffect hsound halong =>
      halong.step c (hordinary c hc) heffect hsound
        fun id x x' => hP c hc replies _ id x x')
    replies h
  exact ⟨sessions', h'⟩

/-! ## Plain years -/

theorem hasPlainYears_stored {session : Session} {stored : StoredSession}
    (h : session.StoredAs cipher now stored) (hsession : session.HasPlainYears) :
    stored.HasPlainYears := by
  refine ⟨?_, ?_, ?_⟩
  · rw [h.startTime]
    exact hsession.startTime
  · rw [h.endTime]
    exact hsession.endTime
  · rw [h.lastActivity]
    intro t ht
    cases ht
    exact hsession.lastActivity

theorem hasPlainYears_merged {new old : StoredSession} (hnew : new.HasPlainYears)
    (hold : old.HasPlainYears) : (new.merged old).HasPlainYears := by
  refine ⟨hnew.startTime, fun t ht => ?_, fun t ht => ?_⟩
  · rcases Option.or_eq_some_iff.1 ht with ht | ⟨-, ht⟩
    · exact hold.endTime t ht
    · exact hnew.endTime t ht
  · have hlater : StoredSession.laterActivity old.lastActivity new.lastActivity = some t := ht
    unfold StoredSession.laterActivity at hlater
    split at hlater
    · next n hn =>
        split at hlater
        · rw [hlater] at hn
          exact hnew.lastActivity t hn
        · exact hold.lastActivity t hlater
    · exact hold.lastActivity t hlater

theorem Transition.hasPlainYears {id : String} {before after : Option StoredSession}
    (h : Transition cipher now id operation answer before after)
    (hcall : Call.HasPlainYears ⟨now, operation⟩)
    (hbefore : ∀ x ∈ before, x.HasPlainYears) : ∀ x ∈ after, x.HasPlainYears := by
  cases h with
  | kept x hspares => exact hbefore
  | @created session stored hstored hid =>
      intro x hx
      cases hx
      exact hasPlainYears_stored hstored hcall.2
  | @updated session stored old hstored hid =>
      intro x hx
      cases hx
      exact hasPlainYears_merged (hasPlainYears_stored hstored hcall.2) (hbefore old rfl)
  | @added message stored old hstored =>
      intro x hx
      cases hx
      have hold := hbefore old rfl
      refine ⟨hold.startTime, hold.endTime, ?_⟩
      intro t ht
      cases ht
      exact hcall.1
  | ended time duration answer old =>
      intro x hx
      cases hx
      have hold := hbefore old rfl
      refine ⟨hold.startTime, fun t ht => ?_, hold.lastActivity⟩
      rcases Option.or_eq_some_iff.1 ht with ht | ⟨-, ht⟩
      · exact hold.endTime t ht
      · cases ht
        exact hcall.2

/-- Whatever a run has stored has plain years, if its calls bring no other. -/
theorem Sound.hasPlainYears_after (h : Sound s []) {calls : List Call}
    (hcalls : ∀ c ∈ calls, ¬ c.operation.IsOverwrite ∧ c.HasPlainYears) :
    ∃ sessions, Sound (s.after calls) sessions ∧ ∀ y ∈ sessions, y.HasPlainYears := by
  obtain ⟨sessions, hsound, hplain⟩ := h.run
    (P := fun _ _ sessions => ∀ id, ∀ y ∈ sessionOf sessions id, y.HasPlainYears)
    (fun c hc => (hcalls c hc).1)
    (fun c hc _ _ _ _ _ heffect _ hplain id =>
      (heffect.transition id).hasPlainYears (hcalls c hc).2 (hplain id))
    [] (fun _ _ hy => absurd hy (Option.not_mem_none _))
  exact ⟨sessions, hsound, fun y hy => hplain y.id y (hsound.sessionOf_id hy)⟩

end Store

end ChatArchive
