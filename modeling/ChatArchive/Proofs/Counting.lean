import ChatArchive.Proofs.MessageLog

/-!
# The counters agree with the table

The counters are kept outside the table: they move when an operation has been
answered, by what its transaction has reported. `Tallied` says what they amount to
after some replies. Two of its parts are plain sizes, how many sessions there are and
how many of them are open. The third looks back at the replies: an end is counted only
if the session was created without one, so the sessions that were created with an end
have to be told apart from those that got theirs later.

A call changes the session of one id at most, and of that session the counters see
only whether it has an end. So creating is one case and everything else is another,
with the end that it sets, if any.
-/

namespace ChatArchive

open Time

namespace Store

/-- Whether the replies tell that a session was created with this id and without an
end. -/
def createdOpen (id : String) (replies : List Reply) : Bool :=
  (createdSessions id replies).any (·.endTime.isNone)

/-- Whether a session has an end that it was not created with. -/
def endedSince (replies : List Reply) (x : StoredSession) : Bool :=
  x.endTime.isSome && createdOpen x.id replies

/-- The replies account for the sessions: those that are open were created so, and only
sessions that are there were created. -/
structure Accounted (replies : List Reply) (sessions : List StoredSession) : Prop where
  opened : ∀ x ∈ sessions, x.endTime = none → createdOpen x.id replies = true
  unknown : ∀ id, (∀ x ∈ sessions, x.id ≠ id) → createdSessions id replies = []

/-- The counters agree with the sessions and with what the replies tell of them. -/
structure Tallied (replies : List Reply) (c : Counters) (sessions : List StoredSession) :
    Prop extends Accounted replies sessions where
  created : c.created = sessions.length
  active : c.active = sessions.countP (·.endTime.isNone)
  ended : c.ended = sessions.countP (endedSince replies)

variable {s : Store} {c c' : Counters} {sessions sessions' : List StoredSession}
  {replies : List Reply} {calls : List Call} {id : String} {cipher : ContentCipher}
  {nonces : Cipher.Nonces} {now : Timestamp} {operation : Operation} {answer : Except Abort Answer}

theorem tallied_fresh : Tallied [] .zero [] :=
  ⟨⟨fun _ hx => absurd hx List.not_mem_nil, fun _ _ => rfl⟩, rfl, rfl, rfl⟩

/-! ## A session changes -/

theorem Accounted.map (h : Accounted replies sessions) {f : StoredSession → StoredSession}
    (hf : KeepsId f) (hend : ∀ x, (f x).endTime = none → x.endTime = none) :
    Accounted replies (sessions.map f) := by
  refine ⟨fun x hx hnone => ?_, fun id hid => h.unknown id fun x hx => ?_⟩
  · obtain ⟨y, hy, rfl⟩ := List.mem_map.1 hx
    rw [hf]
    exact h.opened y hy (hend y hnone)
  · rw [← hf]
    exact hid (f x) (List.mem_map_of_mem hx)

/-- Among sessions with distinct ids, a change on one id moves a count by what it does
to that session. -/
theorem countP_map_onId {f : StoredSession → StoredSession} (p : StoredSession → Bool)
    (hdistinct : sessions.Pairwise (·.id ≠ ·.id)) {x : StoredSession} (hx : x ∈ sessions) :
    (sessions.map (onId x.id f)).countP p + (if p x then 1 else 0)
      = sessions.countP p + (if p (f x) then 1 else 0) := by
  induction sessions with
  | nil => cases hx
  | cons y ys ih =>
      obtain ⟨hy, hys⟩ := List.pairwise_cons.1 hdistinct
      rw [List.map_cons, List.countP_cons, List.countP_cons]
      rcases List.mem_cons.1 hx with rfl | hx
      · have hrest : ys.map (onId x.id f) = ys :=
          (List.map_congr_left fun z hz => onId_of_ne (hy z hz).symm).trans (List.map_id ys)
        rw [hrest, onId_of_eq rfl]
        omega
      · have hrest := ih hys hx
        rw [onId_of_ne (hy x hx)]
        omega

theorem Tallied.map (h : Tallied replies c sessions) {f : StoredSession → StoredSession}
    (hf : KeepsId f) (hend : ∀ x ∈ sessions, (f x).endTime = x.endTime)
    (haccounted : Accounted replies (sessions.map f)) : Tallied replies c (sessions.map f) := by
  refine ⟨haccounted, ?_, ?_, ?_⟩
  · rw [h.created, List.length_map]
  · rw [h.active, List.countP_map]
    congr 1
    exact List.countP_congr fun x hx => by rw [Function.comp, hend x hx]
  · rw [h.ended, List.countP_map]
    refine List.countP_congr fun x hx => ?_
    rw [Function.comp, endedSince, endedSince, hend x hx, hf]

theorem Tallied.finish (h : Tallied replies c sessions)
    (hdistinct : sessions.Pairwise (·.id ≠ ·.id)) {f : StoredSession → StoredSession}
    (hf : KeepsId f) {e : Option Timestamp} (hend : ∀ x, (f x).endTime = x.endTime.or e) :
    Tallied replies (c.finishIf (e.isSome && hasOpen sessions id))
      (sessions.map (onId id f)) := by
  have haccounted : Accounted replies (sessions.map (onId id f)) := by
    refine h.toAccounted.map (id_onId hf) fun x hnone => ?_
    by_cases hid : x.id = id
    · rw [onId_of_eq hid, hend] at hnone
      exact (Option.or_eq_none_iff.1 hnone).1
    · rwa [onId_of_ne hid] at hnone
  cases hset : e.isSome && hasOpen sessions id with
  | false =>
      -- Without an end to set, or with no open session to set it on, all ends stay.
      refine h.map (id_onId hf) (fun x hx => ?_) haccounted
      by_cases hid : x.id = id
      · rw [onId_of_eq hid, hend]
        cases e with
        | none => rw [Option.or_none]
        | some t =>
            have hshut : hasOpen sessions id = false := hset
            have hx' := List.any_eq_false.1 hshut x hx
            rw [decide_eq_true hid, Bool.true_and, Option.isNone_iff_eq_none] at hx'
            obtain ⟨u, hu⟩ := Option.ne_none_iff_exists'.1 hx'
            rw [hu, Option.some_or]
      · rw [onId_of_ne hid]
  | true =>
      rw [Bool.and_eq_true, hasOpen, List.any_eq_true] at hset
      obtain ⟨hsome, x, hx, hopen⟩ := hset
      rw [Bool.and_eq_true, decide_eq_true_iff, Option.isNone_iff_eq_none] at hopen
      obtain ⟨rfl, hopen⟩ := hopen
      obtain ⟨t, rfl⟩ := Option.isSome_iff_exists.1 hsome
      -- The open session is the only one of its id. It leaves one count for the other:
      -- being open, it was created so.
      have hclosed : (f x).endTime = some t := by rw [hend, hopen, Option.none_or]
      have hactive := countP_map_onId (f := f) (·.endTime.isNone) hdistinct hx
      have hended := countP_map_onId (f := f) (endedSince replies) hdistinct hx
      rw [if_pos (by rw [hopen]; rfl), if_neg (by rw [hclosed]; exact Bool.false_ne_true)]
        at hactive
      rw [if_neg (by rw [endedSince, hopen]; exact Bool.false_ne_true),
        if_pos (by rw [endedSince, hclosed, hf, h.opened x hx hopen]; rfl)] at hended
      refine ⟨haccounted, ?_, ?_, ?_⟩
      · rw [List.length_map]
        exact h.created
      · have hbefore := h.active
        show c.active - 1 = _
        omega
      · have hbefore := h.ended
        show c.ended + 1 = _
        omega

/-! ## A reply is told -/

theorem Tallied.concat (h : Tallied replies c sessions) (r : Reply)
    (hcreated : ∀ id, created? id r.1.operation r.2 = none) :
    Tallied (replies ++ [r]) c sessions := by
  have hsame : ∀ id, createdSessions id (replies ++ [r]) = createdSessions id replies := by
    intro id
    rw [createdSessions_concat, hcreated, Option.toList_none, List.append_nil]
  have hended : endedSince (replies ++ [r]) = endedSince replies := by
    funext x
    rw [endedSince, endedSince, createdOpen, createdOpen, hsame]
  refine ⟨⟨fun x hx hnone => ?_, fun id hid => ?_⟩, h.created, h.active, ?_⟩
  · rw [createdOpen, hsame]
    exact h.opened x hx hnone
  · rw [hsame]
    exact h.unknown id hid
  · rw [hended]
    exact h.ended

/-- A new session is counted as created, and as active if it has no end; as ended it is
not counted in either case. -/
theorem Tallied.create (h : Tallied replies c sessions) {session : Session}
    {stored : StoredSession} (hstored : session.StoredAs cipher now stored)
    (hnew : ∀ x ∈ sessions, x.id ≠ stored.id) :
    Tallied (replies ++ [(⟨now, .create session⟩, .ok .nothing)])
      (c.create stored.endTime.isNone) (sessions ++ [stored]) := by
  have hold : ∀ id, id ≠ stored.id →
      createdSessions id (replies ++ [(⟨now, .create session⟩, .ok .nothing)])
        = createdSessions id replies := by
    intro id hid
    have hother : session.id ≠ id := fun heq => hid (by rw [← heq, hstored.id])
    rw [createdSessions_concat, created?, if_neg hother, Option.toList_none, List.append_nil]
  have hself : createdOpen stored.id (replies ++ [(⟨now, .create session⟩, .ok .nothing)])
      = stored.endTime.isNone := by
    rw [createdOpen, createdSessions_concat, h.unknown _ hnew, created?,
      if_pos hstored.id.symm, hstored.endTime]
    exact Bool.or_false _
  refine ⟨⟨fun x hx hnone => ?_, fun id hid => ?_⟩, ?_, ?_, ?_⟩
  · rcases List.mem_append.1 hx with hx | hx
    · rw [createdOpen, hold x.id (hnew x hx)]
      exact h.opened x hx hnone
    · rw [List.mem_singleton.1 hx] at hnone ⊢
      rw [hself, hnone]
      rfl
  · rw [hold id fun heq => hid stored (List.mem_append_right _ (List.mem_singleton_self _))
      heq.symm]
    exact h.unknown id fun x hx => hid x (List.mem_append_left _ hx)
  · show c.created + 1 = _
    rw [h.created, List.length_append, List.length_singleton]
  · show (if stored.endTime.isNone then c.active + 1 else c.active) = _
    rw [h.active, List.countP_append, List.countP_singleton]
    split <;> simp
  · show c.ended = _
    have hcounted : endedSince (replies ++ [(⟨now, .create session⟩, .ok .nothing)]) stored
        = false := by
      rw [endedSince, hself]
      cases stored.endTime <;> rfl
    rw [h.ended, List.countP_append, List.countP_singleton, if_neg (by rw [hcounted]; decide)]
    refine List.countP_congr fun x hx => ?_
    rw [endedSince, endedSince, createdOpen, createdOpen, hold x.id (hnew x hx)]

/-- Every call keeps the counters in agreement. -/
theorem Effect.tallied
    (h : Effect cipher nonces now sessions c operation answer sessions' c')
    (hdistinct : sessions.Pairwise (·.id ≠ ·.id)) (htallied : Tallied replies c sessions) :
    Tallied (replies ++ [(⟨now, operation⟩, answer)]) c' sessions' := by
  cases h with
  | failed _ e => exact htallied.concat _ fun id => by cases operation <;> rfl
  | read _ h => exact htallied.concat _ fun id => created?_of_spares (spares_of_not_writes h)
  | created hstored hvalid hnew => exact htallied.create hstored.storedAs hnew
  | @updated session stored hstored hvalid hmem =>
      exact (htallied.finish hdistinct (keepsId_merged stored) fun _ => rfl).concat _
        fun _ => rfl
  | added hstored hmem =>
      exact (htallied.finish hdistinct (keepsId_withMessage _ now) (e := none)
        fun x => (Option.or_none).symm).concat _ fun _ => rfl
  | ended time duration _ hmem =>
      exact (htallied.finish hdistinct (keepsId_ended time duration) (e := some time)
        fun _ => rfl).concat _ fun _ => rfl

/-- After every run on a fresh database that is only written through operations, in
whatever order and with whatever failures: the counters of created and of active
sessions are the numbers of rows and of rows without an end, and that of ended sessions
is the number of rows with an end whose session was created without one. -/
theorem counters_after_run (settings : Settings) (cipher : ContentCipher)
    (nonces : Cipher.Nonces) (calls : List Call)
    (hdirect : ∀ c ∈ calls, ¬ c.operation.IsOverwrite) :
    let s := (fresh settings cipher nonces).after calls
    let replies := (fresh settings cipher nonces).history calls
    s.counters.created = s.table.rows.length ∧
    s.counters.active = s.table.rows.countP (·.endTime.isNone) ∧
    s.counters.ended
      = s.table.rows.countP fun row => row.endTime.isSome && createdOpen row.id replies := by
  obtain ⟨sessions, hsound, h⟩ := (sound_fresh settings cipher nonces).run
    (P := fun replies s sessions => Tallied replies s.counters sessions) hdirect
    (fun _ _ _ _ _ _ hsound heffect _ h => heffect.tallied hsound.distinct h)
    [] tallied_fresh
  intro s replies
  -- A row has an end exactly if its session has; what the end is does not matter.
  rw [hsound.holds]
  refine ⟨?_, ?_, ?_⟩
  · rw [List.length_map]
    exact h.created
  · rw [List.countP_map]
    refine h.active.trans ?_
    congr 1
    refine List.countP_congr fun x _ => ?_
    show _ ↔ (x.endTime.map Timestamp.toColumn).isNone = true
    rw [Option.isNone_map]
  · rw [List.countP_map]
    refine h.ended.trans (List.countP_congr fun x _ => ?_)
    show _ ↔ ((x.endTime.map Timestamp.toColumn).isSome && createdOpen x.id replies) = true
    rw [Option.isSome_map]
    rfl

/-- Three sessions, one of them created with its end and one twice. An end is refused,
another is set by an update and again by an ending, and in the end the key is changed
and the store shut down. -/
def mixedCalls : List Call := [
  ⟨.epoch, .create (.start "a" "u" .epoch)⟩,
  ⟨.epoch, .create (.start "a" "u" .epoch)⟩,
  ⟨.epoch, .create { Session.start "b" "u" .epoch with endTime := some .epoch }⟩,
  ⟨.epoch, .create (.start "c" "u" .epoch)⟩,
  ⟨.epoch, .refuse ⟨.updatesOf "endTs", "database is locked"⟩⟩,
  ⟨.epoch, .finish "c" .epoch⟩,
  ⟨.epoch, .relent⟩,
  ⟨.epoch, .update { Session.start "a" "u" .epoch with endTime := some .epoch }⟩,
  ⟨.epoch, .finish "a" .epoch⟩,
  ⟨.epoch, .rekey (List.replicate 16 7)⟩,
  ⟨.epoch, .shutdown⟩,
  ⟨.epoch, .finish "c" .epoch⟩]

theorem counters_after_mixedCalls :
    let s := (fresh .standard .disabled (.counting 0)).after mixedCalls
    let replies := (fresh .standard .disabled (.counting 0)).history mixedCalls
    s.counters = ⟨3, 1, 1⟩ ∧ s.table.rows.length = 3 ∧
    s.table.rows.countP (·.endTime.isNone) = 1 ∧
    (s.table.rows.countP fun row => row.endTime.isSome && createdOpen row.id replies) = 1 := by
  have hdirect : ∀ c ∈ mixedCalls, ¬ c.operation.IsOverwrite := by
    intro c hc
    simp only [mixedCalls, List.mem_cons, List.not_mem_nil, or_false] at hc
    rcases hc with rfl | rfl | rfl | rfl | rfl | rfl | rfl | rfl | rfl | rfl | rfl | rfl <;>
      exact nofun
  have hcounters : ((fresh .standard .disabled (.counting 0)).after mixedCalls).counters
      = ⟨3, 1, 1⟩ := by
    decide +kernel
  obtain ⟨hcreated, hactive, hended⟩ :=
    counters_after_run .standard .disabled (.counting 0) mixedCalls hdirect
  rw [hcounters] at hcreated hactive hended
  exact ⟨hcounters, hcreated.symm, Int.ofNat_inj.1 hactive.symm, hended.symm⟩

end Store

end ChatArchive
