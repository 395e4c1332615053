import ChatArchive.Proofs.Runs
import ChatArchive.Proofs.TimeOrder

/-!
# When a session was last active

Two operations move the last activity of a stored session. An update takes the later
of the recorded time and its own. A message writes the clock, whatever is recorded. So
messages alone can take a session back in time, and a clock that never goes backwards
does not keep them from it: sessions may be created or updated with an activity that
the clock has not reached yet. Without such sessions the recorded activity never passes
the clock, and then nothing takes it back.

`activityAfter` is the whole law of one call. The invariant of a run is that every
session has an activity, one of those that the calls so far brought.
-/

namespace ChatArchive

open Time

/-- An activity that is created or updated is not ahead of the clock. -/
def Call.HasPastActivity (c : Call) : Prop :=
  match c.operation with
  | .create session | .update session => session.lastActivity ≤ c.now
  | _ => True

namespace Store

/-- The last activity that is recorded for the session of an id. -/
def activityOf (s : Store) (id : String) : Option String :=
  (s.table.row? id).bind (·.lastActivity)

/-- The last activity of the session of an id after a reply. -/
def activityAfter (id : String) (t : Timestamp) : Reply → Timestamp
  | (⟨_, .update session⟩, .ok _) =>
    if session.id = id ∧ t < session.lastActivity then session.lastActivity else t
  | (⟨now, .addMessage i _⟩, .ok _) => if i = id then now else t
  | _ => t

variable {cipher : ContentCipher} {now : Timestamp} {id : String} {operation : Operation}
  {answer : Except Abort Answer} {x x' : Option StoredSession} {s : Store}
  {sessions : List StoredSession} {t : Timestamp}

/-! ## One call -/

/-- A reply leaves the activity, or tells of an update that brings a later one, or of a
message. -/
theorem activityAfter_cases (id : String) (t : Timestamp) (r : Reply) :
    activityAfter id t r = t ∨
    (∃ session, r.1.operation = .update session ∧ session.id = id ∧ t < session.lastActivity ∧
      activityAfter id t r = session.lastActivity) ∨
    ∃ message a, r.1.operation = .addMessage id message ∧ r.2 = .ok a ∧
      activityAfter id t r = r.1.now := by
  obtain ⟨⟨now, operation⟩, answer⟩ := r
  cases answer with
  | error e => exact Or.inl (by cases operation <;> rfl)
  | ok a =>
      cases operation with
      | update session =>
          by_cases hlater : session.id = id ∧ t < session.lastActivity
          · exact Or.inr (Or.inl ⟨session, rfl, hlater.1, hlater.2, if_pos hlater⟩)
          · exact Or.inl (if_neg hlater)
      | addMessage i message =>
          by_cases hid : i = id
          · exact Or.inr (Or.inr
              ⟨message, a, congrArg (Operation.addMessage · message) hid, rfl, if_pos hid⟩)
          · exact Or.inl (if_neg hid)
      | _ => exact Or.inl rfl

theorem activityAfter_of_spares (h : Spares id operation answer) :
    activityAfter id t (⟨now, operation⟩, answer) = t := by
  rcases h with h | ⟨e, rfl⟩
  · rcases activityAfter_cases id t (⟨now, operation⟩, answer) with
      hsame | ⟨session, hupdate, hid, -⟩ | ⟨message, a, hadd, -⟩
    · exact hsame
    · exact absurd ((congrArg Operation.target? hupdate).trans (congrArg some hid)) h
    · exact absurd (congrArg Operation.target? hadd) h
  · cases operation <;> rfl

/-- A call moves the activity of a session as `activityAfter` says. -/
theorem Transition.activity (h : Transition cipher now id operation answer x x')
    (hcall : Call.HasPlainYears ⟨now, operation⟩) {y : StoredSession} (hy : y ∈ x)
    (hactivity : y.lastActivity = some t) (ht : t.HasPlainYear) :
    ∃ y' ∈ x', y'.lastActivity
      = some (activityAfter id t (⟨now, operation⟩, answer)) := by
  cases h with
  | kept x hspares =>
      rw [activityAfter_of_spares hspares]
      exact ⟨y, hy, hactivity⟩
  | created hstored hid => cases hy
  | @updated session stored old hstored hid =>
      cases hy
      refine ⟨_, rfl, ?_⟩
      show StoredSession.laterActivity y.lastActivity stored.lastActivity = _
      have hlater : t.toColumn < session.lastActivity.toColumn ↔ t < session.lastActivity :=
        Timestamp.toColumn_lt_iff ht hcall.2.lastActivity
      simp only [hstored.lastActivity, hactivity, StoredSession.laterActivity, Option.map_some,
        Option.getD_some, hlater, activityAfter, hid, true_and]
      split <;> rfl
  | added old hstored =>
      cases hy
      exact ⟨_, rfl, by simp [StoredSession.withMessage, activityAfter]⟩
  | ended time duration answer old =>
      cases hy
      refine ⟨_, rfl, hactivity.trans ?_⟩
      simp [activityAfter]

/-- A reply takes the activity back exactly if it tells of a message that came at a time
before. -/
theorem activityAfter_lt_iff (r : Reply) :
    activityAfter id t r < t ↔
      ∃ message a, r.1.operation = .addMessage id message ∧ r.2 = .ok a ∧ r.1.now < t := by
  constructor
  · intro hlt
    rcases activityAfter_cases id t r with
      hsame | ⟨session, -, -, hlater, hmoved⟩ | ⟨message, a, hadd, hok, hmoved⟩
    · rw [hsame] at hlt
      exact absurd hlt (Timestamp.lt_asymm hlt)
    · rw [hmoved] at hlt
      exact absurd hlt (Timestamp.lt_asymm hlater)
    · exact ⟨message, a, hadd, hok, hmoved ▸ hlt⟩
  · rintro ⟨message, a, hadd, hok, hlt⟩
    obtain ⟨⟨now, operation⟩, answer⟩ := r
    cases hadd
    cases hok
    rwa [activityAfter, if_pos rfl]

/-- A reply leaves the activity, or moves it to a time that its call brings. -/
theorem activityAfter_le (id : String) (t : Timestamp) {r : Reply} (hpast : r.1.HasPastActivity) :
    activityAfter id t r = t ∨ activityAfter id t r ≤ r.1.now := by
  rcases activityAfter_cases id t r with
    hsame | ⟨session, hupdate, -, -, hmoved⟩ | ⟨message, a, -, -, hmoved⟩
  · exact Or.inl hsame
  · rw [Call.HasPastActivity, hupdate] at hpast
    exact Or.inr (hmoved ▸ hpast)
  · exact Or.inr (hmoved ▸ fun hlt => Timestamp.lt_asymm hlt hlt)

/-! ## Runs -/

/-- A stored session has an activity. If none was ahead of the clock when it was brought,
the clock has been there. -/
def WasActive (replies : List Reply) (y : StoredSession) : Prop :=
  ∃ t, y.lastActivity = some t ∧
    ((∀ r ∈ replies, r.1.HasPastActivity) → ∃ r ∈ replies, t ≤ r.1.now)

theorem Transition.wasActive (h : Transition cipher now id operation answer x x')
    (hcall : Call.HasPlainYears ⟨now, operation⟩) {replies : List Reply}
    (hx : ∀ y ∈ x, WasActive replies y ∧ y.HasPlainYears) :
    ∀ y ∈ x', WasActive (replies ++ [(⟨now, operation⟩, answer)]) y := by
  intro y' hy'
  cases x with
  | none =>
      -- Only a session that is created now was not there before.
      cases h with
      | kept => cases hy'
      | @created session stored hstored hid =>
          cases hy'
          refine ⟨session.lastActivity, hstored.lastActivity, fun hpast => ?_⟩
          exact ⟨_, by simp, hpast (⟨now, .create session⟩, .ok .nothing) (by simp)⟩
  | some y =>
      obtain ⟨⟨t, ht, hclock⟩, hplain⟩ := hx y rfl
      obtain ⟨z, hz, hactivity⟩ := h.activity hcall rfl ht (hplain.lastActivity t ht)
      cases hz.symm.trans hy'
      refine ⟨_, hactivity, fun hpast => ?_⟩
      have hpast' : Call.HasPastActivity ⟨now, operation⟩ :=
        hpast (⟨now, operation⟩, answer) (by simp)
      rcases activityAfter_le id t (r := (⟨now, operation⟩, answer)) hpast' with hsame | hle
      · obtain ⟨r, hr, hle⟩ := hclock fun r hr => hpast r (by simp [hr])
        exact ⟨r, by simp [hr], by rwa [hsame]⟩
      · exact ⟨(⟨now, operation⟩, answer), by simp, hle⟩

theorem Sound.wasActive_after {calls : List Call} (h : Sound s [])
    (hcalls : ∀ c ∈ calls, ¬ c.operation.IsOverwrite ∧ c.HasPlainYears) :
    ∃ sessions, Sound (s.after calls) sessions ∧
      ∀ id, ∀ y ∈ sessionOf sessions id, WasActive (s.history calls) y ∧ y.HasPlainYears := by
  refine h.run (P := fun replies _ sessions =>
    ∀ id, ∀ y ∈ sessionOf sessions id, WasActive replies y ∧ y.HasPlainYears)
    (fun c hc => (hcalls c hc).1) (fun c hc replies s sessions sessions' _ heffect _ hP id => ?_)
    [] (fun id y hy => by cases hy)
  have htransition := heffect.transition id
  intro y hy
  exact ⟨htransition.wasActive (hcalls c hc).2 (hP id) y hy,
    htransition.hasPlainYears (hcalls c hc).2 (fun z hz => (hP id z hz).2) y hy⟩

/-- What a call does to the last activity of a stored session, after every run with plain
years: it moves as `activityAfter` says, backwards exactly by a message that comes at a
time before. If the clock never goes backwards and no activity was brought ahead of it, the
activity does not go backwards either. -/
theorem activity_after_run (settings : Settings) (cipher : ContentCipher)
    (nonces : Cipher.Nonces) (calls : List Call) (c : Call)
    (hcalls : ∀ d ∈ calls ++ [c], ¬ d.operation.IsOverwrite ∧ d.HasPlainYears) (id : String)
    (hid : ((fresh settings cipher nonces).after calls).table.row? id ≠ none) :
    let s := (fresh settings cipher nonces).after calls
    let answer := (s.step c.now c.operation).1
    ∃ t, s.activityOf id = some t.toColumn ∧
      (s.step c.now c.operation).2.1.activityOf id
        = some (activityAfter id t (c, answer)).toColumn ∧
      (activityAfter id t (c, answer) < t ↔
        ∃ message a, c.operation = .addMessage id message ∧ answer = .ok a ∧ c.now < t) ∧
      ((calls ++ [c]).Pairwise (fun d d' => d.now ≤ d'.now) →
        (∀ d ∈ calls, d.HasPastActivity) → t ≤ activityAfter id t (c, answer)) := by
  intro s answer
  obtain ⟨sessions, hsound, hactive⟩ := (sound_fresh settings cipher nonces).wasActive_after
    fun d hd => hcalls d (List.mem_append_left [c] hd)
  have hc := hcalls c (by simp)
  obtain ⟨sessions', heffect, hsound'⟩ := hsound.step c.now hc.1
  rw [row?_of_holds hsound.holds, ne_eq, Option.map_eq_none_iff, ← ne_eq,
    Option.ne_none_iff_exists'] at hid
  obtain ⟨y, hy⟩ := hid
  obtain ⟨⟨t, ht, hclock⟩, hplain⟩ := hactive id y hy
  obtain ⟨y', hy', ht'⟩ := (heffect.transition id).activity hc.2 hy ht
    (hplain.lastActivity t ht)
  refine ⟨t, ?_, ?_, activityAfter_lt_iff (c, answer), fun hmonotone hpast hlt => ?_⟩
  · rw [activityOf, row?_of_holds hsound.holds, hy]
    simp [Row.ofStored, ht]
  · rw [activityOf, row?_of_holds hsound'.holds, hy']
    simp [Row.ofStored, ht', answer, s]
  · obtain ⟨message, a, -, -, hnow⟩ := (activityAfter_lt_iff (c, answer)).1 hlt
    obtain ⟨r, hr, hle⟩ := hclock fun r hr => hpast r.1 (call_mem hr)
    have hrc := (List.pairwise_append.1 hmonotone).2.2 r.1 (call_mem hr) c (by simp)
    exact Timestamp.le_trans hle hrc hnow

/-- One day after 1970 began. -/
def nextDay : Timestamp := ⟨86400, 0, by decide, by decide, by decide⟩

/-- A session is created that is active on the next day. -/
def activeAhead : Call :=
  ⟨.epoch, .create { Session.start "a" "u" .epoch with lastActivity := nextDay }⟩

/-- It gets a message now. -/
def messageNow : Call := ⟨.epoch, .addMessage "a" (.plain .user "hello" .epoch)⟩

theorem activeAhead_plain : ∀ d ∈ [activeAhead] ++ [messageNow],
    d.operation.Writes ∧ ¬ d.operation.IsOverwrite ∧ d.HasPlainYears := by
  have hepoch : Timestamp.epoch.HasPlainYear := by decide
  have hday : nextDay.HasPlainYear := by decide
  intro d hd
  simp only [List.cons_append, List.nil_append, List.mem_cons, List.not_mem_nil, or_false] at hd
  rcases hd with rfl | rfl
  · exact ⟨trivial, id, hepoch, hepoch, fun t ht => (by cases ht), hday⟩
  · exact ⟨trivial, id, hepoch, trivial⟩

/-- The message takes the session back to now, since it came at a time before. -/
theorem activity_after_activeAhead :
    ∃ t,
      ((fresh .standard .disabled (.counting 0)).after [activeAhead]).activityOf "a"
        = some t.toColumn ∧
      (((fresh .standard .disabled (.counting 0)).after [activeAhead]).step messageNow.now
        messageNow.operation).2.1.activityOf "a" = some (activityAfter "a" t (messageNow,
          (((fresh .standard .disabled (.counting 0)).after [activeAhead]).step messageNow.now
            messageNow.operation).1)).toColumn := by
  obtain ⟨t, hbefore, hafter, -⟩ := activity_after_run .standard .disabled (.counting 0)
      [activeAhead] messageNow (fun d hd => (activeAhead_plain d hd).2) "a" (by decide +kernel)
  exact ⟨t, hbefore, hafter⟩

/-- Without faults, with plain years and a clock that stands still, an activity goes
backwards. -/
theorem activity_goes_back :
    ¬ ∀ (settings : Settings) (cipher : ContentCipher) (nonces : Cipher.Nonces)
        (calls : List Call) (c : Call),
      (∀ d ∈ calls ++ [c], d.operation.Writes ∧ d.HasPlainYears) →
      (calls ++ [c]).Pairwise (fun d d' => d.now ≤ d'.now) →
      ∀ id t t', ((fresh settings cipher nonces).after calls).activityOf id
          = some (Timestamp.toColumn t) →
        ((fresh settings cipher nonces).after (calls ++ [c])).activityOf id
          = some (Timestamp.toColumn t') → t ≤ t' := by
  intro h
  have hback : nextDay ≤ Timestamp.epoch := by
    refine h .standard .disabled (.counting 0) [activeAhead] messageNow ?_ ?_ "a" nextDay .epoch
      ?_ ?_
    · exact fun d hd => ⟨(activeAhead_plain d hd).1, (activeAhead_plain d hd).2.2⟩
    · decide
    · decide +kernel
    · decide +kernel
  exact absurd hback (by decide)

end Store

end ChatArchive
