import ChatArchive.Proofs.Lifecycle
import ChatArchive.Proofs.Unhindered

/-!
# How long a session was

The call that ends a session records how long it was, from its start to its end. The end
stays. The start does not: an update brings another one, without touching the recorded
duration. And ending a session again computes its duration again, from the start that is
recorded by then.

So two starts have to be told apart, the one that is recorded and the one that the
recorded duration was computed from. `Measure` follows both through a run. The duration
stays what it was if no update brings another start, or if the session is not ended
again, but not if one follows the other.
-/

namespace ChatArchive

open Time

/-- The recorded start of an ended session, and the start that its duration was computed
from. -/
structure Measure where
  recorded : Timestamp
  used : Timestamp

/-- What a reply tells of the session of an id that has ended. -/
def Measure.next (id : String) (m : Measure) : Reply → Measure
  | (⟨_, .update session⟩, .ok _) =>
    if session.id = id then { m with recorded := session.startTime } else m
  | (⟨_, .finish i _⟩, .ok _) => if i = id then { m with used := m.recorded } else m
  | _ => m

/-- A stored session that has ended, with its measure. -/
structure StoredSession.Timed (x : StoredSession) (finish : Timestamp) (m : Measure) : Prop where
  startTime : x.startTime = m.recorded
  endTime : x.endTime = some finish
  duration : x.duration = durationSecs m.used finish

namespace Store

/-- The row of an id is that of a session that has ended, with its measure. -/
def Measured (s : Store) (id : String) (finish : Timestamp) (m : Measure) : Prop :=
  ∃ row, s.table.row? id = some row ∧ row.startTime = m.recorded.toColumn ∧
    row.endTime = some finish.toColumn ∧ row.duration = durationSecs m.used finish

variable {s : Store} {sessions sessions' : List StoredSession} {id : String}
  {finish start : Timestamp} {m : Measure} {now : Timestamp} {operation : Operation}
  {answer : Except Abort Answer}

/-! ## The measure -/

/-- A reply leaves the measure, or tells of an update or of an end. -/
theorem next_cases (id : String) (m : Measure) (r : Reply) :
    m.next id r = m ∨
    (∃ session, r.1.operation = .update session ∧ session.id = id ∧
      m.next id r = { m with recorded := session.startTime }) ∨
    ∃ time, r.1.operation = .finish id time ∧ m.next id r = { m with used := m.recorded } := by
  obtain ⟨⟨now, operation⟩, answer⟩ := r
  cases answer with
  | error e => exact Or.inl (by cases operation <;> rfl)
  | ok a =>
      cases operation with
      | update session =>
          by_cases hid : session.id = id
          · exact Or.inr (Or.inl ⟨session, rfl, hid, if_pos hid⟩)
          · exact Or.inl (if_neg hid)
      | finish i time =>
          by_cases hid : i = id
          · exact Or.inr (Or.inr ⟨time, congrArg (Operation.finish · time) hid, if_pos hid⟩)
          · exact Or.inl (if_neg hid)
      | _ => exact Or.inl rfl

theorem next_of_spares (h : Spares id operation answer) :
    m.next id (⟨now, operation⟩, answer) = m := by
  rcases h with h | ⟨e, rfl⟩
  · rcases next_cases id m (⟨now, operation⟩, answer) with
      hsame | ⟨session, hupdate, hid, -⟩ | ⟨time, hend, -⟩
    · exact hsame
    · exact absurd ((congrArg Operation.target? hupdate).trans (congrArg some hid)) h
    · exact absurd (congrArg Operation.target? hend) h
  · cases operation <;> rfl

/-- Updates that bring no other start leave the measure, whatever else is done. -/
theorem foldl_next_of_updates {replies : List Reply}
    (h : ∀ r ∈ replies, ∀ session, r.1.operation = .update session → session.id = id →
      session.startTime = start) :
    replies.foldl (Measure.next id) ⟨start, start⟩ = ⟨start, start⟩ := by
  induction replies with
  | nil => rfl
  | cons r replies ih =>
      have hnext : Measure.next id ⟨start, start⟩ r = ⟨start, start⟩ := by
        rcases next_cases id ⟨start, start⟩ r with
          hsame | ⟨session, hupdate, hid, hnext⟩ | ⟨time, hend, hnext⟩
        · exact hsame
        · rw [hnext, h r (by simp) session hupdate hid]
        · exact hnext
      rw [List.foldl_cons, hnext]
      exact ih fun r' hr' => h r' (by simp [hr'])

/-- Without another end, the duration stays computed from the same start. -/
theorem foldl_next_of_ends {replies : List Reply}
    (h : ∀ r ∈ replies, ∀ time, r.1.operation ≠ .finish id time) (m : Measure) :
    (replies.foldl (Measure.next id) m).used = m.used := by
  induction replies generalizing m with
  | nil => rfl
  | cons r replies ih =>
      rw [List.foldl_cons, ih fun r' hr' => h r' (by simp [hr'])]
      rcases next_cases id m r with hsame | ⟨session, hupdate, hid, hnext⟩ | ⟨time, hend, hnext⟩
      · rw [hsame]
      · rw [hnext]
      · exact absurd hend (h r (by simp) time)

/-! ## One call -/

/-- Ending a session records its duration, unless the database was shut down. -/
theorem Sound.ends (h : Sound s sessions) (hrefusal : s.table.refusal = none)
    {y : StoredSession} (hy : sessionOf sessions id = some y) (hplain : y.HasPlainYears)
    {time : Timestamp} (htime : time.HasPlainYear) (now : Timestamp) :
    (∃ e, (s.step now (.finish id time)).1 = .error e ∧
      (s.step now (.finish id time)).2.1.table.row? id = some (Row.ofStored y)) ∨
    ∃ a, (s.step now (.finish id time)).1 = .ok a ∧
      (s.step now (.finish id time)).2.1.table.row? id = some (Row.ofStored
        (y.ended time (some (durationSecs y.startTime (y.endTime.getD time))))) := by
  obtain ⟨hmem, hid⟩ := mem_of_sessionOf hy
  have hrow : s.table.row? id = some (Row.ofStored y) := by rw [row?_of_holds h.holds, hy]; rfl
  have hstep : s.step now (.finish id time) = (fun result : Except Abort Answer × Store =>
      (result.1, { result.2 with events := [] }, result.2.events))
      (({ s with events := [] } : Store).perform (Store.run now (.finish id time))) := rfl
  rcases Bool.eq_false_or_eq_true s.closed with hclosed | hopen
  · obtain ⟨e, events, hfails⟩ := finish_closed (s := { s with events := [] }) hclosed id time
    rw [hstep, Store.run, perform_bind_error hfails]
    exact Or.inl ⟨e, rfl, hrow⟩
  · have hend : Row.readTime ((Row.ofStored y).endTime.getD time.toColumn)
        = .ok (y.endTime.getD time) := by
      cases he : y.endTime with
      | none => simpa [Row.ofStored, he] using Row.readTime_column htime
      | some e => simpa [Row.ofStored, he] using Row.readTime_column (hplain.endTime e he)
    have hends := finish_unrefused (s := { s with events := [] }) hopen hrefusal
      h.distinct_rows (by rw [← hid]; exact h.named y hmem) hrow time
      (Row.readTime_column hplain.startTime) hend
    rw [hstep, Store.run, perform_bind_ok hends]
    refine Or.inr ⟨.nothing, rfl, (Table.row?_concluded hrow _ _).trans ?_⟩
    cases he : y.endTime <;> simp [Row.ofStored, StoredSession.ended, he]

/-- A session that has ended keeps its end, and its measure moves on. -/
theorem Sound.timed (h : Sound s sessions) (hrefusal : s.table.refusal = none)
    (hcall : Call.HasPlainYears ⟨now, operation⟩) {cipher : ContentCipher}
    (htransition : Transition cipher now id operation (s.step now operation).1
      (sessionOf sessions id) (sessionOf sessions' id))
    (h' : Sound (s.step now operation).2.1 sessions') {y : StoredSession}
    (hy : sessionOf sessions id = some y) (hplain : y.HasPlainYears) (htimed : y.Timed finish m) :
    ∃ y', sessionOf sessions' id = some y' ∧
      y'.Timed finish (m.next id (⟨now, operation⟩, (s.step now operation).1)) := by
  have hrow := row?_of_holds h'.holds id
  rw [hy] at htransition
  generalize hanswer : (s.step now operation).1 = answer at htransition ⊢
  generalize sessionOf sessions' id = x' at htransition hrow ⊢
  cases htransition with
  | kept x hspares => exact ⟨y, rfl, by rwa [next_of_spares hspares]⟩
  | @updated session stored old hstored hid =>
      refine ⟨_, rfl, ?_, ?_, ?_⟩
      · simp [Measure.next, hid, StoredSession.merged, StoredSession.refreshed, hstored.startTime]
      · simp [StoredSession.merged, htimed.endTime]
      · simp [Measure.next, hid, StoredSession.merged, StoredSession.refreshed, htimed.endTime,
          htimed.duration]
  | added old hstored =>
      exact ⟨_, rfl, htimed.startTime, htimed.endTime, htimed.duration⟩
  | ended time duration answer old =>
      have hduration : ∀ z : StoredSession, (s.step now (.finish id time)).2.1.table.row? id
          = some (Row.ofStored z) → (y.ended time duration).duration = z.duration := by
        intro z hz
        exact congrArg Row.duration (Option.some.inj (hrow.symm.trans hz))
      refine ⟨_, rfl, ?_⟩
      rcases h.ends hrefusal hy hplain hcall.2 now with ⟨e, he, hsame⟩ | ⟨a, ha, hends⟩
      · rw [← hanswer, he]
        refine ⟨htimed.startTime, by simp [StoredSession.ended, htimed.endTime], ?_⟩
        rw [hduration y hsame]
        exact htimed.duration
      · rw [← hanswer, ha]
        refine ⟨by simp [Measure.next, StoredSession.ended, htimed.startTime],
          by simp [StoredSession.ended, htimed.endTime], ?_⟩
        rw [hduration _ hends]
        simp [Measure.next, StoredSession.ended, htimed.startTime, htimed.endTime]

/-- The call that ends a session records its duration from the start that is recorded
then. -/
theorem Sound.timed_of_end (h : Sound s sessions) (hrefusal : s.table.refusal = none)
    (hcall : Call.HasPlainYears ⟨now, operation⟩) {cipher : ContentCipher}
    (htransition : Transition cipher now id operation (s.step now operation).1
      (sessionOf sessions id) (sessionOf sessions' id))
    (h' : Sound (s.step now operation).2.1 sessions')
    (hplain : ∀ y ∈ sessionOf sessions id, y.HasPlainYears)
    (hopen : (sessionOf sessions id).bind (·.endTime) = none)
    (hended : (sessionOf sessions' id).bind (·.endTime) = some finish) :
    ∃ y start, sessionOf sessions' id = some y ∧ y.Timed finish ⟨start, start⟩ := by
  have hrow := row?_of_holds h'.holds id
  have hends : ∀ old time, sessionOf sessions id = some old → operation = .finish id time →
      _ := fun old time hold hoperation =>
    have htime : time.HasPlainYear := by rw [hoperation] at hcall; exact hcall.2
    h.ends hrefusal hold (hplain old hold) htime now
  generalize sessionOf sessions id = x at htransition hopen hends
  generalize sessionOf sessions' id = x' at htransition hended hrow ⊢
  generalize hanswer : (s.step now operation).1 = answer at htransition
  cases htransition with
  | kept x hspares => rw [hopen] at hended; cases hended
  | @created session stored hstored hid =>
      have hend : stored.endTime = some finish := hended
      refine ⟨_, session.startTime, rfl, hstored.startTime, hend, ?_⟩
      rw [hstored.duration, ← hstored.endTime, hend, Option.getD_some]
  | @updated session stored old hstored hid =>
      have hold : old.endTime = none := hopen
      have hend : stored.endTime = some finish := by
        simpa [StoredSession.merged, hold] using hended
      refine ⟨_, session.startTime, rfl, hstored.startTime, hended, ?_⟩
      simp [StoredSession.merged, StoredSession.refreshed, hold, hstored.duration,
        ← hstored.endTime, hend]
  | added old hstored =>
      have hold : old.endTime = some finish := hended
      have hnone : old.endTime = none := hopen
      rw [hnone] at hold
      cases hold
  | ended time duration answer old =>
      have hold : old.endTime = none := hopen
      have htime : time = finish := by simpa [StoredSession.ended, hold] using hended
      rcases hends old time rfl rfl with ⟨e, -, hsame⟩ | ⟨a, -, hrow'⟩
      · -- The row shows that nothing was recorded, so the session was not ended.
        have hend := congrArg Row.endTime (Option.some.inj (hrow.symm.trans hsame))
        simp [Row.ofStored, StoredSession.ended, hold] at hend
      · have hduration := congrArg Row.duration (Option.some.inj (hrow.symm.trans hrow'))
        refine ⟨_, old.startTime, rfl, rfl, hended, hduration.trans ?_⟩
        simp [Row.ofStored, StoredSession.ended, hold, htime]

/-! ## Runs -/

theorem Unhindered.timed_after (h : Unhindered s sessions) {y : StoredSession}
    (hy : sessionOf sessions id = some y) (htimed : y.Timed finish m) {calls : List Call}
    (hcalls : ∀ c ∈ calls, ¬ c.operation.IsFault ∧ c.HasPlainYears) :
    Measured (s.after calls) id finish ((s.history calls).foldl (Measure.next id) m) := by
  obtain ⟨sessions', h', -, y', hy', htimed'⟩ := h.sound.run
    (P := fun replies s sessions => Unhindered s sessions ∧
      ∃ y, sessionOf sessions id = some y ∧ y.Timed finish (replies.foldl (Measure.next id) m))
    (fun c hc hdirect => (hcalls c hc).1 (.of_overwrite hdirect))
    (fun c hc replies s sessions sessions' _ heffect h' hP => by
      obtain ⟨h, y, hy, htimed⟩ := hP
      obtain ⟨hfault, hcall⟩ := hcalls c hc
      rw [List.foldl_append]
      exact ⟨h.step c hfault hcall heffect h', h.sound.timed h.refusal hcall
        (heffect.transition id) h' hy (h.plain id y hy) htimed⟩)
    [] ⟨h, y, hy, htimed⟩
  exact ⟨Row.ofStored y', by rw [row?_of_holds h'.holds, hy']; rfl,
    congrArg Timestamp.toColumn htimed'.startTime,
    congrArg (Option.map Timestamp.toColumn) htimed'.endTime, htimed'.duration⟩

/-- In every run without faults and with plain years, the call that ends a session records
its duration from its start to the end that the call carries. The end stays, the start and
the duration move as `Measure.next` says. The duration stays if no update brings another
start, and if the session is not ended again. -/
theorem duration_after_end (settings : Settings) (cipher : ContentCipher)
    (nonces : Cipher.Nonces) (earlier : List Call) (c : Call) (later : List Call)
    (hcalls : ∀ d ∈ earlier ++ c :: later, ¬ d.operation.IsFault ∧ d.HasPlainYears)
    (id : String) (hopen : ((fresh settings cipher nonces).after earlier).endOf id = none)
    (hended : ((fresh settings cipher nonces).after (earlier ++ [c])).endOf id ≠ none) :
    let s := (fresh settings cipher nonces).after (earlier ++ [c])
    ∃ start finish, c.operation.endFor? id = some finish ∧
      Measured s id finish ⟨start, start⟩ ∧
      let m := (s.history later).foldl (Measure.next id) ⟨start, start⟩
      Measured (s.after later) id finish m ∧
      ((∀ d ∈ later, ∀ session, d.operation = .update session → session.id = id →
        session.startTime = start) → m.used = start) ∧
      ((∀ d ∈ later, ∀ time, d.operation ≠ .finish id time) → m.used = start) := by
  intro s
  obtain ⟨sessions, h⟩ := unhindered_after settings cipher nonces
    fun d hd => hcalls d (List.mem_append_left _ hd)
  obtain ⟨hfault, hcall⟩ := hcalls c (by simp)
  obtain ⟨sessions', heffect, hsound'⟩ := h.sound.step c.now
    fun hdirect => hfault (.of_overwrite hdirect)
  have h' := h.step c hfault hcall heffect hsound'
  have hs : s = (((fresh settings cipher nonces).after earlier).step c.now c.operation).2.1 :=
    after_append _ earlier [c]
  rw [show (fresh settings cipher nonces).after (earlier ++ [c]) = s from rfl, hs] at hended
  rw [endOf_of_holds h.sound.holds, Option.map_eq_none_iff] at hopen
  rw [endOf_of_holds hsound'.holds, ne_eq, Option.map_eq_none_iff, ← ne_eq,
    Option.ne_none_iff_exists'] at hended
  obtain ⟨finish, hended⟩ := hended
  have htransition := heffect.transition id
  obtain ⟨y, start, hy, htimed⟩ := h.sound.timed_of_end h.refusal hcall htransition hsound'
    (h.plain id) hopen hended
  rw [← hs] at h'
  have hnow : Measured (s.after []) id finish ⟨start, start⟩ := h'.timed_after hy htimed (by simp)
  refine ⟨start, finish, htransition.endFor?_eq hopen hended, hnow,
    h'.timed_after hy htimed fun d hd => hcalls d (by simp [hd]), fun hupdates => ?_,
    fun hends => ?_⟩
  · rw [foldl_next_of_updates fun r hr => hupdates r.1 (call_mem hr)]
  · exact foldl_next_of_ends (fun r hr => hends r.1 (call_mem hr)) _

/-- Five minutes after 1970 began. -/
def fiveMinutes : Timestamp := ⟨300, 0, by decide, by decide, by decide⟩

/-- Ten minutes after 1970 began. -/
def tenMinutes : Timestamp := ⟨600, 0, by decide, by decide, by decide⟩

/-- A session is created. -/
def begun : Call := ⟨.epoch, .create (.start "a" "u" .epoch)⟩

/-- It ends after ten minutes. -/
def endedInTen : Call := ⟨.epoch, .finish "a" tenMinutes⟩

/-- It is updated from a copy that started later, and ended once more. -/
def startedLater : List Call := [
  ⟨.epoch, .update (.start "a" "u" fiveMinutes)⟩,
  ⟨.epoch, .finish "a" tenMinutes⟩]

theorem startedLater_plain : ∀ d ∈ [begun] ++ endedInTen :: startedLater,
    d.operation.Writes ∧ ¬ d.operation.IsFault ∧ d.HasPlainYears := by
  have hepoch : Timestamp.epoch.HasPlainYear := by decide
  have hfive : fiveMinutes.HasPlainYear := by decide
  have hten : tenMinutes.HasPlainYear := by decide
  have hnone : ∀ t ∈ (none : Option Timestamp), t.HasPlainYear := by simp
  intro d hd
  simp only [startedLater, List.cons_append, List.nil_append, List.mem_cons, List.not_mem_nil,
    or_false] at hd
  rcases hd with rfl | rfl | rfl | rfl
  · exact ⟨trivial, id, hepoch, hepoch, hnone, hepoch⟩
  · exact ⟨trivial, id, hepoch, hten⟩
  · exact ⟨trivial, id, hepoch, hfive, hnone, hfive⟩
  · exact ⟨trivial, id, hepoch, hten⟩

/-- The end stays after ten minutes, while the start that the duration is computed from
moves on. -/
theorem duration_after_startedLater :
    let s := (fresh .standard .disabled (.counting 0)).after ([begun] ++ [endedInTen])
    ∃ start, Measured s "a" tenMinutes ⟨start, start⟩ ∧ Measured (s.after startedLater) "a"
      tenMinutes ((s.history startedLater).foldl (Measure.next "a") ⟨start, start⟩) := by
  obtain ⟨start, finish, hfinish, hends, hafter, -⟩ := duration_after_end .standard .disabled
      (.counting 0) [begun] endedInTen startedLater (fun d hd => (startedLater_plain d hd).2) "a"
    (by decide +kernel) (by decide +kernel)
  have hten : endedInTen.operation.endFor? "a" = some tenMinutes := rfl
  cases hten.symm.trans hfinish
  exact ⟨start, hends, hafter⟩

/-- Without faults and with plain years, the recorded duration of an ended session
changes. -/
theorem duration_not_final :
    ¬ ∀ (settings : Settings) (cipher : ContentCipher) (nonces : Cipher.Nonces)
        (earlier : List Call) (c : Call) (later : List Call),
      (∀ d ∈ earlier ++ c :: later, d.operation.Writes ∧ d.HasPlainYears) →
      ∀ id, ((fresh settings cipher nonces).after earlier).endOf id = none →
        ((fresh settings cipher nonces).after (earlier ++ [c])).endOf id ≠ none →
        (((fresh settings cipher nonces).after (earlier ++ c :: later)).table.row? id).map
            (·.duration)
          = (((fresh settings cipher nonces).after (earlier ++ [c])).table.row? id).map
            (·.duration) := by
  intro h
  have hsame := h .standard .disabled (.counting 0) [begun] endedInTen startedLater
    (fun d hd => ⟨(startedLater_plain d hd).1, (startedLater_plain d hd).2.2⟩) "a"
    (by decide +kernel) (by decide +kernel)
  exact absurd hsame (by decide +kernel)

end Store

end ChatArchive
