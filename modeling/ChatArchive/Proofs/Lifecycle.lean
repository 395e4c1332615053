import ChatArchive.Proofs.Answers
import ChatArchive.Proofs.Runs

/-!
# The lifecycle of a session

A session that is stored stays stored, and the first end that is recorded for it
stays its end. Both are read off `Transition` for one call and carried along runs by
induction; keys may change, faults may come and go and the database may be closed on
the way. What reading shows follows from the rows: no answer shows a session as
active whose row has an end.
-/

namespace ChatArchive

open Time

/-- The end that an operation carries for the session of an id. -/
def Operation.endFor? (id : String) : Operation → Option Timestamp
  | .create session | .update session => if session.id = id then session.endTime else none
  | .finish i time => if i = id then some time else none
  | _ => none

namespace Store

/-- The end that is recorded for the session of an id. -/
def endOf (s : Store) (id : String) : Option String := (s.table.row? id).bind (·.endTime)

/-- An answer that shows the session of an id as active: loaded or listed without an
end, loaded among the active sessions, or listed where only active ones belong. -/
def ShowsActive (id : String) : Operation → Answer → Prop
  | .get _, .session v => v.id = id ∧ v.endTime = none
  | .active, .sessions vs => ∃ v ∈ vs, v.id = id
  | .list q, .summaries vs =>
    ∃ v ∈ vs, v.id = id ∧ (v.endTime = none ∨ q.active = some true)
  | .listAll _, .summaries vs | .listUser _ _, .summaries vs =>
    ∃ v ∈ vs, v.id = id ∧ v.endTime = none
  | _, _ => False

variable {cipher : ContentCipher} {now : Timestamp} {id : String} {operation : Operation}
  {answer : Except Abort Answer} {x x' : Option StoredSession} {s : Store}
  {sessions : List StoredSession} {calls : List Call}

/-! ## One call -/

theorem Transition.isSome (h : Transition cipher now id operation answer x x')
    (hx : x.isSome) : x'.isSome := by
  cases h with
  | kept => exact hx
  | created | updated | added | ended => rfl

theorem Transition.keeps_end (h : Transition cipher now id operation answer x x')
    {e : Timestamp} (hx : x.bind (·.endTime) = some e) : x'.bind (·.endTime) = some e := by
  cases h with
  | kept => exact hx
  | created hstored hid => cases hx
  | updated old hstored hid =>
      have hold : old.endTime = some e := hx
      show old.endTime.or _ = some e
      rw [hold, Option.some_or]
  | added old hstored => exact hx
  | ended time duration answer old =>
      have hold : old.endTime = some e := hx
      show old.endTime.or _ = some e
      rw [hold, Option.some_or]

/-- An end that is recorded by a call is the one that the call carries. -/
theorem Transition.endFor?_eq (h : Transition cipher now id operation answer x x')
    {e : Timestamp} (hx : x.bind (·.endTime) = none) (hx' : x'.bind (·.endTime) = some e) :
    operation.endFor? id = some e := by
  cases h with
  | kept => rw [hx] at hx'; cases hx'
  | @created session stored hstored hid =>
      have hend : stored.endTime = some e := hx'
      rw [Operation.endFor?, if_pos hid, ← hstored.endTime, hend]
  | @updated session stored old hstored hid =>
      have hold : old.endTime = none := hx
      have hend : old.endTime.or stored.endTime = some e := hx'
      rw [hold, Option.none_or] at hend
      rw [Operation.endFor?, if_pos hid, ← hstored.endTime, hend]
  | added old hstored =>
      have hold : old.endTime = none := hx
      have hend : old.endTime = some e := hx'
      rw [hold] at hend
      cases hend
  | ended time duration answer old =>
      have hold : old.endTime = none := hx
      have hend : old.endTime.or (some time) = some e := hx'
      rw [hold, Option.none_or] at hend
      rw [Operation.endFor?, if_pos rfl, hend]

theorem endOf_of_holds (h : s.table.Holds sessions) (id : String) :
    s.endOf id = ((sessionOf sessions id).bind (·.endTime)).map Timestamp.toColumn := by
  rw [endOf, row?_of_holds h]
  cases sessionOf sessions id <;> rfl

/-- What one call does to the row of an id and to its end. -/
structure Ages (s : Store) (c : Call) (id : String) : Prop where
  stays : s.table.row? id ≠ none → (s.step c.now c.operation).2.1.table.row? id ≠ none
  keeps : ∀ e, s.endOf id = some e → (s.step c.now c.operation).2.1.endOf id = some e
  records : ∀ e, s.endOf id = none → (s.step c.now c.operation).2.1.endOf id = some e →
    ∃ time, c.operation.endFor? id = some time ∧ time.toColumn = e

theorem Sound.ages (h : Sound s sessions) (c : Call) (hdirect : ¬ c.operation.IsOverwrite)
    (id : String) : Ages s c id := by
  obtain ⟨sessions', heffect, h'⟩ := h.step c.now hdirect
  have htransition := heffect.transition id
  refine ⟨fun hrow => ?_, fun e he => ?_, fun e hnone he => ?_⟩
  · rw [row?_of_holds h.holds, ne_eq, Option.map_eq_none_iff, ← ne_eq,
      ← Option.isSome_iff_ne_none] at hrow
    rw [row?_of_holds h'.holds, ne_eq, Option.map_eq_none_iff, ← ne_eq,
      ← Option.isSome_iff_ne_none]
    exact htransition.isSome hrow
  · rw [endOf_of_holds h.holds] at he
    obtain ⟨time, htime, he⟩ := Option.map_eq_some_iff.1 he
    rw [endOf_of_holds h'.holds, htransition.keeps_end htime, Option.map_some, he]
  · rw [endOf_of_holds h.holds, Option.map_eq_none_iff] at hnone
    rw [endOf_of_holds h'.holds] at he
    obtain ⟨time, htime, he⟩ := Option.map_eq_some_iff.1 he
    exact ⟨time, htransition.endFor?_eq hnone htime, he⟩

/-! ## Runs -/

theorem Sound.row?_after (h : Sound s sessions)
    (hdirect : ∀ c ∈ calls, ¬ c.operation.IsOverwrite) (hrow : s.table.row? id ≠ none) :
    (s.after calls).table.row? id ≠ none :=
  h.keeps (P := fun s => s.table.row? id ≠ none) hdirect
    (fun _ _ c h hc => (h.ages c hc id).stays) hrow

theorem Sound.endOf_after (h : Sound s sessions)
    (hdirect : ∀ c ∈ calls, ¬ c.operation.IsOverwrite) {e : String}
    (he : s.endOf id = some e) : (s.after calls).endOf id = some e :=
  h.keeps (P := fun s => s.endOf id = some e) hdirect
    (fun _ _ c h hc => (h.ages c hc id).keeps e) he

/-- An end that is there after a run was recorded by one of its calls, which carried
it. -/
theorem Sound.recorded (h : Sound s sessions)
    (hdirect : ∀ c ∈ calls, ¬ c.operation.IsOverwrite) {e : String}
    (hnone : s.endOf id = none) (he : (s.after calls).endOf id = some e) :
    ∃ before c rest time, calls = before ++ c :: rest ∧
      (s.after before).endOf id = none ∧ (s.after (before ++ [c])).endOf id = some e ∧
      c.operation.endFor? id = some time ∧ time.toColumn = e := by
  induction calls generalizing s sessions with
  | nil =>
      have hs : s.endOf id = some e := he
      rw [hnone] at hs
      cases hs
  | cons c calls ih =>
      have hc := hdirect c List.mem_cons_self
      have hrest : ∀ d ∈ calls, ¬ d.operation.IsOverwrite :=
        fun d hd => hdirect d (List.mem_cons_of_mem c hd)
      obtain ⟨sessions', -, h'⟩ := h.step c.now hc
      cases hend : (s.step c.now c.operation).2.1.endOf id with
      | none =>
          obtain ⟨before, d, rest, time, hcalls, hbefore, hafter, htime⟩ := ih h' hrest hend he
          exact ⟨c :: before, d, rest, time, by rw [hcalls]; rfl, hbefore, hafter, htime⟩
      | some e' =>
          have heq := h'.endOf_after hrest hend
          have he' : (s.step c.now c.operation).2.1.after calls = s.after (c :: calls) := rfl
          rw [he', he] at heq
          cases heq
          obtain ⟨time, htime⟩ := (h.ages c hc id).records e hnone hend
          exact ⟨[], c, calls, time, rfl, hnone, hend, htime⟩

/-! ## What answers show -/

/-- An end reaches every row of its id, since ids are distinct. -/
theorem Sound.endTime_of_mem (h : Sound s sessions) {e : String} (he : s.endOf id = some e)
    {row : Row} (hrow : row ∈ s.table.rows) (hid : row.id = id) : row.endTime = some e := by
  rw [h.holds] at hrow
  obtain ⟨y, hy, rfl⟩ := List.mem_map.1 hrow
  have hy' : sessionOf sessions id = some y := by
    rw [← hid]
    exact h.sessionOf_id hy
  rw [endOf_of_holds h.holds, hy'] at he
  exact he

/-- A listing shows a session that has an end with an end, and not among the active
ones. -/
theorem Sound.listed (h : Sound s sessions) {e : String} (he : s.endOf id = some e)
    {name : String} {timeout : TimeoutSettings → UInt64} {q : ListQuery}
    {summaries : List Summary} (hlist : Answers (listing name timeout q) s summaries)
    {v : Summary} (hv : v ∈ summaries) (hid : v.id = id) :
    v.endTime ≠ none ∧ q.active ≠ some true := by
  obtain ⟨-, -, rows, hpage, hrows⟩ := answers_listing.1 hlist
  obtain ⟨l, hl, hsummary⟩ := exists_of_forall₂_right hrows hv
  obtain ⟨hrow, hselects, -⟩ := page_ok hpage l hl
  obtain ⟨hvid, -, hvend⟩ := summary_ok hsummary
  have hend := h.endTime_of_mem he hrow (hvid.symm.trans hid)
  refine ⟨fun hnone => ?_, fun hactive => ?_⟩
  · rw [hvend hnone] at hend
    cases hend
  · simp only [selects, hactive, hend, Bool.and_eq_true] at hselects
    cases hselects.2

theorem Sound.loaded (h : Sound s sessions) {e : String} (he : s.endOf id = some e)
    {row : Row} {stored : StoredSession} (hrow : row ∈ s.table.rows)
    (hstored : row.toStored = .ok stored) (hid : stored.id = id) :
    row.endTime = some e ∧ stored.endTime ≠ none := by
  obtain ⟨hrowid, -, hrowend⟩ := toStored_ok hstored
  have hend := h.endTime_of_mem he hrow (hrowid.symm.trans hid)
  refine ⟨hend, fun hnone => ?_⟩
  rw [hrowend hnone] at hend
  cases hend

/-- Neither loading nor listing shows a session as active that has an end. -/
theorem Sound.not_showsActive (h : Sound s sessions) {e : String} (he : s.endOf id = some e)
    {answer : Answer} (hanswer : (s.step now operation).1 = .ok answer) :
    ¬ ShowsActive id operation answer := by
  intro hshows
  cases operation with
  | get i =>
      obtain ⟨-, -, row, stored, hrow, hstored, rfl⟩ := step_get_ok.1 hanswer
      exact (h.loaded he (List.mem_of_find?_eq_some hrow) hstored hshows.1).2 hshows.2
  | active =>
      obtain ⟨-, loaded, hloaded, rfl⟩ := step_active_ok.1 hanswer
      obtain ⟨v, hv, hid⟩ := hshows
      obtain ⟨row, hrow, stored, hstored, rfl⟩ := exists_of_forall₂_right hloaded hv
      have hmem := (List.mergeSort_perm _ _).mem_iff.1 (List.mem_of_mem_take hrow)
      obtain ⟨hmem, hactive⟩ := List.mem_filter.1 hmem
      rw [(h.loaded he hmem hstored hid).1] at hactive
      cases hactive
  | list q =>
      obtain ⟨summaries, hlist, rfl⟩ := (answers_map (Quiet.listing _ _ _)).1 (step_eq_ok.1 hanswer)
      obtain ⟨v, hv, hid, hactive⟩ := hshows
      obtain ⟨hend, hasked⟩ := (h.withEvents []).listed he hlist hv hid
      exact hactive.elim hend hasked
  | listAll limit =>
      obtain ⟨summaries, hlist, rfl⟩ := (answers_map (Quiet.listing _ _ _)).1 (step_eq_ok.1 hanswer)
      obtain ⟨v, hv, hid, hnone⟩ := hshows
      exact ((h.withEvents []).listed he hlist hv hid).1 hnone
  | listUser userId limit =>
      obtain ⟨summaries, hlist, rfl⟩ :=
        (answers_map (Quiet.listUser userId limit)).1 (step_eq_ok.1 hanswer)
      obtain ⟨v, hv, hid, hnone⟩ := hshows
      exact ((h.withEvents []).listed he (answers_listUser hlist) hv hid).1 hnone
  | _ => exact hshows

/-- On a fresh database that is only written through operations, whatever else
happens: a stored session stays, its first recorded end stays and is the one that
the recording call carried, and from then on nothing shows the session as active. -/
theorem first_end_wins (settings : Settings) (cipher : ContentCipher)
    (nonces : Cipher.Nonces) (earlier later : List Call)
    (hdirect : ∀ c ∈ earlier ++ later, ¬ c.operation.IsOverwrite) (id : String) :
    (((fresh settings cipher nonces).after earlier).table.row? id ≠ none →
      ((fresh settings cipher nonces).after (earlier ++ later)).table.row? id ≠ none) ∧
    ∀ e, ((fresh settings cipher nonces).after earlier).endOf id = some e →
      (∃ before c rest time, earlier = before ++ c :: rest ∧
        ((fresh settings cipher nonces).after before).endOf id = none ∧
        ((fresh settings cipher nonces).after (before ++ [c])).endOf id = some e ∧
        c.operation.endFor? id = some time ∧ time.toColumn = e) ∧
      ((fresh settings cipher nonces).after (earlier ++ later)).endOf id = some e ∧
      (∀ row ∈ ((fresh settings cipher nonces).after (earlier ++ later)).table.rows,
        row.id = id → row.endTime = some e) ∧
      ∀ now operation answer,
        (((fresh settings cipher nonces).after (earlier ++ later)).step now operation).1
          = .ok answer → ¬ ShowsActive id operation answer := by
  have hearlier : ∀ c ∈ earlier, ¬ c.operation.IsOverwrite :=
    fun c hc => hdirect c (List.mem_append_left later hc)
  have hlater : ∀ c ∈ later, ¬ c.operation.IsOverwrite :=
    fun c hc => hdirect c (List.mem_append_right earlier hc)
  have hfresh := sound_fresh settings cipher nonces
  obtain ⟨sessions, h⟩ := hfresh.after hearlier
  obtain ⟨sessions', h'⟩ := h.after hlater
  rw [after_append]
  refine ⟨h.row?_after hlater, fun e he => ?_⟩
  have he' := h.endOf_after hlater he
  exact ⟨hfresh.recorded hearlier rfl he, he', fun row hrow => h'.endTime_of_mem he' hrow,
    fun now operation answer => h'.not_showsActive he'⟩

/-- A session is created and ended at once. -/
def endedAtOnce : List Call := [
  ⟨.epoch, .create (.start "a" "u" .epoch)⟩,
  ⟨.epoch, .finish "a" .epoch⟩]

/-- It is ended again an hour later, and updated from a copy without an end. -/
def endedAgain : List Call := [
  ⟨.epoch, .finish "a" ⟨3600, 0, by decide, by decide, by decide⟩⟩,
  ⟨.epoch, .update (.start "a" "u" .epoch)⟩]

theorem first_end_wins_again :
    ((fresh .standard .disabled (.counting 0)).after (endedAtOnce ++ endedAgain)).endOf "a"
      = some "1970-01-01T00:00:00.000000000Z" := by
  have hdirect : ∀ c ∈ endedAtOnce ++ endedAgain, ¬ c.operation.IsOverwrite := by
    intro c hc
    simp only [endedAtOnce, endedAgain, List.cons_append, List.nil_append, List.mem_cons,
      List.not_mem_nil, or_false] at hc
    rcases hc with rfl | rfl | rfl | rfl <;> exact nofun
  have hend : ((fresh .standard .disabled (.counting 0)).after endedAtOnce).endOf "a"
      = some "1970-01-01T00:00:00.000000000Z" := by decide +kernel
  exact ((first_end_wins .standard .disabled (.counting 0) endedAtOnce endedAgain hdirect "a").2 _
    hend).2.1

end Store

end ChatArchive
