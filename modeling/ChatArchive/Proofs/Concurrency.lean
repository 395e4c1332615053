import ChatArchive.Proofs.Buckets
import ChatArchive.Proofs.Cuts
import ChatArchive.Proofs.Rounding
import ChatArchive.Proofs.Samples
import ChatArchive.Proofs.SavingBack
import ChatArchive.Proofs.Sweep

/-!
# Figures of concurrency

The peak of a sweep never passes the number of sessions, and the mean of its levels never
passes the peak. What can go wrong is below: a session that ends in an earlier second than
it starts takes a level below zero, and every mean and later level is too low by it.

Sessions that are created or updated are checked for that, but a session that is ended is
not, and neither is the recorded end against the start of an update. Some ends have no second
at all, those in a leap second for one, and no second comes first; and some starts, of negative
years only, count a day late. A run in which no call brings an end before a start of the same
session, whose times all have seconds and whose starts all count on their day, has none of this:
what every call records was brought by a call.
-/

namespace ChatArchive

open Number Time

/-- The start that an operation carries for the session of an id. -/
def Operation.startFor? (id : String) : Operation → Option Timestamp
  | .create session | .update session => if session.id = id then some session.startTime else none
  | _ => none

/-- Calls that bring no end before a start of the same session, all in times whose columns have
seconds, and no start that counts a day late. -/
structure EndLate (calls : List Call) : Prop where
  starts : ∀ c ∈ calls, ∀ id, ∀ t ∈ c.operation.startFor? id, t.Countable ∧ ¬ t.Late
  ends : ∀ c ∈ calls, ∀ id, ∀ e ∈ c.operation.endFor? id, e.Countable
  ordered : ∀ c ∈ calls, ∀ d ∈ calls, ∀ id, ∀ t ∈ c.operation.startFor? id,
    ∀ e ∈ d.operation.endFor? id, t ≤ e

/-- A session of an id whose start and end some calls have brought. -/
structure StoredSession.BroughtBy (calls : List Call) (id : String) (x : StoredSession) :
    Prop where
  start : ∃ c ∈ calls, c.operation.startFor? id = some x.startTime
  finish : ∀ e ∈ x.endTime, ∃ c ∈ calls, c.operation.endFor? id = some e

/-- Figures of a sweep that are what they should be: no level is negative, and the mean is
between zero and the peak, which is no more than the number of sessions. -/
structure MetricsReport.Sane (figures : MetricsReport) (levels : List Int) : Prop where
  nonneg : ∀ l ∈ levels, 0 ≤ l
  mean : figures.avgConcurrent.Within figures.maxConcurrent.toNat
  peak : figures.maxConcurrent ≤ figures.totalSessions

namespace Store

variable {rows : List Row} {truncated : Bool} {figures : MetricsReport} {s : Store}
  {sessions : List StoredSession} {calls : List Call}

/-! ## The mean and the peak -/

theorem meanLevel_within {ls : List Int} {n : Nat} (hle : ∀ l ∈ ls, l ≤ n)
    (hsum : 0 ≤ ls.sum) (hlength : ls.length < 134217728) (hn : n < 67108864) :
    (meanLevel ls).Within n := by
  have htop : ls.sum ≤ ls.length * n := sum_le_length_mul hle
  rw [meanLevel]
  split
  · refine ⟨fun _ => rfl, ?_⟩
    exact Nat.zero_le _
  · next hempty =>
      have hpos : 0 < ls.length := List.length_pos_iff.2 fun hnil => hempty (by rw [hnil]; rfl)
      have hproduct : ls.length * n < 9007199254740992 := Nat.mul_lt_mul'' hlength hn
      rw [← Int.natCast_mul] at htop
      rw [foldl_add, Int.zero_add]
      refine Binary64.within_div hsum hpos ?_ (by omega) (by omega) (by omega)
      rwa [← Int.natCast_mul]

theorem reportOf_counts (h : reportOf rows truncated = .ok figures) :
    figures.totalSessions = UInt64.ofNat rows.length ∧
      figures.activeSessions = UInt64.ofNat (rows.countP (·.endTime.isNone)) ∧
      figures.maxConcurrent = UInt64.ofNat (peak (levels (rows.flatMap changes))) ∧
      figures.avgConcurrent = meanLevel (levels (rows.flatMap changes)) := by
  obtain ⟨assisted, -, h⟩ := Except.bind_eq_ok.1 h
  obtain ⟨tokens, -, h⟩ := Except.bind_eq_ok.1 h
  obtain ⟨responseSum, -, h⟩ := Except.bind_eq_ok.1 h
  cases h
  exact ⟨rfl, rfl, rfl, rfl⟩

/-- The peak and the mean are never too high, and the figures are what they should be exactly
if at no second more sessions have ended than started. Of more than 2^26 sessions the sum of
the levels may need more than 53 bits: then the mean is rounded twice and can pass the peak. -/
structure Concurrent (rows : List Row) (figures : MetricsReport) : Prop where
  peak : figures.maxConcurrent ≤ figures.totalSessions
  level : ∀ l ∈ levels (rows.flatMap changes), l ≤ figures.maxConcurrent.toNat
  mean : (levels (rows.flatMap changes)).sum
    ≤ (levels (rows.flatMap changes)).length * figures.maxConcurrent.toNat
  sane : figures.totalSessions < 67108864 → (figures.Sane (levels (rows.flatMap changes)) ↔
    ∀ b ∈ seconds (rows.flatMap changes), endedBy rows b ≤ startedBy rows b)

theorem reportOf_concurrent (h : reportOf rows truncated = .ok figures)
    (hlength : rows.length < 4294967296) : Concurrent rows figures := by
  obtain ⟨htotal, -, hmax, hmean⟩ := reportOf_counts h
  have hpeak : peak (levels (rows.flatMap changes)) ≤ rows.length :=
    peak_le fun l hl => level_le_length hl
  have htotal' : figures.totalSessions.toNat = rows.length := by
    rw [htotal, UInt64.toNat_ofNat_of_lt' (by simp only [UInt64.size]; omega)]
  have hmax' : figures.maxConcurrent.toNat = peak (levels (rows.flatMap changes)) := by
    rw [hmax, UInt64.toNat_ofNat_of_lt' (by simp only [UInt64.size]; omega)]
  have hle : figures.maxConcurrent ≤ figures.totalSessions := by
    rw [UInt64.le_iff_toNat_le, htotal', hmax']
    exact hpeak
  have hlevel : ∀ l ∈ levels (rows.flatMap changes), l ≤ figures.maxConcurrent.toNat := by
    rw [hmax']
    exact fun l hl => le_peak hl
  refine ⟨hle, hlevel, sum_le_length_mul hlevel, fun hsmall => ?_⟩
  rw [UInt64.lt_iff_toNat_lt, htotal'] at hsmall
  have hsmall' : rows.length < 67108864 := hsmall
  rw [← levels_nonneg_iff]
  constructor
  · exact MetricsReport.Sane.nonneg
  · intro hnonneg
    have hlevels := length_levels_le rows
    refine ⟨hnonneg, ?_, hle⟩
    rw [hmean]
    exact meanLevel_within hlevel (List.sum_nonneg hnonneg) (by omega) (by omega)

/-! ## What a run records -/

/-- What a call records of the start and the end of a session, it brings. -/
theorem Transition.broughtBy {cipher : ContentCipher} {now : Timestamp} {id : String}
    {operation : Operation} {answer : Except Abort Answer} {before after : Option StoredSession}
    (h : Transition cipher now id operation answer before after)
    (hcall : ⟨now, operation⟩ ∈ calls) (hbefore : ∀ x ∈ before, x.BroughtBy calls id) :
    ∀ x ∈ after, x.BroughtBy calls id := by
  cases h with
  | kept x hspares => exact hbefore
  | @created session stored hstored hid =>
      intro x hx
      cases hx
      refine ⟨⟨_, hcall, ?_⟩, fun e he => ⟨_, hcall, ?_⟩⟩
      · rw [hstored.startTime]
        exact if_pos hid
      · rw [hstored.endTime] at he
        exact (if_pos hid).trans he
  | @updated session stored old hstored hid =>
      intro x hx
      cases hx
      refine ⟨⟨_, hcall, ?_⟩, fun e he => ?_⟩
      · show _ = some stored.startTime
        rw [hstored.startTime]
        exact if_pos hid
      · rcases Option.or_eq_some_iff.1 he with he | ⟨-, he⟩
        · exact (hbefore old rfl).finish e he
        · rw [hstored.endTime] at he
          exact ⟨_, hcall, (if_pos hid).trans he⟩
  | @added message stored old hstored =>
      intro x hx
      cases hx
      exact ⟨(hbefore old rfl).start, (hbefore old rfl).finish⟩
  | ended time duration answer old =>
      intro x hx
      cases hx
      refine ⟨(hbefore old rfl).start, fun e he => ?_⟩
      rcases Option.or_eq_some_iff.1 he with he | ⟨-, he⟩
      · exact (hbefore old rfl).finish e he
      · cases he
        exact ⟨_, hcall, if_pos rfl⟩

/-- Every start and end that a run has recorded, a call of it has brought. -/
theorem Sound.broughtBy_after (h : Sound s []) (hdirect : ∀ c ∈ calls, ¬ c.operation.IsOverwrite) :
    ∃ sessions, Sound (s.after calls) sessions ∧ ∀ x ∈ sessions, x.BroughtBy calls x.id := by
  obtain ⟨sessions, hsound, hbrought⟩ := h.run
    (P := fun _ _ sessions => ∀ id, ∀ x ∈ sessionOf sessions id, x.BroughtBy calls id) hdirect
    (fun c hc _ _ _ _ _ heffect _ hbrought id =>
      (heffect.transition id).broughtBy hc (hbrought id)) []
    (fun _ _ hx => absurd hx (Option.not_mem_none _))
  exact ⟨sessions, hsound, fun x hx => hbrought x.id x (hsound.sessionOf_id hx)⟩

/-- Countable times count in the order of the instants, if the first does not count a day late. -/
theorem secondLe_toColumn {t e : Timestamp} (ht : t.Countable) (hlate : ¬ t.Late)
    (he : e.Countable) (h : t ≤ e) :
    secondLe (secondOf t.toColumn) (secondOf e.toColumn) = true := by
  rw [ht.secondOf, he.secondOf]
  exact decide_eq_true (Timestamp.counted_mono ht hlate h)

/-- If no call brings an end before a start, no row ends in an earlier second than it
starts. -/
theorem seconds_of_endLate (hcalls : EndLate calls) (hholds : s.table.Holds sessions)
    (hbrought : ∀ x ∈ sessions, x.BroughtBy calls x.id) :
    ∀ r ∈ s.table.rows, ∀ e ∈ r.endTime,
      secondLe (secondOf r.startTime) (secondOf e) = true := by
  intro r hr e he
  obtain ⟨x, hx, rfl⟩ := exists_of_mem_rows hholds hr
  obtain ⟨finish, hfinish, rfl⟩ := Option.map_eq_some_iff.1 he
  obtain ⟨c, hc, hstart⟩ := (hbrought x hx).start
  obtain ⟨d, hd, hend⟩ := (hbrought x hx).finish finish hfinish
  obtain ⟨hcountable, hlate⟩ := hcalls.starts c hc x.id _ hstart
  exact secondLe_toColumn hcountable hlate (hcalls.ends d hd x.id _ hend)
    (hcalls.ordered c hc d hd x.id _ hstart _ hend)

/-! ## Runs -/

/-- After every run the figures of a window are not too high, and they are what they should
be exactly if the sample has at no second more ends than starts. So it is if no call of the
run has brought an end before a start of the same session. -/
theorem concurrency_after_run (settings : Settings) (cipher : ContentCipher)
    (nonces : Cipher.Nonces) (calls : List Call)
    (hdirect : ∀ c ∈ calls, ¬ c.operation.IsOverwrite) (now start finish : Timestamp)
    (figures : MetricsReport)
    (hok : (((fresh settings cipher nonces).after calls).step now (.metrics start finish)).1
      = .ok (.report figures)) :
    Concurrent (((fresh settings cipher nonces).after calls).sample start finish) figures ∧
      (EndLate calls → ∀ b,
        endedBy (((fresh settings cipher nonces).after calls).sample start finish) b
          ≤ startedBy (((fresh settings cipher nonces).after calls).sample start finish) b) := by
  obtain ⟨sessions, hsound, hbrought⟩ :=
    (sound_fresh settings cipher nonces).broughtBy_after hdirect
  obtain ⟨-, -, found, hfound, hreport⟩ := step_metrics_ok.1 hok
  cases hreport
  refine ⟨reportOf_concurrent hfound (length_sample_lt _ start finish), fun hcalls => ?_⟩
  refine endedBy_le_startedBy fun r hr => ?_
  exact seconds_of_endLate hcalls hsound.holds hbrought r
    (mem_windowRows.1 (List.mem_of_mem_take hr)).1

/-! ## One session -/

/-- The sample and the figures of a window in which one session has started. -/
theorem figuresOf_singleton {row : Row} {start finish : Timestamp}
    (hrows : s.table.rows.filter (startsIn start finish) = [row]) :
    s.sample start finish = [row] ∧ s.figuresOf start finish = reportOf [row] false := by
  have hmost := one_le_most s.settings.metrics.maxScan
  have hsample : s.sample start finish = [row] := by
    have hperm := windowRows_perm start finish s.table
    rw [hrows] at hperm
    rw [sample, scanned, List.perm_singleton.1 hperm, List.take_of_length_le hmost]
  refine ⟨hsample, ?_⟩
  rw [figuresOf, windowReport, ← sample, hsample, List.countP_eq_length_filter, hrows,
    List.length_singleton, decide_eq_false (Nat.not_lt.2 hmost)]

/-- The row of a session that was started and ended. -/
def endedRow (start finish : Timestamp) (duration : Int64) : Row :=
  Row.ofStored { (Session.start "a" "u" start).storedWith .epoch (0, 0) [] with
    endTime := some finish
    duration := duration }

/-- The figures of one session that has ended. -/
def endedFigures (peak : UInt64) (mean : Binary64) : MetricsReport where
  totalSessions := 1
  activeSessions := 0
  adminAssistedCount := 0
  totalTokens := 0
  avgResponseMs := 0
  maxResponseMs := 0
  maxConcurrent := peak
  avgConcurrent := mean
  truncated := false

/-- The levels of one session whose start and end are in different seconds. -/
theorem levels_pair {b e : Option Int} (hne : b ≠ e) :
    levels [(b, 1), (e, -1)] = if secondLe b e then [1, 0] else [-1, 0] := by
  have hseconds : seconds [(b, 1), (e, -1)] = if secondLe b e then [b, e] else [e, b] := by
    have hdups : [b, e].eraseDups = [b, e] := by
      simp [List.eraseDups_cons, Ne.symm hne]
    rw [← mergeSort_pair, ← hdups]
    rfl
  have hfirst : deltaAt [(b, 1), (e, -1)] b = 1 := by simp [deltaAt, Ne.symm hne]
  have hsecond : deltaAt [(b, 1), (e, -1)] e = -1 := by simp [deltaAt, hne]
  rw [levels, hseconds]
  split <;> simp [hfirst, hsecond, runningTotals]

theorem levels_endedRow {start finish : Timestamp} {duration : Int64}
    (hne : secondOf start.toColumn ≠ secondOf finish.toColumn) :
    levels ([endedRow start finish duration].flatMap changes)
      = if secondLe (secondOf start.toColumn) (secondOf finish.toColumn) then [1, 0]
        else [-1, 0] := levels_pair hne

theorem levels_endedInTen : levels ([endedRow .epoch tenMinutes 600].flatMap changes) = [1, 0] := by
  rw [levels_endedRow (by decide +kernel)]
  decide +kernel

theorem levels_endedEarly : levels ([endedRow fiveMinutes .epoch 0].flatMap changes) = [-1, 0] := by
  rw [levels_endedRow (by decide +kernel)]
  decide +kernel

theorem endLate_endedInTen : EndLate [begun, endedInTen] := by
  have hepoch : Timestamp.epoch.Countable := ⟨by decide, by decide, by decide⟩
  have hten : tenMinutes.Countable := ⟨by decide, by decide, by decide⟩
  have hstart : ∀ c ∈ [begun, endedInTen], ∀ id, ∀ t ∈ c.operation.startFor? id, t = .epoch := by
    simp [begun, endedInTen, Operation.startFor?, Session.start]
  have hend : ∀ c ∈ [begun, endedInTen], ∀ id, ∀ e ∈ c.operation.endFor? id, e = tenMinutes := by
    simp [begun, endedInTen, Operation.endFor?, Session.start]
  refine ⟨fun c hc id t ht => ?_, fun c hc id e he => ?_, fun c hc d hd id t ht e he => ?_⟩
  · rw [hstart c hc id t ht]
    exact ⟨hepoch, by decide⟩
  · rw [hend c hc id e he]
    exact hten
  · rw [hstart c hc id t ht, hend d hd id e he]
    decide

theorem concurrency_after_endedInTen :
    levels ((((fresh .standard (.ofKey []) (.counting 0)).after [begun, endedInTen]).sample .epoch
        tenMinutes).flatMap changes) = [1, 0] ∧
      (endedFigures 1 (.finite false 4503599627370496 (-53))).Sane [1, 0] := by
  have hrows : ((fresh .standard (.ofKey []) (.counting 0)).after
      [begun, endedInTen]).table.rows.filter (startsIn .epoch tenMinutes)
      = [endedRow .epoch tenMinutes 600] := by decide +kernel
  obtain ⟨hsample, hfigures⟩ := figuresOf_singleton hrows
  have hok : (((fresh .standard (.ofKey []) (.counting 0)).after [begun, endedInTen]).step .epoch
      (.metrics .epoch tenMinutes)).1
        = .ok (.report (endedFigures 1 (.finite false 4503599627370496 (-53)))) := by
    refine step_metrics_ok.2 ⟨by decide +kernel, by decide, _, ?_, rfl⟩
    rw [hfigures, reportOf, levels_endedInTen]
    decide +kernel
  obtain ⟨hconcurrent, hlate⟩ := concurrency_after_run .standard (.ofKey []) (.counting 0)
      [begun, endedInTen]
    (by simp [begun, endedInTen, Operation.IsOverwrite]) .epoch .epoch tenMinutes _ hok
  have hsane := (hconcurrent.sane (by decide)).2 fun b _ => hlate endLate_endedInTen b
  rw [hsample, levels_endedInTen] at hsane ⊢
  exact ⟨rfl, hsane⟩

/-- A session that ends before it started takes the first level below zero, and with it the
mean. -/
theorem concurrency_not_sane :
    ¬ ∀ (settings : Settings) (cipher : ContentCipher) (nonces : Cipher.Nonces) (calls : List Call),
      (∀ c ∈ calls, ¬ c.operation.IsOverwrite) →
      ∀ (now start finish : Timestamp) (figures : MetricsReport),
        (((fresh settings cipher nonces).after calls).step now (.metrics start finish)).1
          = .ok (.report figures) →
        figures.Sane (levels
          ((((fresh settings cipher nonces).after calls).sample start finish).flatMap
            changes)) := by
  intro h
  have hrows : ((fresh .standard (.ofKey []) (.counting 0)).after endedEarly).table.rows.filter
      (startsIn .epoch tenMinutes) = [endedRow fiveMinutes .epoch 0] := by decide +kernel
  obtain ⟨hsample, hfigures⟩ := figuresOf_singleton hrows
  have hok : (((fresh .standard (.ofKey []) (.counting 0)).after endedEarly).step .epoch
      (.metrics .epoch tenMinutes)).1
        = .ok (.report (endedFigures 0 (.finite true 4503599627370496 (-53)))) := by
    refine step_metrics_ok.2 ⟨by decide +kernel, by decide, _, ?_, rfl⟩
    rw [hfigures, reportOf, levels_endedEarly]
    decide +kernel
  have hsane := h .standard (.ofKey []) (.counting 0) endedEarly
    (fun c hc => (endedEarly_ordinary c hc).1.direct) .epoch .epoch tenMinutes _ hok
  exact absurd hsane.mean (by decide +kernel)

end Store

end ChatArchive
