import ChatArchive.Proofs.Aggregates
import ChatArchive.Proofs.Listings
import ChatArchive.Proofs.Overlap

/-!
# Figures of a window

The figures of a window are taken over the earliest of its sessions, up to a limit. Which ones
are left of several that start at the same instant is not said, but whatever is left, all
figures tell of it. They can be told as long as the sums among them fit a column. A window that
is within the limit is its own sample, so the two queries that count its tokens agree.
-/

namespace ChatArchive

open Time

/-- The mean response times of sessions, as far as they count: those that are positive. -/
def meansOf (sessions : List StoredSession) : List Int :=
  (sessions.map (·.avgResponseMs.toInt)).filter (0 < ·)

/-- A sample of sessions: as many as a limit allows, and none that is left out starts before one
that is not. -/
structure SampleOf (sessions : List StoredSession) (most : Nat) (sample : List StoredSession) :
    Prop where
  length : sample.length = min sessions.length most
  earliest : ∃ cut, sessions.Perm (sample ++ cut) ∧
    ∀ x ∈ sample, ∀ y ∈ cut, x.startTime ≤ y.startTime

/-- Figures that tell of a sample. The mean is cut to whole milliseconds, and like the largest
it is zero if there is nothing to take it of. -/
structure MetricsReport.TellsOf (figures : MetricsReport) (sample : List StoredSession) :
    Prop where
  totalSessions : figures.totalSessions.toNat = sample.length
  activeSessions : figures.activeSessions.toNat = sample.countP (·.endTime.isNone)
  adminAssistedCount : figures.adminAssistedCount.toNat = sample.countP (·.adminAssisted)
  totalTokens : figures.totalTokens.toNat = tokensOf sample
  maxResponseMs : if sample = [] then figures.maxResponseMs = 0
    else IsGreatest {m | ∃ x ∈ sample, x.maxResponseMs = m} figures.maxResponseMs
  avgResponseMs : figures.avgResponseMs.toInt
    = if meansOf sample = [] then 0 else (meansOf sample).sum.tdiv (meansOf sample).length

variable {most : Nat} {sessions sample cut : List StoredSession}

/-! ## Samples -/

theorem tokensOf_eq (xs : List StoredSession) :
    tokensOf xs = (xs.map (·.totalTokens.toNat)).sum := by
  induction xs with
  | nil => rfl
  | cons x xs ih => rw [tokensOf, List.map_cons, List.sum_cons, ih]

theorem tokensOf_le (h : sessions.Perm (sample ++ cut)) : tokensOf sample ≤ tokensOf sessions := by
  rw [tokensOf_eq, tokensOf_eq, (h.map _).sum_eq, List.map_append, List.sum_append]
  exact Nat.le_add_right _ _

theorem pos_of_mem_meansOf {v : Int} (h : v ∈ meansOf sessions) : 0 < v :=
  of_decide_eq_true (List.mem_filter.1 h).2

theorem sum_meansOf_nonneg (sessions : List StoredSession) : 0 ≤ (meansOf sessions).sum :=
  List.sum_nonneg fun _ h => Int.le_of_lt (pos_of_mem_meansOf h)

theorem sum_meansOf_le (h : sessions.Perm (sample ++ cut)) :
    (meansOf sample).sum ≤ (meansOf sessions).sum := by
  have hcut := sum_meansOf_nonneg cut
  have hperm : (meansOf sessions).Perm (meansOf sample ++ meansOf cut) := by
    have := (h.map (·.avgResponseMs.toInt)).filter (0 < ·)
    rwa [List.map_append, List.filter_append] at this
  rw [hperm.sum_eq, List.sum_append]
  omega

/-- A sample of sessions within the limit is all of them. -/
theorem SampleOf.perm (h : SampleOf sessions most sample) (hfew : sessions.length ≤ most) :
    sessions.Perm sample := by
  obtain ⟨cut, hperm, -⟩ := h.earliest
  have hlength := hperm.length_eq
  rw [List.length_append, h.length, Nat.min_eq_left hfew] at hlength
  rwa [List.length_eq_zero_iff.1 (show cut.length = 0 by omega), List.append_nil] at hperm

theorem SampleOf.tokensOf_eq (h : SampleOf sessions most sample) (hfew : sessions.length ≤ most) :
    tokensOf sample = tokensOf sessions := by
  rw [ChatArchive.tokensOf_eq, ChatArchive.tokensOf_eq, ((h.perm hfew).map _).sum_eq]

namespace Store

variable {start finish : Timestamp} {s : Store}

/-! ## The figures of a sample -/

/-- Flags add up to the number of those that are set. -/
theorem sum_flags (xs : List StoredSession) :
    (xs.map fun x => (flag x.adminAssisted).toInt).sum = xs.countP (·.adminAssisted) := by
  induction xs with
  | nil => rfl
  | cons x xs ih =>
      rw [List.map_cons, List.sum_cons, ih, List.countP_cons]
      cases x.adminAssisted with
      | false => exact Int.zero_add _
      | true => exact Int.add_comm _ _

theorem countOf_natCast {n : Nat} (h : n < 18446744073709551616) :
    (countOf (n : Int)).toNat = n := by
  rw [countOf, Int.toNat_natCast]
  exact UInt64.toNat_ofNat_of_lt' h

theorem isGreatest_largest {v : Int64} (hne : sample ≠ [])
    (hv : v = Int64.ofInt (largest (sample.map (·.maxResponseMs.toInt)))) :
    IsGreatest {m | ∃ x ∈ sample, x.maxResponseMs = m} v := by
  obtain ⟨hmem, hall⟩ := largest_spec (by simpa using hne :
    sample.map (·.maxResponseMs.toInt) ≠ [])
  obtain ⟨x, hx, hlargest⟩ := List.mem_map.1 hmem
  rw [← hlargest, Int64.ofInt_toInt] at hv
  refine ⟨⟨x, hx, hv.symm⟩, ?_⟩
  rintro m ⟨y, hy, rfl⟩
  rw [hv, Int64.le_iff_toInt_le, hlargest]
  exact hall _ (List.mem_map_of_mem hy)

/-- A mean is not larger than the sum that it is taken of. -/
theorem mean_toInt (hsum : (meansOf sample).sum < 9223372036854775808) :
    (Int64.ofInt ((meansOf sample).sum / (meansOf sample).length)).toInt
      = if meansOf sample = [] then 0
        else (meansOf sample).sum.tdiv (meansOf sample).length := by
  have hnonneg := sum_meansOf_nonneg sample
  by_cases hnil : meansOf sample = []
  · rw [if_pos hnil, hnil]
    rfl
  · have hlow := Int.ediv_nonneg hnonneg (Int.natCast_nonneg (meansOf sample).length)
    have hhigh := Int.ediv_le_self (meansOf sample).length hnonneg
    rw [if_neg hnil, Int.tdiv_eq_ediv_of_nonneg hnonneg]
    exact Int64.toInt_ofInt_of_le (by omega) (by omega)

/-- If the sums fit, there are figures, and they tell of the rows that they are taken over. -/
theorem reportOf_tellsOf (hlength : sample.length < 4294967296)
    (htokens : tokensOf sample < 9223372036854775808)
    (hmeans : (meansOf sample).sum < 9223372036854775808) (truncated : Bool) :
    ∃ figures, reportOf (sample.map Row.ofStored) truncated = .ok figures ∧
      figures.TellsOf sample ∧ figures.truncated = truncated := by
  have hactive : sample.countP (·.endTime.isNone) ≤ sample.length := List.countP_le_length
  have hflags : sample.countP (·.adminAssisted) ≤ sample.length := List.countP_le_length
  have hassisted : boundedSum ((sample.map Row.ofStored).map (·.adminAssisted.toInt))
      = .ok (sample.countP (·.adminAssisted) : Int) := by
    have hnonneg : ∀ v ∈ sample.map fun x => (flag x.adminAssisted).toInt, 0 ≤ v :=
      List.forall_mem_map.2 fun x _ => by cases x.adminAssisted <;> decide
    rw [List.map_map]
    refine (boundedSum_of_nonneg hnonneg).trans ?_
    rw [sum_flags, if_pos (by omega)]
  have hcount : boundedSum ((sample.map Row.ofStored).map (·.totalTokens.toInt))
      = .ok (tokensOf sample : Int) := by
    rw [List.map_map]
    exact boundedSum_tokens htokens
  have hresponses : ((sample.map Row.ofStored).map (·.avgResponseMs.toInt)).filter (0 < ·)
      = meansOf sample := by
    rw [List.map_map]
    rfl
  have hsum : boundedSum (meansOf sample) = .ok (meansOf sample).sum := by
    rw [boundedSum_of_nonneg fun v hv => Int.le_of_lt (pos_of_mem_meansOf hv), if_pos (by omega)]
  simp only [reportOf, hassisted, hcount, hresponses, hsum]
  refine ⟨_, rfl, ⟨?_, ?_, countOf_natCast (by omega), countOf_natCast (by omega), ?_,
    mean_toInt hmeans⟩, rfl⟩
  · rw [List.length_map]
    exact UInt64.toNat_ofNat_of_lt' (by simp only [UInt64.size]; omega)
  · have hopen : (sample.map Row.ofStored).countP (·.endTime.isNone)
        = sample.countP (·.endTime.isNone) := by
      rw [List.countP_map]
      exact List.countP_congr fun x _ => by simp [Row.ofStored]
    rw [hopen]
    exact UInt64.toNat_ofNat_of_lt' (by simp only [UInt64.size]; omega)
  · rw [List.map_map]
    split
    · next hnil =>
        rw [hnil]
        rfl
    · next hne => exact isGreatest_largest hne rfl

/-! ## The sample of a window -/

/-- The earliest sessions of a window are a sample of all that started in it. -/
theorem sampleOf_earliest (hstart : start.HasPlainYear) (hfinish : finish.HasPlainYear)
    (hplain : ∀ x ∈ sessions, x.startTime.HasPlainYear) (indexed : Bool) (most : Nat) :
    SampleOf (sessions.filter fun x => x.StartedIn start finish) most
      (earliest indexed start finish most sessions) := by
  have hfilter : sessions.filter (startedIn start finish)
      = sessions.filter fun x => x.StartedIn start finish :=
    List.filter_congr fun x hx => by
      rw [startedIn, startsIn_ofStored hstart hfinish (hplain x hx)]
  rw [earliest, hfilter]
  have hsorted := List.pairwise_mergeSort startedFirst_trans startedFirst_total
    (met indexed (sessions.filter fun x => x.StartedIn start finish))
  have hperm := (List.mergeSort_perm (met indexed (sessions.filter fun x =>
    x.StartedIn start finish)) startedFirst).trans (met_perm _ _)
  generalize (met indexed (sessions.filter fun x => x.StartedIn start finish)).mergeSort
    startedFirst = sorted at hsorted hperm ⊢
  refine ⟨?_, sorted.drop most, ?_, fun x hx y hy => ?_⟩
  · rw [List.length_take, hperm.length_eq, Nat.min_comm]
  · rw [List.take_append_drop]
    exact hperm.symm
  · have hfirst := startsFirst_iff.1 (rel_of_mem_take_of_mem_drop
      (r := fun x y => startedFirst x y = true) hsorted hx hy)
    have hmem : ∀ z ∈ sorted, z ∈ sessions :=
      fun z hz => (List.mem_filter.1 (hperm.mem_iff.1 hz)).1
    exact (Timestamp.toColumn_le_iff (hplain x (hmem x (List.mem_of_mem_take hx)))
      (hplain y (hmem y (List.mem_of_mem_drop hy)))).1 hfirst

theorem matched_of_holds (h : s.table.Holds sessions) (hstart : start.HasPlainYear)
    (hfinish : finish.HasPlainYear) (hplain : ∀ x ∈ sessions, x.startTime.HasPlainYear) :
    s.table.rows.countP (startsIn start finish)
      = (sessions.filter fun x => x.StartedIn start finish).length := by
  rw [show s.table.rows = sessions.map Row.ofStored from h, List.countP_eq_length_filter,
    filter_startsIn hstart hfinish hplain, List.length_map]

/-- After every run, the figures of a window tell of a sample of the sessions that started in it,
if their tokens and their mean response times add up to less than 2^63. They are marked exactly
if there are more sessions than the limit, and those of a window that is within it have as many
tokens as are told of the window alone. -/
theorem windowFigures_after_run (settings : Settings) (cipher : ContentCipher)
    (nonces : Cipher.Nonces) (calls : List Call)
    (hcalls : ∀ c ∈ calls, ¬ c.operation.IsOverwrite ∧ c.operation ≠ .shutdown) :
    let s := (fresh settings cipher nonces).after calls
    ((∀ c ∈ calls, c.HasPlainYears) →
      ∃ sessions, s.table.Holds sessions ∧ ∀ x ∈ sessions, x.HasPlainYears) ∧
    ∀ sessions, s.table.Holds sessions → (∀ x ∈ sessions, x.startTime.HasPlainYear) →
      ∀ start finish : Timestamp, start ≤ finish → start.HasPlainYear → finish.HasPlainYear →
        let matching := sessions.filter fun x => x.StartedIn start finish
        let most := max settings.metrics.maxScan.toNat 1
        tokensOf matching < 9223372036854775808 →
        (meansOf matching).sum < 9223372036854775808 →
        ∃ sample figures, SampleOf matching most sample ∧ figures.TellsOf sample ∧
          (figures.truncated = true ↔ most < matching.length) ∧
          (∀ now, (s.step now (.metrics start finish)).1 = .ok (.report figures)) ∧
          (figures.truncated = false →
            ∀ now, (s.step now (.tokens start finish)).1
              = .ok (.count figures.totalTokens.toNat)) := by
  intro s
  obtain ⟨-, -, hopen, hsettings⟩ := sound_after_run settings cipher nonces hcalls
  refine ⟨fun hyears => ?_, fun sessions hholds hplain start finish hrange hstart hfinish => ?_⟩
  · obtain ⟨sessions, hsound, hyears⟩ := (sound_fresh settings cipher nonces).hasPlainYears_after
      fun c hc => ⟨(hcalls c hc).1, hyears c hc⟩
    exact ⟨sessions, hsound.holds, hyears⟩
  · intro matching most htokens hmeans
    have hmost : most < 4294967296 := Nat.max_lt.2 ⟨settings.metrics.maxScan.toNat_lt, by decide⟩
    have hsample := sampleOf_earliest hstart hfinish hplain s.table.hasStartIndex most
    obtain ⟨cut, hperm, -⟩ := hsample.earliest
    have hlength := hsample.length
    obtain ⟨figures, hfigures, htells, htruncated⟩ := reportOf_tellsOf (by omega)
      (Nat.lt_of_le_of_lt (tokensOf_le hperm) htokens)
      (Int.lt_of_le_of_lt (sum_meansOf_le hperm) hmeans) (most < matching.length)
    have hreport : s.figuresOf start finish = .ok figures := by
      rw [figuresOf, hsettings, toNat_most, windowReport, scanned_of_holds hholds,
        matched_of_holds hholds hstart hfinish hplain]
      exact hfigures
    have hmarked : figures.truncated = true ↔ most < matching.length := by
      rw [htruncated, decide_eq_true_iff]
    refine ⟨_, figures, hsample, htells, hmarked, fun now => ?_, fun hwhole now => ?_⟩
    · exact step_metrics_ok.2 ⟨hopen, hrange, figures, hreport, rfl⟩
    · have hfew : matching.length ≤ most := by
        rw [← Nat.not_lt, ← hmarked, hwhole]
        exact Bool.false_ne_true
      rw [htells.totalTokens, hsample.tokensOf_eq hfew]
      exact (tokens_iff hholds hopen hrange hstart hfinish hplain).2 htokens

/-- Two sessions start five minutes apart. -/
def measuredPair : List Call := [
  ⟨.epoch, .create { Session.start "a" "u" .epoch with
    totalTokens := 5, adminAssisted := true, responseTimes := [.ofSecs 3] }⟩,
  ⟨.epoch, .create { Session.start "b" "u" fiveMinutes with
    totalTokens := 7, endTime := some tenMinutes }⟩]

/-- What `measuredPair` leaves. -/
def measuredSessions : List StoredSession := [
  { bareStored "a" none [] with
    totalTokens := 5, adminAssisted := true, maxResponseMs := 3000, avgResponseMs := 3000 },
  { bareStored "b" (some tenMinutes) [] with
    totalTokens := 7, startTime := fiveMinutes, lastActivity := some fiveMinutes,
    duration := 300 }]

/-- Both sessions are within the usual limit, and a limit of one leaves the earlier one. -/
theorem windowFigures_after_measuredPair :
    (∃ figures, (∀ now, (((fresh .standard .disabled (.counting 0)).after measuredPair).step now
          (.metrics .epoch tenMinutes)).1 = .ok (.report figures)) ∧
        figures.totalSessions.toNat = 2 ∧ figures.truncated = false ∧
        ∀ now, (((fresh .standard .disabled (.counting 0)).after measuredPair).step now
          (.tokens .epoch tenMinutes)).1 = .ok (.count 12)) ∧
      ∃ figures, (∀ now, (((fresh { Settings.standard with metrics := ⟨1⟩ } .disabled
          (.counting 0)).after
          measuredPair).step now (.metrics .epoch tenMinutes)).1 = .ok (.report figures)) ∧
        figures.totalSessions.toNat = 1 ∧ figures.truncated = true := by
  have hcalls : ∀ c ∈ measuredPair, ¬ c.operation.IsOverwrite ∧ c.operation ≠ .shutdown := by
    intro c hc
    simp only [measuredPair, List.mem_cons, List.not_mem_nil, or_false] at hc
    rcases hc with rfl | rfl <;> exact ⟨id, nofun⟩
  have hplain : ∀ x ∈ measuredSessions, x.startTime.HasPlainYear := by decide
  have hrows : ∀ settings ∈ [Settings.standard, { Settings.standard with metrics := ⟨1⟩ }],
      ((fresh settings .disabled (.counting 0)).after measuredPair).table.rows
        = measuredSessions.map Row.ofStored := by decide +kernel
  constructor
  · obtain ⟨sample, figures, hsample, htells, hmarked, hmetrics, htokens⟩ :=
      (windowFigures_after_run .standard .disabled (.counting 0) measuredPair hcalls).2
        measuredSessions (hrows _ (by simp)) hplain .epoch tenMinutes (by decide) (by decide)
        (by decide) (by decide)
        (by decide)
    have hwhole : figures.truncated = false := by
      rw [Bool.eq_false_iff, ne_eq, hmarked]
      decide
    refine ⟨figures, hmetrics, ?_, hwhole, fun now => ?_⟩
    · rw [htells.totalSessions, hsample.length]
      decide
    · rw [htokens hwhole now, htells.totalTokens, hsample.tokensOf_eq (by decide)]
      rfl
  · obtain ⟨sample, figures, hsample, htells, hmarked, hmetrics, -⟩ :=
      (windowFigures_after_run { Settings.standard with metrics := ⟨1⟩ } .disabled (.counting 0)
        measuredPair hcalls).2 measuredSessions (hrows _ (by simp)) hplain .epoch tenMinutes
        (by decide)
        (by decide) (by decide) (by decide) (by decide)
    refine ⟨figures, hmetrics, ?_, ?_⟩
    · rw [htells.totalSessions, hsample.length]
      decide
    · rw [hmarked]
      decide

end Store

end ChatArchive
