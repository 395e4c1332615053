import ChatArchive.Proofs.Requests
import ChatArchive.Proofs.RoundTrips

/-!
# Figures of any response times

Nothing bounds the response times of a session. Storing adds them up, divides by their number
in 32 bits and keeps both figures in 64 bits with a sign. A sum that is too long, or a number
that 32 bits count as none, leaves the session without a stored form, and because the figures
come first neither its messages nor the cipher have a part in that. With more response times than
32 bits count the total is divided by too little, and a figure that 64 bits do not hold wraps
around: the stored form is there, but its figures need not be in order.

Whether they are is decided by two remainders (`Span.KeepOrder`), and below 2^64 milliseconds by
each response time for itself. The duration is cut off at zero and cannot go wrong.
-/

namespace ChatArchive

open Cipher Time

/-! ## Figures in 64 bits -/

/-- Of two numbers, as 64 bits keep them, the first is between zero and the second exactly if the
second has no sign and the remainders are in order. -/
theorem ofInt_ordered_iff (mean most : Nat) :
    0 ≤ Int64.ofInt mean ∧ Int64.ofInt mean ≤ Int64.ofInt most ↔
      mean % 18446744073709551616 ≤ most % 18446744073709551616 ∧
        most % 18446744073709551616 < 9223372036854775808 := by
  have hsize : Int64.size = 18446744073709551616 := rfl
  rw [Int64.le_iff_toInt_le, Int64.le_iff_toInt_le, Int64.toInt_ofInt, Int64.toInt_ofInt,
    Int64.toInt_zero, Int.bmod_def, Int.bmod_def, hsize]
  split <;> split <;> omega

namespace Time.Span

variable {spans : List Span}

/-- Spans whose figures stay in order in 64 bits: neither is negative, and the mean is at most
the longest. -/
def KeepOrder (spans : List Span) : Prop :=
  countedMillis spans % 18446744073709551616 ≤ longestMillis spans % 18446744073709551616 ∧
    longestMillis spans % 18446744073709551616 < 9223372036854775808

/-- Where nothing is counted or cut off wrongly, only the sign is left to go wrong. -/
theorem keepOrder_iff (hcount : spans.length < 4294967296)
    (h : ∀ span ∈ spans, span.millis < 18446744073709551616) :
    KeepOrder spans ↔ ∀ span ∈ spans, span.millis < 9223372036854775808 := by
  have hmean := meanMillis_le spans
  have hlongest := (longestMillis_lt_iff (by decide)).2 h
  rw [← longestMillis_lt_iff (by decide), KeepOrder, countedMillis_eq hcount,
    Nat.mod_eq_of_lt (Nat.lt_of_le_of_lt hmean hlongest), Nat.mod_eq_of_lt hlongest]
  exact and_iff_right hmean

theorem total_replicate (count : Nat) (span : Span) :
    total (List.replicate count span) = count * span.nanos := by
  induction count with
  | zero => exact (Nat.zero_mul _).symm
  | succ count ih => rw [List.replicate_succ, total, ih, Nat.succ_mul, Nat.add_comm]

theorem longest_replicate {count : Nat} (hcount : count ≠ 0) (span : Span) :
    longest (List.replicate count span) = span.nanos := by
  induction count with
  | zero => exact absurd rfl hcount
  | succ count ih =>
      rw [List.replicate_succ, longest]
      by_cases hlast : count = 0
      · rw [hlast]
        exact Nat.max_zero _
      · rw [ih hlast]
        exact Nat.max_self _

end Time.Span

/-! ## Stored forms -/

/-- What storing a session at a point in time comes to, with the nonces from `nonces` on: its
stored form, or why its content is not encrypted. None stands for a session without figures. -/
def Session.document? (cipher : ContentCipher) (nonces : Nonces) (now : Timestamp)
    (session : Session) : Option (Except CipherError StoredSession) :=
  (session.toStored cipher now).map fun drawing => (drawing.run.run nonces).1

theorem map_errorOf_eq_error {ε α : Type} {x : Option (Except ε α)} {e : ε} :
    x.map errorOf = some (some e) ↔ x = some (.error e) := by
  rcases x with _ | e' | a <;> simp [errorOf]

theorem map_errorOf_eq_ok {ε α : Type} {x : Option (Except ε α)} :
    x.map errorOf = some none ↔ ∃ a, x = some (.ok a) := by
  rcases x with _ | e' | a <;> simp [errorOf]

namespace Session

variable {cipher : ContentCipher} {nonces : Nonces} {now : Timestamp} {session : Session}
  {document : StoredSession}

theorem document?_eq_ok_iff : session.document? cipher nonces now = some (.ok document) ↔
    session.StoredFrom cipher nonces now document := Option.map_eq_some_iff

/-- Whether there is a stored form, and why not, is told by the response times, the texts and the
cipher. -/
theorem errorOf_document? (cipher : ContentCipher) (nonces : Nonces) (now : Timestamp)
    (session : Session) :
    (session.document? cipher nonces now).map errorOf
      = if Span.HaveFigures session.responseTimes then
          some (session.messages.findSome? fun m => cipher.fault? m.content)
        else none := by
  rw [document?, toStored_eq, responseFigures_eq_ite]
  split
  · rw [Option.map_some, Option.map_some, Option.map_some]
    exact congrArg some ((Store.faults_messages cipher session.messages).bind_pure _ nonces)
  · rfl

theorem StoredFrom.duration_nonneg (h : session.StoredFrom cipher nonces now document) :
    0 ≤ document.duration := by
  rw [h.storedAs.duration, Int64.le_iff_toInt_le, toInt_durationSecs]
  exact Int.ediv_nonneg (Int.le_max_right _ _) (by decide)

/-- Storing any session, at any time and under any cipher, comes to nothing exactly if its
response times have no figures. Otherwise it comes to a stored form, or to the fault of the first
message that is not encrypted. In a stored form the duration is never negative, and the figures
are what 64 bits keep of the longest and of the mean: they are in order exactly if they keep their
order. As long as 32 bits count the response times and 64 bits hold each in milliseconds, that is
exactly if none reaches the sign. -/
theorem document_of_any_samples (session : Session) (cipher : ContentCipher) (nonces : Nonces)
    (now : Timestamp) :
    (session.document? cipher nonces now = none ↔ ¬ Span.HaveFigures session.responseTimes) ∧
    (∀ e, session.document? cipher nonces now = some (.error e) ↔
      Span.HaveFigures session.responseTimes ∧
        session.messages.findSome? (fun m => cipher.fault? m.content) = some e) ∧
    ((∃ document, session.document? cipher nonces now = some (.ok document)) ↔
      Span.HaveFigures session.responseTimes ∧
        session.messages.findSome? (fun m => cipher.fault? m.content) = none) ∧
    (∀ document, session.document? cipher nonces now = some (.ok document) →
      0 ≤ document.duration ∧
      document.maxResponseMs = Int64.ofInt (Span.longestMillis session.responseTimes) ∧
      document.avgResponseMs = Int64.ofInt (Span.countedMillis session.responseTimes) ∧
      (0 ≤ document.avgResponseMs ∧ document.avgResponseMs ≤ document.maxResponseMs ↔
        Span.KeepOrder session.responseTimes)) ∧
    (session.responseTimes.length < 4294967296 →
      (∀ span ∈ session.responseTimes, span.millis < 18446744073709551616) →
      (Span.KeepOrder session.responseTimes ↔
        ∀ span ∈ session.responseTimes, span.millis < 9223372036854775808)) := by
  have herror := errorOf_document? cipher nonces now session
  refine ⟨?_, fun e => ?_, ?_, fun document h => ?_, Span.keepOrder_iff⟩
  · rw [← Option.map_eq_none_iff, herror]
    simp
  · rw [← map_errorOf_eq_error, herror]
    simp
  · rw [← map_errorOf_eq_ok, herror]
    simp
  · have hstored := document?_eq_ok_iff.1 h
    obtain ⟨hmost, hmean⟩ := hstored.figures_eq
    refine ⟨hstored.duration_nonneg, hmost, hmean, ?_⟩
    rw [hmost, hmean]
    exact ofInt_ordered_iff _ _

theorem document_of_any_samples_unevenlySampled :
    ∃ document, unevenlySampled.document? (.ofKey (List.replicate 16 7)) (.counting 5) .epoch
        = some (.ok document) ∧
      0 ≤ document.duration ∧ 0 ≤ document.avgResponseMs ∧
      document.avgResponseMs ≤ document.maxResponseMs := by
  obtain ⟨-, -, hok, hfigures, hsign⟩ := document_of_any_samples unevenlySampled
    (.ofKey (List.replicate 16 7)) (.counting 5) .epoch
  have hhave : Span.HaveFigures unevenlySampled.responseTimes := by decide +kernel
  have hfault : unevenlySampled.messages.findSome?
      (fun m => (ContentCipher.ofKey (List.replicate 16 7)).fault? m.content) = none := by
    decide +kernel
  have hkeeps : Span.KeepOrder unevenlySampled.responseTimes :=
    (hsign (by decide) (by decide +kernel)).2 unevenlySampled_measurable.each
  obtain ⟨document, h⟩ := hok.2 ⟨hhave, hfault⟩
  obtain ⟨hduration, -, -, hordered⟩ := hfigures document h
  exact ⟨document, h, hduration, hordered.2 hkeeps⟩

/-- A session with these response times. -/
def sampledBy (spans : List Span) : Session :=
  { Session.start "a" "u" .epoch with responseTimes := spans }

theorem exists_document_sampledBy {spans : List Span} (h : Span.HaveFigures spans) :
    ∃ document, (sampledBy spans).document? .disabled (.counting 0) .epoch = some (.ok document) ∧
      document.maxResponseMs = Int64.ofInt (Span.longestMillis spans) ∧
      document.avgResponseMs = Int64.ofInt (Span.countedMillis spans) := by
  have herror := errorOf_document? .disabled (.counting 0) .epoch (sampledBy spans)
  have hhave : Span.HaveFigures (sampledBy spans).responseTimes := h
  rw [if_pos hhave] at herror
  obtain ⟨document, hdocument⟩ := map_errorOf_eq_ok.1 herror
  exact ⟨document, hdocument, (document?_eq_ok_iff.1 hdocument).figures_eq⟩

/-- Two response times can be too long together, and then there is no stored form. One that
reaches the sign makes both figures negative. Of 2^32 + 1, each a millisecond, the mean is above
the longest. -/
theorem figures_not_safe :
    (∀ cipher nonces now, (sampledBy [.ofSecs 18446744073709551615, .ofSecs 1]).document?
      cipher nonces now = none) ∧
    (∃ document, (sampledBy [.ofMillis 9223372036854775808]).document? .disabled (.counting 0)
        .epoch = some (.ok document) ∧
      document.maxResponseMs < 0 ∧ document.avgResponseMs < 0) ∧
    ∃ document, (sampledBy (List.replicate 4294967297 (.ofMillis 1))).document? .disabled
        (.counting 0) .epoch = some (.ok document) ∧
      document.maxResponseMs < document.avgResponseMs := by
  refine ⟨fun cipher nonces now => ?_, ?_, ?_⟩
  · have hnone : ¬ Span.HaveFigures [.ofSecs 18446744073709551615, .ofSecs 1] := by
      decide +kernel
    rw [← Option.map_eq_none_iff, errorOf_document?]
    exact if_neg hnone
  · have hhave : Span.HaveFigures [.ofMillis 9223372036854775808] := by decide +kernel
    obtain ⟨document, h, hmost, hmean⟩ := exists_document_sampledBy hhave
    refine ⟨document, h, ?_⟩
    rw [hmost, hmean]
    decide +kernel
  · have hmilli : (Span.ofMillis 1).nanos = 1000000 := by decide
    have htotal := Span.total_replicate 4294967297 (.ofMillis 1)
    have hlongest := Span.longest_replicate (show 4294967297 ≠ 0 by decide) (.ofMillis 1)
    rw [hmilli] at htotal hlongest
    have hhave : Span.HaveFigures (List.replicate 4294967297 (.ofMillis 1)) := by
      rw [Span.HaveFigures, htotal, List.length_replicate]
      exact ⟨by decide, Or.inr (by decide)⟩
    obtain ⟨document, h, hmost, hmean⟩ := exists_document_sampledBy hhave
    refine ⟨document, h, ?_⟩
    rw [hmost, hmean, Span.longestMillis, Span.countedMillis, htotal, hlongest,
      List.length_replicate]
    decide +kernel

end Session

end ChatArchive
