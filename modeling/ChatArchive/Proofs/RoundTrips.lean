import ChatArchive.Proofs.Creation

/-!
# Storing and loading, over and over

Storing reduces the response times of a session to two figures, and loading makes one
sample of them again. So the first pass loses every sample but that one. It is its own
longest and its own mean, in whole milliseconds: later passes have nothing to lose, at
whatever time they are made and whichever nonces they draw.
-/

namespace ChatArchive

open Cipher Time

/-! ## The longest of some spans -/

namespace Time.Span

variable {spans : List Span}

theorem nanos_le_longest {span : Span} (h : span ∈ spans) : span.nanos ≤ longest spans := by
  induction spans with
  | nil => simp at h
  | cons s rest ih =>
      rcases List.mem_cons.1 h with rfl | hrest
      · exact Nat.le_max_left _ _
      · exact Nat.le_trans (ih hrest) (Nat.le_max_right _ _)

theorem exists_longest (h : spans ≠ []) : ∃ span ∈ spans, span.nanos = longest spans := by
  induction spans with
  | nil => exact absurd rfl h
  | cons s rest ih =>
      rcases Nat.le_total (longest rest) s.nanos with hle | hle
      · exact ⟨s, List.mem_cons_self, (Nat.max_eq_left hle).symm⟩
      · by_cases hrest : rest = []
        · subst hrest
          exact ⟨s, List.mem_cons_self, (Nat.max_zero _).symm⟩
        · obtain ⟨span, hspan, hnanos⟩ := ih hrest
          exact ⟨span, List.mem_cons_of_mem _ hspan, hnanos.trans (Nat.max_eq_right hle).symm⟩

theorem longestMillis_lt_iff {bound : Nat} (hbound : 0 < bound) :
    longestMillis spans < bound ↔ ∀ span ∈ spans, span.millis < bound := by
  constructor
  · intro h span hspan
    exact Nat.lt_of_le_of_lt (Nat.div_le_div_right (nanos_le_longest hspan)) h
  · intro h
    by_cases hnone : spans = []
    · rw [hnone]
      exact hbound
    · obtain ⟨span, hspan, hnanos⟩ := exists_longest hnone
      rw [longestMillis, ← hnanos]
      exact h span hspan

theorem meanMillis_eq (spans : List Span) :
    meanMillis spans = total spans / (spans.length * 1000000) := Nat.div_div_eq_div_mul _ _ _

end Time.Span

/-! ## The figures of a stored session -/

/-- A session whose response times have figures that can be stored: 32 bits count them, they
are not too long together, and 64 bits hold each of them in milliseconds. -/
structure Session.Measurable (session : Session) : Prop where
  count : session.responseTimes.length < 4294967296
  total : Span.total session.responseTimes < spanLimit
  each : ∀ span ∈ session.responseTimes, span.millis < 9223372036854775808

/-- What the stored form of a session tells of its times. -/
structure Session.MeasuredBy (now : Timestamp) (session : Session) (document : StoredSession) :
    Prop where
  greatest : ∀ span ∈ session.responseTimes, (span.millis : Int) ≤ document.maxResponseMs.toInt
  attained : session.responseTimes ≠ [] →
    ∃ span ∈ session.responseTimes, document.maxResponseMs.toInt = span.millis
  mean : document.avgResponseMs.toInt
    = (Span.total session.responseTimes / (session.responseTimes.length * 1000000) : Nat)
  mean_nonneg : 0 ≤ document.avgResponseMs.toInt
  mean_le : document.avgResponseMs.toInt ≤ document.maxResponseMs.toInt
  unsampled : session.responseTimes = [] →
    document.maxResponseMs = 0 ∧ document.avgResponseMs = 0
  duration : document.duration.toInt
    = max (session.startTime.nanosUntil (session.endTime.getD now)) 0 / 1000000000

variable {cipher : ContentCipher} {nonces : Nonces} {now : Timestamp} {session : Session}
  {document : StoredSession}

theorem Session.Measurable.longest (h : session.Measurable) :
    Span.longestMillis session.responseTimes < 9223372036854775808 :=
  (Span.longestMillis_lt_iff (by decide)).2 h.each

theorem Session.StoredFrom.measuredBy (h : session.StoredFrom cipher nonces now document)
    (hmeasurable : session.Measurable) : session.MeasuredBy now document := by
  obtain ⟨hmost, hmean⟩ := h.figures_eq
  rw [Span.countedMillis_eq hmeasurable.count] at hmean
  have hlongest := hmeasurable.longest
  have hle := Span.meanMillis_le session.responseTimes
  have hmost63 : document.maxResponseMs.toInt = Span.longestMillis session.responseTimes := by
    rw [hmost]
    exact Int64.toInt_ofInt_of_le (by omega) (by omega)
  have hmean63 : document.avgResponseMs.toInt = Span.meanMillis session.responseTimes := by
    rw [hmean]
    exact Int64.toInt_ofInt_of_le (by omega) (by omega)
  constructor
  case greatest =>
    intro span hspan
    rw [hmost63]
    exact Int.ofNat_le.2 (Nat.div_le_div_right (Span.nanos_le_longest hspan))
  case attained =>
    intro hsome
    obtain ⟨span, hspan, hnanos⟩ := Span.exists_longest hsome
    refine ⟨span, hspan, hmost63.trans ?_⟩
    rw [Span.longestMillis, ← hnanos, Span.millis]
  case mean => exact hmean63.trans (congrArg Nat.cast (Span.meanMillis_eq _))
  case mean_nonneg => omega
  case mean_le => omega
  case unsampled =>
    intro hnone
    rw [hmost, hmean, hnone]
    exact ⟨rfl, rfl⟩
  case duration =>
    rw [h.storedAs.duration]
    exact toInt_durationSecs _ _

/-! ## One more pass -/

/-- What becomes of a session that is stored at some time, with some nonces,
and loaded again; none if it cannot be stored. -/
def Session.reload (cipher : ContentCipher) (session : Session) (pass : Timestamp × Nonces) :
    Option Session := do
  let drawing ← session.toStored cipher pass.1
  let document ← (drawing.run.run pass.2).1.toOption
  some (document.toSession cipher)

theorem Session.StoredFrom.reload_eq (h : session.StoredFrom cipher nonces now document) :
    session.reload cipher (now, nonces) = some (document.toSession cipher) := by
  obtain ⟨drawing, hdrawing, hdraws⟩ := h
  rw [ContentCipher.DrawsFrom] at hdraws
  rw [reload, hdrawing, Option.bind_eq_bind, Option.bind_some, hdraws]
  rfl

theorem StoredSession.responseTimes_of_figure {x y : StoredSession}
    (hmost : y.maxResponseMs = x.figure) (hmean : y.avgResponseMs = x.figure) :
    y.responseTimes = x.responseTimes := by
  rw [responseTimes, hmost, hmean, figure, responseTimes]
  by_cases hpos : 0 < x.maxResponseMs ∧ 0 < x.avgResponseMs
  · rw [if_pos hpos, if_pos ⟨hpos.2, hpos.2⟩, if_pos hpos]
  · rw [if_neg hpos, if_neg hpos]
    rfl

/-- A session that was loaded can be stored again, and is then loaded as it is. -/
theorem Session.StoredFrom.reload_again (h : session.StoredFrom cipher nonces now document)
    (pass : Timestamp × Nonces) :
    (document.toSession cipher).reload cipher pass = some (document.toSession cipher) := by
  obtain ⟨now', nonces'⟩ := pass
  have hfigures : responseFigures (document.toSession cipher).responseTimes
      = some (document.figure, document.figure) := document.responseFigures_responseTimes
  have hmessages : (document.toSession cipher).messages = session.messages :=
    h.storedAs.messages_eq
  have hsealable : ∀ m ∈ (document.toSession cipher).messages,
      cipher.Encryptable m.content := by
    rw [hmessages]
    exact (Session.exists_storedFrom_iff.1 ⟨document, h⟩).2
  have hstorable :
      ∃ again, (document.toSession cipher).StoredFrom cipher nonces' now' again :=
    Session.exists_storedFrom_iff.2 ⟨by rw [hfigures]; rfl, hsealable⟩
  obtain ⟨again, hagain⟩ := hstorable
  rw [hagain.reload_eq, hagain.toSession_eq]
  -- Both figures of the one sample are the sample itself, so no remainder is cut off.
  obtain ⟨figures, messages, hfigures', -, rfl⟩ := Session.storedFrom_iff.1 hagain
  rw [hfigures, Option.some.injEq] at hfigures'
  subst hfigures'
  rw [StoredSession.responseTimes_of_figure rfl rfl]
  rfl

theorem Session.StoredFrom.reloads (h : session.StoredFrom cipher nonces now document)
    (passes : List (Timestamp × Nonces)) :
    passes.foldlM (Session.reload cipher) (document.toSession cipher)
      = some (document.toSession cipher) := by
  induction passes with
  | nil => rfl
  | cons pass passes ih =>
      rw [List.foldlM_cons, h.reload_again pass]
      exact ih

/-- A session whose figures fit has a stored form at any time and with every valid key or none,
unless with a key the text of a message is longer than can be encrypted. The stored form has
the greatest of its response times, their mean and the time it took; loading it gives the
session, with one sample for its response times, and however often that is stored and loaded
again it stays the same. -/
theorem loses_samples_once (key : List UInt8)
    (hkey : key = [] ∨ key.length ∈ ContentCipher.keySizes) (session : Session)
    (hmeasurable : session.Measurable) (now : Timestamp) (nonces : Nonces) :
    ((∃ document, session.StoredFrom (.ofKey key) nonces now document) ↔
      key = [] ∨ ∀ m ∈ session.messages, (Text.utf8 m.content).length ≤ Gcm.maxLength) ∧
    ∀ document, session.StoredFrom (.ofKey key) nonces now document →
      session.MeasuredBy now document ∧
      document.toSession (.ofKey key)
        = { session with responseTimes := session.sampled.responseTimes } ∧
      ∀ passes : List (Timestamp × Nonces),
        passes.foldlM (Session.reload (.ofKey key)) (document.toSession (.ofKey key))
          = some (document.toSession (.ofKey key)) := by
  constructor
  · exact Session.exists_storedFrom_ofKey hkey hmeasurable.count hmeasurable.total
  · intro document h
    exact ⟨h.measuredBy hmeasurable,
      h.toSession_sampled hmeasurable.count hmeasurable.total hmeasurable.longest, h.reloads⟩

/-- An active session with a message and two samples whose mean is no whole number of
milliseconds. -/
def unevenlySampled : Session :=
  { Session.start "b" "u" .epoch with
    messages := [.plain .ai "hi" .epoch]
    responseTimes := [.ofMillis 2, .ofMillis 7] }

theorem unevenlySampled_measurable : unevenlySampled.Measurable where
  count := by decide
  total := by decide +kernel
  each := by decide +kernel

theorem loses_samples_once_unevenlySampled :
    ∃ document,
      unevenlySampled.StoredFrom (.ofKey (List.replicate 16 7)) (.counting 5) .epoch document ∧
      document.maxResponseMs.toInt = 7 ∧ document.avgResponseMs.toInt = 4 ∧
      document.duration.toInt = 0 ∧
      document.toSession (.ofKey (List.replicate 16 7))
        = { unevenlySampled with responseTimes := [.ofMillis 4] } ∧
      [(Timestamp.epoch, .counting 3), (.epoch, .counting 4)].foldlM
          (Session.reload (.ofKey (List.replicate 16 7)))
          (document.toSession (.ofKey (List.replicate 16 7)))
        = some (document.toSession (.ofKey (List.replicate 16 7))) := by
  obtain ⟨hstorable, hloaded⟩ := loses_samples_once (List.replicate 16 7) (Or.inr (by decide))
    unevenlySampled unevenlySampled_measurable .epoch (.counting 5)
  have hshort : ∀ m ∈ unevenlySampled.messages,
      (Text.utf8 m.content).length ≤ Gcm.maxLength := by decide +kernel
  obtain ⟨document, h⟩ := hstorable.2 (Or.inr hshort)
  obtain ⟨hmeasured, hsession, hreloads⟩ := hloaded document h
  have hsamples : unevenlySampled.sampled.responseTimes = [.ofMillis 4] := by decide +kernel
  rw [hsamples] at hsession
  obtain ⟨span, hspan, hmost⟩ := hmeasured.attained (by decide)
  have hgreatest := hmeasured.greatest (.ofMillis 7) (by decide)
  have hmean : Span.total unevenlySampled.responseTimes
      / (unevenlySampled.responseTimes.length * 1000000) = 4 := by decide +kernel
  refine ⟨document, h, ?_, ?_, ?_, hsession, hreloads _⟩
  · have hbound : ∀ span ∈ unevenlySampled.responseTimes, span.millis ≤ 7 := by decide +kernel
    have hseven : (Span.ofMillis 7).millis = 7 := by decide +kernel
    have hspan7 := hbound span hspan
    omega
  · rw [hmeasured.mean, hmean]
    rfl
  · rw [hmeasured.duration]
    decide +kernel

end ChatArchive
