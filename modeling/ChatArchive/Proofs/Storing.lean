import ChatArchive.Proofs.Draws

/-!
# What a session is stored as

The stored form of a session is the session with its response times reduced to two
figures and the content of its messages encrypted; everything else is copied. Both steps
can fail, and here is when. The figures are there unless the response times together are
too long, or so many that 32 bits count none: adding them one by one is the same as checking
their total once, because no sum of spans gets shorter again. Content is encrypted unless it
is too long for the key, or the key has a wrong length; the nonces that happen to be drawn
have no part in it.

Loading takes all of this back but the response times, of which one sample is left.
-/

namespace ChatArchive

open Cipher Text Time

/-! ## Response times -/

namespace Time.Span

/-- The nanoseconds of some spans together. -/
def total : List Span → Nat
  | [] => 0
  | s :: rest => s.nanos + total rest

/-- The nanoseconds of the longest of some spans. -/
def longest : List Span → Nat
  | [] => 0
  | s :: rest => Nat.max s.nanos (longest rest)

/-- Whole milliseconds of the longest of some spans. -/
def longestMillis (spans : List Span) : Nat := longest spans / 1000000

/-- Whole milliseconds of the mean of some spans, zero without any. -/
def meanMillis (spans : List Span) : Nat := total spans / spans.length / 1000000

/-- The same with the number of the spans counted in 32 bits. -/
def countedMillis (spans : List Span) : Nat :=
  total spans / (spans.length % 4294967296) / 1000000

/-- Spans with a longest and a mean: together they are not too long, and 32 bits do not count them
as none. Without any both are zero. -/
def HaveFigures (spans : List Span) : Prop :=
  total spans < spanLimit ∧ (spans = [] ∨ spans.length % 4294967296 ≠ 0)

instance (spans : List Span) : Decidable (HaveFigures spans) :=
  inferInstanceAs (Decidable (_ ∧ _))

theorem countedMillis_eq {spans : List Span} (hcount : spans.length < 4294967296) :
    countedMillis spans = meanMillis spans := by
  rw [countedMillis, Nat.mod_eq_of_lt hcount, meanMillis]

theorem haveFigures_of_short {spans : List Span} (hcount : spans.length < 4294967296)
    (h : total spans < spanLimit) : HaveFigures spans := by
  refine ⟨h, ?_⟩
  rw [Nat.mod_eq_of_lt hcount, ne_eq, List.length_eq_zero_iff]
  exact Decidable.em _

theorem ofNanos?_nanos (s : Span) : ofNanos? s.nanos = some s := dif_pos s.lt_limit

/-- Adding spans one by one is checking their total once. -/
theorem foldlM_add? (a : Span) (spans : List Span) :
    spans.foldlM add? a = ofNanos? (a.nanos + total spans) := by
  induction spans generalizing a with
  | nil => exact (ofNanos?_nanos a).symm
  | cons s rest ih =>
      rw [List.foldlM_cons, add?, total]
      by_cases hshort : a.nanos + s.nanos < spanLimit
      · have hstep : ofNanos? (a.nanos + s.nanos) = some ⟨a.nanos + s.nanos, hshort⟩ :=
          dif_pos hshort
        rw [hstep, Option.bind_eq_bind, Option.bind_some, ih, Nat.add_assoc]
      · have hstep : ofNanos? (a.nanos + s.nanos) = none := dif_neg hshort
        have hall : ofNanos? (a.nanos + (s.nanos + total rest)) = none := dif_neg (by omega)
        rw [hstep, hall]
        rfl

theorem sum?_eq (spans : List Span) : sum? spans = ofNanos? (total spans) := by
  rw [sum?, foldlM_add?]
  exact congrArg ofNanos? (Nat.zero_add _)

theorem nanos_max (a b : Span) : (Span.max a b).nanos = Nat.max a.nanos b.nanos := by
  rw [Span.max]
  split
  · next hle => exact (Nat.max_eq_right hle).symm
  · next hlt => exact (Nat.max_eq_left (by omega)).symm

theorem nanos_foldl_max (s : Span) (rest : List Span) :
    (rest.foldl Span.max s).nanos = longest (s :: rest) := by
  induction rest generalizing s with
  | nil => exact (Nat.max_eq_left (Nat.zero_le _)).symm
  | cons r rest ih =>
      rw [List.foldl_cons, ih, longest, nanos_max]
      exact Nat.max_assoc _ _ _

theorem total_le (spans : List Span) : total spans ≤ spans.length * longest spans := by
  induction spans with
  | nil => simp [total]
  | cons s rest ih =>
      have hs : s.nanos ≤ longest (s :: rest) := Nat.le_max_left _ _
      have hrest : rest.length * longest rest ≤ rest.length * longest (s :: rest) :=
        Nat.mul_le_mul_left _ (Nat.le_max_right _ _)
      rw [total, List.length_cons, Nat.succ_mul]
      omega

/-- The mean is not longer than the longest. -/
theorem meanMillis_le (spans : List Span) : meanMillis spans ≤ longestMillis spans := by
  refine Nat.div_le_div_right (Nat.div_le_of_le_mul ?_)
  exact total_le spans

theorem millis_ofMillis (ms : UInt64) : (ofMillis ms).millis = ms.toNat :=
  Nat.mul_div_cancel _ (by decide)

/-- The mean of spans, in whole milliseconds, with their number counted in 32 bits. -/
theorem millis_mean? (spans : List Span) :
    (mean? spans).map millis
      = if total spans < spanLimit ∧ spans.length % 4294967296 ≠ 0 then some (countedMillis spans)
        else none := by
  rw [mean?, sum?_eq]
  by_cases hshort : total spans < spanLimit
  · have hsum : ofNanos? (total spans) = some ⟨total spans, hshort⟩ := dif_pos hshort
    rw [hsum, Option.bind_eq_bind, Option.bind_some]
    by_cases hnone : spans.length % 4294967296 = 0
    · rw [if_pos hnone, if_neg fun h => h.2 hnone]
      rfl
    · have hmean : total spans / (spans.length % 4294967296) < spanLimit :=
        Nat.lt_of_le_of_lt (Nat.div_le_self _ _) hshort
      rw [if_neg hnone, if_pos ⟨hshort, hnone⟩, ofNanos?, dif_pos hmean]
      rfl
  · have hsum : ofNanos? (total spans) = none := dif_neg hshort
    rw [hsum, if_neg fun h => hshort h.1]
    rfl

end Time.Span

/-- The figures of response times are there exactly if these have figures. -/
theorem responseFigures_eq_ite (spans : List Span) :
    responseFigures spans = if Span.HaveFigures spans then
      some (Int64.ofInt (Span.longestMillis spans), Int64.ofInt (Span.countedMillis spans))
    else none := by
  cases spans with
  | nil => rfl
  | cons s rest =>
      have hmap : responseFigures (s :: rest) = ((Span.mean? (s :: rest)).map Span.millis).map
          fun mean : Nat => (Int64.ofInt (Span.longestMillis (s :: rest)), Int64.ofInt mean) := by
        rw [responseFigures, Span.wrappedMillis, Span.millis, Span.nanos_foldl_max]
        cases Span.mean? (s :: rest) <;> rfl
      have hsome : s :: rest ≠ [] := List.cons_ne_nil s rest
      rw [hmap, Span.millis_mean?]
      simp only [Span.HaveFigures, hsome, false_or]
      split <;> rfl

/-- The figures of response times, as far as 32 bits count them: they are there if the
response times are not too long together. -/
theorem responseFigures_eq {spans : List Span} (hcount : spans.length < 4294967296)
    (h : Span.total spans < spanLimit) :
    responseFigures spans
      = some (Int64.ofInt (Span.longestMillis spans), Int64.ofInt (Span.meanMillis spans)) := by
  rw [responseFigures_eq_ite, if_pos (Span.haveFigures_of_short hcount h),
    Span.countedMillis_eq hcount]

/-- The figures of one sample are the sample. -/
theorem responseFigures_singleton (span : Span) :
    responseFigures [span] = some (Int64.ofInt span.millis, Int64.ofInt span.millis) := by
  have htotal : Span.total [span] = span.nanos := Nat.add_zero _
  have hlongest : Span.longest [span] = span.nanos := Nat.max_zero _
  have hshort : Span.total [span] < spanLimit := by
    rw [htotal]
    exact span.lt_limit
  rw [responseFigures_eq (by rw [List.length_singleton]; decide) hshort, Span.longestMillis,
    Span.meanMillis, htotal, hlongest, List.length_singleton, Nat.div_one, Span.millis]

theorem pos_ofInt {n : Nat} (h : n < 9223372036854775808) : 0 < Int64.ofInt n ↔ 0 < n := by
  rw [Int64.lt_iff_toInt_lt, Int64.toInt_ofInt_of_le (by omega) (by omega)]
  exact Int.natCast_pos

namespace StoredSession

/-- Figures that fit in 64 bits come back as one sample of the mean, if both are positive. -/
theorem responseTimes_eq {x : StoredSession} {most mean : Nat}
    (hmost : x.maxResponseMs = Int64.ofInt most) (hmean : x.avgResponseMs = Int64.ofInt mean)
    (hmost63 : most < 9223372036854775808) (hmean63 : mean < 9223372036854775808) :
    x.responseTimes
      = if 0 < most ∧ 0 < mean then [Span.ofMillis (UInt64.ofNat mean)] else [] := by
  rw [responseTimes, hmost, hmean, Int64.toInt_ofInt_of_le (by omega) (by omega)]
  simp only [pos_ofInt hmost63, pos_ofInt hmean63, Int.toNat_natCast]

/-- The figure that is left of response times: the mean, if both figures are positive. -/
def figure (x : StoredSession) : Int64 :=
  if 0 < x.maxResponseMs ∧ 0 < x.avgResponseMs then x.avgResponseMs else 0

/-- What comes back has this figure for its longest and for its mean. -/
theorem responseFigures_responseTimes (x : StoredSession) :
    responseFigures x.responseTimes = some (x.figure, x.figure) := by
  rw [responseTimes, figure]
  split
  · next hpos =>
      have hmean : 0 < x.avgResponseMs.toInt := Int64.lt_iff_toInt_lt.1 hpos.2
      have hmean63 := x.avgResponseMs.toInt_lt
      have hsize : x.avgResponseMs.toInt.toNat < UInt64.size := by
        rw [UInt64.size]
        omega
      have hmillis : (UInt64.ofNat x.avgResponseMs.toInt.toNat).toNat
          = x.avgResponseMs.toInt.toNat := UInt64.toNat_ofNat_of_lt' hsize
      have hfigure : Int64.ofInt (x.avgResponseMs.toInt.toNat : Int) = x.avgResponseMs := by
        rw [Int.toNat_of_nonneg (Int.le_of_lt hmean), Int64.ofInt_toInt]
      rw [responseFigures_singleton, Span.millis_ofMillis, hmillis, hfigure]
  · rfl

end StoredSession

/-! ## Durations -/

theorem Time.Timestamp.nanosUntil_le (a b : Timestamp) :
    a.nanosUntil b ≤ 20000000000000000000000 := by
  have ha := a.min_le
  have hb := b.le_max
  have hnanos : b.nanos < 2000000000 := by
    rcases b.nanos_fit with h | h
    · exact Nat.lt_trans h (by decide)
    · exact h.1
  rw [minSecond] at ha
  rw [maxSecond] at hb
  simp only [Timestamp.nanosUntil]
  split <;> split <;> omega

/-- A duration is the time from start to end in whole seconds, or zero where the end comes first. -/
theorem toInt_durationSecs (start finish : Timestamp) :
    (durationSecs start finish).toInt = max (start.nanosUntil finish) 0 / 1000000000 := by
  have hfits := start.nanosUntil_le finish
  have hseconds : max (start.secondsUntil finish) 0
      = max (start.nanosUntil finish) 0 / 1000000000 := by
    rw [Timestamp.secondsUntil]
    rcases Int.le_total 0 (start.nanosUntil finish) with hpos | hneg
    · rw [Int.tdiv_eq_ediv_of_nonneg hpos, Int.max_eq_left hpos, Int.max_eq_left (by omega)]
    · have hback := Int.tdiv_nonneg (Int.neg_nonneg_of_nonpos hneg)
        (show (0 : Int) ≤ 1000000000 by decide)
      rw [Int.neg_tdiv] at hback
      rw [Int.max_eq_right hneg, Int.max_eq_right (Int.nonpos_of_neg_nonneg hback)]
      rfl
  rw [durationSecs, hseconds]
  exact Int64.toInt_ofInt_of_le (by omega) (by omega)

/-! ## The stored form -/

/-- The stored form of a session at a point in time, given the figures of its response
times and its stored messages. -/
def Session.storedWith (now : Timestamp) (figures : Int64 × Int64)
    (messages : List StoredMessage) (session : Session) : StoredSession where
  id := session.id
  userId := session.userId
  name := session.name
  modelId := session.modelId
  messages := messages
  startTime := session.startTime
  endTime := session.endTime
  duration := durationSecs session.startTime (session.endTime.getD now)
  adminAssisted := session.adminAssisted
  assistingAdminId := session.assistingAdminId
  assistingAdminName := session.assistingAdminName
  helpRequested := session.helpRequested
  totalTokens := session.totalTokens
  maxResponseMs := figures.1
  avgResponseMs := figures.2
  lastActivity := some session.lastActivity

section

variable {cipher : ContentCipher} {nonces : Nonces} {now : Timestamp} {session : Session}
  {stored : StoredSession} {plain : String}

theorem ContentCipher.drawsFrom_bind {α β : Type} {x : ContentCipher.Drawing α}
    {f : α → ContentCipher.Drawing β} {nonces after : Nonces} {a : α} {b : β}
    (hx : x.run.run nonces = (.ok a, after)) (hf : ContentCipher.DrawsFrom (f a) after b) :
    ContentCipher.DrawsFrom (x >>= f) nonces b := by
  rw [DrawsFrom, run_bind_ok hx]
  exact hf

/-- Response times are looked at before any content is encrypted. -/
theorem Session.toStored_eq (cipher : ContentCipher) (now : Timestamp) (session : Session) :
    session.toStored cipher now = (responseFigures session.responseTimes).map (fun figures => do
      let messages ← session.messages.mapM (Message.toStored cipher)
      pure (session.storedWith now figures messages)) := by
  rw [toStored]
  cases responseFigures session.responseTimes <;> rfl

theorem Session.storedFrom_iff :
    session.StoredFrom cipher nonces now stored ↔
      ∃ figures messages, responseFigures session.responseTimes = some figures ∧
        ContentCipher.DrawsFrom (session.messages.mapM (Message.toStored cipher)) nonces messages ∧
        stored = session.storedWith now figures messages := by
  constructor
  · intro h'
    obtain ⟨drawing, hdrawing, h⟩ := h'
    rw [toStored_eq] at hdrawing
    obtain ⟨figures, hfigures, rfl⟩ := Option.map_eq_some_iff.1 hdrawing
    obtain ⟨messages, after, hmessages, hstored⟩ := run_bind_eq_ok.1
      (Prod.ext h rfl : _ = (Except.ok stored, _))
    cases hstored
    exact ⟨figures, messages, hfigures, congrArg Prod.fst hmessages, rfl⟩
  · intro h'
    obtain ⟨figures, messages, hfigures, hmessages, rfl⟩ := h'
    have hdrawing := toStored_eq cipher now session
    rw [hfigures, Option.map_some] at hdrawing
    exact ⟨_, hdrawing, ContentCipher.drawsFrom_bind (Prod.ext hmessages rfl) rfl⟩

/-- The figures are what 64 bits keep of the longest and the mean. -/
theorem Session.StoredFrom.figures_eq (h : session.StoredFrom cipher nonces now stored) :
    stored.maxResponseMs = Int64.ofInt (Span.longestMillis session.responseTimes) ∧
      stored.avgResponseMs = Int64.ofInt (Span.countedMillis session.responseTimes) := by
  obtain ⟨figures, messages, hfigures, -, rfl⟩ := Session.storedFrom_iff.1 h
  rw [responseFigures_eq_ite] at hfigures
  split at hfigures
  · cases hfigures
    exact ⟨rfl, rfl⟩
  · cases hfigures

/-- A session that was stored is loaded with the samples that are left of its response
times, and otherwise as it was. -/
theorem Session.StoredFrom.toSession_eq (h : session.StoredFrom cipher nonces now stored) :
    stored.toSession cipher = { session with responseTimes := stored.responseTimes } := by
  have hmessages := h.storedAs.messages_eq
  obtain ⟨figures, messages, -, -, rfl⟩ := Session.storedFrom_iff.1 h
  rw [StoredSession.toSession, hmessages]
  rfl

/-! ## Content that can be encrypted -/

namespace ContentCipher

/-- Content that a cipher encrypts, with whichever nonce. -/
def Encryptable (cipher : ContentCipher) (plain : String) : Prop :=
  match cipher with
  | .disabled => True
  | .ready _ => (utf8 plain).length ≤ Gcm.maxLength
  | .misconfigured _ => False

theorem encryptable_ofKey {key : List UInt8} (hkey : key = [] ∨ key.length ∈ keySizes) :
    (ofKey key).Encryptable plain ↔ key = [] ∨ (utf8 plain).length ≤ Gcm.maxLength := by
  rcases hkey with rfl | hsize
  · exact iff_of_true trivial (Or.inl rfl)
  · have hsome : key ≠ [] := by
      intro hnil
      rw [hnil] at hsize
      revert hsize
      decide
    rw [ofKey_of_size hsize]
    exact (or_iff_right hsome).symm

/-- Whether content is encrypted does not depend on the nonces. -/
theorem encryptable_iff :
    cipher.Encryptable plain ↔ ∃ stored after,
      (cipher.encrypt plain).run.run nonces = (.ok stored, after) := by
  cases cipher with
  | disabled => exact iff_of_true trivial ⟨plain, nonces, rfl⟩
  | misconfigured size => exact iff_of_false id fun ⟨_, _, h⟩ => nomatch h
  | ready schedule =>
      rw [Encryptable, ← (encrypt_ready schedule plain nonces).2]
      rcases (encrypt (.ready schedule) plain).run.run nonces with ⟨e | stored, after⟩
      · exact iff_of_false nofun fun ⟨_, _, h⟩ => nomatch h
      · exact iff_of_true rfl ⟨stored, after, rfl⟩

theorem encryptable_of_draws {m : Message} {stored : StoredMessage}
    (h : Draws (m.toStored cipher) stored) : cipher.Encryptable m.content := by
  obtain ⟨content, ⟨nonces, after, h⟩, -⟩ := draws_bind h
  exact encryptable_iff.2 ⟨content, after, h⟩

theorem exists_drawsFrom {messages : List Message}
    (h : ∀ m ∈ messages, cipher.Encryptable m.content) (nonces : Nonces) :
    ∃ stored, DrawsFrom (messages.mapM (Message.toStored cipher)) nonces stored := by
  induction messages generalizing nonces with
  | nil => exact ⟨[], rfl⟩
  | cons m messages ih =>
      obtain ⟨content, after, hm⟩ := encryptable_iff.1 (h m List.mem_cons_self)
      obtain ⟨stored, hrest⟩ := ih (fun m hm => h m (List.mem_cons_of_mem _ hm)) after
      refine ⟨⟨content, m.time, m.sender, m.fileId, m.fileUrl, m.labels⟩ :: stored, ?_⟩
      rw [List.mapM_cons]
      refine drawsFrom_bind (run_bind_eq_ok.2 ⟨content, after, hm, rfl⟩) ?_
      exact drawsFrom_bind (Prod.ext hrest rfl) rfl

end ContentCipher

/-- When a session has a stored form: the figures of its response times are there, and
every message can be encrypted. -/
theorem Session.exists_storedFrom_iff :
    (∃ stored, session.StoredFrom cipher nonces now stored) ↔
      (responseFigures session.responseTimes).isSome ∧
        ∀ m ∈ session.messages, cipher.Encryptable m.content := by
  constructor
  · intro h'
    obtain ⟨stored, hstored⟩ := h'
    obtain ⟨figures, messages, hfigures, hmessages, -⟩ := storedFrom_iff.1 hstored
    have hstored := (ContentCipher.draws_mapM hmessages.draws).imp fun m s hs =>
      And.intro (ContentCipher.encryptable_of_draws hs) hs
    exact ⟨by rw [hfigures]; rfl, ((List.forall₂_and_left _ _).1 hstored).1⟩
  · intro h'
    obtain ⟨hfigures, hmessages⟩ := h'
    obtain ⟨figures, hfigures⟩ := Option.isSome_iff_exists.1 hfigures
    obtain ⟨messages, hmessages⟩ := ContentCipher.exists_drawsFrom hmessages nonces
    exact ⟨_, storedFrom_iff.2 ⟨figures, messages, hfigures, hmessages, rfl⟩⟩

/-- With a valid key or none, a session whose figures are there has a stored form unless the
text of a message is longer than can be encrypted. -/
theorem Session.exists_storedFrom_ofKey {key : List UInt8}
    (hkey : key = [] ∨ key.length ∈ ContentCipher.keySizes)
    (hcount : session.responseTimes.length < 4294967296)
    (htotal : Span.total session.responseTimes < spanLimit) :
    (∃ stored, session.StoredFrom (.ofKey key) nonces now stored) ↔
      key = [] ∨ ∀ m ∈ session.messages, (utf8 m.content).length ≤ Gcm.maxLength := by
  have hfigures : (responseFigures session.responseTimes).isSome := by
    rw [responseFigures_eq hcount htotal]
    rfl
  rw [exists_storedFrom_iff, and_iff_right hfigures]
  simp only [ContentCipher.encryptable_ofKey hkey]
  by_cases hnone : key = []
  · exact iff_of_true (fun _ _ => Or.inl hnone) (Or.inl hnone)
  · simp only [hnone, false_or]

end

namespace Store

variable {s : Store} {now : Timestamp} {session : Session} {stored : StoredSession}

/-! ## Storing goes ahead -/

/-- What is encrypted is what a step draws from the nonces of the store, which keeps the rest. -/
theorem perform_encrypting_run {α : Type} {step : ContentCipher.Drawing α} {a : α}
    {after : Nonces} (h : step.run.run s.nonces = (.ok a, after)) :
    s.perform (encrypting step) = (.ok a, { s with nonces := after }) := by
  rw [encrypting, perform_bind_ok (perform_getThe s), h]
  rfl

theorem perform_encrypting_ok {α : Type} {step : ContentCipher.Drawing α} {a : α}
    (h : ContentCipher.DrawsFrom step s.nonces a) :
    ∃ nonces, s.perform (encrypting step) = (.ok a, { s with nonces := nonces }) :=
  ⟨_, perform_encrypting_run (Prod.ext h rfl)⟩

/-- What comes after encryption is the check of the stored form. -/
theorem perform_prepare_eq (h : session.StoredFrom s.cipher s.nonces now stored) :
    ∃ nonces, s.perform (prepare now session)
      = Store.perform { s with nonces := nonces } (do ofExcept (validate stored); pure stored) := by
  obtain ⟨drawing, hdrawing, hdraws⟩ := h
  obtain ⟨nonces, hencrypt⟩ := perform_encrypting_ok hdraws
  rw [prepare, perform_bind_ok (perform_getThe s), hdrawing]
  exact ⟨nonces, perform_bind_ok hencrypt⟩

theorem perform_prepare_ok (h : session.StoredFrom s.cipher s.nonces now stored)
    (hvalid : validate stored = .ok ()) :
    ∃ nonces, s.perform (prepare now session) = (.ok stored, { s with nonces := nonces }) := by
  obtain ⟨nonces, hprepare⟩ := perform_prepare_eq h
  rw [hprepare, hvalid]
  exact ⟨nonces, rfl⟩

theorem perform_prepare_invalid {e : StoreError}
    (h : session.StoredFrom s.cipher s.nonces now stored) (hvalid : validate stored = .error e) :
    ∃ nonces, s.perform (prepare now session)
        = (.error (.failed e), { s with nonces := nonces }) := by
  obtain ⟨nonces, hprepare⟩ := perform_prepare_eq h
  rw [hprepare, hvalid]
  exact ⟨nonces, rfl⟩

/-- A stored form is valid if it has an id and does not end before it starts. -/
theorem validate_eq_ok (hid : stored.id ≠ "")
    (hend : ∀ finish ∈ stored.endTime, ¬ finish < stored.startTime) :
    validate stored = .ok () := by
  rw [validate, if_neg (by rwa [String.isEmpty_iff])]
  cases hfinish : stored.endTime with
  | none => rfl
  | some finish => exact if_neg (hend finish hfinish)

theorem validate_eq_error {finish : Timestamp} (hid : stored.id ≠ "")
    (hfinish : stored.endTime = some finish) (hend : finish < stored.startTime) :
    validate stored = .error (.invalidSession "end time precedes start time") := by
  rw [validate, if_neg (by rwa [String.isEmpty_iff]), hfinish]
  exact if_pos hend

theorem insertion_refusal {row : Row} {t t' : Table} {u : Unit}
    (h : insertion row t = .ok (u, t')) : t'.refusal = t.refusal := by
  rw [insertion] at h
  split at h
  · next table hinsert =>
      cases h
      obtain ⟨-, -, hinsert⟩ := Except.bind_eq_ok.1 hinsert
      split at hinsert <;> cases hinsert
      rfl
  · cases h

theorem updating_refusal {new : Row} {t t' : Table} {ended : Bool}
    (h : updating new t = .ok (ended, t')) : t'.refusal = t.refusal := by
  rw [updating] at h
  split at h
  · cases h
  · cases h
  · next n table hn hupdate =>
      have hfirst := Table.update_refusal hupdate
      split at h
      · cases h
        exact hfirst
      · next finish hend =>
          split at h
          · cases h
          · next k closed hset =>
              cases h
              exact (Table.update_refusal hset).trans hfirst

theorem perform_create_ok {table : Table} (hopen : s.closed = false)
    (h : session.StoredFrom s.cipher s.nonces now stored) (hvalid : validate stored = .ok ())
    (hinsert : insertion (Row.ofStored stored) s.table = .ok ((), table)) :
    ∃ nonces, s.perform (create now session) = (.ok (), { s with
      nonces := nonces, table := table,
      counters := s.counters.create stored.endTime.isNone }) := by
  obtain ⟨nonces, hprepare⟩ := perform_prepare_ok h hvalid
  have hrun : Store.perform { s with nonces := nonces }
      (retrying "create_session" (·.defaultSecs) (insertion (Row.ofStored stored)))
      = (.ok (), { s with nonces := nonces, table := table }) :=
    perform_retrying_ok hopen hinsert (insertion_refusal hinsert)
  exact ⟨nonces, by rw [create, perform_bind_ok hprepare, perform_bind_ok hrun, perform_modify]⟩

theorem perform_update_ok {ended : Bool} {table : Table} (hopen : s.closed = false)
    (h : session.StoredFrom s.cipher s.nonces now stored) (hvalid : validate stored = .ok ())
    (hupdate : updating (Row.ofStored stored) s.table = .ok (ended, table)) :
    ∃ nonces, s.perform (update now session) = (.ok (), { s with
      nonces := nonces, table := table, counters := s.counters.finishIf ended }) := by
  obtain ⟨nonces, hprepare⟩ := perform_prepare_ok h hvalid
  have hrun : Store.perform { s with nonces := nonces }
      (retrying "update_session" (·.defaultSecs) (updating (Row.ofStored stored)))
      = (.ok ended, { s with nonces := nonces, table := table }) :=
    perform_retrying_ok hopen hupdate (updating_refusal hupdate)
  exact ⟨nonces, by rw [update, perform_bind_ok hprepare, perform_bind_ok hrun, perform_countEnded]⟩

/-- An update that is not valid fails for the reason that its stored form is not. -/
theorem perform_update_invalid {e : StoreError}
    (h : session.StoredFrom s.cipher s.nonces now stored) (hvalid : validate stored = .error e) :
    ∃ nonces, s.perform (update now session)
        = (.error (.failed e), { s with nonces := nonces }) := by
  obtain ⟨nonces, hprepare⟩ := perform_prepare_invalid h hvalid
  exact ⟨nonces, by rw [update, perform_bind_error hprepare]⟩

end Store

end ChatArchive
