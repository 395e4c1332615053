import ChatArchive.Proofs.Answers
import ChatArchive.Proofs.Storing
import ChatArchive.Proofs.TableChange

/-!
# Creating a session and reading it

A session is bound to sixteen columns and read back from them. If its fields fit the
columns, all of it comes back but its response times, of which one sample is left. The
store may hold anything else: reading looks at the row of one id, and calls about other
ids never touch it.
-/

namespace ChatArchive

open Time

/-- A session whose fields fit their columns. -/
structure Session.Fits (session : Session) : Prop where
  named : session.id ≠ ""
  ordered : ∀ finish ∈ session.endTime, ¬ finish < session.startTime
  plain : session.HasPlainYears
  tokens : session.totalTokens.toNat < 9223372036854775808
  count : session.responseTimes.length < 4294967296
  total : Span.total session.responseTimes < spanLimit
  longest : Span.longestMillis session.responseTimes < 9223372036854775808

/-- A session with what is left of its response times: one sample of their mean in whole
milliseconds, or none if the mean or the longest is shorter than that. -/
def Session.sampled (session : Session) : Session :=
  { session with
    responseTimes :=
      if 0 < Span.longestMillis session.responseTimes ∧ 0 < Span.meanMillis session.responseTimes
      then [Span.ofMillis (UInt64.ofNat (Span.meanMillis session.responseTimes))] else [] }

/-- A session whose figures fit is loaded with what is left of its response times, whichever
nonces its content was sealed with. -/
theorem Session.StoredFrom.toSession_sampled {cipher : ContentCipher} {nonces : Cipher.Nonces}
    {now : Timestamp} {session : Session} {stored : StoredSession}
    (h : session.StoredFrom cipher nonces now stored)
    (hcount : session.responseTimes.length < 4294967296)
    (htotal : Span.total session.responseTimes < spanLimit)
    (hlongest : Span.longestMillis session.responseTimes < 9223372036854775808) :
    stored.toSession cipher = session.sampled := by
  have hmean : Span.meanMillis session.responseTimes < 9223372036854775808 :=
    Nat.lt_of_le_of_lt (Span.meanMillis_le _) hlongest
  rw [h.toSession_eq, Session.sampled]
  obtain ⟨figures, messages, hfigures, -, rfl⟩ := Session.storedFrom_iff.1 h
  rw [responseFigures_eq hcount htotal, Option.some.injEq] at hfigures
  subst hfigures
  rw [StoredSession.responseTimes_eq rfl rfl hlongest hmean]

namespace Store

variable {s : Store} {now : Timestamp} {session : Session} {stored : StoredSession}

/-! ## The row of a session -/

/-- A row of which there is none with its id yet is inserted if the table lets it. -/
theorem insertion_new {t : Table} {row : Row} (hpermit : t.permit .insert = .ok ())
    (hnew : t.row? row.id = none) :
    insertion row t = .ok ((), { t with rows := t.rows ++ [row] }) := by
  have hany : ¬ t.rows.any (·.id = row.id) = true := by
    rw [Table.row?, List.find?_eq_none] at hnew
    simpa using hnew
  have hinsert : t.insert row = .ok { t with rows := t.rows ++ [row] } := by
    rw [Table.insert, hpermit]
    show (if _ then _ else _) = _
    rw [if_neg hany]
    rfl
  rw [insertion, hinsert]

theorem row?_concat {t : Table} {row : Row} (hnew : t.row? row.id = none) :
    Table.row? { t with rows := t.rows ++ [row] } row.id = some row := by
  rw [Table.row?] at hnew ⊢
  rw [List.find?_append, hnew, Option.none_or, List.find?_cons_of_pos (by simp)]

/-- The row of a session that fits is read as the session with what is left of its
response times. -/
theorem toSession_of_storedFrom {cipher : ContentCipher} {nonces : Cipher.Nonces}
    (hfits : session.Fits) (h : session.StoredFrom cipher nonces now stored) :
    (Row.ofStored stored).toStored = .ok stored ∧ stored.toSession cipher = session.sampled := by
  have hstored := h.storedAs
  have htokens : stored.totalTokens.toNat < 9223372036854775808 := by
    rw [hstored.totalTokens]
    exact hfits.tokens
  exact ⟨Row.toStored_of_tokens (hasPlainYears_stored hstored hfits.plain) htokens,
    h.toSession_sampled hfits.count hfits.total hfits.longest⟩

/-! ## Creating -/

theorem validate_of_fits {cipher : ContentCipher} {nonces : Cipher.Nonces}
    (hfits : session.Fits) (h : session.StoredFrom cipher nonces now stored) :
    validate stored = .ok () := by
  have hstored := h.storedAs
  refine validate_eq_ok ?_ ?_
  · rw [hstored.id]
    exact hfits.named
  · rw [hstored.endTime, hstored.startTime]
    exact hfits.ordered

/-- What is prepared for an id without a row gets one behind the others. -/
theorem step_create_prepared {after : Cipher.Nonces} (hopen : s.closed = false)
    (hpermit : s.table.permit .insert = .ok ()) (hnew : s.table.row? stored.id = none)
    (hprepare : Store.perform { s with events := [] } (prepare now session)
      = (.ok stored, { s with nonces := after, events := [] })) :
    s.step now (.create session) = (.ok .nothing, { s with
      nonces := after
      table := { s.table with rows := s.table.rows ++ [Row.ofStored stored] }
      counters := s.counters.create stored.endTime.isNone
      events := [] }, []) := by
  have hinsertion : insertion (Row.ofStored stored) s.table
      = .ok ((), { s.table with rows := s.table.rows ++ [Row.ofStored stored] }) :=
    insertion_new hpermit hnew
  have hinsert : Store.perform { s with nonces := after, events := [] }
      (retrying "create_session" (·.defaultSecs) (insertion (Row.ofStored stored))) = (.ok (),
      { s with
        nonces := after
        table := { s.table with rows := s.table.rows ++ [Row.ofStored stored] }
        events := [] }) := perform_retrying_ok hopen hinsertion rfl
  have hcreate : Store.perform { s with events := [] } (create now session) = (.ok (), { s with
      nonces := after
      table := { s.table with rows := s.table.rows ++ [Row.ofStored stored] }
      counters := s.counters.create stored.endTime.isNone
      events := [] }) := by
    rw [create, perform_bind_ok hprepare, perform_bind_ok hinsert, perform_modify]
  rw [step, run, perform_bind_ok hcreate, perform_pure]

/-- A session that can be stored is created, and its row is what it is stored as. -/
theorem step_create (hfits : session.Fits) (hopen : s.closed = false)
    (hpermit : s.table.permit .insert = .ok ()) (hnew : s.table.row? session.id = none)
    (h : session.StoredFrom s.cipher s.nonces now stored) :
    ∃ nonces counters, s.step now (.create session) = (.ok .nothing, { s with
      nonces := nonces, table := { s.table with rows := s.table.rows ++ [Row.ofStored stored] },
      counters := counters, events := [] }, []) := by
  rw [← h.storedAs.id] at hnew
  obtain ⟨nonces, hprepare⟩ := perform_prepare_ok (s := { s with events := [] }) h
    (validate_of_fits hfits h)
  exact ⟨nonces, _, step_create_prepared hopen hpermit hnew hprepare⟩

/-- A session that fits is created exactly if its messages can be encrypted. -/
theorem step_create_iff (hfits : session.Fits) (hopen : s.closed = false)
    (hpermit : s.table.permit .insert = .ok ()) (hnew : s.table.row? session.id = none) :
    (s.step now (.create session)).1 = .ok .nothing ↔
      ∃ stored, session.StoredFrom s.cipher s.nonces now stored := by
  constructor
  · intro h
    rcases perform_create now session { s with events := [] } with
      ⟨stored, pauses, table, nonces, events, hstored, -⟩ | ⟨e, nonces, events, hcreate⟩
    · exact ⟨stored, hstored⟩
    · rw [step, run, perform_bind_error hcreate] at h
      cases h
  · intro h'
    obtain ⟨stored, h⟩ := h'
    obtain ⟨nonces, counters, hstep⟩ := step_create hfits hopen hpermit hnew h
    rw [hstep]

/-- A session that fits can be created in every open store that has no row of its id and
lets rows be inserted, with every valid key or none: creating it succeeds, unless with a
key the text of a message is longer than can be encrypted. From then on, whatever is done
to other ids, it is loaded as it was created, with one sample for its response times. -/
theorem created_reads_back (key : List UInt8)
    (hkey : key = [] ∨ key.length ∈ ContentCipher.keySizes) (s : Store)
    (hcipher : s.cipher = .ofKey key) (hopen : s.closed = false)
    (hpermit : s.table.permit .insert = .ok ()) (session : Session) (hfits : session.Fits)
    (hnew : s.table.row? session.id = none) (now : Timestamp) :
    ((s.step now (.create session)).1 = .ok .nothing ↔
      key = [] ∨ ∀ m ∈ session.messages, (Text.utf8 m.content).length ≤ Cipher.Gcm.maxLength) ∧
    ((s.step now (.create session)).1 = .ok .nothing →
      ∀ calls : List Call,
        (∀ c ∈ calls, c.operation.IsOrdinary ∧ c.operation.target? ≠ some session.id) →
        ∀ later : Timestamp,
          (((s.step now (.create session)).2.1.after calls).step later (.get session.id)).1
            = .ok (.session session.sampled)) := by
  rw [step_create_iff hfits hopen hpermit hnew]
  constructor
  · rw [hcipher]
    exact Session.exists_storedFrom_ofKey hkey hfits.count hfits.total
  · intro h' calls hcalls later
    obtain ⟨stored, h⟩ := h'
    obtain ⟨nonces, counters, hstep⟩ := step_create hfits hopen hpermit hnew h
    obtain ⟨hread, hsession⟩ := toSession_of_storedFrom hfits h
    have hsame := sameFor_after (s.step now (.create session)).2.1 hcalls
    rw [hstep] at hsame ⊢
    have hid : (Row.ofStored stored).id = session.id := h.storedAs.id
    have hrow : Table.row? { s.table with rows := s.table.rows ++ [Row.ofStored stored] }
        session.id = some (Row.ofStored stored) := by
      rw [← hid] at hnew ⊢
      exact row?_concat hnew
    refine step_get_ok.2 ⟨hsame.closed.trans hopen, hfits.named, _, _, hsame.row.trans hrow,
      hread, ?_⟩
    rw [hsame.cipher, ← hsession]

/-- A session with a message and two samples. -/
def sampledTwice : Session :=
  { Session.start "b" "u" .epoch with
    messages := [.plain .ai "hi" .epoch]
    totalTokens := 7
    responseTimes := [.ofMillis 100, .ofMillis 300] }

theorem sampledTwice_fits : sampledTwice.Fits where
  named := by decide
  ordered := by simp [sampledTwice, Session.start]
  plain := ⟨by decide, by simp [sampledTwice, Session.start], by decide⟩
  tokens := by decide
  count := by decide
  total := by decide +kernel
  longest := by decide +kernel

theorem created_reads_back_sampledTwice :
    ((fresh .standard (.ofKey (List.replicate 16 7)) (.counting 0)).step .epoch
      (.create sampledTwice)).1
        = .ok .nothing ∧
      ((((fresh .standard (.ofKey (List.replicate 16 7)) (.counting 0)).step .epoch
        (.create sampledTwice)).2.1.after [⟨.epoch, .create (.start "a" "u" .epoch)⟩]).step .epoch
          (.get "b")).1
        = .ok (.session { sampledTwice with responseTimes := [.ofMillis 200] }) := by
  have hsampled : sampledTwice.sampled
      = { sampledTwice with responseTimes := [.ofMillis 200] } := by decide +kernel
  have hshort : ∀ m ∈ sampledTwice.messages,
      (Text.utf8 m.content).length ≤ Cipher.Gcm.maxLength := by decide +kernel
  obtain ⟨hcreated, hread⟩ := created_reads_back (List.replicate 16 7) (Or.inr (by decide))
    (fresh .standard (.ofKey (List.replicate 16 7)) (.counting 0)) rfl rfl rfl sampledTwice
    sampledTwice_fits rfl .epoch
  have hok := hcreated.2 (Or.inr hshort)
  refine ⟨hok, ?_⟩
  rw [← hsampled]
  refine hread hok _ (fun c hc => ?_) .epoch
  rw [List.mem_singleton.1 hc]
  exact ⟨trivial, by decide⟩

end Store

end ChatArchive
