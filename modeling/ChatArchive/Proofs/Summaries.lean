import ChatArchive.Proofs.Listings

/-!
# Summaries and the sessions they stand for

A listing never loads a session: it counts the messages in the text of their column and
takes the time of the last one from there, while loading decodes the whole row and decrypts
it. Both read the columns of one stored session, so a summary that was listed is the summary
of the session that loading its id shows, whatever the messages say and under any key.

Listing a session looks at its start, its end and its last message only. Loading it needs
the last activity as well, which is all that a hypothesis on years is needed for here.
-/

namespace ChatArchive

open Time

/-- A summary tells what a loaded session has: the count and the last time are those of its
messages, or the start if there are none. -/
structure Summary.Describes (v : Summary) (session : Session) : Prop where
  id : session.id = v.id
  userId : session.userId = v.userId
  name : session.name = v.name
  startTime : session.startTime = v.startTime
  endTime : session.endTime = v.endTime
  adminAssisted : session.adminAssisted = v.adminAssisted
  totalTokens : session.totalTokens = v.totalTokens
  messageCount : v.messageCount.toNat = session.messages.length
  lastMessageTime :
    v.lastMessageTime = (session.messages.getLast?.map (·.time)).getD session.startTime

/-- Loading a stored session shows what its summary tells, if 32 bits count its messages. -/
theorem StoredSession.describes_toSession (cipher : ContentCipher) {x : StoredSession}
    (hcount : x.messages.length < 4294967296) :
    x.summary.Describes (x.toSession cipher) where
  id := rfl
  userId := rfl
  name := rfl
  startTime := rfl
  endTime := rfl
  adminAssisted := rfl
  totalTokens := rfl
  messageCount := by
    rw [toSession, summary, List.length_map]
    exact UInt32.toNat_ofNat_of_lt' hcount
  lastMessageTime := by
    have htime : (fun m : Message => m.time) ∘ StoredMessage.toMessage cipher = (·.time) := rfl
    rw [toSession, summary, List.getLast?_map, Option.map_map, htime]

namespace Store

variable {s : Store} {sessions : List StoredSession} {x : StoredSession} {now : Timestamp}

/-- An entry of a listing is the summary of a session that the table holds. -/
theorem exists_of_mem_summaries (h : s.table.Holds sessions) {q : ListQuery}
    {summaries : List Summary} (hlist : (s.step now (.list q)).1 = .ok (.summaries summaries))
    {v : Summary} (hv : v ∈ summaries) : ∃ x ∈ sessions, x.shown.summary = v := by
  obtain ⟨-, -, rows, found, hpage, hrows, hfound⟩ := step_list_ok.1 hlist
  cases hfound
  obtain ⟨l, hl, hsummary⟩ := exists_of_forall₂_right hrows hv
  obtain ⟨x, hx, rfl⟩ := exists_of_mem_page h hpage hl
  have hlistable : x.IsListable := (summary_listed_iff x).1 ⟨v, hsummary⟩
  rw [summary_of_listable hlistable] at hsummary
  exact ⟨x, hx, Except.ok.inj hsummary⟩

/-- After every run through the operations of a store, with faults or without, whatever a
listing returns can be loaded, if columns have plain years and 32 bits count the messages:
for every entry, loading its id succeeds and shows what the entry tells. -/
theorem listed_sessions_load (settings : Settings) (cipher : ContentCipher)
    (nonces : Cipher.Nonces) (calls : List Call)
    (hcalls : ∀ c ∈ calls, ¬ c.operation.IsOverwrite) :
    let s := (fresh settings cipher nonces).after calls
    (∃ sessions, s.table.Holds sessions) ∧
    ∀ sessions, s.table.Holds sessions →
      (∀ x ∈ sessions, x.HasPlainYears ∧ x.messages.length < 4294967296) →
    ∀ now q summaries, (s.step now (.list q)).1 = .ok (.summaries summaries) →
    ∀ v ∈ summaries, ∀ later, ∃ session,
      (s.step later (.get v.id)).1 = .ok (.session session) ∧ v.Describes session := by
  intro s
  obtain ⟨held, hheld⟩ := (sound_fresh settings cipher nonces).after hcalls
  refine ⟨⟨held, hheld.holds⟩, fun sessions hholds hfit now q summaries hlist v hv later => ?_⟩
  have hsound : Sound s sessions := hheld.of_holds hholds
  obtain ⟨hopen, -⟩ := step_list_ok.1 hlist
  obtain ⟨x, hx, rfl⟩ := exists_of_mem_summaries hholds hlist hv
  obtain ⟨hplain, hcount⟩ := hfit x hx
  have hload : (s.step later (.get x.shown.summary.id)).1
      = .ok (.session (x.shown.toSession s.cipher)) :=
    (step_get_row hopen (hsound.named x hx) (hsound.row?_of_mem hx)).2 ⟨hplain, rfl⟩
  exact ⟨_, hload, StoredSession.describes_toSession s.cipher (x := x.shown) hcount⟩

theorem listed_sessions_load_plainCalls :
    ∃ summaries, (((fresh .standard .disabled (.counting 0)).after plainCalls).step .epoch
        (.list .all)).1
        = .ok (.summaries summaries) ∧ summaries.length = 2 ∧
      ∀ v ∈ summaries, ∃ session,
        (((fresh .standard .disabled (.counting 0)).after plainCalls).step .epoch (.get v.id)).1
          = .ok (.session session) ∧ v.Describes session := by
  have hepoch : Timestamp.epoch.HasPlainYear := by decide
  have hwindow : HasWindow .all := by
    intro t ht
    cases ht
  have hfit : ∀ x ∈ plainSessions, x.HasPlainYears ∧ x.messages.length < 4294967296 := by
    intro x hx
    have hplain := isPlain_plainSessions x hx
    simp only [plainSessions, List.mem_cons, List.not_mem_nil, or_false] at hx
    rcases hx with rfl | rfl <;>
      exact ⟨⟨hplain.startTime, hplain.endTime, fun t ht => by cases ht; exact hepoch⟩, by decide⟩
  obtain ⟨held, hheld, hopen, -⟩ :=
    sound_after_run .standard .disabled (.counting 0) plainCalls_direct
  have hlist := step_list (hheld.of_holds holds_plainSessions) hopen isPlain_plainSessions
    hwindow .epoch
  have hlength : (sortedFor .all plainSessions).length = 2 := by
    rw [sortedFor, List.length_mergeSort]
    decide +kernel
  refine ⟨_, hlist, ?_, ?_⟩
  · rw [List.length_map, List.length_take, List.length_drop, hlength]
    decide +kernel
  · intro v hv
    exact (listed_sessions_load .standard .disabled (.counting 0) plainCalls
      fun c hc => (plainCalls_direct c hc).1).2 plainSessions holds_plainSessions hfit .epoch .all _
        hlist v hv .epoch

end Store

end ChatArchive
