import ChatArchive.Proofs.Pages

/-!
# What the store can read back

A table that is only written through operations holds stored sessions, so whether
something can be read back is a question about the instants of those sessions.
Columns and messages write instants whose year has more than four digits with a sign,
which the strict reader refuses. A session is loaded exactly if its own times have
plain years, and it is listed exactly if its start, its end and the time of its last
message have. Operations accept all instants, so one session with another year fails
every answer that it is a part of.
-/

namespace ChatArchive

open Time

/-- A stored session that has a summary: its start, its end and the time of its last
message have plain years. -/
structure StoredSession.IsListable (x : StoredSession) : Prop where
  startTime : x.startTime.HasPlainYear
  endTime : ∀ t ∈ x.endTime, t.HasPlainYear
  lastMessage : ∀ m ∈ x.messages.getLast?, m.time.HasPlainYear

/-- The messages that a call brings have plain years. -/
def Call.HasPlainMessages (c : Call) : Prop :=
  match c.operation with
  | .create session => ∀ m ∈ session.messages, m.time.HasPlainYear
  | .addMessage _ message => message.time.HasPlainYear
  | _ => True

namespace Store

variable {s : Store} {sessions : List StoredSession} {now : Timestamp}

/-! ## Listing stored sessions -/

/-- The time that a summary calls the last message's is readable exactly if the last
message's is, or the start if there is no message. -/
theorem lastMessageTime_iff (x : StoredSession) (hstart : x.startTime.HasPlainYear) :
    (∃ t, Row.readTime (listed x).lastMessageTime = .ok t) ↔
      ∀ m ∈ x.messages.getLast?, m.time.HasPlainYear := by
  rw [listed]
  cases hlast : x.messages.getLast? with
  | none =>
      refine iff_of_true ?_ fun _ hm => nomatch hm
      exact ⟨x.startTime, Row.readTime_column hstart⟩
  | some m =>
      rw [Option.map_some, Option.getD_some, Row.readTime_short_iff]
      constructor
      · intro h y hy
        cases hy
        exact h
      · exact fun h => h m rfl

/-- A stored session has a summary exactly if it is listable. -/
theorem summary_listed_iff (x : StoredSession) :
    (∃ v, summary (listed x) = .ok v) ↔ x.IsListable := by
  constructor
  · intro h'
    obtain ⟨v, h⟩ := h'
    obtain ⟨last, hlast, h⟩ := Except.bind_eq_ok.1 h
    obtain ⟨start, hstart, h⟩ := Except.bind_eq_ok.1 h
    obtain ⟨finish, hfinish, -⟩ := Except.bind_eq_ok.1 h
    have hplain := (Row.readTime_column_iff _).1 ⟨start, hstart⟩
    exact ⟨hplain, (Row.readTime?_column_iff _).1 ⟨finish, hfinish⟩,
      (lastMessageTime_iff x hplain).1 ⟨last, hlast⟩⟩
  · intro h
    obtain ⟨last, hlast⟩ := (lastMessageTime_iff x h.startTime).2 h.lastMessage
    exact ⟨_, Except.bind_eq_ok.2 ⟨last, hlast, Except.bind_eq_ok.2
      ⟨_, Row.readTime_column h.startTime, Except.bind_eq_ok.2
        ⟨_, Row.readTime?_column h.endTime, rfl⟩⟩⟩⟩

/-- The rows of a table that holds sessions are theirs. -/
theorem exists_of_mem_rows {table : Table} (h : table.Holds sessions) {row : Row}
    (hrow : row ∈ table.rows) : ∃ x ∈ sessions, Row.ofStored x = row := by
  rw [h] at hrow
  exact List.mem_map.1 hrow

/-- The row of a held session on a page is what a listing takes of the session. -/
theorem exists_of_mem_page {table : Table} (h : table.Holds sessions) {q : ListQuery}
    {size : Nat} {rows : List ListedRow} (hpage : page q size table = .ok rows)
    {l : ListedRow} (hl : l ∈ rows) : ∃ x ∈ sessions, listed x = l := by
  obtain ⟨hrow, -, hlisted⟩ := page_ok hpage l hl
  obtain ⟨x, hx, hxrow⟩ := exists_of_mem_rows h hrow
  rw [← hxrow, listedRow_ofStored] at hlisted
  exact ⟨x, hx, Except.ok.inj hlisted⟩

/-! ## When answers succeed -/

/-- The row of a stored session is loaded exactly if the session has plain years. -/
theorem step_get_row {id : String} {x : StoredSession} {answer : Answer}
    (hopen : s.closed = false) (hid : id ≠ "") (hrow : s.table.row? id = some (Row.ofStored x)) :
    (s.step now (.get id)).1 = .ok answer ↔
      x.HasPlainYears ∧ answer = .session (x.shown.toSession s.cipher) := by
  constructor
  · intro h
    obtain ⟨-, -, row, stored, hrow', hstored, rfl⟩ := step_get_ok.1 h
    cases hrow.symm.trans hrow'
    have hplain := (Row.toStored_ofStored_iff x).1 ⟨stored, hstored⟩
    cases (Row.toStored_shown hplain).symm.trans hstored
    exact ⟨hplain, rfl⟩
  · intro h
    obtain ⟨hplain, rfl⟩ := h
    exact step_get_ok.2 ⟨hopen, hid, _, x.shown, hrow, Row.toStored_shown hplain, rfl⟩

theorem get_iff (h : Sound s sessions) (hopen : s.closed = false) {x : StoredSession}
    (hx : x ∈ sessions) :
    (∃ v, (s.step now (.get x.id)).1 = .ok v) ↔ x.HasPlainYears := by
  simp only [step_get_row hopen (h.named x hx) (h.row?_of_mem hx), exists_and_left,
    exists_eq, and_true]

theorem active_iff (h : Sound s sessions) (hopen : s.closed = false) :
    (∃ v, (s.step now .active).1 = .ok v) ↔
      ∀ x ∈ sessions, Row.ofStored x ∈ s.activeRows → x.HasPlainYears := by
  constructor
  · intro h' x hx hrow
    obtain ⟨v, hv⟩ := h'
    obtain ⟨-, loaded, hloaded, -⟩ := step_active_ok.1 hv
    obtain ⟨session, stored, hstored, -⟩ := exists_forall₂_iff.1 ⟨loaded, hloaded⟩ _ hrow
    exact (Row.toStored_ofStored_iff x).1 ⟨stored, hstored⟩
  · intro hplain
    have hload : ∀ row ∈ s.activeRows, ∃ session stored, row.toStored = .ok stored ∧
        stored.toSession s.cipher = session := by
      intro row hrow
      obtain ⟨x, hx, rfl⟩ := exists_of_mem_rows h.holds (mem_rows_of_mem_activeRows hrow)
      exact ⟨_, _, Row.toStored_ofStored (hplain x hx hrow), rfl⟩
    obtain ⟨loaded, hloaded⟩ := exists_forall₂_iff.2 hload
    exact ⟨_, step_active_ok.2 ⟨hopen, loaded, hloaded, rfl⟩⟩

theorem list_iff (h : Sound s sessions) (hopen : s.closed = false) {q : ListQuery}
    (hwindow : HasWindow q) :
    ∃ rows, s.pageOf q = .ok rows ∧ ((∃ v, (s.step now (.list q)).1 = .ok v) ↔
      ∀ x ∈ sessions, listed x ∈ rows → x.IsListable) := by
  obtain ⟨rows, hpage⟩ : ∃ rows, s.pageOf q = .ok rows := ⟨_, page_of_holds h.holds q _⟩
  refine ⟨rows, hpage, ?_, fun hlistable => ?_⟩
  · intro h' x hx hl
    obtain ⟨v, hv⟩ := h'
    obtain ⟨-, -, rows', summaries, hpage', hsummaries, -⟩ := step_list_ok.1 hv
    cases hpage.symm.trans hpage'
    exact (summary_listed_iff x).1 (exists_forall₂_iff.1 ⟨summaries, hsummaries⟩ _ hl)
  · have hsummary : ∀ l ∈ rows, ∃ v, summary l = .ok v := by
      intro l hl
      obtain ⟨x, hx, rfl⟩ := exists_of_mem_page h.holds hpage hl
      exact (summary_listed_iff x).2 (hlistable x hx hl)
    obtain ⟨summaries, hsummaries⟩ := exists_forall₂_iff.2 hsummary
    exact ⟨_, step_list_ok.2 ⟨hopen, hwindow, rows, summaries, hpage, hsummaries, rfl⟩⟩

/-! ## Runs -/

/-- The times of messages come from the calls that bring them. -/
theorem Transition.hasPlainMessages {cipher : ContentCipher} {id : String}
    {operation : Operation} {answer : Except Abort Answer} {x x' : Option StoredSession}
    (h : Transition cipher now id operation answer x x')
    (hcall : Call.HasPlainMessages ⟨now, operation⟩)
    (hx : ∀ y ∈ x, ∀ m ∈ y.messages, m.time.HasPlainYear) :
    ∀ y ∈ x', ∀ m ∈ y.messages, m.time.HasPlainYear := by
  cases h with
  | kept => exact hx
  | @created session stored hstored hid =>
      intro y hy m hm
      cases hy
      obtain ⟨message, hmessage, hdraws⟩ := exists_of_forall₂_right hstored.messages hm
      rw [Message.toStored_time hdraws]
      exact hcall message hmessage
  | @updated session stored old hstored hid =>
      intro y hy
      cases hy
      exact hx old rfl
  | @added message stored old hstored =>
      intro y hy m hm
      cases hy
      rcases List.mem_append.1 hm with hm | hm
      · exact hx old rfl m hm
      · rw [List.mem_singleton.1 hm, Message.toStored_time hstored]
        exact hcall
  | ended time duration answer old =>
      intro y hy
      cases hy
      exact hx old rfl

/-- The session of an id has plain years only, messages included. -/
def PlainThroughout (x : Option StoredSession) : Prop :=
  ∀ y ∈ x, y.HasPlainYears ∧ ∀ m ∈ y.messages, m.time.HasPlainYear

theorem isListable_of_plain {x : StoredSession} (h : x.HasPlainYears)
    (hmessages : ∀ m ∈ x.messages, m.time.HasPlainYear) : x.IsListable :=
  ⟨h.startTime, h.endTime, fun m hm => hmessages m (List.mem_of_getLast? hm)⟩

/-- What an open store that holds these sessions can read back: a session, the page of
active sessions and the page of a listing, each exactly if the instants in it that are
read have plain years. -/
structure ReadsBack (s : Store) (sessions : List StoredSession) : Prop where
  holds : s.table.Holds sessions
  get : ∀ now, ∀ x ∈ sessions,
    (∃ v, (s.step now (.get x.id)).1 = .ok v) ↔ x.HasPlainYears
  active : ∀ now, (∃ v, (s.step now .active).1 = .ok v) ↔
    ∀ x ∈ sessions, Row.ofStored x ∈ s.activeRows → x.HasPlainYears
  list : ∀ now q, HasWindow q → ∃ rows, s.pageOf q = .ok rows ∧
    ((∃ v, (s.step now (.list q)).1 = .ok v) ↔
      ∀ x ∈ sessions, listed x ∈ rows → x.IsListable)

theorem Sound.readsBack (h : Sound s sessions) (hopen : s.closed = false) :
    ReadsBack s sessions where
  holds := h.holds
  get _ _ hx := get_iff h hopen hx
  active _ := active_iff h hopen
  list _ _ hwindow := list_iff h hopen hwindow

/-- After every run of ordinary calls on a fresh database the store reads back what has
plain years, and nothing else. If no call brings another year, that is everything. -/
theorem readsBack_after_run (settings : Settings) (cipher : ContentCipher)
    (nonces : Cipher.Nonces) (calls : List Call)
    (hordinary : ∀ c ∈ calls, c.operation.IsOrdinary) :
    ∃ sessions, ReadsBack ((fresh settings cipher nonces).after calls) sessions ∧
      ((∀ c ∈ calls, c.HasPlainYears ∧ c.HasPlainMessages) →
        ∀ x ∈ sessions, x.HasPlainYears ∧ x.IsListable) := by
  have hfresh : Along cipher (fun _ x => (∀ c ∈ calls, c.HasPlainYears ∧ c.HasPlainMessages) →
      PlainThroughout x) (fresh settings cipher nonces) [] :=
    along_fresh settings cipher nonces fun _ _ _ hx => nomatch hx
  obtain ⟨sessions, h⟩ := Along.after (P := fun _ _ x =>
      (∀ c ∈ calls, c.HasPlainYears ∧ c.HasPlainMessages) → PlainThroughout x) [] hfresh
    hordinary fun c hc _ _ _ _ _ ht hx hplain y hy =>
      ⟨ht.hasPlainYears (hplain c hc).1 (fun z hz => (hx hplain z hz).1) y hy,
        ht.hasPlainMessages (hplain c hc).2 (fun z hz => (hx hplain z hz).2) y hy⟩
  refine ⟨sessions, h.sound.readsBack h.opened, fun hplain x hx => ?_⟩
  obtain ⟨hyears, hmessages⟩ := h.property x.id hplain x (h.sound.sessionOf_id hx)
  exact ⟨hyears, isListable_of_plain hyears hmessages⟩

/-- The first instant of the year 10000. -/
def tenThousand : Timestamp := ⟨253402300800, 0, by decide, by decide, by decide⟩

/-- A session is created and ended at once, and another one gets a message. -/
def plainCalls : List Call := [
  ⟨.epoch, .create (.start "a" "u" .epoch)⟩,
  ⟨.epoch, .finish "a" .epoch⟩,
  ⟨.epoch, .create (.start "b" "u" .epoch)⟩,
  ⟨.epoch, .addMessage "b" (.plain .user "hello" .epoch)⟩]

theorem readsBack_after_plainCalls :
    ∃ sessions, ReadsBack ((fresh .standard .disabled (.counting 0)).after plainCalls) sessions ∧
      ((∀ c ∈ plainCalls, c.HasPlainYears ∧ c.HasPlainMessages) →
        ∀ x ∈ sessions, x.HasPlainYears ∧ x.IsListable) := by
  refine readsBack_after_run .standard .disabled (.counting 0) plainCalls fun c hc => ?_
  simp only [plainCalls, List.mem_cons, List.not_mem_nil, or_false] at hc
  rcases hc with rfl | rfl | rfl | rfl <;> trivial

/-- A session is created whose end is in the year 10000. -/
def lateEnd : List Call :=
  [⟨.epoch, .create { Session.start "a" "u" .epoch with endTime := some tenThousand }⟩]

/-- A session gets a message of the year 10000. -/
def lateMessage : List Call := [
  ⟨.epoch, .create (.start "a" "u" .epoch)⟩,
  ⟨.epoch, .addMessage "a" (.plain .user "hello" tenThousand)⟩]

/-- A session with an end in the year 10000 is accepted but cannot be loaded, and an
accepted message of that year makes the listing of all sessions fail. -/
theorem not_readable_after_tenThousand :
    (¬ ∀ (settings : Settings) (cipher : ContentCipher) (nonces : Cipher.Nonces)
        (calls : List Call), (∀ c ∈ calls, c.operation.Writes) →
      ∀ id, ((fresh settings cipher nonces).after calls).table.row? id ≠ none →
        ∃ v, (((fresh settings cipher nonces).after calls).step .epoch (.get id)).1 = .ok v) ∧
    ¬ ∀ (settings : Settings) (cipher : ContentCipher) (nonces : Cipher.Nonces)
        (calls : List Call), (∀ c ∈ calls, c.operation.Writes) →
      ∃ v, (((fresh settings cipher nonces).after calls).step .epoch (.list .all)).1 = .ok v := by
  constructor
  · intro h
    obtain ⟨v, hv⟩ := h .standard .disabled (.counting 0) lateEnd
      (List.forall_mem_singleton.2 trivial) "a" (by decide +kernel)
    have hfails : (((fresh .standard .disabled (.counting 0)).after lateEnd).step .epoch
        (.get "a")).1.isOk = false := by
      decide +kernel
    rw [hv] at hfails
    cases hfails
  · intro h
    have hwrites : ∀ c ∈ lateMessage, c.operation.Writes := by
      intro c hc
      simp only [lateMessage, List.mem_cons, List.not_mem_nil, or_false] at hc
      rcases hc with rfl | rfl <;> trivial
    obtain ⟨v, hv⟩ := h .standard .disabled (.counting 0) lateMessage hwrites
    have hfails : (((fresh .standard .disabled (.counting 0)).after lateMessage).step .epoch
        (.list .all)).1.isOk = false := by
      decide +kernel
    rw [hv] at hfails
    cases hfails

end Store

end ChatArchive
