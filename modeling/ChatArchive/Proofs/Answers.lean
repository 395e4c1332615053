import ChatArchive.Proofs.Rows
import ChatArchive.Proofs.Statements

/-!
# What reading answers

Whether a quiet action succeeds, and with which answer, depends on the events of
a store in no way, although it may report some itself. So each reading operation
has one statement that says when it succeeds and what it answers, in terms of the
rows that it reads: loading needs every row that it touches to be readable, and
listing needs the page to be found and each of its rows to have a summary.
-/

namespace ChatArchive.Store

open Time

variable {α β : Type} {s : Store} {now : Timestamp}

/-- An action succeeds with this answer. -/
def Answers (x : Action α) (s : Store) (a : α) : Prop := (s.perform x).1 = .ok a

theorem answers_pure {a b : α} : Answers (pure a) s b ↔ a = b := by
  rw [Answers, perform_pure, Except.ok.injEq]

theorem not_answers_fail {e : StoreError} {a : α} : ¬ Answers (fail e) s a := by
  rw [Answers, perform_fail]
  exact nofun

theorem answers_ofExcept {x : Except StoreError α} {a : α} :
    Answers (ofExcept x) s a ↔ x = .ok a := by
  cases x with
  | error e => exact iff_of_false not_answers_fail nofun
  | ok b => simp only [Answers, perform_ofExcept_ok, Except.ok.injEq]

/-- What comes after a quiet action meets the same store with other events. -/
theorem answers_bind {x : Action α} {f : α → Action β} {b : β} (hx : Quiet x) :
    Answers (x >>= f) s b ↔
      ∃ a events, s.perform x = (.ok a, { s with events := events }) ∧
        Answers (f a) { s with events := events } b := by
  constructor
  · intro h
    rw [Answers] at h
    obtain ⟨_ | a, events, hstep⟩ := hx s
    · rw [perform_bind_error hstep] at h
      cases h
    · rw [perform_bind_ok hstep] at h
      exact ⟨a, events, hstep, h⟩
  · intro h'
    obtain ⟨a, events, hstep, h⟩ := h'
    rw [Answers, perform_bind_ok hstep]
    exact h

theorem exists_events {x : Action α} (hx : Quiet x) {a : α} (h : Answers x s a) :
    ∃ events, s.perform x = (.ok a, { s with events := events }) := by
  obtain ⟨answer, events, hstep⟩ := hx s
  rw [Answers, hstep] at h
  simp only [] at h
  exact ⟨events, by rw [hstep, h]⟩

theorem answers_map {x : Action α} {f : α → β} {b : β} (hx : Quiet x) :
    Answers (f <$> x) s b ↔ ∃ a, Answers x s a ∧ f a = b := by
  rw [map_eq_pure_bind, answers_bind hx]
  constructor
  · intro h'
    obtain ⟨a, events, h, hb⟩ := h'
    exact ⟨a, by rw [Answers, h], answers_pure.1 hb⟩
  · intro h'
    obtain ⟨a, h, hb⟩ := h'
    obtain ⟨events, h⟩ := exists_events hx h
    exact ⟨a, events, h, answers_pure.2 hb⟩

theorem answers_asking {operation : String} {timeout : TimeoutSettings → UInt64}
    {question : Table → Except DatabaseError α} {a : α} (hplain : Plain question) :
    Answers (asking operation timeout question) s a
      ↔ s.closed = false ∧ question s.table = .ok a := by
  rw [Answers]
  constructor
  · intro hanswer
    rcases perform_retrying operation timeout (asked question) s with
      ⟨b, pauses, table, events, hopen, hasked, h⟩ | ⟨e, events, h⟩
    · rw [asking_eq, h] at hanswer
      cases hanswer
      exact ⟨hopen, (hplain _ _).symm.trans (of_asked_after hasked).2⟩
    · rw [asking_eq, h] at hanswer
      cases hanswer
  · rintro ⟨hopen, hquestion⟩
    rw [perform_asking_ok hopen hquestion]

/-- A step for each item succeeds exactly when all of them do. -/
theorem answers_mapM {f : α → Action β} {R : α → β → Prop} (hf : ∀ a, Quiet (f a))
    (hR : ∀ events a b, Answers (f a) { s with events := events } b ↔ R a b)
    {as : List α} {bs : List β} (events : List Event) :
    Answers (as.mapM f) { s with events := events } bs ↔ List.Forall₂ R as bs := by
  induction as generalizing events bs with
  | nil => rw [List.mapM_nil, answers_pure, List.forall₂_nil_left_iff, eq_comm]
  | cons a as ih =>
      rw [List.mapM_cons, answers_bind (hf a), List.forall₂_cons_left_iff]
      constructor
      · intro h'
        obtain ⟨b, events', hb, h⟩ := h'
        obtain ⟨bs', events'', hbs, h⟩ := (answers_bind (Quiet.mapM hf as)).1 h
        rw [← answers_pure.1 h]
        exact ⟨b, bs', (hR events a b).1 (by rw [Answers, hb]),
          (ih events').1 (by rw [Answers, hbs]), rfl⟩
      · intro h'
        obtain ⟨b, bs', hb, hbs, rfl⟩ := h'
        obtain ⟨events', hb⟩ := exists_events (hf a) ((hR events a b).2 hb)
        obtain ⟨events'', hbs⟩ := exists_events (Quiet.mapM hf as) ((ih events').2 hbs)
        exact ⟨b, events', hb, (answers_bind (Quiet.mapM hf as)).2
          ⟨bs', events'', hbs, answers_pure.2 rfl⟩⟩

/-! ## Readable rows -/

theorem readTime?_none {text? : Option String} (h : Row.readTime? text? = .ok none) :
    text? = none := by
  cases text? with
  | none => rfl
  | some text =>
      rw [Row.readTime?] at h
      cases hread : Row.readTime text with
      | error e => rw [hread] at h; cases h
      | ok t => rw [hread] at h; cases h

theorem toStored_ok {row : Row} {stored : StoredSession} (h : row.toStored = .ok stored) :
    stored.id = row.id ∧ stored.totalTokens = Row.loadedTokens row.totalTokens ∧
      (stored.endTime = none → row.endTime = none) := by
  obtain ⟨-, -, hend, -, hstored⟩ := Row.toStored_eq_ok.1 h
  refine ⟨congrArg StoredSession.id hstored, congrArg StoredSession.totalTokens hstored,
    fun hnone => readTime?_none ?_⟩
  rw [hend, hnone]

theorem summary_ok {l : ListedRow} {v : Summary} (h : summary l = .ok v) :
    v.id = l.row.id ∧ v.totalTokens = Row.loadedTokens l.row.totalTokens ∧
      (v.endTime = none → l.row.endTime = none) := by
  obtain ⟨lastMessageTime, -, h⟩ := Except.bind_eq_ok.1 h
  obtain ⟨startTime, -, h⟩ := Except.bind_eq_ok.1 h
  obtain ⟨endTime, hend, h⟩ := Except.bind_eq_ok.1 h
  cases h
  refine ⟨rfl, rfl, fun hnone => readTime?_none ?_⟩
  rw [← hnone]
  exact hend

/-! ## Loading -/

theorem perform_forM_report (es : List Event) (s : Store) :
    s.perform (es.forM report) = (.ok ⟨⟩, { s with events := s.events ++ es }) := by
  induction es generalizing s with
  | nil => rw [List.append_nil]; rfl
  | cons e es ih =>
      have hrest : (e :: es).forM report = (report e >>= fun _ => es.forM report) := rfl
      rw [hrest, perform_bind_ok (perform_report s e), ih]
      simp only [List.append_assoc, List.singleton_append]

/-- A row is loaded exactly if its stored session is readable. -/
theorem answers_load {row : Row} {session : Session} :
    Answers (load row) s session ↔
      ∃ stored, row.toStored = .ok stored ∧ stored.toSession s.cipher = session := by
  rw [load]
  cases row.toStored with
  | error e =>
      rw [Answers, perform_bind_error (perform_ofExcept_error s e)]
      exact iff_of_false nofun fun ⟨_, h, _⟩ => nomatch h
  | ok stored =>
      rw [Answers, perform_bind_ok (perform_ofExcept_ok s stored),
        perform_bind_ok (perform_getThe s), perform_bind_ok (perform_forM_report _ s),
        perform_pure]
      simp only [Except.ok.injEq, exists_eq_left']

theorem answers_loads {rows : List Row} {sessions : List Session} (events : List Event) :
    Answers (rows.mapM load) { s with events := events } sessions ↔
      List.Forall₂ (fun row session => ∃ stored, row.toStored = .ok stored ∧
        stored.toSession s.cipher = session) rows sessions :=
  answers_mapM Quiet.load (fun _ _ _ => answers_load) events

/-- A session is loaded exactly if its id has a row and the row is readable. -/
theorem answers_get {id : String} {session : Session} :
    Answers (get id) s session ↔ s.closed = false ∧ id ≠ "" ∧
      ∃ row stored, s.table.row? id = some row ∧ row.toStored = .ok stored ∧
        stored.toSession s.cipher = session := by
  rw [get]
  split
  · next hid =>
      rw [String.isEmpty_iff] at hid
      refine iff_of_false (fun h => ?_) fun h => h.2.1 hid
      obtain ⟨u, events, hfail, -⟩ := (answers_bind (Quiet.fail _)).1 h
      cases hfail
  · next hid =>
      rw [String.isEmpty_iff] at hid
      rw [answers_bind (Quiet.asking _ _ _)]
      constructor
      · intro h'
        obtain ⟨row?, events, hask, h⟩ := h'
        obtain ⟨hopen, hrow⟩ := (answers_asking fun _ _ => rfl).1 (by rw [Answers, hask])
        cases hrow
        refine ⟨hopen, hid, ?_⟩
        cases hrow : s.table.row? id with
        | none => rw [hrow] at h; exact absurd h not_answers_fail
        | some row =>
            rw [hrow] at h
            obtain ⟨stored, hstored, hsession⟩ := answers_load.1 h
            exact ⟨row, stored, rfl, hstored, hsession⟩
      · intro h'
        obtain ⟨hopen, -, row, stored, hrow, hstored, hsession⟩ := h'
        refine ⟨some row, s.events, perform_asking_ok hopen (by rw [hrow]), ?_⟩
        exact answers_load.2 ⟨stored, hstored, hsession⟩

/-- The rows of active sessions that a page holds. -/
def activeRows (s : Store) : List Row :=
  ((s.table.rows.filter (·.endTime.isNone)).mergeSort
    fun a b => b.startTime ≤ a.startTime).take s.settings.listing.maxLimit.toNat

theorem mem_rows_of_mem_activeRows {row : Row} (h : row ∈ s.activeRows) : row ∈ s.table.rows :=
  (List.mem_filter.1 ((List.mergeSort_perm _ _).mem_iff.1 (List.mem_of_mem_take h))).1

/-- The active sessions are loaded exactly if every row of the page is readable. -/
theorem answers_active {sessions : List Session} :
    Answers active s sessions ↔ s.closed = false ∧
      List.Forall₂ (fun row session => ∃ stored, row.toStored = .ok stored ∧
        stored.toSession s.cipher = session) s.activeRows sessions := by
  rw [active, Answers, perform_bind_ok (perform_getThe s)]
  show Answers (asking _ _ _ >>= _) s sessions ↔ _
  rw [answers_bind (Quiet.asking _ _ _)]
  constructor
  · intro h'
    obtain ⟨rows, events, hask, h⟩ := h'
    obtain ⟨hopen, hrows⟩ := (answers_asking fun _ _ => rfl).1 (by rw [Answers, hask])
    cases hrows
    exact ⟨hopen, (answers_loads events).1 h⟩
  · intro h'
    obtain ⟨hopen, h⟩ := h'
    exact ⟨s.activeRows, s.events, perform_asking_ok hopen rfl, (answers_loads s.events).2 h⟩

/-! ## Listing -/

/-- A window of times that does not end before it starts. -/
def HasWindow (q : ListQuery) : Prop :=
  ∀ start ∈ q.startFrom, ∀ finish ∈ q.startTo, ¬ finish < start

/-- The page of a query in a store. -/
def pageOf (s : Store) (q : ListQuery) : Except DatabaseError (List ListedRow) :=
  page q (q.pageSize s.settings.listing.defaultLimit s.settings.listing.maxLimit).toNat s.table

/-- Every row of a page is a selected row of the table that could be looked into. -/
theorem page_ok {q : ListQuery} {size : Nat} {table : Table} {rows : List ListedRow}
    (h : page q size table = .ok rows) :
    ∀ l ∈ rows, l.row ∈ table.rows ∧ selects q l.row = true ∧ listedRow l.row = .ok l := by
  obtain ⟨keyed, hkeyed, h⟩ := Except.bind_eq_ok.1 h
  intro l hl
  obtain ⟨pair, hpair, hlisted⟩ := exists_of_forall₂_right (mapM_eq_ok.1 h) hl
  have hmem : pair ∈ keyed :=
    (List.mergeSort_perm keyed _).mem_iff.1 (List.mem_of_mem_drop (List.mem_of_mem_take hpair))
  obtain ⟨row, hrow, hkey⟩ := exists_of_forall₂_right (mapM_eq_ok.1 hkeyed) hmem
  obtain ⟨v, -, hpair'⟩ := Except.bind_eq_ok.1 hkey
  cases hpair'
  have hl' : l.row = row := by
    obtain ⟨tree, -, h⟩ := Except.bind_eq_ok.1 hlisted
    cases h
    rfl
  rw [hl']
  obtain ⟨hrow, hselect⟩ := List.mem_filter.1 hrow
  exact ⟨hrow, hselect, hlisted⟩

/-- The part of a listing that follows the check of the window. -/
theorem answers_page {operation : String} {timeout : TimeoutSettings → UInt64} {q : ListQuery}
    {summaries : List Summary} :
    Answers (do
        let s ← getThe Store
        let size := q.pageSize s.settings.listing.defaultLimit s.settings.listing.maxLimit
        let rows ← asking operation timeout (page q size.toNat)
        rows.mapM fun row => ofExcept (summary row)) s summaries ↔
      s.closed = false ∧ ∃ rows, s.pageOf q = .ok rows ∧
        List.Forall₂ (fun row v => summary row = .ok v) rows summaries := by
  rw [Answers, perform_bind_ok (perform_getThe s)]
  show Answers (asking _ _ _ >>= _) s summaries ↔ _
  rw [answers_bind (Quiet.asking _ _ _)]
  have hsummaries : ∀ (rows : List ListedRow) (events : List Event),
      Answers (rows.mapM fun row => ofExcept (summary row)) { s with events := events }
        summaries ↔ List.Forall₂ (fun row v => summary row = .ok v) rows summaries :=
    fun rows events => answers_mapM (fun row => Quiet.ofExcept _)
      (fun _ _ _ => answers_ofExcept) events
  constructor
  · intro h'
    obtain ⟨rows, events, hask, h⟩ := h'
    obtain ⟨hopen, hpage⟩ := (answers_asking fun _ _ => rfl).1 (by rw [Answers, hask])
    exact ⟨hopen, rows, hpage, (hsummaries rows events).1 h⟩
  · intro h'
    obtain ⟨hopen, rows, hpage, h⟩ := h'
    exact ⟨rows, s.events, perform_asking_ok hopen hpage, (hsummaries rows s.events).2 h⟩

/-- Sessions are listed exactly if the window is not inverted, the page is found and
every row of it has a summary. -/
theorem answers_listing {operation : String} {timeout : TimeoutSettings → UInt64} {q : ListQuery}
    {summaries : List Summary} :
    Answers (listing operation timeout q) s summaries ↔ s.closed = false ∧ HasWindow q ∧
      ∃ rows, s.pageOf q = .ok rows ∧
        List.Forall₂ (fun row v => summary row = .ok v) rows summaries := by
  rw [listing]
  split
  · next start finish hstart hfinish =>
      by_cases hwindow : finish < start
      · refine iff_of_false (fun h => ?_) fun h =>
          h.2.1 start hstart finish hfinish hwindow
        rw [validateRange, if_pos hwindow] at h
        obtain ⟨u, events, hfail, -⟩ := (answers_bind (Quiet.fail _)).1 h
        cases hfail
      · have hq : HasWindow q := fun a ha b hb => by
          rw [hstart] at ha
          rw [hfinish] at hb
          cases ha
          cases hb
          exact hwindow
        rw [validateRange, if_neg hwindow, Answers, perform_bind_ok (perform_ofExcept_ok s ())]
        exact answers_page.trans (and_congr_right fun _ => (and_iff_right hq).symm)
  · next hnone =>
      have hq : HasWindow q := fun a ha b hb => absurd hb (fun hb => hnone a b ha hb)
      exact answers_page.trans (and_congr_right fun _ => (and_iff_right hq).symm)

theorem answers_listUser {userId : String} {limit : UInt32} {summaries : List Summary}
    (h : Answers (listUser userId limit) s summaries) :
    Answers (listing "list_user_sessions" (·.defaultSecs)
      { ListQuery.all with limit := limit, userId := some userId }) s summaries := by
  rw [listUser] at h
  split at h
  · obtain ⟨u, events, hfail, -⟩ := (answers_bind (Quiet.fail _)).1 h
    cases hfail
  · exact h

/-! ## Tokens -/

/-- Tokens are told exactly if the window is not inverted and their sum is found. -/
theorem answers_tokens {start finish : Timestamp} {n : UInt64} :
    Answers (tokens start finish) s n ↔ s.closed = false ∧ ¬ finish < start ∧
      ∃ total, windowTokens start finish s.table = .ok total ∧ countOf total = n := by
  rw [tokens, validateRange]
  by_cases hrange : finish < start
  · rw [if_pos hrange, Answers, perform_bind_error (perform_ofExcept_error _ _)]
    exact iff_of_false nofun fun h => h.2.1 hrange
  · rw [if_neg hrange, Answers, perform_bind_ok (perform_ofExcept_ok _ _), ← Answers,
      answers_bind (Quiet.asking _ _ _)]
    constructor
    · intro h'
      obtain ⟨total, events, hask, h⟩ := h'
      obtain ⟨hopen, htotal⟩ := (answers_asking fun _ _ => rfl).1 (by rw [Answers, hask])
      exact ⟨hopen, hrange, total, htotal, answers_pure.1 h⟩
    · intro h'
      obtain ⟨hopen, -, total, htotal, h⟩ := h'
      exact ⟨total, s.events, perform_asking_ok hopen htotal, answers_pure.2 h⟩

/-! ## Calls -/

theorem step_eq_ok {operation : Operation} {answer : Answer} :
    (s.step now operation).1 = .ok answer
      ↔ Answers (run now operation) { s with events := [] } answer := Iff.rfl

theorem step_get_ok {id : String} {answer : Answer} :
    (s.step now (.get id)).1 = .ok answer ↔ s.closed = false ∧ id ≠ "" ∧
      ∃ row stored, s.table.row? id = some row ∧ row.toStored = .ok stored ∧
        .session (stored.toSession s.cipher) = answer := by
  rw [step_eq_ok, run, answers_map (Quiet.get id)]
  constructor
  · intro h'
    obtain ⟨session, h, rfl⟩ := h'
    obtain ⟨hopen, hid, row, stored, hrow, hstored, rfl⟩ := answers_get.1 h
    exact ⟨hopen, hid, row, stored, hrow, hstored, rfl⟩
  · intro h'
    obtain ⟨hopen, hid, row, stored, hrow, hstored, rfl⟩ := h'
    exact ⟨_, answers_get.2 ⟨hopen, hid, row, stored, hrow, hstored, rfl⟩, rfl⟩

theorem step_active_ok {answer : Answer} :
    (s.step now .active).1 = .ok answer ↔ s.closed = false ∧
      ∃ sessions, List.Forall₂ (fun row session => ∃ stored, row.toStored = .ok stored ∧
        stored.toSession s.cipher = session) s.activeRows sessions ∧
        .sessions sessions = answer := by
  rw [step_eq_ok, run, answers_map Quiet.active]
  constructor
  · intro h'
    obtain ⟨sessions, h, rfl⟩ := h'
    obtain ⟨hopen, h⟩ := answers_active.1 h
    exact ⟨hopen, sessions, h, rfl⟩
  · intro h'
    obtain ⟨hopen, sessions, h, rfl⟩ := h'
    exact ⟨sessions, answers_active.2 ⟨hopen, h⟩, rfl⟩

theorem listing_ok {operation : String} {timeout : TimeoutSettings → UInt64} {q : ListQuery}
    {answer : Answer} :
    Answers (Answer.summaries <$> listing operation timeout q) s answer ↔
      s.closed = false ∧ HasWindow q ∧ ∃ rows summaries, s.pageOf q = .ok rows ∧
        List.Forall₂ (fun row v => summary row = .ok v) rows summaries ∧
        .summaries summaries = answer := by
  rw [answers_map (Quiet.listing _ _ _)]
  constructor
  · intro h'
    obtain ⟨summaries, h, rfl⟩ := h'
    obtain ⟨hopen, hwindow, rows, hpage, h⟩ := answers_listing.1 h
    exact ⟨hopen, hwindow, rows, summaries, hpage, h, rfl⟩
  · intro h'
    obtain ⟨hopen, hwindow, rows, summaries, hpage, h, rfl⟩ := h'
    exact ⟨summaries, answers_listing.2 ⟨hopen, hwindow, rows, hpage, h⟩, rfl⟩

theorem step_list_ok {q : ListQuery} {answer : Answer} :
    (s.step now (.list q)).1 = .ok answer ↔ s.closed = false ∧ HasWindow q ∧
      ∃ rows summaries, s.pageOf q = .ok rows ∧
        List.Forall₂ (fun row v => summary row = .ok v) rows summaries ∧
        .summaries summaries = answer := listing_ok

theorem step_tokens_ok {start finish : Timestamp} {answer : Answer} :
    (s.step now (.tokens start finish)).1 = .ok answer ↔ s.closed = false ∧ ¬ finish < start ∧
      ∃ total, windowTokens start finish s.table = .ok total ∧
        .count (countOf total).toNat = answer := by
  rw [step_eq_ok, run, answers_bind (Quiet.tokens start finish)]
  constructor
  · intro h'
    obtain ⟨n, events, hstep, h⟩ := h'
    obtain ⟨hopen, hrange, total, htotal, rfl⟩ := answers_tokens.1 (by rw [Answers, hstep])
    exact ⟨hopen, hrange, total, htotal, answers_pure.1 h⟩
  · intro h'
    obtain ⟨hopen, hrange, total, htotal, h⟩ := h'
    obtain ⟨events, hstep⟩ := exists_events (s := { s with events := [] })
      (Quiet.tokens start finish) (answers_tokens.2 ⟨hopen, hrange, total, htotal, rfl⟩)
    exact ⟨_, events, hstep, answers_pure.2 h⟩

end ChatArchive.Store
