import ChatArchive.Proofs.TableChange

/-!
# Statements that nothing refuses

A table without a refusal lets every statement of the store through, so a statement
changes exactly the rows that it selects. No operation sets a refusal but the one that
rehearses a fault. In a run without faults this tells what an operation does and not only
what it may do, which matters for the one operation that may do less than it was asked
for: ending a session, which records a duration if it can.
-/

namespace ChatArchive

open Time

/-- A rehearsed fault: statements are refused, at once or after pauses, or columns are written to
directly. -/
def Operation.IsFault : Operation → Prop
  | .refuse _ | .schedule _ | .overwrite _ _ _ => True
  | _ => False

theorem Operation.IsFault.of_overwrite {operation : Operation} (h : operation.IsOverwrite) :
    operation.IsFault := by
  cases operation with
  | overwrite i column v => trivial
  | _ => exact absurd h id

/-- A row whose end is set, if it is that of the open session of an id. -/
def Row.closing (id finish : String) (row : Row) : Row :=
  if Store.isOpen id row then { row with endTime := some finish } else row

/-- A row whose duration is set, if it is that of an id. -/
def Row.measuring (id : String) (duration : Int64) (row : Row) : Row :=
  if row.id = id then { row with duration := duration } else row

theorem Row.id_closing (id finish : String) (row : Row) : (row.closing id finish).id = row.id := by
  rw [closing]
  split <;> rfl

theorem Row.id_measuring (id : String) (duration : Int64) (row : Row) :
    (row.measuring id duration).id = row.id := by
  rw [measuring]
  split <;> rfl

/-- The row of an id is closed if it is open. -/
theorem Row.closing_of_id {id : String} {row : Row} (h : row.id = id) (finish : String) :
    row.closing id finish = { row with endTime := some (row.endTime.getD finish) } := by
  rw [closing, Store.isOpen]
  cases hend : row.endTime with
  | none => exact if_pos (by simp [h])
  | some e =>
      rw [if_neg (by simp), Option.getD_some, ← hend]

namespace Table

variable {t t' : Table} {columns : List Column} {select : Row → Bool} {id : String}

theorem permit_unrefused (h : t.refusal = none) (statement : Statement) :
    t.permit statement = .ok () := by
  rw [permit, h]

theorem reach_permitted {change : Row → Except DatabaseError Row} {row row' : Row}
    (h : t.permit (.update columns) = .ok ()) (hrow : change row = .ok row') :
    t.reach columns select change row = .ok (if select row then row' else row) := by
  rw [reach]
  split
  · exact Except.bind_eq_ok.2 ⟨_, hrow, Except.bind_eq_ok.2 ⟨_, h, rfl⟩⟩
  · rfl

/-- A statement that nothing refuses changes the rows that it selects. -/
theorem update_permitted (h : t.permit (.update columns) = .ok ()) (select : Row → Bool)
    (f : Row → Row) :
    t.update columns select (fun row => .ok (f row)) = .ok (t.rows.countP select,
      { t with rows := t.rows.map fun row => if select row then f row else row }) := by
  refine Except.bind_eq_ok.2 ⟨_, mapM_eq_ok.2 ?_, rfl⟩
  rw [List.forall₂_map_right_iff, List.forall₂_same]
  exact fun row _ => reach_permitted h rfl

theorem update_unrefused (h : t.refusal = none) (columns : List Column) (select : Row → Bool)
    (f : Row → Row) :
    t.update columns select (fun row => .ok (f row)) = .ok (t.rows.countP select,
      { t with rows := t.rows.map fun row => if select row then f row else row }) :=
  update_permitted (permit_unrefused h _) select f

/-- The row of an id after a change of some rows under their ids. -/
theorem row?_map {f : Row → Row} (hf : ∀ row, (f row).id = row.id) (id : String) :
    Table.row? { t with rows := t.rows.map f } id = (t.row? id).map f := by
  rw [row?, row?, List.find?_map]
  congr 2
  funext row
  rw [Function.comp, hf]

theorem mem_of_row? {row : Row} (hrow : t.row? id = some row) : row ∈ t.rows ∧ row.id = id := by
  have hid : row.id = id := by simpa using List.find?_some hrow
  exact ⟨List.mem_of_find?_eq_some hrow, hid⟩

/-- The row of an id when its session has ended. -/
theorem row?_closed {row : Row} (hrow : t.row? id = some row) (finish : String) :
    Table.row? { t with rows := t.rows.map (Row.closing id finish) } id
      = some { row with endTime := some (row.endTime.getD finish) } := by
  rw [row?_map (Row.id_closing id finish), hrow, Option.map_some,
    Row.closing_of_id (mem_of_row? hrow).2]

/-- The row of an id when its session has ended and its duration is recorded. -/
theorem row?_concluded {row : Row} (hrow : t.row? id = some row) (finish : String)
    (duration : Int64) :
    Table.row? { t with
        rows := (t.rows.map (Row.closing id finish)).map (Row.measuring id duration) } id
      = some { row with endTime := some (row.endTime.getD finish), duration := duration } := by
  have hmeasuring := row?_map (t := { t with rows := t.rows.map (Row.closing id finish) })
    (Row.id_measuring id duration) id
  rw [hmeasuring, row?_closed hrow, Option.map_some]
  exact congrArg some (if_pos (mem_of_row? hrow).2)

end Table

namespace Store

variable {s : Store} {t t' : Table} {id : String} {now : Timestamp} {operation : Operation}
  {sessions sessions' : List StoredSession}

/-! ## Refusals stay away -/

theorem after_refusal {α : Type} {transaction : Transaction α} {a : α} {pauses : Nat}
    (h : transaction.after pauses t = .ok (a, t')) : t'.refusal = t.refusal := by
  obtain ⟨changed, -, rfl⟩ := of_after_ok h
  rfl

theorem TableChange.refusal (h : TableChange operation t t') (hrefusal : t.refusal = none)
    (hfault : ¬ operation.IsFault) : t'.refusal = none := by
  cases h with
  | kept => exact hrefusal
  | inserted _ h => exact (after_refusal h).trans hrefusal
  | updated _ h => exact (after_refusal h).trans hrefusal
  | appended h => exact (after_refusal h).trans hrefusal
  | ended h => exact (after_refusal h).trans hrefusal
  | measured h hset => exact ((after_refusal hset).trans (after_refusal h)).trans hrefusal
  | indexed => exact hrefusal
  | refused => exact absurd trivial hfault
  | relented => rfl
  | scheduled => exact absurd trivial hfault

/-- No operation but a fault brings a refusal. -/
theorem run_refusal (h : s.table.refusal = none) (hfault : ¬ operation.IsFault) :
    (s.perform (run now operation)).2.table.refusal = none := by
  by_cases hordinary : operation.IsOrdinary
  · obtain ⟨nonces, table, counters, events, hrun, hchange⟩ := perform_run now hordinary s
    rw [hrun]
    exact hchange.refusal h hfault
  · cases operation with
    | rekey key => exact h
    | shutdown => exact h
    | overwrite i column v => exact absurd trivial hfault
    | _ => exact absurd trivial hordinary

theorem step_refusal (h : s.table.refusal = none) (hfault : ¬ operation.IsFault) :
    (s.step now operation).2.1.table.refusal = none :=
  run_refusal (s := { s with events := [] }) h hfault

/-! ## Ending a session -/

theorem Sound.distinct_rows (h : Sound s sessions) : s.table.rows.Pairwise (·.id ≠ ·.id) := by
  rw [h.holds]
  exact List.pairwise_map.2 h.distinct

/-- The row of an id is the open one of that id, if it is open. -/
theorem find?_isOpen {rows : List Row} (hdistinct : rows.Pairwise (·.id ≠ ·.id)) {row : Row}
    (hrow : rows.find? (·.id = id) = some row) :
    rows.find? (isOpen id) = if row.endTime.isNone then some row else none := by
  induction rows with
  | nil => cases hrow
  | cons r rows ih =>
      obtain ⟨hr, hrows⟩ := List.pairwise_cons.1 hdistinct
      by_cases hid : r.id = id
      · rw [List.find?_cons_of_pos (by simpa using hid)] at hrow
        cases hrow
        have hrest : rows.find? (isOpen id) = none := by
          refine List.find?_eq_none.2 fun r' hr' => ?_
          simp [isOpen, hid ▸ (hr r' hr').symm]
        by_cases hopen : row.endTime.isNone
        · rw [List.find?_cons_of_pos (by simp [isOpen, hid, hopen]), if_pos hopen]
        · rw [List.find?_cons_of_neg (by simp [isOpen, hopen]), if_neg hopen, hrest]
      · rw [List.find?_cons_of_neg (by simpa using hid)] at hrow
        rw [List.find?_cons_of_neg (by simp [isOpen, hid])]
        exact ih hrows hrow

/-- A session that has ended has no row to be closed. -/
theorem map_closing_of_ended {rows : List Row} (hdistinct : rows.Pairwise (·.id ≠ ·.id))
    {row : Row} (hrow : rows.find? (·.id = id) = some row) (hended : row.endTime.isNone = false)
    (finish : String) : rows.map (Row.closing id finish) = rows := by
  have hfind := find?_isOpen hdistinct hrow
  rw [hended, if_neg Bool.false_ne_true] at hfind
  refine (List.map_congr_left fun r hr => ?_).trans (List.map_id _)
  exact if_neg (List.find?_eq_none.1 hfind r hr)

/-- The end of an open session is set where only that is permitted, and a session that has
ended is found as it is. -/
theorem ending_permitted (hpermit : t.permit (.update [.endTime]) = .ok ())
    (hdistinct : t.rows.Pairwise (·.id ≠ ·.id)) {row : Row} (hrow : t.row? id = some row)
    (time : String) :
    ending id time t = .ok (⟨row.startTime, row.endTime.getD time, row.endTime.isNone⟩,
      { t with rows := t.rows.map (Row.closing id time) }) := by
  rw [ending, find?_isOpen hdistinct hrow]
  cases hend : row.endTime with
  | none =>
      rw [if_pos Option.isNone_none, setEnd, Table.update_permitted hpermit]
      rfl
  | some e =>
      rw [if_neg (by simp), hrow, map_closing_of_ended hdistinct hrow (by rw [hend]; rfl)]
      simp only [hend]
      rfl

theorem settingDuration_permitted (hpermit : t.permit (.update [.duration]) = .ok ())
    (id : String) (duration : Int64) :
    settingDuration id duration t
      = .ok ((), { t with rows := t.rows.map (Row.measuring id duration) }) := by
  rw [settingDuration, Table.update_permitted hpermit]
  simp only [decide_eq_true_eq]
  rfl

/-- Once the end is recorded and both times are read, only the duration is left to record. -/
theorem finish_permitted (hopen : s.closed = false)
    (hpermit : s.table.permit (.update [.endTime]) = .ok ())
    (hdistinct : s.table.rows.Pairwise (·.id ≠ ·.id)) (hid : id ≠ "") {row : Row}
    (hrow : s.table.row? id = some row) (time : Timestamp) {start finish : Timestamp}
    (hstart : Row.readTime row.startTime = .ok start)
    (hfinish : Row.readTime (row.endTime.getD time.toColumn) = .ok finish) :
    s.perform (Store.finish id time) = Store.perform { s with
      counters := s.counters.finishIf row.endTime.isNone
      table := { s.table with rows := s.table.rows.map (Row.closing id time.toColumn) } }
        (recordDuration id (durationSecs start finish) s.endProgress) := by
  have hending := after_zero (ending_permitted hpermit hdistinct hrow time.toColumn) rfl
  rw [perform_finish_eq, perform_bind_ok (perform_requireId_ok hid s),
    perform_bind_ok (perform_retryingFrom_ok hopen hending)]
  dsimp only
  rw [afterEnding, perform_bind_ok (perform_countEnded _ _), hstart,
    perform_bind_ok (perform_ofExcept_ok _ _), hfinish,
    perform_bind_ok (perform_ofExcept_ok _ _)]

/-- Ending a session that is there succeeds if its start and its end can be read, and
records how long it was from the one to the other. -/
theorem finish_unrefused (hopen : s.closed = false) (hrefusal : s.table.refusal = none)
    (hdistinct : s.table.rows.Pairwise (·.id ≠ ·.id)) (hid : id ≠ "") {row : Row}
    (hrow : s.table.row? id = some row) (time : Timestamp) {start finish : Timestamp}
    (hstart : Row.readTime row.startTime = .ok start)
    (hfinish : Row.readTime (row.endTime.getD time.toColumn) = .ok finish) :
    s.perform (Store.finish id time) = (.ok (), { s with
      counters := s.counters.finishIf row.endTime.isNone
      table := { s.table with
        rows := (s.table.rows.map (Row.closing id time.toColumn)).map
          (Row.measuring id (durationSecs start finish)) } }) := by
  rw [finish_permitted hopen (Table.permit_unrefused hrefusal _) hdistinct hid hrow time hstart
    hfinish]
  have hclosed : Table.permit { s.table with
      rows := s.table.rows.map (Row.closing id time.toColumn) } (.update [.duration]) = .ok () :=
    Table.permit_unrefused hrefusal _
  have hset := after_zero (settingDuration_permitted hclosed id (durationSecs start finish)) rfl
  exact perform_recordDuration_ok (perform_retryingFrom_ok hopen hset)

/-- A store that was shut down ends no session. -/
theorem finish_closed (hclosed : s.closed = true) (id : String) (time : Timestamp) :
    ∃ e events, s.perform (Store.finish id time) = (.error e, { s with events := events }) := by
  rw [perform_finish_eq]
  rcases perform_requireId id s with hrequire | ⟨e, hrequire⟩
  · have hretry := perform_retryingFrom_closed hclosed "end_session" s.endProgress
      (ending id time.toColumn)
    exact ⟨_, s.events, by rw [perform_bind_ok hrequire, perform_bind_error hretry]⟩
  · exact ⟨e, s.events, by rw [perform_bind_error hrequire]⟩

/-! ## Runs -/

/-- What a run without faults and with plain years keeps. -/
structure Unhindered (s : Store) (sessions : List StoredSession) : Prop where
  sound : Sound s sessions
  refusal : s.table.refusal = none
  plain : ∀ id, ∀ y ∈ sessionOf sessions id, y.HasPlainYears

theorem Unhindered.step (h : Unhindered s sessions) (c : Call) (hfault : ¬ c.operation.IsFault)
    (hcall : c.HasPlainYears)
    (heffect : Effect s.cipher s.nonces c.now sessions s.counters c.operation
      (s.step c.now c.operation).1 sessions' (s.step c.now c.operation).2.1.counters)
    (h' : Sound (s.step c.now c.operation).2.1 sessions') :
    Unhindered (s.step c.now c.operation).2.1 sessions' :=
  ⟨h', step_refusal h.refusal hfault, fun id =>
    (heffect.transition id).hasPlainYears hcall (h.plain id)⟩

theorem unhindered_after (settings : Settings) (cipher : ContentCipher) (nonces : Cipher.Nonces)
    {calls : List Call} (hcalls : ∀ c ∈ calls, ¬ c.operation.IsFault ∧ c.HasPlainYears) :
    ∃ sessions, Unhindered ((fresh settings cipher nonces).after calls) sessions := by
  have hfresh : Unhindered (fresh settings cipher nonces) [] :=
    ⟨sound_fresh settings cipher nonces, rfl, fun id y hy => by cases hy⟩
  obtain ⟨sessions, -, h⟩ := hfresh.sound.run (P := fun _ s sessions => Unhindered s sessions)
    (fun c hc hdirect => (hcalls c hc).1 (.of_overwrite hdirect))
    (fun c hc _ _ _ _ _ heffect h' h => h.step c (hcalls c hc).1 (hcalls c hc).2 heffect h')
    [] hfresh
  exact ⟨sessions, h⟩

end Store

end ChatArchive
