import ChatArchive.Proofs.Runs

/-!
# What operations do to a table

Whatever a table holds, an operation leaves it as it was or changes it by its own
transaction: nothing else in an operation touches the table. `TableChange` lists the
transactions, and what each of them leaves alone is then proved once for it and holds of
every operation and, by induction, of every run.

No transaction looks beyond the rows of its id. So the row of an id is the same before
and after a run of ordinary calls that are all about other ids, also in a table that
holds what no operation has written.
-/

namespace ChatArchive

open Time

namespace Store

/-- How an operation that does not write past the transactions changes a table. -/
inductive TableChange : Operation → Table → Table → Prop
  | kept (operation : Operation) (t : Table) : TableChange operation t t
  | inserted {session : Session} {row : Row} {pauses : Nat} {t t' : Table}
      (hid : row.id = session.id) (h : (insertion row).after pauses t = .ok ((), t')) :
      TableChange (.create session) t t'
  | updated {session : Session} {row : Row} {ended : Bool} {pauses : Nat} {t t' : Table}
      (hid : row.id = session.id) (h : (updating row).after pauses t = .ok (ended, t')) :
      TableChange (.update session) t t'
  | appended {id time : String} {message : Message} {stored : StoredMessage} {n pauses : Nat}
      {t t' : Table} (h : (appending id stored time).after pauses t = .ok (n, t')) :
      TableChange (.addMessage id message) t t'
  | ended {id : String} {time : Timestamp} {found : Ending} {pauses : Nat} {t t' : Table}
      (h : (ending id time.toColumn).after pauses t = .ok (found, t')) :
      TableChange (.finish id time) t t'
  | measured {id : String} {time : Timestamp} {found : Ending} {duration : Int64}
      {pauses pauses' : Nat} {t t' t'' : Table}
      (h : (ending id time.toColumn).after pauses t = .ok (found, t'))
      (hset : (settingDuration id duration).after pauses' t' = .ok ((), t'')) :
      TableChange (.finish id time) t t''
  | indexed (t : Table) : TableChange .ensureIndexes t t.ensureIndexes
  | refused (refusal : Refusal) (t : Table) :
      TableChange (.refuse refusal) t (t.refusing (some refusal))
  | relented (t : Table) : TableChange .relent t (t.refusing none)
  | scheduled (refusals : List (Option Refusal)) (t : Table) :
      TableChange (.schedule refusals) t { t with scheduled := refusals }

variable {s : Store} {t t' : Table} {id : String} {now : Timestamp} {operation : Operation}

/-! ## Operations change a table by their transactions -/

/-- An answer that is given in the end changes nothing more. -/
theorem perform_then {α β : Type} (x : Action α) (b : β) (s : Store) :
    (s.perform (x >>= fun _ => pure b)).2 = (s.perform x).2 := by
  rcases h : s.perform x with ⟨_ | a, s'⟩
  · rw [perform_bind_error h]
  · rw [perform_bind_ok h, perform_pure]

/-- An ordinary operation changes the table and leaves the key and the database alone. -/
theorem perform_run (now : Timestamp) (hordinary : operation.IsOrdinary) (s : Store) :
    ∃ nonces table counters events, (s.perform (run now operation)).2
        = { s with nonces := nonces, table := table, counters := counters, events := events } ∧
      TableChange operation s.table table := by
  by_cases hreads : operation.Reads
  · obtain ⟨answer, events, h⟩ := Quiet.run hreads now s
    rw [h]
    exact ⟨s.nonces, s.table, s.counters, events, rfl, .kept _ _⟩
  cases operation with
  | create session =>
      rw [run, perform_then]
      rcases perform_create now session s with
        ⟨stored, pauses, table, nonces, events, hstored, -, hinsert, h⟩ | ⟨e, nonces, events, h⟩ <;>
        rw [h]
      · exact ⟨nonces, table, _, events, rfl, .inserted hstored.storedAs.id hinsert⟩
      · exact ⟨nonces, s.table, s.counters, events, rfl, .kept _ _⟩
  | update session =>
      rw [run, perform_then]
      rcases perform_update now session s with
        ⟨stored, ended, pauses, table, nonces, events, hstored, -, hupdate, h⟩ |
          ⟨e, nonces, events, h⟩ <;>
        rw [h]
      · exact ⟨nonces, table, _, events, rfl, .updated hstored.storedAs.id hupdate⟩
      · exact ⟨nonces, s.table, s.counters, events, rfl, .kept _ _⟩
  | addMessage i message =>
      rw [run, perform_then]
      rcases perform_addMessage now i message s with
        ⟨stored, n, pauses, table, nonces, events, -, happend, h⟩ | ⟨e, nonces, events, h⟩ <;>
        rw [h]
      · exact ⟨nonces, table, s.counters, events, rfl, .appended happend⟩
      · exact ⟨nonces, s.table, s.counters, events, rfl, .kept _ _⟩
  | finish i time =>
      rw [run, perform_then]
      rcases perform_finish i time s with
        ⟨found, pauses, table, hend, answer, events, table', h, htable⟩ | ⟨e, events, h⟩ <;> rw [h]
      · refine ⟨s.nonces, table', _, events, rfl, ?_⟩
        rcases htable with rfl | ⟨duration, pauses', hset⟩
        · exact .ended hend
        · exact .measured hend hset
      · exact ⟨s.nonces, s.table, s.counters, events, rfl, .kept _ _⟩
  | ensureIndexes =>
      rw [run, perform_then, ensureIndexes]
      rcases perform_retrying "ensure_indexes" (·.indexSecs)
        (fun table => .ok ((), table.ensureIndexes)) s with
        ⟨u, pauses, table, events, -, hindex, h⟩ | ⟨e, events, h⟩
      · cases hindex
        rw [perform_bind_ok h, perform_report]
        exact ⟨s.nonces, _, s.counters, _, rfl, .indexed _⟩
      · rw [perform_bind_error h]
        exact ⟨s.nonces, s.table, s.counters, events, rfl, .kept _ _⟩
  | refuse refusal => exact ⟨s.nonces, _, s.counters, s.events, rfl, .refused refusal _⟩
  | relent => exact ⟨s.nonces, _, s.counters, s.events, rfl, .relented _⟩
  | schedule refusals => exact ⟨s.nonces, _, s.counters, s.events, rfl, .scheduled refusals _⟩
  | rekey key => exact hordinary.elim
  | shutdown => exact hordinary.elim
  | overwrite i column v => exact hordinary.elim
  | _ => exact absurd trivial hreads

/-! ## The rows of other ids -/

/-- A row and what has become of it: it has the same id, and if it is the row of this id
it is the same altogether. -/
def Beside (id : String) (row row' : Row) : Prop := row'.id = row.id ∧ (row.id = id → row' = row)

theorem find?_of_beside {rows rows' : List Row} (h : List.Forall₂ (Beside id) rows rows') :
    rows'.find? (·.id = id) = rows.find? (·.id = id) := by
  induction h with
  | nil => rfl
  | @cons row row' rows rows' hrow _ ih =>
      by_cases hid : row.id = id
      · rw [hrow.2 hid, List.find?_cons_of_pos (by simpa using hid),
          List.find?_cons_of_pos (by simpa using hid)]
      · have hid' : ¬ row'.id = id := by rwa [hrow.1]
        rw [List.find?_cons_of_neg (by simpa using hid'),
          List.find?_cons_of_neg (by simpa using hid), ih]

/-- A statement that selects rows of other ids and leaves them theirs. -/
theorem update_beside {columns : List Column} {select : Row → Bool}
    {change : Row → Except DatabaseError Row} {n : Nat}
    (h : t.update columns select change = .ok (n, t'))
    (hselect : ∀ row, select row = true → row.id ≠ id)
    (hchange : ∀ row row', change row = .ok row' → row'.id = row.id) :
    t'.row? id = t.row? id := by
  obtain ⟨-, rows, rfl, hrows⟩ := Table.update_rows h
  refine find?_of_beside (hrows.imp fun row row' hrow => ?_)
  split at hrow
  · next hpick =>
      exact ⟨hchange row row' hrow, fun hid => absurd hid (hselect row hpick)⟩
  · rw [hrow]
    exact ⟨rfl, fun _ => rfl⟩

theorem id_appendedRow {m : Json} {time : String} {row row' : Row}
    (h : appendedRow m time row = .ok row') : row'.id = row.id := by
  obtain ⟨tree, -, h⟩ := Except.bind_eq_ok.1 h
  cases h
  rfl

variable {i : String} (hne : i ≠ id)

include hne

theorem insertion_beside {row : Row} {u : Unit} (hid : row.id = i)
    (h : insertion row t = .ok (u, t')) : t'.row? id = t.row? id := by
  rw [insertion] at h
  split at h
  · next table hinsert =>
      cases h
      have hrow : ¬ row.id = id := by rwa [hid]
      rw [Table.row?, (Table.insert_ok hinsert).2, List.find?_append,
        List.find?_cons_of_neg (by simpa using hrow), List.find?_nil, Option.or_none]
      rfl
  · cases h

theorem setEnd_beside {finish : String} {n : Nat} (h : setEnd t i finish = .ok (n, t')) :
    t'.row? id = t.row? id := by
  refine update_beside h (fun row hrow hid => hne ?_) (fun row row' hrow => ?_)
  · rw [isOpen, Bool.and_eq_true] at hrow
    exact (of_decide_eq_true hrow.1).symm.trans hid
  · cases hrow
    rfl

theorem updating_beside {new : Row} {ended : Bool} (hid : new.id = i)
    (h : updating new t = .ok (ended, t')) : t'.row? id = t.row? id := by
  rw [updating] at h
  split at h
  · cases h
  · cases h
  · next n table hn hupdate =>
      have hfirst : table.row? id = t.row? id := by
        refine update_beside hupdate (fun row hrow hrid => hne ?_) (fun row row' hrow => ?_)
        · rw [← hid, ← of_decide_eq_true hrow, hrid]
        · cases hrow
          rfl
      split at h
      · cases h
        exact hfirst
      · split at h
        · cases h
        · next hset =>
            cases h
            rw [hid] at hset
            exact (setEnd_beside hne hset).trans hfirst

theorem appending_beside {m : StoredMessage} {time : String} {n : Nat}
    (h : appending i m time t = .ok (n, t')) : t'.row? id = t.row? id := by
  rw [appending] at h
  split at h
  · next hupdate =>
      cases h
      refine update_beside hupdate (fun row hrow hid => hne ?_) fun _ _ => id_appendedRow
      exact (of_decide_eq_true hrow).symm.trans hid
  · cases h

theorem ending_beside {time : String} {found : Ending} (h : ending i time t = .ok (found, t')) :
    t'.row? id = t.row? id := by
  rw [ending] at h
  split at h
  · split at h
    · next hset =>
        cases h
        exact setEnd_beside hne hset
    · cases h
  · split at h <;> cases h
    rfl

theorem settingDuration_beside {duration : Int64} {u : Unit}
    (h : settingDuration i duration t = .ok (u, t')) : t'.row? id = t.row? id := by
  rw [settingDuration] at h
  split at h
  · next hupdate =>
      cases h
      refine update_beside hupdate (fun row hrow hid => hne ?_) (fun row row' hrow => ?_)
      · exact (of_decide_eq_true hrow).symm.trans hid
      · cases hrow
        rfl
  · cases h

omit hne

/-- The refusal of the moment is not a matter of rows. -/
theorem after_beside {α : Type} {transaction : Transaction α} {a : α} {pauses : Nat}
    (h : transaction.after pauses t = .ok (a, t'))
    (hbeside : ∀ {t t' : Table}, transaction t = .ok (a, t') → t'.row? id = t.row? id) :
    t'.row? id = t.row? id := by
  obtain ⟨changed, hchanged, rfl⟩ := of_after_ok h
  have hrow := hbeside hchanged
  exact hrow

theorem TableChange.row? (h : TableChange operation t t') (htarget : operation.target? ≠ some id) :
    t'.row? id = t.row? id := by
  cases h with
  | kept => rfl
  | inserted hid h =>
      exact after_beside h (insertion_beside (fun hi => htarget (congrArg some hi)) hid)
  | updated hid h =>
      exact after_beside h (updating_beside (fun hi => htarget (congrArg some hi)) hid)
  | appended h => exact after_beside h (appending_beside fun hi => htarget (congrArg some hi))
  | ended h => exact after_beside h (ending_beside fun hi => htarget (congrArg some hi))
  | measured h hset =>
      have hne := fun hi => htarget (congrArg some hi)
      exact (after_beside hset (settingDuration_beside hne)).trans
        (after_beside h (ending_beside hne))
  | indexed => rfl
  | refused => rfl
  | relented => rfl
  | scheduled => rfl

/-! ## Runs on other ids -/

/-- What a run that is about other ids leaves to an id. -/
structure SameFor (id : String) (s s' : Store) : Prop where
  row : s'.table.row? id = s.table.row? id
  cipher : s'.cipher = s.cipher
  closed : s'.closed = s.closed

theorem sameFor_step (s : Store) (now : Timestamp) (hordinary : operation.IsOrdinary)
    (htarget : operation.target? ≠ some id) : SameFor id s (s.step now operation).2.1 := by
  obtain ⟨nonces, table, counters, events, h, hchange⟩ :=
    perform_run now hordinary { s with events := [] }
  have hstep : (s.step now operation).2.1
      = { s with nonces := nonces, table := table, counters := counters, events := [] } := by
    show ({ (Store.perform { s with events := [] } (run now operation)).2 with
      events := [] } : Store) = _
    rw [h]
  rw [hstep]
  exact ⟨hchange.row? htarget, rfl, rfl⟩

/-- A run that is about other ids leaves the row of an id, the key and the database as they
were. -/
theorem sameFor_after (s : Store) {calls : List Call}
    (hcalls : ∀ c ∈ calls, c.operation.IsOrdinary ∧ c.operation.target? ≠ some id) :
    SameFor id s (s.after calls) := by
  induction calls generalizing s with
  | nil => exact ⟨rfl, rfl, rfl⟩
  | cons c calls ih =>
      obtain ⟨hordinary, htarget⟩ := hcalls c List.mem_cons_self
      have hstep := sameFor_step s c.now hordinary htarget
      have hrest := ih (s.step c.now c.operation).2.1
        fun d hd => hcalls d (List.mem_cons_of_mem c hd)
      exact ⟨hrest.row.trans hstep.row, hrest.cipher.trans hstep.cipher,
        hrest.closed.trans hstep.closed⟩

end Store

end ChatArchive
