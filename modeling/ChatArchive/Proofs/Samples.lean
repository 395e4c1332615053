import ChatArchive.Proofs.Answers
import ChatArchive.Proofs.Cuts
import ChatArchive.Store.Figures
import Mathlib.Data.String.Basic

/-!
# The rows that a limit leaves

Figures are taken over the earliest rows of a window and the active sessions are the latest
of those that run, in both cases up to a limit. Either is the beginning of a sorted list, so
its rows are in order and none of them comes behind a row that was cut.
-/

namespace ChatArchive.Store

open Time

variable {start finish : Timestamp} {most : Nat} {table : Table} {s : Store} {r : Row}

theorem startsFirst_iff {a b : Row} : startsFirst a b = true ↔ a.startTime ≤ b.startTime :=
  decide_eq_true_iff

theorem startsFirst_trans (a b c : Row) (h : startsFirst a b = true)
    (h' : startsFirst b c = true) : startsFirst a c = true := by
  rw [startsFirst_iff] at h h' ⊢
  exact String.le_trans h h'

theorem startsFirst_total (a b : Row) : (startsFirst a b || startsFirst b a) = true := by
  rw [Bool.or_eq_true, startsFirst_iff, startsFirst_iff]
  exact String.le_total a.startTime b.startTime

theorem startsLast_trans (a b c : Row) (h : startsLast a b = true)
    (h' : startsLast b c = true) : startsLast a c = true := startsFirst_trans c b a h' h

theorem startsLast_total (a b : Row) : (startsLast a b || startsLast b a) = true :=
  startsFirst_total b a

/-! ## Sorted rows -/

theorem met_perm {α : Type} (indexed : Bool) (items : List α) : (met indexed items).Perm items := by
  rw [met]
  split
  · exact items.reverse_perm
  · exact .refl items

theorem met_map {α β : Type} (f : α → β) (indexed : Bool) (items : List α) :
    met indexed (items.map f) = (met indexed items).map f := by
  rw [met, met, apply_ite (List.map f), List.map_reverse]

theorem windowRows_perm (start finish : Timestamp) (table : Table) :
    (windowRows start finish table).Perm (table.rows.filter (startsIn start finish)) :=
  (List.mergeSort_perm _ _).trans (met_perm _ _)

/-- Index or not, tokens are added of the rows of the window. -/
theorem summedRows_perm (start finish : Timestamp) (table : Table) :
    (summedRows start finish table).Perm (table.rows.filter (startsIn start finish)) := by
  rw [summedRows]
  split
  · exact List.mergeSort_perm _ _
  · exact .refl _

theorem mem_windowRows :
    r ∈ windowRows start finish table ↔ r ∈ table.rows ∧ startsIn start finish r = true := by
  rw [(windowRows_perm start finish table).mem_iff, List.mem_filter]

theorem windowRows_pairwise (start finish : Timestamp) (table : Table) :
    (windowRows start finish table).Pairwise fun a b => a.startTime ≤ b.startTime :=
  (List.pairwise_mergeSort startsFirst_trans startsFirst_total _).imp startsFirst_iff.1

/-- The rows of sessions that run, the latest first. -/
def openRows (table : Table) : List Row :=
  (table.rows.filter (·.endTime.isNone)).mergeSort startsLast

theorem activeRows_eq (s : Store) :
    s.activeRows = (openRows s.table).take s.settings.listing.maxLimit.toNat := rfl

theorem mem_openRows : r ∈ openRows table ↔ r ∈ table.rows ∧ r.endTime = none := by
  rw [openRows, List.mem_mergeSort, List.mem_filter, Option.isNone_iff_eq_none]

theorem openRows_pairwise (table : Table) :
    (openRows table).Pairwise fun a b => b.startTime ≤ a.startTime :=
  (List.pairwise_mergeSort startsLast_trans startsLast_total _).imp startsFirst_iff.1

/-! ## Figures -/

/-- The sessions that the figures of a window are taken over. -/
def sample (s : Store) (start finish : Timestamp) : List Row :=
  scanned start finish (max s.settings.metrics.maxScan 1).toNat s.table

/-- The figures of a window. -/
def figuresOf (s : Store) (start finish : Timestamp) : Except DatabaseError MetricsReport :=
  windowReport start finish (max s.settings.metrics.maxScan 1).toNat s.table

theorem toNat_most (n : UInt32) : (max n 1).toNat = max n.toNat 1 := by
  show (if n ≤ 1 then 1 else n).toNat = _
  rw [apply_ite UInt32.toNat, Nat.max_def]
  rfl

/-- At least one session is looked at. -/
theorem one_le_most (n : UInt32) : 1 ≤ (max n 1).toNat := by
  rw [toNat_most]
  exact Nat.le_max_right _ _

/-- A sample is never longer than a 32-bit limit. -/
theorem length_sample_lt (s : Store) (start finish : Timestamp) :
    (s.sample start finish).length < 4294967296 :=
  Nat.lt_of_le_of_lt (List.length_take_le _ _) (max s.settings.metrics.maxScan 1).toNat_lt

/-- Figures are told exactly if the window is not inverted and they are found. -/
theorem answers_metrics {figures : MetricsReport} :
    Answers (metrics start finish) s figures ↔ s.closed = false ∧ ¬ finish < start ∧
      s.figuresOf start finish = .ok figures := by
  rw [metrics, validateRange]
  by_cases hrange : finish < start
  · rw [if_pos hrange, Answers, perform_bind_error (perform_ofExcept_error _ _)]
    exact iff_of_false (fun h => (by cases h)) fun h => h.2.1 hrange
  · rw [if_neg hrange, Answers, perform_bind_ok (perform_ofExcept_ok _ _),
      perform_bind_ok (perform_getThe s)]
    show Answers (asking _ _ _ >>= _) s figures ↔ _
    rw [answers_bind (Quiet.asking _ _ _)]
    have htold : ∀ (found : MetricsReport) (events : List Event),
        Answers (do
            if found.truncated then
              report (truncationEvent start finish (max s.settings.metrics.maxScan 1))
            pure found) { s with events := events } figures ↔ found = figures := by
      intro found events
      cases found.truncated with
      | false => exact answers_pure
      | true =>
          show Answers (report _ >>= fun _ => pure found) _ _ ↔ _
          rw [Answers, perform_bind_ok (perform_report _ _)]
          exact answers_pure
    constructor
    · intro h'
      obtain ⟨found, events, hask, h⟩ := h'
      obtain ⟨hopen, hfound⟩ := (answers_asking fun _ _ => rfl).1 (by rw [Answers, hask])
      rw [← (htold found events).1 h]
      exact ⟨hopen, hrange, hfound⟩
    · intro h'
      obtain ⟨hopen, -, hfound⟩ := h'
      exact ⟨figures, s.events, perform_asking_ok hopen hfound, (htold _ _).2 rfl⟩

theorem step_metrics_ok {now : Timestamp} {answer : Answer} :
    (s.step now (.metrics start finish)).1 = .ok answer ↔ s.closed = false ∧ ¬ finish < start ∧
      ∃ figures, s.figuresOf start finish = .ok figures ∧ .report figures = answer := by
  rw [step_eq_ok, run, answers_map (Quiet.metrics start finish)]
  constructor
  · intro h'
    obtain ⟨figures, h, rfl⟩ := h'
    obtain ⟨hopen, hrange, h⟩ := answers_metrics.1 h
    exact ⟨hopen, hrange, figures, h, rfl⟩
  · intro h'
    obtain ⟨hopen, hrange, figures, h, rfl⟩ := h'
    exact ⟨figures, answers_metrics.2 ⟨hopen, hrange, h⟩, rfl⟩

end ChatArchive.Store
