import ChatArchive.Proofs.Answers
import ChatArchive.Proofs.Runs
import Mathlib.Data.String.Basic

/-!
# The page of a query

Looking into the messages of a stored session never fails, so the page of a query is a
plain list operation on the stored sessions: filter, sort, cut. Sort values are in a total
order, with missing texts before all others, and ids break ties, so the order of a page is
total as well.
-/

namespace ChatArchive.Store

variable {sessions : List StoredSession}

/-- A stored session with what a listing takes from its messages. -/
def listed (x : StoredSession) : ListedRow :=
  ⟨Row.ofStored x, x.messages.length,
    (x.messages.getLast?.map fun m => String.ofList m.time.shortText).getD x.startTime.toColumn⟩

theorem listedRow_ofStored (x : StoredSession) : listedRow (Row.ofStored x) = .ok (listed x) := by
  refine Except.bind_eq_ok.2 ⟨_, MessageColumn.tree_text x.messages, ?_⟩
  rw [MessageColumn.count_text, MessageColumn.lastTime?_text]
  rfl

/-- The value of a stored session under a sort key. -/
def sortValueOf (key : SortKey) (x : StoredSession) : SortValue :=
  match key with
  | .startTime => .text (some x.startTime.toColumn)
  | .endTime => .text (x.endTime.map Time.Timestamp.toColumn)
  | .messageCount => .integer x.messages.length
  | .totalTokens => .integer (Row.storedTokens x.totalTokens).toInt
  | .userId => .text (some x.userId)

theorem sortValue_eq (key : SortKey) (x : StoredSession) :
    sortValue key (Row.ofStored x) = .ok (sortValueOf key x) := by
  cases key with
  | messageCount =>
      refine Except.bind_eq_ok.2 ⟨_, MessageColumn.tree_text x.messages, ?_⟩
      rw [MessageColumn.count_text]
      rfl
  | _ => rfl

/-- The row of a stored session with its sort value. -/
def keyed (q : ListQuery) (x : StoredSession) : SortValue × Row :=
  (sortValueOf q.sortKey x, Row.ofStored x)

/-- Whether a stored session comes before another on the pages of a query. -/
def listsBefore (q : ListQuery) (x y : StoredSession) : Bool :=
  precedes q.direction (keyed q x) (keyed q y)

/-- The stored sessions that a query selects, in the order of its pages. -/
def sortedFor (q : ListQuery) (sessions : List StoredSession) : List StoredSession :=
  (sessions.filter fun x => selects q (Row.ofStored x)).mergeSort (listsBefore q)

/-- No session is selected twice, in whatever order. -/
theorem distinct_sorted (h : sessions.Pairwise (·.id ≠ ·.id)) (p : StoredSession → Bool)
    (le : StoredSession → StoredSession → Bool) :
    ((sessions.filter p).mergeSort le).Pairwise (·.id ≠ ·.id) :=
  (List.mergeSort_perm _ _).symm.pairwise (h.sublist List.filter_sublist) fun hne => hne.symm

/-- The page of a table that holds sessions. -/
theorem page_of_holds {table : Table} (h : table.Holds sessions) (q : ListQuery) (size : Nat) :
    page q size table
      = .ok ((((sortedFor q sessions).drop q.offset.toNat).take size).map listed) := by
  have hrows : table.rows.filter (selects q)
      = (sessions.filter fun x => selects q (Row.ofStored x)).map Row.ofStored := by
    rw [show table.rows = sessions.map Row.ofStored from h, List.filter_map]
    rfl
  have hsorted : ((sessions.filter fun x => selects q (Row.ofStored x)).map
      (keyed q)).mergeSort (precedes q.direction) = (sortedFor q sessions).map (keyed q) := by
    rw [sortedFor, List.map_mergeSort]
    exact fun x _ y _ => rfl
  refine Except.bind_eq_ok.2 ⟨(sessions.filter fun x => selects q (Row.ofStored x)).map
    (keyed q), mapM_eq_ok.2 ?_, ?_⟩
  · rw [hrows, List.forall₂_map_left_iff, List.forall₂_map_right_iff, List.forall₂_same]
    intro x hx
    exact Except.bind_eq_ok.2 ⟨_, sortValue_eq q.sortKey x, rfl⟩
  · dsimp only
    rw [hsorted, ← List.map_drop, ← List.map_take]
    refine mapM_eq_ok.2 ?_
    rw [List.forall₂_map_left_iff, List.forall₂_map_right_iff, List.forall₂_same]
    intro x hx
    exact listedRow_ofStored x

/-! ## The order of a page -/

theorem compare_text (a b : Option String) :
    SortValue.compare (.text a) (.text b) = Ord.compare a b := by
  cases a <;> cases b <;> rfl

theorem compare_text_integer (a : Option String) (i : Int) :
    SortValue.compare (.text a) (.integer i) = .gt := by
  cases a <;> rfl

theorem compare_integer_text (i : Int) (a : Option String) :
    SortValue.compare (.integer i) (.text a) = .lt := by
  cases a <;> rfl

theorem compare_integer (i j : Int) :
    SortValue.compare (.integer i) (.integer j) = Ord.compare i j := rfl

/-- Sort values are in a total order: integers, no text, texts. -/
instance : Std.TransCmp SortValue.compare where
  eq_swap {a b} := by
    cases a with
    | text a =>
        cases b with
        | text b =>
            rw [compare_text, compare_text]
            exact Std.OrientedCmp.eq_swap
        | integer j => rw [compare_text_integer, compare_integer_text]; rfl
    | integer i =>
        cases b with
        | text b => rw [compare_text_integer, compare_integer_text]; rfl
        | integer j =>
            rw [compare_integer, compare_integer]
            exact Std.OrientedCmp.eq_swap
  isLE_trans {a b c} hab hbc := by
    cases a with
    | text a =>
        cases b with
        | integer j => rw [compare_text_integer] at hab; cases hab
        | text b =>
            cases c with
            | integer k => rw [compare_text_integer] at hbc; cases hbc
            | text c =>
                rw [compare_text] at hab hbc ⊢
                exact Std.TransCmp.isLE_trans hab hbc
    | integer i =>
        cases c with
        | text c => rw [compare_integer_text]; rfl
        | integer k =>
            cases b with
            | text b => rw [compare_text_integer] at hbc; cases hbc
            | integer j =>
                rw [compare_integer] at hab hbc ⊢
                exact Std.TransCmp.isLE_trans hab hbc

/-- Sort values in a direction. -/
def compareIn : Direction → SortValue → SortValue → Ordering
  | .ascending, a, b => a.compare b
  | .descending, a, b => b.compare a

instance (direction : Direction) : Std.TransCmp (compareIn direction) := by
  cases direction with
  | ascending => exact inferInstanceAs (Std.TransCmp SortValue.compare)
  | descending => exact @Std.TransCmp.opposite _ SortValue.compare _

theorem transCmp_on {α β : Type} (cmp : β → β → Ordering) [Std.TransCmp cmp] (f : α → β) :
    Std.TransCmp fun a b => cmp (f a) (f b) where
  eq_swap := Std.OrientedCmp.eq_swap
  isLE_trans := Std.TransCmp.isLE_trans

/-- Rows are compared by their sort values and then by their ids. -/
def comparePairs (direction : Direction) : SortValue × Row → SortValue × Row → Ordering :=
  compareLex (fun a b => compareIn direction a.1 b.1) fun a b => Ord.compare a.2.id b.2.id

instance (direction : Direction) : Std.TransCmp (comparePairs direction) :=
  have := transCmp_on (compareIn direction) (Prod.fst : SortValue × Row → SortValue)
  have := transCmp_on (Ord.compare : String → String → Ordering)
    fun a : SortValue × Row => a.2.id
  inferInstanceAs (Std.TransCmp (compareLex _ _))

theorem precedes_eq (direction : Direction) (a b : SortValue × Row) :
    precedes direction a b = (comparePairs direction a b).isLE := by
  have hids : decide (a.2.id ≤ b.2.id) = (Ord.compare a.2.id b.2.id).isLE := by
    rw [Bool.eq_iff_iff, decide_eq_true_eq]
    exact Std.LawfulLECmp.isLE_iff_le.symm
  cases direction with
  | ascending =>
      rw [precedes, comparePairs, compareLex, compareIn]
      cases a.1.compare b.1 with
      | lt => rfl
      | gt => rfl
      | eq => exact hids
  | descending =>
      rw [precedes, comparePairs, compareLex, compareIn]
      cases b.1.compare a.1 with
      | lt => rfl
      | gt => rfl
      | eq => exact hids

theorem sortedFor_pairwise (q : ListQuery) (sessions : List StoredSession) :
    (sortedFor q sessions).Pairwise fun x y => listsBefore q x y = true := by
  refine List.pairwise_mergeSort (fun x y z hxy hyz => ?_) (fun x y => ?_) _
  · rw [listsBefore, precedes_eq] at hxy hyz ⊢
    exact Std.TransCmp.isLE_trans hxy hyz
  · have hswap : comparePairs q.direction (keyed q y) (keyed q x)
        = (comparePairs q.direction (keyed q x) (keyed q y)).swap := Std.OrientedCmp.eq_swap
    rw [listsBefore, listsBefore, precedes_eq, precedes_eq, hswap]
    cases comparePairs q.direction (keyed q x) (keyed q y) <;> rfl

theorem mem_sortedFor {q : ListQuery} {x : StoredSession} :
    x ∈ sortedFor q sessions ↔ x ∈ sessions ∧ selects q (Row.ofStored x) = true := by
  rw [sortedFor, (List.mergeSort_perm _ _).mem_iff, List.mem_filter]

end ChatArchive.Store
