import ChatArchive.Proofs.ByteOrder
import ChatArchive.Proofs.Pages
import ChatArchive.Proofs.Samples
import ChatArchive.Proofs.TimeOrder
import ChatArchive.Store.Writing

/-!
# Statements compare instants by their columns

A column of a plain year has thirty characters, all of them ASCII, holds its instant and
compares with other columns as the instants do. Everything that a statement decides by
comparing columns is therefore decided by the instants: which rows a listing or a window
takes, how listings are sorted, which rows a limit leaves, and whether an update moves the
last activity.
-/

namespace ChatArchive

open Text Time

/-! ## The length of a column -/

namespace Text

/-- A layout has its digits and its marks in it. -/
theorem mem_layout {fields : List (Nat × Char)} {ns : List Nat} {c : Char}
    (h : c ∈ layout fields ns) : isDigit c = true ∨ c ∈ fields.map (·.2) := by
  induction fields generalizing ns with
  | nil => cases h
  | cons f fields ih =>
      cases ns with
      | nil => cases h
      | cons n ns =>
          rw [layout, List.mem_append, List.mem_cons] at h
          rw [List.map_cons, List.mem_cons]
          rcases h with hdigit | hmark | hrest
          · exact Or.inl (isDigit_of_mem_fixedDigits hdigit)
          · exact Or.inr (Or.inl hmark)
          · exact (ih hrest).imp id Or.inr

/-- A text of ASCII characters has as many bytes. -/
theorem length_utf8 {s : String} (h : ∀ c ∈ s.toList, c.toNat ≤ 127) :
    (utf8 s).length = s.length := by
  rw [utf8_eq_flatMap, ← String.length_toList]
  generalize s.toList = cs at h
  induction cs with
  | nil => rfl
  | cons c cs ih =>
      have hc : following c.toNat = 0 := if_pos (h c List.mem_cons_self)
      rw [List.flatMap_cons, List.length_append, utf8EncodeChar_eq, hc,
        ih fun d hd => h d (List.mem_cons_of_mem c hd), List.length_cons, continuation,
        List.length_nil, List.length_cons]
      omega

end Text

namespace Time.Timestamp

variable {t u : Timestamp}

theorem length_toColumn (h : t.HasPlainYear) : t.toColumn.length = 30 := by
  rw [toColumn, String.length_ofList, columnText_eq_layout h]
  simp only [columnLayout, fields, layout, List.length_append, List.length_cons,
    List.length_nil, length_fixedDigits]

theorem length_utf8_toColumn (h : t.HasPlainYear) : (utf8 t.toColumn).length = 30 := by
  rw [length_utf8, length_toColumn h]
  intro c hc
  rw [toColumn, String.toList_ofList, columnText_eq_layout h] at hc
  rcases mem_layout hc with hdigit | hmark
  · have key : ['0', '1', '2', '3', '4', '5', '6', '7', '8', '9'].all (·.toNat ≤ 127) := by decide
    exact of_decide_eq_true (List.all_eq_true.1 key c (isDigit_cases hdigit))
  · have key : (columnLayout.map (·.2)).all (·.toNat ≤ 127) := by decide
    exact of_decide_eq_true (List.all_eq_true.1 key c hmark)

/-- Different instants have different columns, in whatever years. -/
theorem toColumn_injective : Function.Injective toColumn := by
  intro t u h
  have ht : parseRelaxed t.columnText = .ok t :=
    t.parseRelaxed_text t.writesFraction_nanosText
  have hu : parseRelaxed u.columnText = .ok u :=
    u.parseRelaxed_text u.writesFraction_nanosText
  rw [String.ofList_injective h, hu] at ht
  exact (Except.ok.inj ht).symm

end Time.Timestamp

/-! ## What columns decide -/

/-- A row holds an instant in the column that a sort key looks at. -/
def SortKey.Holds : SortKey → Row → Timestamp → Prop
  | .startTime, row, t => row.startTime = t.toColumn
  | .endTime, row, t => row.endTime = some t.toColumn
  | _, _, _ => False

/-- What comes before in a direction. -/
def Direction.Less {α : Type} [LT α] : Direction → α → α → Prop
  | .ascending, a, b => a < b
  | .descending, a, b => b < a

namespace Store

/-- What statements decide about rows that hold two instants is decided by the instants. -/
structure Decides (a b : Timestamp) : Prop where
  startFrom : ∀ (q : ListQuery) (row : Row), row.startTime = b.toColumn →
    (selects { q with startFrom := some a } row = true ↔
      selects { q with startFrom := none } row = true ∧ a ≤ b)
  startTo : ∀ (q : ListQuery) (row : Row), row.startTime = a.toColumn →
    (selects { q with startTo := some b } row = true ↔
      selects { q with startTo := none } row = true ∧ a ≤ b)
  sorting : ∀ (key : SortKey) (direction : Direction) (r r' : Row),
    key.Holds r a → key.Holds r' b →
    ∃ v v', sortValue key r = .ok v ∧ sortValue key r' = .ok v' ∧
      (precedes direction (v, r) (v', r') = true ↔
        direction.Less a b ∨ a = b ∧ r.id ≤ r'.id)
  windowStart : ∀ (finish : Timestamp) (row : Row), row.startTime = b.toColumn →
    (startsIn a finish row = true ↔ a ≤ b ∧ row.startTime ≤ finish.toColumn)
  windowFinish : ∀ (start : Timestamp) (row : Row), row.startTime = a.toColumn →
    (startsIn start b row = true ↔ start.toColumn ≤ row.startTime ∧ a ≤ b)
  sampled : ∀ (start finish : Timestamp) (most : Nat) (table : Table) (r r' : Row),
    r.startTime = a.toColumn → r'.startTime = b.toColumn →
    [r, r'].Sublist (scanned start finish most table) → a ≤ b
  sampleCut : ∀ (start finish : Timestamp) (most : Nat) (table : Table) (r r' : Row),
    r.startTime = a.toColumn → r'.startTime = b.toColumn →
    r ∈ scanned start finish most table → r' ∈ table.rows → startsIn start finish r' = true →
    r' ∉ scanned start finish most table → a ≤ b
  active : ∀ (s : Store) (r r' : Row), r.startTime = a.toColumn → r'.startTime = b.toColumn →
    [r', r].Sublist s.activeRows → a ≤ b
  activeCut : ∀ (s : Store) (r r' : Row), r.startTime = a.toColumn →
    r'.startTime = b.toColumn → r' ∈ s.activeRows → r ∈ s.table.rows → r.endTime = none →
    r ∉ s.activeRows → a ≤ b
  lastActivity : ∀ old new : Row, old.lastActivity = some a.toColumn →
    new.lastActivity = some b.toColumn →
    (updatedRow new old).lastActivity = some (if a < b then b else a).toColumn

variable {a b : Timestamp}

/-- Rows with texts as their sort values are sorted by the texts, then by id. -/
theorem precedes_texts (direction : Direction) (x y : String) (r r' : Row) :
    precedes direction (.text (some x), r) (.text (some y), r') = true ↔
      direction.Less x y ∨ x = y ∧ r.id ≤ r'.id := by
  have hlt : ∀ {x y : String}, Ord.compare x y = .lt ↔ x < y := Std.LawfulLTCmp.eq_lt_iff_lt
  have heq : ∀ {x y : String}, Ord.compare x y = .eq ↔ x = y :=
    Std.LawfulEqCmp.compare_eq_iff_eq
  rw [precedes_eq, comparePairs, compareLex, Ordering.isLE_then_iff_or,
    Std.LawfulLECmp.isLE_iff_le]
  cases direction with
  | ascending =>
      rw [compareIn, compare_text]
      exact or_congr hlt (and_congr_left' heq)
  | descending =>
      rw [compareIn, compare_text]
      exact or_congr hlt (and_congr_left' (heq.trans eq_comm))

theorem less_columns (ha : a.HasPlainYear) (hb : b.HasPlainYear) (direction : Direction) :
    direction.Less a.toColumn b.toColumn ↔ direction.Less a b := by
  cases direction with
  | ascending => exact Timestamp.toColumn_lt_iff ha hb
  | descending => exact Timestamp.toColumn_lt_iff hb ha

theorem decides (ha : a.HasPlainYear) (hb : b.HasPlainYear) : Decides a b where
  startFrom q row hrow := by
    simp only [selects, Bool.and_eq_true, Option.all_some, Option.all_none, hrow,
      decide_eq_true_eq, Timestamp.toColumn_le_iff ha hb]
    tauto
  startTo q row hrow := by
    simp only [selects, Bool.and_eq_true, Option.all_some, Option.all_none, hrow,
      decide_eq_true_eq, Timestamp.toColumn_le_iff ha hb]
    tauto
  sorting key direction r r' hr hr' := by
    refine ⟨.text (some a.toColumn), .text (some b.toColumn), ?_, ?_, ?_⟩
    · cases key with
      | startTime => rw [sortValue, show r.startTime = a.toColumn from hr]
      | endTime => rw [sortValue, show r.endTime = some a.toColumn from hr]
      | _ => cases hr
    · cases key with
      | startTime => rw [sortValue, show r'.startTime = b.toColumn from hr']
      | endTime => rw [sortValue, show r'.endTime = some b.toColumn from hr']
      | _ => cases hr
    · rw [precedes_texts, less_columns ha hb, Timestamp.toColumn_injective.eq_iff]
  windowStart finish row hrow := by
    rw [startsIn, Bool.and_eq_true, decide_eq_true_eq, decide_eq_true_eq, hrow,
      Timestamp.toColumn_le_iff ha hb]
  windowFinish start row hrow := by
    rw [startsIn, Bool.and_eq_true, decide_eq_true_eq, decide_eq_true_eq, hrow,
      Timestamp.toColumn_le_iff ha hb]
  sampled start finish most table r r' hr hr' h := by
    have hle := List.pairwise_iff_forall_sublist.1
      (windowRows_pairwise start finish table) (h.trans (List.take_sublist _ _))
    rwa [hr, hr', Timestamp.toColumn_le_iff ha hb] at hle
  sampleCut start finish most table r r' hr hr' h hmem hwindow hcut := by
    have hle := rel_of_mem_take_of_cut (windowRows_pairwise start finish table) h
      (mem_windowRows.2 ⟨hmem, hwindow⟩) hcut
    rwa [hr, hr', Timestamp.toColumn_le_iff ha hb] at hle
  active s r r' hr hr' h := by
    have hle := List.pairwise_iff_forall_sublist.1 (openRows_pairwise s.table)
      (h.trans (List.take_sublist _ _))
    rwa [hr, hr', Timestamp.toColumn_le_iff ha hb] at hle
  activeCut s r r' hr hr' h hmem hactive hcut := by
    have hle := rel_of_mem_take_of_cut (openRows_pairwise s.table) h
      (mem_openRows.2 ⟨hmem, hactive⟩) hcut
    rwa [hr, hr', Timestamp.toColumn_le_iff ha hb] at hle
  lastActivity old new hold hnew := by
    rw [updatedRow, hold, hnew, laterActivity, Option.getD_some]
    simp only [Timestamp.toColumn_lt_iff ha hb]
    split <;> rfl

/-- Columns of plain years hold their instants, are of one length and precede each other
by bytes as the instants do, leap seconds included. So instants decide wherever a statement
compares columns. -/
theorem columns_keep_value_and_order (ha : a.HasPlainYear) (hb : b.HasPlainYear) :
    Row.readTime a.toColumn = .ok a ∧
      a.toColumn.length = 30 ∧ (utf8 a.toColumn).length = 30 ∧
      (a < b ↔ utf8 a.toColumn < utf8 b.toColumn) ∧ Decides a b :=
  ⟨Row.readTime_column ha, Timestamp.length_toColumn ha, Timestamp.length_utf8_toColumn ha,
    (Timestamp.toColumn_lt_iff ha hb).symm.trans utf8_lt_iff.symm, decides ha hb⟩

/-- Half a second into the leap second at the end of June 1972, in a column
1972-06-30T23:59:60.500000000Z. -/
def inLeapSecond : Timestamp := ⟨78796799, 1500000000, by decide, by decide, by decide⟩

/-- The second after it. -/
def afterLeapSecond : Timestamp := ⟨78796800, 0, by decide, by decide, by decide⟩

/-- The leap second is read back, and its column precedes that of the second after it. -/
theorem leap_second_keeps_value_and_order :
    inLeapSecond.HasPlainYear ∧ afterLeapSecond.HasPlainYear ∧
      Row.readTime inLeapSecond.toColumn = .ok inLeapSecond ∧
      utf8 inLeapSecond.toColumn < utf8 afterLeapSecond.toColumn := by
  have hleap : inLeapSecond.HasPlainYear := by decide
  have hafter : afterLeapSecond.HasPlainYear := by decide
  obtain ⟨hread, -, -, horder, -⟩ := columns_keep_value_and_order hleap hafter
  exact ⟨hleap, hafter, hread, horder.1 (by decide)⟩

end Store

end ChatArchive
