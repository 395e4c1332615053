import ChatArchive.Proofs.Cuts
import ChatArchive.Proofs.Listings
import ChatArchive.Proofs.Shutdown

/-!
# Two ways to sort by message count

A listing by message count is sorted in the store, where ids break ties in ascending order,
whichever direction the counts are in. `sortByMessageCount` sorts summaries after the fact,
and knows no ids: sessions with equal counts stay in the order in which they come. If they
come by ascending ids, both give the same list, because the one thing that the sort leaves
open is what it keeps.
-/

namespace ChatArchive

open Text Time

/-- All sessions that pass the filters of a query, by ascending ids. -/
structure ListQuery.IsMatching (q : ListQuery) (sessions matching : List StoredSession) :
    Prop where
  mem_iff : ∀ x, x ∈ matching ↔ x ∈ sessions ∧ Store.selects q (Row.ofStored x) = true
  ascending : matching.Pairwise fun x y => utf8 x.id < utf8 y.id

theorem ListQuery.IsMatching.nodup {q : ListQuery} {sessions matching : List StoredSession}
    (h : q.IsMatching sessions matching) : matching.Nodup := by
  refine h.ascending.imp fun hlt heq => ?_
  rw [heq] at hlt
  exact List.lt_irrefl _ hlt

namespace Store

variable {s : Store} {sessions matching : List StoredSession} {q : ListQuery}
  {x y : StoredSession} {now : Timestamp}

/-! ## Counts -/

/-- Whether a session may come before another if only counts are looked at. -/
def countsBefore (direction : Direction) (x y : StoredSession) : Bool :=
  match direction with
  | .ascending => x.messages.length ≤ y.messages.length
  | .descending => y.messages.length ≤ x.messages.length

theorem countsBefore_trans (direction : Direction) (x y z : StoredSession)
    (hxy : countsBefore direction x y = true) (hyz : countsBefore direction y z = true) :
    countsBefore direction x z = true := by
  cases direction <;> simp only [countsBefore, decide_eq_true_eq] at * <;> omega

theorem countsBefore_total (direction : Direction) (x y : StoredSession) :
    (countsBefore direction x y || countsBefore direction y x) = true := by
  cases direction <;> simp only [countsBefore, Bool.or_eq_true, decide_eq_true_eq] <;> omega

theorem compareIn_counts (direction : Direction) (x y : StoredSession) :
    (compareIn direction (sortValueOf .messageCount x) (sortValueOf .messageCount y)).isLE
      = countsBefore direction x y := by
  have hcounts : ∀ x y : StoredSession,
      ((sortValueOf .messageCount x).compare (sortValueOf .messageCount y)).isLE
        = decide (x.messages.length ≤ y.messages.length) := by
    intro x y
    rw [sortValueOf, sortValueOf, compare_integer, Bool.eq_iff_iff, decide_eq_true_eq,
      Std.LawfulLECmp.isLE_iff_le]
    exact Int.ofNat_le
  cases direction with
  | ascending => exact hcounts x y
  | descending => exact hcounts y x

/-- In the store, ids come in where counts leave it open. -/
theorem listsBefore_of_counts (hkey : q.sortKey = .messageCount)
    (hcounts : countsBefore q.direction x y = true)
    (hid : countsBefore q.direction y x = true → utf8 x.id < utf8 y.id) :
    listsBefore q x y = true := by
  rw [← compareIn_counts] at hcounts hid
  rw [listsBefore, precedes_eq, comparePairs, compareLex, keyed, keyed, hkey]
  have hswap : compareIn q.direction (sortValueOf .messageCount y) (sortValueOf .messageCount x)
      = (compareIn q.direction (sortValueOf .messageCount x)
          (sortValueOf .messageCount y)).swap := Std.OrientedCmp.eq_swap
  rw [hswap] at hid
  cases horder : compareIn q.direction (sortValueOf .messageCount x)
      (sortValueOf .messageCount y) with
  | lt => rfl
  | gt =>
      rw [horder] at hcounts
      cases hcounts
  | eq =>
      rw [horder] at hid
      have hids : (Ord.compare x.id y.id).isLE = true :=
        Std.LawfulLECmp.isLE_iff_le.2 (le_of_lt (utf8_lt_iff.1 (hid rfl)))
      exact hids

theorem eq_of_listsBefore (hxy : listsBefore q x y = true) (hyx : listsBefore q y x = true) :
    x.id = y.id := by
  rw [listsBefore, precedes_eq] at hxy hyx
  have hlevel : comparePairs q.direction (keyed q x) (keyed q y) = .eq :=
    Std.OrientedCmp.isLE_antisymm hxy hyx
  exact Std.LawfulEqCmp.eq_of_compare (compareLex_eq_eq.1 hlevel).2

/-! ## Both sorts -/

theorem exists_isMatching (q : ListQuery) (hdistinct : sessions.Pairwise (·.id ≠ ·.id)) :
    ∃ matching, q.IsMatching sessions matching := by
  have hsorted : ((sessions.filter fun x => selects q (Row.ofStored x)).mergeSort
      fun x y => x.id ≤ y.id).Pairwise fun x y => x.id ≤ y.id := by
    refine (List.pairwise_mergeSort ?_ ?_ _).imp fun h => of_decide_eq_true h
    · intro x y z hxy hyz
      exact decide_eq_true ((of_decide_eq_true hxy).trans (of_decide_eq_true hyz))
    · intro x y
      simpa using le_total x.id y.id
  refine ⟨_, fun x => ?_, (hsorted.and (distinct_sorted hdistinct _ _)).imp fun h => ?_⟩
  · rw [List.mem_mergeSort, List.mem_filter]
  · exact utf8_lt_iff.2 (lt_of_le_of_ne h.1 h.2)

/-- What the store sorts by count is what a sort by count makes of the sessions by their ids. -/
theorem sortedFor_counts (h : Sound s sessions) (hkey : q.sortKey = .messageCount)
    (hmatching : q.IsMatching sessions matching) :
    sortedFor q sessions = matching.mergeSort (countsBefore q.direction) := by
  have hstable := pairwise_mergeSort_level (countsBefore_trans q.direction)
    (countsBefore_total q.direction) hmatching.ascending
  have hlists : (matching.mergeSort (countsBefore q.direction)).Pairwise
      fun x y => listsBefore q x y = true :=
    hstable.imp fun hxy => listsBefore_of_counts hkey hxy.1 hxy.2
  have hperm : (sortedFor q sessions).Perm (matching.mergeSort (countsBefore q.direction)) := by
    have hnodup : (sortedFor q sessions).Nodup :=
      (distinct_sorted h.distinct _ _).imp fun hne heq => hne (congrArg _ heq)
    refine (List.perm_ext_iff_of_nodup hnodup ?_).2 fun x => ?_
    · exact (List.mergeSort_perm _ _).nodup_iff.2 hmatching.nodup
    · rw [mem_sortedFor, List.mem_mergeSort, hmatching.mem_iff]
  -- Ids break all ties of `listsBefore`, so the two lists are sorted in one way.
  refine hperm.eq_of_pairwise (fun x y hx hy hxy hyx => ?_) (sortedFor_pairwise q sessions) hlists
  have hmem : y ∈ sortedFor q sessions := hperm.mem_iff.2 hy
  exact h.eq_of_id (mem_sortedFor.1 hmem).1 (mem_sortedFor.1 hx).1 (eq_of_listsBefore hxy hyx)

/-- Summaries count in 32 bits, so they sort like the sessions if these bits are enough. -/
theorem map_sort_counts (direction : Direction)
    (hcounts : ∀ x ∈ matching, x.messages.length < UInt32.size) :
    (matching.mergeSort (countsBefore direction)).map (fun x => x.shown.summary)
      = sortByMessageCount direction (matching.map fun x => x.shown.summary) := by
  have hle : ∀ x ∈ matching, ∀ y ∈ matching,
      x.messages.length ≤ y.messages.length ↔
        UInt32.ofNat x.messages.length ≤ UInt32.ofNat y.messages.length := by
    intro x hx y hy
    rw [UInt32.le_iff_toNat_le, UInt32.toNat_ofNat_of_lt' (hcounts x hx),
      UInt32.toNat_ofNat_of_lt' (hcounts y hy)]
  rw [sortByMessageCount]
  refine List.map_mergeSort fun x hx y hy => ?_
  cases direction with
  | ascending => exact decide_eq_decide.2 (hle x hx y hy)
  | descending => exact decide_eq_decide.2 (hle y hy x hx)

/-! ## Answers -/

theorem fault?_list_window (cipher : ContentCipher) (h : HasWindow q) :
    Operation.fault? cipher (.list q) = none := by
  rw [Operation.fault?]
  split
  · next first last hfirst hlast => exact if_neg (h first hfirst last hlast)
  · rfl

theorem fault?_list_inverted (cipher : ContentCipher) (h : ¬ HasWindow q) :
    Operation.fault? cipher (.list q) = some (.failed .invalidTimeRange) := by
  simp only [HasWindow, not_forall, not_not] at h
  obtain ⟨first, hfirst, last, hlast, hlt⟩ := h
  rw [Operation.fault?, hfirst, hlast]
  exact if_pos hlt

/-- What a store answers to a listing by message count, given the sessions that match. -/
structure ListsByCount (s : Store) (q : ListQuery) (matching : List StoredSession)
    (now : Timestamp) : Prop where
  inverted : ¬ HasWindow q → (s.step now (.list q)).1 = .error (.failed .invalidTimeRange)
  cancelled : HasWindow q → s.closed = true →
    (s.step now (.list q)).1 = .error (.failed (.cancelled "list_sessions" .cancelled))
  page : HasWindow q → s.closed = false → (s.step now (.list q)).1
    = .ok (.summaries (((sortByMessageCount q.direction
        (matching.map fun x => x.shown.summary)).drop q.offset.toNat).take
          (q.pageSize s.settings.listing.defaultLimit s.settings.listing.maxLimit).toNat))
  whole : HasWindow q → s.closed = false → q.offset = 0 →
    matching.length ≤ (q.pageSize s.settings.listing.defaultLimit
      s.settings.listing.maxLimit).toNat →
    (s.step now (.list q)).1 = .ok (.summaries (sortByMessageCount q.direction
      (matching.map fun x => x.shown.summary)))

theorem Sound.listsByCount (h : Sound s sessions) (hlistable : ∀ x ∈ sessions, x.IsListable)
    (hcounts : ∀ x ∈ sessions, x.messages.length < UInt32.size)
    (hkey : q.sortKey = .messageCount) (hmatching : q.IsMatching sessions matching)
    (now : Timestamp) : ListsByCount s q matching now := by
  have hpage : HasWindow q → s.closed = false → (s.step now (.list q)).1
      = .ok (.summaries (((sortByMessageCount q.direction
          (matching.map fun x => x.shown.summary)).drop q.offset.toNat).take
            (q.pageSize s.settings.listing.defaultLimit s.settings.listing.maxLimit).toNat)) := by
    intro hwindow hopen
    have hmatches : ∀ x ∈ matching, x.messages.length < UInt32.size := fun x hx =>
      hcounts x ((hmatching.mem_iff x).1 hx).1
    rw [step_list_listable h hopen hlistable hwindow, sortedFor_counts h hkey hmatching,
      List.map_take, List.map_drop, map_sort_counts q.direction hmatches]
  constructor
  case inverted =>
    intro hwindow
    exact step_of_fault rfl (fault?_list_inverted s.cipher hwindow)
  case cancelled =>
    intro hwindow hclosed
    have hname : (Operation.list q).name? = some "list_sessions" := rfl
    obtain ⟨-, nonces, hstep⟩ := step_closed hclosed now hname
    rw [hstep, refusalOf, fault?_list_window s.cipher hwindow]
    rfl
  case page => exact hpage
  case whole =>
    intro hwindow hopen hoffset hfits
    have hlength : (sortByMessageCount q.direction
        (matching.map fun x => x.shown.summary)).length = matching.length := by
      rw [sortByMessageCount, List.length_mergeSort, List.length_map]
    rw [hpage hwindow hopen, hoffset, List.take_of_length_le]
    · rfl
    · rw [List.length_drop, hlength]
      omega

/-- After every run that writes to no column directly, a listing by message count of sessions
that are listable is cut from what `sortByMessageCount` makes of the matching sessions by
ascending ids, in both directions, and is all of it if it fits on a page. A window that is
inverted is refused, and so is a store that was shut down. -/
theorem counts_sort_alike_after_run (settings : Settings) (cipher : ContentCipher)
    (nonces : Cipher.Nonces) (calls : List Call)
    (hcalls : ∀ c ∈ calls, ¬ c.operation.IsOverwrite) :
    let s := (fresh settings cipher nonces).after calls
    (∃ sessions, s.table.Holds sessions) ∧
    ∀ sessions, s.table.Holds sessions →
      (∀ x ∈ sessions, x.IsListable ∧ x.messages.length < UInt32.size) →
    ∀ q : ListQuery, q.sortKey = .messageCount →
      (∃ matching, q.IsMatching sessions matching) ∧
      ∀ matching, q.IsMatching sessions matching →
        (q.HasPlainWindow → ∀ x ∈ sessions, x ∈ matching ↔ q.Matches x) ∧
        ∀ now, ListsByCount s q matching now := by
  intro s
  obtain ⟨held, hheld⟩ := (sound_fresh settings cipher nonces).after hcalls
  refine ⟨⟨held, hheld.holds⟩, fun sessions hholds hcounted q hkey => ?_⟩
  have hsound : Sound s sessions := hheld.of_holds hholds
  refine ⟨exists_isMatching q hsound.distinct, fun matching hmatching => ⟨?_, fun now => ?_⟩⟩
  · intro hplain x hx
    rw [hmatching.mem_iff, and_iff_right hx]
    exact selects_iff (hcounted x hx).1.startTime hplain
  · exact hsound.listsByCount (fun x hx => (hcounted x hx).1) (fun x hx => (hcounted x hx).2)
      hkey hmatching now

/-- Two sessions without messages, of which the later id comes first, and one with a message. -/
def levelCalls : List Call := [
  ⟨.epoch, .create (.start "b" "u" .epoch)⟩,
  ⟨.epoch, .create (.start "a" "u" .epoch)⟩,
  ⟨.epoch, .create (.start "c" "u" .epoch)⟩,
  ⟨.epoch, .addMessage "c" (.plain .user "hello" .epoch)⟩]

def greetedSession : StoredSession :=
  bareStored "c" none [⟨"hello", .epoch, .user, none, none, none⟩]

def levelSessions : List StoredSession :=
  [bareStored "b" none [], bareStored "a" none [], greetedSession]

/-- All sessions, the most messages first. -/
def mostMessages : ListQuery := { ListQuery.all with sortKey := .messageCount }

theorem counts_sort_alike_after_levelCalls :
    (((fresh .standard .disabled (.counting 0)).after levelCalls).step .epoch
      (.list mostMessages)).1
      = .ok (.summaries [greetedSession.summary, (bareStored "a" none []).summary,
          (bareStored "b" none []).summary]) := by
  have hdirect : ∀ c ∈ levelCalls, ¬ c.operation.IsOverwrite := by
    intro c hc
    simp only [levelCalls, List.mem_cons, List.not_mem_nil, or_false] at hc
    rcases hc with rfl | rfl | rfl | rfl <;> exact id
  have hholds : ((fresh .standard .disabled (.counting 0)).after levelCalls).table.Holds
      levelSessions := by
    have hrows : ((fresh .standard .disabled (.counting 0)).after levelCalls).table.rows
        = levelSessions.map Row.ofStored := by decide +kernel
    exact hrows
  have hcounted : ∀ x ∈ levelSessions, x.IsListable ∧ x.messages.length < UInt32.size := by
    have hepoch : Timestamp.epoch.HasPlainYear := by decide
    intro x hx
    simp only [levelSessions, greetedSession, List.mem_cons, List.not_mem_nil, or_false] at hx
    rcases hx with rfl | rfl | rfl
    · exact ⟨⟨hepoch, by simp [bareStored], by simp [bareStored]⟩, by decide⟩
    · exact ⟨⟨hepoch, by simp [bareStored], by simp [bareStored]⟩, by decide⟩
    · exact ⟨⟨hepoch, by simp [bareStored], by simp [bareStored, hepoch]⟩, by decide⟩
  have hmatching : mostMessages.IsMatching levelSessions
      [bareStored "a" none [], bareStored "b" none [], greetedSession] := by
    refine ⟨fun x => ?_, by decide +kernel⟩
    have hall : selects mostMessages (Row.ofStored x) = true := rfl
    rw [and_iff_left hall]
    exact (List.Perm.swap _ _ _).mem_iff
  have hwindow : HasWindow mostMessages := by
    intro t ht
    cases ht
  have hlists := (((counts_sort_alike_after_run .standard .disabled (.counting 0) levelCalls
      hdirect).2 levelSessions hholds hcounted mostMessages rfl).2 _ hmatching).2 .epoch
  rw [hlists.whole hwindow rfl rfl (by decide +kernel)]
  have htokens : Row.loadedTokens (Row.storedTokens 0) = 0 := by decide
  simp [sortByMessageCount, List.mergeSort, List.MergeSort.Internal.splitInTwo, mostMessages,
    ListQuery.all, StoredSession.summary, StoredSession.shown, bareStored, greetedSession, htokens]

/-- All sessions of a window that ends before it starts. -/
def invertedCounts : ListQuery :=
  { mostMessages with startFrom := some tenMinutes, startTo := some .epoch }

/-- No session is in such a window, and what is answered is not that there is none. -/
theorem counts_not_sorted_in_invertedCounts :
    (fresh .standard .disabled (.counting 0)).table.Holds [] ∧
      invertedCounts.sortKey = .messageCount ∧
      invertedCounts.IsMatching [] [] ∧
      ((fresh .standard .disabled (.counting 0)).step .epoch (.list invertedCounts)).1
        = .error (.failed .invalidTimeRange) ∧
      ((fresh .standard .disabled (.counting 0)).step .epoch (.list invertedCounts)).1
        ≠ .ok (.summaries (sortByMessageCount invertedCounts.direction [])) := by
  have hinverted : ((fresh .standard .disabled (.counting 0)).step .epoch (.list invertedCounts)).1
      = .error (.failed .invalidTimeRange) := rfl
  refine ⟨rfl, rfl, ⟨by simp, .nil⟩, hinverted, ?_⟩
  rw [hinverted]
  intro h'
  cases h'

end Store

end ChatArchive
