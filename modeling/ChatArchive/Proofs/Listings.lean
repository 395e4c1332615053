import ChatArchive.Proofs.ByteOrder
import ChatArchive.Proofs.Readable
import ChatArchive.Proofs.TimeOrder

/-!
# What a listing lists

The sessions that match a query, in an order that is told by the sessions themselves:
instants compare as instants, texts as bytes, counts as numbers, and a session that has not
ended comes before all that have. `IsListing` puts down what the sorted sessions are, and
no two lists satisfy it for the same query and sessions.

A listing is a cut of that list, for every query. So pages of one size that follow each
other are the list itself, cut into pieces, and a session is on exactly one of them.
-/

namespace ChatArchive

open Text Time

/-- A stored session whose instants have plain years and whose tokens a column holds as they
are. -/
structure StoredSession.IsPlain (x : StoredSession) : Prop where
  startTime : x.startTime.HasPlainYear
  endTime : ∀ t ∈ x.endTime, t.HasPlainYear
  messages : ∀ m ∈ x.messages, m.time.HasPlainYear
  totalTokens : x.totalTokens.toNat < 9223372036854775808

theorem StoredSession.IsPlain.isListable {x : StoredSession} (h : x.IsPlain) : x.IsListable :=
  ⟨h.startTime, h.endTime, fun m hm => h.messages m (List.mem_of_getLast? hm)⟩

theorem StoredSession.IsPlain.shown_eq {x : StoredSession} (h : x.IsPlain) : x.shown = x := by
  rw [shown, Store.loadedTokens_storedTokens h.totalTokens]

/-- What a listing shows of a stored session. -/
def StoredSession.summary (x : StoredSession) : Summary where
  id := x.id
  userId := x.userId
  name := x.name
  lastMessageTime := (x.messages.getLast?.map (·.time)).getD x.startTime
  messageCount := UInt32.ofNat x.messages.length
  adminAssisted := x.adminAssisted
  startTime := x.startTime
  endTime := x.endTime
  totalTokens := x.totalTokens
  maxResponseMs := x.maxResponseMs
  avgResponseMs := x.avgResponseMs

/-- A stored session is less than another under a sort key. No end is less than any. -/
def SortKey.Less (key : SortKey) (x y : StoredSession) : Prop :=
  match key with
  | .startTime => x.startTime < y.startTime
  | .endTime => ∃ t ∈ y.endTime, ∀ u ∈ x.endTime, u < t
  | .messageCount => x.messages.length < y.messages.length
  | .totalTokens => x.totalTokens < y.totalTokens
  | .userId => utf8 x.userId < utf8 y.userId

namespace ListQuery

/-- The bounds of the window have plain years. -/
def HasPlainWindow (q : ListQuery) : Prop :=
  (∀ t ∈ q.startFrom, t.HasPlainYear) ∧ ∀ t ∈ q.startTo, t.HasPlainYear

/-- A stored session that passes every filter of a query. -/
structure Matches (q : ListQuery) (x : StoredSession) : Prop where
  userId : ∀ u ∈ q.userId, x.userId = u
  startFrom : ∀ t ∈ q.startFrom, t ≤ x.startTime
  startTo : ∀ t ∈ q.startTo, x.startTime ≤ t
  adminAssisted : ∀ b ∈ q.adminAssisted, x.adminAssisted = b
  active : ∀ b ∈ q.active, x.endTime.isNone = b

/-- A stored session is less than another in the direction of a query. -/
def Less (q : ListQuery) (x y : StoredSession) : Prop :=
  match q.direction with
  | .ascending => q.sortKey.Less x y
  | .descending => q.sortKey.Less y x

/-- A stored session comes before another in a listing: it is less, or neither is and its id
comes first by bytes, whatever the direction. -/
def Before (q : ListQuery) (x y : StoredSession) : Prop :=
  q.Less x y ∨ ¬ q.Less y x ∧ utf8 x.id < utf8 y.id

/-- All that match, each once and in order. -/
structure IsListing (q : ListQuery) (sessions sorted : List StoredSession) : Prop where
  mem_iff : ∀ x, x ∈ sorted ↔ x ∈ sessions ∧ q.Matches x
  ordered : sorted.Pairwise q.Before

theorem less_asymm {key : SortKey} {x y : StoredSession} (h : key.Less x y) :
    ¬ key.Less y x := by
  intro h'
  cases key with
  | startTime => exact Timestamp.lt_asymm h h'
  | endTime =>
      obtain ⟨t, ht, hless⟩ := h
      obtain ⟨u, hu, hless'⟩ := h'
      exact Timestamp.lt_asymm (hless u hu) (hless' t ht)
  | messageCount => exact Nat.lt_asymm h h'
  | totalTokens => exact UInt64.lt_asymm h h'
  | userId => exact List.lt_asymm h h'

theorem Before.asymm {q : ListQuery} {x y : StoredSession} (h : q.Before x y) :
    ¬ q.Before y x := by
  have hless : q.Less x y → ¬ q.Less y x := by
    rw [Less, Less]
    cases q.direction with
    | ascending => exact less_asymm
    | descending => exact less_asymm
  intro h'
  rcases h with h | ⟨hnot, hid⟩
  · rcases h' with h' | ⟨hnot', -⟩
    · exact hless h h'
    · exact hnot' h
  · rcases h' with h' | ⟨-, hid'⟩
    · exact hnot h'
    · exact List.lt_asymm hid hid'

/-- There is only one listing of a query. -/
theorem IsListing.unique {q : ListQuery} {sessions sorted sorted' : List StoredSession}
    (h : q.IsListing sessions sorted) (h' : q.IsListing sessions sorted') :
    sorted = sorted' := by
  have hnodup : ∀ {l : List StoredSession}, l.Pairwise q.Before → l.Nodup := fun hl =>
    hl.imp fun hxy heq => by
      rw [heq] at hxy
      exact hxy.asymm hxy
  refine List.Perm.eq_of_pairwise (fun x y _ _ hxy hyx => absurd hyx hxy.asymm)
    h.ordered h'.ordered ?_
  refine (List.perm_ext_iff_of_nodup (hnodup h.ordered) (hnodup h'.ordered)).2 fun x => ?_
  rw [h.mem_iff, h'.mem_iff]

/-- A page of a size, counted from zero. -/
def pageAt (q : ListQuery) (size : UInt32) (number : Nat) : ListQuery :=
  { q with limit := size, offset := UInt32.ofNat (number * size.toNat) }

end ListQuery

namespace Store

variable {s : Store} {sessions : List StoredSession} {q : ListQuery} {x y : StoredSession}

/-! ## Summaries -/

theorem readTime_lastMessageTime (h : x.IsListable) :
    Row.readTime (listed x).lastMessageTime
      = .ok ((x.messages.getLast?.map (·.time)).getD x.startTime) := by
  rw [listed]
  cases hlast : x.messages.getLast? with
  | none => exact Row.readTime_column h.startTime
  | some m =>
      rw [Option.map_some, Option.map_some, Option.getD_some, Option.getD_some, Row.readTime,
        String.toList_ofList, Timestamp.parseStrict_shortText (h.lastMessage m hlast)]

/-- What is listed of a stored session is its summary, with the tokens that their column
shows. -/
theorem summary_of_listable (h : x.IsListable) : summary (listed x) = .ok x.shown.summary := by
  refine Except.bind_eq_ok.2 ⟨_, readTime_lastMessageTime h, Except.bind_eq_ok.2
    ⟨_, Row.readTime_column h.startTime, Except.bind_eq_ok.2
      ⟨_, Row.readTime?_column h.endTime, ?_⟩⟩⟩
  simp only [listed, Row.ofStored, Row.loadedFlag]
  rfl

/-! ## Filters -/

theorem eq_of_flag_eq {a b : Bool} (h : flag a = flag b) : a = b := by
  rw [← Row.loadedFlag a, h, Row.loadedFlag]

theorem selects_iff (h : x.startTime.HasPlainYear) (hq : q.HasPlainWindow) :
    selects q (Row.ofStored x) = true ↔ q.Matches x := by
  obtain ⟨hfrom, hto⟩ := hq
  simp only [selects, Bool.and_eq_true, Option.all_eq_true, decide_eq_true_eq]
  constructor
  · intro h'
    obtain ⟨⟨⟨⟨huser, hstart⟩, hfinish⟩, hadmin⟩, hactive⟩ := h'
    refine ⟨fun u hu => (huser u hu).symm, fun t ht => ?_, fun t ht => ?_, fun b hb => ?_,
      fun b hb => ?_⟩
    · exact (Timestamp.toColumn_le_iff (hfrom t ht) h).1 (hstart t ht)
    · exact (Timestamp.toColumn_le_iff h (hto t ht)).1 (hfinish t ht)
    · exact eq_of_flag_eq (hadmin b hb)
    · rw [hactive b hb, Row.ofStored, Option.isNone_map]
  · intro hmatches
    refine ⟨⟨⟨⟨fun u hu => (hmatches.userId u hu).symm, fun t ht => ?_⟩, fun t ht => ?_⟩,
      fun b hb => ?_⟩, fun b hb => ?_⟩
    · exact (Timestamp.toColumn_le_iff (hfrom t ht) h).2 (hmatches.startFrom t ht)
    · exact (Timestamp.toColumn_le_iff h (hto t ht)).2 (hmatches.startTo t ht)
    · exact congrArg flag (hmatches.adminAssisted b hb)
    · rw [Row.ofStored, Option.isNone_map, hmatches.active b hb]

/-! ## The order -/

theorem compare_lt_iff (key : SortKey) (hx : x.IsPlain) (hy : y.IsPlain) :
    (sortValueOf key x).compare (sortValueOf key y) = .lt ↔ key.Less x y := by
  have htext : ∀ {a b : String}, Ord.compare a b = .lt ↔ a < b := Std.LawfulLTCmp.eq_lt_iff_lt
  have hinteger : ∀ {i j : Int}, Ord.compare i j = .lt ↔ i < j := Std.LawfulLTCmp.eq_lt_iff_lt
  cases key with
  | startTime => exact htext.trans (Timestamp.toColumn_lt_iff hx.startTime hy.startTime)
  | endTime =>
      rw [sortValueOf, sortValueOf, SortKey.Less]
      cases hu : x.endTime with
      | none =>
          cases ht : y.endTime with
          | none =>
              refine iff_of_false (fun h => by cases h) ?_
              rintro ⟨t, h, -⟩
              cases h
          | some t => exact iff_of_true rfl ⟨t, rfl, fun u h => by cases h⟩
      | some u =>
          cases ht : y.endTime with
          | none =>
              refine iff_of_false (fun h => by cases h) ?_
              rintro ⟨t, h, -⟩
              cases h
          | some t =>
              refine htext.trans ((Timestamp.toColumn_lt_iff (hx.endTime u hu)
                (hy.endTime t ht)).trans ?_)
              simp only [Option.mem_def, Option.some.injEq, exists_eq_left', forall_eq']
  | messageCount => exact hinteger.trans Int.ofNat_lt
  | totalTokens =>
      rw [sortValueOf, sortValueOf, storedTokens_toInt hx.totalTokens,
        storedTokens_toInt hy.totalTokens]
      exact hinteger.trans (Int.ofNat_lt.trans UInt64.lt_iff_toNat_lt.symm)
  | userId => exact htext.trans utf8_lt_iff.symm

theorem compareIn_lt_iff (hx : x.IsPlain) (hy : y.IsPlain) :
    compareIn q.direction (sortValueOf q.sortKey x) (sortValueOf q.sortKey y) = .lt
      ↔ q.Less x y := by
  rw [ListQuery.Less]
  cases q.direction with
  | ascending => exact compare_lt_iff q.sortKey hx hy
  | descending => exact compare_lt_iff q.sortKey hy hx

theorem before_of_listsBefore (hx : x.IsPlain) (hy : y.IsPlain) (hid : x.id ≠ y.id)
    (h : listsBefore q x y = true) : q.Before x y := by
  rw [listsBefore, precedes_eq, comparePairs, compareLex] at h
  cases horder : compareIn q.direction (sortValueOf q.sortKey x) (sortValueOf q.sortKey y) with
  | lt => exact Or.inl ((compareIn_lt_iff hx hy).1 horder)
  | gt =>
      rw [keyed, keyed, horder] at h
      cases h
  | eq =>
      rw [keyed, keyed, horder] at h
      have hle : x.id ≤ y.id := by
        have hids : (Ord.compare x.id y.id).isLE = true := h
        exact Std.LawfulLECmp.isLE_iff_le.1 hids
      refine Or.inr ⟨fun hless => ?_, utf8_lt_iff.2 (lt_of_le_of_ne hle hid)⟩
      have hback := (compareIn_lt_iff hy hx).2 hless
      have hswap : compareIn q.direction (sortValueOf q.sortKey y) (sortValueOf q.sortKey x)
          = (compareIn q.direction (sortValueOf q.sortKey x) (sortValueOf q.sortKey y)).swap :=
        Std.OrientedCmp.eq_swap
      rw [hback, horder] at hswap
      cases hswap

theorem isListing_sortedFor (hdistinct : sessions.Pairwise (·.id ≠ ·.id))
    (hplain : ∀ x ∈ sessions, x.IsPlain) (hq : q.HasPlainWindow) :
    q.IsListing sessions (sortedFor q sessions) := by
  refine ⟨fun x => ?_, ?_⟩
  · rw [mem_sortedFor]
    exact and_congr_right fun hx => selects_iff (hplain x hx).startTime hq
  · have hids : (sortedFor q sessions).Pairwise (·.id ≠ ·.id) := distinct_sorted hdistinct _ _
    refine (hids.and (sortedFor_pairwise q sessions)).imp_of_mem fun hx hy h => ?_
    exact before_of_listsBefore (hplain _ (mem_sortedFor.1 hx).1)
      (hplain _ (mem_sortedFor.1 hy).1) h.1 h.2

/-! ## Answers -/

/-- A listing of sessions that are listable is a cut of the sorted sessions. -/
theorem step_list_listable (h : Sound s sessions) (hopen : s.closed = false)
    (hlistable : ∀ x ∈ sessions, x.IsListable) (hwindow : HasWindow q) (now : Timestamp) :
    (s.step now (.list q)).1 = .ok (.summaries ((((sortedFor q sessions).drop
      q.offset.toNat).take (q.pageSize s.settings.listing.defaultLimit
        s.settings.listing.maxLimit).toNat).map fun x => x.shown.summary)) := by
  refine step_list_ok.2 ⟨hopen, hwindow, _, _, page_of_holds h.holds q _, ?_, rfl⟩
  rw [List.forall₂_map_left_iff, List.forall₂_map_right_iff, List.forall₂_same]
  intro x hx
  have hmem : x ∈ sortedFor q sessions := List.mem_of_mem_drop (List.mem_of_mem_take hx)
  exact summary_of_listable (hlistable x (mem_sortedFor.1 hmem).1)

/-- If tokens fit their column, nothing else is shown of a session than what is stored. -/
theorem step_list (h : Sound s sessions) (hopen : s.closed = false)
    (hplain : ∀ x ∈ sessions, x.IsPlain) (hwindow : HasWindow q) (now : Timestamp) :
    (s.step now (.list q)).1 = .ok (.summaries ((((sortedFor q sessions).drop
      q.offset.toNat).take (q.pageSize s.settings.listing.defaultLimit
        s.settings.listing.maxLimit).toNat).map StoredSession.summary)) := by
  rw [step_list_listable h hopen (fun x hx => (hplain x hx).isListable) hwindow]
  refine congrArg (fun summaries => Except.ok (Answer.summaries summaries)) ?_
  refine List.map_congr_left fun x hx => ?_
  have hmem : x ∈ sortedFor q sessions := List.mem_of_mem_drop (List.mem_of_mem_take hx)
  rw [(hplain x (mem_sortedFor.1 hmem).1).shown_eq]

theorem pageSize_of_le {standard most : UInt32} (hlimit : 1 ≤ q.limit) (hmost : q.limit ≤ most) :
    q.pageSize standard most = q.limit := by
  have hne : q.limit ≠ 0 := by
    intro h0
    rw [h0] at hlimit
    exact absurd hlimit (by decide)
  have hmin : min q.limit most = q.limit := if_pos hmost
  have hmax : max q.limit 1 = q.limit := by
    show (if q.limit ≤ 1 then 1 else q.limit) = q.limit
    split
    · next hle => exact UInt32.le_antisymm hlimit hle
    · rfl
  rw [ListQuery.pageSize, if_neg hne, hmin, hmax]

/-- Pages that follow each other are the beginning of the list that they are cut from. -/
theorem flatMap_pages {α : Type} (l : List α) (size n : Nat) :
    (List.range n).flatMap (fun i => (l.drop (i * size)).take size) = l.take (n * size) := by
  induction n with
  | zero => rw [Nat.zero_mul, List.take_zero]; rfl
  | succ n ih =>
      rw [List.range_succ, List.flatMap_append, ih, List.flatMap_singleton, Nat.succ_mul,
        List.take_add]

/-! ## Runs -/

/-- A run that writes to no column directly and does not shut the database down leaves a
sound table in an open store with its settings. -/
theorem sound_after_run (settings : Settings) (cipher : ContentCipher) (nonces : Cipher.Nonces)
    {calls : List Call}
    (hcalls : ∀ c ∈ calls, ¬ c.operation.IsOverwrite ∧ c.operation ≠ .shutdown) :
    ∃ sessions, Sound ((fresh settings cipher nonces).after calls) sessions ∧
      ((fresh settings cipher nonces).after calls).closed = false ∧
      ((fresh settings cipher nonces).after calls).settings = settings := by
  refine (sound_fresh settings cipher nonces).run
    (P := fun _ s _ => s.closed = false ∧ s.settings = settings) (fun c hc => (hcalls c hc).1)
    (fun c hc _ s sessions _ h _ _ hs => ?_) [] ⟨rfl, rfl⟩
  have hleaves := leaves_step h.holds c.now (hcalls c hc).1
  exact ⟨(hleaves.closed (hcalls c hc).2).trans hs.1, hleaves.settings.trans hs.2⟩

/-- Which sessions a table holds decides whether it is sound. -/
theorem Sound.of_holds {sessions' : List StoredSession} (h : Sound s sessions')
    (hholds : s.table.Holds sessions) : Sound s sessions := by
  have hids : ∀ {l : List StoredSession}, s.table.Holds l →
      l.map (·.id) = s.table.rows.map (·.id) := by
    intro l hl
    rw [show s.table.rows = l.map Row.ofStored from hl, List.map_map]
    rfl
  rw [sound_iff_ids hholds, hids hholds, ← hids h.holds]
  exact (sound_iff_ids h.holds).1 h

/-- After every run without faults, a listing of sessions that are plain is the listing of
its query with the offset dropped, cut to the size of a page, and pages of one size that
follow each other are cut from the same list without a gap. -/
theorem list_after_run (settings : Settings) (cipher : ContentCipher) (nonces : Cipher.Nonces)
    (calls : List Call)
    (hcalls : ∀ c ∈ calls, ¬ c.operation.IsOverwrite ∧ c.operation ≠ .shutdown) :
    let s := (fresh settings cipher nonces).after calls
    let listing := settings.listing
    (∃ sessions, s.table.Holds sessions) ∧
    ∀ sessions, s.table.Holds sessions → (∀ x ∈ sessions, x.IsPlain) →
    ∀ q : ListQuery, q.HasPlainWindow → HasWindow q → ∃ sorted, q.IsListing sessions sorted ∧
      (∀ other, q.IsListing sessions other → other = sorted) ∧
      (∀ now, (s.step now (.list q)).1 = .ok (.summaries (((sorted.drop q.offset.toNat).take
        (q.pageSize listing.defaultLimit listing.maxLimit).toNat).map StoredSession.summary))) ∧
      ∀ size, 1 ≤ size → size ≤ listing.maxLimit →
      ∀ n, (∀ i < n, i * size.toNat < UInt32.size) → ∃ pages : Nat → List Summary,
        (∀ now, ∀ i < n, (s.step now (.list (q.pageAt size i))).1 = .ok (.summaries (pages i))) ∧
        (List.range n).flatMap pages
          = (sorted.take (n * size.toNat)).map StoredSession.summary := by
  intro s listing
  obtain ⟨held, hheld, hopen, hsettings⟩ := sound_after_run settings cipher nonces hcalls
  refine ⟨⟨held, hheld.holds⟩, fun sessions hholds hplain q hq hwindow => ?_⟩
  have hsound : Sound s sessions := hheld.of_holds hholds
  have hlisting := isListing_sortedFor hsound.distinct hplain hq
  refine ⟨sortedFor q sessions, hlisting, fun other hother => hother.unique hlisting, fun now => ?_,
    fun size hone hmost n hoffsets => ?_⟩
  · have h := step_list hsound hopen hplain hwindow now
    rw [show s.settings = settings from hsettings] at h
    exact h
  · refine ⟨fun i => (((sortedFor q sessions).drop (i * size.toNat)).take size.toNat).map
      StoredSession.summary, fun now i hi => ?_, ?_⟩
    · have hpage : HasWindow (q.pageAt size i) := hwindow
      have h := step_list hsound hopen hplain hpage now
      have hsize : (q.pageAt size i).pageSize listing.defaultLimit listing.maxLimit = size :=
        pageSize_of_le hone hmost
      have hoffset : (q.pageAt size i).offset.toNat = i * size.toNat :=
        UInt32.toNat_ofNat_of_lt' (hoffsets i hi)
      rw [show s.settings = settings from hsettings, hsize, hoffset] at h
      exact h
    · rw [← flatMap_pages, List.map_flatMap]

/-- A session that is stored with nothing but an end and messages. -/
def bareStored (id : String) (endTime : Option Timestamp) (messages : List StoredMessage) :
    StoredSession :=
  ⟨id, "u", "", "", messages, .epoch, endTime, 0, false, none, none, false, 0, 0, 0, some .epoch⟩

/-- What `plainCalls` leaves. -/
def plainSessions : List StoredSession := [
  bareStored "a" (some .epoch) [],
  bareStored "b" none [⟨"hello", .epoch, .user, none, none, none⟩]]

theorem plainCalls_direct :
    ∀ c ∈ plainCalls, ¬ c.operation.IsOverwrite ∧ c.operation ≠ .shutdown := by
  intro c hc
  simp only [plainCalls, List.mem_cons, List.not_mem_nil, or_false] at hc
  rcases hc with rfl | rfl | rfl | rfl <;> exact ⟨id, fun h => by cases h⟩

theorem holds_plainSessions :
    ((fresh .standard .disabled (.counting 0)).after plainCalls).table.Holds plainSessions := by
  have hrows : ((fresh .standard .disabled (.counting 0)).after plainCalls).table.rows
      = plainSessions.map Row.ofStored := by decide +kernel
  exact hrows

theorem isPlain_plainSessions : ∀ x ∈ plainSessions, x.IsPlain := by
  have hepoch : Timestamp.epoch.HasPlainYear := by decide
  intro x hx
  simp only [plainSessions, List.mem_cons, List.not_mem_nil, or_false] at hx
  rcases hx with rfl | rfl
  · refine ⟨hepoch, fun t ht => ?_, fun m hm => absurd hm List.not_mem_nil, by decide⟩
    cases ht
    exact hepoch
  · refine ⟨hepoch, fun t ht => ?_, List.forall_mem_singleton.2 hepoch, by decide⟩
    cases ht

theorem list_after_plainCalls :
    ∃ sorted, ListQuery.all.IsListing plainSessions sorted ∧
      ∀ now, (((fresh .standard .disabled (.counting 0)).after plainCalls).step now (.list .all)).1
        = .ok (.summaries ((sorted.take 100).map StoredSession.summary)) := by
  have hnone : ∀ t ∈ (none : Option Timestamp), t.HasPlainYear := by
    intro t ht
    cases ht
  have hwindow : HasWindow .all := by
    intro t ht
    cases ht
  obtain ⟨sorted, hlisting, -, hpage, -⟩ := (list_after_run .standard .disabled (.counting 0)
    plainCalls plainCalls_direct).2 plainSessions holds_plainSessions isPlain_plainSessions .all
      ⟨hnone, hnone⟩ hwindow
  exact ⟨sorted, hlisting, hpage⟩

end Store

end ChatArchive
