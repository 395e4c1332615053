import ChatArchive.Proofs.Listings
import ChatArchive.Proofs.Samples
import Mathlib.Algebra.Order.BigOperators.Group.List
import Mathlib.Algebra.Ring.Int.Defs

/-!
# Token counts

A count has 64 bits and no sign, its column has 64 bits and a sign. A count below 2^63
passes through unchanged. A larger one is kept as a negative number: it is shown as
none, it comes before all others in a sorted listing, and it is taken from a sum instead
of added to it. A sum that passes 2^63 on the way is refused altogether.

So the table remembers every count that the last successful creation or update of an id
brought, which is the invariant of a run, but what is told of it is the truth only below
2^63: count by count, pair by pair, and for a window exactly if its sum stays below.
-/

namespace ChatArchive

open Time

/-- A count as it is shown. -/
def shownTokens (n : UInt64) : UInt64 := if n.toNat < 9223372036854775808 then n else 0

/-- The order of counts in their column: those from 2^63 on come before all others. -/
def TokensLe (m n : UInt64) : Prop :=
  if m.toNat < 9223372036854775808 then n.toNat < 9223372036854775808 ∧ m ≤ n
  else n.toNat < 9223372036854775808 ∨ m ≤ n

/-- Two counts as they follow each other in a direction. -/
def TokensOrdered (direction : Direction) (m n : UInt64) : Prop :=
  match direction with
  | .ascending => TokensLe m n
  | .descending => TokensLe n m

/-- The count that an operation brings to its session. -/
def Operation.tokens? : Operation → Option UInt64
  | .create session | .update session => some session.totalTokens
  | _ => none

/-- The ids in an answer, each with the count that is shown of it. -/
def Answer.tokens : Answer → List (String × UInt64)
  | .session x => [(x.id, x.totalTokens)]
  | .sessions xs => xs.map fun x => (x.id, x.totalTokens)
  | .summaries xs => xs.map fun x => (x.id, x.totalTokens)
  | _ => []

/-- A stored session that started in a window. -/
def StoredSession.StartedIn (start finish : Timestamp) (x : StoredSession) : Prop :=
  start ≤ x.startTime ∧ x.startTime ≤ finish

instance (start finish : Timestamp) (x : StoredSession) : Decidable (x.StartedIn start finish) :=
  inferInstanceAs (Decidable (_ ∧ _))

/-- The counts of stored sessions, added up. -/
def tokensOf : List StoredSession → Nat
  | [] => 0
  | x :: xs => x.totalTokens.toNat + tokensOf xs

namespace Store

variable {s : Store} {sessions : List StoredSession} {cipher : ContentCipher}
  {now start finish : Timestamp} {id : String} {operation : Operation}
  {answer : Except Abort Answer} {x x' : Option StoredSession} {m n : UInt64}

/-! ## The column -/

theorem storedTokens_toInt_of_le (h : 9223372036854775808 ≤ n.toNat) :
    (Row.storedTokens n).toInt = n.toNat - 18446744073709551616 := by
  have hn : (Row.storedTokens n).toInt = n.toBitVec.toInt := rfl
  have hcond := BitVec.toInt_eq_toNat_cond n.toBitVec
  rw [UInt64.toNat_toBitVec] at hcond
  rw [hn, hcond, if_neg (by omega)]
  rfl

theorem shownTokens_eq (n : UInt64) :
    Row.loadedTokens (Row.storedTokens n) = shownTokens n := by
  rw [shownTokens]
  split
  · next h => exact loadedTokens_storedTokens h
  · next h =>
      have hneg : (Row.storedTokens n).toInt ≤ 0 := by
        have hn := n.toNat_lt
        rw [storedTokens_toInt_of_le (by omega)]
        omega
      rw [Row.loadedTokens, Int.toNat_of_nonpos hneg]
      rfl

theorem storedTokens_le_iff :
    (Row.storedTokens m).toInt ≤ (Row.storedTokens n).toInt ↔ TokensLe m n := by
  have hm := m.toNat_lt
  have hn := n.toNat_lt
  rw [TokensLe, UInt64.le_iff_toNat_le]
  by_cases hm' : m.toNat < 9223372036854775808 <;> by_cases hn' : n.toNat < 9223372036854775808
  · rw [storedTokens_toInt hm', storedTokens_toInt hn', if_pos hm']
    omega
  · rw [storedTokens_toInt hm', storedTokens_toInt_of_le (by omega), if_pos hm']
    omega
  · rw [storedTokens_toInt_of_le (by omega), storedTokens_toInt hn', if_neg hm']
    omega
  · rw [storedTokens_toInt_of_le (by omega), storedTokens_toInt_of_le (by omega), if_neg hm']
    omega

/-! ## What a run brings -/

/-- The count that a reply tells was brought to the session of an id. -/
def broughtTokens? (id : String) (operation : Operation) : Except Abort Answer → Option UInt64
  | .ok _ => if operation.target? = some id then operation.tokens? else none
  | .error _ => none

/-- The count that was brought last to the session of an id. -/
def lastTokens (id : String) (replies : List Reply) : Option UInt64 :=
  (replies.filterMap fun r => broughtTokens? id r.1.operation r.2).getLast?

theorem lastTokens_concat (id : String) (replies : List Reply) (r : Reply) :
    lastTokens id (replies ++ [r])
      = (broughtTokens? id r.1.operation r.2).or (lastTokens id replies) := by
  rw [lastTokens, lastTokens, List.filterMap_append]
  cases h : broughtTokens? id r.1.operation r.2 <;> simp [h]

theorem broughtTokens?_of_spares (h : Spares id operation answer) :
    broughtTokens? id operation answer = none := by
  rcases h with h | ⟨e, rfl⟩
  · cases answer with
    | error e => rfl
    | ok a => exact if_neg h
  · rfl

/-- A call leaves the count of a session, or brings another. -/
theorem Transition.tokens (h : Transition cipher now id operation answer x x') :
    x'.map (·.totalTokens)
      = (broughtTokens? id operation answer).or (x.map (·.totalTokens)) := by
  cases h with
  | kept x hspares => rw [broughtTokens?_of_spares hspares, Option.none_or]
  | created hstored hid =>
      simp [broughtTokens?, Operation.target?, Operation.tokens?, hid, hstored.totalTokens]
  | updated old hstored hid =>
      simp [broughtTokens?, Operation.target?, Operation.tokens?, hid, hstored.totalTokens,
        StoredSession.merged, StoredSession.refreshed]
  | added old hstored => simp [broughtTokens?, Operation.tokens?, StoredSession.withMessage]
  | ended time duration answer old =>
      cases answer <;> simp [broughtTokens?, Operation.tokens?, StoredSession.ended]

theorem Sound.tokens_after {calls : List Call} (h : Sound s [])
    (hdirect : ∀ c ∈ calls, ¬ c.operation.IsOverwrite) :
    ∃ sessions, Sound (s.after calls) sessions ∧
      ∀ x ∈ sessions, lastTokens x.id (s.history calls) = some x.totalTokens := by
  obtain ⟨sessions, hsound, hlast⟩ := h.run
    (P := fun replies _ sessions => ∀ id,
      lastTokens id replies = (sessionOf sessions id).map (·.totalTokens))
    hdirect (fun c _ replies s sessions sessions' _ heffect _ hlast id => by
      rw [lastTokens_concat, hlast, (heffect.transition id).tokens])
    [] (fun _ => rfl)
  refine ⟨sessions, hsound, fun x hx => ?_⟩
  have hx' := hlast x.id
  rwa [hsound.sessionOf_id hx] at hx'

/-! ## What answers show -/

theorem exists_of_answers_bind {α β : Type} {action : Action α} {f : α → Action β} {b : β}
    (h : Answers (action >>= f) s b) : ∃ a s', Answers (f a) s' b := by
  rw [Answers] at h
  rcases hstep : s.perform action with ⟨_ | a, s'⟩
  · rw [perform_bind_error hstep] at h
    cases h
  · rw [perform_bind_ok hstep] at h
    exact ⟨a, s', h⟩

/-- An id and what is shown of the count of its session. -/
def ShowsCount (sessions : List StoredSession) (p : String × UInt64) : Prop :=
  ∃ x ∈ sessions, x.id = p.1 ∧ shownTokens x.totalTokens = p.2

theorem shown_of_row (h : s.table.Holds sessions) {row : Row} (hrow : row ∈ s.table.rows) :
    ShowsCount sessions (row.id, Row.loadedTokens row.totalTokens) := by
  obtain ⟨x, hx, rfl⟩ := exists_of_mem_rows h hrow
  exact ⟨x, hx, rfl, (shownTokens_eq _).symm⟩

theorem shown_of_loaded (h : s.table.Holds sessions) {row : Row} (hrow : row ∈ s.table.rows)
    {stored : StoredSession} (hstored : row.toStored = .ok stored) :
    ShowsCount sessions (stored.id, stored.totalTokens) := by
  obtain ⟨hid, htokens, -⟩ := toStored_ok hstored
  rw [hid, htokens]
  exact shown_of_row h hrow

theorem shown_of_listed (h : s.table.Holds sessions) {name : String}
    {timeout : TimeoutSettings → UInt64} {q : ListQuery} {summaries : List Summary}
    (hlist : Answers (listing name timeout q) s summaries) {v : Summary} (hv : v ∈ summaries) :
    ShowsCount sessions (v.id, v.totalTokens) := by
  obtain ⟨-, -, rows, hpage, hrows⟩ := answers_listing.1 hlist
  obtain ⟨l, hl, hsummary⟩ := exists_of_forall₂_right hrows hv
  obtain ⟨hid, htokens, -⟩ := summary_ok hsummary
  rw [hid, htokens]
  exact shown_of_row h (page_ok hpage l hl).1

/-- What an answer shows with an id is the count of its session. -/
theorem tokens_shown (h : s.table.Holds sessions) {a : Answer}
    (ha : (s.step now operation).1 = .ok a) : ∀ p ∈ a.tokens, ShowsCount sessions p := by
  have hsilent : ({ s with events := [] } : Store).table.Holds sessions := h
  have hlisting : ∀ name timeout q, Answers (Answer.summaries <$> listing name timeout q)
      { s with events := [] } a → ∀ p ∈ a.tokens, ShowsCount sessions p := by
    intro name timeout q ha p hp
    obtain ⟨summaries, hlist, rfl⟩ := (answers_map (Quiet.listing _ _ _)).1 ha
    obtain ⟨v, hv, rfl⟩ := List.mem_map.1 hp
    exact shown_of_listed hsilent hlist hv
  intro p hp
  cases operation with
  | get i =>
      obtain ⟨-, -, row, stored, hfound, hstored, rfl⟩ := step_get_ok.1 ha
      cases List.mem_singleton.1 hp
      exact shown_of_loaded h (List.mem_of_find?_eq_some hfound) hstored
  | active =>
      obtain ⟨-, loaded, hloads, rfl⟩ := step_active_ok.1 ha
      obtain ⟨session, hsession, rfl⟩ := List.mem_map.1 hp
      obtain ⟨row, hmem, stored, hstored, rfl⟩ := exists_of_forall₂_right hloads hsession
      exact shown_of_loaded h (mem_rows_of_mem_activeRows hmem) hstored
  | list q => exact hlisting _ _ _ (step_eq_ok.1 ha) p hp
  | listAll limit => exact hlisting _ _ _ (step_eq_ok.1 ha) p hp
  | listUser userId limit =>
      obtain ⟨summaries, hlist, rfl⟩ :=
        (answers_map (Quiet.listUser userId limit)).1 (step_eq_ok.1 ha)
      obtain ⟨v, hv, rfl⟩ := List.mem_map.1 hp
      exact shown_of_listed hsilent (answers_listUser hlist) hv
  | metrics start finish =>
      obtain ⟨figures, -, rfl⟩ := (answers_map (Quiet.metrics start finish)).1 (step_eq_ok.1 ha)
      cases hp
  | tokens start finish =>
      obtain ⟨-, -, total, -, rfl⟩ := step_tokens_ok.1 ha
      cases hp
  | overwrite i column v =>
      rw [step_eq_ok, run, map_eq_pure_bind] at ha
      obtain ⟨_, _, ha⟩ := exists_of_answers_bind ha
      cases answers_pure.1 ha
      cases hp
  | _ =>
      obtain ⟨_, _, ha⟩ := exists_of_answers_bind (step_eq_ok.1 ha)
      cases answers_pure.1 ha
      cases hp

/-! ## Sorting -/

theorem ordered_of_listsBefore {q : ListQuery} (hkey : q.sortKey = .totalTokens)
    {x y : StoredSession} (h : listsBefore q x y = true) :
    TokensOrdered q.direction x.totalTokens y.totalTokens := by
  have hinteger : ∀ {i j : Int}, (Ord.compare i j).isLE = true ↔ i ≤ j :=
    Std.LawfulLECmp.isLE_iff_le
  have hle : (compareIn q.direction (sortValueOf q.sortKey x)
      (sortValueOf q.sortKey y)).isLE = true := by
    rw [listsBefore, precedes_eq, comparePairs, compareLex, keyed, keyed] at h
    cases horder : compareIn q.direction (sortValueOf q.sortKey x) (sortValueOf q.sortKey y) with
    | gt => simp [horder] at h
    | _ => rfl
  rw [hkey] at hle
  cases hdirection : q.direction with
  | ascending =>
      rw [hdirection] at hle
      exact storedTokens_le_iff.1 (hinteger.1 hle)
  | descending =>
      rw [hdirection] at hle
      exact storedTokens_le_iff.1 (hinteger.1 hle)

/-- A listing that is sorted by counts shows sessions in the order of the column. -/
theorem ids_ordered (h : s.table.Holds sessions) {q : ListQuery}
    (hkey : q.sortKey = .totalTokens) {v : List Summary}
    (hv : (s.step now (.list q)).1 = .ok (.summaries v)) :
    ∃ shown : List StoredSession, v.map (·.id) = shown.map (·.id) ∧ (∀ x ∈ shown, x ∈ sessions) ∧
      shown.Pairwise fun x y => TokensOrdered q.direction x.totalTokens y.totalTokens := by
  obtain ⟨-, -, rows, summaries, hpage, hrows, hsummaries⟩ := step_list_ok.1 hv
  cases hsummaries
  cases (page_of_holds h q _).symm.trans hpage
  rw [List.forall₂_map_left_iff] at hrows
  refine ⟨((sortedFor q sessions).drop q.offset.toNat).take (q.pageSize
    s.settings.listing.defaultLimit s.settings.listing.maxLimit).toNat, ?_, fun x hx => ?_, ?_⟩
  · rw [← List.forall₂_eq_eq_eq, List.forall₂_map_left_iff, List.forall₂_map_right_iff]
    exact hrows.flip.imp fun v x hsummary => (summary_ok hsummary).1
  · have hmem := List.mem_of_mem_drop (List.mem_of_mem_take hx)
    exact (mem_sortedFor.1 hmem).1
  · exact ((sortedFor_pairwise q sessions).imp (ordered_of_listsBefore hkey)).sublist
      ((List.take_sublist _ _).trans (List.drop_sublist _ _))

/-! ## Adding up -/

/-- One step of a sum. -/
def addBounded (total v : Int) : Except DatabaseError Int :=
  let sum := total + v
  if -9223372036854775808 ≤ sum ∧ sum ≤ 9223372036854775807 then .ok sum
  else .error .integerOverflow

theorem boundedSum_eq (values : List Int) : boundedSum values = values.foldlM addBounded 0 := rfl

theorem addBounded_ok {i j v : Int} (h : addBounded i v = .ok j) : j < 9223372036854775808 := by
  rw [addBounded] at h
  split at h
  · cases h
    omega
  · cases h

/-- No sum of integers that is told leaves the column. -/
theorem boundedSum_lt {values : List Int} {total : Int} (h : boundedSum values = .ok total) :
    total < 9223372036854775808 := by
  have hfold : ∀ i < 9223372036854775808, values.foldlM addBounded i = .ok total →
      total < 9223372036854775808 := by
    clear h
    induction values with
    | nil =>
        intro i hi h
        cases h
        exact hi
    | cons v values ih =>
        intro i hi h
        rw [List.foldlM_cons] at h
        obtain ⟨sum, hsum, h⟩ := Except.bind_eq_ok.1 h
        exact ih sum (addBounded_ok hsum) h
  rw [boundedSum_eq] at h
  exact hfold 0 (by decide) h

/-- A sum of integers that are not negative is told exactly if it fits. -/
theorem boundedSum_of_nonneg {vs : List Int} (h : ∀ v ∈ vs, 0 ≤ v) :
    boundedSum vs
      = if vs.sum ≤ 9223372036854775807 then .ok vs.sum else .error .integerOverflow := by
  have hfold : ∀ a : Int, 0 ≤ a → a ≤ 9223372036854775807 →
      vs.foldlM addBounded a = if a + vs.sum ≤ 9223372036854775807 then .ok (a + vs.sum)
        else .error .integerOverflow := by
    induction vs with
    | nil =>
        intro a ha hmost
        rw [List.sum_nil, Int.add_zero, if_pos hmost]
        rfl
    | cons v vs ih =>
        intro a ha hmost
        have hv := h v List.mem_cons_self
        have hvs : ∀ w ∈ vs, 0 ≤ w := fun w hw => h w (List.mem_cons_of_mem v hw)
        rw [List.foldlM_cons, List.sum_cons, ← Int.add_assoc]
        by_cases hfits : a + v ≤ 9223372036854775807
        · have hstep : addBounded a v = .ok (a + v) := if_pos ⟨by omega, hfits⟩
          rw [hstep]
          exact ih hvs (a + v) (by omega) hfits
        · have hstep : addBounded a v = .error .integerOverflow := if_neg fun hboth =>
            hfits hboth.2
          have hrest := List.sum_nonneg hvs
          rw [hstep, if_neg (by omega)]
          rfl
  rw [boundedSum_eq, hfold 0 (Int.le_refl 0) (by decide), Int.zero_add]

/-- A sum of integers that are not negative does not depend on their order. -/
theorem boundedSum_perm {vs vs' : List Int} (hperm : vs.Perm vs') (h : ∀ v ∈ vs, 0 ≤ v) :
    boundedSum vs = boundedSum vs' := by
  rw [boundedSum_of_nonneg h, boundedSum_of_nonneg fun v hv => h v (hperm.mem_iff.2 hv),
    hperm.sum_eq]

theorem le_tokensOf {x : StoredSession} (hx : x ∈ sessions) :
    x.totalTokens.toNat ≤ tokensOf sessions := by
  induction sessions with
  | nil => cases hx
  | cons y sessions ih =>
      rw [tokensOf]
      rcases List.mem_cons.1 hx with rfl | hx
      · exact Nat.le_add_right _ _
      · exact Nat.le_trans (ih hx) (Nat.le_add_left _ _)

/-- Counts that stay below 2^63 together are stored as they are. -/
theorem storedTokens_nonneg (h : tokensOf sessions < 9223372036854775808) :
    ∀ v ∈ sessions.map fun x => (Row.storedTokens x.totalTokens).toInt, 0 ≤ v := by
  refine List.forall_mem_map.2 fun x hx => ?_
  rw [storedTokens_toInt (Nat.lt_of_le_of_lt (le_tokensOf hx) h)]
  exact Int.natCast_nonneg _

/-- A sum of counts that stays below 2^63 is told. -/
theorem boundedSum_tokens (h : tokensOf sessions < 9223372036854775808) :
    boundedSum (sessions.map fun x => (Row.storedTokens x.totalTokens).toInt)
      = .ok (tokensOf sessions : Int) := by
  have hsum : (sessions.map fun x => (Row.storedTokens x.totalTokens).toInt).sum
      = tokensOf sessions := by
    have hfit := fun x hx => storedTokens_toInt (Nat.lt_of_le_of_lt (le_tokensOf (x := x) hx) h)
    clear h
    induction sessions with
    | nil => rfl
    | cons x sessions ih =>
        rw [List.map_cons, List.sum_cons, tokensOf, hfit x List.mem_cons_self,
          ih fun y hy => hfit y (List.mem_cons_of_mem x hy), Int.natCast_add]
  rw [boundedSum_of_nonneg (storedTokens_nonneg h), hsum, if_pos (by omega)]

/-- With plain years, a row starts in a window exactly if its session did. -/
theorem startsIn_ofStored {x : StoredSession} (hstart : start.HasPlainYear)
    (hfinish : finish.HasPlainYear) (hx : x.startTime.HasPlainYear) :
    startsIn start finish (Row.ofStored x) = decide (x.StartedIn start finish) := by
  rw [Bool.eq_iff_iff, decide_eq_true_iff]
  simp [startsIn, StoredSession.StartedIn, Row.ofStored, Timestamp.toColumn_le_iff hstart hx,
    Timestamp.toColumn_le_iff hx hfinish]

theorem filter_startsIn (hstart : start.HasPlainYear) (hfinish : finish.HasPlainYear)
    (hplain : ∀ x ∈ sessions, x.startTime.HasPlainYear) :
    (sessions.map Row.ofStored).filter (startsIn start finish)
      = (sessions.filter fun x => x.StartedIn start finish).map Row.ofStored := by
  rw [List.filter_map]
  refine congrArg (List.map Row.ofStored) (List.filter_congr fun x hx => ?_)
  rw [Function.comp, startsIn_ofStored hstart hfinish (hplain x hx)]

/-- The exact sum over a window is told exactly if it is below 2^63. -/
theorem tokens_iff (h : s.table.Holds sessions) (hopen : s.closed = false)
    (hrange : ¬ finish < start) (hstart : start.HasPlainYear) (hfinish : finish.HasPlainYear)
    (hplain : ∀ x ∈ sessions, x.startTime.HasPlainYear) :
    (s.step now (.tokens start finish)).1
        = .ok (.count (tokensOf (sessions.filter fun x => x.StartedIn start finish)))
      ↔ tokensOf (sessions.filter fun x => x.StartedIn start finish) < 9223372036854775808 := by
  have hrows : ((summedRows start finish s.table).map (·.totalTokens.toInt)).Perm
      ((sessions.filter fun x => x.StartedIn start finish).map
        fun x => (Row.storedTokens x.totalTokens).toInt) := by
    refine ((summedRows_perm start finish s.table).map _).trans (.of_eq ?_)
    rw [show s.table.rows = sessions.map Row.ofStored from h,
      filter_startsIn hstart hfinish hplain, List.map_map]
    rfl
  rw [step_tokens_ok, windowTokens]
  constructor
  · intro h'
    obtain ⟨-, -, total, htotal, hcount⟩ := h'
    have hlt := boundedSum_lt htotal
    have hn : (countOf total).toNat ≤ total.toNat := by
      rw [countOf, UInt64.toNat_ofNat']
      exact Nat.mod_le _ _
    rw [← Answer.count.inj hcount]
    omega
  · intro hlt
    have hsum := boundedSum_perm hrows.symm (storedTokens_nonneg hlt)
    refine ⟨hopen, hrange, _, hsum.symm.trans (boundedSum_tokens hlt), ?_⟩
    rw [countOf, Int.toNat_natCast, UInt64.toNat_ofNat_of_lt' (by simp [UInt64.size]; omega)]

/-! ## Runs -/

/-- After every run without faults, each session has the count that was brought last, and
a reply shows it exactly if it is below 2^63. Sessions that are sorted by it follow each
other as in its column, and the exact sum over a window is told exactly if it is below
2^63. -/
theorem tokens_after_run (settings : Settings) (cipher : ContentCipher) (nonces : Cipher.Nonces)
    (calls : List Call)
    (hcalls : ∀ c ∈ calls, ¬ c.operation.IsOverwrite ∧ c.operation ≠ .shutdown) :
    let s := (fresh settings cipher nonces).after calls
    let replies := (fresh settings cipher nonces).history calls
    ∃ sessions, s.table.Holds sessions ∧
      (∀ x ∈ sessions, lastTokens x.id replies = some x.totalTokens ∧
        (x.HasPlainYears → ∀ now, ∃ session, (s.step now (.get x.id)).1 = .ok (.session session) ∧
          session.totalTokens = shownTokens x.totalTokens)) ∧
      (∀ now operation answer, (s.step now operation).1 = .ok answer → ∀ p ∈ answer.tokens,
        ∃ n, lastTokens p.1 replies = some n ∧ p.2 = shownTokens n) ∧
      (∀ now q v, q.sortKey = .totalTokens → (s.step now (.list q)).1 = .ok (.summaries v) →
        (v.map (·.id)).Pairwise fun i j => ∀ m ∈ lastTokens i replies,
          ∀ n ∈ lastTokens j replies, TokensOrdered q.direction m n) ∧
      ∀ now start finish, ¬ finish < start → start.HasPlainYear → finish.HasPlainYear →
        (∀ x ∈ sessions, x.startTime.HasPlainYear) →
        let total := tokensOf (sessions.filter fun x => x.StartedIn start finish)
        ((s.step now (.tokens start finish)).1 = .ok (.count total)
          ↔ total < 9223372036854775808) := by
  intro s replies
  obtain ⟨held, hheld, hopen, -⟩ := sound_after_run settings cipher nonces hcalls
  obtain ⟨sessions, hsound, hlast⟩ := (sound_fresh settings cipher nonces).tokens_after
    fun c hc => (hcalls c hc).1
  refine ⟨sessions, hsound.holds, fun x hx => ⟨hlast x hx, fun hplain now => ?_⟩,
    fun now operation answer hanswer p hp => ?_, fun now q v hkey hv => ?_, ?_⟩
  · exact ⟨_, step_get_ok.2 ⟨hopen, hsound.named x hx, _, _, hsound.row?_of_mem hx,
      Row.toStored_ofStored hplain, rfl⟩, shownTokens_eq x.totalTokens⟩
  · obtain ⟨x, hx, hid, htokens⟩ := tokens_shown hsound.holds hanswer p hp
    exact ⟨x.totalTokens, by rw [← hid, hlast x hx], htokens.symm⟩
  · obtain ⟨shown, hids, hmem, hordered⟩ := ids_ordered hsound.holds hkey hv
    rw [hids, List.pairwise_map]
    refine hordered.imp_of_mem fun {x y} hx hy hxy m hm n hn => ?_
    rw [hlast x (hmem x hx)] at hm
    rw [hlast y (hmem y hy)] at hn
    cases hm
    cases hn
    exact hxy
  · exact fun now start finish hrange hstart hfinish hplain =>
      tokens_iff hsound.holds hopen hrange hstart hfinish hplain

/-- A session has 2^63 tokens from the beginning, and another seven in the end. -/
def hugeCount : List Call := [
  ⟨.epoch, .create { Session.start "a" "u" .epoch with totalTokens := 9223372036854775808 }⟩,
  ⟨.epoch, .create { Session.start "b" "u" .epoch with totalTokens := 5 }⟩,
  ⟨.epoch, .update { Session.start "b" "u" .epoch with totalTokens := 7 }⟩]

/-- Of the 2^63 tokens none is shown, of the others all seven. -/
theorem tokens_after_hugeCount :
    (∃ answer, (((fresh .standard .disabled (.counting 0)).after hugeCount).step .epoch
        (.get "a")).1 = .ok answer ∧ answer.tokens = [("a", 0)]) ∧
      ∃ answer, (((fresh .standard .disabled (.counting 0)).after hugeCount).step .epoch
        (.get "b")).1 = .ok answer ∧ answer.tokens = [("b", 7)] := by
  have hcalls : ∀ c ∈ hugeCount, ¬ c.operation.IsOverwrite ∧ c.operation ≠ .shutdown := by
    intro c hc
    simp only [hugeCount, List.mem_cons, List.not_mem_nil, or_false] at hc
    rcases hc with rfl | rfl | rfl <;> exact ⟨id, nofun⟩
  obtain ⟨sessions, -, -, hshown, -⟩ := tokens_after_run .standard .disabled (.counting 0) hugeCount
      hcalls
  have hget : ∀ id n, lastTokens id ((fresh .standard .disabled (.counting 0)).history hugeCount)
      = some n →
      ((((fresh .standard .disabled (.counting 0)).after hugeCount).step .epoch
        (.get id)).1.toOption.map fun answer => answer.tokens.map (·.1)) = some [id] →
      ∃ answer, (((fresh .standard .disabled (.counting 0)).after hugeCount).step .epoch
        (.get id)).1 = .ok answer ∧ answer.tokens = [(id, shownTokens n)] := by
    intro id n hlast hids
    cases hanswer : (((fresh .standard .disabled (.counting 0)).after hugeCount).step .epoch
      (.get id)).1 with
    | error e =>
        rw [hanswer] at hids
        cases hids
    | ok answer =>
        rw [hanswer] at hids
        obtain ⟨⟨i, shown⟩, hone, rfl⟩ := List.map_eq_singleton_iff.1 (Option.some.inj hids)
        obtain ⟨m, hm, hshow⟩ := hshown .epoch (.get i) answer hanswer (i, shown) (by simp [hone])
        cases hlast.symm.trans hm
        exact ⟨answer, rfl, by rw [hone, ← hshow]⟩
  exact ⟨hget "a" 9223372036854775808 (by decide +kernel) (by decide +kernel),
    hget "b" 7 (by decide +kernel) (by decide +kernel)⟩

/-- What `hugeCount` leaves. -/
def hugeSessions : List StoredSession := [
  { bareStored "a" none [] with totalTokens := 9223372036854775808 },
  { bareStored "b" none [] with totalTokens := 7 }]

theorem hugeCount_plain : ∀ c ∈ hugeCount, c.operation.Writes ∧ c.HasPlainYears := by
  have hepoch : Timestamp.epoch.HasPlainYear := by decide
  have hnone : ∀ t ∈ (none : Option Timestamp), t.HasPlainYear := by simp
  intro c hc
  simp only [hugeCount, List.mem_cons, List.not_mem_nil, or_false] at hc
  rcases hc with rfl | rfl | rfl <;> exact ⟨trivial, hepoch, hepoch, hnone, hepoch⟩

/-- Without faults and with plain years, a session is loaded with another count than it was
created with, and a sum that fits 64 bits is not told. -/
theorem tokens_not_kept :
    (¬ ∀ (settings : Settings) (cipher : ContentCipher) (nonces : Cipher.Nonces)
        (calls : List Call), (∀ c ∈ calls, c.operation.Writes ∧ c.HasPlainYears) →
      ∀ now id answer,
        (((fresh settings cipher nonces).after calls).step now (.get id)).1 = .ok answer →
        ∀ p ∈ answer.tokens,
          lastTokens p.1 ((fresh settings cipher nonces).history calls) = some p.2) ∧
    ¬ ∀ (settings : Settings) (cipher : ContentCipher) (nonces : Cipher.Nonces)
        (calls : List Call), (∀ c ∈ calls, c.operation.Writes ∧ c.HasPlainYears) →
      ∀ sessions, ((fresh settings cipher nonces).after calls).table.Holds sessions →
      ∀ now start finish, ¬ finish < start →
        let total := tokensOf (sessions.filter fun x => x.StartedIn start finish)
        total < 18446744073709551616 →
        (((fresh settings cipher nonces).after calls).step now (.tokens start finish)).1
          = .ok (.count total) := by
  refine ⟨fun h => ?_, fun h => ?_⟩
  · have hshown : ((((fresh .standard .disabled (.counting 0)).after hugeCount).step .epoch
        (.get "a")).1.toOption.map Answer.tokens) = some [("a", 0)] := by decide +kernel
    cases hanswer : (((fresh .standard .disabled (.counting 0)).after hugeCount).step .epoch
      (.get "a")).1 with
    | error e =>
        rw [hanswer] at hshown
        cases hshown
    | ok answer =>
        rw [hanswer] at hshown
        have hkept := h .standard .disabled (.counting 0) hugeCount hugeCount_plain .epoch "a"
            answer hanswer
          ("a", 0) (by rw [Option.some.inj hshown]; exact List.mem_singleton_self _)
        exact absurd hkept (by decide +kernel)
  · have htold : ((((fresh .standard .disabled (.counting 0)).after hugeCount).step .epoch
        (.tokens .epoch .epoch)).1.toOption.map fun | .count n => n | _ => 1) = some 0 := by
      decide +kernel
    have hheld : ((fresh .standard .disabled (.counting 0)).after hugeCount).table.rows
        = hugeSessions.map Row.ofStored := by decide +kernel
    have htotal := h .standard .disabled (.counting 0) hugeCount hugeCount_plain hugeSessions hheld
        .epoch .epoch .epoch (by decide) (by decide)
    rw [htotal] at htold
    exact absurd htold (by decide)

end Store

end ChatArchive
