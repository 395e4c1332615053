import ChatArchive.Store.Figures
import Mathlib.Algebra.Order.BigOperators.Group.List
import Mathlib.Algebra.Order.Ring.Int
import Mathlib.Data.List.Perm.Subperm

/-!
# The levels of a sweep

A sweep goes over the seconds at which something changes and keeps a running total of the
changes. The total after a second is the sum of all changes up to it, so over rows it is the
number of starts less the number of ends up to that second. Everything about concurrency
follows from counting: there are never more sessions running than rows, and a level is
negative exactly where more sessions have ended than started.
-/

namespace ChatArchive.Store

variable {cs : List Change} {rows : List Row} {b : Option Int}

/-! ## The order of seconds -/

theorem secondLe_refl (a : Option Int) : secondLe a a = true := by
  cases a with
  | none => rfl
  | some a => exact decide_eq_true (Int.le_refl a)

theorem secondLe_trans (a b c : Option Int) (h : secondLe a b = true)
    (h' : secondLe b c = true) : secondLe a c = true := by
  cases a with
  | none => rfl
  | some a =>
      cases b with
      | none => cases h
      | some b =>
          cases c with
          | none => cases h'
          | some c =>
              exact decide_eq_true (Int.le_trans (of_decide_eq_true h) (of_decide_eq_true h'))

theorem secondLe_total (a b : Option Int) : (secondLe a b || secondLe b a) = true := by
  cases a with
  | none => rfl
  | some a =>
      cases b with
      | none => rfl
      | some b => simpa [secondLe] using Int.le_total a b

theorem secondLe_antisymm {a b : Option Int} (h : secondLe a b = true)
    (h' : secondLe b a = true) : a = b := by
  cases a with
  | none =>
      cases b with
      | none => rfl
      | some b => cases h'
  | some a =>
      cases b with
      | none => cases h
      | some b =>
          exact congrArg some (Int.le_antisymm (of_decide_eq_true h) (of_decide_eq_true h'))

/-! ## The seconds of a sweep -/

theorem nodup_eraseDups (as : List (Option Int)) : as.eraseDups.Nodup := by
  generalize hlength : as.length = n
  induction n using Nat.strongRecOn generalizing as with
  | ind n ih =>
      cases as with
      | nil => exact List.nodup_nil
      | cons a as =>
          rw [List.eraseDups_cons, List.nodup_cons]
          have hshort := List.length_filter_le (fun b => !b == a) as
          rw [List.length_cons] at hlength
          refine ⟨fun hmem => ?_, ih _ (by omega) _ rfl⟩
          simpa using (List.mem_filter.1 (List.mem_eraseDups.1 hmem)).2

theorem mem_seconds : b ∈ seconds cs ↔ ∃ c ∈ cs, c.1 = b := by
  rw [seconds, List.mem_mergeSort, List.mem_eraseDups, List.mem_map]

theorem nodup_seconds (cs : List Change) : (seconds cs).Nodup :=
  (List.mergeSort_perm _ _).nodup_iff.2 (nodup_eraseDups _)

theorem pairwise_seconds (cs : List Change) :
    (seconds cs).Pairwise fun a b => secondLe a b = true :=
  List.pairwise_mergeSort secondLe_trans secondLe_total _

theorem length_seconds_le (cs : List Change) : (seconds cs).length ≤ cs.length := by
  have hsubset : seconds cs ⊆ cs.map (·.1) := fun b hb => List.mem_map.2 (mem_seconds.1 hb)
  have hlength := ((nodup_seconds cs).subperm hsubset).length_le
  rwa [List.length_map] at hlength

/-! ## Running totals -/

theorem foldl_add (a : Int) (vs : List Int) : vs.foldl (· + ·) a = a + vs.sum := by
  induction vs generalizing a with
  | nil => exact (Int.add_zero a).symm
  | cons v vs ih => rw [List.foldl_cons, ih, List.sum_cons, Int.add_assoc]

/-- The changes at some seconds, added up. -/
def netOf (p : Option Int → Bool) (cs : List Change) : Int :=
  ((cs.filter (p ·.1)).map (·.2)).sum

theorem netOf_cons (p : Option Int → Bool) (c : Change) (cs : List Change) :
    netOf p (c :: cs) = (if p c.1 then c.2 else 0) + netOf p cs := by
  rw [netOf, List.filter_cons]
  split
  · rfl
  · rw [Int.zero_add]
    rfl

theorem deltaAt_eq (cs : List Change) (b : Option Int) : deltaAt cs b = netOf (· = b) cs := by
  rw [deltaAt, foldl_add, Int.zero_add]
  rfl

theorem netOf_congr {p q : Option Int → Bool} (h : ∀ c ∈ cs, p c.1 = q c.1) :
    netOf p cs = netOf q cs := by
  rw [netOf, netOf, List.filter_congr h]

/-- Changes at different seconds are counted apart. -/
theorem netOf_or {p q : Option Int → Bool} (h : ∀ b, p b = true → q b = false)
    (cs : List Change) : netOf (fun b => p b || q b) cs = netOf p cs + netOf q cs := by
  induction cs with
  | nil => rfl
  | cons c cs ih =>
      rw [netOf_cons, netOf_cons, netOf_cons, ih]
      cases hp : p c.1 with
      | false =>
          cases q c.1 <;> simp
          omega
      | true =>
          simp [h c.1 hp]
          omega

/-- Running totals over sorted seconds are the sums of all changes so far: the total that a
rest of the seconds starts with is the sum of the changes before. -/
theorem runningTotals_eq {earlier bs : List (Option Int)}
    (hsorted : (earlier ++ bs).Pairwise fun a b => secondLe a b = true)
    (hnodup : (earlier ++ bs).Nodup) (hall : ∀ c ∈ cs, c.1 ∈ earlier ++ bs) :
    runningTotals (netOf (· ∈ earlier) cs) (bs.map (deltaAt cs))
      = bs.map fun b => netOf (secondLe · b) cs := by
  induction bs generalizing earlier with
  | nil => rfl
  | cons b bs ih =>
      obtain ⟨-, hnodup', hapart⟩ := List.nodup_append.1 hnodup
      obtain ⟨-, hsorted', hbefore⟩ := List.pairwise_append.1 hsorted
      have hnext : netOf (· ∈ earlier) cs + deltaAt cs b = netOf (· ∈ earlier ++ [b]) cs := by
        rw [deltaAt_eq, ← netOf_or fun a ha => ?_]
        · exact netOf_congr fun c _ => by simp
        · exact decide_eq_false (hapart a (of_decide_eq_true ha) b List.mem_cons_self)
      -- every change is at one of the seconds, and those not after `b` have been passed
      have hsum : netOf (· ∈ earlier ++ [b]) cs = netOf (secondLe · b) cs := by
        refine netOf_congr fun c hc => ?_
        rw [Bool.eq_iff_iff, decide_eq_true_eq, List.mem_append, List.mem_singleton]
        constructor
        · rintro (hmem | hsame)
          · exact hbefore c.1 hmem b List.mem_cons_self
          · rw [hsame]
            exact secondLe_refl b
        · intro hle
          rcases List.mem_append.1 (hall c hc) with hmem | hmem
          · exact Or.inl hmem
          · rcases List.mem_cons.1 hmem with hsame | hlater
            · exact Or.inr hsame
            · exact Or.inr (secondLe_antisymm hle ((List.pairwise_cons.1 hsorted').1 c.1 hlater))
      rw [List.append_cons] at hsorted hnodup hall
      rw [List.map_cons, List.map_cons, runningTotals, hnext, ih hsorted hnodup hall, hsum]

/-- A level is the sum of all changes up to its second. -/
theorem levels_eq (cs : List Change) :
    levels cs = (seconds cs).map fun b => netOf (secondLe · b) cs := by
  have hall : ∀ c ∈ cs, c.1 ∈ [] ++ seconds cs := fun c hc => mem_seconds.2 ⟨c, hc, rfl⟩
  have hnone : netOf (· ∈ ([] : List (Option Int))) cs = 0 := by
    rw [netOf, List.filter_eq_nil_iff.2 (by simp)]
    rfl
  rw [levels, ← hnone]
  exact runningTotals_eq (pairwise_seconds cs) (nodup_seconds cs) hall

/-! ## Levels of rows -/

/-- How many rows have started up to a second. -/
def startedBy (rows : List Row) (b : Option Int) : Nat :=
  rows.countP fun r => secondLe (secondOf r.startTime) b

/-- How many rows have ended up to a second. -/
def endedBy (rows : List Row) (b : Option Int) : Nat :=
  rows.countP fun r => r.endTime.any fun e => secondLe (secondOf e) b

theorem netOf_changes (rows : List Row) (b : Option Int) :
    netOf (secondLe · b) (rows.flatMap changes) = startedBy rows b - endedBy rows b := by
  induction rows with
  | nil => rfl
  | cons r rows ih =>
      rw [startedBy, endedBy] at ih ⊢
      rw [List.flatMap_cons, changes, List.countP_cons, List.countP_cons]
      cases r.endTime with
      | none =>
          rw [Option.toList_none, List.map_nil, List.singleton_append, netOf_cons, ih]
          simp only [Option.any_none, Bool.false_eq_true, if_false]
          split
          · push_cast
            omega
          · omega
      | some e =>
          rw [Option.toList_some, List.map_singleton, List.cons_append, List.singleton_append,
            netOf_cons, netOf_cons, ih]
          simp only [Option.any_some]
          split <;> split <;> push_cast <;> omega

/-- A level is the number of starts less the number of ends up to its second. -/
theorem levels_changes (rows : List Row) :
    levels (rows.flatMap changes) = (seconds (rows.flatMap changes)).map fun b =>
      (startedBy rows b : Int) - endedBy rows b := by
  rw [levels_eq]
  exact List.map_congr_left fun b _ => netOf_changes rows b

/-- A sweep has at most two seconds for each row. -/
theorem length_levels_le (rows : List Row) :
    (levels (rows.flatMap changes)).length ≤ 2 * rows.length := by
  have hchanges : (rows.flatMap changes).length ≤ 2 * rows.length := by
    induction rows with
    | nil => exact Nat.le_refl 0
    | cons r rows ih =>
        have hr : (changes r).length ≤ 2 := by
          rw [changes]
          cases r.endTime <;> simp
        rw [List.flatMap_cons, List.length_append, List.length_cons]
        omega
  have hseconds := length_seconds_le (rows.flatMap changes)
  rw [levels_changes, List.length_map]
  omega

theorem level_le_length {l : Int} (h : l ∈ levels (rows.flatMap changes)) : l ≤ rows.length := by
  rw [levels_changes] at h
  obtain ⟨b, -, rfl⟩ := List.mem_map.1 h
  have hstarted : startedBy rows b ≤ rows.length := List.countP_le_length
  omega

/-- No level is negative exactly if at no second more rows have ended than started. -/
theorem levels_nonneg_iff (rows : List Row) :
    (∀ l ∈ levels (rows.flatMap changes), 0 ≤ l) ↔
      ∀ b ∈ seconds (rows.flatMap changes), endedBy rows b ≤ startedBy rows b := by
  rw [levels_changes, List.forall_mem_map]
  refine forall₂_congr fun b _ => ?_
  omega

/-- Of rows that end in no earlier second than they start in, never more have ended than
started. -/
theorem endedBy_le_startedBy (h : ∀ r ∈ rows, ∀ e ∈ r.endTime,
    secondLe (secondOf r.startTime) (secondOf e) = true) (b : Option Int) :
    endedBy rows b ≤ startedBy rows b := by
  refine List.countP_mono_left fun r hr hended => ?_
  obtain ⟨e, he, hle⟩ := (Option.any_eq_true _ _).1 hended
  exact secondLe_trans _ _ _ (h r hr e he) hle

/-! ## The highest level and the sum -/

theorem foldl_max (a : Int) (ls : List Int) :
    a ≤ ls.foldl max a ∧ (∀ l ∈ ls, l ≤ ls.foldl max a) ∧
      (ls.foldl max a = a ∨ ls.foldl max a ∈ ls) := by
  induction ls generalizing a with
  | nil => exact ⟨Int.le_refl a, fun l hl => (by cases hl), Or.inl rfl⟩
  | cons v ls ih =>
      obtain ⟨hle, hall, hmem⟩ := ih (max a v)
      rw [List.foldl_cons]
      refine ⟨by omega, fun l hl => ?_, ?_⟩
      · rcases List.mem_cons.1 hl with rfl | hl
        · omega
        · exact hall l hl
      · rcases hmem with hmem | hmem
        · rw [hmem, List.mem_cons]
          omega
        · exact Or.inr (List.mem_cons_of_mem v hmem)

theorem le_peak {ls : List Int} {l : Int} (h : l ∈ ls) : l ≤ peak ls := by
  have := (foldl_max 0 ls).2.1 l h
  rw [peak]
  omega

theorem peak_mem (ls : List Int) : peak ls = 0 ∨ (peak ls : Int) ∈ ls := by
  obtain ⟨hle, -, hzero | hmem⟩ := foldl_max 0 ls
  · exact Or.inl (by rw [peak, hzero]; rfl)
  · refine Or.inr ?_
    rw [peak, Int.toNat_of_nonneg hle]
    exact hmem

theorem peak_le {ls : List Int} {n : Nat} (h : ∀ l ∈ ls, l ≤ n) : peak ls ≤ n := by
  rcases peak_mem ls with hzero | hmem
  · rw [hzero]
    exact Nat.zero_le n
  · exact_mod_cast h _ hmem

/-- The levels together are not above as many of the highest. -/
theorem sum_le_length_mul {ls : List Int} {n : Nat} (h : ∀ l ∈ ls, l ≤ n) :
    ls.sum ≤ ls.length * n := by
  have hsum := List.sum_le_card_nsmul ls (n : Int) h
  rwa [nsmul_eq_mul] at hsum

end ChatArchive.Store
