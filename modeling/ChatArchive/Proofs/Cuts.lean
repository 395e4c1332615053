import Mathlib.Data.List.Basic

/-!
# Cutting a sorted list

A limit leaves the beginning of a sorted list. Sorting keeps the order of what is level, so
the order in which a list came may show in what is left of it. Where it cannot show is told
by counting: an item is left if fewer than the limit come strictly before it, and it is cut
if more than the limit come before it or with it.
-/

namespace ChatArchive

variable {α : Type} {le : α → α → Bool} {l l' : List α} {n : Nat} {a b : α}

/-- How many items come strictly before another. -/
def ahead (le : α → α → Bool) (a : α) (l : List α) : Nat := l.countP fun b => !le a b

/-- How many items come before another or with it. -/
def reaching (le : α → α → Bool) (a : α) (l : List α) : Nat := l.countP fun b => le b a

/-- No two items that are level with each other are left by a limit. -/
def Untied (le : α → α → Bool) (n : Nat) (l : List α) : Prop :=
  ∀ a ∈ l, ∀ b ∈ l, a ≠ b → le a b = true → le b a = true → n ≤ ahead le a l

/-- A limit does not cut between items that are level with each other. -/
def Uncut (le : α → α → Bool) (n : Nat) (l : List α) : Prop :=
  ∀ a ∈ l, n ≤ ahead le a l ∨ reaching le a l ≤ n

theorem ahead_perm (h : l.Perm l') (a : α) : ahead le a l = ahead le a l' := h.countP_eq _

theorem reaching_perm (h : l.Perm l') (a : α) : reaching le a l = reaching le a l' :=
  h.countP_eq _

theorem Uncut.perm (hperm : l.Perm l') (h : Uncut le n l) : Uncut le n l' := by
  intro a ha
  rw [← ahead_perm hperm, ← reaching_perm hperm]
  exact h a (hperm.mem_iff.2 ha)

/-- What is left of a list, told by a test that everything that is left passes and
everything that is cut fails. -/
theorem take_eq_filter {p : α → Bool} (hleft : ∀ a ∈ l.take n, p a = true)
    (hcut : ∀ a ∈ l.drop n, ¬ p a = true) : l.take n = l.filter p := by
  conv_rhs => rw [← List.take_append_drop n l]
  rw [List.filter_append, List.filter_eq_self.2 hleft, List.filter_eq_nil_iff.2 hcut,
    List.append_nil]

theorem length_take_of_mem_drop (ha : a ∈ l.drop n) : (l.take n).length = n := by
  have hpos := List.length_pos_of_mem ha
  rw [List.length_drop] at hpos
  exact List.length_take_of_le (by omega)

/-- What is left of a sorted list comes before what is cut. -/
theorem rel_of_mem_take_of_mem_drop {r : α → α → Prop} (hsorted : l.Pairwise r)
    (hb : b ∈ l.take n) (ha : a ∈ l.drop n) : r b a := by
  rw [← List.take_append_drop n l] at hsorted
  exact (List.pairwise_append.1 hsorted).2.2 b hb a ha

theorem rel_of_mem_take_of_cut {r : α → α → Prop} (hsorted : l.Pairwise r)
    (hb : b ∈ l.take n) (ha : a ∈ l) (hcut : a ∉ l.take n) : r b a := by
  rw [← List.take_append_drop n l, List.mem_append] at ha
  exact rel_of_mem_take_of_mem_drop hsorted hb (ha.resolve_left hcut)

/-- Of two items of one list, the one further behind has the other before it. -/
theorem eq_or_mem_of_append_cons {u u' v v' : List α} (h : u ++ a :: v = u' ++ b :: v') :
    a = b ∨ a ∈ u' ∨ b ∈ u := by
  rcases List.append_eq_append_iff.1 h with ⟨rest, hrest, htail⟩ | ⟨rest, hrest, htail⟩
  · cases rest with
    | nil => exact Or.inl (List.cons.inj htail).1
    | cons c rest =>
        rw [hrest, (List.cons.inj htail).1]
        exact Or.inr (Or.inl (by simp))
  · cases rest with
    | nil => exact Or.inl (List.cons.inj htail).1.symm
    | cons c rest =>
        rw [hrest, (List.cons.inj htail).1]
        exact Or.inr (Or.inr (by simp))

/-- Sorting and cutting what a function yields. -/
theorem take_mergeSort_map {β : Type} (f : α → β) (le : β → β → Bool) (l : List α) (n : Nat) :
    ((l.map f).mergeSort le).take n
      = ((l.mergeSort fun a b => le (f a) (f b)).take n).map f := by
  rw [List.map_take, List.map_mergeSort (s := le) fun a _ b _ => rfl]

section Sorted

variable (htrans : ∀ a b c, le a b = true → le b c = true → le a c = true)
  (htotal : ∀ a b, (le a b || le b a) = true)

include htotal in
theorem le_refl_of_total (a : α) : le a a = true := by simpa using htotal a a

include htotal in
/-- Fewer than the limit come strictly before an item that is left. -/
theorem ahead_lt_of_mem_take (hsorted : l.Pairwise fun a b => le a b = true)
    (ha : a ∈ l.take n) : ahead le a l < n := by
  obtain ⟨front, back, htake⟩ := List.append_of_mem ha
  have hl : l = front ++ a :: (back ++ l.drop n) := by
    conv_lhs => rw [← List.take_append_drop n l, htake]
    simp
  have hbehind : ∀ b ∈ a :: (back ++ l.drop n), le a b = true := by
    rw [hl] at hsorted
    intro b hb
    rcases List.mem_cons.1 hb with rfl | hb
    · exact le_refl_of_total htotal b
    · exact (List.pairwise_cons.1 (List.pairwise_append.1 hsorted).2.1).1 b hb
  have hlength : front.length < n := by
    have := List.length_take_le n l
    rw [htake, List.length_append, List.length_cons] at this
    omega
  have hnone : (a :: (back ++ l.drop n)).countP (fun b => !le a b) = 0 :=
    List.countP_eq_zero.2 fun b hb => by simp [hbehind b hb]
  rw [ahead, hl, List.countP_append, hnone]
  exact Nat.lt_of_le_of_lt List.countP_le_length hlength

include htotal in
/-- More than the limit come before an item that is cut, or with it. -/
theorem lt_reaching_of_mem_drop (hsorted : l.Pairwise fun a b => le a b = true)
    (ha : a ∈ l.drop n) : n < reaching le a l := by
  have hfront : ∀ b ∈ l.take n, le b a = true := fun b hb =>
    rel_of_mem_take_of_mem_drop (r := fun a b => le a b = true) hsorted hb ha
  have hself : 0 < (l.drop n).countP fun b => le b a :=
    List.countP_pos_iff.2 ⟨a, ha, le_refl_of_total htotal a⟩
  rw [reaching, ← List.take_append_drop n l, List.countP_append,
    List.countP_eq_length.2 hfront, length_take_of_mem_drop ha]
  omega

include htrans htotal

/-- If some test tells in every order what is left from what is cut, the same is left of all
orders. -/
theorem take_mergeSort_perm_of {p : α → Bool} (h : l.Perm l')
    (hleft : ∀ m, l.Perm m → m.Pairwise (fun a b => le a b = true) → ∀ a ∈ m.take n, p a = true)
    (hcut : ∀ m, l.Perm m → m.Pairwise (fun a b => le a b = true) → ∀ a ∈ m.drop n, ¬ p a = true) :
    ((l.mergeSort le).take n).Perm ((l'.mergeSort le).take n) := by
  have hfilter : ∀ m, l.Perm m → (m.mergeSort le).take n = (m.mergeSort le).filter p := by
    intro m hm
    have hsorted := List.pairwise_mergeSort htrans htotal m
    have hperm : l.Perm (m.mergeSort le) := hm.trans (List.mergeSort_perm m le).symm
    exact take_eq_filter (hleft _ hperm hsorted) (hcut _ hperm hsorted)
  rw [hfilter l (.refl l), hfilter l' h]
  refine List.Perm.filter _ ?_
  exact (List.mergeSort_perm l le).trans (h.trans (List.mergeSort_perm l' le).symm)

/-- If a limit does not cut between items that are level, what is left of a list does not
depend on the order in which the list came, up to order. -/
theorem take_mergeSort_perm (h : l.Perm l') (huncut : Uncut le n l) :
    ((l.mergeSort le).take n).Perm ((l'.mergeSort le).take n) := by
  refine take_mergeSort_perm_of (p := fun a => reaching le a l ≤ n) htrans htotal h
    (fun m hperm hsorted a ha => ?_) fun m hperm hsorted a ha => ?_
  · have hfew := ahead_lt_of_mem_take htotal hsorted ha
    rw [← ahead_perm hperm] at hfew
    have hmem := hperm.mem_iff.2 (List.mem_of_mem_take ha)
    exact decide_eq_true ((huncut a hmem).resolve_left (Nat.not_le.2 hfew))
  · have hmany := lt_reaching_of_mem_drop htotal hsorted ha
    rw [← reaching_perm hperm] at hmany
    simpa using hmany

/-- If no items that are left are level, what is left of a list does not depend on the order
in which the list came. -/
theorem take_mergeSort_eq (h : l.Perm l') (hnodup : l.Nodup) (huntied : Untied le n l) :
    (l.mergeSort le).take n = (l'.mergeSort le).take n := by
  have hsame : ((l.mergeSort le).take n).Perm ((l'.mergeSort le).take n) := by
    refine take_mergeSort_perm_of (p := fun a => ahead le a l < n) htrans htotal h
      (fun m hperm hsorted a ha => ?_) fun m hperm hsorted a ha => ?_
    · rw [ahead_perm hperm]
      exact decide_eq_true (ahead_lt_of_mem_take htotal hsorted ha)
    · -- a full page stands before the item, and one that is level with it would be untied
      have hapart : ∀ b ∈ m.take n, b ≠ a := fun b hb =>
        rel_of_mem_take_of_mem_drop (hperm.nodup_iff.1 hnodup) hb ha
      have hfront : ∀ b ∈ m.take n, le b a = true := fun b hb =>
        rel_of_mem_take_of_mem_drop (r := fun a b => le a b = true) hsorted hb ha
      have hmem := hperm.mem_iff.2 (List.mem_of_mem_drop ha)
      rw [decide_eq_true_eq, Nat.not_lt]
      by_cases hlevel : ∃ b ∈ m.take n, le a b = true
      · obtain ⟨b, hb, hle⟩ := hlevel
        have hmem' := hperm.mem_iff.2 (List.mem_of_mem_take hb)
        exact huntied a hmem b hmem' (hapart b hb).symm hle (hfront b hb)
      · have hstrict : ∀ b ∈ m.take n, (!le a b) = true := by
          intro b hb
          rw [Bool.not_eq_true']
          exact Bool.eq_false_iff.2 fun hle => hlevel ⟨b, hb, hle⟩
        rw [ahead_perm hperm, ahead, ← List.take_append_drop n m, List.countP_append,
          List.countP_eq_length.2 hstrict, length_take_of_mem_drop ha]
        exact Nat.le_add_right n _
  have hsorted : ∀ m : List α, ((m.mergeSort le).take n).Pairwise fun a b => le a b = true :=
    fun m => (List.pairwise_mergeSort htrans htotal m).sublist (List.take_sublist n _)
  refine hsame.eq_of_pairwise (fun a b ha hb hab hba => ?_) (hsorted l) (hsorted l')
  by_contra hne
  have hfew := ahead_lt_of_mem_take htotal (List.pairwise_mergeSort htrans htotal l) ha
  rw [← ahead_perm (List.mergeSort_perm l le).symm] at hfew
  have hmem : a ∈ l := List.mem_mergeSort.1 (List.mem_of_mem_take ha)
  have hmem' : b ∈ l := h.mem_iff.2 (List.mem_mergeSort.1 (List.mem_of_mem_take hb))
  exact absurd (huntied a hmem b hmem' hne hab hba) (Nat.not_le.2 hfew)

/-- An item that heads a list comes first of those that are level with it, so all before it
come strictly before it. -/
theorem take_mergeSort_cons (a : α) (l : List α) (hfew : ahead le a l < n) :
    ∃ front back, ((a :: l).mergeSort le).take n = front ++ a :: back ∧
      ∀ b ∈ front, le a b = false := by
  obtain ⟨front, back, hsorted, hrest, hfront⟩ := List.mergeSort_cons htrans htotal a l
  have hstrict : ∀ b ∈ front, le a b = false := fun b hb => by simpa using hfront b hb
  have hlength : front.length < n := by
    refine Nat.lt_of_le_of_lt ?_ hfew
    rw [ahead_perm (List.mergeSort_perm l le).symm, ahead, hrest, List.countP_append]
    rw [List.countP_eq_length.2 fun b hb => by simp [hstrict b hb]]
    exact Nat.le_add_right _ _
  refine ⟨front, back.take (n - front.length - 1), ?_, hstrict⟩
  rw [hsorted, List.take_append, List.take_of_length_le (Nat.le_of_lt hlength)]
  rw [show n - front.length = n - front.length - 1 + 1 by omega, List.take_succ_cons]
  rfl

/-- Two items that are level and left show in which order they came, to everything that tells
items apart. -/
theorem map_take_mergeSort_ne {β : Type} {f : α → β} (hne : a ≠ b) (hab : le a b = true)
    (hba : le b a = true) (hfew : ahead le a l < n)
    (hinj : ∀ c ∈ a :: b :: l, ∀ d ∈ a :: b :: l, f c = f d → c = d) :
    (((a :: b :: l).mergeSort le).take n).map f ≠ (((b :: a :: l).mergeSort le).take n).map f := by
  have hlevel : ahead le b l = ahead le a l := List.countP_congr fun c _ => by
    rw [Bool.not_eq_true', Bool.not_eq_true', Bool.eq_false_iff, Bool.eq_false_iff]
    exact not_congr ⟨htrans a b c hab, htrans b a c hba⟩
  have hahead : ahead le a (b :: l) < n := by
    rwa [ahead, List.countP_cons_of_neg (by simp [hab])]
  have hahead' : ahead le b (a :: l) < n := by
    rw [← hlevel] at hfew
    rwa [ahead, List.countP_cons_of_neg (by simp [hba])]
  obtain ⟨front, back, htake, hfront⟩ := take_mergeSort_cons htrans htotal a (b :: l) hahead
  obtain ⟨front', back', htake', hfront'⟩ := take_mergeSort_cons htrans htotal b (a :: l) hahead'
  have hmem : ∀ c ∈ front ++ a :: back, c ∈ a :: b :: l := fun c hc => by
    rw [← htake] at hc
    exact List.mem_mergeSort.1 (List.mem_of_mem_take hc)
  have hmem' : ∀ c ∈ front' ++ b :: back', c ∈ a :: b :: l := fun c hc => by
    rw [← htake'] at hc
    exact (List.Perm.swap a b l).mem_iff.1 (List.mem_mergeSort.1 (List.mem_of_mem_take hc))
  intro hsame
  rw [htake, htake', List.map_append, List.map_append, List.map_cons, List.map_cons] at hsame
  rcases eq_or_mem_of_append_cons hsame with hfab | hfa | hfb
  · exact hne (hinj a List.mem_cons_self b (by simp) hfab)
  · -- then `a` would come strictly before `b`
    obtain ⟨c, hc, hfc⟩ := List.mem_map.1 hfa
    have hca := hinj c (hmem' c (List.mem_append_left _ hc)) a List.mem_cons_self hfc
    rw [hca] at hc
    rw [hfront' a hc] at hba
    cases hba
  · obtain ⟨c, hc, hfc⟩ := List.mem_map.1 hfb
    have hcb := hinj c (hmem c (List.mem_append_left _ hc)) b (by simp) hfc
    rw [hcb] at hc
    rw [hfront b hc] at hab
    cases hab

/-- Sorting puts items in order and keeps the order in which those came that are level. -/
theorem pairwise_mergeSort_level {r : α → α → Prop} (h : l.Pairwise r) :
    (l.mergeSort le).Pairwise fun a b => le a b = true ∧ (le b a = true → r a b) := by
  induction l with
  | nil => simp
  | cons a l ih =>
      obtain ⟨front, back, hsorted, hrest, hfront⟩ := List.mergeSort_cons htrans htotal a l
      have hordered := List.pairwise_mergeSort htrans htotal (a :: l)
      have hlevel := ih h.of_cons
      rw [hrest] at hlevel
      rw [hsorted] at hordered ⊢
      obtain ⟨-, hbehind, hacross⟩ := List.pairwise_append.1 hordered
      obtain ⟨hfronts, hbacks, hboth⟩ := List.pairwise_append.1 hlevel
      refine List.pairwise_append.2 ⟨hfronts, List.pairwise_cons.2 ⟨?_, hbacks⟩, ?_⟩
      · intro c hc
        have hmem : c ∈ l.mergeSort le := by
          rw [hrest]
          exact List.mem_append_right _ hc
        refine ⟨(List.pairwise_cons.1 hbehind).1 c hc, fun _ => ?_⟩
        exact (List.pairwise_cons.1 h).1 c (List.mem_mergeSort.1 hmem)
      · intro b hb c hc
        rcases List.mem_cons.1 hc with rfl | hc
        · -- what comes before the head of the list comes strictly before it
          refine ⟨hacross b hb c List.mem_cons_self, fun hlevel => ?_⟩
          have hstrict := hfront b hb
          simp [hlevel] at hstrict
        · exact hboth b hb c hc

end Sorted

theorem exists_perm_cons_cons (ha : a ∈ l) (hb : b ∈ l) (hne : a ≠ b) :
    ∃ rest, l.Perm (a :: b :: rest) := by
  obtain ⟨front, back, rfl⟩ := List.append_of_mem ha
  have hmem : b ∈ front ++ back := by
    rw [List.mem_append, List.mem_cons] at hb
    exact List.mem_append.2 (hb.imp_right fun h => h.resolve_left hne.symm)
  obtain ⟨front', back', hrest⟩ := List.append_of_mem hmem
  refine ⟨front' ++ back', List.perm_middle.trans (.cons a ?_)⟩
  rw [hrest]
  exact List.perm_middle

theorem mergeSort_pair (le : α → α → Bool) (a b : α) :
    [a, b].mergeSort le = if le a b then [a, b] else [b, a] := by
  rw [List.mergeSort]
  simp [List.MergeSort.Internal.splitInTwo, List.merge]

end ChatArchive
