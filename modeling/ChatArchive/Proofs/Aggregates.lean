import ChatArchive.Proofs.Shown
import ChatArchive.Proofs.Sweep
import ChatArchive.Proofs.Tokens

/-!
# Figures of rows in any order

Figures over rows do not depend on the order of the rows. For a sum that is checked after
every step this is true where nothing is subtracted: then the sum fails on the way exactly
if it is too large in the end. Token counts are subtracted from 2^63 on, because columns
are signed.
-/

namespace ChatArchive.Store

open Time

variable {rows rows' : List Row} {vs vs' : List Int} {b : Option Int}

/-! ## Extremes and levels -/

theorem largest_spec (h : vs ≠ []) : largest vs ∈ vs ∧ ∀ v ∈ vs, v ≤ largest vs := by
  cases vs with
  | nil => exact absurd rfl h
  | cons v vs =>
      obtain ⟨hle, hall, hmem⟩ := foldl_max v vs
      refine ⟨?_, fun w hw => ?_⟩
      · rcases hmem with hsame | hmem
        · exact List.mem_cons.2 (Or.inl hsame)
        · exact List.mem_cons_of_mem v hmem
      · rcases List.mem_cons.1 hw with rfl | hw
        · exact hle
        · exact hall w hw

theorem largest_perm (hperm : vs.Perm vs') : largest vs = largest vs' := by
  by_cases hnil : vs = []
  · rw [hnil] at hperm
    rw [hnil, hperm.nil_eq]
  · obtain ⟨hmem, hall⟩ := largest_spec hnil
    have hnil' : vs' ≠ [] := by
      rintro rfl
      exact hnil hperm.eq_nil
    obtain ⟨hmem', hall'⟩ := largest_spec hnil'
    exact Int.le_antisymm (hall' _ (hperm.mem_iff.1 hmem)) (hall _ (hperm.mem_iff.2 hmem'))

theorem seconds_perm {cs cs' : List Change} (hperm : cs.Perm cs') : seconds cs = seconds cs' := by
  refine List.Perm.eq_of_pairwise (fun a b _ _ => secondLe_antisymm) (pairwise_seconds cs)
    (pairwise_seconds cs') ?_
  refine (List.perm_ext_iff_of_nodup (nodup_seconds cs) (nodup_seconds cs')).2 fun b => ?_
  rw [mem_seconds, mem_seconds]
  exact exists_congr fun c => and_congr_left fun _ => hperm.mem_iff

theorem levels_perm (hperm : rows.Perm rows') :
    levels (rows.flatMap changes) = levels (rows'.flatMap changes) := by
  rw [levels_changes, levels_changes, seconds_perm (hperm.flatMap_right changes)]
  refine List.map_congr_left fun b _ => ?_
  rw [startedBy, startedBy, endedBy, endedBy, hperm.countP_eq, hperm.countP_eq]

/-! ## Reports -/

/-- Rows as operations write them, with token counts that a column holds as they are. -/
def Counted (r : Row) : Prop := 0 ≤ r.adminAssisted.toInt ∧ 0 ≤ r.totalTokens.toInt

/-- The figures over rows do not depend on the order of the rows. -/
theorem reportOf_perm (hperm : rows.Perm rows') (hcounted : ∀ r ∈ rows, Counted r)
    (truncated : Bool) : reportOf rows truncated = reportOf rows' truncated := by
  have hassisted := boundedSum_perm (hperm.map (·.adminAssisted.toInt)) (by
    rw [List.forall_mem_map]
    exact fun r hr => (hcounted r hr).1)
  have htokens := boundedSum_perm (hperm.map (·.totalTokens.toInt)) (by
    rw [List.forall_mem_map]
    exact fun r hr => (hcounted r hr).2)
  have hresponses := (hperm.map (·.avgResponseMs.toInt)).filter (0 < ·)
  have hsum := boundedSum_perm hresponses fun v hv => by
    have := of_decide_eq_true (List.mem_filter.1 hv).2
    omega
  have hmost := largest_perm (hperm.map (·.maxResponseMs.toInt))
  have hactive : rows.countP (·.endTime.isNone) = rows'.countP (·.endTime.isNone) :=
    hperm.countP_eq _
  simp only [reportOf, hassisted, htokens, hsum, hmost, hactive, levels_perm hperm,
    hresponses.length_eq, hperm.length_eq]

/-! ## Windows -/

variable {start finish : Timestamp} {most : Nat} {t t' : Table} {x : StoredSession}
  {xs ys : List StoredSession} {cipher : ContentCipher}

/-- Stored sessions by their starts, the earliest first. -/
def startedFirst (x y : StoredSession) : Bool := startsFirst (Row.ofStored x) (Row.ofStored y)

theorem startedFirst_trans (x y z : StoredSession) (h : startedFirst x y = true)
    (h' : startedFirst y z = true) : startedFirst x z = true := startsFirst_trans _ _ _ h h'

theorem startedFirst_total (x y : StoredSession) :
    (startedFirst x y || startedFirst y x) = true := startsFirst_total _ _

/-- Whether a stored session starts in a window of columns. -/
def startedIn (start finish : Timestamp) (x : StoredSession) : Bool :=
  startsIn start finish (Row.ofStored x)

/-- The stored sessions that the figures of a window are taken over, with or without an index over
start times. -/
def earliest (indexed : Bool) (start finish : Timestamp) (most : Nat) (xs : List StoredSession) :
    List StoredSession :=
  ((met indexed (xs.filter (startedIn start finish))).mergeSort startedFirst).take most

theorem earliest_opened (indexed : Bool) (start finish : Timestamp) (most : Nat)
    (xs : List StoredSession) :
    earliest indexed start finish most (xs.map (StoredSession.opened cipher))
      = (earliest indexed start finish most xs).map (StoredSession.opened cipher) := by
  have hstart : ∀ x : StoredSession,
      (Row.ofStored (x.opened cipher)).startTime = (Row.ofStored x).startTime := fun _ => rfl
  have hmatch : startedIn start finish ∘ StoredSession.opened cipher = startedIn start finish :=
    funext fun x => by rw [Function.comp, startedIn, startsIn, hstart, startedIn, startsIn]
  have hfirst : (fun x y => startedFirst (x.opened cipher) (y.opened cipher)) = startedFirst :=
    funext fun x => funext fun y => by
      rw [startedFirst, startsFirst, hstart, hstart, startedFirst, startsFirst]
  rw [earliest, earliest, List.filter_map, hmatch, met_map, take_mergeSort_map, hfirst]

theorem scanned_of_holds (h : t.Holds xs) (start finish : Timestamp) (most : Nat) :
    scanned start finish most t
      = (earliest t.hasStartIndex start finish most xs).map Row.ofStored := by
  have hmatch : startsIn start finish ∘ Row.ofStored = startedIn start finish :=
    funext fun _ => by rw [Function.comp, startedIn]
  have hfirst : (fun x y => startsFirst (Row.ofStored x) (Row.ofStored y)) = startedFirst :=
    funext fun _ => funext fun _ => by rw [startedFirst]
  rw [scanned, windowRows, show t.rows = xs.map Row.ofStored from h, List.filter_map, hmatch,
    met_map, take_mergeSort_map, hfirst, earliest]

theorem reportOf_opened (cipher : ContentCipher) (xs : List StoredSession) (truncated : Bool) :
    reportOf ((xs.map (StoredSession.opened cipher)).map Row.ofStored) truncated
      = reportOf (xs.map Row.ofStored) truncated := by
  simp only [reportOf, List.map_map, List.length_map, List.countP_map, List.flatMap_map]
  rfl

theorem counted_ofStored (h : x.totalTokens.toNat < 9223372036854775808) :
    Counted (Row.ofStored x) := by
  refine ⟨?_, ?_⟩
  · show 0 ≤ (flag x.adminAssisted).toInt
    cases x.adminAssisted <;> decide
  · show 0 ≤ (Row.storedTokens x.totalTokens).toInt
    rw [storedTokens_toInt h]
    exact Int.natCast_nonneg _

section

variable (hx : t.Holds xs) (hy : t'.Holds ys)
  (hperm : (xs.map (StoredSession.opened cipher)).Perm (ys.map (StoredSession.opened cipher)))
  (htokens : ∀ x ∈ xs, x.totalTokens.toNat < 9223372036854775808)

include hx hy hperm htokens

/-- The figures of a window do not depend on the order of the rows if the limit does not cut
between equal starts. -/
theorem windowReport_perm
    (huncut : Uncut startedFirst most
      ((xs.map (StoredSession.opened cipher)).filter (startedIn start finish))) :
    windowReport start finish most t = windowReport start finish most t' := by
  have hmatched : t.rows.countP (startsIn start finish)
      = t'.rows.countP (startsIn start finish) := by
    have hcount : ∀ {t : Table} {xs : List StoredSession}, t.Holds xs →
        t.rows.countP (startsIn start finish)
          = (xs.map (StoredSession.opened cipher)).countP (startedIn start finish) := by
      intro t xs h
      rw [show t.rows = xs.map Row.ofStored from h, List.countP_map, List.countP_map]
      rfl
    rw [hcount hx, hcount hy, hperm.countP_eq]
  have hsample : (earliest t.hasStartIndex start finish most
        (xs.map (StoredSession.opened cipher))).Perm
      (earliest t'.hasStartIndex start finish most (ys.map (StoredSession.opened cipher))) :=
    take_mergeSort_perm startedFirst_trans startedFirst_total
      ((met_perm _ _).trans ((hperm.filter _).trans (met_perm _ _).symm))
      (huncut.perm (met_perm _ _).symm)
  rw [windowReport, windowReport, hmatched, scanned_of_holds hx, scanned_of_holds hy,
    ← reportOf_opened cipher (earliest _ start finish most xs),
    ← reportOf_opened cipher (earliest _ start finish most ys), ← earliest_opened,
    ← earliest_opened]
  refine reportOf_perm (hsample.map Row.ofStored) (List.forall_mem_map.2 fun x hmem => ?_) _
  have hmem' := (List.mem_filter.1 ((met_perm _ _).mem_iff.1
    (List.mem_mergeSort.1 (List.mem_of_mem_take hmem)))).1
  obtain ⟨z, hz, rfl⟩ := List.mem_map.1 hmem'
  exact counted_ofStored (htokens z hz)

/-- The tokens of a window do not depend on the order of the rows. -/
theorem windowTokens_perm (start finish : Timestamp) :
    windowTokens start finish t = windowTokens start finish t' := by
  have hrows : ∀ {t : Table} {xs : List StoredSession}, t.Holds xs →
      ((summedRows start finish t).map (·.totalTokens.toInt)).Perm
        (((xs.map (StoredSession.opened cipher)).filter (startedIn start finish)).map
            fun x => (Row.storedTokens x.totalTokens).toInt) := by
    intro t xs h
    refine ((summedRows_perm start finish t).map _).trans (.of_eq ?_)
    rw [show t.rows = xs.map Row.ofStored from h, List.filter_map, List.filter_map, List.map_map,
      List.map_map]
    rfl
  refine boundedSum_perm ((hrows hx).trans (((hperm.filter _).map _).trans (hrows hy).symm))
    fun v hv => ?_
  obtain ⟨x, hmem, rfl⟩ := List.mem_map.1 ((hrows hx).mem_iff.1 hv)
  obtain ⟨z, hz, rfl⟩ := List.mem_map.1 (List.mem_filter.1 hmem).1
  exact (counted_ofStored (htokens z hz)).2

end

end ChatArchive.Store
