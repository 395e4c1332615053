import ChatArchive.Proofs.Alike
import ChatArchive.Proofs.Statements
import ChatArchive.Store.Figures
import ChatArchive.Store.Writing

/-!
# Indifference to message content

No statement and no question looks at content. On tables that are alike every transaction
fails with the same error, or has the same answer and leaves tables that are alike, and every
question has the same answer or rows that are alike.
-/

namespace ChatArchive.Store

open Json Time

variable {cipher : ContentCipher} {r r' : Row} {t t' : Table}

/-! ## Rows that a blind question picks out -/

section Blind

variable {rows rows' : List Row}

theorem filter_of_blind {p : Row → Bool} (hp : Row.Blind p)
    (h : List.Forall₂ (Row.Alike cipher) rows rows') :
    List.Forall₂ (Row.Alike cipher) (rows.filter p) (rows'.filter p) :=
  forall₂_filter h fun _ _ hr => hr.eq_of_blind hp

theorem countP_eq_of_blind {p : Row → Bool} (hp : Row.Blind p)
    (h : List.Forall₂ (Row.Alike cipher) rows rows') : rows.countP p = rows'.countP p :=
  countP_eq_of_forall₂ h fun _ _ hr => hr.eq_of_blind hp

theorem map_eq_of_blind {α : Type} {f : Row → α} (hf : Row.Blind f)
    (h : List.Forall₂ (Row.Alike cipher) rows rows') : rows.map f = rows'.map f :=
  map_eq_of_forall₂ h fun _ _ hr => hr.eq_of_blind hf

theorem blind_hasId (id : String) : Row.Blind fun r => decide (r.id = id) := fun _ _ => rfl

theorem blind_isOpen (id : String) : Row.Blind (isOpen id) := fun _ _ => rfl

theorem blind_isActive : Row.Blind (·.endTime.isNone) := fun _ _ => rfl

theorem blind_selects (q : ListQuery) : Row.Blind (selects q) := fun _ _ => rfl

theorem blind_startsIn (start finish : Timestamp) : Row.Blind (startsIn start finish) :=
  fun _ _ => rfl

end Blind

/-! ## Statements -/

/-- Equal numbers of rows and tables that are alike. -/
def CountAlike (cipher : ContentCipher) (p q : Nat × Table) : Prop :=
  p.1 = q.1 ∧ p.2.Alike cipher q.2

theorem permit_eq (h : t.Alike cipher t') (statement : Statement) :
    t.permit statement = t'.permit statement := by
  rw [Table.permit, Table.permit, h.refusal]

theorem insert_agree (h : t.Alike cipher t') (hr : r.Alike cipher r') :
    Agree (Table.Alike cipher) (t.insert r) (t'.insert r') := by
  refine (Agree.of_eq (fun _ => rfl) (permit_eq h .insert)).bind fun _ _ _ => ?_
  have hany : t.rows.any (·.id = r.id) = t'.rows.any (·.id = r'.id) :=
    any_eq_of_forall₂ h.rows fun a b hab => by rw [hab.id_eq, hr.id_eq]
  rw [hany]
  split
  · exact .error _
  · exact .ok ⟨List.rel_append h.rows (.cons hr .nil), h.indexes, h.refusal, h.scheduled⟩

/-- A statement that changes rows, by a change that takes alike rows to alike rows. -/
theorem update_agree (h : t.Alike cipher t') (columns : List Column) {select : Row → Bool}
    {change change' : Row → Except DatabaseError Row} (hselect : Row.Blind select)
    (hchange : ∀ r r', r.Alike cipher r' → Agree (Row.Alike cipher) (change r) (change' r')) :
    Agree (CountAlike cipher) (t.update columns select change)
      (t'.update columns select change') := by
  have hreach : ∀ r r', r.Alike cipher r' →
      Agree (Row.Alike cipher) (t.reach columns select change r)
        (t'.reach columns select change' r') := by
    intro r r' hr
    rw [Table.reach, Table.reach, hr.eq_of_blind hselect]
    split
    · refine (hchange r r' hr).bind fun a b hab => ?_
      exact (Agree.of_eq (fun _ => rfl) (permit_eq h _)).bind fun _ _ _ => .ok hab
    · exact .ok hr
  refine (Agree.mapM h.rows hreach).bind fun rows rows' hrows => .ok ?_
  exact ⟨countP_eq_of_blind hselect h.rows, hrows, h.indexes, h.refusal, h.scheduled⟩

theorem setEnd_agree (h : t.Alike cipher t') (id finish : String) :
    Agree (CountAlike cipher) (setEnd t id finish) (setEnd t' id finish) := by
  refine update_agree h _ (blind_isOpen id) fun r r' hr => ?_
  cases hr with
  | mk r h => exact .ok (.mk { r with endTime := some finish } h)

theorem overwrite_agree (h : t.Alike cipher t') (id : String) {column : Column}
    (hcolumn : column ≠ .messages) (v : ColumnValue) :
    Agree (CountAlike cipher) (t.overwrite id column v) (t'.overwrite id column v) := by
  have hupdate := update_agree (h.refusing none) [column] (blind_hasId id)
    fun r r' hr => show Agree (Row.Alike cipher) (Table.overwritten column v r)
      (Table.overwritten column v r') by
      have hset := hr.set? hcolumn v
      rw [Table.overwritten, Table.overwritten]
      generalize r.set? column v = a at hset ⊢
      generalize r'.set? column v = b at hset ⊢
      cases hset with
      | none => exact .error _
      | some hab => exact .ok hab
  refine hupdate.bind fun p q hpq => .ok ?_
  exact ⟨hpq.1, h.refusal ▸ hpq.2.refusing t.refusal⟩

/-! ## Transactions -/

/-- Transactions that agree on alike tables and leave them alike. -/
def Transaction.Agree {α β : Type} (cipher : ContentCipher) (R : α → β → Prop)
    (f : Transaction α) (g : Transaction β) : Prop :=
  ∀ t t', t.Alike cipher t' →
    ChatArchive.Agree (fun p q => R p.1 q.1 ∧ p.2.Alike cipher q.2) (f t) (g t')

/-- Tables that are alike have the same refusal in force after the same pauses. -/
theorem Transaction.Agree.after {α β : Type} {R : α → β → Prop} {f : Transaction α}
    {g : Transaction β} (h : Transaction.Agree cipher R f g) (pauses : Nat) :
    Transaction.Agree cipher R (f.after pauses) (g.after pauses) := by
  intro t t' ht
  have hattempt := h _ _ (ht.paused pauses)
  rw [Transaction.after, Transaction.after, ← ht.refusal]
  generalize f (t.paused pauses) = x at hattempt ⊢
  generalize g (t'.paused pauses) = y at hattempt ⊢
  cases hattempt with
  | error e => exact .error e
  | ok hpq => exact .ok ⟨hpq.1, hpq.2.refusing _⟩

theorem insertion_agree (hr : r.Alike cipher r') :
    Transaction.Agree cipher Eq (insertion r) (insertion r') := by
  intro t t' h
  have hinsert := insert_agree h hr
  rw [insertion, insertion, hr.id_eq]
  generalize t.insert r = x at hinsert ⊢
  generalize t'.insert r' = y at hinsert ⊢
  cases hinsert with
  | error e => exact .error _
  | ok htable => exact .ok ⟨rfl, htable⟩

/-- What follows on a statement that must have touched a row. -/
theorem touched_agree {α : Type} {x y : Except DatabaseError (Nat × Table)}
    {f g : Transaction α} (h : Agree (CountAlike cipher) x y)
    (hfg : Transaction.Agree cipher Eq f g) :
    Agree (fun p q => p.1 = q.1 ∧ p.2.Alike cipher q.2)
      (match x with
        | .error e => .error e.toStoreError
        | .ok (0, _) => .error .notFound
        | .ok (_, table) => f table)
      (match y with
        | .error e => .error e.toStoreError
        | .ok (0, _) => .error .notFound
        | .ok (_, table) => g table) := by
  cases h with
  | error e => exact .error _
  | @ok p q hpq =>
      obtain ⟨n, a⟩ := p
      obtain ⟨n', a'⟩ := q
      obtain ⟨hn, htable⟩ := hpq
      cases hn
      cases n with
      | zero => exact .error _
      | succ n => exact hfg a a' htable

theorem updating_agree (hr : r.Alike cipher r') :
    Transaction.Agree cipher Eq (updating r) (updating r') := by
  intro t t' h
  rw [updating, updating, hr.id_eq, hr.endTime_eq]
  refine touched_agree (update_agree h updatedColumns (blind_hasId r'.id) fun old old' hold =>
    .ok (hr.updatedRow hold)) fun a a' htable => ?_
  cases r'.endTime with
  | none => exact .ok ⟨rfl, htable⟩
  | some finish =>
      have hend := setEnd_agree htable r'.id finish
      dsimp only
      generalize setEnd a r'.id finish = x at hend ⊢
      generalize setEnd a' r'.id finish = y at hend ⊢
      cases hend with
      | error e => exact .error _
      | ok hpq => exact .ok ⟨congrArg (fun n => decide (0 < n)) hpq.1, hpq.2⟩

theorem appending_agree {m m' : StoredMessage} (hm : m.Alike cipher m')
    (id lastActivity : String) :
    Transaction.Agree cipher Eq (appending id m lastActivity) (appending id m' lastActivity) := by
  intro t t' h
  have hupdate := update_agree h [.messages, .lastActivity] (blind_hasId id)
    fun r r' hr => hr.appendedRow hm lastActivity
  rw [appending, appending]
  generalize t.update [.messages, .lastActivity] _ _ = x at hupdate ⊢
  generalize t'.update [.messages, .lastActivity] _ _ = y at hupdate ⊢
  cases hupdate with
  | error e => exact .error _
  | ok hpq => exact .ok hpq

theorem row?_rel (h : t.Alike cipher t') (id : String) :
    Option.Rel (Row.Alike cipher) (t.row? id) (t'.row? id) :=
  rel_find? h.rows fun r r' hr => by rw [hr.id_eq]

theorem ending_agree (id finish : String) :
    Transaction.Agree cipher Eq (ending id finish) (ending id finish) := by
  intro t t' h
  have hopen := rel_find? h.rows (p := isOpen id) (q := isOpen id)
    fun r r' hr => hr.eq_of_blind (blind_isOpen id)
  have hrow := row?_rel h id
  have hend := setEnd_agree h id finish
  rw [ending, ending]
  generalize t.rows.find? (isOpen id) = a at hopen ⊢
  generalize t'.rows.find? (isOpen id) = b at hopen ⊢
  cases hopen with
  | some hr =>
      dsimp only
      rw [hr.startTime_eq]
      generalize setEnd t id finish = x at hend ⊢
      generalize setEnd t' id finish = y at hend ⊢
      cases hend with
      | error e => exact .error _
      | ok hpq => exact .ok ⟨rfl, hpq.2⟩
  | none =>
      dsimp only
      generalize t.row? id = a at hrow ⊢
      generalize t'.row? id = b at hrow ⊢
      cases hrow with
      | none => exact .error _
      | some hr => exact .ok ⟨by rw [hr.startTime_eq, hr.endTime_eq], h⟩

theorem settingDuration_agree (id : String) (duration : Int64) :
    Transaction.Agree cipher Eq (settingDuration id duration) (settingDuration id duration) := by
  intro t t' h
  have hupdate := update_agree h [.duration] (blind_hasId id)
    fun r r' hr => show Agree (Row.Alike cipher) (.ok { r with duration := duration })
      (.ok { r' with duration := duration }) by
      cases hr with
      | mk r h => exact .ok (.mk { r with duration := duration } h)
  rw [settingDuration, settingDuration]
  generalize t.update [.duration] _ _ = x at hupdate ⊢
  generalize t'.update [.duration] _ _ = y at hupdate ⊢
  cases hupdate with
  | error e => exact .error _
  | ok hpq => exact .ok ⟨rfl, hpq.2⟩

theorem ensureIndexes_agree :
    Transaction.Agree cipher Eq (fun t => .ok ((), t.ensureIndexes))
      fun t => .ok ((), t.ensureIndexes) := by
  intro t t' h
  refine .ok ⟨rfl, h.rows, ?_, h.refusal, h.scheduled⟩
  rw [Table.ensureIndexes, Table.ensureIndexes, h.indexes]

/-! ## Questions -/

theorem asked_agree {α β : Type} {R : α → β → Prop} {f : Table → Except DatabaseError α}
    {g : Table → Except DatabaseError β}
    (hfg : ∀ t t', t.Alike cipher t' → Agree R (f t) (g t')) :
    Transaction.Agree cipher R (asked f) (asked g) := by
  intro t t' h
  have hanswer := hfg t t' h
  rw [asked, asked]
  generalize f t = x at hanswer ⊢
  generalize g t' = y at hanswer ⊢
  cases hanswer with
  | error e => exact .error _
  | ok hab => exact .ok ⟨hab, h⟩

theorem active_rel (h : t.Alike cipher t') (most : Nat) :
    List.Forall₂ (Row.Alike cipher)
      (((t.rows.filter (·.endTime.isNone)).mergeSort
        fun a b => b.startTime ≤ a.startTime).take most)
      (((t'.rows.filter (·.endTime.isNone)).mergeSort
        fun a b => b.startTime ≤ a.startTime).take most) := by
  have hopen := filter_of_blind blind_isActive h.rows
  exact List.forall₂_take _ (forall₂_mergeSort hopen fun a b c d hab hcd => by
    rw [hab.startTime_eq, hcd.startTime_eq])

/-- The rows of a listing are filtered and sorted by columns that are equal and by numbers of
messages that are equal, so its pages hold the same rows. -/
theorem page_agree (h : t.Alike cipher t') (q : ListQuery) (size : Nat) :
    Agree (List.Forall₂ (ListedRow.Alike cipher)) (page q size t) (page q size t') := by
  have hrows := filter_of_blind (blind_selects q) h.rows
  refine (Agree.mapM hrows (T := fun a b => a.1 = b.1 ∧ a.2.Alike cipher b.2)
    fun r r' hr => (Agree.of_eq (fun _ => rfl) (hr.sortValue_eq q.sortKey)).bind
      fun v v' hv => .ok ⟨hv, hr⟩).bind fun keyed keyed' hkeyed => ?_
  have hprecedes : ∀ a b c d : SortValue × Row, a.1 = b.1 ∧ a.2.Alike cipher b.2 →
      c.1 = d.1 ∧ c.2.Alike cipher d.2 →
      precedes q.direction a c = precedes q.direction b d := by
    intro a b c d hab hcd
    unfold precedes
    rw [hab.1, hcd.1, hab.2.id_eq, hcd.2.id_eq]
  have hsorted := forall₂_mergeSort hkeyed hprecedes
  refine Agree.mapM (List.forall₂_take size (List.forall₂_drop q.offset.toNat hsorted))
    fun a b hab => ?_
  exact listedRow_agree hab.2

theorem hasStartIndex_eq (h : t.Alike cipher t') : t.hasStartIndex = t'.hasStartIndex := by
  rw [Table.hasStartIndex, h.indexes, Table.hasStartIndex]

theorem startsFirst_alike (a b c d : Row) (hab : a.Alike cipher b) (hcd : c.Alike cipher d) :
    startsFirst a c = startsFirst b d := by
  rw [startsFirst, startsFirst, hab.startTime_eq, hcd.startTime_eq]

theorem forall₂_met {α β : Type} {R : α → β → Prop} {as : List α} {bs : List β} (indexed : Bool)
    (h : List.Forall₂ R as bs) : List.Forall₂ R (met indexed as) (met indexed bs) := by
  rw [met, met]
  split
  · exact List.forall₂_reverse_iff.2 h
  · exact h

theorem scanned_rel (h : t.Alike cipher t') (start finish : Timestamp) (most : Nat) :
    List.Forall₂ (Row.Alike cipher) (scanned start finish most t)
      (scanned start finish most t') := by
  have hrows := filter_of_blind (blind_startsIn start finish) h.rows
  rw [scanned, scanned, windowRows, windowRows, hasStartIndex_eq h]
  exact List.forall₂_take _ (forall₂_mergeSort (forall₂_met _ hrows) startsFirst_alike)

theorem reportOf_eq {rows rows' : List Row} (h : List.Forall₂ (Row.Alike cipher) rows rows')
    (truncated : Bool) : reportOf rows truncated = reportOf rows' truncated := by
  have hassisted := map_eq_of_blind (f := (·.adminAssisted.toInt)) (fun _ _ => rfl) h
  have htokens := map_eq_of_blind (f := (·.totalTokens.toInt)) (fun _ _ => rfl) h
  have hmean := map_eq_of_blind (f := (·.avgResponseMs.toInt)) (fun _ _ => rfl) h
  have hmost := map_eq_of_blind (f := (·.maxResponseMs.toInt)) (fun _ _ => rfl) h
  have hchanges := map_eq_of_blind (f := changes) (fun _ _ => rfl) h
  have hopen := countP_eq_of_blind blind_isActive h
  rw [reportOf, reportOf, List.flatMap_def, List.flatMap_def, hassisted, htokens, hmean, hmost,
    hchanges, hopen, h.length_eq]

theorem windowReport_eq (h : t.Alike cipher t') (start finish : Timestamp) (most : Nat) :
    windowReport start finish most t = windowReport start finish most t' := by
  have hmatched := countP_eq_of_blind (blind_startsIn start finish) h.rows
  rw [windowReport, windowReport, hmatched]
  exact reportOf_eq (scanned_rel h start finish most) _

theorem windowTokens_eq (h : t.Alike cipher t') (start finish : Timestamp) :
    windowTokens start finish t = windowTokens start finish t' := by
  have hrows := filter_of_blind (blind_startsIn start finish) h.rows
  have hsummed : List.Forall₂ (Row.Alike cipher) (summedRows start finish t)
      (summedRows start finish t') := by
    rw [summedRows, summedRows, hasStartIndex_eq h]
    split
    · exact forall₂_mergeSort hrows fun a b c d hab hcd => startsFirst_alike c d a b hcd hab
    · exact hrows
  exact congrArg boundedSum (map_eq_of_blind (fun _ _ => rfl) hsummed)

end ChatArchive.Store
