import ChatArchive.Proofs.Presence

/-!
# A store is a map from ids to sessions

The ids that have a row are those whose creation succeeded, and no call takes one away. So
in a run without faults the answers of the operations on one id are those of a map: creation
succeeds exactly for ids that are not in the set, everything else exactly for ids that are,
and what is written to one id leaves the rows of the others alone.
-/

namespace ChatArchive

open Time

namespace Operation

/-- The contents that an operation brings are not too long for a key. Without one there is
no limit. -/
def Short (key : List UInt8) (operation : Operation) : Prop :=
  key = [] ∨ ∀ m ∈ operation.messages, (Text.utf8 m.content).length ≤ Cipher.Gcm.maxLength

theorem sealable_ofKey {key : List UInt8} (hkey : key = [] ∨ key.length ∈ ContentCipher.keySizes)
    (operation : Operation) : operation.Sealable (.ofKey key) ↔ operation.Short key := by
  simp only [Sealable, Short, ContentCipher.encryptable_ofKey hkey]
  by_cases hnone : key = []
  · exact iff_of_true (fun _ _ => Or.inl hnone) (Or.inl hnone)
  · simp only [hnone, false_or]

end Operation

namespace Store

variable {s : Store} {now : Timestamp} {id : String} {t : Table} {c : Call}
  {sessions sessions' : List StoredSession} {operation : Operation}

/-- A call on an id is answered as by a map that has these ids, unless it brings more than
a key encrypts. -/
structure ActsAsMap (key : List UInt8) (s : Store) (held : String → Prop) (c : Call)
    (id : String) : Prop where
  unnamed : c.operation.Short key → id = "" → Refuses s c .invalidSessionId
  tooLong : ¬ c.operation.Short key → id ≠ "" → ∃ e, Refuses s c (.cipher e)
  create : c.operation.Creates → c.operation.Short key → c.operation.Ordered → id ≠ "" →
    (Succeeds s c ↔ ¬ held id) ∧ (held id → Refuses s c (.duplicateSession id))
  find : ¬ c.operation.Creates → c.operation.Short key → c.operation.Ordered → id ≠ "" →
    (Refuses s c .notFound ↔ ¬ held id) ∧ (held id → Succeeds s c)
  others : (s.step c.now c.operation).2.1.table.rows.filter (·.id ≠ id)
    = s.table.rows.filter (·.id ≠ id)

/-! ## The rows of other ids -/

theorem filter_map_onId {f : StoredSession → StoredSession} (hf : KeepsId f) (id : String)
    (sessions : List StoredSession) :
    (sessions.map (onId id f)).filter (·.id ≠ id) = sessions.filter (·.id ≠ id) := by
  induction sessions with
  | nil => rfl
  | cons x sessions ih =>
      rw [List.map_cons, List.filter_cons, List.filter_cons, ih, id_onId hf]
      by_cases hid : x.id = id
      · rw [if_neg (by simp [hid]), if_neg (by simp [hid])]
      · rw [onId_of_ne hid]

theorem Effect.others {cipher : ContentCipher} {nonces : Cipher.Nonces}
    {counters counters' : Counters} {answer : Except Abort Answer}
    (h : Effect cipher nonces now sessions counters operation answer sessions' counters')
    (hid : operation.key? = some id) :
    sessions'.filter (·.id ≠ id) = sessions.filter (·.id ≠ id) := by
  cases h with
  | failed => rfl
  | read => rfl
  | @created session stored hstored =>
      cases hid
      rw [List.filter_append, ← hstored.storedAs.id]
      simp
  | @updated session stored hstored =>
      cases hid
      rw [← hstored.storedAs.id]
      exact filter_map_onId (keepsId_merged stored) _ sessions
  | added =>
      cases hid
      exact filter_map_onId (keepsId_withMessage _ now) id sessions
  | ended time duration =>
      cases hid
      exact filter_map_onId (keepsId_ended time duration) id sessions

theorem filter_rows (hholds : t.Holds sessions) (id : String) :
    t.rows.filter (·.id ≠ id) = (sessions.filter (·.id ≠ id)).map Row.ofStored := by
  rw [hholds, List.filter_map]
  rfl

/-! ## The ids that were created -/

/-- Some reply tells that the id was created. -/
def Created (replies : List Reply) (id : String) : Prop :=
  ∃ r ∈ replies, (created? id r.1.operation r.2).isSome

theorem created_concat {replies : List Reply} {answer : Except Abort Answer} :
    Created (replies ++ [(c, answer)]) id ↔
      Created replies id ∨ (created? id c.operation answer).isSome := by
  simp only [Created, List.mem_append, List.mem_singleton, or_and_right, exists_or,
    exists_eq_left]

/-- A call adds an id exactly if it tells that it has created it. -/
theorem Effect.mem_ids {cipher : ContentCipher} {nonces : Cipher.Nonces}
    {counters counters' : Counters} {answer : Except Abort Answer}
    (h : Effect cipher nonces now sessions counters operation answer sessions' counters')
    (id : String) :
    id ∈ sessions'.map (·.id) ↔
      id ∈ sessions.map (·.id) ∨ (created? id operation answer).isSome := by
  cases h with
  | failed _ e => simp [created?_of_spares (Or.inr ⟨e, rfl⟩)]
  | read _ h => simp [created?_of_spares (spares_of_not_writes h)]
  | @created session stored hstored =>
      rw [List.map_append, List.mem_append, List.map_singleton, List.mem_singleton,
        hstored.storedAs.id, created?]
      by_cases hid : session.id = id
      · simp [hid]
      · simp [hid, Ne.symm hid]
  | updated => simp [ids_map_onId (keepsId_merged _), created?]
  | added => simp [ids_map_onId (keepsId_withMessage _ _), created?]
  | ended => simp [ids_map_onId (keepsId_ended _ _), created?]

theorem row?_ne_none (hholds : t.Holds sessions) (id : String) :
    t.row? id ≠ none ↔ id ∈ sessions.map (·.id) := by
  rw [row?_of_holds hholds, ne_eq, Option.map_eq_none_iff, sessionOf_eq_none, List.mem_map]
  simp

/-- After a run, the ids that have a row are those that were created. -/
theorem Sound.created_after {calls : List Call} (h : Sound s [])
    (hcalls : ∀ d ∈ calls, ¬ d.operation.IsOverwrite) (id : String) :
    (s.after calls).table.row? id ≠ none ↔ Created (s.history calls) id := by
  obtain ⟨sessions, h', hids⟩ := h.run (P := fun replies _ sessions =>
    id ∈ sessions.map (·.id) ↔ Created replies id) hcalls
    (fun d _ replies s sessions sessions' _ heffect _ hP => by
      rw [heffect.mem_ids, hP, created_concat]) [] (by simp [Created])
  rw [row?_ne_none h'.holds, hids, List.nil_append]

/-- A call is answered by whether its id was created. -/
theorem Answered.actsAsMap {key : List UInt8} (h : Answered s c id)
    (hkey : key = [] ∨ key.length ∈ ContentCipher.keySizes) (hcipher : s.cipher = .ofKey key)
    {held : String → Prop} (hheld : s.table.row? id ≠ none ↔ held id)
    (hothers : (s.step c.now c.operation).2.1.table.rows.filter (·.id ≠ id)
      = s.table.rows.filter (·.id ≠ id)) : ActsAsMap key s held c id := by
  have hsealable : c.operation.Short key ↔ c.operation.Sealable s.cipher := by
    rw [hcipher, Operation.sealable_ofKey hkey]
  have hmissing : ¬ held id → s.table.row? id = none := fun hnot => by
    rwa [← hheld, not_not] at hnot
  have hpresent : held id → ∃ row, s.table.row? id = some row := fun hid =>
    Option.ne_none_iff_exists'.1 (hheld.2 hid)
  refine ⟨fun hshort => h.unnamed (hsealable.1 hshort),
    fun hlong => h.tooLong fun hseal => hlong (hsealable.2 hseal),
    fun hcreates hshort hordered hid => ?_, fun hother hshort hordered hid => ?_, hothers⟩
  · have hrefuses : held id → Refuses s c (.duplicateSession id) := fun hid' => by
      obtain ⟨row, hrow⟩ := hpresent hid'
      exact (h.present (hsealable.1 hshort) hordered hid row hrow).1 hcreates
    refine ⟨⟨fun hok hid' => (hrefuses hid').not_succeeds hok, fun hnot => ?_⟩, hrefuses⟩
    exact (h.missing (hsealable.1 hshort) hordered hid (hmissing hnot)).1 hcreates
  · have hsucceeds : held id → Succeeds s c := fun hid' => by
      obtain ⟨row, hrow⟩ := hpresent hid'
      exact (h.present (hsealable.1 hshort) hordered hid row hrow).2 hother
    refine ⟨⟨fun hrefuses hid' => hrefuses.not_succeeds (hsucceeds hid'), fun hnot => ?_⟩,
      hsucceeds⟩
    exact (h.missing (hsealable.1 hshort) hordered hid (hmissing hnot)).2 hother

/-- In every run without faults, under one key or none and with plain years, every call on
an id is answered as by a map that has the ids whose creation succeeded so far: creation
succeeds exactly for other ids and finds the rest taken, everything else succeeds exactly
for these ids and does not find the rest, no id is none, and the rows of other ids stay. -/
theorem store_acts_as_map (settings : Settings) (key : List UInt8)
    (hkey : key = [] ∨ key.length ∈ ContentCipher.keySizes) (nonces : Cipher.Nonces)
    (calls : List Call) (c : Call)
    (hcalls : ∀ d ∈ calls ++ [c],
      d.operation.IsOrdinary ∧ ¬ d.operation.IsFault ∧ d.HasPlainYears)
    (hmeasured : c.operation.Measured) (id : String) (hid : c.operation.key? = some id) :
    ActsAsMap key ((fresh settings (.ofKey key) nonces).after calls)
      (Created ((fresh settings (.ofKey key) nonces).history calls)) c id := by
  have hbefore : ∀ d ∈ calls, d.operation.IsOrdinary ∧ ¬ d.operation.IsFault ∧ d.HasPlainYears :=
    fun d hd => hcalls d (List.mem_append_left [c] hd)
  obtain ⟨hordinary, -, hplain⟩ := hcalls c (by simp)
  obtain ⟨_, along⟩ := Along.after (P := fun _ _ _ => True) []
    (along_fresh settings (.ofKey key) nonces fun _ => trivial) (fun d hd => (hbefore d hd).1)
    fun _ _ _ _ _ _ _ _ _ => trivial
  obtain ⟨sessions, h⟩ := unhindered_after settings (.ofKey key) nonces
    fun d hd => (hbefore d hd).2
  refine (h.answered along.opened hplain hid hmeasured).actsAsMap hkey along.unchanged
    ((sound_fresh settings _ nonces).created_after (fun d hd => (hbefore d hd).1.direct) id) ?_
  obtain ⟨sessions', heffect, h'⟩ := h.sound.step c.now hordinary.direct
  rw [filter_rows h'.holds, filter_rows h.sound.holds, heffect.others hid]

/-- One session is created. -/
def startOne : List Call := [⟨.epoch, .create (.start "a" "u" .epoch)⟩]

theorem startOne_ordinary (c : Call) (hordinary : c.operation.IsOrdinary)
    (hfault : ¬ c.operation.IsFault) (hplain : c.HasPlainYears) : ∀ d ∈ startOne ++ [c],
    d.operation.IsOrdinary ∧ ¬ d.operation.IsFault ∧ d.HasPlainYears := by
  have hepoch : Timestamp.epoch.HasPlainYear := by decide
  intro d hd
  rcases List.mem_append.1 hd with hd | hd
  · rw [List.mem_singleton.1 hd]
    exact ⟨trivial, id, hepoch, hepoch, fun t ht => (by cases ht), hepoch⟩
  · rw [List.mem_singleton.1 hd]
    exact ⟨hordinary, hfault, hplain⟩

/-- It cannot be created again, and a session that was not created gets no message. -/
theorem startOne_acts_as_map :
    Refuses ((fresh .standard (.ofKey (List.replicate 16 7)) (.counting 0)).after startOne)
        ⟨.epoch, .create (.start "a" "v" .epoch)⟩ (.duplicateSession "a") ∧
      Refuses ((fresh .standard (.ofKey (List.replicate 16 7)) (.counting 0)).after startOne)
        ⟨.epoch, .addMessage "b" (.plain .user "hello" .epoch)⟩ .notFound := by
  have hepoch : Timestamp.epoch.HasPlainYear := by decide
  have hcreated : Created ((fresh .standard (.ofKey (List.replicate 16 7)) (.counting 0)).history
      startOne) "a" := ⟨_, List.mem_cons_self, by decide +kernel⟩
  have hmissing : ¬ Created ((fresh .standard (.ofKey (List.replicate 16 7)) (.counting 0)).history
      startOne) "b" := by
    intro h
    obtain ⟨r, hr, hid⟩ := h
    rw [List.mem_singleton.1 hr] at hid
    exact absurd hid (by decide +kernel)
  constructor
  · have hmap := store_acts_as_map .standard (List.replicate 16 7) (Or.inr (by decide))
        (.counting 0) startOne
      ⟨.epoch, .create (.start "a" "v" .epoch)⟩ (startOne_ordinary _ trivial id
        ⟨hepoch, hepoch, fun t ht => (by cases ht), hepoch⟩) rfl "a" rfl
    refine (hmap.create trivial (Or.inr fun m hm => by cases hm) ?_ (by decide)).2 hcreated
    rintro ⟨finish, hfinish, -⟩
    cases hfinish
  · have hmap := store_acts_as_map .standard (List.replicate 16 7) (Or.inr (by decide))
        (.counting 0) startOne
      ⟨.epoch, .addMessage "b" (.plain .user "hello" .epoch)⟩ (startOne_ordinary _ trivial id
        ⟨hepoch, trivial⟩) trivial "b" rfl
    refine (hmap.find id (Or.inr ?_) trivial (by decide)).1.2 hmissing
    exact List.forall_mem_singleton.2 (by decide +kernel)

end Store

end ChatArchive
