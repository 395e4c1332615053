import ChatArchive.Proofs.Draws
import Mathlib.Data.List.Nodup

/-!
# No nonce is shared

The contents that a table holds were all encrypted in the run that filled it, each with a
nonce that was drawn for it alone. So if the nonces of a run are different, which a source
that counts guarantees up to 2^96 of them, no two contents carry the same one, and then no
two contents are the same. Drawn nonces may be lost, to updates, which leave messages alone, to
duplicates and to statements that fail, but none is used twice: a statement that is tried
again writes what was encrypted before it was tried first.

The invariant of a run is that the contents are, in some order, what came of encryptions
whose nonces are among those drawn so far, in the order of drawing.
-/

namespace ChatArchive

open Cipher Text Time

/-- The contents of the messages of a table, row by row. -/
def Table.contents (t : Table) : Except StoreError (List String) := do
  let messages ← t.rows.mapM fun row => Row.readMessages row.messages
  pure (messages.flatten.map (·.content))

/-- The first twelve bytes of a content. -/
def nonceBytes? (content : String) : Option (List UInt8) :=
  (Base64.decode? content.toList).map (·.take 12)

/-- A reply that tells that the texts of its call were stored. -/
def StoresTexts : Reply → Prop
  | (⟨_, .create _⟩, .ok _) | (⟨_, .addMessage _ _⟩, .ok _) => True
  | _ => False

namespace ContentCipher

variable {schedule : List Block} {cipher : ContentCipher} {nonces more : List Nonce}
  {texts texts' contents contents' written : List String}

theorem encryptedTo_append (h : EncryptedTo cipher nonces texts contents)
    (h' : EncryptedTo cipher more texts' contents') :
    EncryptedTo cipher (nonces ++ more) (texts ++ texts') (contents ++ contents') := by
  obtain ⟨es, hes, rfl, rfl, rfl⟩ := h
  obtain ⟨es', hes', rfl, rfl, rfl⟩ := h'
  refine ⟨es ++ es', fun e he => ?_, by simp, by simp, by simp⟩
  rcases List.mem_append.1 he with he | he
  · exact hes e he
  · exact hes' e he

/-- Contents that were encrypted, in some order, with some of the nonces, each used once. -/
def Spends (cipher : ContentCipher) (nonces : List Nonce) (contents : List String) : Prop :=
  ∃ used texts stored, EncryptedTo cipher used texts stored ∧ stored.Perm contents ∧
    used.Sublist nonces

theorem Spends.concat (h : Spends cipher nonces contents)
    (hperm : contents'.Perm (contents ++ written))
    (hwritten : written = [] ∨ EncryptedTo cipher more texts written) :
    Spends cipher (nonces ++ more) contents' := by
  obtain ⟨used, plains, stored, hencrypted, hstored, hused⟩ := h
  rcases hwritten with rfl | hwritten
  · rw [List.append_nil] at hperm
    exact ⟨used, plains, stored, hencrypted, hstored.trans hperm.symm,
      hused.trans (List.sublist_append_left _ _)⟩
  · exact ⟨used ++ more, plains ++ texts, stored ++ written, encryptedTo_append hencrypted hwritten,
      (hstored.append_right written).trans hperm.symm, hused.append (List.Sublist.refl more)⟩

theorem nonceBytes?_of_encrypts {nonce : Nonce} {plain content : String}
    (h : Encrypts (.ready schedule) nonce plain content) :
    nonceBytes? content = some nonce.toBytes := by
  obtain ⟨sealedText, -, rfl⟩ := encrypts_ready_iff.1 h
  rw [nonceBytes?, envelope, String.toList_ofList, Base64.decode?_encode, Option.map_some,
    List.take_left' nonce.length_toBytes]

theorem toBytes_injective {m n : Nonce} (h : m.toBytes = n.toBytes) : m = n := by
  rw [← m.ofBigEndian_toBytes, h, n.ofBigEndian_toBytes]

/-- Different nonces make different contents. -/
theorem Spends.nodup (h : Spends (.ready schedule) nonces contents) (hnonces : nonces.Nodup) :
    (contents.map nonceBytes?).Nodup ∧ ∀ x ∈ contents, ∃ n ∈ nonces, ∃ plain,
      Encrypts (.ready schedule) n plain x ∧ nonceBytes? x = some n.toBytes := by
  obtain ⟨used, texts, stored, ⟨es, hes, rfl, rfl, rfl⟩, hperm, hused⟩ := h
  constructor
  · have hbytes : (es.map (·.stored)).map nonceBytes?
        = (es.map (·.nonce)).map fun n => some n.toBytes := by
      rw [List.map_map, List.map_map]
      exact List.map_congr_left fun e he => nonceBytes?_of_encrypts (hes e he)
    rw [← (hperm.map nonceBytes?).nodup_iff, hbytes]
    exact List.Nodup.map (fun m n h => toBytes_injective (Option.some.inj h))
      (hused.nodup hnonces)
  · intro x hx
    obtain ⟨e, he, rfl⟩ := List.mem_map.1 (hperm.mem_iff.2 hx)
    exact ⟨e.nonce, hused.subset (List.mem_map_of_mem he), e.plain, hes e he,
      nonceBytes?_of_encrypts (hes e he)⟩

end ContentCipher

namespace Store

open ContentCipher

variable {s : Store} {sessions sessions' : List StoredSession} {schedule : List Block}
  {counters counters' : Counters} {now : Timestamp} {operation : Operation}
  {answer : Except Abort Answer} {id : String} {nonces : List Nonce}

/-! ## Contents -/

/-- The contents of the messages of sessions. -/
def contentsOf (sessions : List StoredSession) : List String :=
  sessions.flatMap fun x => x.messages.map (·.content)

theorem contents_of_holds {t : Table} (h : t.Holds sessions) :
    t.contents = .ok (contentsOf sessions) := by
  refine Except.bind_eq_ok.2 ⟨sessions.map (·.messages), mapM_eq_ok.2 ?_, ?_⟩
  · rw [h, List.forall₂_map_left_iff, List.forall₂_map_right_iff, List.forall₂_same]
    exact fun x _ => Row.readMessages_text x.messages
  · simp only [contentsOf, List.flatMap, List.map_flatten, List.map_map]
    rfl

theorem contentsOf_map_onId {f : StoredSession → StoredSession}
    (hf : ∀ x, (f x).messages = x.messages) :
    contentsOf (sessions.map (onId id f)) = contentsOf sessions := by
  have hsame : ∀ x, (onId id f x).messages = x.messages := by
    intro x
    rw [onId]
    split
    · exact hf x
    · rfl
  simp [contentsOf, List.flatMap_map, hsame]

/-- A message adds its content, wherever its session is. -/
theorem contentsOf_withMessage (hdistinct : sessions.Pairwise (·.id ≠ ·.id))
    (hmem : ∃ x ∈ sessions, x.id = id) (m : StoredMessage) (now : Timestamp) :
    (contentsOf (sessions.map (onId id (StoredSession.withMessage m now)))).Perm
      (contentsOf sessions ++ [m.content]) := by
  induction sessions with
  | nil => simp at hmem
  | cons y ys ih =>
      obtain ⟨hy, hys⟩ := List.pairwise_cons.1 hdistinct
      have hcons : ∀ z zs, contentsOf (z :: zs) = z.messages.map (·.content) ++ contentsOf zs :=
        fun _ _ => rfl
      rw [List.map_cons, hcons, hcons, List.append_assoc]
      by_cases hid : y.id = id
      · have hrest : ys.map (onId id (StoredSession.withMessage m now)) = ys := by
          refine (List.map_congr_left fun x hx => ?_).trans (List.map_id ys)
          exact onId_of_ne (hid ▸ (hy x hx).symm)
        rw [hrest, onId_of_eq hid]
        simp only [StoredSession.withMessage, List.map_append, List.map_cons, List.map_nil,
          List.append_assoc]
        exact List.perm_append_comm.append_left _
      · rw [onId_of_ne hid]
        obtain ⟨x, hx, hxid⟩ := hmem
        refine (ih hys ⟨x, ?_, hxid⟩).append_left _
        rcases List.mem_cons.1 hx with rfl | hx
        · exact absurd hxid hid
        · exact hx

/-! ## One call -/

/-- A call stores the contents that its texts were encrypted to, or none. -/
theorem Effect.writes
    (h : Effect (.ready schedule) s.nonces now sessions counters operation answer sessions'
      counters') (hsound : Sound s sessions) :
    ∃ written, (contentsOf sessions').Perm (contentsOf sessions ++ written) ∧
      (¬ StoresTexts (⟨now, operation⟩, answer) → written = []) ∧
      (StoresTexts (⟨now, operation⟩, answer) →
        EncryptedTo (.ready schedule) (s.drawnBy operation) operation.texts written) := by
  have hnone : ∀ {operation answer sessions'}, ¬ StoresTexts (⟨now, operation⟩, answer) →
      contentsOf sessions' = contentsOf sessions →
      ∃ written, (contentsOf sessions').Perm (contentsOf sessions ++ written) ∧
        (¬ StoresTexts (⟨now, operation⟩, answer) → written = []) ∧
        (StoresTexts (⟨now, operation⟩, answer) →
          EncryptedTo (.ready schedule) (s.drawnBy operation) operation.texts written) := by
    intro operation answer sessions' hnot hsame
    exact ⟨[], by rw [hsame, List.append_nil], fun _ => rfl, fun h => absurd h hnot⟩
  cases h with
  | failed _ e => exact hnone (by cases operation <;> exact id) rfl
  | read _ h =>
      refine hnone (fun hstores => ?_) rfl
      cases operation <;> first | exact h trivial | exact hstores
  | @created session stored hstored hvalid hnew =>
      refine ⟨stored.messages.map StoredMessage.content, ?_, fun h => absurd trivial h,
        fun _ => hstored.encryptedTo⟩
      simp [contentsOf]
  | updated hstored hvalid hmem => exact hnone id (contentsOf_map_onId fun _ => rfl)
  | @added id message stored hstored hmem =>
      refine ⟨[stored.content], contentsOf_withMessage hsound.distinct hmem stored now,
        fun h => absurd trivial h, fun _ => ?_⟩
      have hid : ¬ id.isEmpty := by
        obtain ⟨x, hx, hxid⟩ := hmem
        rw [String.isEmpty_iff, ← hxid]
        exact hsound.named x hx
      rw [drawnBy, Operation.texts, if_neg hid]
      exact Message.encryptedTo hstored
  | ended time duration _ hmem => exact hnone id (contentsOf_map_onId fun _ => rfl)

/-! ## Runs -/

/-- The nonces that are drawn in a run, in order. -/
def drawnIn (s : Store) : List Call → List Nonce
  | [] => []
  | c :: calls => s.drawnBy c.operation ++ (s.step c.now c.operation).2.1.drawnIn calls

/-- A sound store with a key, whose contents were encrypted with some of these nonces. -/
structure Keyed (schedule : List Block) (nonces : List Nonce) (s : Store)
    (sessions : List StoredSession) : Prop where
  sound : Sound s sessions
  cipher : s.cipher = .ready schedule
  spends : Spends (.ready schedule) nonces (contentsOf sessions)

theorem Keyed.step (h : Keyed schedule nonces s sessions) (c : Call)
    (hcall : ¬ c.operation.IsOverwrite ∧ ∀ key, c.operation ≠ .rekey key) :
    ∃ sessions', Keyed schedule (nonces ++ s.drawnBy c.operation)
        (s.step c.now c.operation).2.1 sessions' ∧
      ∃ written, (contentsOf sessions').Perm (contentsOf sessions ++ written) ∧
        (¬ StoresTexts (c, (s.step c.now c.operation).1) → written = []) ∧
        (StoresTexts (c, (s.step c.now c.operation).1) → EncryptedTo (.ready schedule)
          (s.drawnBy c.operation) c.operation.texts written) := by
  obtain ⟨sessions', heffect, h'⟩ := h.sound.step c.now hcall.1
  have hcipher := (leaves_step h.sound.holds c.now hcall.1).cipher hcall.2
  rw [h.cipher] at heffect
  obtain ⟨written, hperm, hnone, hsome⟩ := heffect.writes h.sound
  have hwritten : written = [] ∨ EncryptedTo (.ready schedule) (s.drawnBy c.operation)
      c.operation.texts written := by
    by_cases hstores : StoresTexts (c, (s.step c.now c.operation).1)
    · exact Or.inr (hsome hstores)
    · exact Or.inl (hnone hstores)
  exact ⟨sessions', ⟨h', hcipher.trans h.cipher, h.spends.concat hperm hwritten⟩, written, hperm,
    hnone, hsome⟩

theorem Keyed.after (h : Keyed schedule nonces s sessions) {calls : List Call}
    (hcalls : ∀ c ∈ calls, ¬ c.operation.IsOverwrite ∧ ∀ key, c.operation ≠ .rekey key) :
    ∃ sessions', Keyed schedule (nonces ++ s.drawnIn calls) (s.after calls) sessions' := by
  induction calls generalizing s sessions nonces with
  | nil => exact ⟨sessions, by rwa [drawnIn, List.append_nil]⟩
  | cons c calls ih =>
      obtain ⟨sessions', h', -⟩ := h.step c (hcalls c (by simp))
      rw [drawnIn, ← List.append_assoc]
      exact ih h' fun d hd => hcalls d (by simp [hd])

theorem nonces_step (hcipher : s.cipher = .ready schedule) (now : Timestamp)
    (hdirect : ¬ operation.IsOverwrite) :
    (s.step now operation).2.1.nonces = s.nonces.forward (s.drawnBy operation).length :=
  nonces_run (s := { s with events := [] }) hcipher hdirect

/-- A run draws the nonces that its source begins with, and leaves the others. -/
theorem Keyed.drawnIn_eq (h : Keyed schedule nonces s sessions) {calls : List Call}
    (hcalls : ∀ c ∈ calls, ¬ c.operation.IsOverwrite ∧ ∀ key, c.operation ≠ .rekey key) :
    s.drawnIn calls = (List.range (s.drawnIn calls).length).map s.nonces.nth ∧
      (s.after calls).nonces = s.nonces.forward (s.drawnIn calls).length := by
  induction calls generalizing s sessions nonces with
  | nil => exact ⟨rfl, s.nonces.forward_zero.symm⟩
  | cons c calls ih =>
      obtain ⟨hc, hrest⟩ := List.forall_mem_cons.1 hcalls
      obtain ⟨sessions', h', -⟩ := h.step c hc
      obtain ⟨hlist, hlast⟩ := ih h' hrest
      rw [nonces_step h.cipher c.now hc.1] at hlist hlast
      rw [drawnIn, List.length_append]
      refine ⟨?_, hlast.trans (s.nonces.forward_forward _ _)⟩
      rw [List.range_add, List.map_append, List.map_map]
      have hfirst : s.drawnBy c.operation
          = (List.range (s.drawnBy c.operation).length).map s.nonces.nth := drawn_eq _ _
      conv_lhs => rw [hfirst, hlist]
      rfl

theorem keyed_fresh (settings : Settings) {key : List UInt8} (hkey : key.length ∈ keySizes)
    (source : Nonces) : Keyed (Aes.schedule key) [] (fresh settings (.ofKey key) source) [] :=
  ⟨sound_fresh settings _ source, ofKey_of_size hkey,
    ⟨[], [], [], ⟨[], by simp, rfl, rfl, rfl⟩, .refl [], .refl []⟩⟩

/-- As many nonces as there are, counted from any on, are different. -/
theorem nodup_counting (start : Nonce) {n : Nat} (h : n ≤ Nat.pow 2 96) :
    ((List.range n).map (Nonces.counting start).nth).Nodup := by
  have hpow : Nat.pow 2 96 = 79228162514264337593543950336 := by decide
  refine List.Nodup.map_on (fun i hi j hj heq => ?_) List.nodup_range
  have hi := List.mem_range.1 hi
  have hj := List.mem_range.1 hj
  have hnat := congrArg BitVec.toNat heq
  simp only [Nonces.counting, BitVec.toNat_add, BitVec.toNat_ofNat] at hnat
  omega

/-- A run of up to 2^96 encryptions draws different nonces from a source that counts. -/
theorem nodup_drawnIn (settings : Settings) {key : List UInt8} (hkey : key.length ∈ keySizes)
    (start : Nonce) {calls : List Call}
    (hcalls : ∀ c ∈ calls, ¬ c.operation.IsOverwrite ∧ ∀ key, c.operation ≠ .rekey key)
    (hcount : ((fresh settings (.ofKey key) (.counting start)).drawnIn calls).length
      ≤ Nat.pow 2 96) :
    ((fresh settings (.ofKey key) (.counting start)).drawnIn calls).Nodup := by
  rw [((keyed_fresh settings hkey (.counting start)).drawnIn_eq hcalls).1]
  exact nodup_counting start hcount

/-- In every run under one key whose nonces are different, whatever fails on the way, the
contents of all messages are different and carry different nonces, each the one that it was
encrypted with. The nonces of a run are those that the source begins with, whichever source
it is. A call draws those that its texts need, however often its statements are tried, and
what it adds to the contents are its texts, each encrypted with its nonce, if it stores
them, and nothing if it does not. -/
theorem nonces_after_run (settings : Settings) (key : List UInt8) (hkey : key.length ∈ keySizes)
    (source : Nonces) (calls : List Call)
    (hcalls : ∀ c ∈ calls, ¬ c.operation.IsOverwrite ∧ ∀ key, c.operation ≠ .rekey key)
    (hdistinct : ((fresh settings (.ofKey key) source).drawnIn calls).Nodup) :
    let s := fresh settings (.ofKey key) source
    (∃ contents, (s.after calls).table.contents = .ok contents ∧ contents.Nodup ∧
      (contents.map nonceBytes?).Nodup ∧ ∀ x ∈ contents, ∃ n ∈ s.drawnIn calls, ∃ plain,
        Encrypts (.ofKey key) n plain x ∧ nonceBytes? x = some n.toBytes) ∧
    s.drawnIn calls = (List.range (s.drawnIn calls).length).map source.nth ∧
    (s.after calls).nonces = source.forward (s.drawnIn calls).length ∧
    ∀ before c rest, calls = before ++ c :: rest →
      let t := s.after before
      let result := t.step c.now c.operation
      result.2.1.nonces = t.nonces.forward (t.drawnBy c.operation).length ∧
      ∃ old new written, t.table.contents = .ok old ∧ result.2.1.table.contents = .ok new ∧
        new.Perm (old ++ written) ∧ (¬ StoresTexts (c, result.1) → written = []) ∧
        (StoresTexts (c, result.1) →
          EncryptedTo (.ofKey key) (t.drawnBy c.operation) c.operation.texts written) := by
  intro s
  have hfresh := keyed_fresh settings hkey source
  obtain ⟨sessions, hafter⟩ := hfresh.after hcalls
  obtain ⟨hlist, hlast⟩ := hfresh.drawnIn_eq hcalls
  refine ⟨⟨_, contents_of_holds hafter.sound.holds, ?_⟩, hlist, hlast,
    fun before c rest hsplit => ?_⟩
  · obtain ⟨hbytes, hencrypted⟩ := hafter.spends.nodup (by rwa [List.nil_append])
    rw [List.nil_append, ← ofKey_of_size hkey] at hencrypted
    exact ⟨hbytes.of_map _, hbytes, hencrypted⟩
  · rw [hsplit] at hcalls
    have hc := hcalls c (by simp)
    obtain ⟨earlier, hbefore⟩ := hfresh.after fun d hd => hcalls d (List.mem_append_left _ hd)
    obtain ⟨later, hstep, written, hperm, hnone, hsome⟩ := hbefore.step c hc
    rw [← ofKey_of_size hkey] at hsome
    exact ⟨nonces_step hbefore.cipher c.now hc.1, _, _, written,
      contents_of_holds hbefore.sound.holds, contents_of_holds hstep.sound.holds, hperm, hnone,
      hsome⟩

/-- A session that begins with a message. -/
def greeted (id : String) : Session :=
  { Session.start id "u" .epoch with messages := [.plain .user "hello" .epoch] }

/-- A session is created, after it could not be while the database was locked. It is created
once more and updated. -/
def greetedOften : List Call := [
  ⟨.epoch, .refuse ⟨.inserts, "database is locked"⟩⟩,
  ⟨.epoch, .create (greeted "a")⟩,
  ⟨.epoch, .relent⟩,
  ⟨.epoch, .create (greeted "a")⟩,
  ⟨.epoch, .create (greeted "a")⟩,
  ⟨.epoch, .update (greeted "a")⟩]

/-- Another session begins with the same message. -/
def greetedToo : Call := ⟨.epoch, .create (greeted "b")⟩

/-- By then four nonces have been drawn, one of them for a message that was stored. The new
message gets the fifth. -/
theorem nonces_after_greetedToo :
    ∃ old new x,
      ((fresh .standard (.ofKey zeroKey) (.counting 0)).after greetedOften).table.contents
        = .ok old ∧
      ((fresh .standard (.ofKey zeroKey) (.counting 0)).after
        (greetedOften ++ [greetedToo])).table.contents = .ok new ∧
      new.Perm (old ++ [x]) ∧ new.Nodup ∧ nonceBytes? x = some (Nonce.toBytes 4) := by
  have hcalls : ∀ c ∈ greetedOften ++ [greetedToo],
      ¬ c.operation.IsOverwrite ∧ ∀ key, c.operation ≠ .rekey key := by
    intro c hc
    simp only [greetedOften, greetedToo, List.cons_append, List.nil_append, List.mem_cons,
      List.not_mem_nil, or_false] at hc
    rcases hc with rfl | rfl | rfl | rfl | rfl | rfl | rfl <;> exact ⟨id, nofun⟩
  have hsize : zeroKey.length ∈ keySizes := by decide
  have hcount : ((fresh .standard (.ofKey zeroKey) (.counting 0)).drawnIn
      (greetedOften ++ [greetedToo])).length
      ≤ Nat.pow 2 96 := by decide +kernel
  obtain ⟨⟨contents, hcontents, hnodup, -⟩, -, -, hcall⟩ := nonces_after_run .standard zeroKey
    hsize (.counting 0) (greetedOften ++ [greetedToo]) hcalls
    (nodup_drawnIn .standard hsize 0 hcalls hcount)
  obtain ⟨-, old, new, written, hold, hnew, hperm, -, hwritten⟩ := hcall greetedOften greetedToo []
    rfl
  have hok : (((fresh .standard (.ofKey zeroKey) (.counting 0)).after greetedOften).step
      greetedToo.now greetedToo.operation).1.isOk = true := by decide +kernel
  have hdrawn : ((fresh .standard (.ofKey zeroKey) (.counting 0)).after greetedOften).drawnBy
      greetedToo.operation = [4] := by decide +kernel
  rw [after_append] at hcontents ⊢
  -- What the store holds by then does not matter any more.
  generalize (fresh .standard (.ofKey zeroKey) (.counting 0)).after greetedOften = t at *
  cases hnew.symm.trans hcontents
  have hstores : StoresTexts (greetedToo, (t.step greetedToo.now greetedToo.operation).1) := by
    generalize (t.step greetedToo.now greetedToo.operation).1 = answer at hok
    cases answer with
    | error e => cases hok
    | ok a => trivial
  obtain ⟨es, hes, hnonces, -, rfl⟩ := hwritten hstores
  rw [hdrawn] at hnonces
  obtain ⟨e, rfl, he⟩ := List.map_eq_singleton_iff.1 hnonces
  have hby := hes e (by simp)
  rw [ofKey_of_size hsize] at hby
  refine ⟨old, contents, e.stored, hold, hcontents, hperm, hnodup, ?_⟩
  rw [← he]
  exact nonceBytes?_of_encrypts hby

end Store

end ChatArchive
