import ChatArchive.Proofs.Envelopes
import ChatArchive.Proofs.Runs

/-!
# Nonces drawn

With a key every encryption draws one nonce, before anything else can go wrong with it, and
texts are encrypted before the statements that store them are run. So the nonces that an
operation draws are told by its texts alone: one for each, up to the first that is too
long. How often a statement is tried again, and whether it is let through in the end, has
no part in it, because nothing but encryption takes nonces from the source of a store.
-/

namespace ChatArchive

open Cipher Text Time

/-- A nonce that was drawn, the text that was encrypted with it, and what came out. -/
structure Encryption where
  nonce : Nonce
  plain : String
  stored : String

/-- An encryption as a cipher does it. -/
def Encryption.IsBy (cipher : ContentCipher) (e : Encryption) : Prop :=
  ContentCipher.Encrypts cipher e.nonce e.plain e.stored

/-- Texts that were encrypted, one by one, to these contents, each with its own nonce. -/
def ContentCipher.EncryptedTo (cipher : ContentCipher) (nonces : List Nonce)
    (texts contents : List String) : Prop :=
  ∃ es : List Encryption, (∀ e ∈ es, e.IsBy cipher) ∧ es.map (·.nonce) = nonces ∧
    es.map (·.plain) = texts ∧ es.map (·.stored) = contents

/-- The nonces that are drawn to encrypt texts with a key. -/
def ContentCipher.drawn (source : Nonces) : List String → List Nonce
  | [] => []
  | text :: rest =>
    source.first :: if (utf8 text).length ≤ Gcm.maxLength then drawn (source.forward 1) rest else []

/-- The texts that an operation encrypts. -/
def Operation.texts : Operation → List String
  | .create session | .update session =>
    if (responseFigures session.responseTimes).isSome then session.messages.map (·.content) else []
  | .addMessage id message => if id.isEmpty then [] else [message.content]
  | _ => []

/-! ## What a source holds -/

namespace Cipher.Nonces

theorem forward_zero (source : Nonces) : source.forward 0 = source := by simp [forward]

theorem forward_forward (source : Nonces) (m n : Nat) :
    (source.forward m).forward n = source.forward (m + n) := by
  simp only [forward, Nat.add_assoc]

theorem forward_one_forward (source : Nonces) (n : Nat) :
    (source.forward 1).forward n = source.forward (n + 1) := by
  rw [forward_forward, Nat.add_comm]

end Cipher.Nonces

namespace ContentCipher

variable {schedule : List Block}

/-- What is drawn are the nonces that the source begins with. -/
theorem drawn_eq (source : Nonces) (texts : List String) :
    drawn source texts = (List.range (drawn source texts).length).map source.nth := by
  induction texts generalizing source with
  | nil => rfl
  | cons text rest ih =>
      rw [drawn]
      split
      · rw [List.length_cons, List.range_succ_eq_map, List.map_cons, List.map_map, List.cons.injEq]
        refine ⟨rfl, (ih (source.forward 1)).trans (List.map_congr_left fun i _ => ?_)⟩
        exact congrArg source.nth (Nat.add_comm 1 i)
      · rfl

theorem drawn_singleton (source : Nonces) (text : String) :
    drawn source [text] = [source.first] := by
  rw [drawn]
  split <;> rfl

/-! ## Texts that are encrypted -/

/-- Encryption with a key draws one nonce, whether it succeeds or not. -/
theorem encrypt_ready (schedule : List Block) (plain : String) (source : Nonces) :
    ((encrypt (.ready schedule) plain).run.run source).2 = source.forward 1 ∧
      (((encrypt (.ready schedule) plain).run.run source).1.isOk ↔
        (utf8 plain).length ≤ Gcm.maxLength) := by
  rw [encrypt, run_bind_ok (run_draw source), Gcm.sealText]
  by_cases hlong : (utf8 plain).length ≤ Gcm.maxLength
  · rw [if_pos hlong]
    exact ⟨rfl, iff_of_true rfl hlong⟩
  · rw [if_neg hlong]
    exact ⟨rfl, iff_of_false (by simp [Except.isOk, Except.toBool]) hlong⟩

theorem encryptedTo_cons {cipher : ContentCipher} {nonces : List Nonce}
    {texts contents : List String} {nonce : Nonce} {text content : String}
    (h : Encrypts cipher nonce text content) (hrest : EncryptedTo cipher nonces texts contents) :
    EncryptedTo cipher (nonce :: nonces) (text :: texts) (content :: contents) := by
  obtain ⟨es, hes, rfl, rfl, rfl⟩ := hrest
  exact ⟨⟨nonce, text, content⟩ :: es, List.forall_mem_cons.2 ⟨h, hes⟩, rfl, rfl, rfl⟩

theorem message_ready (schedule : List Block) (m : Message) (source : Nonces) :
    ((m.toStored (.ready schedule)).run.run source).2 = source.forward 1 ∧
    match ((m.toStored (.ready schedule)).run.run source).1 with
    | .ok stored => (utf8 m.content).length ≤ Gcm.maxLength ∧
        Encrypts (.ready schedule) source.first m.content stored.content
    | .error _ => ¬ (utf8 m.content).length ≤ Gcm.maxLength := by
  obtain ⟨hnext, hok⟩ := encrypt_ready schedule m.content source
  rw [Message.toStored, run_bind]
  rcases hrun : (encrypt (.ready schedule) m.content).run.run source with ⟨e | content, after⟩
  · rw [hrun] at hnext hok
    exact ⟨hnext, fun hshort => by cases hok.2 hshort⟩
  · rw [hrun] at hnext hok
    exact ⟨hnext, hok.1 rfl, encrypts_first_iff.2 (congrArg Prod.fst hrun)⟩

/-- Messages that are encrypted with a key draw the nonces of their texts, and each is
encrypted once. -/
theorem messages_ready (schedule : List Block) (messages : List Message) (source : Nonces) :
    ((messages.mapM (Message.toStored (.ready schedule))).run.run source).2
        = source.forward (drawn source (messages.map (·.content))).length ∧
    ∀ stored, ((messages.mapM (Message.toStored (.ready schedule))).run.run source).1 = .ok stored →
      EncryptedTo (.ready schedule) (drawn source (messages.map (·.content)))
        (messages.map (·.content)) (stored.map (·.content)) := by
  induction messages generalizing source with
  | nil =>
      refine ⟨(source.forward_zero).symm, fun stored h => ?_⟩
      cases h
      exact ⟨[], by simp, rfl, rfl, rfl⟩
  | cons m messages ih =>
      obtain ⟨hnext, hm⟩ := message_ready schedule m source
      rw [List.mapM_cons, run_bind, List.map_cons, drawn]
      rcases hrun : (m.toStored (.ready schedule)).run.run source with ⟨e | s, after⟩
      · rw [hrun] at hnext hm
        rw [if_neg hm]
        refine ⟨hnext, fun stored h => by cases h⟩
      · rw [hrun] at hnext hm
        obtain ⟨hafter, hrest⟩ := ih (source.forward 1)
        have hafter' : after = source.forward 1 := hnext
        rw [if_pos hm.1, hafter', List.length_cons,
          ← source.forward_one_forward (drawn (source.forward 1) _).length, ← hafter]
        dsimp only
        rw [run_bind]
        rcases hruns : (messages.mapM (Message.toStored (.ready schedule))).run.run
          (source.forward 1) with ⟨e | ss, last⟩
        · exact ⟨rfl, fun stored h => by cases h⟩
        · refine ⟨rfl, fun stored h => ?_⟩
          cases h
          rw [hruns] at hrest
          exact encryptedTo_cons hm.2 (hrest ss rfl)

end ContentCipher

/-- What a step draws that only puts its parts together afterwards. -/
theorem run_bind_pure {α β : Type} (x : ContentCipher.Drawing α) (f : α → β) (source : Nonces) :
    ((x >>= fun a => pure (f a)).run.run source).2 = (x.run.run source).2 := by
  rw [run_bind]
  rcases x.run.run source with ⟨e | a, after⟩ <;> rfl

/-- The texts of a session that is stored are encrypted once each. -/
theorem Session.StoredFrom.encryptedTo {schedule : List Block} {source : Nonces} {now : Timestamp}
    {session : Session} {stored : StoredSession}
    (h : session.StoredFrom (.ready schedule) source now stored) :
    ContentCipher.EncryptedTo (.ready schedule)
      (ContentCipher.drawn source (Operation.create session).texts) (Operation.create session).texts
      (stored.messages.map (·.content)) := by
  obtain ⟨drawing, hdrawing, hdraws⟩ := h
  obtain ⟨figures, hfigures, hdrawing⟩ := Option.bind_eq_some_iff.1 hdrawing
  cases hdrawing
  obtain ⟨messages, after, hmessages, hstored⟩ := run_bind_eq_ok.1
    (Prod.ext hdraws rfl : _ = (Except.ok stored, _))
  cases hstored
  rw [Operation.texts, hfigures, Option.isSome_some, if_pos rfl]
  exact (ContentCipher.messages_ready schedule session.messages source).2 messages
    (congrArg Prod.fst hmessages)

theorem Message.encryptedTo {schedule : List Block} {source : Nonces} {m : Message}
    {stored : StoredMessage}
    (h : ContentCipher.DrawsFrom (m.toStored (.ready schedule)) source stored) :
    ContentCipher.EncryptedTo (.ready schedule) (ContentCipher.drawn source [m.content]) [m.content]
      [stored.content] := by
  obtain ⟨-, hm⟩ := ContentCipher.message_ready schedule m source
  have hstored : ((m.toStored (.ready schedule)).run.run source).1 = .ok stored := h
  rw [hstored] at hm
  rw [ContentCipher.drawn_singleton]
  exact ⟨[⟨source.first, m.content, stored.content⟩], List.forall_mem_singleton.2 hm.2,
    rfl, rfl, rfl⟩

namespace Store

open ContentCipher

variable {α β : Type} {s : Store} {schedule : List Block} {now : Timestamp}
  {operation : Operation}

/-! ## The nonces of a store -/

/-- An action that draws no nonce. -/
def KeepsNonces (x : Action α) : Prop := ∀ s : Store, (s.perform x).2.nonces = s.nonces

theorem Quiet.keepsNonces {x : Action α} (hx : Quiet x) : KeepsNonces x := by
  intro s
  obtain ⟨answer, events, h⟩ := hx s
  rw [h]

/-- Nonces are drawn by the first action of a chain, if the rest draws none. -/
theorem nonces_bind {x : Action α} {f : α → Action β} (hf : ∀ a, KeepsNonces (f a)) (s : Store) :
    (s.perform (x >>= f)).2.nonces = (s.perform x).2.nonces := by
  rcases h : s.perform x with ⟨e | a, s'⟩
  · rw [perform_bind_error h]
  · rw [perform_bind_ok h]
    exact hf a s'

theorem KeepsNonces.bind {x : Action α} {f : α → Action β} (hx : KeepsNonces x)
    (hf : ∀ a, KeepsNonces (f a)) : KeepsNonces (x >>= f) := fun s =>
  (nonces_bind hf s).trans (hx s)

theorem keepsNonces_retrying (operation : String) (timeout : TimeoutSettings → UInt64)
    (transaction : Transaction α) : KeepsNonces (retrying operation timeout transaction) := by
  intro s
  rcases perform_retrying operation timeout transaction s with
    ⟨a, pauses, table, events, -, -, h⟩ | ⟨e, events, h⟩ <;>
    rw [h]

theorem keepsNonces_countEnded (ended : Bool) : KeepsNonces (countEnded ended) := by
  intro s
  rw [perform_countEnded]

theorem keepsNonces_finish (id : String) (time : Timestamp) :
    KeepsNonces (Store.finish id time) := by
  intro s
  rcases perform_finish id time s with
    ⟨found, pauses, table, -, answer, events, table', h, -⟩ | ⟨e, events, h⟩ <;> rw [h]

theorem nonces_encrypting (step : Drawing α) (s : Store) :
    (s.perform (encrypting step)).2.nonces = (step.run.run s.nonces).2 := by
  rw [encrypting, perform_bind_ok (perform_getThe s)]
  rcases step.run.run s.nonces with ⟨e | a, nonces⟩ <;> rfl

/-- The nonces that an operation draws. -/
def drawnBy (s : Store) (operation : Operation) : List Nonce := drawn s.nonces operation.texts

theorem nonces_prepare (hcipher : s.cipher = .ready schedule) (session : Session) :
    (s.perform (prepare now session)).2.nonces
      = s.nonces.forward (s.drawnBy (.create session)).length := by
  rw [prepare, perform_bind_ok (perform_getThe s), hcipher, Session.toStored, drawnBy,
    Operation.texts]
  cases hfigures : responseFigures session.responseTimes with
  | none => exact s.nonces.forward_zero.symm
  | some figures =>
      have hrest : ∀ stored, KeepsNonces (do ofExcept (validate stored); pure stored) :=
        fun stored => ((Quiet.ofExcept _).bind fun _ => .pure _).keepsNonces
      exact (nonces_bind hrest s).trans ((nonces_encrypting _ s).trans ((run_bind_pure _ _ _).trans
        (messages_ready schedule session.messages s.nonces).1))

theorem texts_reads (h : operation.Reads) : operation.texts = [] := by
  cases operation <;> first | rfl | exact h.elim

/-- An appended message takes one nonce, unless it is refused for its id. -/
theorem nonces_addMessage (hcipher : s.cipher = .ready schedule) (id : String) (message : Message) :
    (s.perform (run now (.addMessage id message))).2.nonces
      = s.nonces.forward (s.drawnBy (.addMessage id message)).length := by
  have hrest : ∀ stored, KeepsNonces (do
      let touched ← retrying "add_message" (·.messageAddSecs) (appending id stored now.toColumn)
      if touched = 0 then fail .notFound else Pure.pure ()) := by
    refine fun stored => (keepsNonces_retrying _ _ _).bind fun touched => ?_
    split
    · exact (Quiet.fail _).keepsNonces
    · exact (Quiet.pure _).keepsNonces
  rw [run, nonces_bind (fun _ => (Quiet.pure _).keepsNonces), addMessage, requireId, drawnBy,
    Operation.texts]
  by_cases hid : id.isEmpty
  · rw [if_pos hid, if_pos hid, perform_bind_error (perform_fail s _)]
    exact s.nonces.forward_zero.symm
  · rw [if_neg hid, if_neg hid, perform_bind_ok (perform_pure s ()),
      perform_bind_ok (perform_getThe s), nonces_bind hrest, nonces_encrypting, hcipher]
    rw [(message_ready schedule message s.nonces).1, drawn_singleton,
      List.length_singleton]

/-- An operation takes from the source what it draws. -/
theorem nonces_run (hcipher : s.cipher = .ready schedule) (hdirect : ¬ operation.IsOverwrite) :
    (s.perform (run now operation)).2.nonces
      = s.nonces.forward (s.drawnBy operation).length := by
  have hnone : ∀ {α : Type} {x : Action α}, KeepsNonces x → operation.texts = [] →
      (s.perform x).2.nonces = s.nonces.forward (s.drawnBy operation).length := by
    intro α x hx htexts
    rw [hx s, drawnBy, htexts]
    exact s.nonces.forward_zero.symm
  by_cases hreads : operation.Reads
  · exact hnone (Quiet.run hreads now).keepsNonces (texts_reads hreads)
  cases operation with
  | create session =>
      have hrest : ∀ stored, KeepsNonces (do
          retrying "create_session" (·.defaultSecs) (insertion (Row.ofStored stored))
          modify fun s => { s with counters := s.counters.create stored.endTime.isNone }) :=
        fun stored => (keepsNonces_retrying _ _ _).bind fun _ _ => rfl
      rw [run, nonces_bind (fun _ => (Quiet.pure _).keepsNonces), create, nonces_bind hrest]
      exact nonces_prepare hcipher session
  | update session =>
      have hrest : ∀ stored, KeepsNonces (do
          let ended ← retrying "update_session" (·.defaultSecs) (updating (Row.ofStored stored))
          countEnded ended) :=
        fun stored => (keepsNonces_retrying _ _ _).bind keepsNonces_countEnded
      rw [run, nonces_bind (fun _ => (Quiet.pure _).keepsNonces), update, nonces_bind hrest]
      exact nonces_prepare hcipher session
  | addMessage id message => exact nonces_addMessage hcipher id message
  | finish id time =>
      exact hnone ((keepsNonces_finish id time).bind fun _ => (Quiet.pure _).keepsNonces) rfl
  | ensureIndexes =>
      exact hnone (((keepsNonces_retrying _ _ _).bind fun _ => (Quiet.report _).keepsNonces).bind
        fun _ => (Quiet.pure _).keepsNonces) rfl
  | rekey key => exact hnone (fun _ => rfl) rfl
  | shutdown => exact hnone (fun _ => rfl) rfl
  | refuse refusal => exact hnone (fun _ => rfl) rfl
  | relent => exact hnone (fun _ => rfl) rfl
  | schedule refusals => exact hnone (fun _ => rfl) rfl
  | overwrite id column v => exact absurd trivial hdirect
  | _ => exact absurd trivial hreads

end Store

end ChatArchive
