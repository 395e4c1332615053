import ChatArchive.Proofs.Sequencing
import ChatArchive.Session.Storing
import Mathlib.Algebra.Group.Nat.Defs

/-!
# What was sealed can be opened

Content goes through four steps on its way into the store and back: UTF-8, counter
mode with a tag, a nonce in front, and base64. Each undoes itself, whatever the
block cipher is, so content that was encrypted is decrypted to itself under the
same key. Nothing here depends on a key being good: without one content passes
unchanged, and with one of a wrong length nothing is ever encrypted.
-/

namespace ChatArchive.Text.Base64

theorem value?_symbol {v : Nat} (h : v < 64) : value? (symbol v) = some v := by
  have key : ∀ v < 64, value? (symbol v) = some v := by decide +kernel
  exact key v h

theorem symbol_ne_padding {v : Nat} (h : v < 64) : symbol v ≠ '=' := by
  have key : ∀ v < 64, symbol v ≠ '=' := by decide +kernel
  exact key v h

theorem ofNat_eq {a : UInt8} {n : Nat} (h : n = a.toNat) : UInt8.ofNat n = a := by
  rw [h, UInt8.ofNat_toNat]

theorem lastByte?_symbols (a : UInt8) :
    lastByte? (symbol (a.toNat / 4)) (symbol (a.toNat % 4 * 16)) = some [a] := by
  have ha := a.toNat_lt
  simp only [lastByte?, value?_symbol (show a.toNat / 4 < 64 by omega),
    value?_symbol (show a.toNat % 4 * 16 < 64 by omega), Option.bind_eq_bind, Option.bind_some]
  rw [if_pos (by omega), ofNat_eq (a := a) (by omega)]

theorem lastBytes?_symbols (a b : UInt8) :
    lastBytes? (symbol (a.toNat / 4)) (symbol (a.toNat % 4 * 16 + b.toNat / 16))
      (symbol (b.toNat % 16 * 4)) = some [a, b] := by
  have ha := a.toNat_lt
  have hb := b.toNat_lt
  simp only [lastBytes?, value?_symbol (show a.toNat / 4 < 64 by omega),
    value?_symbol (show a.toNat % 4 * 16 + b.toNat / 16 < 64 by omega),
    value?_symbol (show b.toNat % 16 * 4 < 64 by omega), Option.bind_eq_bind,
    Option.bind_some]
  rw [if_pos (by omega), ofNat_eq (a := a) (by omega), ofNat_eq (a := b) (by omega)]

theorem bytes?_symbols (a b c : UInt8) :
    bytes? (symbol (a.toNat / 4)) (symbol (a.toNat % 4 * 16 + b.toNat / 16))
      (symbol (b.toNat % 16 * 4 + c.toNat / 64)) (symbol (c.toNat % 64))
      = some [a, b, c] := by
  have ha := a.toNat_lt
  have hb := b.toNat_lt
  have hc := c.toNat_lt
  simp only [bytes?, value?_symbol (show a.toNat / 4 < 64 by omega),
    value?_symbol (show a.toNat % 4 * 16 + b.toNat / 16 < 64 by omega),
    value?_symbol (show b.toNat % 16 * 4 + c.toNat / 64 < 64 by omega),
    value?_symbol (show c.toNat % 64 < 64 by omega), Option.bind_eq_bind, Option.bind_some]
  rw [ofNat_eq (a := a) (by omega), ofNat_eq (a := b) (by omega),
    ofNat_eq (a := c) (by omega)]

/-- Decoding takes back what encoding writes. -/
theorem decode?_encode (bytes : List UInt8) : decode? (encode bytes) = some bytes := by
  induction bytes using encode.induct with
  | case1 => rfl
  | case2 a =>
      rw [encode, decode?, if_pos rfl, if_neg (not_not_intro rfl), if_pos rfl,
        lastByte?_symbols]
  | case3 a b =>
      have hb := b.toNat_lt
      rw [encode, decode?, if_pos rfl, if_neg (not_not_intro rfl),
        if_neg (symbol_ne_padding (by omega)), lastBytes?_symbols]
  | case4 a b c rest _ _ _ _ ih =>
      have hc := c.toNat_lt
      rw [encode, decode?, if_neg (symbol_ne_padding (by omega)), bytes?_symbols, ih]
      rfl

end ChatArchive.Text.Base64

namespace ChatArchive.Cipher

theorem ofBigEndian_concat (bytes : List UInt8) (b : UInt8) :
    ofBigEndian (bytes ++ [b]) = ofBigEndian bytes * 256 + b.toNat := by
  rw [ofBigEndian, List.foldl_append]
  rfl

theorem ofBigEndian_bigEndian (w n : Nat) : ofBigEndian (bigEndian w n) = n % 256 ^ w := by
  induction w generalizing n with
  | zero => rw [Nat.pow_zero, Nat.mod_one]; rfl
  | succ w ih =>
      have hpow : n % 256 ^ (w + 1) = n % 256 + 256 * (n / 256 % 256 ^ w) := by
        rw [Nat.pow_succ', Nat.mod_mul]
      rw [bigEndian, ofBigEndian_concat, ih, UInt8.toNat_ofNat', hpow]
      omega

namespace Nonce

theorem length_toBytes (n : Nonce) : n.toBytes.length = 12 := length_bigEndian 12 _

theorem ofBigEndian_toBytes (n : Nonce) : BitVec.ofNat 96 (ofBigEndian n.toBytes) = n := by
  have hnat : ofBigEndian n.toBytes = n.toNat :=
    (ofBigEndian_bigEndian 12 _).trans (Nat.mod_eq_of_lt n.isLt)
  rw [hnat, BitVec.ofNat_toNat, BitVec.setWidth_eq]

end Nonce

namespace Gcm

variable {cipher : Block → Block} {nonce : Nonce}

theorem length_toBytes (b : Block) : b.toBytes.length = 16 := rfl

theorem length_keyStream (cipher : Block → Block) (nonce : Nonce) (count : Nat) :
    (keyStream cipher nonce count).length = 16 * count := by
  rw [keyStream, List.length_flatMap]
  simp only [length_toBytes, List.map_const', List.sum_replicate_nat, List.length_range]
  exact Nat.mul_comm count 16

theorem length_applyStream (bytes : List UInt8) :
    (applyStream cipher nonce bytes).length = bytes.length := by
  rw [applyStream, List.length_zipWith, length_keyStream]
  omega

theorem length_tag (encrypted : List UInt8) : (tag cipher nonce encrypted).length = 16 := by
  rw [tag, List.length_zipWith, length_bigEndian, length_toBytes]
  rfl

theorem zipWith_xor_xor {xs ks : List UInt8} (h : xs.length ≤ ks.length) :
    List.zipWith (· ^^^ ·) (List.zipWith (· ^^^ ·) xs ks) ks = xs := by
  induction xs generalizing ks with
  | nil => rfl
  | cons x xs ih =>
      cases ks with
      | nil => exact absurd h (Nat.not_succ_le_zero _)
      | cons k ks =>
          rw [List.zipWith_cons_cons, List.zipWith_cons_cons, ih (Nat.le_of_succ_le_succ h),
            UInt8.xor_assoc, UInt8.xor_self, UInt8.xor_zero]

/-- Adding the stream twice changes nothing. -/
theorem applyStream_applyStream (bytes : List UInt8) :
    applyStream cipher nonce (applyStream cipher nonce bytes) = bytes := by
  rw [applyStream, length_applyStream, applyStream]
  exact zipWith_xor_xor (by rw [length_keyStream]; omega)

theorem openText_of_short {sealedText : List UInt8} (h : sealedText.length < 16) :
    openText cipher nonce sealedText = none := by
  rw [openText, if_neg]
  rintro ⟨hlong, -⟩
  exact absurd h (Nat.not_lt.2 hlong)

theorem openText_append {encrypted last : List UInt8} (h : last.length = 16) :
    openText cipher nonce (encrypted ++ last)
      = if encrypted.length ≤ maxLength ∧ last = tag cipher nonce encrypted
        then some (applyStream cipher nonce encrypted) else none := by
  have hsize : (encrypted ++ last).length - tagSize = encrypted.length := by
    rw [List.length_append, h]
    exact Nat.add_sub_cancel _ _
  have hlong : tagSize ≤ (encrypted ++ last).length := by
    rw [List.length_append, h]
    exact Nat.le_add_left _ _
  simp only [openText, hsize, hlong, List.take_left', List.drop_left', true_and]

/-- A text that was sealed can be opened. -/
theorem openText_sealText {plain sealedText : List UInt8}
    (h : sealText cipher nonce plain = some sealedText) :
    openText cipher nonce sealedText = some plain := by
  rw [sealText] at h
  split at h
  · next hlen =>
      cases h
      have hstream : (applyStream cipher nonce plain).length ≤ maxLength := by
        rw [length_applyStream]
        exact hlen
      rw [openText_append (length_tag _), if_pos ⟨hstream, rfl⟩, applyStream_applyStream]
  · cases h

end Gcm

end ChatArchive.Cipher

namespace ChatArchive

open Cipher Text

namespace ContentCipher

/-- A step that succeeded with the nonces that it drew. -/
def Draws {α : Type} (step : Drawing α) (a : α) : Prop :=
  ∃ nonces after : Nonces, step.run.run nonces = (.ok a, after)

/-- A step that succeeds with these nonces to draw from. -/
def DrawsFrom {α : Type} (step : Drawing α) (nonces : Nonces) (a : α) : Prop :=
  (step.run.run nonces).1 = .ok a

theorem DrawsFrom.draws {α : Type} {step : Drawing α} {nonces : Nonces} {a : α}
    (h : DrawsFrom step nonces a) : Draws step a :=
  ⟨nonces, (step.run.run nonces).2, Prod.ext h rfl⟩

/-- The nonce drawn is the first one, and the others are left. -/
theorem run_draw (nonces : Nonces) :
    draw.run.run nonces = (.ok nonces.first, nonces.forward 1) := rfl

theorem draws_pure {α : Type} {a b : α} (h : Draws (pure a) b) : b = a := by
  obtain ⟨nonces, after, h⟩ := h
  cases h
  rfl

theorem not_draws_throw {α : Type} {e : CipherError} {a : α} : ¬ Draws (throw e) a := by
  intro h'
  obtain ⟨nonces, after, h⟩ := h'
  cases h

/-- A chain that succeeded went through an answer of its first step. -/
theorem draws_bind {α β : Type} {x : Drawing α} {f : α → Drawing β} {b : β}
    (h : Draws (x >>= f) b) : ∃ a, Draws x a ∧ Draws (f a) b := by
  obtain ⟨nonces, after, h⟩ := h
  obtain ⟨a, between, hx, hf⟩ := run_bind_eq_ok.1 h
  exact ⟨a, ⟨nonces, between, hx⟩, between, after, hf⟩

theorem draws_mapM {α β : Type} {f : α → Drawing β} {as : List α} {bs : List β}
    (h : Draws (as.mapM f) bs) : List.Forall₂ (fun a b => Draws (f a) b) as bs := by
  induction as generalizing bs with
  | nil =>
      rw [draws_pure h]
      exact .nil
  | cons a as ih =>
      rw [List.mapM_cons] at h
      obtain ⟨b, hb, h⟩ := draws_bind h
      obtain ⟨bs', hbs, h⟩ := draws_bind h
      rw [draws_pure h]
      exact .cons hb (ih hbs)

/-- The text of an envelope is read as the nonce and the content that were put into
it. -/
theorem decrypt_envelope (schedule : List Block) (nonce : Nonce) (sealedText : List UInt8) :
    decrypt (.ready schedule) (envelope nonce sealedText)
      = ((Gcm.openText (Aes.encryptBlock schedule) nonce sealedText).bind ofUtf8?).elim
        (.error .decryptionFailed) .ok := by
  have htake : (nonce.toBytes ++ sealedText).take Gcm.nonceSize = nonce.toBytes :=
    List.take_left' nonce.length_toBytes
  have hdrop : (nonce.toBytes ++ sealedText).drop Gcm.nonceSize = sealedText :=
    List.drop_left' nonce.length_toBytes
  have hlong : ¬ (nonce.toBytes ++ sealedText).length < Gcm.nonceSize := by
    rw [List.length_append, nonce.length_toBytes]
    exact Nat.not_lt.2 (Nat.le_add_right _ _)
  simp only [decrypt, envelope, String.toList_ofList, Base64.decode?_encode]
  rw [if_neg hlong, htake, hdrop, nonce.ofBigEndian_toBytes]
  cases (Gcm.openText (Aes.encryptBlock schedule) nonce sealedText).bind ofUtf8? with
  | none => rfl
  | some plain => rfl

/-- Content that was encrypted is decrypted to itself by the same cipher. -/
theorem decrypt_encrypt {cipher : ContentCipher} {plain stored : String}
    (h : Draws (cipher.encrypt plain) stored) : cipher.decrypt stored = .ok plain := by
  cases cipher with
  | disabled => rw [draws_pure h]; rfl
  | misconfigured size => exact absurd h not_draws_throw
  | ready schedule =>
      rw [encrypt] at h
      obtain ⟨nonce, -, h⟩ := draws_bind h
      split at h
      · next sealedText hseal =>
          rw [draws_pure h, decrypt_envelope, Gcm.openText_sealText hseal, Option.bind_some,
            ofUtf8?_utf8, Option.elim_some]
      · exact absurd h not_draws_throw

/-- So it is shown as it was, and not as a fallback. -/
theorem reveal_encrypt {cipher : ContentCipher} {plain stored : String}
    (h : Draws (cipher.encrypt plain) stored) : cipher.reveal stored = (plain, false) := by
  rw [reveal, decrypt_encrypt h]

end ContentCipher

open ContentCipher

/-! ## Messages and sessions -/

theorem Message.toStored_time {cipher : ContentCipher} {m : Message} {stored : StoredMessage}
    (h : Draws (m.toStored cipher) stored) : stored.time = m.time := by
  obtain ⟨content, -, h⟩ := draws_bind h
  rw [draws_pure h]

/-- A message that was stored is loaded as it was. -/
theorem Message.toMessage_toStored {cipher : ContentCipher} {m : Message}
    {stored : StoredMessage} (h : Draws (m.toStored cipher) stored) :
    stored.toMessage cipher = m := by
  obtain ⟨content, hcontent, h⟩ := draws_bind h
  rw [draws_pure h, StoredMessage.toMessage, reveal_encrypt hcontent]

theorem Message.map_toMessage {cipher : ContentCipher} {messages : List Message}
    {stored : List StoredMessage}
    (h : List.Forall₂ (fun m s => Draws (m.toStored cipher) s) messages stored) :
    stored.map (StoredMessage.toMessage cipher) = messages := by
  rw [← List.forall₂_eq_eq_eq, List.forall₂_map_left_iff]
  exact h.flip.imp fun _ _ hm => Message.toMessage_toStored hm

/-- What the stored form of a session at a point in time has from the session: what is
copied, the duration, and its messages under the cipher. -/
structure Session.StoredAs (cipher : ContentCipher) (now : Time.Timestamp) (session : Session)
    (stored : StoredSession) : Prop where
  id : stored.id = session.id
  startTime : stored.startTime = session.startTime
  endTime : stored.endTime = session.endTime
  duration : stored.duration = durationSecs session.startTime (session.endTime.getD now)
  totalTokens : stored.totalTokens = session.totalTokens
  lastActivity : stored.lastActivity = some session.lastActivity
  messages : List.Forall₂ (fun m s => Draws (m.toStored cipher) s) session.messages
    stored.messages

/-- The stored form of a session at a point in time, with these nonces to draw from. -/
def Session.StoredFrom (cipher : ContentCipher) (nonces : Nonces) (now : Time.Timestamp)
    (session : Session) (stored : StoredSession) : Prop :=
  ∃ drawing, session.toStored cipher now = some drawing ∧ DrawsFrom drawing nonces stored

theorem Session.StoredFrom.storedAs {cipher : ContentCipher} {nonces : Nonces}
    {now : Time.Timestamp} {session : Session} {stored : StoredSession}
    (h : session.StoredFrom cipher nonces now stored) : session.StoredAs cipher now stored := by
  obtain ⟨drawing, hdrawing, h⟩ := h
  rw [toStored] at hdrawing
  obtain ⟨⟨most, mean⟩, -, hdrawing⟩ := Option.bind_eq_some_iff.1 hdrawing
  cases hdrawing
  obtain ⟨messages, hmessages, h⟩ := draws_bind h.draws
  rw [draws_pure h]
  exact ⟨rfl, rfl, rfl, rfl, rfl, rfl, draws_mapM hmessages⟩

/-- The messages of a session that was stored are loaded as they were. -/
theorem Session.StoredAs.messages_eq {cipher : ContentCipher} {now : Time.Timestamp}
    {session : Session} {stored : StoredSession} (h : session.StoredAs cipher now stored) :
    stored.messages.map (StoredMessage.toMessage cipher) = session.messages :=
  Message.map_toMessage h.messages

end ChatArchive
