import ChatArchive.Proofs.Sealing
import Mathlib.Data.List.Induction

/-!
# Decrypting accepts exactly what encrypting writes

Sealing undoes opening as opening undoes sealing, one layer at a time. Base64 reads
only canonical texts, so the bytes that were read give the text back. Twelve bytes are
one nonce. A tag that fits is the tag that sealing writes, and adding the stream twice
changes nothing. So a text that is decrypted was written by encrypting, under the nonce
that stands in front of it, and what cannot have been written is refused for one of
three reasons.

Nothing is assumed of the block cipher or of the hash: that a forged tag is hard to
find is another matter, and it plays no part in what is accepted.
-/

namespace ChatArchive

namespace Text.Base64

theorem symbol_of_value? {c : Char} {v : Nat} (h : value? c = some v) :
    v < 64 ∧ symbol v = c := by
  -- No character behind the small letters has a value, so few are left to look at.
  have key : ∀ n < 123, ∀ v ∈ value? (Char.ofNat n), v < 64 ∧ symbol v = Char.ofNat n := by
    decide +kernel
  have hlow : c.toNat < 123 := by
    by_contra hhigh
    unfold value? at h
    rw [if_neg (by omega), if_neg (by omega), if_neg (by omega), if_neg (by omega),
      if_neg (by omega)] at h
    cases h
  have hc := key c.toNat hlow v
  rw [Char.ofNat_toNat] at hc
  exact hc h

theorem toNat_byte {n : Nat} (h : n < 256) : (UInt8.ofNat n).toNat = n :=
  UInt8.toNat_ofNat_of_lt' h

/-! ### What was decoded encodes to the same text -/

theorem encode_lastByte? {w x : Char} {bytes : List UInt8} (h : lastByte? w x = some bytes) :
    encode bytes = [w, x, '=', '='] := by
  simp only [lastByte?, Option.bind_eq_bind, Option.bind_eq_some_iff] at h
  obtain ⟨a, ha, b, hb, h⟩ := h
  obtain ⟨ha', rfl⟩ := symbol_of_value? ha
  obtain ⟨hb', rfl⟩ := symbol_of_value? hb
  split at h
  · next hzero =>
      cases h
      have hbyte : (UInt8.ofNat (a * 4 + b / 16)).toNat = a * 4 + b / 16 :=
        toNat_byte (by omega)
      simp only [encode, hbyte]
      rw [show (a * 4 + b / 16) / 4 = a by omega,
        show (a * 4 + b / 16) % 4 * 16 = b by omega]
  · cases h

theorem encode_lastBytes? {w x y : Char} {bytes : List UInt8}
    (h : lastBytes? w x y = some bytes) : encode bytes = [w, x, y, '='] := by
  simp only [lastBytes?, Option.bind_eq_bind, Option.bind_eq_some_iff] at h
  obtain ⟨a, ha, b, hb, c, hc, h⟩ := h
  obtain ⟨ha', rfl⟩ := symbol_of_value? ha
  obtain ⟨hb', rfl⟩ := symbol_of_value? hb
  obtain ⟨hc', rfl⟩ := symbol_of_value? hc
  split at h
  · next hzero =>
      cases h
      have hfirst : (UInt8.ofNat (a * 4 + b / 16)).toNat = a * 4 + b / 16 :=
        toNat_byte (by omega)
      have hsecond : (UInt8.ofNat (b % 16 * 16 + c / 4)).toNat = b % 16 * 16 + c / 4 :=
        toNat_byte (by omega)
      simp only [encode, hfirst, hsecond]
      rw [show (a * 4 + b / 16) / 4 = a by omega,
        show (a * 4 + b / 16) % 4 * 16 + (b % 16 * 16 + c / 4) / 16 = b by omega,
        show (b % 16 * 16 + c / 4) % 16 * 4 = c by omega]
  · cases h

theorem encode_bytes? {w x y z : Char} {here : List UInt8} (more : List UInt8)
    (h : bytes? w x y z = some here) :
    encode (here ++ more) = w :: x :: y :: z :: encode more := by
  simp only [bytes?, Option.bind_eq_bind, Option.bind_eq_some_iff] at h
  obtain ⟨a, ha, b, hb, c, hc, d, hd, h⟩ := h
  obtain ⟨ha', rfl⟩ := symbol_of_value? ha
  obtain ⟨hb', rfl⟩ := symbol_of_value? hb
  obtain ⟨hc', rfl⟩ := symbol_of_value? hc
  obtain ⟨hd', rfl⟩ := symbol_of_value? hd
  cases h
  have hfirst : (UInt8.ofNat (a * 4 + b / 16)).toNat = a * 4 + b / 16 :=
    toNat_byte (by omega)
  have hsecond : (UInt8.ofNat (b % 16 * 16 + c / 4)).toNat = b % 16 * 16 + c / 4 :=
    toNat_byte (by omega)
  have hthird : (UInt8.ofNat (c % 4 * 64 + d)).toNat = c % 4 * 64 + d :=
    toNat_byte (by omega)
  simp only [List.cons_append, List.nil_append, encode, hfirst, hsecond, hthird]
  rw [show (a * 4 + b / 16) / 4 = a by omega,
    show (a * 4 + b / 16) % 4 * 16 + (b % 16 * 16 + c / 4) / 16 = b by omega,
    show (b % 16 * 16 + c / 4) % 16 * 4 + (c % 4 * 64 + d) / 64 = c by omega,
    show (c % 4 * 64 + d) % 64 = d by omega]

/-- Decoding reads nothing but what encoding writes. -/
theorem encode_of_decode? {cs : List Char} {bytes : List UInt8}
    (h : decode? cs = some bytes) : encode bytes = cs := by
  fun_induction decode? cs generalizing bytes with
  | case1 =>
      cases h
      rfl
  | case2 => cases h
  | case3 w x rest hend =>
      -- A padded group ends the text.
      rw [Decidable.not_not.1 hend]
      exact encode_lastByte? h
  | case4 w x y rest hend hpad =>
      rw [Decidable.not_not.1 hend]
      exact encode_lastBytes? h
  | case5 w x y z rest hpad ih =>
      simp only [Option.bind_eq_bind, Option.bind_eq_some_iff] at h
      obtain ⟨here, hhere, more, hmore, h⟩ := h
      cases h
      rw [encode_bytes? more hhere, ih hmore]
  | case6 => cases h

/-- The text of some bytes. -/
def text (bytes : List UInt8) : String := String.ofList (encode bytes)

theorem decode?_eq_some_iff {x : String} {bytes : List UInt8} :
    decode? x.toList = some bytes ↔ x = text bytes := by
  constructor
  · intro h
    rw [text, encode_of_decode? h, String.ofList_toList]
  · rintro rfl
    rw [text, String.toList_ofList, decode?_encode]

theorem text_injective {bytes bytes' : List UInt8} (h : text bytes = text bytes') :
    bytes = bytes' := by
  have hdecoded : decode? (text bytes).toList = some bytes := decode?_eq_some_iff.2 rfl
  exact Option.some.inj (hdecoded.symm.trans (decode?_eq_some_iff.2 h))

theorem decode?_eq_none_iff {x : String} :
    decode? x.toList = none ↔ ∀ bytes, x ≠ text bytes := by
  rw [Option.eq_none_iff_forall_ne_some]
  exact forall_congr' fun bytes => not_congr decode?_eq_some_iff

end Text.Base64

namespace Cipher

/-! ### Numbers and nonces -/

theorem ofBigEndian_lt (bytes : List UInt8) : ofBigEndian bytes < 256 ^ bytes.length := by
  induction bytes using List.reverseRecOn with
  | nil => exact Nat.zero_lt_one
  | append_singleton bytes b ih =>
      have hb := b.toNat_lt
      rw [ofBigEndian_concat, List.length_append, List.length_singleton, Nat.pow_succ]
      omega

theorem bigEndian_ofBigEndian (bytes : List UInt8) :
    bigEndian bytes.length (ofBigEndian bytes) = bytes := by
  induction bytes using List.reverseRecOn with
  | nil => rfl
  | append_singleton bytes b ih =>
      have hb := b.toNat_lt
      rw [ofBigEndian_concat, List.length_append, List.length_singleton, bigEndian,
        show (ofBigEndian bytes * 256 + b.toNat) / 256 = ofBigEndian bytes by omega, ih]
      congr 2
      rw [← UInt8.toNat_inj, UInt8.toNat_ofNat']
      omega

/-- Twelve bytes are the bytes of one nonce. -/
theorem Nonce.toBytes_ofBigEndian {bytes : List UInt8} (h : bytes.length = 12) :
    Nonce.toBytes (BitVec.ofNat 96 (ofBigEndian bytes)) = bytes := by
  have hlt : ofBigEndian bytes < 2 ^ 96 := by
    have hbytes := ofBigEndian_lt bytes
    rw [h] at hbytes
    exact hbytes
  rw [toBytes, BitVec.toNat_ofNat, Nat.mod_eq_of_lt hlt, ← h, bigEndian_ofBigEndian]

namespace Gcm

variable {cipher : Block → Block} {nonce : Nonce} {plain sealedText : List UInt8}

theorem tag_cases (sealedText : List UInt8) :
    sealedText.length < 16 ∨
    ∃ encrypted last : List UInt8, sealedText = encrypted ++ last ∧ last.length = 16 := by
  by_cases hshort : sealedText.length < 16
  · exact .inl hshort
  · refine .inr ⟨sealedText.take (sealedText.length - 16),
      sealedText.drop (sealedText.length - 16), (List.take_append_drop _ _).symm, ?_⟩
    rw [List.length_drop]
    omega

/-- What can be opened was sealed, with this very tag. -/
theorem sealText_openText (h : openText cipher nonce sealedText = some plain) :
    sealText cipher nonce plain = some sealedText := by
  rcases tag_cases sealedText with hshort | ⟨encrypted, last, rfl, hlast⟩
  · rw [openText_of_short hshort] at h
    cases h
  · rw [openText_append hlast] at h
    split at h
    · next hfits =>
        obtain ⟨hlen, htag⟩ := hfits
        cases h
        rw [sealText, if_pos (by rwa [length_applyStream])]
        simp only [applyStream_applyStream]
        rw [← htag]
    · cases h

theorem openText_eq_some_iff :
    openText cipher nonce sealedText = some plain ↔
      sealText cipher nonce plain = some sealedText :=
  ⟨sealText_openText, openText_sealText⟩

/-- What was sealed is as long as the text and has its tag behind it. -/
theorem sealText_ok (h : sealText cipher nonce plain = some sealedText) :
    ∃ encrypted, sealedText = encrypted ++ tag cipher nonce encrypted ∧
      encrypted.length = plain.length := by
  rw [sealText] at h
  split at h
  · cases h
    exact ⟨_, rfl, length_applyStream plain⟩
  · cases h

theorem sealText_isSome_iff :
    (∃ sealedText, sealText cipher nonce plain = some sealedText)
      ↔ plain.length ≤ maxLength := by
  rw [sealText]
  split
  · next h => exact iff_of_true ⟨_, rfl⟩ h
  · next h =>
      refine iff_of_false ?_ h
      rintro ⟨sealedText, hnone⟩
      cases hnone

end Gcm

end Cipher

open Cipher Text

namespace ContentCipher

/-- Under this nonce the text is encrypted to the stored text, whichever nonces are to be drawn
after it. -/
def Encrypts (cipher : ContentCipher) (nonce : Nonce) (plain stored : String) : Prop :=
  ∀ nonces : Nonces, nonces.first = nonce →
    ((cipher.encrypt plain).run.run nonces).1 = .ok stored

variable {schedule : List Block} {nonce : Nonce} {plain stored x : String}
  {sealedText : List UInt8}

theorem first_counting (nonce : Nonce) : (Nonces.counting nonce).first = nonce :=
  BitVec.add_zero nonce

/-- Encryption looks at no nonce but the first. -/
theorem encrypts_first_iff {cipher : ContentCipher} {nonces : Nonces} :
    Encrypts cipher nonces.first plain stored ↔
      ((cipher.encrypt plain).run.run nonces).1 = .ok stored := by
  refine ⟨fun h => h nonces rfl, fun h nonces' hfirst => ?_⟩
  rw [← h]
  cases cipher with
  | disabled => rfl
  | misconfigured size => rfl
  | ready schedule =>
      rw [encrypt, run_bind_ok (run_draw nonces), run_bind_ok (run_draw nonces'), hfirst]
      cases Gcm.sealText (Aes.encryptBlock schedule) nonces.first (utf8 plain) <;> rfl

theorem Encrypts.draws {cipher : ContentCipher} (h : Encrypts cipher nonce plain stored) :
    Draws (cipher.encrypt plain) stored :=
  DrawsFrom.draws (h (.counting nonce) (first_counting nonce))

theorem encrypts_disabled_iff : Encrypts .disabled nonce plain stored ↔ stored = plain := by
  rw [← first_counting nonce, encrypts_first_iff]
  constructor
  · intro h
    cases h
    rfl
  · rintro rfl
    rfl

theorem encrypts_ready_iff :
    Encrypts (.ready schedule) nonce plain stored ↔
      ∃ sealedText, Gcm.sealText (Aes.encryptBlock schedule) nonce (utf8 plain)
        = some sealedText ∧ stored = envelope nonce sealedText := by
  have hfirst := first_counting nonce
  rw [← hfirst, encrypts_first_iff, encrypt, run_bind_ok (run_draw _), hfirst]
  cases hseal : Gcm.sealText (Aes.encryptBlock schedule) nonce (utf8 plain) with
  | none =>
      rw [run_throw]
      constructor
      · intro h
        cases h
      · rintro ⟨sealedText, h, -⟩
        cases h
  | some sealedText =>
      rw [run_pure]
      constructor
      · intro h
        exact ⟨sealedText, rfl, (Except.ok.inj h).symm⟩
      · rintro ⟨sealedText', h, rfl⟩
        rw [Option.some.inj h]

theorem ofKey_nil : ofKey [] = .disabled := rfl

theorem ofKey_of_size {key : List UInt8} (h : key.length ∈ keySizes) :
    ofKey key = .ready (Aes.schedule key) := by
  have hne : ¬ key.isEmpty := by
    intro hempty
    rw [List.isEmpty_iff.1 hempty] at h
    exact absurd h (by decide)
  rw [ofKey, if_neg hne, if_pos (List.contains_iff_mem.2 h)]

/-- Encryption succeeds on all but texts that are too long, decryption undoes it, and
what is stored is the nonce, the content and a tag. -/
theorem decrypt_undoes_encrypt (key : List UInt8)
    (hkey : key = [] ∨ key.length ∈ keySizes) (nonce : Nonce) (plain : String) :
    ((∃ stored, Encrypts (ofKey key) nonce plain stored)
      ↔ key = [] ∨ (utf8 plain).length ≤ Gcm.maxLength) ∧
    ∀ stored, Encrypts (ofKey key) nonce plain stored →
      (ofKey key).decrypt stored = .ok plain ∧
      (key = [] → stored = plain) ∧
      (key ≠ [] → ∃ encrypted tag : List UInt8,
        Base64.decode? stored.toList = some (nonce.toBytes ++ encrypted ++ tag) ∧
        nonce.toBytes.length = 12 ∧ encrypted.length = (utf8 plain).length ∧
        tag.length = 16) := by
  obtain rfl | hsize := hkey
  · rw [ofKey_nil]
    refine ⟨iff_of_true ⟨plain, encrypts_disabled_iff.2 rfl⟩ (.inl rfl), fun stored h => ?_⟩
    exact ⟨decrypt_encrypt h.draws, fun _ => encrypts_disabled_iff.1 h,
      fun hne => absurd rfl hne⟩
  · have hne : key ≠ [] := by
      rintro rfl
      exact absurd hsize (by decide)
    rw [ofKey_of_size hsize]
    refine ⟨?_, fun stored h => ⟨decrypt_encrypt h.draws, fun hnil => absurd hnil hne, ?_⟩⟩
    · rw [or_iff_right hne, ← Gcm.sealText_isSome_iff]
      constructor
      · rintro ⟨stored, h⟩
        obtain ⟨sealedText, hseal, -⟩ := encrypts_ready_iff.1 h
        exact ⟨sealedText, hseal⟩
      · rintro ⟨sealedText, hseal⟩
        exact ⟨_, encrypts_ready_iff.2 ⟨sealedText, hseal, rfl⟩⟩
    · intro _
      obtain ⟨sealedText, hseal, rfl⟩ := encrypts_ready_iff.1 h
      obtain ⟨encrypted, rfl, hencrypted⟩ := Gcm.sealText_ok hseal
      refine ⟨encrypted, Gcm.tag (Aes.encryptBlock (Aes.schedule key)) nonce encrypted, ?_,
        nonce.length_toBytes, hencrypted, Gcm.length_tag encrypted⟩
      rw [envelope, String.toList_ofList, Base64.decode?_encode, List.append_assoc]

/-- The key of sixteen zeros. -/
def zeroKey : List UInt8 := List.replicate 16 0

/-- The text of sixteen zeros. -/
def zeroText : String := String.ofList (List.replicate 16 (Char.ofNat 0))

/-- That text encrypted with that key and the nonce zero: a known answer of the cipher. -/
def zeroEncrypted : List UInt8 :=
  [0x03, 0x88, 0xda, 0xce, 0x60, 0xb6, 0xa3, 0x92,
    0xf3, 0x28, 0xc2, 0xb9, 0x71, 0xb2, 0xfe, 0x78]

/-- Its tag. -/
def zeroTag : List UInt8 :=
  [0xab, 0x6e, 0x47, 0xd4, 0x2c, 0xec, 0x13, 0xbd,
    0xf5, 0x3a, 0x67, 0xb2, 0x12, 0x57, 0xbd, 0xdf]

/-- What is stored for it. -/
def zeroStored : String := Base64.text (Nonce.toBytes 0 ++ zeroEncrypted ++ zeroTag)

theorem encrypts_zeroText : Encrypts (ofKey zeroKey) 0 zeroText zeroStored := by
  rw [← first_counting 0, encrypts_first_iff]
  decide +kernel

theorem decrypt_undoes_encrypt_zeroText :
    (ofKey zeroKey).decrypt zeroStored = .ok zeroText ∧
    ∃ encrypted tag : List UInt8,
      Base64.decode? zeroStored.toList = some (Nonce.toBytes 0 ++ encrypted ++ tag) ∧
      encrypted.length = 16 ∧ tag.length = 16 := by
  obtain ⟨hplain, -, hparts⟩ :=
    (decrypt_undoes_encrypt zeroKey (.inr (by decide)) 0 zeroText).2 zeroStored
      encrypts_zeroText
  obtain ⟨encrypted, tag, hbytes, -, hencrypted, htag⟩ := hparts (by decide)
  exact ⟨hplain, encrypted, tag, hbytes, hencrypted, htag⟩

/-! ### What is accepted -/

theorem envelope_eq_text (nonce : Nonce) (sealedText : List UInt8) :
    envelope nonce sealedText = Base64.text (nonce.toBytes ++ sealedText) := rfl

/-- A text is not base64, or too short for a nonce, or is put together from a nonce and
the rest. -/
theorem text_cases (x : String) :
    Base64.decode? x.toList = none ∨
    (∃ bytes, x = Base64.text bytes ∧ bytes.length < 12) ∨
    ∃ nonce sealedText, x = envelope nonce sealedText := by
  cases hdecoded : Base64.decode? x.toList with
  | none => exact .inl rfl
  | some bytes =>
      have hx : x = Base64.text bytes := Base64.decode?_eq_some_iff.1 hdecoded
      by_cases hshort : bytes.length < 12
      · exact .inr (.inl ⟨bytes, hx, hshort⟩)
      · have hnonce : (bytes.take 12).length = 12 := by
          rw [List.length_take]
          omega
        refine .inr (.inr ⟨BitVec.ofNat 96 (ofBigEndian (bytes.take 12)), bytes.drop 12, ?_⟩)
        rw [envelope_eq_text, Nonce.toBytes_ofBigEndian hnonce, List.take_append_drop, hx]

theorem decrypt_of_decode?_none (h : Base64.decode? x.toList = none) :
    decrypt (.ready schedule) x = .error .undecodable := by
  rw [decrypt, h]

theorem decrypt_of_short {bytes : List UInt8} (h : bytes.length < 12) :
    decrypt (.ready schedule) (Base64.text bytes) = .error .tooShort := by
  rw [decrypt, Base64.decode?_eq_some_iff.2 rfl]
  exact if_pos h

/-- Why content cannot have been sealed from a text: it has no tag, a tag that does not
fit, a length that is never sealed, or bytes that are not UTF-8. -/
def Unsealable (schedule : List Block) (nonce : Nonce) (sealedText : List UInt8) : Prop :=
  sealedText.length < 16 ∨ ∃ encrypted tag : List UInt8,
    sealedText = encrypted ++ tag ∧ tag.length = 16 ∧
    (tag ≠ Gcm.tag (Aes.encryptBlock schedule) nonce encrypted ∨
      Gcm.maxLength < encrypted.length ∨
      ofUtf8? (Gcm.applyStream (Aes.encryptBlock schedule) nonce encrypted) = none)

theorem opened_iff :
    (Gcm.openText (Aes.encryptBlock schedule) nonce sealedText).bind ofUtf8? = some plain ↔
      Gcm.sealText (Aes.encryptBlock schedule) nonce (utf8 plain) = some sealedText := by
  rw [← Gcm.openText_eq_some_iff]
  constructor
  · intro h
    obtain ⟨bytes, hopen, hread⟩ := Option.bind_eq_some_iff.1 h
    rw [utf8_of_ofUtf8? hread]
    exact hopen
  · intro h
    rw [h, Option.bind_some, ofUtf8?_utf8]

theorem unopened_iff :
    (Gcm.openText (Aes.encryptBlock schedule) nonce sealedText).bind ofUtf8? = none ↔
      Unsealable schedule nonce sealedText := by
  rcases Gcm.tag_cases sealedText with hshort | ⟨encrypted, last, rfl, hlast⟩
  · rw [Gcm.openText_of_short hshort]
    exact iff_of_true rfl (.inl hshort)
  · have hlong : ¬ (encrypted ++ last).length < 16 := by
      rw [List.length_append]
      omega
    rw [Gcm.openText_append hlast, Unsealable, or_iff_right hlong]
    constructor
    · intro h
      refine ⟨encrypted, last, rfl, hlast, ?_⟩
      by_cases htag : last = Gcm.tag (Aes.encryptBlock schedule) nonce encrypted
      · by_cases hlen : encrypted.length ≤ Gcm.maxLength
        · rw [if_pos ⟨hlen, htag⟩, Option.bind_some] at h
          exact .inr (.inr h)
        · exact .inr (.inl (Nat.lt_of_not_le hlen))
      · exact .inl htag
    · rintro ⟨encrypted', last', heq, hlast', hreason⟩
      obtain ⟨rfl, rfl⟩ := List.append_inj' heq (hlast.trans hlast'.symm)
      split
      · next hfits =>
          obtain ⟨hlen, htag⟩ := hfits
          rw [Option.bind_some]
          rcases hreason with hne | hlong | hnone
          · exact absurd htag hne
          · exact absurd hlen (Nat.not_le.2 hlong)
          · exact hnone
      · rfl

/-- What decryption with a key is to make of a text. -/
inductive Verdict (key : List UInt8) (x : String) : Except CipherError String → Prop
  | written {nonce : Nonce} {plain : String} (h : Encrypts (ofKey key) nonce plain x) :
      Verdict key x (.ok plain)
  | notBase64 (h : ∀ bytes, x ≠ Base64.text bytes) : Verdict key x (.error .undecodable)
  | noNonce {bytes : List UInt8} (h : x = Base64.text bytes) (hshort : bytes.length < 12) :
      Verdict key x (.error .tooShort)
  | notSealed {nonce : Nonce} {sealedText : List UInt8} (h : x = envelope nonce sealedText)
      (hnot : Unsealable (Aes.schedule key) nonce sealedText) :
      Verdict key x (.error .decryptionFailed)

/-- The verdict is what decryption answers. -/
theorem Verdict.answer {key : List UInt8} (hkey : key.length ∈ keySizes)
    {answer : Except CipherError String} (h : Verdict key x answer) :
    (ofKey key).decrypt x = answer := by
  rw [ofKey_of_size hkey]
  cases h with
  | written h =>
      rw [ofKey_of_size hkey] at h
      exact decrypt_encrypt h.draws
  | notBase64 h => exact decrypt_of_decode?_none (Base64.decode?_eq_none_iff.2 h)
  | noNonce h hshort => rw [h, decrypt_of_short hshort]
  | notSealed h hnot => rw [h, decrypt_envelope, unopened_iff.2 hnot, Option.elim_none]

/-- There is a verdict on every text. -/
theorem exists_verdict {key : List UInt8} (hkey : key.length ∈ keySizes) (x : String) :
    ∃ answer, Verdict key x answer := by
  rcases text_cases x with hnone | ⟨bytes, hx, hshort⟩ | ⟨nonce, sealedText, hx⟩
  · exact ⟨_, .notBase64 (Base64.decode?_eq_none_iff.1 hnone)⟩
  · exact ⟨_, .noNonce hx hshort⟩
  · cases hopened : (Gcm.openText (Aes.encryptBlock (Aes.schedule key)) nonce sealedText).bind
        ofUtf8? with
    | none => exact ⟨_, .notSealed hx (unopened_iff.1 hopened)⟩
    | some plain =>
        have hwritten : Encrypts (ofKey key) nonce plain x := by
          rw [ofKey_of_size hkey]
          exact encrypts_ready_iff.2 ⟨sealedText, opened_iff.1 hopened, hx⟩
        exact ⟨_, .written hwritten⟩

theorem decrypt_eq_iff {key : List UInt8} (hkey : key.length ∈ keySizes)
    {answer : Except CipherError String} :
    (ofKey key).decrypt x = answer ↔ Verdict key x answer := by
  constructor
  · rintro rfl
    obtain ⟨answer, h⟩ := exists_verdict hkey x
    rw [h.answer hkey]
    exact h
  · exact Verdict.answer hkey

/-- The last sixteen bytes of what is accepted are the tag of the rest. -/
theorem accepted_tag {key front last : List UInt8} (hkey : key.length ∈ keySizes)
    (hlast : last.length = 16)
    (h : (ofKey key).decrypt (Base64.text (front ++ last)) = .ok plain) :
    ∃ nonce encrypted, front = nonce.toBytes ++ encrypted ∧
      last = Gcm.tag (Aes.encryptBlock (Aes.schedule key)) nonce encrypted := by
  cases (decrypt_eq_iff hkey).1 h with
  | written h =>
      rw [ofKey_of_size hkey] at h
      obtain ⟨sealedText, hseal, htext⟩ := encrypts_ready_iff.1 h
      obtain ⟨encrypted, rfl, -⟩ := Gcm.sealText_ok hseal
      rw [envelope_eq_text, ← List.append_assoc] at htext
      obtain ⟨hfront, htag⟩ := List.append_inj' (Base64.text_injective htext)
        (hlast.trans (Gcm.length_tag encrypted).symm)
      exact ⟨_, encrypted, hfront, htag⟩

/-- Decryption has the verdict on every text: it accepts what encryption wrote and
refuses all else, for one of three reasons. Of what is accepted no byte of the tag can
be another. -/
theorem decrypts_only_encrypted {key : List UInt8} (hkey : key.length ∈ keySizes) :
    (∀ x answer, (ofKey key).decrypt x = answer ↔ Verdict key x answer) ∧
    ∀ (front last last' : List UInt8) (plain plain' : String),
      last.length = 16 → last'.length = 16 →
      (ofKey key).decrypt (Base64.text (front ++ last)) = .ok plain →
      (ofKey key).decrypt (Base64.text (front ++ last')) = .ok plain' → last' = last := by
  refine ⟨fun x answer => decrypt_eq_iff hkey, ?_⟩
  intro front last last' plain plain' hlast hlast' h h'
  -- The bytes in front are a nonce and the content, and these two determine the tag.
  obtain ⟨nonce, encrypted, hfront, htag⟩ := accepted_tag hkey hlast h
  obtain ⟨nonce', encrypted', hfront', htag'⟩ := accepted_tag hkey hlast' h'
  obtain ⟨hbytes, hencrypted⟩ := List.append_inj (hfront.symm.trans hfront')
    (nonce.length_toBytes.trans nonce'.length_toBytes.symm)
  have hnonce : nonce = nonce' := by
    rw [← nonce.ofBigEndian_toBytes, hbytes, nonce'.ofBigEndian_toBytes]
  rw [htag, htag', hnonce, hencrypted]

/-- The known answer is accepted, but not with another tag. Without its padding it is no
base64, and cut down to its first letters or to its nonce it has no nonce or no tag. -/
theorem verdicts_on_zeroStored :
    (ofKey zeroKey).decrypt zeroStored = .ok zeroText ∧
    (∀ (last : List UInt8) (plain : String), last.length = 16 →
      (ofKey zeroKey).decrypt (Base64.text (Nonce.toBytes 0 ++ zeroEncrypted ++ last))
        = .ok plain → last = zeroTag) ∧
    Verdict zeroKey "AAAAAAAAAAAAAAAAA4jazmC2o5LzKMK5cbL+eKtuR9Qs7BO99TpnshJXvd8"
      (.error .undecodable) ∧
    Verdict zeroKey "AAAAAAAA" (.error .tooShort) ∧
    Verdict zeroKey "AAAAAAAAAAAAAAAA" (.error .decryptionFailed) := by
  obtain ⟨hverdict, htag⟩ := @decrypts_only_encrypted zeroKey (by decide)
  have haccepted := (hverdict zeroStored (.ok zeroText)).2 (.written encrypts_zeroText)
  refine ⟨haccepted, fun last plain hlast h => ?_, (hverdict _ _).1 (by decide +kernel),
    (hverdict _ _).1 (by decide +kernel), (hverdict _ _).1 (by decide +kernel)⟩
  exact htag _ _ _ _ _ rfl hlast haccepted h

end ContentCipher

end ChatArchive
