import ChatArchive.Command.Run

/-!
# Which keys switch encryption on

A program starts with the cipher of the variable that the settings name. Three
steps stand between the bytes of the variable and the cipher, and each has its own
notion of a missing key: a value that is not a text is no key, an empty text is no
key, and no bytes are no key. For values that are texts the three agree, and only
an unset or empty variable switches encryption off. A value that is not a text is
taken for an unset variable, so a program with such a key starts without
encryption.
-/

namespace ChatArchive

/-- The bytes that a variable is set to. -/
def Variables.bytes? (environment : Variables) (name : String) : Option (List UInt8) :=
  if name.isEmpty || name.toList.contains '=' || name.toList.contains '\x00' then none
  else environment.lookup name

theorem Variables.text?_eq (environment : Variables) (name : String) :
    environment.text? name = (environment.bytes? name).bind Text.ofUtf8? := by
  rw [text?, bytes?]
  split
  · rfl
  · rfl

/-- An empty text has no bytes, so it does not matter that it counts as
missing. -/
theorem keyBytes_filter (text? : Option String) :
    keyBytes (text?.filter fun text => !text.isEmpty) = keyBytes text? := by
  cases text? with
  | none => rfl
  | some text =>
      cases hempty : text.isEmpty with
      | true =>
          rw [String.isEmpty_iff] at hempty
          rw [hempty]
          rfl
      | false => rw [Option.filter_some_pos (by rw [hempty]; rfl)]

/-- The bytes of the key are those of the variable, if they are a text. -/
theorem Settings.keyBytes_keyText? {s : Settings} {environment : Variables}
    {value : List UInt8} (h : environment.bytes? s.encryption.keyVariable = some value) :
    keyBytes (s.keyText? environment)
      = if Text.ofUtf8? value = none then [] else value := by
  rw [keyText?, keyBytes_filter, Variables.text?_eq, h, Option.bind_some]
  cases htext : Text.ofUtf8? value with
  | none => rfl
  | some text =>
      rw [if_neg (by simp)]
      exact Text.utf8_of_ofUtf8? htext

theorem Settings.keyBytes_keyText?_unset {s : Settings} {environment : Variables}
    (h : environment.bytes? s.encryption.keyVariable = none) :
    keyBytes (s.keyText? environment) = [] := by
  rw [keyText?, keyBytes_filter, Variables.text?_eq, h]
  rfl

namespace ContentCipher

theorem ofKey?_nil : ofKey? [] = .ok .disabled := rfl

/-- A key that is there gives a cipher made from it, or is refused for its
length. -/
theorem ofKey?_of_ne_nil {key : List UInt8} (h : key ≠ []) :
    ofKey? key = if keySizes.contains key.length then .ok (.ready (Cipher.Aes.schedule key))
      else .error (.invalidKeySize key.length) := by
  have hkey : ofKey key = if keySizes.contains key.length then
      .ready (Cipher.Aes.schedule key) else .misconfigured key.length := by
    rw [ofKey, if_neg (by rwa [List.isEmpty_iff])]
  rw [ofKey?, hkey]
  cases keySizes.contains key.length <;> rfl

end ContentCipher

namespace Command

/-- How a program fails to start with a key of the wrong length. -/
def keyFailure (settings : Settings) (size : Nat) : Output :=
  .failed ("invalid encryption key in $" ++ settings.encryption.keyVariable)
    (CipherError.invalidKeySize size).message

theorem Site.cipher_eq (site : Site) (settings : Settings) :
    site.cipher settings
      = (ContentCipher.ofKey? (keyBytes (settings.keyText? site.environment))).mapError
          fun e => .failed ("invalid encryption key in $" ++ settings.encryption.keyVariable)
            e.message := by
  rw [cipher]
  cases ContentCipher.ofKey? (keyBytes (settings.keyText? site.environment)) <;> rfl

theorem Site.cipher_of_no_key {site : Site} {settings : Settings}
    (h : ∀ value ∈ site.environment.bytes? settings.encryption.keyVariable,
      value = [] ∨ Text.ofUtf8? value = none) :
    site.cipher settings = .ok .disabled := by
  have hkey : keyBytes (settings.keyText? site.environment) = [] := by
    cases hset : site.environment.bytes? settings.encryption.keyVariable with
    | none => exact Settings.keyBytes_keyText?_unset hset
    | some value =>
        rw [Settings.keyBytes_keyText? hset]
        rcases h value hset with hvalue | hvalue
        · rw [hvalue, ite_self]
        · exact if_pos hvalue
  rw [cipher_eq, hkey, ContentCipher.ofKey?_nil]
  rfl

theorem Site.cipher_of_text {site : Site} {settings : Settings} {value : List UInt8}
    (hset : site.environment.bytes? settings.encryption.keyVariable = some value)
    (hne : value ≠ []) (htext : Text.ofUtf8? value ≠ none) :
    site.cipher settings =
      if value.length = 16 ∨ value.length = 24 ∨ value.length = 32 then
        .ok (.ready (Cipher.Aes.schedule value))
      else .error (keyFailure settings value.length) := by
  rw [cipher_eq, Settings.keyBytes_keyText? hset, if_neg htext,
    ContentCipher.ofKey?_of_ne_nil hne]
  have hsizes : ContentCipher.keySizes.contains value.length = true
      ↔ value.length = 16 ∨ value.length = 24 ∨ value.length = 32 := by
    simp [ContentCipher.keySizes]
  by_cases hsize : value.length = 16 ∨ value.length = 24 ∨ value.length = 32
  · rw [if_pos hsize, if_pos (hsizes.2 hsize)]
    rfl
  · rw [if_neg hsize, if_neg (mt hsizes.1 hsize)]
    rfl

/-- A program starts without encryption exactly if the variable of the key is unset,
empty or not a text. With any other value it starts with the cipher of exactly
these bytes, or fails because of their number. -/
theorem Site.cipher_of_variable (site : Site) (settings : Settings) :
    (site.cipher settings = .ok .disabled ↔
      ∀ value ∈ site.environment.bytes? settings.encryption.keyVariable,
        value = [] ∨ Text.ofUtf8? value = none) ∧
    ∀ value ∈ site.environment.bytes? settings.encryption.keyVariable,
      value ≠ [] → Text.ofUtf8? value ≠ none →
      site.cipher settings =
        if value.length = 16 ∨ value.length = 24 ∨ value.length = 32 then
          .ok (.ready (Cipher.Aes.schedule value))
        else .error (keyFailure settings value.length) := by
  refine ⟨⟨fun hdisabled value hset => ?_, cipher_of_no_key⟩,
    fun value hset => cipher_of_text hset⟩
  by_cases hne : value = []
  · exact Or.inl hne
  · refine Or.inr (Decidable.not_not.1 fun htext => ?_)
    rw [cipher_of_text hset hne htext] at hdisabled
    split at hdisabled
    · cases hdisabled
    · cases hdisabled

/-- A site whose key variable has this value. -/
def Site.withKey (value : List UInt8) : Site :=
  ⟨"/data", [(EncryptionSettings.standard.keyVariable, value)], none, []⟩

/-- Sixteen letters are a key. -/
theorem cipher_of_letters :
    (Site.withKey (List.replicate 16 107)).cipher .standard
      = .ok (.ready (Cipher.Aes.schedule (List.replicate 16 107))) :=
  ((Site.withKey (List.replicate 16 107)).cipher_of_variable .standard).2
    (List.replicate 16 107) rfl (by decide) (by decide +kernel)

/-- A key of sixteen bytes that are no text does not switch encryption on, so not
every value of the variable does or is refused. -/
theorem cipher_of_foreign_bytes :
    ¬ ∀ (site : Site) (settings : Settings) (value : List UInt8),
      site.environment.bytes? settings.encryption.keyVariable = some value → value ≠ [] →
      site.cipher settings =
        if value.length = 16 ∨ value.length = 24 ∨ value.length = 32 then
          .ok (.ready (Cipher.Aes.schedule value))
        else .error (keyFailure settings value.length) := by
  intro h
  have hclaim := h (Site.withKey (List.replicate 16 255)) .standard
    (List.replicate 16 255) rfl (by decide)
  have hdisabled : (Site.withKey (List.replicate 16 255)).cipher .standard
      = .ok .disabled := rfl
  rw [hdisabled, if_pos (by decide)] at hclaim
  cases hclaim

end Command

end ChatArchive
