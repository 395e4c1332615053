import ChatArchive.Cipher.Gcm
import ChatArchive.Store.Error
import ChatArchive.Text.Base64
import ChatArchive.Text.Utf8

/-!
# Encrypting message content

Message content is stored as the base64 text of a nonce, the encrypted content and its tag. Without
a key content is stored as it is. A key of the wrong length is kept as a fault that shows with the
first text: content is never stored in the clear because of it.

Nonces are drawn from a source, one for each text. Nothing is asked of the source here, so one that
counts will do as well as one that nobody can foresee.
-/

namespace ChatArchive

namespace Cipher

/-- A source of nonces: those that are still to be drawn, in order. -/
structure Nonces where
  nth : Nat → Nonce

namespace Nonces

/-- The nonce that is drawn next. -/
def first (nonces : Nonces) : Nonce := nonces.nth 0

/-- The nonces that are left when some have been drawn. -/
def forward (nonces : Nonces) (count : Nat) : Nonces := ⟨fun i => nonces.nth (count + i)⟩

/-- The source that counts; after the last nonce comes zero. -/
def counting (start : Nonce) : Nonces := ⟨fun i => start + BitVec.ofNat 96 i⟩

end Nonces

end Cipher

open Cipher Text

/-- How message content is encrypted. -/
inductive ContentCipher
  | disabled
  | ready (schedule : List Block)
  | misconfigured (size : Nat)
deriving DecidableEq

namespace ContentCipher

/-- The lengths of a key in bytes. -/
def keySizes : List Nat := [16, 24, 32]

/-- The cipher of a key; an empty key switches encryption off. -/
def ofKey (key : List UInt8) : ContentCipher :=
  if key.isEmpty then .disabled
  else if keySizes.contains key.length then .ready (Aes.schedule key)
  else .misconfigured key.length

/-- The cipher of a key, refusing a key of the wrong length at once. -/
def ofKey? (key : List UInt8) : Except CipherError ContentCipher :=
  match ofKey key with
  | .misconfigured size => .error (.invalidKeySize size)
  | cipher => .ok cipher

/-- Whether content is encrypted. -/
def isEnabled : ContentCipher → Bool
  | .ready _ => true
  | _ => false

/-- The name of the state a cipher is in. -/
def stateName : ContentCipher → String
  | .disabled => "disabled"
  | .ready _ => "ready"
  | .misconfigured _ => "misconfigured"

/-- A step that may draw nonces. A nonce drawn stays drawn when the step fails. -/
abbrev Drawing := ExceptT CipherError (StateM Nonces)

/-- Draws a nonce. -/
def draw : Drawing Nonce := do
  let nonces ← getThe Nonces
  set (nonces.forward 1)
  pure nonces.first

/-- The stored text of sealed content. -/
def envelope (nonce : Nonce) (sealedText : List UInt8) : String :=
  String.ofList (Base64.encode (nonce.toBytes ++ sealedText))

/-- Encrypts a text, drawing one nonce if there is a key to encrypt with. -/
def encrypt (cipher : ContentCipher) (plain : String) : Drawing String :=
  match cipher with
  | .disabled => pure plain
  | .misconfigured size => throw (.invalidKeySize size)
  | .ready schedule => do
    let nonce ← draw
    match Gcm.sealText (Aes.encryptBlock schedule) nonce (utf8 plain) with
    | some sealedText => pure (envelope nonce sealedText)
    | none => throw .encryptionFailed

/-- Decrypts a stored text. -/
def decrypt (cipher : ContentCipher) (stored : String) : Except CipherError String :=
  match cipher with
  | .disabled => .ok stored
  | .misconfigured size => .error (.invalidKeySize size)
  | .ready schedule =>
    match Base64.decode? stored.toList with
    | none => .error .undecodable
    | some bytes =>
      if bytes.length < Gcm.nonceSize then .error .tooShort
      else
        let nonce := BitVec.ofNat 96 (ofBigEndian (bytes.take Gcm.nonceSize))
        let plain? := Gcm.openText (Aes.encryptBlock schedule) nonce (bytes.drop Gcm.nonceSize)
        match plain?.bind ofUtf8? with
        | some plain => .ok plain
        | none => .error .decryptionFailed

end ContentCipher

end ChatArchive
