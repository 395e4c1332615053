/-!
# Failures

Why a cipher or the store refuses to do something, and how it says so.
-/

namespace ChatArchive

/-- Why a text could not be encrypted or decrypted. Wrong keys, altered texts and foreign texts are
not told apart. -/
inductive CipherError
  | invalidKeySize (size : Nat)
  | undecodable
  | tooShort
  | decryptionFailed
  | encryptionFailed
deriving DecidableEq, Repr

/-- The wording of a cipher error. -/
def CipherError.message : CipherError → String
  | .invalidKeySize size =>
    "invalid cipher key size: " ++ toString size ++ " bytes (must be 16, 24, or 32)"
  | .undecodable => "failed to decode ciphertext"
  | .tooShort => "ciphertext too short"
  | .decryptionFailed => "failed to decrypt"
  | .encryptionFailed => "failed to encrypt"

/-- Why an operation's time was over. -/
inductive CancelReason
  | cancelled
  | deadlineExceeded
deriving DecidableEq, Repr

/-- The wording of a reason. -/
def CancelReason.message : CancelReason → String
  | .cancelled => "context cancelled"
  | .deadlineExceeded => "context deadline exceeded"

/-- Why an operation of the store failed. -/
inductive StoreError
  | invalidSession (reason : String)
  | invalidSessionId
  | invalidUserId
  | notFound
  | duplicateSession (id : String)
  | invalidTimeRange
  | cipher (error : CipherError)
  | retryExhausted (attempts : Nat) (message : String)
  | cancelled (operation : String) (reason : CancelReason)
  | store (message : String)
deriving DecidableEq, Repr

/-- The wording of a store error. -/
def StoreError.message : StoreError → String
  | .invalidSession reason => "invalid session: " ++ reason
  | .invalidSessionId => "session ID cannot be empty"
  | .invalidUserId => "user ID cannot be empty"
  | .notFound => "session not found in database"
  | .duplicateSession id => "session '" ++ id ++ "' already exists"
  | .invalidTimeRange => "end time must be after start time"
  | .cipher error => "encryption error: " ++ error.message
  | .retryExhausted attempts message =>
    "operation failed after " ++ toString attempts ++ " attempts: " ++ message
  | .cancelled operation reason =>
    operation ++ " cancelled during retry: " ++ reason.message
  | .store message => "store error: " ++ message

end ChatArchive
