import ChatArchive.Cipher.Aes

/-!
# Galois/Counter Mode

Authenticated encryption over a block cipher, with a nonce of 96 bits, a tag of 128 bits and no
additional data. The text is added to a stream made of encrypted counters, so encryption undoes
itself; the tag is a polynomial hash of the encrypted text, hidden by one more block of the stream.
-/

namespace ChatArchive.Cipher

/-- The number `n` in `width` bytes, most significant first. -/
def bigEndian : (width : Nat) → (n : Nat) → List UInt8
  | 0, _ => []
  | w + 1, n => bigEndian w (n / 256) ++ [UInt8.ofNat n]

theorem length_bigEndian (w n : Nat) : (bigEndian w n).length = w := by
  induction w generalizing n with
  | zero => rfl
  | succ w ih => simp [bigEndian, ih]

/-- The number written by bytes, most significant first. -/
def ofBigEndian (bytes : List UInt8) : Nat := bytes.foldl (fun n b => n * 256 + b.toNat) 0

/-- A nonce: a number of 96 bits, used for one encryption only. -/
abbrev Nonce := BitVec 96

/-- The twelve bytes of a nonce. -/
def Nonce.toBytes (n : Nonce) : List UInt8 := bigEndian 12 n.toNat

namespace Gcm

/-- Length of a nonce in bytes. -/
def nonceSize : Nat := 12

/-- Length of a tag in bytes. -/
def tagSize : Nat := 16

/-- The longest text in bytes. -/
def maxLength : Nat := Nat.pow 2 36

/-- Sixteen bytes to the block, the last one filled up with zeros; `fuel` bounds their number. -/
def blocksFrom : (fuel : Nat) → List UInt8 → List Block
  | 0, _ => []
  | fuel + 1, bytes =>
    if bytes.isEmpty then [] else Block.ofBytes (bytes.take 16) :: blocksFrom fuel (bytes.drop 16)

/-- The blocks of a text. -/
def blocks (bytes : List UInt8) : List Block := blocksFrom bytes.length bytes

/-- A block as a polynomial: the first bit is the constant coefficient. -/
def polynomial (x : Block) : BitVec 128 := BitVec.ofNat 128 (ofBigEndian x.toBytes)

/-- One step of a multiplication: the sum so far and the other factor times a power of the variable.
-/
def multiplyStep (x : BitVec 128) (s : BitVec 128 × BitVec 128) (i : Nat) :
    BitVec 128 × BitVec 128 :=
  let (z, v) := s
  let z := if x.getMsbD i then z ^^^ v else z
  let v := if v.getLsbD 0 then (v >>> 1) ^^^ (0xE1#128 <<< 120) else v >>> 1
  (z, v)

/-- The product in the field of 2^128 elements. -/
def multiply (x y : BitVec 128) : BitVec 128 :=
  ((List.range 128).foldl (multiplyStep x) (0, y)).1

/-- The polynomial hash of a list of blocks. -/
def hash (key : BitVec 128) (bs : List Block) : BitVec 128 :=
  bs.foldl (fun y b => multiply (y ^^^ polynomial b) key) 0

/-- The counter block of a nonce. -/
def counterBlock (nonce : Nonce) (counter : Nat) : Block :=
  Block.ofBytes (nonce.toBytes ++ bigEndian 4 counter)

/-- The first `count` blocks of the stream that texts are added to; it starts at counter 2. -/
def keyStream (cipher : Block → Block) (nonce : Nonce) (count : Nat) : List UInt8 :=
  (List.range count).flatMap fun i => (cipher (counterBlock nonce (i + 2))).toBytes

/-- A text added to the stream. -/
def applyStream (cipher : Block → Block) (nonce : Nonce) (bytes : List UInt8) : List UInt8 :=
  List.zipWith (· ^^^ ·) bytes (keyStream cipher nonce ((bytes.length + 15) / 16))

/-- The tag of an encrypted text. -/
def tag (cipher : Block → Block) (nonce : Nonce) (encrypted : List UInt8) : List UInt8 :=
  let key := polynomial (cipher (Block.ofBytes []))
  let lengths := Block.ofBytes (bigEndian 8 0 ++ bigEndian 8 (8 * encrypted.length))
  let digest := hash key (blocks encrypted ++ [lengths])
  List.zipWith (· ^^^ ·) (bigEndian 16 digest.toNat) (cipher (counterBlock nonce 1)).toBytes

/-- Encrypts a text and appends its tag; none for a text that is too long. -/
def sealText (cipher : Block → Block) (nonce : Nonce) (plain : List UInt8) : Option (List UInt8) :=
  if plain.length ≤ maxLength then
    let encrypted := applyStream cipher nonce plain
    some (encrypted ++ tag cipher nonce encrypted)
  else none

/-- Decrypts a text that ends in its tag; none if the tag is missing or does not fit. -/
def openText (cipher : Block → Block) (nonce : Nonce) (sealedText : List UInt8) :
    Option (List UInt8) :=
  let size := sealedText.length - tagSize
  let encrypted := sealedText.take size
  if tagSize ≤ sealedText.length ∧ size ≤ maxLength ∧
      sealedText.drop size = tag cipher nonce encrypted then
    some (applyStream cipher nonce encrypted)
  else none

end Gcm

end ChatArchive.Cipher
