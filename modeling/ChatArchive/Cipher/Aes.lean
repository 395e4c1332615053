/-!
# The AES block cipher

A block is four columns of four bytes. The key is expanded to one block for each round and one more;
encryption substitutes bytes, rotates rows, mixes columns and adds the round's block. The number of
rounds follows from the length of the key: ten, twelve or fourteen for four, six or eight columns.
-/

namespace ChatArchive.Cipher

/-- A column of a block. -/
structure Word where
  b0 : UInt8
  b1 : UInt8
  b2 : UInt8
  b3 : UInt8
deriving DecidableEq, Repr

/-- A block of sixteen bytes. -/
structure Block where
  w0 : Word
  w1 : Word
  w2 : Word
  w3 : Word
deriving DecidableEq, Repr

namespace Word

/-- Adds two columns byte by byte. -/
def add (x y : Word) : Word := ⟨x.b0 ^^^ y.b0, x.b1 ^^^ y.b1, x.b2 ^^^ y.b2, x.b3 ^^^ y.b3⟩

/-- Applies a function to every byte. -/
def map (f : UInt8 → UInt8) (x : Word) : Word := ⟨f x.b0, f x.b1, f x.b2, f x.b3⟩

/-- Moves every byte up by one place, the first one to the end. -/
def rotate (x : Word) : Word := ⟨x.b1, x.b2, x.b3, x.b0⟩

/-- The bytes of a column. -/
def toBytes (x : Word) : List UInt8 := [x.b0, x.b1, x.b2, x.b3]

/-- The column of the first four bytes of a list; missing bytes are zero. -/
def ofBytes (bytes : List UInt8) : Word :=
  ⟨bytes.getD 0 0, bytes.getD 1 0, bytes.getD 2 0, bytes.getD 3 0⟩

end Word

namespace Block

/-- The block of the first sixteen bytes of a list; missing bytes are zero. -/
def ofBytes (bytes : List UInt8) : Block :=
  ⟨.ofBytes bytes, .ofBytes (bytes.drop 4), .ofBytes (bytes.drop 8), .ofBytes (bytes.drop 12)⟩

/-- The bytes of a block. -/
def toBytes (x : Block) : List UInt8 :=
  x.w0.toBytes ++ x.w1.toBytes ++ x.w2.toBytes ++ x.w3.toBytes

/-- Adds two blocks byte by byte. -/
def add (x y : Block) : Block := ⟨x.w0.add y.w0, x.w1.add y.w1, x.w2.add y.w2, x.w3.add y.w3⟩

/-- Applies a function to every column. -/
def map (f : Word → Word) (x : Block) : Block := ⟨f x.w0, f x.w1, f x.w2, f x.w3⟩

/-- Rotates row `i` by `i` columns. -/
def shiftRows (x : Block) : Block :=
  ⟨⟨x.w0.b0, x.w1.b1, x.w2.b2, x.w3.b3⟩, ⟨x.w1.b0, x.w2.b1, x.w3.b2, x.w0.b3⟩,
    ⟨x.w2.b0, x.w3.b1, x.w0.b2, x.w1.b3⟩, ⟨x.w3.b0, x.w0.b1, x.w1.b2, x.w2.b3⟩⟩

end Block

namespace Aes

/-- The substitution table: the multiplicative inverse, followed by an affine map. -/
def substitutions : Array UInt8 :=
  #[
    0x63, 0x7c, 0x77, 0x7b, 0xf2, 0x6b, 0x6f, 0xc5, 0x30, 0x01, 0x67, 0x2b, 0xfe, 0xd7, 0xab, 0x76,
    0xca, 0x82, 0xc9, 0x7d, 0xfa, 0x59, 0x47, 0xf0, 0xad, 0xd4, 0xa2, 0xaf, 0x9c, 0xa4, 0x72, 0xc0,
    0xb7, 0xfd, 0x93, 0x26, 0x36, 0x3f, 0xf7, 0xcc, 0x34, 0xa5, 0xe5, 0xf1, 0x71, 0xd8, 0x31, 0x15,
    0x04, 0xc7, 0x23, 0xc3, 0x18, 0x96, 0x05, 0x9a, 0x07, 0x12, 0x80, 0xe2, 0xeb, 0x27, 0xb2, 0x75,
    0x09, 0x83, 0x2c, 0x1a, 0x1b, 0x6e, 0x5a, 0xa0, 0x52, 0x3b, 0xd6, 0xb3, 0x29, 0xe3, 0x2f, 0x84,
    0x53, 0xd1, 0x00, 0xed, 0x20, 0xfc, 0xb1, 0x5b, 0x6a, 0xcb, 0xbe, 0x39, 0x4a, 0x4c, 0x58, 0xcf,
    0xd0, 0xef, 0xaa, 0xfb, 0x43, 0x4d, 0x33, 0x85, 0x45, 0xf9, 0x02, 0x7f, 0x50, 0x3c, 0x9f, 0xa8,
    0x51, 0xa3, 0x40, 0x8f, 0x92, 0x9d, 0x38, 0xf5, 0xbc, 0xb6, 0xda, 0x21, 0x10, 0xff, 0xf3, 0xd2,
    0xcd, 0x0c, 0x13, 0xec, 0x5f, 0x97, 0x44, 0x17, 0xc4, 0xa7, 0x7e, 0x3d, 0x64, 0x5d, 0x19, 0x73,
    0x60, 0x81, 0x4f, 0xdc, 0x22, 0x2a, 0x90, 0x88, 0x46, 0xee, 0xb8, 0x14, 0xde, 0x5e, 0x0b, 0xdb,
    0xe0, 0x32, 0x3a, 0x0a, 0x49, 0x06, 0x24, 0x5c, 0xc2, 0xd3, 0xac, 0x62, 0x91, 0x95, 0xe4, 0x79,
    0xe7, 0xc8, 0x37, 0x6d, 0x8d, 0xd5, 0x4e, 0xa9, 0x6c, 0x56, 0xf4, 0xea, 0x65, 0x7a, 0xae, 0x08,
    0xba, 0x78, 0x25, 0x2e, 0x1c, 0xa6, 0xb4, 0xc6, 0xe8, 0xdd, 0x74, 0x1f, 0x4b, 0xbd, 0x8b, 0x8a,
    0x70, 0x3e, 0xb5, 0x66, 0x48, 0x03, 0xf6, 0x0e, 0x61, 0x35, 0x57, 0xb9, 0x86, 0xc1, 0x1d, 0x9e,
    0xe1, 0xf8, 0x98, 0x11, 0x69, 0xd9, 0x8e, 0x94, 0x9b, 0x1e, 0x87, 0xe9, 0xce, 0x55, 0x28, 0xdf,
    0x8c, 0xa1, 0x89, 0x0d, 0xbf, 0xe6, 0x42, 0x68, 0x41, 0x99, 0x2d, 0x0f, 0xb0, 0x54, 0xbb, 0x16]

/-- The byte that replaces a byte. -/
def substitute (b : UInt8) : UInt8 := substitutions.getD b.toNat 0

/-- Doubles a byte in the field of the cipher. -/
def double (b : UInt8) : UInt8 := (b <<< 1) ^^^ (if 128 ≤ b then 0x1b else 0)

/-- Multiplies a column by the mixing matrix. -/
def mixColumn (x : Word) : Word :=
  let ⟨a, b, c, d⟩ := x
  ⟨double a ^^^ (double b ^^^ b) ^^^ c ^^^ d, a ^^^ double b ^^^ (double c ^^^ c) ^^^ d,
    a ^^^ b ^^^ double c ^^^ (double d ^^^ d), (double a ^^^ a) ^^^ b ^^^ c ^^^ double d⟩

/-- The constant of the `n`-th step of the key expansion. -/
def roundConstant : (n : Nat) → UInt8
  | 0 => 1
  | n + 1 => double (roundConstant n)

/-- The change that a column undergoes before it makes column `i` of the expanded key. -/
def expansionStep (size i : Nat) (x : Word) : Word :=
  if i % size = 0 then
    (x.rotate.map substitute).add ⟨roundConstant (i / size - 1), 0, 0, 0⟩
  else if 6 < size ∧ i % size = 4 then x.map substitute
  else x

/-- The next `count` columns of an expanded key, from column `i` on. `window` holds the columns
before that, as many as the key has. -/
def expandFrom (size : Nat) : (count i : Nat) → (window : List Word) → List Word
  | 0, _, _ => []
  | count + 1, i, window =>
    match window, window.getLast? with
    | oldest :: rest, some newest =>
      let w := oldest.add (expansionStep size i newest)
      w :: expandFrom size count (i + 1) (rest ++ [w])
    | _, _ => []

/-- Four columns to the block. -/
def blocksOfWords : List Word → List Block
  | a :: b :: c :: d :: rest => ⟨a, b, c, d⟩ :: blocksOfWords rest
  | _ => []

/-- Four bytes to the column. -/
def wordsOfBytes : List UInt8 → List Word
  | a :: b :: c :: d :: rest => ⟨a, b, c, d⟩ :: wordsOfBytes rest
  | _ => []

/-- The blocks added before, between and after the rounds. -/
def schedule (key : List UInt8) : List Block :=
  let words := wordsOfBytes key
  let size := words.length
  blocksOfWords (words ++ expandFrom size (4 * (size + 7) - size) size words)

/-- The rounds: all but the last mix columns. -/
def rounds : List Block → Block → Block
  | [], x => x
  | [k], x => (x.map (·.map substitute)).shiftRows.add k
  | k :: ks, x => rounds ks (((x.map (·.map substitute)).shiftRows.map mixColumn).add k)

/-- Encrypts a block with an expanded key. -/
def encryptBlock : List Block → Block → Block
  | [], x => x
  | k :: ks, x => rounds ks (x.add k)

end Aes

end ChatArchive.Cipher
