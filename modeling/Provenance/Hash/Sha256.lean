/-!
# SHA-256

The hash function of FIPS 180-4 over a list of bytes: the padded message is cut
into blocks of sixteen words, and each block is mixed into eight chaining
words.  Everything is structurally recursive on the bytes, so a digest can be
computed by the kernel as well as at run time.

The digest always has thirty-two bytes, whatever the message
(`length_digest`).
-/

namespace Provenance.Hash.Sha256

/-- The eight chaining words, and the working variables of one compression. -/
structure State where
  a : UInt32
  b : UInt32
  c : UInt32
  d : UInt32
  e : UInt32
  f : UInt32
  g : UInt32
  h : UInt32
  deriving DecidableEq, Repr

/-- The chaining words before the first block: the fractional parts of the
square roots of the first eight primes. -/
def State.initial : State :=
  ⟨0x6a09e667, 0xbb67ae85, 0x3c6ef372, 0xa54ff53a,
    0x510e527f, 0x9b05688c, 0x1f83d9ab, 0x5be0cd19⟩

/-- Wordwise sum of two states modulo `2^32`. -/
def State.add (left right : State) : State :=
  ⟨left.a + right.a, left.b + right.b, left.c + right.c, left.d + right.d,
    left.e + right.e, left.f + right.f, left.g + right.g, left.h + right.h⟩

/-- The words of a state in order. -/
def State.words (state : State) : List UInt32 :=
  [state.a, state.b, state.c, state.d, state.e, state.f, state.g, state.h]

/-- The constants of the sixty-four rounds: the fractional parts of the cube
roots of the first sixty-four primes. -/
def roundConstants : List UInt32 :=
  [0x428a2f98, 0x71374491, 0xb5c0fbcf, 0xe9b5dba5, 0x3956c25b, 0x59f111f1, 0x923f82a4, 0xab1c5ed5,
   0xd807aa98, 0x12835b01, 0x243185be, 0x550c7dc3, 0x72be5d74, 0x80deb1fe, 0x9bdc06a7, 0xc19bf174,
   0xe49b69c1, 0xefbe4786, 0x0fc19dc6, 0x240ca1cc, 0x2de92c6f, 0x4a7484aa, 0x5cb0a9dc, 0x76f988da,
   0x983e5152, 0xa831c66d, 0xb00327c8, 0xbf597fc7, 0xc6e00bf3, 0xd5a79147, 0x06ca6351, 0x14292967,
   0x27b70a85, 0x2e1b2138, 0x4d2c6dfc, 0x53380d13, 0x650a7354, 0x766a0abb, 0x81c2c92e, 0x92722c85,
   0xa2bfe8a1, 0xa81a664b, 0xc24b8b70, 0xc76c51a3, 0xd192e819, 0xd6990624, 0xf40e3585, 0x106aa070,
   0x19a4c116, 0x1e376c08, 0x2748774c, 0x34b0bcb5, 0x391c0cb3, 0x4ed8aa4a, 0x5b9cca4f, 0x682e6ff3,
   0x748f82ee, 0x78a5636f, 0x84c87814, 0x8cc70208, 0x90befffa, 0xa4506ceb, 0xbef9a3f7, 0xc67178f2]

/-! ## Words -/

/-- Rotate a word right by `count` places, `0 < count < 32`. -/
def rotateRight (word count : UInt32) : UInt32 :=
  (word >>> count) ||| (word <<< (32 - count))

/-- The first diffusion function of the schedule. -/
def smallSigmaZero (word : UInt32) : UInt32 :=
  rotateRight word 7 ^^^ rotateRight word 18 ^^^ (word >>> 3)

/-- The second diffusion function of the schedule. -/
def smallSigmaOne (word : UInt32) : UInt32 :=
  rotateRight word 17 ^^^ rotateRight word 19 ^^^ (word >>> 10)

/-- The diffusion function applied to the first working variable. -/
def bigSigmaZero (word : UInt32) : UInt32 :=
  rotateRight word 2 ^^^ rotateRight word 13 ^^^ rotateRight word 22

/-- The diffusion function applied to the fifth working variable. -/
def bigSigmaOne (word : UInt32) : UInt32 :=
  rotateRight word 6 ^^^ rotateRight word 11 ^^^ rotateRight word 25

/-- Each bit of `x` chooses the bit of `y` or of `z`. -/
def choose (x y z : UInt32) : UInt32 :=
  (x &&& y) ^^^ ((~~~ x) &&& z)

/-- The bit that at least two of the three words have. -/
def majority (x y z : UInt32) : UInt32 :=
  (x &&& y) ^^^ (x &&& z) ^^^ (y &&& z)

/-- Four bytes as one word, the most significant byte first. -/
def wordOfBytes (b₃ b₂ b₁ b₀ : UInt8) : UInt32 :=
  (b₃.toUInt32 <<< 24) ||| (b₂.toUInt32 <<< 16) ||| (b₁.toUInt32 <<< 8) ||| b₀.toUInt32

/-- The four bytes of a word, the most significant byte first. -/
def bytesOfWord (word : UInt32) : List UInt8 :=
  [(word >>> 24).toUInt8, (word >>> 16).toUInt8, (word >>> 8).toUInt8, word.toUInt8]

/-! ## One block -/

/-- The word that follows the sixteen words of `recent`, newest first. -/
def nextWord (recent : List UInt32) : UInt32 :=
  smallSigmaOne (recent.getD 1 0) + recent.getD 6 0 +
    smallSigmaZero (recent.getD 14 0) + recent.getD 15 0

/-- Extend a schedule, newest word first, by `count` words. -/
def extend : Nat → List UInt32 → List UInt32
  | 0, recent => recent
  | count + 1, recent => extend count (nextWord recent :: recent)

/-- The sixty-four words of the schedule of one block of sixteen. -/
def schedule (block : List UInt32) : List UInt32 :=
  (extend 48 block.reverse).reverse

/-- One round over the working variables. -/
def round (state : State) (constant word : UInt32) : State :=
  let first := state.h + bigSigmaOne state.e + choose state.e state.f state.g + constant + word
  let second := bigSigmaZero state.a + majority state.a state.b state.c
  ⟨first + second, state.a, state.b, state.c, state.d + first, state.e, state.f, state.g⟩

/-- Run one round for each constant and word. -/
def rounds : State → List UInt32 → List UInt32 → State
  | state, constant :: constants, word :: words => rounds (round state constant word) constants words
  | state, _, _ => state

/-- Mix one block into the chaining words. -/
def compress (state : State) (block : List UInt32) : State :=
  state.add (rounds state roundConstants (schedule block))

/-! ## The whole message -/

/-- The low eight bytes of a number, the most significant byte first. -/
def bytesOfLength (bits : Nat) : List UInt8 :=
  [56, 48, 40, 32, 24, 16, 8, 0].map fun shift => UInt8.ofNat (bits >>> shift)

/-- What is appended to a message of `length` bytes: a one bit, zeros up to
eight bytes short of a block, and the length in bits. -/
def padding (length : Nat) : List UInt8 :=
  0x80 :: List.replicate ((119 - length % 64) % 64) 0 ++ bytesOfLength (8 * length)

/-- Mix in the words of a padded message; `block` holds the words of the
current block that have been read, newest first, and `left` is how many are
still to come. -/
def absorb : State → List UInt32 → Nat → List UInt8 → State
  | state, block, left, b₃ :: b₂ :: b₁ :: b₀ :: rest =>
      let word := wordOfBytes b₃ b₂ b₁ b₀
      match left with
      | left + 2 => absorb state (word :: block) (left + 1) rest
      | _ => absorb (compress state (word :: block).reverse) [] 16 rest
  | state, _, _, _ => state

/-- The digest of a message: thirty-two bytes. -/
def digest (message : List UInt8) : List UInt8 :=
  (absorb .initial [] 16 (message ++ padding message.length)).words.flatMap bytesOfWord

@[simp]
theorem length_bytesOfWord (word : UInt32) : (bytesOfWord word).length = 4 :=
  rfl

/-- A digest has thirty-two bytes, whatever the message. -/
@[simp]
theorem length_digest (message : List UInt8) : (digest message).length = 32 :=
  rfl

/-- Padding completes the last block. -/
theorem length_padding (length : Nat) : (length + (padding length).length) % 64 = 0 := by
  simp only [padding, bytesOfLength, List.cons_append, List.length_cons, List.length_append,
    List.length_replicate, List.length_map, List.length_nil]
  omega

end Provenance.Hash.Sha256
