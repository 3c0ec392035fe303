import Famicom.Memory.Block

/-!
# SHA-1

The message is padded to blocks of 64 bytes, and every block is mixed into five 32-bit words in 80
rounds.

## Main definitions

* `Sha1.pad` — the padded message
* `Sha1.schedule` — the 80 words of a block
* `Sha1.mixBlock` — the five words after a block
* `Sha1.digest` — the digest of a message
-/

namespace Famicom.Digest.Sha1

/-- The five chaining words. -/
structure State where
  a : UInt32 := 0x67452301
  b : UInt32 := 0xEFCDAB89
  c : UInt32 := 0x98BADCFE
  d : UInt32 := 0x10325476
  e : UInt32 := 0xC3D2E1F0
  deriving DecidableEq, Repr

/-- The number in 8 bytes, highest first. -/
def beBytes64 (n : UInt64) : ByteArray :=
  (List.range 8).foldl
    (fun bytes i => bytes.push (n >>> (56 - 8 * i).toUInt64).toUInt8) ByteArray.empty

/-- How many zeros stand between the mark after the message and its length. -/
def zeroCount (size : Nat) : Nat :=
  (119 - size % 64) % 64

/-- The message, a bit 1, zeros, and its length in bits, together a multiple of 64 bytes. -/
def pad (message : ByteArray) : ByteArray :=
  (message.push 0x80) ++ zeroBytes (zeroCount message.size)
    ++ beBytes64 (8 * message.size.toUInt64)

/-- The word in 4 bytes, highest first. -/
@[inline] def wordAt (bytes : ByteArray) (i : Nat) : UInt32 :=
  ((byteAt bytes i).toUInt32 <<< 24) ||| ((byteAt bytes (i + 1)).toUInt32 <<< 16) |||
    ((byteAt bytes (i + 2)).toUInt32 <<< 8) ||| (byteAt bytes (i + 3)).toUInt32

/-- Turns a word left. -/
@[inline] def rotateLeft (x k : UInt32) : UInt32 :=
  (x <<< k) ||| (x >>> (32 - k))

/-- The word of the schedule at an index, zero outside. -/
@[inline] def scheduled (words : Array UInt32) (i : Nat) : UInt32 :=
  words.getD i 0

/-- Adds derived words to a schedule. -/
def extend : Nat → Array UInt32 → Array UInt32
  | 0, words => words
  | n + 1, words =>
    let i := words.size
    let mixed := scheduled words (i - 3) ^^^ scheduled words (i - 8) ^^^
      scheduled words (i - 14) ^^^ scheduled words (i - 16)
    extend n (words.push (rotateLeft mixed 1))

/-- The 80 words of the block at an offset: its own sixteen, then the derived ones. -/
def schedule (bytes : ByteArray) (offset : Nat) : Array UInt32 :=
  extend 64 ((Array.range 16).map fun i => wordAt bytes (offset + 4 * i))

/-- One round with a mixing function's value and constant. -/
@[inline] def round (s : State) (f k w : UInt32) : State :=
  ⟨rotateLeft s.a 5 + f + s.e + k + w, s.a, rotateLeft s.b 30, s.c, s.d⟩

/-- The round with a number. -/
@[inline] def step (s : State) (i : Nat) (w : UInt32) : State :=
  if i < 20 then round s ((s.b &&& s.c) ||| (~~~s.b &&& s.d)) 0x5A827999 w
  else if i < 40 then round s (s.b ^^^ s.c ^^^ s.d) 0x6ED9EBA1 w
  else if i < 60 then
    round s ((s.b &&& s.c) ||| (s.b &&& s.d) ||| (s.c &&& s.d)) 0x8F1BBCDC w
  else round s (s.b ^^^ s.c ^^^ s.d) 0xCA62C1D6 w

/-- The rounds from number `i` on, `n` of them. -/
def rounds (words : Array UInt32) : Nat → Nat → State → State
  | 0, _, s => s
  | n + 1, i, s => rounds words n (i + 1) (step s i (scheduled words i))

/-- Mixes the block at an offset into the chaining words. -/
def mixBlock (bytes : ByteArray) (offset : Nat) (s : State) : State :=
  let mixed := rounds (schedule bytes offset) 80 0 s
  ⟨s.a + mixed.a, s.b + mixed.b, s.c + mixed.c, s.d + mixed.d, s.e + mixed.e⟩

/-- Mixes `n` blocks from an offset on. -/
def mixBlocks (bytes : ByteArray) : Nat → Nat → State → State
  | 0, _, s => s
  | n + 1, offset, s => mixBlocks bytes n (offset + 64) (mixBlock bytes offset s)

/-- The word in 4 bytes, highest first. -/
def pushWord (bytes : ByteArray) (w : UInt32) : ByteArray :=
  (((bytes.push (w >>> 24).toUInt8).push (w >>> 16).toUInt8).push (w >>> 8).toUInt8).push w.toUInt8

/-- The digest of a message, 20 bytes. -/
def digest (message : ByteArray) : ByteArray :=
  let padded := pad message
  let s := mixBlocks padded (padded.size / 64) 0 {}
  [s.a, s.b, s.c, s.d, s.e].foldl pushWord ByteArray.empty

end Famicom.Digest.Sha1
