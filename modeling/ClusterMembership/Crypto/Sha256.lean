import ClusterMembership.Bytes

/-!
# The SHA-256 digest

The standard digest of a byte string: the message is padded to whole blocks of
64 bytes and folded through the compression function, eight 32-bit words at a
time.  The state after any number of whole blocks is a value of its own, so a
keyed construction can absorb its key once and continue from there for every
message.
-/

namespace ClusterMembership

namespace Sha256

/-- The eight words carried from block to block. -/
structure State where
  a : UInt32
  b : UInt32
  c : UInt32
  d : UInt32
  e : UInt32
  f : UInt32
  g : UInt32
  h : UInt32
  deriving DecidableEq, Inhabited, Repr

/-- The state before the first block. -/
def State.initial : State where
  a := 0x6a09e667
  b := 0xbb67ae85
  c := 0x3c6ef372
  d := 0xa54ff53a
  e := 0x510e527f
  f := 0x9b05688c
  g := 0x1f83d9ab
  h := 0x5be0cd19

/-- The constant added in each of the 64 rounds. -/
def roundConstants : List UInt32 :=
  [0x428a2f98, 0x71374491, 0xb5c0fbcf, 0xe9b5dba5, 0x3956c25b, 0x59f111f1,
    0x923f82a4, 0xab1c5ed5, 0xd807aa98, 0x12835b01, 0x243185be, 0x550c7dc3,
    0x72be5d74, 0x80deb1fe, 0x9bdc06a7, 0xc19bf174, 0xe49b69c1, 0xefbe4786,
    0x0fc19dc6, 0x240ca1cc, 0x2de92c6f, 0x4a7484aa, 0x5cb0a9dc, 0x76f988da,
    0x983e5152, 0xa831c66d, 0xb00327c8, 0xbf597fc7, 0xc6e00bf3, 0xd5a79147,
    0x06ca6351, 0x14292967, 0x27b70a85, 0x2e1b2138, 0x4d2c6dfc, 0x53380d13,
    0x650a7354, 0x766a0abb, 0x81c2c92e, 0x92722c85, 0xa2bfe8a1, 0xa81a664b,
    0xc24b8b70, 0xc76c51a3, 0xd192e819, 0xd6990624, 0xf40e3585, 0x106aa070,
    0x19a4c116, 0x1e376c08, 0x2748774c, 0x34b0bcb5, 0x391c0cb3, 0x4ed8aa4a,
    0x5b9cca4f, 0x682e6ff3, 0x748f82ee, 0x78a5636f, 0x84c87814, 0x8cc70208,
    0x90befffa, 0xa4506ceb, 0xbef9a3f7, 0xc67178f2]

/-- Rotate a word to the right. -/
def rotateRight (word amount : UInt32) : UInt32 :=
  (word >>> amount) ||| (word <<< (32 - amount))

/-- The big-endian words of a byte string whose length is a multiple of four. -/
def words : Bytes → List UInt32
  | first :: second :: third :: fourth :: rest =>
    ((first.toUInt32 <<< 24) ||| (second.toUInt32 <<< 16) ||| (third.toUInt32 <<< 8) |||
      fourth.toUInt32) :: words rest
  | _ => []

/-- Append `count` words to a message schedule. -/
def extendSchedule : (count : Nat) → Array UInt32 → Array UInt32
  | 0, schedule => schedule
  | count + 1, schedule =>
    let word (back : Nat) := schedule.getD (schedule.size - back) 0
    let near := word 2
    let far := word 15
    let nearMix := rotateRight near 17 ^^^ rotateRight near 19 ^^^ (near >>> 10)
    let farMix := rotateRight far 7 ^^^ rotateRight far 18 ^^^ (far >>> 3)
    extendSchedule count (schedule.push (word 16 + farMix + word 7 + nearMix))

/-- One round with the sum of its constant and its schedule word. -/
def State.round (state : State) (input : UInt32) : State :=
  let mixE := rotateRight state.e 6 ^^^ rotateRight state.e 11 ^^^ rotateRight state.e 25
  let choice := (state.e &&& state.f) ^^^ ((~~~ state.e) &&& state.g)
  let first := state.h + mixE + choice + input
  let mixA := rotateRight state.a 2 ^^^ rotateRight state.a 13 ^^^ rotateRight state.a 22
  let majority := (state.a &&& state.b) ^^^ (state.a &&& state.c) ^^^ (state.b &&& state.c)
  { a := first + mixA + majority
    b := state.a
    c := state.b
    d := state.c
    e := state.d + first
    f := state.e
    g := state.f
    h := state.g }

/-- The rounds of one block. -/
def State.rounds : State → List UInt32 → List UInt32 → State
  | state, constant :: constants, word :: schedule =>
    (state.round (constant + word)).rounds constants schedule
  | state, _, _ => state

/-- The word-wise sum of two states. -/
def State.add (left right : State) : State where
  a := left.a + right.a
  b := left.b + right.b
  c := left.c + right.c
  d := left.d + right.d
  e := left.e + right.e
  f := left.f + right.f
  g := left.g + right.g
  h := left.h + right.h

/-- Fold one block of 64 bytes into the state. -/
def State.compress (state : State) (block : Bytes) : State :=
  let schedule := extendSchedule 48 (words block).toArray
  state.add (state.rounds roundConstants schedule.toList)

/-- Fold a number of whole blocks into the state. -/
def State.absorb : State → (blocks : Nat) → Bytes → State
  | state, 0, _ => state
  | state, blocks + 1, bytes => (state.compress (bytes.take 64)).absorb blocks (bytes.drop 64)

/-- The bytes of the state, which are the digest after the last block. -/
def State.bytes (state : State) : Bytes :=
  let word (value : UInt32) : Bytes :=
    [(value >>> 24).toUInt8, (value >>> 16).toUInt8, (value >>> 8).toUInt8, value.toUInt8]
  word state.a ++ word state.b ++ word state.c ++ word state.d ++
    word state.e ++ word state.f ++ word state.g ++ word state.h

@[simp]
theorem State.length_bytes (state : State) : state.bytes.length = 32 := rfl

/--
What follows the last `tail` bytes of a message of `total` bytes: a single set
bit, zeros up to eight bytes short of a whole block, and the message length in
bits.
-/
def padding (total tail : Nat) : Bytes :=
  let zeros := (119 - tail % 64) % 64
  (0x80 : UInt8) :: List.replicate zeros 0 ++ Bytes.bigEndian 8 (8 * total)

/-- Finish a message of which `absorbed` bytes, whole blocks, are in the state already. -/
def State.finish (state : State) (absorbed : Nat) (message : Bytes) : State :=
  let length := message.length
  let padded := message ++ padding (absorbed + length) length
  state.absorb ((length + 72) / 64) padded

/-- The digest of a byte string. -/
def digest (message : Bytes) : Bytes :=
  (State.initial.finish 0 message).bytes

end Sha256

end ClusterMembership
