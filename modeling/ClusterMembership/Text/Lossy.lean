import ClusterMembership.Bytes

/-!
# Text of any bytes

Bytes that are not well-formed UTF-8 are read with replacements: every longest
part that begins a character without completing it, and every byte that cannot
begin one, becomes one U+FFFD.
-/

namespace ClusterMembership

namespace Text

/-- The character that stands for bytes that are none. -/
def replacement : Char := '\uFFFD'

/--
What must follow the first byte of a character: the bits the first byte
contributes, and the range of every further byte.  A byte without an answer cannot
begin a character.
-/
def opening? (byte : UInt8) : Option (Nat × List (UInt8 × UInt8)) :=
  let tail : UInt8 × UInt8 := (0x80, 0xBF)
  let bits (mask : UInt8) : Nat := (byte &&& mask).toNat
  if byte ≤ 0x7F then some (byte.toNat, [])
  else if 0xC2 ≤ byte ∧ byte ≤ 0xDF then some (bits 0x1F, [tail])
  else if byte = 0xE0 then some (bits 0x0F, [(0xA0, 0xBF), tail])
  else if byte = 0xED then some (bits 0x0F, [(0x80, 0x9F), tail])
  else if 0xE1 ≤ byte ∧ byte ≤ 0xEF then some (bits 0x0F, [tail, tail])
  else if byte = 0xF0 then some (bits 0x07, [(0x90, 0xBF), tail, tail])
  else if 0xF1 ≤ byte ∧ byte ≤ 0xF3 then some (bits 0x07, [tail, tail, tail])
  else if byte = 0xF4 then some (bits 0x07, [(0x80, 0x8F), tail, tail])
  else none

/--
Complete a character from the bytes that follow.  The answer is the character, or
the replacement where a byte is out of its range, and how many bytes were taken.
-/
def complete : (code : Nat) → List (UInt8 × UInt8) → Bytes → Char × Nat
  | code, [], _ => (Char.ofNat code, 0)
  | _, _ :: _, [] => (replacement, 0)
  | code, (low, high) :: owed, byte :: rest =>
    if low ≤ byte ∧ byte ≤ high then
      let (character, taken) := complete (64 * code + (byte &&& 0x3F).toNat) owed rest
      (character, taken + 1)
    else
      (replacement, 0)

/-- Read all bytes; what earlier characters took is passed over. -/
def lossyFrom : (taken : Nat) → Bytes → List Char
  | _, [] => []
  | taken + 1, _ :: rest => lossyFrom taken rest
  | 0, byte :: rest =>
    match opening? byte with
    | none => replacement :: lossyFrom 0 rest
    | some (code, owed) =>
      let (character, taken) := complete code owed rest
      character :: lossyFrom taken rest

/-- The text of any bytes. -/
def lossy (bytes : Bytes) : List Char :=
  lossyFrom 0 bytes

end Text

end ClusterMembership
