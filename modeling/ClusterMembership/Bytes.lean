/-!
# Byte strings

A datagram, a payload and a digest are finite sequences of bytes.  This module
fixes the carrier and the two conversions everything else needs: fixed-width
natural numbers in either byte order, and the standard UTF-8 form of text.

The carrier is the list, so that every reader and writer of the wire format can
be reasoned about by induction on the data it consumes.
-/

namespace ClusterMembership

/-- A finite sequence of bytes. -/
abbrev Bytes := List UInt8

namespace Bytes

/-- The standard UTF-8 form of a text. -/
def ofText (text : String) : Bytes :=
  text.toUTF8.data.toList

/-- The text with the given UTF-8 form, when the bytes are well formed. -/
def toText? (bytes : Bytes) : Option String :=
  String.fromUTF8? ⟨bytes.toArray⟩

/-- The low `width` bytes of a natural number, least significant first. -/
def littleEndian : (width : Nat) → Nat → Bytes
  | 0, _ => []
  | width + 1, value => UInt8.ofNat value :: littleEndian width (value / 256)

/-- The natural number whose bytes are given, least significant first. -/
def fromLittleEndian : Bytes → Nat
  | [] => 0
  | byte :: rest => byte.toNat + 256 * fromLittleEndian rest

/-- How many numbers fit `width` bytes. -/
def capacity (width : Nat) : Nat :=
  Nat.pow 256 width

/-- The low `width` bytes of a natural number, most significant first. -/
def bigEndian (width value : Nat) : Bytes :=
  (littleEndian width value).reverse

/-- The natural number whose bytes are given, most significant first. -/
def fromBigEndian (bytes : Bytes) : Nat :=
  fromLittleEndian bytes.reverse

@[simp]
theorem length_littleEndian (width value : Nat) :
    (littleEndian width value).length = width := by
  induction width generalizing value with
  | zero => rfl
  | succ width step => simp [littleEndian, step]

@[simp]
theorem length_bigEndian (width value : Nat) :
    (bigEndian width value).length = width := by
  simp [bigEndian]

/-- Fixed-width bytes keep exactly the value modulo their capacity. -/
theorem fromLittleEndian_littleEndian (width value : Nat) :
    fromLittleEndian (littleEndian width value) = value % capacity width := by
  induction width generalizing value with
  | zero => simp [littleEndian, fromLittleEndian, capacity, Nat.mod_one]
  | succ width step =>
    have low : (UInt8.ofNat value).toNat = value % 256 := by simp
    have more : capacity (width + 1) = 256 * capacity width := Nat.mul_comm _ _
    rw [littleEndian, fromLittleEndian, step, low, more, Nat.mod_mul]

theorem fromBigEndian_bigEndian (width value : Nat) :
    fromBigEndian (bigEndian width value) = value % capacity width := by
  simp [fromBigEndian, bigEndian, fromLittleEndian_littleEndian]

end Bytes

end ClusterMembership
