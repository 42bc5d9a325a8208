import ClusterMembership.Crypto.Sha256

/-!
# Keyed digests

A message authentication code is a function from messages to tags of 32 bytes.
Nothing else about it is used to frame and check datagrams, so `Mac` holds the
function together with the length of its tags and no more.

The concrete code of this library is HMAC over SHA-256: the digest of the outer
key block followed by the digest of the inner key block followed by the message.
Both key blocks are absorbed once per key.
-/

namespace ClusterMembership

/-- A keyed code with tags of 32 bytes. -/
structure Mac where
  tag : Bytes → Bytes
  length_tag : ∀ message, (tag message).length = 32

namespace Hmac

/-- The key as one block: a long key is digested first, a short one is filled with zeros. -/
def keyBlock (key : Bytes) : Bytes :=
  let short := if key.length > 64 then Sha256.digest key else key
  short ++ List.replicate (64 - short.length) 0

/-- The state after the key block masked with one byte. -/
def keyState (key : Bytes) (mask : UInt8) : Sha256.State :=
  Sha256.State.initial.compress ((keyBlock key).map (· ^^^ mask))

/-- HMAC over SHA-256 with the given key. -/
def mac (key : Bytes) : Mac :=
  let inner := keyState key 0x36
  let outer := keyState key 0x5c
  { tag := fun message => (outer.finish 64 (inner.finish 64 message).bytes).bytes
    length_tag := fun _ => Sha256.State.length_bytes _ }

end Hmac

end ClusterMembership
