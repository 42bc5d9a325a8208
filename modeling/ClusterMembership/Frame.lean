import ClusterMembership.Crypto.Hmac
import ClusterMembership.Error

/-!
# Signed frames

Every datagram is a frame: nine header bytes, a salt of 16 bytes, a digest of 32
bytes, and the payload.  The header is the magic bytes, the version, the lengths
of salt and digest, and the length of the payload in two bytes, most significant
first.  The digest is the keyed code of the version, the salt and the payload, so
whoever holds the cluster secret can sign, and nobody else can.

`Signer.frame` is the datagram for a salt and a payload; `Signer.verify` accepts
such datagrams and gives the payload back.
-/

namespace ClusterMembership

/-- The random bytes that make two frames of one payload differ. -/
structure Salt where
  bytes : Bytes
  length_bytes : bytes.length = 16 := by simp

namespace Frame

/-- The bytes every frame starts with. -/
def magic : Bytes := [0x53, 0x57, 0x49, 0x4d]

/-- The version of frames unless another one is chosen. -/
def defaultVersion : UInt8 := 1

def saltLength : Nat := 16

def digestLength : Nat := 32

def headerLength : Nat := 9

/-- The number of bytes a frame adds to its payload. -/
def overhead : Nat := headerLength + saltLength + digestLength

/-- The largest payload the two length bytes can announce. -/
def maxPayload : Nat := 65535

/-- The nine bytes in front of the salt. -/
def header (version : UInt8) (payloadLength : Nat) : Bytes :=
  magic ++ version :: UInt8.ofNat saltLength :: UInt8.ofNat digestLength ::
    Bytes.bigEndian 2 payloadLength

end Frame

/-- Signs and verifies frames under one key and version. -/
structure Signer where
  mac : Mac
  version : UInt8 := Frame.defaultVersion

namespace Signer

/-- The signer keyed with a cluster secret, which cannot be empty. -/
def ofSecret (secret : Bytes) : Except GossipError Signer :=
  if secret.isEmpty then
    .error (.configuration "cluster secret cannot be empty")
  else
    .ok { mac := Hmac.mac secret }

/-- The same key under another version. -/
def withVersion (signer : Signer) (version : UInt8) : Signer :=
  { signer with version }

/-- The digest over the version, the salt and the payload. -/
def digest (signer : Signer) (salt payload : Bytes) : Bytes :=
  signer.mac.tag (signer.version :: (salt ++ payload))

/-- The frame around a payload. -/
def frame (signer : Signer) (salt : Salt) (payload : Bytes) : Bytes :=
  Frame.header signer.version payload.length ++ salt.bytes ++
    signer.digest salt.bytes payload ++ payload

/-- Sign a payload that fits a frame. -/
def sign (signer : Signer) (salt : Salt) (payload : Bytes) : Except FrameError Bytes :=
  if payload.length ≤ Frame.maxPayload then
    .ok (signer.frame salt payload)
  else
    .error (.payloadTooLarge payload.length)

/-- Check the framing and the digest of a datagram and return its payload. -/
def verify (signer : Signer) (data : Bytes) : Except FrameError Bytes :=
  match data with
  | m₀ :: m₁ :: m₂ :: m₃ :: found :: saltLength :: digestLength :: high :: low :: body =>
    if [m₀, m₁, m₂, m₃] ≠ Frame.magic then
      .error .badMagic
    else if found ≠ signer.version then
      .error (.versionMismatch signer.version found)
    else if saltLength.toNat ≠ Frame.saltLength ∨ digestLength.toNat ≠ Frame.digestLength then
      .error .badLength
    else if body.length ≠
        Frame.saltLength + Frame.digestLength + Bytes.fromBigEndian [high, low] then
      .error (.truncated (Frame.headerLength + body.length))
    else
      let salt := body.take Frame.saltLength
      let digest := (body.drop Frame.saltLength).take Frame.digestLength
      let payload := body.drop (Frame.saltLength + Frame.digestLength)
      if signer.digest salt payload = digest then
        .ok payload
      else
        .error .badDigest
  | short => .error (.truncated short.length)

/-- The debug text of a signer, which does not show the secret. -/
def debugText (signer : Signer) : String :=
  s!"Signatures \x7b secret: \"<redacted>\", version: {signer.version} \x7d"

@[simp]
theorem length_digest (signer : Signer) (salt payload : Bytes) :
    (signer.digest salt payload).length = 32 :=
  signer.mac.length_tag _

@[simp]
theorem length_frame (signer : Signer) (salt : Salt) (payload : Bytes) :
    (signer.frame salt payload).length = Frame.overhead + payload.length := by
  simp [frame, Frame.header, Frame.magic, Frame.overhead, Frame.headerLength, Frame.saltLength,
    Frame.digestLength, salt.length_bytes]
  omega

end Signer

end ClusterMembership
