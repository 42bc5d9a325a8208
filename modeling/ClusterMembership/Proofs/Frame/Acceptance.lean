import ClusterMembership.Frame
import Mathlib.Logic.Basic
import Mathlib.Tactic.SplitIfs

/-!
# Accepted datagrams

A signer accepts the frames it can sign and nothing else, whatever its keyed code is: the
only thing used of the code is that its tags have 32 bytes.

Two consequences of this carry all that is said about datagrams that were changed on their
way.  An accepted datagram has the length its header announces, so nothing can be cut off or
added.  And once salt and payload are given, header and digest of an accepted datagram are
determined, so they cannot be changed at all; salt and payload can be changed only into a
pair with the same tag.
-/

namespace ClusterMembership

namespace Frame

theorem length_header (version : UInt8) (payloadLength : Nat) :
    (header version payloadLength).length = headerLength := by
  simp [header, magic, headerLength]

theorem version_eq_of_header_eq
    {version other : UInt8}
    {payloadLength otherLength : Nat}
    (same : header version payloadLength = header other otherLength) :
    version = other := by
  simp only [header, magic, List.cons_append, List.nil_append, List.cons.injEq] at same
  exact same.2.2.2.2.1

/-- Two bytes are the two bytes of the number they stand for. -/
theorem bigEndian_fromBigEndian (high low : UInt8) :
    Bytes.bigEndian 2 (Bytes.fromBigEndian [high, low]) = [high, low] := by
  have value : Bytes.fromBigEndian [high, low] = low.toNat + 256 * high.toNat := by
    simp [Bytes.fromBigEndian, Bytes.fromLittleEndian]
  have lowSmall : low.toNat < 256 := low.toNat_lt
  have quotient : (low.toNat + 256 * high.toNat) / 256 = high.toNat := by omega
  have lowByte : UInt8.ofNat (low.toNat + 256 * high.toNat) = low := by
    apply UInt8.toNat.inj
    simp
  rw [value]
  simp [Bytes.bigEndian, Bytes.littleEndian, quotient, lowByte]

theorem fromBigEndian_le_maxPayload (high low : UInt8) :
    Bytes.fromBigEndian [high, low] ≤ maxPayload := by
  have lowSmall : low.toNat < 256 := low.toNat_lt
  have highSmall : high.toNat < 256 := high.toNat_lt
  simp only [Bytes.fromBigEndian, Bytes.fromLittleEndian, List.reverse_cons, List.reverse_nil,
    List.nil_append, List.cons_append, maxPayload]
  omega

theorem fromBigEndian_bigEndian_of_le
    {payloadLength : Nat}
    (fits : payloadLength ≤ maxPayload) :
    Bytes.fromBigEndian (Bytes.bigEndian 2 payloadLength) = payloadLength := by
  rw [Bytes.fromBigEndian_bigEndian]
  exact Nat.mod_eq_of_lt (Nat.lt_succ_of_le fits)

/-- The length of the payload that the header of a datagram announces. -/
def announced (data : Bytes) : Nat :=
  Bytes.fromBigEndian ((data.drop 7).take 2)

theorem announced_header_append
    {payloadLength : Nat}
    (fits : payloadLength ≤ maxPayload)
    (version : UInt8)
    (body : Bytes) :
    announced (header version payloadLength ++ body) = payloadLength := by
  have lengthBytes :
      ((header version payloadLength ++ body).drop 7).take 2 = Bytes.bigEndian 2 payloadLength := by
    simp [header, magic]
  rw [announced, lengthBytes, fromBigEndian_bigEndian_of_le fits]

end Frame

namespace Signer

variable {signer : Signer}

/-! ## What is accepted -/

/-- A frame whose payload is not too long is accepted, and gives its payload back. -/
theorem verify_frame
    {payload : Bytes}
    (fits : payload.length ≤ Frame.maxPayload)
    (salt : Salt) :
    signer.verify (signer.frame salt payload) = .ok payload := by
  have lengthBytes : Bytes.fromBigEndian
      [UInt8.ofNat (payload.length / 256), UInt8.ofNat payload.length] = payload.length :=
    Frame.fromBigEndian_bigEndian_of_le fits
  have saltTaken :
      (salt.bytes ++ (signer.digest salt.bytes payload ++ payload)).take 16 = salt.bytes :=
    List.take_left' salt.length_bytes
  have saltDropped :
      (salt.bytes ++ (signer.digest salt.bytes payload ++ payload)).drop 16 =
        signer.digest salt.bytes payload ++ payload :=
    List.drop_left' salt.length_bytes
  have digestTaken :
      (signer.digest salt.bytes payload ++ payload).take 32 = signer.digest salt.bytes payload :=
    List.take_left' (length_digest signer salt.bytes payload)
  have payloadLeft :
      (salt.bytes ++ (signer.digest salt.bytes payload ++ payload)).drop (16 + 32) = payload := by
    rw [← List.drop_drop, saltDropped]
    exact List.drop_left' (length_digest signer salt.bytes payload)
  have lengths : 16 + (32 + payload.length) = 16 + 32 + payload.length :=
    (Nat.add_assoc _ _ _).symm
  simp [frame, Frame.header, Frame.magic, verify, Bytes.bigEndian, Bytes.littleEndian, lengthBytes,
    Frame.saltLength, Frame.digestLength, salt.length_bytes, saltTaken, saltDropped, digestTaken,
    payloadLeft, lengths]

/-- An accepted datagram is the frame of some salt around the payload it gives. -/
theorem exists_frame_of_verify
    {data payload : Bytes}
    (accepted : signer.verify data = .ok payload) :
    payload.length ≤ Frame.maxPayload ∧ ∃ salt : Salt, data = signer.frame salt payload := by
  unfold verify at accepted
  split at accepted
  next m₀ m₁ m₂ m₃ found saltLength digestLength high low body =>
    dsimp only at accepted
    split_ifs at accepted with magic version lengths size matching
    rw [not_not] at magic version size
    rw [not_or, not_not, not_not] at lengths
    cases accepted
    -- Past the six refusals only the cut of the body into salt, digest and payload is left.
    have longEnough : 48 ≤ body.length := by
      rw [size]
      exact Nat.le_add_right _ _
    have payloadLength : (body.drop (16 + 32)).length = Bytes.fromBigEndian [high, low] := by
      rw [List.length_drop, size]
      exact Nat.add_sub_cancel_left _ _
    refine ⟨?_, ⟨body.take 16, ?_⟩, ?_⟩
    · show (body.drop (16 + 32)).length ≤ Frame.maxPayload
      rw [payloadLength]
      exact Frame.fromBigEndian_le_maxPayload high low
    · rw [List.length_take]
      omega
    · -- The payload has the length that the last two bytes announce, so the header is its own.
      have header : Frame.header signer.version (body.drop (16 + 32)).length =
          [m₀, m₁, m₂, m₃, found, saltLength, digestLength, high, low] := by
        rw [payloadLength, Frame.header, ← magic, ← version, Frame.bigEndian_fromBigEndian,
          ← lengths.1, ← lengths.2, UInt8.ofNat_toNat, UInt8.ofNat_toNat]
        rfl
      have parts : body = body.take 16 ++ ((body.drop 16).take 32 ++ body.drop (16 + 32)) := by
        rw [← List.drop_drop, List.take_append_drop, List.take_append_drop]
      have digest : signer.digest (body.take 16) (body.drop (16 + 32)) = (body.drop 16).take 32 :=
        matching
      show _ = Frame.header signer.version (body.drop (16 + 32)).length ++ body.take 16 ++
        signer.digest (body.take 16) (body.drop (16 + 32)) ++ body.drop (16 + 32)
      rw [header, digest, List.append_assoc, List.append_assoc, ← parts]
      rfl
  · cases accepted

/-- A datagram is accepted for a payload exactly when it is a frame that can be signed. -/
theorem verify_eq_ok_iff {data payload : Bytes} :
    signer.verify data = .ok payload ↔
      payload.length ≤ Frame.maxPayload ∧ ∃ salt : Salt, data = signer.frame salt payload := by
  constructor
  · exact exists_frame_of_verify
  · rintro ⟨fits, salt, rfl⟩
    exact verify_frame fits salt

theorem sign_eq_ok_iff {salt : Salt} {payload signed : Bytes} :
    signer.sign salt payload = .ok signed ↔
      payload.length ≤ Frame.maxPayload ∧ signed = signer.frame salt payload := by
  unfold sign
  split_ifs with fits
  · simp [fits, eq_comm]
  · simp [fits]

/-- The datagram is not accepted. -/
def Rejects (signer : Signer) (data : Bytes) : Prop :=
  ∃ cause, signer.verify data = .error cause

theorem rejects_iff {data : Bytes} :
    signer.Rejects data ↔ ∀ payload, signer.verify data ≠ .ok payload := by
  unfold Rejects
  cases signer.verify data <;> simp

/-! ## Changed datagrams -/

/-- The header of an accepted datagram announces its length. -/
theorem length_of_verify
    {data payload : Bytes}
    (accepted : signer.verify data = .ok payload) :
    data.length = Frame.overhead + Frame.announced data := by
  rcases exists_frame_of_verify accepted with ⟨fits, salt, rfl⟩
  rw [length_frame, frame, List.append_assoc, List.append_assoc,
    Frame.announced_header_append fits]

/-- Among accepted datagrams none begins another one. -/
theorem eq_of_prefix
    {data longer payload : Bytes}
    {other : Signer}
    {otherPayload : Bytes}
    (accepted : signer.verify data = .ok payload)
    (alsoAccepted : other.verify longer = .ok otherPayload)
    (begins : data <+: longer) :
    data = longer := by
  rcases begins with ⟨more, rfl⟩
  have length := length_of_verify accepted
  have longerLength := length_of_verify alsoAccepted
  -- The longer datagram has the same header, and with it the same length.
  have sameHeader : Frame.announced (data ++ more) = Frame.announced data := by
    have enough : 9 ≤ data.length := by
      rw [length, Frame.overhead, Frame.headerLength]
      omega
    rw [Frame.announced, Frame.announced, List.drop_append_of_le_length (by omega),
      List.take_append_of_le_length (by rw [List.length_drop]; omega)]
  rw [sameHeader, ← length, List.length_append] at longerLength
  rw [List.length_eq_zero_iff.mp (Nat.add_eq_left.mp longerLength), List.append_nil]

/-- Salt and payload of an accepted datagram determine its header and its digest. -/
theorem parts_of_verify
    {header salt digest payload result : Bytes}
    (headerLength : header.length = 9)
    (saltLength : salt.length = 16)
    (digestLength : digest.length = 32)
    (accepted : signer.verify (header ++ salt ++ digest ++ payload) = .ok result) :
    result = payload ∧ header = Frame.header signer.version payload.length ∧
      digest = signer.digest salt payload := by
  rcases exists_frame_of_verify accepted with ⟨fits, salt', same⟩
  have lengths :
      (header ++ salt ++ digest).length =
        (Frame.header signer.version result.length ++ salt'.bytes ++
          signer.digest salt'.bytes result).length := by
    simp [headerLength, saltLength, digestLength, Frame.length_header, salt'.length_bytes,
      Frame.headerLength]
  rcases List.append_inj same lengths with ⟨front, rfl⟩
  rcases List.append_inj' front (by rw [digestLength, length_digest]) with ⟨start, sameDigest⟩
  rcases List.append_inj' start (by rw [saltLength, salt'.length_bytes]) with ⟨sameHeader, rfl⟩
  exact ⟨rfl, sameHeader, sameDigest⟩

/-! ## The theorem -/

/-- The bytes of a frame, written out. -/
theorem frame_eq (signer : Signer) (salt : Salt) (payload : Bytes) :
    signer.frame salt payload =
      [0x53, 0x57, 0x49, 0x4d] ++ [signer.version, 16, 32] ++ Bytes.bigEndian 2 payload.length ++
        salt.bytes ++ signer.mac.tag (signer.version :: (salt.bytes ++ payload)) ++ payload :=
  rfl

/--
A datagram is accepted for a payload exactly when the payload has at most 65535 bytes and
the datagram is made of the magic bytes, the version, the lengths of salt and digest, the
length of the payload, some salt, the tag of version, salt and payload, and the payload.
Such datagrams are what signing gives, and it gives one for every payload that is not longer.

Of a signed datagram nothing can be cut off, nothing can be added, and neither header nor
digest can be changed.  No signer of another version accepts it.  Where the digest is kept
and the rest is changed, the datagram is accepted only when the tags are the same.
-/
theorem accepts_exactly_signed (signer : Signer) :
    (∀ data payload : Bytes, signer.verify data = .ok payload ↔
      payload.length ≤ 65535 ∧ ∃ salt : Bytes, salt.length = 16 ∧
        data =
          [0x53, 0x57, 0x49, 0x4d] ++ [signer.version, 16, 32] ++
            Bytes.bigEndian 2 payload.length ++ salt ++
            signer.mac.tag (signer.version :: (salt ++ payload)) ++ payload) ∧
    (∀ (salt : Salt) (payload : Bytes), signer.sign salt payload =
      if payload.length ≤ 65535 then
        .ok ([0x53, 0x57, 0x49, 0x4d] ++ [signer.version, 16, 32] ++
          Bytes.bigEndian 2 payload.length ++ salt.bytes ++
          signer.mac.tag (signer.version :: (salt.bytes ++ payload)) ++ payload)
      else
        .error (.payloadTooLarge payload.length)) ∧
    ∀ (salt : Salt) (payload signed : Bytes), signer.sign salt payload = .ok signed →
      (∀ kept more, kept ++ more = signed → more ≠ [] → signer.Rejects kept) ∧
      (∀ more, more ≠ [] → signer.Rejects (signed ++ more)) ∧
      (∀ header digest : Bytes, header.length = 9 → digest.length = 32 →
        header ++ salt.bytes ++ digest ++ payload ≠ signed →
          signer.Rejects (header ++ salt.bytes ++ digest ++ payload)) ∧
      (∀ other : Signer, other.version ≠ signer.version → other.Rejects signed) ∧
      ∀ header otherSalt otherPayload result : Bytes,
        header.length = 9 → otherSalt.length = 16 →
        signer.verify (header ++ otherSalt ++ signer.digest salt.bytes payload ++ otherPayload) =
          .ok result →
        signer.mac.tag (signer.version :: (otherSalt ++ otherPayload)) =
          signer.mac.tag (signer.version :: (salt.bytes ++ payload)) := by
  refine ⟨?accepted, fun salt payload => rfl, ?changed⟩
  case accepted =>
    intro data payload
    rw [verify_eq_ok_iff]
    constructor
    · rintro ⟨fits, salt, rfl⟩
      exact ⟨fits, salt.bytes, salt.length_bytes, frame_eq signer salt payload⟩
    · rintro ⟨fits, salt, sixteen, rfl⟩
      exact ⟨fits, ⟨salt, sixteen⟩, (frame_eq signer ⟨salt, sixteen⟩ payload).symm⟩
  case changed =>
    intro salt payload signed signs
    rcases sign_eq_ok_iff.mp signs with ⟨fits, rfl⟩
    have accepted : signer.verify (signer.frame salt payload) = .ok payload :=
      verify_frame fits salt
    refine ⟨?cut, ?added, ?front, ?version, ?tags⟩
    case cut =>
      intro kept more parts nonempty
      refine rejects_iff.mpr fun result keptAccepted => nonempty ?_
      have same := eq_of_prefix keptAccepted accepted ⟨more, parts⟩
      rw [← same] at parts
      exact List.append_right_eq_self.mp parts
    case added =>
      intro more nonempty
      refine rejects_iff.mpr fun result longerAccepted => nonempty ?_
      have same := eq_of_prefix accepted longerAccepted (List.prefix_append _ more)
      exact List.append_right_eq_self.mp same.symm
    case front =>
      intro header digest nine thirtyTwo differs
      refine rejects_iff.mpr fun result changedAccepted => differs ?_
      rcases parts_of_verify nine salt.length_bytes thirtyTwo changedAccepted with ⟨-, rfl, rfl⟩
      rfl
    case version =>
      intro other differs
      refine rejects_iff.mpr fun result otherAccepts => differs ?_
      rcases parts_of_verify (Frame.length_header _ _) salt.length_bytes
        (length_digest signer salt.bytes payload) otherAccepts with ⟨-, sameHeader, -⟩
      exact (Frame.version_eq_of_header_eq sameHeader).symm
    case tags =>
      intro header otherSalt otherPayload result nine sixteen changedAccepted
      rcases parts_of_verify nine sixteen (length_digest signer salt.bytes payload)
        changedAccepted with ⟨-, -, sameDigest⟩
      exact sameDigest.symm

/-- A signed byte is accepted by its signer, but not with a byte more and not under version 2. -/
theorem accepts_exactly_signed_byte :
    ∃ signer signed, Signer.ofSecret [0x6b] = .ok signer ∧
      signer.sign ⟨List.replicate 16 0, rfl⟩ [0x70] = .ok signed ∧
      signer.verify signed = .ok [0x70] ∧ signer.Rejects (signed ++ [0x71]) ∧
      (signer.withVersion 2).Rejects signed := by
  have holds := accepts_exactly_signed { mac := Hmac.mac [0x6b] }
  have signs := holds.2.1 ⟨List.replicate 16 0, rfl⟩ [0x70]
  rw [if_pos (by decide)] at signs
  have changed := holds.2.2 _ _ _ signs
  refine ⟨_, _, rfl, signs, ?_, changed.2.1 _ (by decide), changed.2.2.2.1 _ (by decide)⟩
  exact (holds.1 _ _).mpr ⟨by decide, List.replicate 16 0, rfl, rfl⟩

end Signer

end ClusterMembership
