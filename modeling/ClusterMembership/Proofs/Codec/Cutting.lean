import ClusterMembership.Proofs.Codec.Batching
import ClusterMembership.Proofs.Frame.Acceptance
import ClusterMembership.Proofs.Wire.Packing
import Mathlib.Data.List.Forall2

/-!
# Cutting a list into datagrams

Entries are cut from the front of a list, at least one at a turn, so cutting ends.
`Codec.Cuts` says which parts this gives: an entry that exceeds the room on its own is dropped,
and otherwise the longest part that keeps within the room is cut off.  `Codec.Leaves` says what
is left of a list on the way, which is where the list fails, if it fails.

No relation between the packer's limit, the room and what a frame can announce is assumed:
where an answer is given, it is right under any three of them.
-/

namespace ClusterMembership

namespace Carrier

/-- The packed form of a wrapped list has the size that is counted. -/
theorem length_write_wrap (carrier : Carrier) (entries : List GossipEntry) :
    (carrier.wrap entries).write.length = carrier.size entries :=
  (Packet.length_write _).trans (carrier.packedSize_eq_size entries)

theorem length_le_size (carrier : Carrier) (entries : List GossipEntry) :
    entries.length ≤ carrier.size entries :=
  Nat.le_trans (Wire.length_le_bodySize entries) (Nat.le_add_left _ _)

/-- Each entry of a list is no larger than the list. -/
theorem size_singleton_le
    (carrier : Carrier)
    {entries : List GossipEntry}
    {entry : GossipEntry}
    (member : entry ∈ entries) :
    carrier.size [entry] ≤ carrier.size entries :=
  carrier.size_le_of_sublist (List.singleton_sublist.2 member)

/-- A packet can be packed when all that it carries can, and there is not too much of it. -/
theorem packable_wrap
    {carrier : Carrier}
    {entries : List GossipEntry}
    (bare : (carrier.wrap []).Packable)
    (known : ∀ entry ∈ entries, entry.Packable)
    (announced : carrier.size entries ≤ Frame.maxPayload) :
    (carrier.wrap entries).Packable := by
  have counted : entries.length < Bytes.capacity 8 := by
    have held := carrier.length_le_size entries
    have wide : Frame.maxPayload < Bytes.capacity 8 := by decide
    omega
  cases carrier with
  | ping source request => exact ⟨bare.source, bare.payload.1, counted, known⟩
  | ack source request => exact ⟨bare.source, bare.payload.1, counted, known⟩
  | gossip source => exact ⟨bare.source, counted, known⟩

end Carrier

namespace Codec

variable {codec : Codec} {carrier : Carrier} {room maxSize : Nat}

/-! ## What is counted -/

theorem take_succ_length (taken rest : List GossipEntry) (entry : GossipEntry) :
    (taken ++ entry :: rest).take (taken.length + 1) = taken ++ [entry] := by
  rw [List.take_length_add_append]
  rfl

/--
Counting ends with the list, or with an entry that overshoots the room, and it does not get past
the packer's limit.
-/
theorem fitFrom_stops
    {answer : Nat}
    (taken entries : List GossipEntry)
    (counted : codec.fitFrom carrier room entries taken.length
      (Wire.bodySize Wire.entrySize taken) = .ok answer) :
    (answer = (taken ++ entries).length ∨
      room < carrier.size ((taken ++ entries).take (answer + 1))) ∧
    (answer = taken.length ∨ carrier.size ((taken ++ entries).take answer) ≤ codec.limit) := by
  induction entries generalizing taken with
  | nil =>
    cases counted
    exact ⟨Or.inl (by simp), Or.inl rfl⟩
  | cons entry rest step =>
    rw [fitFrom] at counted
    rw [Carrier.sizeWith_succ] at counted
    split_ifs at counted with exceeded overshoots
    · cases counted
      rw [take_succ_length]
      exact ⟨Or.inr overshoots, Or.inl rfl⟩
    · have later := step (taken ++ [entry])
        (by simpa [Wire.bodySize_append, Wire.bodySize] using counted)
      rw [List.append_assoc, List.singleton_append] at later
      refine ⟨later.1, Or.inr ?_⟩
      rcases later.2 with here | packed
      · rw [here, List.length_append, List.length_singleton, take_succ_length]
        exact Nat.le_of_not_lt exceeded
      · exact packed

/-- Counting fails at an entry that overshoots the packer's limit, behind entries that fit. -/
theorem fitFrom_fails
    {cause : Wire.WireError}
    (taken entries : List GossipEntry)
    (failed : codec.fitFrom carrier room entries taken.length
      (Wire.bodySize Wire.entrySize taken) = .error cause) :
    cause = .overLimit ∧ ∃ count, count < (taken ++ entries).length ∧
      (count = taken.length ∨ carrier.size ((taken ++ entries).take count) ≤ min room codec.limit) ∧
      codec.limit < carrier.size ((taken ++ entries).take (count + 1)) := by
  induction entries generalizing taken with
  | nil => cases failed
  | cons entry rest step =>
    rw [fitFrom] at failed
    rw [Carrier.sizeWith_succ] at failed
    split_ifs at failed with exceeded overshoots
    · cases failed
      refine ⟨rfl, taken.length, by simp, Or.inl rfl, ?_⟩
      rw [take_succ_length]
      exact exceeded
    · rcases step (taken ++ [entry])
        (by simpa [Wire.bodySize_append, Wire.bodySize] using failed) with
        ⟨rfl, count, inside, fits, exceeds⟩
      rw [List.append_assoc, List.singleton_append] at inside fits exceeds
      refine ⟨rfl, count, inside, Or.inr ?_, exceeds⟩
      rcases fits with here | fits
      · rw [here, List.length_append, List.length_singleton, take_succ_length]
        exact Nat.le_min.2 ⟨Nat.le_of_not_lt overshoots, Nat.le_of_not_lt exceeded⟩
      · exact fits

/-- The count is the greatest one whose entries keep within the room. -/
theorem size_take_le_iff_of_fit
    {entries : List GossipEntry}
    {count : Nat}
    (counted : codec.fit carrier maxSize entries = .ok count)
    {some : Nat}
    (positive : 0 < some)
    (inside : some ≤ entries.length) :
    carrier.size (entries.take some) ≤ budget maxSize ↔ some ≤ count := by
  have within := (codec.fitFrom_within [] entries counted).2
  have stops := (fitFrom_stops [] entries counted).1
  rw [List.nil_append] at within stops
  constructor
  · intro fits
    by_contra beyond
    have grows := carrier.size_take_le entries (show count + 1 ≤ some from Nat.lt_of_not_le beyond)
    have overshoots := stops.resolve_left (by omega)
    omega
  · intro ordered
    have fits := within.resolve_left (by rw [List.length_nil]; omega)
    exact Nat.le_trans (carrier.size_take_le entries ordered) fits

/-- Where nothing is counted, the first entry exceeds the room on its own. -/
theorem oversized_of_fit
    {entry : GossipEntry}
    {rest : List GossipEntry}
    (counted : codec.fit carrier maxSize (entry :: rest) = .ok 0) :
    budget maxSize < carrier.size [entry] := by
  have alone := size_take_le_iff_of_fit counted Nat.one_pos (Nat.succ_pos rest.length)
  exact Nat.lt_of_not_le fun fits => Nat.not_succ_le_zero 0 (alone.1 fits)

/-- What is counted keeps within the room, and the next entry does not go with it. -/
theorem full_of_fit
    {entry : GossipEntry}
    {rest : List GossipEntry}
    {more : Nat}
    (counted : codec.fit carrier maxSize (entry :: rest) = .ok (more + 1)) :
    carrier.size (entry :: rest.take more) ≤ budget maxSize ∧
      ∀ next ∈ (rest.drop more).head?,
        budget maxSize < carrier.size (entry :: rest.take more ++ [next]) := by
  have inside : more + 1 ≤ (entry :: rest).length :=
    (codec.fitFrom_within [] (entry :: rest) counted).1
  constructor
  · exact (size_take_le_iff_of_fit counted (Nat.succ_pos more) inside).2 (Nat.le_refl _)
  · intro next upcoming
    have found : rest[more]? = some next := by simpa [List.head?_drop] using upcoming
    have room : more < rest.length := (List.getElem?_eq_some_iff.1 found).1
    have taken : (entry :: rest).take (more + 2) = entry :: rest.take more ++ [next] := by
      rw [List.take_succ_cons, List.take_add_one, found]
      rfl
    have next := size_take_le_iff_of_fit counted (Nat.succ_pos (more + 1)) (Nat.succ_le_succ room)
    rw [← taken]
    exact Nat.lt_of_not_le fun fits => Nat.not_succ_le_self _ (next.1 fits)

/-! ## What is cut off -/

/-- The parts that a list is cut into, from the front. -/
inductive Cuts (carrier : Carrier) (room : Nat) :
    List GossipEntry → List (List GossipEntry) → Prop where
  | nil : Cuts carrier room [] []
  | drop
      {entry : GossipEntry}
      {rest : List GossipEntry}
      {parts : List (List GossipEntry)}
      (oversized : room < carrier.size [entry])
      (cuts : Cuts carrier room rest parts) :
      Cuts carrier room (entry :: rest) parts
  | part
      {part rest : List GossipEntry}
      {parts : List (List GossipEntry)}
      (some : part ≠ [])
      (fits : carrier.size part ≤ room)
      (full : ∀ next ∈ rest.head?, room < carrier.size (part ++ [next]))
      (cuts : Cuts carrier room rest parts) :
      Cuts carrier room (part ++ rest) (part :: parts)

/-- The entries of a part that fits all fit on their own. -/
theorem filter_eq_self_of_fits
    {part : List GossipEntry}
    (fits : carrier.size part ≤ room) :
    part.filter (fun entry => carrier.size [entry] ≤ room) = part :=
  List.filter_eq_self.2 fun _ member =>
    decide_eq_true (Nat.le_trans (carrier.size_singleton_le member) fits)

namespace Cuts

variable {entries : List GossipEntry} {parts : List (List GossipEntry)}

/-- The parts together are the list without the entries that do not fit on their own. -/
theorem flatten_eq_filter (cuts : Cuts carrier room entries parts) :
    parts.flatten = entries.filter fun entry => carrier.size [entry] ≤ room := by
  induction cuts with
  | nil => rfl
  | drop oversized _ step => simpa [Nat.not_le.2 oversized] using step
  | part some fits full _ step =>
    rw [List.flatten_cons, step, List.filter_append, filter_eq_self_of_fits fits]

/-- Every part takes entries, keeps within the room, and leaves no room for the next entry. -/
theorem maximal
    (cuts : Cuts carrier room entries parts)
    {earlier later : List (List GossipEntry)}
    {part : List GossipEntry}
    (split : parts = earlier ++ part :: later) :
    part ≠ [] ∧ carrier.size part ≤ room ∧
      ∃ before behind, entries = before ++ part ++ behind ∧
        earlier.flatten = before.filter (fun entry => carrier.size [entry] ≤ room) ∧
        later.flatten = behind.filter (fun entry => carrier.size [entry] ≤ room) ∧
        ∀ next ∈ behind.head?, room < carrier.size (part ++ [next]) := by
  induction cuts generalizing earlier with
  | nil => simp at split
  | drop oversized _ step =>
    rcases step split with ⟨some, fits, before, behind, rfl, front, back, full⟩
    refine ⟨some, fits, _ :: before, behind, rfl, ?_, back, full⟩
    simpa [Nat.not_le.2 oversized] using front
  | @part first rest parts some fits full cuts step =>
    cases earlier with
    | nil =>
      cases split
      exact ⟨some, fits, [], rest, rfl, rfl, cuts.flatten_eq_filter, full⟩
    | cons head earlier =>
      rw [List.cons_append, List.cons.injEq] at split
      rcases step split.2 with ⟨someLater, fitsLater, before, behind, rfl, front, back, fullLater⟩
      refine ⟨someLater, fitsLater, head ++ before, behind, by simp [split.1], ?_, back, fullLater⟩
      rw [← split.1]
      rw [List.flatten_cons, front, List.filter_append, filter_eq_self_of_fits fits]

end Cuts

/-- Where a list is cut into packets, they are the parts of it, and each can be encoded. -/
theorem cuts_of_batches
    {entries : List GossipEntry}
    {packets : List Packet}
    (packed : codec.batches carrier maxSize entries = .ok packets) :
    ∃ parts, packets = parts.map carrier.wrap ∧ Cuts carrier (budget maxSize) entries parts ∧
      ∀ packet ∈ packets, codec.check packet = .ok () := by
  induction entries using batches.induct codec carrier maxSize generalizing packets with
  | case1 =>
    rw [batches] at packed
    cases packed
    exact ⟨[], rfl, .nil, by simp⟩
  | case2 entry rest cause failed =>
    rw [batches, failed] at packed
    cases packed
  | case3 entry rest counted step =>
    rw [batches, counted] at packed
    rcases step packed with ⟨parts, same, cuts, checked⟩
    exact ⟨parts, same, .drop (oversized_of_fit counted) cuts, checked⟩
  | case4 entry rest more counted step =>
    rcases (batches_cons_eq_ok_iff counted).1 packed with ⟨passes, others, later, rfl⟩
    rcases step later with ⟨parts, rfl, cuts, checked⟩
    have full := full_of_fit counted
    have whole : entry :: rest.take more ++ rest.drop more = entry :: rest := by simp
    refine ⟨(entry :: rest.take more) :: parts, rfl, ?_, ?_⟩
    · rw [← whole]
      exact .part (List.cons_ne_nil _ _) full.1 full.2 cuts
    · intro packet member
      rcases List.mem_cons.1 member with rfl | among
      · exact passes
      · exact checked packet among

/-! ## What is tried on the way -/

/-- What is left of a list when some entries of it have been dropped and some parts cut off. -/
inductive Leaves (carrier : Carrier) (room : Nat) :
    List GossipEntry → List GossipEntry → Prop where
  | whole
      {entries : List GossipEntry} :
      Leaves carrier room entries entries
  | dropped
      {entry : GossipEntry}
      {rest left : List GossipEntry}
      (oversized : room < carrier.size [entry])
      (leaves : Leaves carrier room rest left) :
      Leaves carrier room (entry :: rest) left
  | cut
      {part rest left : List GossipEntry}
      (some : part ≠ [])
      (fits : carrier.size part ≤ room)
      (full : ∀ next ∈ rest.head?, room < carrier.size (part ++ [next]))
      (leaves : Leaves carrier room rest left) :
      Leaves carrier room (part ++ rest) left

/-- A part that was counted is within the packer's limit, so only a frame can be too small for it. -/
theorem announced_of_check
    {entry : GossipEntry}
    {rest : List GossipEntry}
    {more : Nat}
    (counted : codec.fit carrier maxSize (entry :: rest) = .ok (more + 1))
    {cause : GossipError}
    (failed : codec.check (carrier.wrap (entry :: rest.take more)) = .error cause) :
    Frame.maxPayload < carrier.size (entry :: rest.take more) ∧
      cause = .signature (.payloadTooLarge (carrier.size (entry :: rest.take more))) := by
  have packed := (fitFrom_stops [] (entry :: rest) counted).2.resolve_left (Nat.succ_ne_zero more)
  rw [List.nil_append, List.take_succ_cons] at packed
  rw [check, Carrier.packedSize_eq_size, if_neg (Nat.not_lt.2 packed)] at failed
  split_ifs at failed with long
  · cases failed
    exact ⟨long, rfl⟩

/--
Where a list is not cut into packets, what is left of it at some point has a prefix that
exceeds the packer's limit behind one that fits, or its next part is more than a frame can
announce.
-/
theorem leaves_of_batches
    {entries : List GossipEntry}
    {cause : GossipError}
    (failed : codec.batches carrier maxSize entries = .error cause) :
    ∃ left, Leaves carrier (budget maxSize) entries left ∧
      ((∃ count, count < left.length ∧
          (count = 0 ∨ carrier.size (left.take count) ≤ min (budget maxSize) codec.limit) ∧
          codec.limit < carrier.size (left.take (count + 1)) ∧
          cause = .codec .overLimit) ∨
        ∃ part rest, left = part ++ rest ∧ part ≠ [] ∧
          carrier.size part ≤ budget maxSize ∧
          (∀ next ∈ rest.head?, budget maxSize < carrier.size (part ++ [next])) ∧
          Frame.maxPayload < carrier.size part ∧
          cause = .signature (.payloadTooLarge (carrier.size part))) := by
  induction entries using batches.induct codec carrier maxSize with
  | case1 =>
    rw [batches] at failed
    cases failed
  | case2 entry rest fault uncounted =>
    rw [batches, uncounted] at failed
    cases failed
    rcases fitFrom_fails [] (entry :: rest) uncounted with ⟨rfl, count, inside, fits, exceeds⟩
    exact ⟨_, .whole, Or.inl ⟨count, inside, fits, exceeds, rfl⟩⟩
  | case3 entry rest counted step =>
    rw [batches, counted] at failed
    rcases step failed with ⟨left, leaves, stopped⟩
    exact ⟨left, .dropped (oversized_of_fit counted) leaves, stopped⟩
  | case4 entry rest more counted step =>
    have full := full_of_fit counted
    have whole : entry :: rest = entry :: rest.take more ++ rest.drop more := by simp
    rcases (batches_cons_eq_error_iff counted).1 failed with fails | ⟨-, later⟩
    · have long := announced_of_check counted fails
      exact ⟨_, .whole, Or.inr ⟨_, _, whole, List.cons_ne_nil _ _, full.1, full.2, long⟩⟩
    · rcases step later with ⟨left, leaves, stopped⟩
      refine ⟨left, ?_, stopped⟩
      rw [whole]
      exact .cut (List.cons_ne_nil _ _) full.1 full.2 leaves

/-! ## What is sent -/

/-- The datagram of a part that fits keeps within its size and gives the packet back. -/
theorem decode_frame
    {part : List GossipEntry}
    (some : part ≠ [])
    (fits : carrier.size part ≤ budget maxSize)
    (checked : codec.check (carrier.wrap part) = .ok ())
    (bare : (carrier.wrap []).Packable)
    (known : ∀ entry ∈ part, entry.Packable)
    (salt : Salt) :
    let datagram := codec.signer.frame salt (carrier.wrap part).write
    datagram.length ≤ maxSize ∧ codec.decode datagram = .ok (carrier.wrap part) := by
  intro datagram
  have announced := size_le_of_check checked
  constructor
  · -- A part takes up some room, so the room was not cut off at zero.
    have taken : 0 < part.length := List.length_pos_iff.2 some
    have held := carrier.length_le_size part
    have length : datagram.length = Frame.overhead + carrier.size part := by
      rw [Signer.length_frame, Carrier.length_write_wrap]
    rw [budget] at fits
    omega
  · have read : Packet.read (carrier.wrap part).write = .ok (carrier.wrap part) :=
      Wire.codes_reader.runWhole_write (Carrier.packable_wrap bare known announced)
    have short : (carrier.wrap part).write.length ≤ Frame.maxPayload := by
      rw [Carrier.length_write_wrap]
      exact announced
    rw [decode, Signer.verify_frame short]
    dsimp only
    rw [read]

/-- Packets that can be encoded are, whatever the salts. -/
theorem exists_encodeAll
    {packets : List Packet}
    (checked : ∀ packet ∈ packets, codec.check packet = .ok ())
    {salts : List Salt}
    (enough : salts.length = packets.length) :
    ∃ datagrams, codec.encodeAll (salts.zip packets) = .ok datagrams ∧
      List.Forall₂ (fun packet datagram => ∃ salt, datagram = codec.signer.frame salt packet.write)
        packets datagrams := by
  induction packets generalizing salts with
  | nil =>
    rw [List.zip_nil_right]
    exact ⟨[], rfl, .nil⟩
  | cons packet rest step =>
    cases salts with
    | nil => cases enough
    | cons salt others =>
      rcases step (fun other among => checked other (List.mem_cons_of_mem packet among))
        (Nat.succ.inj enough) with ⟨datagrams, encoded, frames⟩
      refine ⟨codec.signer.frame salt packet.write :: datagrams, ?_, .cons ⟨salt, rfl⟩ frames⟩
      rw [List.zip_cons_cons, encodeAll, encode, checked packet List.mem_cons_self, encoded]
      rfl

/--
Cutting a list of entries loses and repeats nothing, under any limit of the packer and any size
of the datagrams.  Where it gives packets, these are the parts of the list in order: together
they are the list without the entries that exceed the room on their own; each takes entries, and
the next entry behind it in the list would exceed the room with it; and whatever the salts, their
datagrams are no longer than asked for and are decoded to the packets of the parts.

Where it gives an error, something is left of the list of which a packet was packed that exceeds
the packer's limit, its entries but the last fitting; or the next part of which is more than a
frame can announce.  And where entries are counted, the count is that of the longest prefix that
keeps within the room.
-/
theorem batches_are_exact
    (codec : Codec)
    (carrier : Carrier)
    (maxSize : Nat)
    (entries : List GossipEntry)
    (bare : (carrier.wrap []).Packable)
    (known : ∀ entry ∈ entries, entry.Packable) :
    let room := maxSize - Frame.overhead
    (∀ packets, codec.batches carrier maxSize entries = .ok packets →
      ∃ parts : List (List GossipEntry),
        packets = parts.map carrier.wrap ∧
        parts.flatten =
          entries.filter (fun entry => (carrier.wrap [entry]).write.length ≤ room) ∧
        (∀ earlier part later, parts = earlier ++ part :: later →
          part ≠ [] ∧ (carrier.wrap part).write.length ≤ room ∧
          ∃ before behind, entries = before ++ part ++ behind ∧
            earlier.flatten =
              before.filter (fun entry => (carrier.wrap [entry]).write.length ≤ room) ∧
            later.flatten =
              behind.filter (fun entry => (carrier.wrap [entry]).write.length ≤ room) ∧
            ∀ next ∈ behind.head?, room < (carrier.wrap (part ++ [next])).write.length) ∧
        ∀ salts : List Salt, salts.length = packets.length →
          ∃ datagrams, codec.encodeAll (salts.zip packets) = .ok datagrams ∧
            List.Forall₂ (fun part datagram =>
              datagram.length ≤ maxSize ∧ codec.decode datagram = .ok (carrier.wrap part))
              parts datagrams) ∧
    (∀ cause, codec.batches carrier maxSize entries = .error cause →
      ∃ left, Leaves carrier room entries left ∧
        ((∃ count, count < left.length ∧
            (count = 0 ∨ (carrier.wrap (left.take count)).write.length ≤ min room codec.limit) ∧
            codec.limit < (carrier.wrap (left.take (count + 1))).write.length ∧
            cause = .codec .overLimit) ∨
          ∃ part rest, left = part ++ rest ∧ part ≠ [] ∧
            (carrier.wrap part).write.length ≤ room ∧
            (∀ next ∈ rest.head?, room < (carrier.wrap (part ++ [next])).write.length) ∧
            Frame.maxPayload < (carrier.wrap part).write.length ∧
            cause = .signature (.payloadTooLarge (carrier.wrap part).write.length))) ∧
    (∀ count, codec.fit carrier maxSize entries = .ok count →
      count ≤ entries.length ∧
        ∀ some, 0 < some → some ≤ entries.length →
          ((carrier.wrap (entries.take some)).write.length ≤ room ↔ some ≤ count)) := by
  intro room
  simp only [Carrier.length_write_wrap]
  refine ⟨?_, ?_, ?_⟩
  · intro packets packed
    rcases cuts_of_batches packed with ⟨parts, rfl, cuts, checked⟩
    refine ⟨parts, rfl, cuts.flatten_eq_filter, fun _ _ _ => cuts.maximal, ?_⟩
    intro salts enough
    rcases exists_encodeAll checked enough with ⟨datagrams, encoded, frames⟩
    refine ⟨datagrams, encoded, ?_⟩
    rw [List.forall₂_map_left_iff] at frames
    have sound : ∀ part ∈ parts, part ≠ [] ∧ carrier.size part ≤ budget maxSize ∧
        codec.check (carrier.wrap part) = .ok () ∧ ∀ entry ∈ part, entry.Packable := by
      intro part member
      rcases List.append_of_mem member with ⟨earlier, later, split⟩
      rcases cuts.maximal split with ⟨some, fits, before, behind, rfl, -⟩
      exact ⟨some, fits, checked _ (List.mem_map_of_mem member),
        fun entry among => known entry (by simp [among])⟩
    refine List.Forall₂.imp ?_ ((List.forall₂_and_left _ _).2 ⟨sound, frames⟩)
    rintro part _ ⟨⟨some, fits, passes, inside⟩, salt, rfl⟩
    exact decode_frame some fits passes bare inside salt
  · intro cause failed
    exact leaves_of_batches failed
  · intro count counted
    exact ⟨(codec.fitFrom_within [] entries counted).1,
      fun _ positive inside => size_take_le_iff_of_fit counted positive inside⟩

/--
Of four entries, the third is too large for a datagram of 77 bytes, the first two fill one to
the last byte, and the last goes alone.  But a packer that is limited to 19 bytes fails the list
on the packet of the first two.
-/
theorem batches_are_exact_four :
    let member (name : String) : GossipEntry :=
      { name := { text := name }, clock := 7, status := .online, metadata := none }
    let carrier : Carrier := .gossip { text := "a:1" }
    let entries := [member "b:1", member "c:1", member "distant.example:1", member "e:1"]
    let packets := [carrier.wrap [member "b:1", member "c:1"], carrier.wrap [member "e:1"]]
    let codec : Codec := { signer := { mac := Hmac.mac [1] } }
    let narrow : Codec := { codec with limit := 19 }
    (codec.batches carrier 77 entries = .ok packets ∧
      ∃ parts, packets = parts.map carrier.wrap ∧
        parts.flatten = entries.filter (fun entry => (carrier.wrap [entry]).write.length ≤ 20) ∧
        ∀ salts : List Salt, salts.length = 2 →
          ∃ datagrams, codec.encodeAll (salts.zip packets) = .ok datagrams ∧
            List.Forall₂ (fun part datagram =>
              datagram.length ≤ 77 ∧ codec.decode datagram = .ok (carrier.wrap part))
              parts datagrams) ∧
    narrow.batches carrier 77 entries = .error (.codec .overLimit) ∧
      ∃ left count, Leaves carrier 20 entries left ∧
        19 < (carrier.wrap (left.take (count + 1))).write.length := by
  intro member carrier entries packets codec narrow
  have bare : (carrier.wrap []).Packable := by decide
  have known : ∀ entry ∈ entries, entry.Packable := by decide
  have first : codec.fit carrier 77 entries = .ok 2 := rfl
  have second : codec.fit carrier 77 [member "distant.example:1", member "e:1"] = .ok 0 := rfl
  have third : codec.fit carrier 77 [member "e:1"] = .ok 1 := rfl
  have failed : narrow.fit carrier 77 entries = .error .overLimit := rfl
  have last : codec.batches carrier 77 [member "e:1"] = .ok [carrier.wrap [member "e:1"]] := by
    rw [batches, third]
    dsimp only
    rw [List.drop_nil, batches]
    rfl
  have skipped : codec.batches carrier 77 [member "distant.example:1", member "e:1"] =
      .ok [carrier.wrap [member "e:1"]] := by
    rw [batches, second]
    exact last
  have packed : codec.batches carrier 77 entries = .ok packets := by
    dsimp only [entries] at first ⊢
    rw [batches, first]
    simp only [List.drop_succ_cons, List.drop_zero, skipped]
    rfl
  have stopped : narrow.batches carrier 77 entries = .error (.codec .overLimit) := by
    dsimp only [entries] at failed ⊢
    rw [batches, failed]
  refine ⟨⟨packed, ?_⟩, stopped, ?_⟩
  · rcases (batches_are_exact codec carrier 77 entries bare known).1 packets packed with
      ⟨parts, same, whole, -, sent⟩
    exact ⟨parts, same, whole, sent⟩
  · rcases (batches_are_exact narrow carrier 77 entries bare known).2.1 _ stopped with
      ⟨left, leaves, ⟨count, -, -, exceeds, -⟩ | ⟨_, _, _, _, _, _, _, other⟩⟩
    · exact ⟨left, count, leaves, exceeds⟩
    · cases other

end Codec

end ClusterMembership
