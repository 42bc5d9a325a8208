import ClusterMembership.Proofs.Codec.Fitting
import ClusterMembership.Simulation.Node

/-!
# Dissemination in datagrams

A list of entries is cut into packets from the front, each with as many entries as fit.
Where this gives an answer, the answer is right: the packets fit their datagrams, and
together they carry every entry that fits a datagram on its own, once and in order.

But there need not be an answer.  `Codec.Clear` follows the cuts and says when there is
one: at every cut, the next entry must not overshoot the packer's limit.  An entry that
does so fails the whole list, although it should be dropped, or might be carried by the
next datagram.
-/

namespace ClusterMembership

namespace Codec

variable (codec : Codec) (carrier : Carrier) (maxSize : Nat)

/-- Every cut of a list into packets goes through. -/
inductive Clear : List GossipEntry → Prop where
  | nil : Clear []
  | cut
      {entry : GossipEntry}
      {rest : List GossipEntry}
      (smooth : codec.Smooth carrier maxSize (entry :: rest))
      (clear : Clear (rest.drop (codec.greatest carrier maxSize (entry :: rest) - 1))) :
      Clear (entry :: rest)

/-- Packets that fit their datagrams and carry the entries that can be carried. -/
structure Delivers (entries : List GossipEntry) (packets : List Packet) : Prop where
  fits : ∀ packet ∈ packets, codec.FitsDatagram maxSize packet
  wrapped : ∀ packet ∈ packets, ∃ part : List GossipEntry, packet = carrier.wrap part
  complete : packets.flatMap Packet.entries =
    entries.filter fun entry => codec.FitsDatagram maxSize (carrier.wrap [entry])

variable {codec carrier maxSize}

theorem delivers_nil : codec.Delivers carrier maxSize [] [] := by
  refine ⟨?_, ?_, rfl⟩
  · intro packet member
    cases member
  · intro packet member
    cases member

/-- An entry that does not fit a datagram on its own is dropped. -/
theorem Delivers.drop
    {entry : GossipEntry}
    {rest : List GossipEntry}
    {packets : List Packet}
    (delivers : codec.Delivers carrier maxSize rest packets)
    (oversized : ¬codec.FitsDatagram maxSize (carrier.wrap [entry])) :
    codec.Delivers carrier maxSize (entry :: rest) packets := by
  refine ⟨delivers.fits, delivers.wrapped, ?_⟩
  rw [List.filter_cons_of_neg (by simpa using oversized)]
  exact delivers.complete

/-- A packet that fits carries entries that each fit on their own. -/
theorem Delivers.append
    {part rest : List GossipEntry}
    {packets : List Packet}
    (delivers : codec.Delivers carrier maxSize rest packets)
    (fits : codec.FitsDatagram maxSize (carrier.wrap part)) :
    codec.Delivers carrier maxSize (part ++ rest) (carrier.wrap part :: packets) := by
  constructor
  · intro packet member
    rcases List.mem_cons.1 member with rfl | later
    · exact fits
    · exact delivers.fits packet later
  · intro packet member
    rcases List.mem_cons.1 member with rfl | later
    · exact ⟨part, rfl⟩
    · exact delivers.wrapped packet later
  · have alone : ∀ entry ∈ part, codec.FitsDatagram maxSize (carrier.wrap [entry]) :=
      fun entry member => fits.of_sublist (List.singleton_sublist.2 member)
    rw [List.flatMap_cons, Carrier.entries_wrap, delivers.complete, List.filter_append,
      List.filter_eq_self.2 fun entry member => decide_eq_true (alone entry member)]

/-- A packet that passes the check is within what a frame can announce. -/
theorem size_le_of_check
    {entries : List GossipEntry}
    (checked : codec.check (carrier.wrap entries) = .ok ()) :
    carrier.size entries ≤ Frame.maxPayload := by
  rw [check] at checked
  rw [Carrier.packedSize_eq_size] at checked
  split_ifs at checked with exceeded long
  exact Nat.le_of_not_lt long

theorem FitsDatagram.check_eq_ok
    {packet : Packet}
    (fits : codec.FitsDatagram maxSize packet) :
    codec.check packet = .ok () := by
  rcases (codec.fitsDatagram_iff maxSize packet).1 fits with ⟨packed, announced, -⟩
  rw [check]
  rw [if_neg (Nat.not_lt.2 packed), if_neg (Nat.not_lt.2 announced)]

/-! ## Cutting off a part -/

section Part

variable
    {entry : GossipEntry}
    {rest : List GossipEntry}
    {more : Nat}
    (counted : codec.fit carrier maxSize (entry :: rest) = .ok (more + 1))

include counted

/-- Cutting goes through where the part can be encoded and the rest goes through. -/
theorem batches_cons_eq_ok_iff {packets : List Packet} :
    codec.batches carrier maxSize (entry :: rest) = .ok packets ↔
      codec.check (carrier.wrap (entry :: rest.take more)) = .ok () ∧
        ∃ others, codec.batches carrier maxSize (rest.drop more) = .ok others ∧
          packets = carrier.wrap (entry :: rest.take more) :: others := by
  rw [batches, counted]
  dsimp only
  cases codec.check (carrier.wrap (entry :: rest.take more)) with
  | error cause =>
    constructor
    · intro packed
      cases packed
    · rintro ⟨passes, -⟩
      cases passes
  | ok passed =>
    cases codec.batches carrier maxSize (rest.drop more) with
    | error cause =>
      constructor
      · intro packed
        cases packed
      · rintro ⟨-, others, later, -⟩
        cases later
    | ok others =>
      constructor
      · intro packed
        cases packed
        exact ⟨rfl, others, rfl, rfl⟩
      · rintro ⟨-, found, later, rfl⟩
        cases later
        rfl

theorem batches_cons_eq_error_iff {cause : GossipError} :
    codec.batches carrier maxSize (entry :: rest) = .error cause ↔
      codec.check (carrier.wrap (entry :: rest.take more)) = .error cause ∨
        codec.check (carrier.wrap (entry :: rest.take more)) = .ok () ∧
          codec.batches carrier maxSize (rest.drop more) = .error cause := by
  rw [batches, counted]
  dsimp only
  cases codec.check (carrier.wrap (entry :: rest.take more)) with
  | error other =>
    constructor
    · intro failed
      cases failed
      exact Or.inl rfl
    · rintro (same | ⟨passes, -⟩)
      · cases same
        rfl
      · cases passes
  | ok passed =>
    cases codec.batches carrier maxSize (rest.drop more) with
    | error other =>
      constructor
      · intro failed
        cases failed
        exact Or.inr ⟨rfl, rfl⟩
      · rintro (fails | ⟨-, same⟩)
        · cases fails
        · cases same
          rfl
    | ok others =>
      constructor
      · intro failed
        cases failed
      · rintro (fails | ⟨-, later⟩)
        · cases fails
        · cases later

end Part

section Batches

variable (bounded : budget maxSize ≤ codec.limit) (roomy : Frame.overhead ≤ maxSize)

include bounded roomy

/-- Where cutting a list gives packets, every cut went through, and the packets are right. -/
theorem clear_and_delivers_of_batches
    {entries : List GossipEntry}
    {packets : List Packet}
    (packed : codec.batches carrier maxSize entries = .ok packets) :
    codec.Clear carrier maxSize entries ∧ codec.Delivers carrier maxSize entries packets := by
  induction entries using batches.induct codec carrier maxSize generalizing packets with
  | case1 =>
    rw [batches] at packed
    cases packed
    exact ⟨.nil, delivers_nil⟩
  | case2 entry rest cause failed =>
    rw [batches, failed] at packed
    cases packed
  | case3 entry rest counted step =>
    rw [batches, counted] at packed
    rcases step packed with ⟨clear, delivers⟩
    have none := greatest_eq_of_fit bounded roomy counted (Or.inl rfl)
    refine ⟨.cut ?_ ?_, delivers.drop ?_⟩
    · rw [← fit_eq_greatest_iff bounded, none]
      exact counted
    · rw [none]
      exact clear
    · have beyond : codec.greatest carrier maxSize (entry :: rest) < 1 := by
        rw [none]
        exact Nat.one_pos
      have oversized := not_fitsDatagram_of_greatest_lt beyond (Nat.succ_pos rest.length)
      rwa [List.take_succ_cons, List.take_zero] at oversized
  | case4 entry rest more counted step =>
    rcases (batches_cons_eq_ok_iff counted).1 packed with ⟨checked, others, later, rfl⟩
    rcases step later with ⟨clear, delivers⟩
    have whole := greatest_eq_of_fit bounded roomy counted (Or.inr (size_le_of_check checked))
    have fits := fitsDatagram_greatest whole (Nat.succ_ne_zero more)
    rw [List.take_succ_cons] at fits
    refine ⟨.cut ?_ ?_, ?_⟩
    · rw [← fit_eq_greatest_iff bounded, whole]
      exact counted
    · rw [whole]
      exact clear
    · have parts := delivers.append fits
      rw [List.cons_append, List.take_append_drop] at parts
      exact parts

omit roomy in
/-- Where every cut goes through, cutting a list gives packets. -/
theorem exists_batches_of_clear
    {entries : List GossipEntry}
    (clear : codec.Clear carrier maxSize entries) :
    ∃ packets : List Packet, codec.batches carrier maxSize entries = .ok packets := by
  induction clear with
  | nil =>
    rw [batches]
    exact ⟨[], rfl⟩
  | @cut entry rest smooth clear step =>
    have counted := (fit_eq_greatest_iff bounded (entry :: rest)).2 smooth
    rcases step with ⟨others, later⟩
    cases whole : codec.greatest carrier maxSize (entry :: rest) with
    | zero =>
      rw [whole] at counted later
      rw [batches, counted]
      exact ⟨others, later⟩
    | succ more =>
      have fits := fitsDatagram_greatest whole (Nat.succ_ne_zero more)
      rw [List.take_succ_cons] at fits
      rw [whole] at counted later
      rw [Nat.add_sub_cancel] at later
      exact ⟨_, (batches_cons_eq_ok_iff counted).2 ⟨fits.check_eq_ok, others, later, rfl⟩⟩

omit roomy in
/-- A list that fits one datagram is sent in one. -/
theorem batches_of_fits
    {entries : List GossipEntry}
    (some : entries ≠ [])
    (fits : codec.FitsDatagram maxSize (carrier.wrap entries)) :
    codec.batches carrier maxSize entries = .ok [carrier.wrap entries] := by
  match entries with
  | [] => exact absurd rfl some
  | entry :: rest =>
    have counted : codec.fit carrier maxSize (entry :: rest) = .ok (rest.length + 1) := by
      rw [fit_eq_ok_iff maxSize bounded]
      refine ⟨Nat.le_refl _, Or.inr ?_, Or.inl rfl⟩
      rw [← List.length_cons, List.take_length]
      exact fits.size_le_budget
    rw [batches, counted]
    dsimp only
    rw [List.take_length, fits.check_eq_ok, List.drop_length, batches]
    rfl

end Batches

/-! ## Small entries -/

/-- The next entry, if it is small, overshoots the room of a datagram by less than a frame. -/
theorem smooth_of_small
    (limit : codec.limit = maxSize)
    (announced : budget maxSize ≤ Frame.maxPayload)
    (empty : codec.FitsDatagram maxSize (carrier.wrap []))
    {entries : List GossipEntry}
    (small : ∀ entry ∈ entries, Wire.entrySize entry + 2 ≤ Frame.overhead) :
    codec.Smooth carrier maxSize entries := by
  have inside : codec.greatest carrier maxSize entries ≤ entries.length :=
    Nat.findGreatest_le entries.length
  have fits : codec.FitsDatagram maxSize
      (carrier.wrap (entries.take (codec.greatest carrier maxSize entries))) := by
    by_cases none : codec.greatest carrier maxSize entries = 0
    · rw [none, List.take_zero]
      exact empty
    · exact fitsDatagram_greatest rfl none
  rcases Nat.eq_or_lt_of_le inside with whole | more
  · exact Or.inl whole
  · right
    have room := fits.size_le_budget
    have overshoots := not_fitsDatagram_of_greatest_lt (Nat.lt_succ_self _) more
    have grown := @size_take_succ_le carrier _ _ more (Nat.le_trans room announced)
    have short := small _ (List.getElem_mem more)
    rw [fitsDatagram_iff, Carrier.packedSize_eq_size] at fits overshoots
    unfold budget at room announced ⊢
    rw [Nat.succ_eq_add_one] at overshoots
    omega

/-- A list of small entries is cut into datagrams without a failure. -/
theorem clear_of_small
    (limit : codec.limit = maxSize)
    (announced : budget maxSize ≤ Frame.maxPayload)
    (empty : codec.FitsDatagram maxSize (carrier.wrap []))
    (entries : List GossipEntry)
    (small : ∀ entry ∈ entries, Wire.entrySize entry + 2 ≤ Frame.overhead) :
    codec.Clear carrier maxSize entries := by
  match entries with
  | [] => exact .nil
  | entry :: rest =>
    refine .cut (smooth_of_small limit announced empty small) ?_
    refine clear_of_small limit announced empty _ fun other member => ?_
    exact small other (List.mem_cons_of_mem entry (List.mem_of_mem_drop member))
termination_by entries.length
decreasing_by
  simp only [List.length_cons, List.length_drop]
  omega

/-! ## The codec of a node -/

/-- A node packs within its datagram size, which leaves room for a frame. -/
theorem limit_of_built
    {settings : Settings}
    {version : UInt8}
    {codec : Codec}
    (built : settings.codec { version } = .ok codec) :
    codec.limit = settings.protocol.maxPacketSize ∧
      ProtocolSettings.leastPacketSize ≤ settings.protocol.maxPacketSize := by
  rw [Settings.codec] at built
  split at built
  · cases built
  · rename_i checked
    have accepted : settings.protocol.check = .ok () := by
      rw [Settings.check] at checked
      cases node : settings.node.check with
      | error cause =>
        rw [node] at checked
        cases checked
      | ok _ =>
        cases protocol : settings.protocol.check with
        | error cause =>
          rw [node, protocol] at checked
          cases checked
        | ok _ => rfl
    constructor
    · split at built
      · cases built
      · rename_i secret _
        cases signed : Signer.ofSecret (Bytes.ofText secret) with
        | error cause =>
          rw [signed] at built
          cases built
        | ok signer =>
          rw [signed] at built
          cases built
          rfl
    · rw [ProtocolSettings.check] at accepted
      split at accepted
      · cases accepted
      · split_ifs at accepted with _ _ _ small
        exact Nat.le_of_not_lt small

/--
With the codec of a node whose settings are accepted, counting the entries that fit gives
the greatest count exactly when the list is smooth, and then pings and acks carry just
those entries.  Cutting a list into datagrams succeeds exactly when every cut is clear,
and then the datagrams carry every entry that fits on its own, once and in order.
-/
theorem dissemination_succeeds_iff
    {settings : Settings}
    {version : UInt8}
    {codec : Codec}
    (built : settings.codec { version } = .ok codec)
    (carrier : Carrier)
    (entries : List GossipEntry) :
    let maxSize := settings.protocol.maxPacketSize
    (codec.fit carrier maxSize entries = .ok (codec.greatest carrier maxSize entries) ↔
      codec.Smooth carrier maxSize entries) ∧
    (codec.Smooth carrier maxSize entries →
      codec.fitted carrier maxSize entries =
        carrier.wrap (entries.take (codec.greatest carrier maxSize entries))) ∧
    ((∃ packets, codec.batches carrier maxSize entries = .ok packets) ↔
      codec.Clear carrier maxSize entries) ∧
    (∀ packets, codec.batches carrier maxSize entries = .ok packets →
      codec.Delivers carrier maxSize entries packets) := by
  intro maxSize
  have limit := limit_of_built built
  have bounded : budget maxSize ≤ codec.limit := by
    rw [limit.1]
    exact Nat.sub_le _ _
  have roomy : Frame.overhead ≤ maxSize := Nat.le_trans (by decide) limit.2
  have greatest : codec.fit carrier maxSize entries = .ok (codec.greatest carrier maxSize entries) ↔
      codec.Smooth carrier maxSize entries := fit_eq_greatest_iff bounded entries
  refine ⟨greatest, ?_, ⟨?_, ?_⟩, ?_⟩
  · intro smooth
    rw [fitted, greatest.2 smooth]
  · rintro ⟨packets, packed⟩
    exact (clear_and_delivers_of_batches bounded roomy packed).1
  · exact exists_batches_of_clear bounded
  · intro packets packed
    exact (clear_and_delivers_of_batches bounded roomy packed).2

/-- Settings with the smallest datagrams that are accepted. -/
def narrowSettings : Settings where
  node := { name := { text := "10.0.0.1:7946" }, secret := some "ssssssssssssss" }
  protocol := { maxPacketSize := 256 }

/-- The codec of a node with these settings. -/
def narrowCodec : Codec where
  limit := 256
  signer := { mac := Hmac.mac (Bytes.ofText "ssssssssssssss") }

/-- Gossip of such a node. -/
def narrowGossip : Carrier := .gossip narrowSettings.node.name

/-- An online member with metadata of 110 bytes. -/
def bulkyEntry (name : String) (clock : Nat) : GossipEntry where
  name := { text := name }
  clock := clock
  status := .online
  metadata := some { clock, payload := some (List.replicate 110 120) }

/-- Two entries that each fill a datagram. -/
def bulkyPair : List GossipEntry :=
  [bulkyEntry "10.0.0.2:7946" 1, bulkyEntry "10.0.0.3:7946" 2]

theorem codec_narrowSettings : narrowSettings.codec {} = .ok narrowCodec := by
  rfl

theorem fit_bulkyPair : narrowCodec.fit narrowGossip 256 bulkyPair = .error .overLimit := by
  decide

/--
Two entries that each fit a datagram of their own, the first of them as the greatest part
of the list that fits, are neither counted nor sent: the second one fails the list.
-/
theorem batches_bulkyPair :
    narrowSettings.codec {} = .ok narrowCodec ∧
    (∀ entry ∈ bulkyPair, narrowCodec.FitsDatagram 256 (narrowGossip.wrap [entry])) ∧
    narrowCodec.greatest narrowGossip 256 bulkyPair = 1 ∧
    narrowCodec.fit narrowGossip 256 bulkyPair = .error .overLimit ∧
    narrowCodec.batches narrowGossip 256 bulkyPair = .error (.codec .overLimit) := by
  have failed := fit_bulkyPair
  refine ⟨codec_narrowSettings, ?_, ?_, failed, ?_⟩
  · decide +kernel
  · decide +kernel
  · rw [bulkyPair] at failed ⊢
    rw [batches, failed]

/-- The list of two is neither smooth nor clear, and so the node sends nothing of it. -/
theorem not_clear_bulkyPair :
    narrowSettings.codec {} = .ok narrowCodec ∧
    ¬narrowCodec.Smooth narrowGossip 256 bulkyPair ∧
    ¬narrowCodec.Clear narrowGossip 256 bulkyPair := by
  have general := dissemination_succeeds_iff codec_narrowSettings narrowGossip bulkyPair
  have failed := fit_bulkyPair
  refine ⟨codec_narrowSettings, ?_, ?_⟩
  · intro smooth
    have counted := general.1.2 smooth
    rw [show narrowSettings.protocol.maxPacketSize = 256 from rfl, failed] at counted
    cases counted
  · intro clear
    rcases general.2.2.1.2 clear with ⟨packets, packed⟩
    rw [show narrowSettings.protocol.maxPacketSize = 256 from rfl, bulkyPair, batches] at packed
    rw [bulkyPair] at failed
    rw [failed] at packed
    cases packed

end Codec

end ClusterMembership
