import ClusterMembership.Codec
import Mathlib.Data.Nat.Find
import Mathlib.Tactic.SplitIfs

/-!
# How many entries fit a datagram

A packet fits a datagram when its encoding succeeds and is not longer than the datagram.
Three limits decide about that, but only two of them are looked at when entries are
counted: the packer's limit and the room that the frame leaves.

`fit_eq_ok_iff` says which count is the answer.  It is the greatest count whose packet
fits exactly when the next entry overshoots the room without overshooting the packer's
limit, which is `Codec.Smooth`.  Otherwise the count fails, or goes past what a frame can
announce.
-/

namespace ClusterMembership

/-! ## Sizes grow with the entries -/

namespace Wire

theorem natSize_le_natSize {less more : Nat} (ordered : less ≤ more) :
    natSize less ≤ natSize more := by
  have fourBytes : Bytes.capacity 4 = 4294967296 := by decide
  have twoBytes : Bytes.capacity 2 = 65536 := by decide
  unfold natSize
  rw [fourBytes, twoBytes]
  split_ifs <;> omega

/-- Below what four bytes are needed for, the next number takes at most two bytes more. -/
theorem natSize_succ_le {value : Nat} (small : value + 1 < 65536) :
    natSize (value + 1) ≤ natSize value + 2 := by
  have twoBytes : Bytes.capacity 2 = 65536 := by decide
  unfold natSize
  rw [twoBytes]
  split_ifs <;> omega

theorem entrySize_pos (entry : GossipEntry) : 0 < entrySize entry := by
  have clock : 0 < natSize entry.clock := by
    rw [natSize]
    split_ifs <;> omega
  rw [entrySize]
  omega

theorem bodySize_append
    {α : Type}
    (size : α → Nat)
    (first second : List α) :
    bodySize size (first ++ second) = bodySize size first + bodySize size second := by
  induction first with
  | nil => simp [bodySize]
  | cons value rest step =>
    rw [List.cons_append, bodySize, bodySize, step]
    omega

theorem bodySize_le_of_sublist
    {α : Type}
    (size : α → Nat)
    {part whole : List α}
    (sublist : part.Sublist whole) :
    bodySize size part ≤ bodySize size whole := by
  induction sublist with
  | slnil => exact Nat.le_refl _
  | cons value _ step => exact Nat.le_trans step (Nat.le_add_left _ _)
  | cons_cons value _ step => exact Nat.add_le_add_left step _

theorem length_le_bodySize (entries : List GossipEntry) :
    entries.length ≤ bodySize entrySize entries := by
  induction entries with
  | nil => exact Nat.le_refl 0
  | cons entry rest step =>
    have counts := entrySize_pos entry
    rw [List.length_cons, bodySize]
    omega

end Wire

namespace Carrier

/-- The packed size around a list of entries. -/
def size (carrier : Carrier) (entries : List GossipEntry) : Nat :=
  carrier.sizeWith entries.length (Wire.bodySize Wire.entrySize entries)

theorem packedSize_eq_size (carrier : Carrier) (entries : List GossipEntry) :
    (carrier.wrap entries).packedSize = carrier.size entries :=
  carrier.packedSize_wrap entries

/-- Leaving entries out makes no packet larger. -/
theorem size_le_of_sublist
    (carrier : Carrier)
    {part whole : List GossipEntry}
    (sublist : part.Sublist whole) :
    carrier.size part ≤ carrier.size whole := by
  have bodies := Wire.bodySize_le_of_sublist Wire.entrySize sublist
  have counts := Wire.natSize_le_natSize sublist.length_le
  unfold size sizeWith
  omega

/-- The size around one entry more, from the sizes that are kept while counting. -/
theorem sizeWith_succ
    (carrier : Carrier)
    (taken : List GossipEntry)
    (entry : GossipEntry) :
    carrier.sizeWith (taken.length + 1)
        (Wire.bodySize Wire.entrySize taken + Wire.entrySize entry) =
      carrier.size (taken ++ [entry]) := by
  simp [size, Wire.bodySize_append, Wire.bodySize]

theorem size_take_le
    (carrier : Carrier)
    (entries : List GossipEntry)
    {less more : Nat}
    (ordered : less ≤ more) :
    carrier.size (entries.take less) ≤ carrier.size (entries.take more) :=
  carrier.size_le_of_sublist (List.take_sublist_take_left ordered)

end Carrier

namespace Codec

variable (codec : Codec) (carrier : Carrier) (maxSize : Nat)

/-! ## Fitting a datagram -/

/-- A packet whose signed datagram is not longer than `maxSize` bytes, whatever the salt. -/
def FitsDatagram (packet : Packet) : Prop :=
  ∀ salt : Salt, ∃ datagram : Bytes,
    codec.encode salt packet = .ok datagram ∧ datagram.length ≤ maxSize

/-- A packet fits when it is within all three limits. -/
theorem fitsDatagram_iff (packet : Packet) :
    codec.FitsDatagram maxSize packet ↔
      packet.packedSize ≤ codec.limit ∧ packet.packedSize ≤ Frame.maxPayload ∧
        Frame.overhead + packet.packedSize ≤ maxSize := by
  have salt : Salt := { bytes := List.replicate 16 0 }
  constructor
  · intro fits
    rcases fits salt with ⟨datagram, encoded, short⟩
    rw [encode, check] at encoded
    split at encoded
    · cases encoded
    · split at encoded
      · cases encoded
      · cases encoded
        rw [Signer.length_frame, Packet.length_write] at short
        exact ⟨by omega, by omega, short⟩
  · rintro ⟨packed, announced, short⟩ salt
    refine ⟨codec.signer.frame salt packet.write, ?_, ?_⟩
    · rw [encode, check]
      rw [if_neg (Nat.not_lt.2 packed), if_neg (Nat.not_lt.2 announced)]
      rfl
    · rw [Signer.length_frame, Packet.length_write]
      exact short

instance (packet : Packet) : Decidable (codec.FitsDatagram maxSize packet) :=
  decidable_of_iff _ (codec.fitsDatagram_iff maxSize packet).symm

/-- Leaving entries out keeps a packet within its datagram. -/
theorem FitsDatagram.of_sublist
    {codec : Codec}
    {carrier : Carrier}
    {maxSize : Nat}
    {part whole : List GossipEntry}
    (fits : codec.FitsDatagram maxSize (carrier.wrap whole))
    (sublist : part.Sublist whole) :
    codec.FitsDatagram maxSize (carrier.wrap part) := by
  have smaller := carrier.size_le_of_sublist sublist
  rw [fitsDatagram_iff, Carrier.packedSize_eq_size] at fits ⊢
  omega

/-! ## Counting the entries that fit -/

variable {codec carrier}

/-- Entries that keep within the room are counted, one after the other. -/
theorem fitFrom_append
    {room : Nat}
    (bounded : room ≤ codec.limit)
    (taken part rest : List GossipEntry)
    (fits : part = [] ∨ carrier.size (taken ++ part) ≤ room) :
    codec.fitFrom carrier room (part ++ rest) taken.length
        (Wire.bodySize Wire.entrySize taken) =
      codec.fitFrom carrier room rest (taken ++ part).length
        (Wire.bodySize Wire.entrySize (taken ++ part)) := by
  induction part generalizing taken with
  | nil => rw [List.nil_append, List.append_nil]
  | cons entry part step =>
    have fitsAll : carrier.size (taken ++ entry :: part) ≤ room := fits.resolve_left (by simp)
    have next : carrier.size (taken ++ [entry]) ≤ room := by
      refine Nat.le_trans (carrier.size_le_of_sublist ?_) fitsAll
      exact List.Sublist.append_left (List.singleton_sublist.2 List.mem_cons_self) taken
    have counted := step (taken ++ [entry]) (by simpa using Or.inr fitsAll)
    rw [List.cons_append, fitFrom]
    rw [Carrier.sizeWith_succ]
    rw [if_neg (by omega), if_neg (by omega)]
    simpa [Wire.bodySize_append, Wire.bodySize] using counted

/-- The count of a list is what is counted after a part that keeps within the room. -/
theorem fit_eq_fitFrom_drop
    (bounded : budget maxSize ≤ codec.limit)
    (entries : List GossipEntry)
    {count : Nat}
    (inside : count ≤ entries.length)
    (fits : count = 0 ∨ carrier.size (entries.take count) ≤ budget maxSize) :
    codec.fit carrier maxSize entries =
      codec.fitFrom carrier (budget maxSize) (entries.drop count) count
        (Wire.bodySize Wire.entrySize (entries.take count)) := by
  have part : entries.take count = [] ∨
      carrier.size ([] ++ entries.take count) ≤ budget maxSize := by
    rcases fits with rfl | within
    · exact Or.inl rfl
    · exact Or.inr within
  have counted := fitFrom_append bounded [] (entries.take count) (entries.drop count) part
  rw [List.take_append_drop, List.nil_append, List.length_take, Nat.min_eq_left inside] at counted
  exact counted

theorem le_of_fitFrom_eq_ok
    {room count body answer : Nat}
    {entries : List GossipEntry}
    (counted : codec.fitFrom carrier room entries count body = .ok answer) :
    count ≤ answer := by
  induction entries generalizing count body with
  | nil =>
    cases counted
    exact Nat.le_refl _
  | cons entry rest step =>
    rw [fitFrom] at counted
    split at counted
    · cases counted
    · split at counted
      · cases counted
        exact Nat.le_refl _
      · exact Nat.le_of_succ_le (step counted)

/-- What was counted is there, and keeps within the room. -/
theorem fitFrom_within
    {room answer : Nat}
    (taken entries : List GossipEntry)
    (counted : codec.fitFrom carrier room entries taken.length
      (Wire.bodySize Wire.entrySize taken) = .ok answer) :
    answer ≤ (taken ++ entries).length ∧
      (answer = taken.length ∨ carrier.size ((taken ++ entries).take answer) ≤ room) := by
  induction entries generalizing taken with
  | nil =>
    cases counted
    exact ⟨by simp, Or.inl rfl⟩
  | cons entry rest step =>
    rw [fitFrom] at counted
    rw [Carrier.sizeWith_succ] at counted
    split_ifs at counted with exceeded overshoots
    · cases counted
      exact ⟨by simp, Or.inl rfl⟩
    · have within := step (taken ++ [entry]) (by simpa [Wire.bodySize_append, Wire.bodySize]
        using counted)
      rw [List.append_assoc, List.singleton_append] at within
      refine ⟨within.1, Or.inr ?_⟩
      rcases within.2 with here | fits
      · have part : (taken ++ entry :: rest).take answer = taken ++ [entry] := by
          rw [here, List.length_append, List.length_singleton, List.take_length_add_append]
          rfl
        rw [part]
        exact Nat.le_of_not_lt overshoots
      · exact fits

/-- A packet without entries aside, what is fitted keeps within the room. -/
theorem admits_fitted
    (bounded : budget maxSize ≤ codec.limit)
    (announced : budget maxSize ≤ Frame.maxPayload)
    (bare : codec.admits (carrier.wrap []))
    (entries : List GossipEntry) :
    codec.admits (codec.fitted carrier maxSize entries) := by
  rw [fitted]
  cases counted : codec.fit carrier maxSize entries with
  | error cause => exact bare
  | ok count =>
    rcases (codec.fitFrom_within [] entries counted).2 with none | fits
    · subst none
      exact bare
    · rw [List.nil_append] at fits
      simp only [admits, Carrier.packedSize_eq_size, decide_eq_true_eq]
      exact ⟨Nat.le_trans fits bounded, Nat.le_trans fits announced⟩

/-- Where a list goes on, the size around one entry more is that of the next longer part. -/
theorem sizeWith_drop
    {entries rest : List GossipEntry}
    {entry : GossipEntry}
    {count : Nat}
    (next : entries.drop count = entry :: rest) :
    carrier.sizeWith (count + 1)
        (Wire.bodySize Wire.entrySize (entries.take count) + Wire.entrySize entry) =
      carrier.size (entries.take (count + 1)) := by
  have inside : count < entries.length := by
    rw [← List.drop_eq_nil_iff.not.trans Nat.not_le, next]
    exact List.cons_ne_nil _ _
  have found : entries[count] = entry := by
    have head := congrArg List.head? next
    simpa [List.head?_drop, inside] using head
  have grown := carrier.sizeWith_succ (entries.take count) entry
  rw [List.length_take, Nat.min_eq_left (Nat.le_of_lt inside)] at grown
  rw [List.take_succ_eq_append_getElem inside, found]
  exact grown

/-- As long as a frame can announce it, a packet grows by its next entry and two bytes at most. -/
theorem size_take_succ_le
    {entries : List GossipEntry}
    {count : Nat}
    (inside : count < entries.length)
    (announced : carrier.size (entries.take count) ≤ Frame.maxPayload) :
    carrier.size (entries.take (count + 1)) ≤
      carrier.size (entries.take count) + Wire.entrySize entries[count] + 2 := by
  have length : (entries.take count).length = count := by
    rw [List.length_take, Nat.min_eq_left (Nat.le_of_lt inside)]
  have next := @sizeWith_drop carrier _ _ _ _ (List.drop_eq_getElem_cons inside)
  have counted := Wire.length_le_bodySize (entries.take count)
  have fixed : 0 < carrier.fixedSize := by
    cases carrier <;> simp only [Carrier.fixedSize] <;> omega
  have small : count + 1 < 65536 := by
    rw [Carrier.size, Carrier.sizeWith, Frame.maxPayload] at announced
    omega
  have digits := Wire.natSize_succ_le small
  rw [← next]
  unfold Carrier.size Carrier.sizeWith
  rw [length]
  omega

/--
Entries are counted up to a count exactly when those keep within the room, and the next
one, if there is one, overshoots the room but not the packer's limit.
-/
theorem fit_eq_ok_iff
    (bounded : budget maxSize ≤ codec.limit)
    (entries : List GossipEntry)
    (count : Nat) :
    codec.fit carrier maxSize entries = .ok count ↔
      count ≤ entries.length ∧
      (count = 0 ∨ carrier.size (entries.take count) ≤ budget maxSize) ∧
      (count = entries.length ∨
        budget maxSize < carrier.size (entries.take (count + 1)) ∧
          carrier.size (entries.take (count + 1)) ≤ codec.limit) := by
  constructor
  · intro counted
    have within := fitFrom_within [] entries counted
    rw [List.nil_append] at within
    refine ⟨within.1, within.2, ?_⟩
    rw [fit_eq_fitFrom_drop maxSize bounded entries within.1 within.2] at counted
    cases next : entries.drop count with
    | nil =>
      have reached := List.drop_eq_nil_iff.1 next
      exact Or.inl (Nat.le_antisymm within.1 reached)
    | cons entry rest =>
      rw [next, fitFrom] at counted
      simp only [sizeWith_drop next] at counted
      split_ifs at counted with exceeded overshoots
      · exact Or.inr ⟨overshoots, Nat.le_of_not_lt exceeded⟩
      · exact absurd (le_of_fitFrom_eq_ok counted) (Nat.not_succ_le_self count)
  · rintro ⟨inside, fits, stops⟩
    rw [fit_eq_fitFrom_drop maxSize bounded entries inside fits]
    cases next : entries.drop count with
    | nil => rfl
    | cons entry rest =>
      have more : count ≠ entries.length := by
        intro reached
        rw [reached, List.drop_length] at next
        cases next
      have overshoots := stops.resolve_left more
      rw [fitFrom]
      simp only [sizeWith_drop next]
      rw [if_neg (Nat.not_lt.2 overshoots.2), if_pos overshoots.1]

/-! ## The greatest count -/

variable (codec carrier)

/-- The greatest number of leading entries whose packet fits, zero if there is none. -/
def greatest (entries : List GossipEntry) : Nat :=
  Nat.findGreatest
    (fun count => codec.FitsDatagram maxSize (carrier.wrap (entries.take count)))
    entries.length

/--
The entries behind the greatest count that fits cause no failure: there are none, or the
next one overshoots the room of the datagram without overshooting the packer's limit.
-/
def Smooth (entries : List GossipEntry) : Prop :=
  let count := codec.greatest carrier maxSize entries
  count = entries.length ∨
    budget maxSize < carrier.size (entries.take (count + 1)) ∧
      carrier.size (entries.take (count + 1)) ≤ codec.limit

variable {codec carrier maxSize}

theorem fitsDatagram_greatest
    {entries : List GossipEntry}
    {count : Nat}
    (whole : codec.greatest carrier maxSize entries = count)
    (some : count ≠ 0) :
    codec.FitsDatagram maxSize (carrier.wrap (entries.take count)) :=
  Nat.findGreatest_of_ne_zero whole some

theorem not_fitsDatagram_of_greatest_lt
    {entries : List GossipEntry}
    {count : Nat}
    (beyond : codec.greatest carrier maxSize entries < count)
    (inside : count ≤ entries.length) :
    ¬codec.FitsDatagram maxSize (carrier.wrap (entries.take count)) :=
  Nat.findGreatest_is_greatest beyond inside

/-- A packet that fits keeps within the room. -/
theorem FitsDatagram.size_le_budget
    {entries : List GossipEntry}
    (fits : codec.FitsDatagram maxSize (carrier.wrap entries)) :
    carrier.size entries ≤ budget maxSize := by
  rw [fitsDatagram_iff, Carrier.packedSize_eq_size] at fits
  rw [budget]
  omega

/-- The greatest count is found exactly where the entries behind it cause no failure. -/
theorem fit_eq_greatest_iff
    (bounded : budget maxSize ≤ codec.limit)
    (entries : List GossipEntry) :
    codec.fit carrier maxSize entries = .ok (codec.greatest carrier maxSize entries) ↔
      codec.Smooth carrier maxSize entries := by
  have inside : codec.greatest carrier maxSize entries ≤ entries.length :=
    Nat.findGreatest_le entries.length
  have fits : codec.greatest carrier maxSize entries = 0 ∨
      carrier.size (entries.take (codec.greatest carrier maxSize entries)) ≤ budget maxSize := by
    by_cases none : codec.greatest carrier maxSize entries = 0
    · exact Or.inl none
    · exact Or.inr (fitsDatagram_greatest rfl none).size_le_budget
  rw [fit_eq_ok_iff maxSize bounded]
  constructor
  · rintro ⟨-, -, stops⟩
    exact stops
  · intro smooth
    exact ⟨inside, fits, smooth⟩

/-- What was counted is the greatest count, unless a frame cannot announce so much. -/
theorem greatest_eq_of_fit
    (bounded : budget maxSize ≤ codec.limit)
    (roomy : Frame.overhead ≤ maxSize)
    {entries : List GossipEntry}
    {count : Nat}
    (counted : codec.fit carrier maxSize entries = .ok count)
    (announced : count = 0 ∨ carrier.size (entries.take count) ≤ Frame.maxPayload) :
    codec.greatest carrier maxSize entries = count := by
  rcases (fit_eq_ok_iff maxSize bounded entries count).1 counted with ⟨inside, within, stops⟩
  rw [greatest, Nat.findGreatest_eq_iff]
  refine ⟨inside, ?_, ?_⟩
  · intro some
    have room := within.resolve_left some
    have short := announced.resolve_left some
    unfold budget at room bounded
    rw [fitsDatagram_iff, Carrier.packedSize_eq_size]
    omega
  · intro more later inside fits
    have overshoots := (stops.resolve_left (by omega)).1
    have grows := carrier.size_take_le entries (show count + 1 ≤ more from later)
    exact absurd fits.size_le_budget (by omega)

end Codec

end ClusterMembership
