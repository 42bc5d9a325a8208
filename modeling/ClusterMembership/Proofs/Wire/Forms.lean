import ClusterMembership.Wire.PacketForm
import Mathlib.Tactic.SplitIfs

/-!
# Forms of values

A reader takes a leading part of its input for a value.  The part is a form of the value
when the reader takes it whatever follows, `Reader.Takes`.  A reader that succeeds has
always taken a form, so what it answers does not hang on the bytes behind it:
`Reader.Reads` says this together with a property of the form and the value.

A reader and a writer belong together, `Codes`, when the written form of a value is read
back and no form of the value is shorter.  From this alone it follows that written forms
are exact: nothing shorter, nothing longer and nothing cut off is read, see the last
section.  Numbers, byte strings, texts, optional values and lists are shown to belong
together here; packets are assembled from them.
-/

namespace ClusterMembership

namespace Wire

namespace Reader

variable {α β : Type}

/-- A form of a value is taken for it, whatever follows. -/
def Takes (reader : Reader α) (form : Bytes) (value : α) : Prop :=
  ∀ rest : Bytes, reader (form ++ rest) = .ok (value, rest)

/-- A reader that succeeds has taken a form, and form and value have a property. -/
def Reads (reader : Reader α) (property : Bytes → α → Prop) : Prop :=
  ∀ bytes value rest, reader bytes = .ok (value, rest) →
    ∃ form, bytes = form ++ rest ∧ reader.Takes form value ∧ property form value

/-! ## One reader after the other -/

theorem bind_eq_of_ok
    {reader : Reader α}
    {bytes rest : Bytes}
    {value : α}
    (taken : reader bytes = .ok (value, rest))
    (next : α → Reader β) :
    (reader >>= next) bytes = next value rest := by
  show (reader bytes >>= fun result => next result.1 result.2) = next value rest
  rw [taken]
  rfl

/-- A sequence of readers succeeds by way of an intermediate value. -/
theorem exists_of_bind_eq_ok
    {reader : Reader α}
    {next : α → Reader β}
    {bytes rest : Bytes}
    {result : β}
    (taken : (reader >>= next) bytes = .ok (result, rest)) :
    ∃ value between, reader bytes = .ok (value, between) ∧
      next value between = .ok (result, rest) := by
  cases first : reader bytes with
  | error cause =>
    have failed : (reader >>= next) bytes = .error cause := by
      show (reader bytes >>= fun result => next result.1 result.2) = .error cause
      rw [first]
      rfl
    rw [failed] at taken
    cases taken
  | ok taken' =>
    rw [bind_eq_of_ok first] at taken
    exact ⟨taken'.1, taken'.2, rfl, taken⟩

theorem takes_pure (value : α) : Takes (pure value) [] value :=
  fun _ => rfl

/-- Forms of the parts, one behind the other, are a form of the whole. -/
theorem Takes.bind
    {reader : Reader α}
    {next : α → Reader β}
    {first second : Bytes}
    {value : α}
    {result : β}
    (takes : reader.Takes first value)
    (continues : (next value).Takes second result) :
    (reader >>= next).Takes (first ++ second) result := by
  intro rest
  rw [List.append_assoc, bind_eq_of_ok (takes (second ++ rest))]
  exact continues rest

theorem Reads.mono
    {reader : Reader α}
    {narrow wide : Bytes → α → Prop}
    (reads : reader.Reads narrow)
    (included : ∀ form value, narrow form value → wide form value) :
    reader.Reads wide := by
  intro bytes value rest taken
  rcases reads bytes value rest taken with ⟨form, split, takes, holds⟩
  exact ⟨form, split, takes, included form value holds⟩

theorem reads_pure (value : α) :
    Reads (pure value) (fun form result => form = [] ∧ result = value) := by
  intro bytes result rest taken
  cases taken
  exact ⟨[], rfl, takes_pure value, rfl, rfl⟩

theorem reads_fail (cause : WireError) (property : Bytes → α → Prop) :
    Reads (fail cause) property := by
  intro bytes value rest taken
  cases taken

/-- What the parts of a sequence have read is what the sequence has read. -/
theorem Reads.bind
    {reader : Reader α}
    {next : α → Reader β}
    {property : Bytes → α → Prop}
    {later : α → Bytes → β → Prop}
    (reads : reader.Reads property)
    (continues : ∀ value, (next value).Reads (later value)) :
    (reader >>= next).Reads fun form result =>
      ∃ value first second, form = first ++ second ∧ property first value ∧
        later value second result := by
  intro bytes result rest taken
  rcases exists_of_bind_eq_ok taken with ⟨value, between, start, finish⟩
  rcases reads bytes value between start with ⟨first, rfl, takes, holds⟩
  rcases continues value between result rest finish with ⟨second, rfl, goesOn, follows⟩
  exact ⟨first ++ second, (List.append_assoc _ _ _).symm, takes.bind goesOn, value, first, second,
    rfl, holds, follows⟩

/-! ## Bytes -/

theorem takes_byte (byte : UInt8) : Reader.byte.Takes [byte] byte :=
  fun _ => rfl

theorem reads_byte : Reader.byte.Reads (fun form byte => form = [byte]) := by
  intro bytes byte rest taken
  cases bytes with
  | nil => cases taken
  | cons head tail =>
    cases taken
    exact ⟨[byte], rfl, takes_byte byte, rfl⟩

theorem takes_exactly (form : Bytes) : (exactly form.length).Takes form form := by
  intro rest
  simp [exactly]

theorem reads_exactly (count : Nat) :
    (exactly count).Reads (fun form bytes => form = bytes ∧ bytes.length = count) := by
  intro bytes taken rest read
  simp only [exactly] at read
  split at read
  · rename_i enough
    cases read
    refine ⟨bytes.take count, (List.take_append_drop count bytes).symm, ?_, rfl, enough⟩
    have takes := takes_exactly (bytes.take count)
    rwa [enough] at takes
  · cases read

end Reader

open Reader

/-! ## Readers that belong to writers -/

/-- The written form of a valid value is read back, and is the shortest form of the value. -/
structure Codes {α : Type} (reader : Reader α) (write : α → Bytes) (valid : α → Prop) : Prop where
  /-- What is written is read back. -/
  written : ∀ value, valid value → reader.Takes (write value) value
  /-- What is read is valid, and no form of it is shorter than the written one. -/
  shortest : reader.Reads fun form value => valid value ∧ (write value).length ≤ form.length

namespace Codes

variable
    {α β γ : Type}
    {read : Reader α} {write : α → Bytes} {valid : α → Prop}
    {readNext : Reader β} {writeNext : β → Bytes} {validNext : β → Prop}

/-- Nothing is written for a value that is the only one. -/
theorem constant
    {value : α}
    (only : ∀ other, valid other ↔ other = value) :
    Codes (pure value) (fun _ => []) valid := by
  constructor
  · intro other known
    rw [(only other).1 known]
    exact takes_pure value
  · apply (reads_pure value).mono
    rintro _ other ⟨rfl, same⟩
    exact ⟨(only other).2 same, Nat.le_refl 0⟩

/-- Where no value is valid, nothing needs to be read. -/
theorem refused (cause : WireError) (never : ∀ value, ¬valid value) :
    Codes (fail cause) write valid :=
  ⟨fun value known => absurd known (never value), reads_fail _ _⟩

/-- A value that is made of one part is written like the part. -/
theorem construct
    (codes : Codes read write valid)
    (make : α → β)
    (writes : ∀ value, writeNext (make value) = write value)
    (holds : ∀ made, validNext made ↔ ∃ value, made = make value ∧ valid value) :
    Codes (do return make (← read)) writeNext validNext := by
  constructor
  · intro made known
    rcases (holds made).1 known with ⟨value, rfl, part⟩
    have takes : Takes (do return make (← read)) (write value ++ []) (make value) :=
      (codes.written value part).bind (takes_pure (make value))
    rw [List.append_nil, ← writes] at takes
    exact takes
  · apply (codes.shortest.bind fun value => reads_pure (make value)).mono
    rintro _ _ ⟨value, form, _, rfl, ⟨part, short⟩, rfl, rfl⟩
    rw [List.append_nil, writes]
    exact ⟨(holds _).2 ⟨value, rfl, part⟩, short⟩

/-- A value that is made of two parts is written as the one behind the other. -/
theorem construct₂
    {writeMade : γ → Bytes}
    {validMade : γ → Prop}
    (first : Codes read write valid)
    (second : Codes readNext writeNext validNext)
    (make : α → β → γ)
    (writes : ∀ value next, writeMade (make value next) = write value ++ writeNext next)
    (holds : ∀ made, validMade made ↔
      ∃ value next, made = make value next ∧ valid value ∧ validNext next) :
    Codes (do return make (← read) (← readNext)) writeMade validMade := by
  constructor
  · intro made known
    rcases (holds made).1 known with ⟨value, next, rfl, part, other⟩
    have takes : Takes (do return make (← read) (← readNext))
        (write value ++ (writeNext next ++ [])) (make value next) :=
      (first.written value part).bind
        ((second.written next other).bind (takes_pure (make value next)))
    rw [List.append_nil, ← writes] at takes
    exact takes
  · apply (first.shortest.bind fun value => second.shortest.bind fun next =>
      reads_pure (make value next)).mono
    rintro _ _ ⟨value, form, _, rfl, ⟨part, short⟩, next, others, _, rfl, ⟨other, shorter⟩,
      rfl, rfl⟩
    rw [List.append_nil, writes, List.length_append, List.length_append]
    exact ⟨(holds _).2 ⟨value, next, rfl, part, other⟩, Nat.add_le_add short shorter⟩

end Codes

/-! ## Numbers -/

theorem fromLittleEndian_lt (bytes : Bytes) :
    Bytes.fromLittleEndian bytes < Bytes.capacity bytes.length := by
  induction bytes with
  | nil => decide
  | cons byte rest step =>
    have more : Bytes.capacity (rest.length + 1) = 256 * Bytes.capacity rest.length :=
      Nat.mul_comm _ _
    have small := byte.toNat_lt
    rw [Bytes.fromLittleEndian, List.length_cons, more]
    omega

theorem takes_readFixed {width value : Nat} (fits : value < Bytes.capacity width) :
    (readFixed width).Takes (Bytes.littleEndian width value) value := by
  intro rest
  have bytes := takes_exactly (Bytes.littleEndian width value) rest
  rw [Bytes.length_littleEndian] at bytes
  rw [readFixed, bind_eq_of_ok bytes, Bytes.fromLittleEndian_littleEndian, Nat.mod_eq_of_lt fits]
  rfl

theorem reads_readFixed (width : Nat) :
    (readFixed width).Reads
      (fun form value => form.length = width ∧ value < Bytes.capacity width) := by
  refine ((reads_exactly width).bind fun _ => reads_pure _).mono ?_
  rintro _ _ ⟨bytes, first, second, rfl, ⟨rfl, rfl⟩, rfl, rfl⟩
  rw [List.append_nil]
  exact ⟨rfl, fromLittleEndian_lt _⟩

theorem capacity_two : Bytes.capacity 2 = 65536 := by decide

theorem capacity_four : Bytes.capacity 4 = 4294967296 := by decide

theorem capacity_eight : Bytes.capacity 8 = 18446744073709551616 := by decide

/-- A number of at most eight bytes is read back. -/
theorem takes_readNat {value : Nat} (word : value < Bytes.capacity 8) :
    readNat.Takes (writeNat value) value := by
  unfold writeNat readNat
  split
  · rename_i small
    have byte : UInt8.ofNat value ≤ 250 := by
      rw [UInt8.le_iff_toNat_le, UInt8.toNat_ofNat']
      exact Nat.le_trans (Nat.mod_le _ _) small
    have same : (UInt8.ofNat value).toNat = value := by
      rw [UInt8.toNat_ofNat']
      exact Nat.mod_eq_of_lt (by omega)
    refine (takes_byte _).bind ?_
    rw [if_pos byte, same]
    exact takes_pure value
  · split
    · rename_i twoBytes
      exact (takes_byte 251).bind (takes_readFixed twoBytes)
    · split
      · rename_i fourBytes
        exact (takes_byte 252).bind (takes_readFixed fourBytes)
      · exact (takes_byte 253).bind (takes_readFixed word)

/-- A number that fits one of the three widths needs no wider one. -/
theorem natSize_le_of_lt
    {width value : Nat}
    (known : width = 2 ∨ width = 4 ∨ width = 8)
    (fits : value < Bytes.capacity width) :
    value < Bytes.capacity 8 ∧ natSize value ≤ width + 1 := by
  have twoBytes := capacity_two
  have fourBytes := capacity_four
  have eightBytes := capacity_eight
  unfold natSize
  rcases known with rfl | rfl | rfl <;> refine ⟨by omega, ?_⟩ <;> split_ifs <;> omega

/-- What is read behind a marker byte. -/
theorem reads_readFixed_of_known
    {width : Nat}
    (known : width = 2 ∨ width = 4 ∨ width = 8) :
    (readFixed width).Reads fun form value =>
      value < Bytes.capacity 8 ∧ natSize value ≤ form.length + 1 := by
  apply (reads_readFixed width).mono
  rintro form value ⟨rfl, fits⟩
  exact natSize_le_of_lt known fits

/-- A number that is read has at most eight bytes, and no form of it is shorter than the written. -/
theorem reads_readNat :
    readNat.Reads fun form value => value < Bytes.capacity 8 ∧ natSize value ≤ form.length := by
  have behind : readNat.Reads fun form value =>
      ∃ byte first second, form = first ++ second ∧ first = [byte] ∧
        (value < Bytes.capacity 8 ∧ natSize value ≤ second.length + 1) := by
    refine reads_byte.bind fun byte => ?_
    split
    · rename_i small
      apply (reads_pure byte.toNat).mono
      rintro form value ⟨rfl, rfl⟩
      rw [UInt8.le_iff_toNat_le] at small
      have size : natSize byte.toNat = 1 := if_pos small
      exact ⟨Nat.lt_trans byte.toNat_lt (by decide), Nat.le_of_eq size⟩
    · split
      · exact reads_readFixed_of_known (by simp)
      · split
        · exact reads_readFixed_of_known (by simp)
        · split
          · exact reads_readFixed_of_known (by simp)
          · exact reads_fail _ _
  apply behind.mono
  rintro _ value ⟨byte, first, second, rfl, rfl, word, short⟩
  exact ⟨word, by simpa [Nat.add_comm] using short⟩

theorem codes_readNat : Codes readNat writeNat (· < Bytes.capacity 8) := by
  refine ⟨fun value word => takes_readNat word, ?_⟩
  simpa using reads_readNat

/-- The index of an alternative is read like any number, as long as it has at most four bytes. -/
theorem codes_readVariant : Codes readVariant writeNat (· < Bytes.capacity 4) := by
  constructor
  · intro index fits
    have word : index < Bytes.capacity 8 := by
      rw [capacity_four] at fits
      rw [capacity_eight]
      omega
    have number : readVariant.Takes (writeNat index ++ []) index := by
      refine (takes_readNat word).bind ?_
      rw [if_pos fits]
      exact takes_pure index
    rwa [List.append_nil] at number
  · have number : readVariant.Reads fun form index => ∃ value first second,
        form = first ++ second ∧ (value < Bytes.capacity 8 ∧ natSize value ≤ first.length) ∧
          second = [] ∧ index = value ∧ value < Bytes.capacity 4 := by
      refine reads_readNat.bind fun value => ?_
      split
      · rename_i fits
        apply (reads_pure value).mono
        rintro _ _ ⟨rfl, rfl⟩
        exact ⟨rfl, rfl, fits⟩
      · exact reads_fail _ _
    apply number.mono
    rintro _ _ ⟨value, first, second, rfl, ⟨-, short⟩, rfl, rfl, fits⟩
    rw [List.append_nil, length_writeNat]
    exact ⟨fits, short⟩

/-- A value with alternatives is written as the index of its own, and what that one carries. -/
theorem Codes.variant
    {α : Type}
    {branch : Nat → Reader α}
    {write : α → Bytes}
    {valid : α → Prop}
    (index : α → Nat)
    (writeCarried : α → Bytes)
    (branches : ∀ number, Codes (branch number) writeCarried
      (fun value => index value = number ∧ valid value))
    (small : ∀ value, index value < Bytes.capacity 4)
    (writes : ∀ value, write value = writeNat (index value) ++ writeCarried value) :
    Codes (readVariant >>= branch) write valid := by
  constructor
  · intro value known
    rw [writes]
    exact (codes_readVariant.written _ (small value)).bind
      ((branches (index value)).written value ⟨rfl, known⟩)
  · apply (codes_readVariant.shortest.bind fun number => (branches number).shortest).mono
    rintro _ value ⟨_, first, second, rfl, ⟨-, short⟩, ⟨rfl, known⟩, shorter⟩
    rw [writes, List.length_append, List.length_append]
    exact ⟨known, Nat.add_le_add short shorter⟩

/-! ## Byte strings and texts -/

theorem codes_readBytes : Codes readBytes writeBytes (fun bytes => bytes.length < Bytes.capacity 8) := by
  constructor
  · intro bytes word
    exact (takes_readNat word).bind (takes_exactly bytes)
  · apply (reads_readNat.bind fun length => reads_exactly length).mono
    rintro _ bytes ⟨length, first, second, rfl, ⟨word, short⟩, rfl, rfl⟩
    rw [length_writeBytes, bytesSize, List.length_append]
    exact ⟨word, Nat.add_le_add_right short _⟩

theorem toText?_ofText (text : String) : Bytes.toText? (Bytes.ofText text) = some text := by
  have same : (⟨(Bytes.ofText text).toArray⟩ : ByteArray) = text.toUTF8 := by
    rw [Bytes.ofText, Array.toArray_toList]
  have valid : text.toUTF8.IsValidUTF8 := text.isValidUTF8
  rw [Bytes.toText?, same, String.fromUTF8?, dif_pos valid]
  rfl

theorem ofText_of_toText? {bytes : Bytes} {text : String} (found : Bytes.toText? bytes = some text) :
    Bytes.ofText text = bytes := by
  rw [Bytes.toText?, String.fromUTF8?] at found
  split at found
  · cases found
    rfl
  · cases found

theorem codes_readText : Codes readText writeText (fun text => text.utf8ByteSize < Bytes.capacity 8) := by
  constructor
  · intro text word
    have bytes := codes_readBytes.written (Bytes.ofText text) (by rwa [length_ofText])
    have whole : readText.Takes (writeText text ++ []) text := by
      refine bytes.bind ?_
      rw [toText?_ofText]
      exact takes_pure text
    rwa [List.append_nil] at whole
  · have whole : readText.Reads fun form text => ∃ bytes first second, form = first ++ second ∧
        (bytes.length < Bytes.capacity 8 ∧ (writeBytes bytes).length ≤ first.length) ∧
        Bytes.ofText text = bytes := by
      refine codes_readBytes.shortest.bind fun bytes => ?_
      split
      · rename_i text found
        apply (reads_pure text).mono
        rintro _ _ ⟨rfl, rfl⟩
        exact ofText_of_toText? found
      · exact reads_fail _ _
    apply whole.mono
    rintro _ text ⟨bytes, first, second, rfl, ⟨word, short⟩, rfl⟩
    rw [length_ofText] at word
    rw [List.length_append]
    exact ⟨word, Nat.le_trans short (Nat.le_add_right _ _)⟩

/-! ## Optional values and lists -/

section Collections

variable {α : Type} {read : Reader α} {write : α → Bytes} {valid : α → Prop}

theorem Codes.option (codes : Codes read write valid) :
    Codes (readOption read) (writeOption write) (fun option => ∀ value ∈ option, valid value) := by
  constructor
  · rintro (_ | value) known
    · exact (takes_byte 0).bind (takes_pure none)
    · have present : (readOption read).Takes ([1] ++ (write value ++ [])) (some value) := by
        refine (takes_byte 1).bind ?_
        exact (codes.written value (known value rfl)).bind (takes_pure (some value))
      rwa [List.append_nil] at present
  · have whole : (readOption read).Reads fun form option =>
        ∃ tag first second, form = first ++ second ∧ first = [tag] ∧
          ((∀ value ∈ option, valid value) ∧
            (writeOption write option).length ≤ second.length + 1) := by
      refine reads_byte.bind fun tag => ?_
      split
      · apply (reads_pure none).mono
        rintro _ _ ⟨rfl, rfl⟩
        exact ⟨by simp, Nat.le_refl 1⟩
      · split
        · apply (codes.shortest.bind fun value => reads_pure (some value)).mono
          rintro _ _ ⟨value, first, second, rfl, ⟨known, short⟩, rfl, rfl⟩
          rw [List.append_nil]
          exact ⟨by simpa using known, Nat.succ_le_succ short⟩
        · exact reads_fail _ _
    apply whole.mono
    rintro _ option ⟨tag, first, second, rfl, rfl, known, short⟩
    exact ⟨known, by simpa [Nat.add_comm] using short⟩

theorem manyAfter_succ (read : Reader α) (count : Nat) (collected : List α) :
    manyAfter read (count + 1) collected =
      read >>= fun value => manyAfter read count (value :: collected) := by
  funext bytes
  show manyAfter read (count + 1) collected bytes =
    (read bytes >>= fun result => manyAfter read count (result.1 :: collected) result.2)
  rw [manyAfter]
  cases read bytes <;> rfl

/-- Values one behind the other are read in their order, behind those collected before. -/
theorem Codes.takes_manyAfter
    (codes : Codes read write valid)
    (values collected : List α)
    (known : ∀ value ∈ values, valid value) :
    (manyAfter read values.length collected).Takes (values.flatMap write)
      (collected.reverse ++ values) := by
  induction values generalizing collected with
  | nil =>
    rw [List.append_nil]
    exact takes_pure collected.reverse
  | cons value values step =>
    have first := codes.written value (known value List.mem_cons_self)
    have others := step (value :: collected) fun other later =>
      known other (List.mem_cons_of_mem _ later)
    rw [List.reverse_cons, List.append_assoc] at others
    rw [List.length_cons, manyAfter_succ]
    exact first.bind others

/-- What is read behind the values collected before is valid, and is not written longer. -/
theorem Codes.reads_manyAfter
    (codes : Codes read write valid)
    (count : Nat)
    (collected : List α) :
    (manyAfter read count collected).Reads fun form result =>
      ∃ values, result = collected.reverse ++ values ∧ values.length = count ∧
        (∀ value ∈ values, valid value) ∧ (values.flatMap write).length ≤ form.length := by
  induction count generalizing collected with
  | zero =>
    apply (reads_pure collected.reverse).mono
    rintro _ _ ⟨rfl, rfl⟩
    exact ⟨[], by simp⟩
  | succ count step =>
    rw [manyAfter_succ]
    apply (codes.shortest.bind fun value => step (value :: collected)).mono
    rintro _ _ ⟨value, first, second, rfl, ⟨known, short⟩, values, rfl, rfl, later, shorter⟩
    refine ⟨value :: values, by simp, rfl, ?_, ?_⟩
    · simpa using ⟨known, later⟩
    · simpa using Nat.add_le_add short shorter

theorem Codes.list (codes : Codes read write valid) :
    Codes (readList read) (writeList write)
      (fun values => values.length < Bytes.capacity 8 ∧ ∀ value ∈ values, valid value) := by
  constructor
  · rintro values ⟨word, known⟩
    exact (takes_readNat word).bind (codes.takes_manyAfter values [] known)
  · apply (reads_readNat.bind fun count => codes.reads_manyAfter count []).mono
    rintro _ values ⟨_, first, second, rfl, ⟨word, short⟩, _, rfl, rfl, known, shorter⟩
    refine ⟨⟨word, known⟩, ?_⟩
    rw [writeList, List.length_append, List.length_append, length_writeNat]
    exact Nat.add_le_add short shorter

end Collections

/-! ## Reading the whole input -/

section Whole

variable {α : Type} {read : Reader α} {write : α → Bytes} {valid : α → Prop}

/-- No form is the beginning of another form, of whatever value. -/
theorem Reader.Takes.eq_of_prefix
    {form longer : Bytes}
    {value other : α}
    (takes : read.Takes form value)
    (further : read.Takes longer other)
    (begins : form <+: longer) :
    form = longer ∧ value = other := by
  rcases begins with ⟨more, rfl⟩
  -- The longer form is an input that begins with the shorter one, and a reader answers once.
  have whole := further []
  rw [List.append_nil, takes more] at whole
  cases whole
  exact ⟨(List.append_nil form).symm, rfl⟩

/-- An input is read as a value exactly when it is a form of the value. -/
theorem Codes.runWhole_eq_ok_iff
    (codes : Codes read write valid)
    {bytes : Bytes}
    {value : α} :
    read.runWhole bytes = .ok value ↔ read.Takes bytes value := by
  constructor
  · intro found
    rw [runWhole] at found
    split at found
    · cases found
    · rename_i taken
      cases found
      rcases codes.shortest bytes value [] taken with ⟨form, split, takes, -⟩
      rw [List.append_nil] at split
      rwa [split]
    · cases found
  · intro takes
    have taken := takes []
    rw [List.append_nil] at taken
    rw [runWhole, taken]

/-- The written form of a value is read as the value. -/
theorem Codes.runWhole_write
    (codes : Codes read write valid)
    {value : α}
    (known : valid value) :
    read.runWhole (write value) = .ok value :=
  codes.runWhole_eq_ok_iff.2 (codes.written value known)

/-- A form that is cut off, or with bytes behind it, is refused. -/
theorem Codes.exists_error
    (codes : Codes read write valid)
    {form bytes : Bytes}
    {value : α}
    (takes : read.Takes form value)
    (comparable : bytes <+: form ∨ form <+: bytes)
    (different : bytes ≠ form) :
    ∃ cause, read.runWhole bytes = .error cause := by
  cases found : read.runWhole bytes with
  | error cause => exact ⟨cause, rfl⟩
  | ok other =>
    have taken := codes.runWhole_eq_ok_iff.1 found
    rcases comparable with shorter | longer
    · exact absurd (taken.eq_of_prefix takes shorter).1 different
    · exact absurd (takes.eq_of_prefix taken longer).1.symm different

/-- What is read is valid, and its written form is no longer than the input. -/
theorem Codes.length_write_le
    (codes : Codes read write valid)
    {bytes : Bytes}
    {value : α}
    (found : read.runWhole bytes = .ok value) :
    valid value ∧ (write value).length ≤ bytes.length := by
  have taken := codes.runWhole_eq_ok_iff.1 found []
  rcases codes.shortest _ _ _ taken with ⟨form, split, -, holds⟩
  rwa [List.append_cancel_right split]

end Whole

end Wire

end ClusterMembership
