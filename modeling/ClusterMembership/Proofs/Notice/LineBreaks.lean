import ClusterMembership.Notice.ChangeLine

/-!
# Line breaks in the change log

One change makes one entry of the change log.  Of what goes into an entry, the name and the payload
of the member come from outside, and may be any text and any bytes.

An object quotes both, so it has no line break at all.  A line to read shows line breaks of the
payload as commas, and shows the name as it is, so it has a line break exactly if the name has one:
`MemberChange.line_breaks_only_in_name`.  Whoever chooses a name may thus make one change look like
any two others, `MemberChange.readable_pretending`.
-/

namespace ClusterMembership

/-! ## Numbers and dates -/

@[simp]
theorem newline_not_mem_digits (value : Nat) : '\n' ∉ Nat.toDigits 10 value := by
  intro member
  have digit := Nat.isDigit_of_mem_toDigits (Nat.zero_lt_succ 9) (Nat.le_refl 10) member
  exact absurd digit (by decide)

@[simp]
theorem newline_not_mem_padded (width value : Nat) : '\n' ∉ (padded width value).toList := by
  simp [padded]

@[simp]
theorem newline_not_mem_yearText (year : Int) : '\n' ∉ (yearText year).toList := by
  unfold yearText
  split
  · exact newline_not_mem_padded 4 _
  · split <;> simp

@[simp]
theorem newline_not_mem_fractionText (precision : Timestamp.Precision) (nanoseconds : Nat) :
    '\n' ∉ (Timestamp.fractionText precision nanoseconds).toList := by
  cases precision with
  | milliseconds => simp [Timestamp.fractionText]
  | exact =>
    simp only [Timestamp.fractionText]
    split
    · simp
    · split
      · simp
      · split <;> simp

@[simp]
theorem Timestamp.newline_not_mem_text (time : Timestamp) (precision : Timestamp.Precision) :
    '\n' ∉ (time.text precision).toList := by
  simp [Timestamp.text]

@[simp]
theorem Status.newline_not_mem_word (status : Status) : '\n' ∉ status.word.toList := by
  cases status <;> simp [Status.word]

/-! ## Quoted text -/

namespace Text

/-- Digits begin behind all control characters, and so do letters. -/
theorem digit_ne_newline (value : Nat) : digit value ≠ '\n' := by
  have apart : ∀ first offset : Nat, 10 < first → Char.ofNat (first + offset) ≠ '\n' := by
    intro first offset behind same
    have code : (Char.ofNat (first + offset)).toNat = 10 := congrArg Char.toNat same
    by_cases valid : (first + offset).isValidChar
    · have kept : (Char.ofNat (first + offset)).toNat = first + offset := by
        rw [Char.ofNat, dif_pos valid]
        rfl
      omega
    · rw [Char.ofNat, dif_neg valid] at code
      exact absurd code (by decide)
  unfold digit
  split
  · exact apart _ _ (by decide)
  · exact apart _ _ (by decide)

/-- A line break is never quoted as it is. -/
@[simp]
theorem newline_not_mem_escaped (character : Char) : '\n' ∉ escaped character := by
  unfold escaped
  split
  case h_8 other _ _ feed _ _ _ _ =>
    split
    · simp [(digit_ne_newline _).symm]
    · simpa using Ne.symm feed
  all_goals simp

@[simp]
theorem newline_not_mem_quoted (characters : List Char) : '\n' ∉ quoted characters := by
  simp [quoted]

end Text

namespace MemberChange

open Text

/-- The payload is shown in one line. -/
@[simp]
theorem newline_not_mem_shownPayload (payload : Bytes) : '\n' ∉ shownPayload payload := by
  rw [shownPayload, List.mem_map]
  rintro ⟨character, -, shown⟩
  split at shown
  · cases shown
  · contradiction

theorem newline_mem_readable_iff (change : MemberChange) (time : Timestamp) :
    '\n' ∈ (change.readable time).toList ↔ '\n' ∈ change.name.text.toList := by
  unfold readable
  cases change.metadata.payload <;> simp

theorem newline_not_mem_object (change : MemberChange) (time : Timestamp) :
    '\n' ∉ (change.object time).toList := by
  unfold object fields
  cases change.metadata.payload <;> simp [String.intercalate_cons_cons]

/--
An entry of the change log has a line break in one case only.  As an object it has none, whatever
the member, its clock and its payload, and whatever the time.  As a line to read it has one if and
only if the name of the member has one.
-/
theorem line_breaks_only_in_name (change : MemberChange) (time : Timestamp) :
    '\n' ∉ (change.line time .object).toList ∧
      ('\n' ∈ (change.line time .text).toList ↔ '\n' ∈ change.name.text.toList) :=
  ⟨change.newline_not_mem_object time, change.newline_mem_readable_iff time⟩

/-! ## Forged lines -/

/-- The part of a line to read that stands behind the name. -/
def remark (change : MemberChange) : String :=
  let metadata :=
    match change.metadata.payload with
    | none => ""
    | some payload => " metadata [" ++ String.ofList (shownPayload payload) ++ "]"
  " is " ++ change.status.word ++ " (clock " ++ toString change.clock ++ ")" ++ metadata

theorem readable_eq (change : MemberChange) (time : Timestamp) :
    change.readable time =
      time.text .milliseconds ++ " " ++ change.name.text ++ change.remark := by
  unfold readable remark
  cases change.metadata.payload <;> simp [String.append_assoc]

/-- A change that reads like two others, one after the other. -/
def pretending (first second : MemberChange) (later : Timestamp) : MemberChange :=
  { second with
    name.text := first.name.text ++ first.remark ++ "\n" ++ later.text .milliseconds ++ " " ++
      second.name.text }

/-- Any two lines to read are the line of a single change. -/
theorem readable_pretending (first second : MemberChange) (time later : Timestamp) :
    (pretending first second later).readable time =
      first.readable time ++ "\n" ++ second.readable later := by
  have same : (pretending first second later).remark = second.remark := rfl
  rw [readable_eq, readable_eq, readable_eq, same]
  simp [pretending, String.append_assoc]

/-- A member that joins. -/
def joining : MemberChange where
  name.text := "10.0.0.2:7946"
  status := .online
  clock := 1
  metadata := { clock := 0, payload := none }

/-- A member that leaves. -/
def parting : MemberChange where
  name.text := "10.0.0.3:7946"
  status := .offline
  clock := 5
  metadata := { clock := 0, payload := none }

/-- One change is logged as two lines, and the second one reports that another member has left. -/
theorem second_line_is_forged :
    let forged := pretending joining parting { seconds := 0 }
    forged.name.text =
        "10.0.0.2:7946 is online (clock 1)\n1970-01-01T00:00:00.000Z 10.0.0.3:7946" ∧
      forged.line { seconds := 0 } .text =
        "1970-01-01T00:00:00.000Z 10.0.0.2:7946 is online (clock 1)\n" ++
          parting.line { seconds := 0 } .text ∧
      ¬∀ (change : MemberChange) (time : Timestamp) (format : ChangeFormat),
        '\n' ∉ (change.line time format).toList := by
  intro forged
  have twice : forged.line { seconds := 0 } .text =
      joining.line { seconds := 0 } .text ++ "\n" ++ parting.line { seconds := 0 } .text :=
    readable_pretending joining parting _ _
  refine ⟨by decide +kernel, ?_, fun unbroken => ?_⟩
  · have first : joining.line { seconds := 0 } .text =
        "1970-01-01T00:00:00.000Z 10.0.0.2:7946 is online (clock 1)" := by
      decide +kernel
    rw [twice, first]
    rfl
  · refine unbroken forged { seconds := 0 } .text ?_
    rw [twice]
    simp

end MemberChange

end ClusterMembership
