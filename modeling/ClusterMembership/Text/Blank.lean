/-!
# Blank characters

The characters with the Unicode property `White_Space`, and characters without
those of a kind at their two ends.
-/

namespace ClusterMembership

namespace Text

/-- Whether a character has the Unicode property `White_Space`. -/
def isBlank (character : Char) : Bool :=
  let code := character.toNat
  (0x9 ≤ code && code ≤ 0xD) || code = 0x20 || code = 0x85 || code = 0xA0 || code = 0x1680 ||
    (0x2000 ≤ code && code ≤ 0x200A) || code = 0x2028 || code = 0x2029 || code = 0x202F ||
    code = 0x205F || code = 0x3000

/-- Drop the characters of a kind from both ends. -/
def strip (drop : Char → Bool) (characters : List Char) : List Char :=
  ((characters.dropWhile drop).reverse.dropWhile drop).reverse

/-- Split characters at the first occurrence of one, which neither part keeps. -/
def splitAtFirst? (separator : Char) : List Char → Option (List Char × List Char)
  | [] => none
  | character :: rest =>
    if character = separator then
      some ([], rest)
    else
      (splitAtFirst? separator rest).map fun (before, after) => (character :: before, after)

/-- A split gives back the characters when the separator is put in again. -/
theorem eq_append_of_splitAtFirst?
    {separator : Char}
    {characters before after : List Char}
    (split : splitAtFirst? separator characters = some (before, after)) :
    characters = before ++ separator :: after := by
  induction characters generalizing before with
  | nil => simp [splitAtFirst?] at split
  | cons character rest step =>
    rw [splitAtFirst?] at split
    by_cases same : character = separator
    · simp_all
    · rw [if_neg same] at split
      obtain ⟨⟨first, second⟩, found, equal⟩ := Option.map_eq_some_iff.1 split
      obtain ⟨rfl, rfl⟩ := Prod.mk.inj equal
      simp [step found]

end Text

end ClusterMembership
