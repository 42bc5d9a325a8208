import ClusterMembership.Proofs.Wire.Forms
import ClusterMembership.Settings.Overrides

/-!
# Reading advertised metadata

A node advertises its metadata as lines `key=value`.  Nothing is escaped, so what can be read back
are the maps whose keys have neither an equals sign nor a line break in them, and whose values have
no line break: `metadata_reads_back`.

Everything is read from the bytes.  A byte below 128 stands for one character in the UTF-8 form of
a text, and occurs where this character does and nowhere else, so bytes can be searched for line
breaks and equals signs.
-/

namespace ClusterMembership

namespace Bytes

/-! ## Characters of one byte -/

theorem ofText_eq_flatMap (text : String) :
    ofText text = text.toList.flatMap String.utf8EncodeChar := by
  have same : text.toUTF8 = text.toList.utf8Encode := String.utf8Encode_toList.symm
  rw [ofText, same, List.utf8Encode, List.data_toByteArray]

@[simp]
theorem ofText_append (left right : String) :
    ofText (left ++ right) = ofText left ++ ofText right := by
  simp [ofText_eq_flatMap]

/-- A byte below 128 is the whole of a character, or no part of it. -/
theorem mem_utf8EncodeChar_iff {byte : UInt8} (small : byte.toNat < 128) (character : Char) :
    byte ∈ String.utf8EncodeChar character ↔ character.toNat = byte.toNat := by
  have bound : character.toNat < 0x110000 := by
    have valid := character.valid
    simp only [UInt32.isValidChar, Nat.isValidChar] at valid
    show character.val.toNat < _
    omega
  have number : character.val.toNat = character.toNat := rfl
  unfold String.utf8EncodeChar
  simp only [number]
  -- one case for each number of bytes
  split
  · simp [← UInt8.toNat_inj]
    omega
  · split
    · simp [← UInt8.toNat_inj]
      omega
    · split
      · simp [← UInt8.toNat_inj]
        omega
      · simp [← UInt8.toNat_inj]
        omega

theorem mem_ofText_iff
    {sign : Char}
    {byte : UInt8}
    (small : byte.toNat < 128)
    (code : sign.toNat = byte.toNat)
    (text : String) :
    byte ∈ ofText text ↔ sign ∈ text.toList := by
  rw [ofText_eq_flatMap, List.mem_flatMap]
  constructor
  · rintro ⟨character, among, part⟩
    rw [mem_utf8EncodeChar_iff small, ← code, Char.toNat_inj] at part
    exact part ▸ among
  · intro among
    exact ⟨sign, among, (mem_utf8EncodeChar_iff small sign).2 code⟩

end Bytes

namespace NodeSettings

/-! ## Lines and pairs -/

/-- The lines of a payload; an empty payload has none. -/
def payloadLines (payload : Bytes) : List Bytes :=
  if payload = [] then [] else payload.splitOn lineBreak

/-- The texts in front of the first equals sign of a line and behind it. -/
def pairOfLine? (line : Bytes) : Option (String × String) :=
  if equalsSign ∈ line then do
    let key ← Bytes.toText? (line.takeWhile (· ≠ equalsSign))
    let value ← Bytes.toText? (line.dropWhile (· ≠ equalsSign)).tail
    return (key, value)
  else
    none

/-- The pairs that the lines of a payload stand for. -/
def pairsOfPayload? (payload : Bytes) : Option (List (String × String)) :=
  (payloadLines payload).mapM pairOfLine?

/-- The line of a pair. -/
def pairText (pair : String × String) : String :=
  pair.1 ++ "=" ++ pair.2

/-- Metadata whose pairs can be told apart in lines. -/
structure Legible (metadata : MetadataMap) : Prop where
  key : ∀ pair ∈ metadata.toList, '=' ∉ pair.1.toList ∧ '\n' ∉ pair.1.toList
  value : ∀ pair ∈ metadata.toList, '\n' ∉ pair.2.toList

/-- Keys that are not empty, and neither begin nor end with a blank. -/
def Trim (metadata : MetadataMap) : Prop :=
  ∀ pair ∈ metadata.toList, pair.1 ≠ "" ∧
    (∀ first ∈ pair.1.toList.head?, Text.isBlank first = false) ∧
    ∀ last ∈ pair.1.toList.getLast?, Text.isBlank last = false

section Lines

variable {pair : String × String} {pairs : List (String × String)}

theorem ofText_pairText (pair : String × String) :
    Bytes.ofText (pairText pair) =
      Bytes.ofText pair.1 ++ equalsSign :: Bytes.ofText pair.2 := by
  have sign : Bytes.ofText "=" = [equalsSign] := by decide +kernel
  simp [pairText, sign]

theorem equalsSign_mem_ofText_iff (text : String) :
    equalsSign ∈ Bytes.ofText text ↔ '=' ∈ text.toList :=
  Bytes.mem_ofText_iff (by decide) rfl text

theorem lineBreak_mem_ofText_iff (text : String) :
    lineBreak ∈ Bytes.ofText text ↔ '\n' ∈ text.toList :=
  Bytes.mem_ofText_iff (by decide) rfl text

/-- What is in front of the first equals sign is the key, and the value may have more of them. -/
theorem pairOfLine?_ofText_pairText (plain : '=' ∉ pair.1.toList) :
    pairOfLine? (Bytes.ofText (pairText pair)) = some pair := by
  have before : ∀ byte ∈ Bytes.ofText pair.1, decide (byte ≠ equalsSign) = true := by
    intro byte among
    refine decide_eq_true fun same => plain ?_
    exact (equalsSign_mem_ofText_iff _).1 (same ▸ among)
  rw [pairOfLine?, ofText_pairText, if_pos (List.mem_append_right _ List.mem_cons_self),
    List.takeWhile_append_of_pos before, List.dropWhile_append_of_pos before]
  simp [Wire.toText?_ofText]

/-- Even the line of two empty texts has its equals sign. -/
theorem ofText_pairText_ne_nil (pair : String × String) : Bytes.ofText (pairText pair) ≠ [] := by
  simp [ofText_pairText]

theorem appendLine_nil (pair : String × String) :
    appendLine [] pair = Bytes.ofText (pairText pair) := by
  simp [appendLine, ofText_pairText]

theorem appendLine_of_ne_nil {payload : Bytes} (some : payload ≠ []) (pair : String × String) :
    appendLine payload pair = payload ++ lineBreak :: Bytes.ofText (pairText pair) := by
  simp [appendLine, ofText_pairText, some]

/-- No line is empty, so there is a line break in front of each but the first. -/
theorem foldl_appendLine {payload : Bytes} (some : payload ≠ []) (pairs : List (String × String)) :
    pairs.foldl appendLine payload =
      [lineBreak].intercalate (payload :: pairs.map fun pair => Bytes.ofText (pairText pair)) := by
  induction pairs generalizing payload with
  | nil => simp
  | cons first rest step =>
    have grown : payload ++ lineBreak :: Bytes.ofText (pairText first) ≠ [] := by simp
    rw [List.foldl_cons, appendLine_of_ne_nil some, step grown, List.map_cons]
    cases rest <;> simp [List.intercalate_cons_cons]

/-- The payload is the lines of the pairs, with a line break between any two of them. -/
theorem foldl_appendLine_nil (pairs : List (String × String)) :
    pairs.foldl appendLine [] =
      [lineBreak].intercalate (pairs.map fun pair => Bytes.ofText (pairText pair)) := by
  cases pairs with
  | nil => rfl
  | cons first rest =>
    rw [List.foldl_cons, appendLine_nil, foldl_appendLine (ofText_pairText_ne_nil first),
      List.map_cons]

theorem foldl_appendLine_eq_nil_iff (pairs : List (String × String)) :
    pairs.foldl appendLine [] = [] ↔ pairs = [] := by
  rw [foldl_appendLine_nil]
  cases pairs with
  | nil => simp
  | cons first rest =>
    cases rest with
    | nil => simp [ofText_pairText]
    | cons second rest => simp [List.intercalate_cons_cons, ofText_pairText]

theorem payloadLines_foldl
    (plain : ∀ pair ∈ pairs, '\n' ∉ pair.1.toList ∧ '\n' ∉ pair.2.toList) :
    payloadLines (pairs.foldl appendLine []) =
      pairs.map fun pair => Bytes.ofText (pairText pair) := by
  by_cases none : pairs = []
  · subst none
    rfl
  · have whole : ∀ line ∈ pairs.map fun pair => Bytes.ofText (pairText pair),
        lineBreak ∉ line := by
      intro line among
      obtain ⟨pair, member, rfl⟩ := List.mem_map.1 among
      simp [lineBreak_mem_ofText_iff, pairText, plain pair member]
    rw [payloadLines, if_neg (mt (foldl_appendLine_eq_nil_iff pairs).1 none),
      foldl_appendLine_nil, List.splitOn_intercalate lineBreak whole (by simpa using none)]

/-- Pairs that can be told apart are read back from their lines. -/
theorem pairsOfPayload?_foldl
    (keys : ∀ pair ∈ pairs, '=' ∉ pair.1.toList ∧ '\n' ∉ pair.1.toList)
    (values : ∀ pair ∈ pairs, '\n' ∉ pair.2.toList) :
    pairsOfPayload? (pairs.foldl appendLine []) = some pairs := by
  have plain := fun pair among => And.intro (keys pair among).2 (values pair among)
  rw [pairsOfPayload?, payloadLines_foldl plain]
  clear values plain
  induction pairs with
  | nil => rfl
  | cons first rest step =>
    have others := step fun pair among => keys pair (List.mem_cons_of_mem _ among)
    simp only [List.map_cons, List.mapM_cons, others,
      pairOfLine?_ofText_pairText (keys first List.mem_cons_self).1]
    rfl

end Lines

end NodeSettings

/-! ## Lines as overrides -/

namespace Text

theorem splitAtFirst?_append
    {separator : Char}
    {before : List Char}
    (absent : separator ∉ before)
    (after : List Char) :
    splitAtFirst? separator (before ++ separator :: after) = some (before, after) := by
  induction before with
  | nil => simp [splitAtFirst?]
  | cons first rest step =>
    rw [List.mem_cons, not_or] at absent
    simp [splitAtFirst?, Ne.symm absent.1, step absent.2]

theorem dropWhile_eq_self
    {drop : Char → Bool}
    {characters : List Char}
    (kept : ∀ first ∈ characters.head?, drop first = false) :
    characters.dropWhile drop = characters := by
  cases characters with
  | nil => rfl
  | cons first rest => simp [kept first rfl]

/-- Nothing is stripped from characters that are not dropped at either end. -/
theorem strip_eq_self
    {drop : Char → Bool}
    {characters : List Char}
    (first : ∀ first ∈ characters.head?, drop first = false)
    (last : ∀ last ∈ characters.getLast?, drop last = false) :
    strip drop characters = characters := by
  have ending : ∀ last ∈ characters.reverse.head?, drop last = false := by
    simpa using last
  rw [strip, dropWhile_eq_self first, dropWhile_eq_self ending, List.reverse_reverse]

end Text

namespace Overrides

open NodeSettings

theorem metadataPair_pairText
    {pair : String × String}
    (plain : '=' ∉ pair.1.toList)
    (named : pair.1 ≠ "")
    (first : ∀ first ∈ pair.1.toList.head?, Text.isBlank first = false)
    (last : ∀ last ∈ pair.1.toList.getLast?, Text.isBlank last = false) :
    metadataPair (pairText pair) = .ok pair := by
  have characters : (pairText pair).toList = pair.1.toList ++ '=' :: pair.2.toList := by
    simp [pairText]
  have filled : pair.1.toList ≠ [] := by simpa using named
  simp [metadataPair, characters, Text.splitAtFirst?_append plain, Text.strip_eq_self first last,
    filled]

/-- Lines that are all read as pairs are put in one after the other. -/
theorem mergePairs_map
    {line : String × String → String}
    {pairs : List (String × String)}
    (read : ∀ pair ∈ pairs, metadataPair (line pair) = .ok pair)
    (map : MetadataMap) :
    mergePairs map (pairs.map line) =
      (.ok (), pairs.foldl (fun map pair => map.insert pair.1 pair.2) map) := by
  induction pairs generalizing map with
  | nil => rfl
  | cons first rest step =>
    rw [List.map_cons, mergePairs, read first List.mem_cons_self]
    exact step (fun pair among => read pair (List.mem_cons_of_mem _ among)) _

/-- The pairs of a map make up this map again. -/
theorem foldl_insert_toList (map : MetadataMap) :
    map.toList.foldl (fun map pair => map.insert pair.1 pair.2) (∅ : MetadataMap) = map := by
  rw [← Std.ExtTreeMap.ofList_eq_foldl]
  refine Std.ExtTreeMap.ext_getElem? fun key => ?_
  cases found : map[key]? with
  | none =>
    refine Std.ExtTreeMap.getElem?_ofList_of_contains_eq_false ?_
    rw [Std.ExtTreeMap.map_fst_toList_eq_keys]
    simpa using found
  | some value =>
    exact Std.ExtTreeMap.getElem?_ofList_of_mem Std.ReflCmp.compare_self
      Std.ExtTreeMap.distinct_keys_toList (Std.ExtTreeMap.mem_toList_iff_getElem?_eq_some.2 found)

end Overrides

namespace NodeSettings

/-! ## The law -/

/--
Advertised metadata can be read back, provided that no key has an equals sign or a line break in it,
and no value a line break.  The lines of the payload, each split at its first equals sign, are the
pairs of the map by strictly increasing keys; there is no byte at all if and only if there is no
pair; and maps that are advertised in the same bytes are the same.

When no key is empty, or begins or ends with a blank, the lines can be given as overrides as well:
where nothing has been set before, they set the same metadata and change nothing else.
-/
theorem metadata_reads_back (settings : NodeSettings) (legible : Legible settings.metadata) :
    pairsOfPayload? settings.metadataPayload = some settings.metadata.toList ∧
      settings.metadata.toList.Pairwise (fun left right => left.1 < right.1) ∧
      (settings.metadataPayload = [] ↔ settings.metadata = ∅) ∧
      (∀ other : NodeSettings, Legible other.metadata →
        other.metadataPayload = settings.metadataPayload → other.metadata = settings.metadata) ∧
      (Trim settings.metadata →
        ∃ lines : List String,
          (payloadLines settings.metadataPayload).map Bytes.toText? = lines.map some ∧
          ∀ base : Settings, base.node.metadata = ∅ →
            ({ metadata := lines } : Overrides).apply base =
              (.ok (),
                { base with node := { base.node with metadata := settings.metadata } })) := by
  have reads := pairsOfPayload?_foldl legible.key legible.value
  have lt_of_compare : ∀ left right : String, compare left right = .lt → left < right :=
    fun _ _ => compareOfLessAndEq_eq_lt.1
  refine ⟨reads, ?_, ?_, fun other readable same => ?_, fun trim => ?_⟩
  · exact Std.ExtTreeMap.ordered_keys_toList.imp (lt_of_compare _ _)
  · exact (foldl_appendLine_eq_nil_iff _).trans Std.ExtTreeMap.toList_eq_nil_iff
  · have again := pairsOfPayload?_foldl readable.key readable.value
    unfold metadataPayload at same
    rw [same, reads] at again
    exact (Std.ExtTreeMap.toList_inj.1 (Option.some.inj again)).symm
  · refine ⟨settings.metadata.toList.map pairText, ?_, fun base empty => ?_⟩
    · have plain := fun pair among =>
        And.intro (legible.key pair among).2 (legible.value pair among)
      simp [metadataPayload, payloadLines_foldl plain, Wire.toText?_ofText]
    · have read : ∀ pair ∈ settings.metadata.toList,
          Overrides.metadataPair (pairText pair) = .ok pair := by
        intro pair among
        obtain ⟨named, first, last⟩ := trim pair among
        exact Overrides.metadataPair_pairText (legible.key pair among).1 named first last
      simp [Overrides.apply, Overrides.mergePairs_map read, empty, Overrides.foldl_insert_toList]

/-- Settings with an equals sign in a value, and a value that is empty. -/
def racked : NodeSettings where
  metadata := .ofList [("zone", ""), ("rack", "a=b")]

theorem toList_racked : racked.metadata.toList = [("rack", "a=b"), ("zone", "")] := by
  decide +kernel

theorem racked_reads_back :
    Legible racked.metadata ∧ Trim racked.metadata ∧
      pairsOfPayload? racked.metadataPayload = some [("rack", "a=b"), ("zone", "")] ∧
      ∃ lines : List String,
        (payloadLines racked.metadataPayload).map Bytes.toText? = lines.map some ∧
        ({ metadata := lines } : Overrides).apply {} =
          (.ok (), { node := { metadata := racked.metadata } }) := by
  have legible : Legible racked.metadata := by
    constructor <;> simp [toList_racked]
  have trim : Trim racked.metadata := by
    simp [Trim, toList_racked, Text.isBlank]
  obtain ⟨reads, -, -, -, given⟩ := metadata_reads_back racked legible
  obtain ⟨lines, shown, applied⟩ := given trim
  exact ⟨legible, trim, reads.trans (congrArg some toList_racked), lines, shown, applied {} rfl⟩

end NodeSettings

end ClusterMembership
