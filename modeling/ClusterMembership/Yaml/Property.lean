import ClusterMembership.Text.Numeral
import ClusterMembership.Yaml.Glyph
import ClusterMembership.Yaml.Token

/-!
# Anchors, tags and directives

Nodes may carry an anchor, by which aliases refer to them, and a tag.  Directives in
front of a document ask for a version of the standard and say what tag handles stand
for.
-/

namespace ClusterMembership

namespace Yaml

/-- The characters of glyphs as a text. -/
def textOf (input : List Glyph) : String :=
  String.ofList (input.map Glyph.character)

/-- Split the input where a kind of characters ends. -/
def spanOf (kind : Char → Bool) (input : List Glyph) : List Glyph × List Glyph :=
  input.span (kind ·.character)

/-- Pass over blanks. -/
def passBlanks (input : List Glyph) : List Glyph :=
  input.dropWhile (isBlank ·.character)

/-- Whether a character may stand in the name of an anchor. -/
def isAnchorCharacter (edition : Edition) (character : Char) : Bool :=
  match edition with
  | .v1_1 => isWordCharacter character
  | .v1_2 => !isGap edition character && !isFlowMark character && character ≠ '\uFEFF'

/-- Whether the name of an anchor may end before a character. -/
def endsAnchor (edition : Edition) (character : Char) : Bool :=
  edition = .v1_2 || isGap edition character || "?:,]\x7d%@`".toList.contains character

/-- Read the name of an anchor or of an alias, behind its indicator. -/
def readAnchor? (edition : Edition) (input : List Glyph) : Option (String × List Glyph) :=
  let (name, rest) := spanOf (isAnchorCharacter edition) input.tail
  if name.isEmpty || !endsAnchor edition (front rest) then none else some (textOf name, rest)

/-- Whether a character may stand in a tag; between angle brackets more of them may. -/
def isTagCharacter (bracketed : Bool) (character : Char) : Bool :=
  isWordCharacter character || ";/?:@&=+$.!~*'()".toList.contains character ||
    (bracketed && ",[]".toList.contains character)

/-- The bytes that come next, each written as a percent sign and two digits. -/
def readEscapedBytes : (count : Nat) → List Glyph → Option (Bytes × List Glyph)
  | 0, input => some ([], input)
  | count + 1, input => do
    if front input ≠ '%' then
      none
    let byte ← Text.natural? 16 ((input.tail.take 2).map Glyph.character)
    if (input.tail.take 2).length ≠ 2 then
      none
    let (bytes, rest) ← readEscapedBytes count (input.drop 3)
    return (UInt8.ofNat byte :: bytes, rest)

/-- How many bytes a character has whose first byte is given. -/
def encodedWidth? (byte : UInt8) : Option Nat :=
  if byte < 0x80 then some 1
  else if byte &&& 0xE0 = 0xC0 then some 2
  else if byte &&& 0xF0 = 0xE0 then some 3
  else if byte &&& 0xF8 = 0xF0 then some 4
  else none

/-- Read the characters of a tag, of which some may be escaped. -/
def readTagText (bracketed : Bool) : (fuel : Nat) → List Glyph → Option (List Char × List Glyph)
  | 0, _ => none
  | fuel + 1, input => do
    if front input = '%' then
      let (first, _) ← readEscapedBytes 1 input
      let width ← encodedWidth? (first.headD 0)
      let (bytes, rest) ← readEscapedBytes width input
      let text ← Bytes.toText? bytes
      let (more, rest) ← readTagText bracketed fuel rest
      return (text.toList ++ more, rest)
    else if isTagCharacter bracketed (front input) then
      let (more, rest) ← readTagText bracketed fuel input.tail
      return (front input :: more, rest)
    else
      return ([], input)

/-- The longest handle that comes next: word characters between exclamation marks. -/
def readHandle (input : List Glyph) : String × List Glyph :=
  let (word, rest) := spanOf isWordCharacter input.tail
  if front rest = '!' then
    ("!" ++ textOf word ++ "!", rest.tail)
  else
    ("!" ++ textOf word, rest)

/-- Read a tag: a bracketed one, one with a handle, or one without. -/
def readTagName? (input : List Glyph) : Option (Token × List Glyph) := do
  let fuel := input.length + 1
  if front input.tail = '<' then
    let (text, rest) ← readTagText true fuel (input.drop 2)
    if text.isEmpty || front rest ≠ '>' then
      none
    return (.tag "" (String.ofList text), rest.tail)
  let (handle, rest) := readHandle input
  if handle.length > 1 && handle.endsWith "!" then
    let (suffix, rest) ← readTagText false fuel rest
    if suffix.isEmpty then
      none
    return (.tag handle (String.ofList suffix), rest)
  let (more, rest) ← readTagText false fuel rest
  let suffix := handle.toList.drop 1 ++ more
  if suffix.isEmpty then
    return (.tag "" "!", rest)
  return (.tag "!" (String.ofList suffix), rest)

/-- Read a tag, behind which a gap must come; in flow collections a mark may come. -/
def readTag? (edition : Edition) (isFlow : Bool) (input : List Glyph) :
    Option (Token × List Glyph) := do
  let (token, rest) ← readTagName? input
  let next := front rest
  let isMark := if edition = .v1_1 then next = ',' else isFlowMark next
  if isGap edition next || (isFlow && isMark) then some (token, rest) else none

/-- Read a number of at most nine digits. -/
def readVersionNumber? (input : List Glyph) : Option (Nat × List Glyph) := do
  let (digits, rest) := spanOf Char.isDigit input
  if digits.length > 9 then
    none
  return (← Text.natural? 10 (digits.map Glyph.character), rest)

/-- Read what follows the name of a directive; a directive may mean nothing. -/
def readDirectiveValue? (edition : Edition) (name : String) (input : List Glyph) :
    Option (Option Token × List Glyph) := do
  let input := passBlanks input
  match name with
  | "YAML" =>
    let (major, rest) ← readVersionNumber? input
    if front rest ≠ '.' then
      none
    let (minor, rest) ← readVersionNumber? rest.tail
    return (some (.version major minor), rest)
  | "TAG" =>
    if front input ≠ '!' then
      none
    let (handle, rest) := readHandle input
    if !handle.endsWith "!" || !isBlank (front rest) then
      none
    let (expansion, rest) ← readTagText true (input.length + 1) (passBlanks rest)
    if expansion.isEmpty || !isGap edition (front rest) then
      none
    return (some (.tagHandle handle (String.ofList expansion)), rest)
  | _ =>
    if edition = .v1_1 then
      none
    return (none, input.dropWhile (!isLineEnd edition ·.character))

/-- Read a directive up to the end of its line. -/
def readDirective? (edition : Edition) (input : List Glyph) :
    Option (Option Token × List Glyph) := do
  let (name, rest) := spanOf isWordCharacter input.tail
  if name.isEmpty || !isGap edition (front rest) then
    none
  let (token, rest) ← readDirectiveValue? edition (textOf name) rest
  let rest := passBlanks rest
  let rest := if front rest = '#' then rest.dropWhile (!isLineEnd edition ·.character) else rest
  if isLineEnd edition (front rest) then some (token, rest) else none

end Yaml

end ClusterMembership
