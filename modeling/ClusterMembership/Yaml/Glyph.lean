/-!
# The characters of a YAML text

Two editions of the standard are in use, which differ in what breaks a line and in
what a text may hold.  A text becomes a list of glyphs, characters with their
places, in which every line break that is written with a carriage return or as a
next-line character is a line feed.  One glyph more, `Glyph.end`, stands behind the
text.
-/

namespace ClusterMembership

namespace Yaml

/-- The edition of the standard a reader follows. -/
inductive Edition where
  | v1_1
  | v1_2
  deriving DecidableEq, Inhabited, Repr

/-- The place of a character. -/
structure Mark where
  index : Nat := 0
  line : Nat := 0
  column : Nat := 0
  deriving DecidableEq, Inhabited, Repr

/-- The place in the next line behind a break of some characters. -/
def Mark.nextLine (mark : Mark) (width : Nat) : Mark :=
  { index := mark.index + width, line := mark.line + 1 }

/-- The place behind a character in a line. -/
def Mark.next (mark : Mark) : Mark :=
  { mark with index := mark.index + 1, column := mark.column + 1 }

/-- A character and its place. -/
structure Glyph where
  character : Char
  mark : Mark
  deriving DecidableEq, Inhabited, Repr

/-- The character of the glyph behind a text, which no text holds. -/
def endOfText : Char := '\x00'

/-- Whether a character separates words in a line. -/
def isBlank (character : Char) : Bool :=
  character = ' ' || character = '\t'

/-- Whether a character, which is not written with a carriage return, ends a line. -/
def isBreak (edition : Edition) (character : Char) : Bool :=
  character = '\n' ||
    (edition = .v1_1 && (character = '\u2028' || character = '\u2029'))

/-- Whether a line ends at a character. -/
def isLineEnd (edition : Edition) (character : Char) : Bool :=
  isBreak edition character || character = endOfText

/-- Whether a word ends at a character. -/
def isGap (edition : Edition) (character : Char) : Bool :=
  isBlank character || isLineEnd edition character

/-- Whether a character has a meaning of its own in a flow collection. -/
def isFlowMark (character : Char) : Bool :=
  character = ',' || character = '[' || character = ']' || character = '\x7b' ||
    character = '\x7d'

/-- Whether a character may stand in the name of an anchor or of a tag handle. -/
def isWordCharacter (character : Char) : Bool :=
  character.isAlphanum || character = '_' || character = '-'

/-- Whether a text of the first edition may hold a character. -/
def isAllowed (character : Char) : Bool :=
  let code := character.toNat
  code = 0x9 || code = 0xA || code = 0xD || (0x20 ≤ code && code ≤ 0x7E) || code = 0x85 ||
    (0xA0 ≤ code && code ≤ 0xD7FF) || (0xE000 ≤ code && code ≤ 0xFFFD) || 0x10000 ≤ code

/-- Put marks on characters. -/
def glyphsFrom (edition : Edition) : Mark → List Char → List Glyph
  | mark, [] => [⟨endOfText, mark⟩]
  | mark, '\r' :: '\n' :: rest => ⟨'\n', mark⟩ :: glyphsFrom edition (mark.nextLine 2) rest
  | mark, character :: rest =>
    if character = '\r' || (edition = .v1_1 && character = '\x85') then
      ⟨'\n', mark⟩ :: glyphsFrom edition (mark.nextLine 1) rest
    else if isBreak edition character then
      ⟨character, mark⟩ :: glyphsFrom edition (mark.nextLine 1) rest
    else
      ⟨character, mark⟩ :: glyphsFrom edition mark.next rest

/--
The glyphs of a text.  The first edition passes over a byte order mark and refuses
control characters; the second one ends a text at the first null character.
-/
def glyphs? (edition : Edition) (text : List Char) : Option (List Glyph) :=
  match edition with
  | .v1_1 =>
    let text :=
      match text with
      | '\uFEFF' :: rest => rest
      | _ => text
    if text.all isAllowed then some (glyphsFrom edition {} text) else none
  | .v1_2 => some (glyphsFrom edition {} (text.takeWhile (· ≠ endOfText)))

/-- The character of the first glyph. -/
def front : List Glyph → Char
  | [] => endOfText
  | glyph :: _ => glyph.character

/-- The place of the first glyph. -/
def place : List Glyph → Mark
  | [] => {}
  | glyph :: _ => glyph.mark

/-- Whether a line of three equal characters, and nothing right behind them, begins here. -/
def isMarkerLine (edition : Edition) (character : Char) (input : List Glyph) : Bool :=
  (place input).column = 0 && (input.take 3).map Glyph.character = [character, character, character]
    && isGap edition (front (input.drop 3))

/-- Whether a marker between documents begins here. -/
def isDocumentMarker (edition : Edition) (input : List Glyph) : Bool :=
  isMarkerLine edition '-' input || isMarkerLine edition '.' input

end Yaml

end ClusterMembership
