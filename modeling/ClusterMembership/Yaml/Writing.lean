import ClusterMembership.Settings.Document
import ClusterMembership.Yaml.Schema
import ClusterMembership.Yaml.Token

/-!
# Writing a document as YAML

Tables and lists are written as blocks, each level indented by two columns; only
empty ones are written between brackets.  A text is written plainly where it can be,
and otherwise between single quotes, between double quotes, or as a block of lines.
A key that has several lines or is long stands behind a question mark.
-/

namespace ClusterMembership

namespace Yaml

/-- By how many columns every level is indented. -/
def indentStep : Nat := 2

/-- The most bytes of a key that needs no question mark. -/
def longestSimpleKey : Nat := 128

/-- Whether a character breaks a line when it is read back. -/
def breaksLine (character : Char) : Bool :=
  character = '\n' || character = '\r' || character = '\u0085' || character = '\u2028' ||
    character = '\u2029'

/-- Whether a character may be written without an escape. -/
def isPrintable (character : Char) : Bool :=
  let code := character.toNat
  code = 0xA || (0x20 ≤ code && code ≤ 0x7E) || (0xA0 ≤ code && code ≤ 0xD7FF) ||
    (0xE000 ≤ code && code ≤ 0xFFFD && code ≠ 0xFEFF) || 0x10000 ≤ code

/-- Whether a character separates words or lines. -/
def isSeparator (character : Char) : Bool :=
  character = ' ' || character = '\t' || breaksLine character

/-- Whether a list has two neighbours of given kinds. -/
def hasNeighbours (first second : Char → Bool) (characters : List Char) : Bool :=
  (characters.zip characters.tail).any fun (left, right) => first left && second right

/-- Whether nothing, or a separator, comes first. -/
def startsSeparated (characters : List Char) : Bool :=
  characters.head?.all isSeparator

/-- Whether the first character would be taken for an indicator. -/
def startsWithIndicator (characters : List Char) : Bool :=
  match characters with
  | [] => false
  | first :: rest =>
    "#,[]\x7b\x7d&*!|>'\"%@`".toList.contains first ||
      ("?:-".toList.contains first && startsSeparated rest) ||
      characters.take 3 = ['-', '-', '-'] || characters.take 3 = ['.', '.', '.']

/-- Whether a colon or a number sign would be taken for an indicator. -/
def holdsIndicator : List Char → Bool
  | [] => false
  | character :: rest =>
    (character = ':' && startsSeparated rest) ||
      (isSeparator character && rest.head? = some '#') || holdsIndicator rest

def holdsBreak (characters : List Char) : Bool :=
  characters.any breaksLine

/-- Whether all of a text can be written without escapes, and a space never precedes a break. -/
def isClean (characters : List Char) : Bool :=
  characters.all isPrintable && !hasNeighbours (· = ' ') breaksLine characters

/-- Whether a text can be written between single quotes. -/
def allowsSingleQuotes (characters : List Char) : Bool :=
  isClean characters && !hasNeighbours breaksLine (· = ' ') characters

/-- Whether a text can be written plainly. -/
def allowsPlainText (characters : List Char) : Bool :=
  isClean characters && !holdsBreak characters && characters.head? ≠ some ' ' &&
    characters.getLast? ≠ some ' ' && !startsWithIndicator characters &&
    !holdsIndicator characters

/-- Whether a text can be written as a block of lines. -/
def allowsLines (characters : List Char) : Bool :=
  isClean characters && characters.getLast? ≠ some ' '

/-- How a text is written; as a simple key it is written in one line. -/
def styleOf (isSimpleKey : Bool) (text : String) : Style :=
  let characters := text.toList
  let quoted : Style := if allowsSingleQuotes characters then .singleQuoted else .doubleQuoted
  if characters.contains '\n' then
    if isSimpleKey || !allowsLines characters then .doubleQuoted else .literal
  else if isSimpleKey && holdsBreak characters then .doubleQuoted
  else if looksTyped text || !allowsPlainText characters then quoted
  else .plain

/-- Spaces up to a column. -/
def spaces (count : Nat) : List Char :=
  List.replicate count ' '

/-- Characters in which the lines behind breaks are indented. -/
def indentLines (indent : Nat) (written : Char → List Char) : (behind : Bool) → List Char → List Char
  | _, [] => []
  | behind, character :: rest =>
    if breaksLine character then
      character :: indentLines indent written true rest
    else
      (if behind then spaces indent else []) ++ written character ++
        indentLines indent written false rest

/-- A text between single quotes. -/
def singleQuoted (indent : Nat) (characters : List Char) : List Char :=
  let closing := if characters.getLast?.any breaksLine then spaces indent else []
  let body := indentLines indent (fun c => if c = '\'' then ['\'', '\''] else [c]) false characters
  '\'' :: (body ++ closing ++ ['\''])

/-- A code in hexadecimal digits of a width. -/
def codeDigits : (width : Nat) → Nat → List Char
  | 0, _ => []
  | width + 1, code => codeDigits width (code / 16) ++ [(Text.digit (code % 16)).toUpper]

/-- The escape for a character. -/
def escapeOf (character : Char) : List Char :=
  let code := character.toNat
  match character with
  | '\x00' => ['0']
  | '\x07' => ['a']
  | '\x08' => ['b']
  | '\t' => ['t']
  | '\n' => ['n']
  | '\x0B' => ['v']
  | '\x0C' => ['f']
  | '\r' => ['r']
  | '\x1B' => ['e']
  | '"' => ['"']
  | '\\' => ['\\']
  | '\u0085' => ['N']
  | '\u2028' => ['L']
  | '\u2029' => ['P']
  | _ =>
    if code ≤ 0xFF then 'x' :: codeDigits 2 code
    else if code ≤ 0xFFFF then 'u' :: codeDigits 4 code
    else 'U' :: codeDigits 8 code

/-- A text between double quotes. -/
def doubleQuoted (characters : List Char) : List Char :=
  let written (character : Char) : List Char :=
    if !isPrintable character || breaksLine character || character = '"' || character = '\\' then
      '\\' :: escapeOf character
    else
      [character]
  '"' :: (characters.flatMap written ++ ['"'])

/-- What the header of a block of lines says about its end. -/
def chompingMark (characters : List Char) : List Char :=
  match characters.reverse with
  | [] => ['-']
  | [last] => if breaksLine last then ['+'] else ['-']
  | last :: before :: _ =>
    if !breaksLine last then ['-'] else if breaksLine before then ['+'] else []

/-- A text as a block of lines. -/
def literal (indent : Nat) (characters : List Char) : List Char :=
  let needsIndent := characters.head?.any fun first => first = ' ' || breaksLine first
  let hint := if needsIndent then (Nat.repr indentStep).toList else []
  '|' :: (hint ++ chompingMark characters ++ '\n' ::
    indentLines indent (fun character => [character]) true characters)

/-- A text in its style. -/
def writtenText (style : Style) (indent : Nat) (text : String) : List Char :=
  let characters := text.toList
  match style with
  | .plain => characters
  | .singleQuoted => singleQuoted indent characters
  | .doubleQuoted => doubleQuoted characters
  | .literal | .folded => literal indent characters

/-- The rest of a line, ended unless a break ends it already. -/
def endLine (characters : List Char) : List Char :=
  if characters.getLast?.any breaksLine then characters else characters ++ ['\n']

/-- A text behind an indicator, up to the end of its last line. -/
def textLines (indent : Nat) (text : String) : List Char :=
  ' ' :: endLine (writtenText (styleOf false text) indent text)

/-- Whether a key may stand in front of its colon in one line. -/
def isSimpleKey (key : String) : Bool :=
  !holdsBreak key.toList && key.utf8ByteSize ≤ longestSimpleKey

/-- A key up to the indicator of its value, at an indentation. -/
def keyLines (indent : Nat) (key : String) : List Char :=
  if isSimpleKey key then
    spaces indent ++ writtenText (styleOf true key) (indent + indentStep) key ++ [':']
  else
    spaces indent ++ '?' :: textLines (indent + indentStep) key ++ spaces indent ++ [':']

mutual

/--
A document behind an indicator.  Blocks are indented, but the entries of a list stand
in a column of their own choice, which for the value of a key is that of the key.
-/
def valueLines (indent listIndent : Nat) : Document → List Char
  | .null => " null\n".toList
  | .flag value => ' ' :: endLine (if value then "true" else "false").toList
  | .natural value => ' ' :: endLine (Nat.repr value).toList
  | .text value => textLines indent value
  | .list [] => " []\n".toList
  | .list items => '\n' :: itemLines listIndent items
  | .table [] => " \x7b\x7d\n".toList
  | .table fields => '\n' :: fieldLines indent fields

def itemLines (indent : Nat) : List Document → List Char
  | [] => []
  | item :: items =>
    let inner := indent + indentStep
    spaces indent ++ '-' :: valueLines inner inner item ++ itemLines indent items

def fieldLines (indent : Nat) : List (String × Document) → List Char
  | [] => []
  | (key, value) :: fields =>
    keyLines indent key ++ valueLines (indent + indentStep) indent value ++
      fieldLines indent fields

end

/-- The text of a document that holds fields. -/
def written : Document → String
  | .table (field :: fields) => String.ofList (fieldLines 0 (field :: fields))
  | other => String.ofList ((valueLines 0 0 other).drop 1)

end Yaml

end ClusterMembership
