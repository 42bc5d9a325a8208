import ClusterMembership.Text.Numeral
import ClusterMembership.Yaml.Gap

/-!
# Quoted scalars

Between single quotes a quote is written twice.  Between double quotes characters
may be escaped, also by their codes, and an escaped line break joins two lines
without a space.
-/

namespace ClusterMembership

namespace Yaml

/-- The character an escape stands for. -/
def escape? : Char → Option Char
  | '0' => some '\x00'
  | 'a' => some '\x07'
  | 'b' => some '\x08'
  | 't' => some '\t'
  | '\t' => some '\t'
  | 'n' => some '\n'
  | 'v' => some '\x0B'
  | 'f' => some '\x0C'
  | 'r' => some '\r'
  | 'e' => some '\x1B'
  | ' ' => some ' '
  | '"' => some '"'
  | '/' => some '/'
  | '\\' => some '\\'
  | 'N' => some '\u0085'
  | '_' => some '\u00A0'
  | 'L' => some '\u2028'
  | 'P' => some '\u2029'
  | _ => none

/-- How many hexadecimal digits follow an escape for a code. -/
def codeWidth? : Char → Option Nat
  | 'x' => some 2
  | 'u' => some 4
  | 'U' => some 8
  | _ => none

/-- The character with a code that is written in hexadecimal digits. -/
def codeCharacter? (width : Nat) (input : List Glyph) : Option Char := do
  let digits := (input.take width).map Glyph.character
  let code ← if digits.length = width then Text.natural? 16 digits else none
  if code.isValidChar then some (Char.ofNat code) else none

/-- What may follow in a word of a quoted scalar. -/
inductive QuotedPart where
  /-- The word ends, or the scalar does. -/
  | stop
  /-- A character, written with so many characters. -/
  | character (character : Char) (width : Nat)
  /-- A line break that joins two lines. -/
  | join
  deriving DecidableEq

/-- What comes next in a quoted scalar, unless an escape is malformed. -/
def quotedPart? (edition : Edition) (quote : Char) : List Glyph → Option QuotedPart
  | [] => some .stop
  | glyph :: rest =>
    if isGap edition glyph.character then
      some .stop
    else if glyph.character = quote then
      if quote = '\'' && front rest = quote then some (.character quote 2) else some .stop
    else if quote = '"' && glyph.character = '\\' then
      if isBreak edition (front rest) then
        some .join
      else
        match codeWidth? (front rest) with
        | some width => (codeCharacter? width rest.tail).map (.character · (width + 2))
        | none => (escape? (front rest)).map (.character · 2)
    else
      some (.character glyph.character 1)

/-- Read the characters of one word; the answer says also whether the next line is joined. -/
def readQuotedWord (edition : Edition) (quote : Char) :
    (fuel : Nat) → List Glyph → Option (List Char × Bool × List Glyph)
  | 0, _ => none
  | fuel + 1, input =>
    match quotedPart? edition quote input with
    | none => none
    | some .stop => some ([], false, input)
    | some .join => some ([], true, input.drop 2)
    | some (.character character width) =>
      (readQuotedWord edition quote fuel (input.drop width)).map fun (word, joined, rest) =>
        (character :: word, joined, rest)

/--
Read up to the closing quote.  Lines of a quoted scalar in a block collection of the
second edition have to be indented.
-/
def readQuotedFrom (edition : Edition) (quote : Char) (indent : Int) :
    (fuel : Nat) → List Glyph → Option (List Char × List Glyph)
  | 0, _ => none
  | fuel + 1, input => do
    let column := (place input).column
    if isDocumentMarker edition input || front input = endOfText ||
        (edition = .v1_2 && column < indent) then
      none
    let (word, joined, rest) ← readQuotedWord edition quote (input.length + 1) input
    if front rest = quote then
      return (word, rest.tail)
    let refused (input : List Glyph) : Bool :=
      edition = .v1_2 && front input = '\t' && (place input).column < indent
    let (gap, rest) ← readGap edition refused joined rest
    let between := if joined then gap.breaks else gap.text
    let (words, rest) ← readQuotedFrom edition quote indent fuel rest
    return (word ++ between ++ words, rest)

/-- Read a quoted scalar. -/
def readQuoted (edition : Edition) (quote : Char) (indent : Int) (input : List Glyph) :
    Option (List Char × List Glyph) :=
  readQuotedFrom edition quote indent (input.length + 1) input.tail

end Yaml

end ClusterMembership
