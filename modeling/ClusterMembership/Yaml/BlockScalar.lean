import ClusterMembership.Text.Numeral
import ClusterMembership.Yaml.Gap

/-!
# Block scalars

A block scalar is a sequence of indented lines below its header.  A literal one
keeps its line breaks.  A folded one turns a single break between two lines into a
space, unless one of the lines begins with a blank.  The header may fix the
indentation and say what becomes of the breaks at the end.
-/

namespace ClusterMembership

namespace Yaml

/-- What becomes of the line breaks at the end of a block scalar. -/
inductive Chomping where
  /-- None is kept. -/
  | strip
  /-- The first one is kept. -/
  | clip
  /-- All are kept. -/
  | keep
  deriving DecidableEq, Inhabited, Repr

/-- The header of a block scalar. -/
structure BlockHeader where
  chomping : Chomping := .clip
  /-- The indentation below the parent, where the header fixes it. -/
  indent : Option Nat := none
  deriving DecidableEq, Inhabited

/-- The chomping indicator that comes next. -/
def readChomping (input : List Glyph) : Option Chomping × List Glyph :=
  match front input with
  | '+' => (some .keep, input.tail)
  | '-' => (some .strip, input.tail)
  | _ => (none, input)

/-- The indentation indicator that comes next, which cannot be zero. -/
def readIndent? (input : List Glyph) : Option (Option Nat × List Glyph) :=
  match Text.digitValue? 10 (front input) with
  | none => some (none, input)
  | some 0 => none
  | some indent => some (some indent, input.tail)

/-- Read the two indicators of a header, in either order. -/
def readIndicators? (input : List Glyph) : Option (BlockHeader × List Glyph) :=
  match readChomping input with
  | (some chomping, rest) =>
    (readIndent? rest).map fun (indent, rest) => ({ chomping, indent }, rest)
  | (none, _) =>
    (readIndent? input).map fun (indent, rest) =>
      match indent with
      | none => ({}, rest)
      | some _ =>
        let (chomping, rest) := readChomping rest
        ({ chomping := chomping.getD .clip, indent }, rest)

/-- Pass over blanks and a comment, which the second edition wants behind a blank. -/
def passComment? (edition : Edition) (input : List Glyph) : Option (List Glyph) :=
  let rest := input.dropWhile (isBlank ·.character)
  if front rest = '#' then
    if edition = .v1_2 && rest.length = input.length then
      none
    else
      some (rest.dropWhile (!isLineEnd edition ·.character))
  else
    some rest

/-- What is known of the indentation while the empty lines are read. -/
structure EmptyLines where
  breaks : List Char := []
  /-- The longest run of spaces that was met. -/
  most : Nat := 0
  rest : List Glyph := []

/--
Read the indentation and the empty lines that come next.  The first edition refuses
tabs in the indentation.
-/
def readEmptyLines? (edition : Edition) (indent : Option Nat) :
    (most : Nat) → List Glyph → Option EmptyLines
  | most, [] => some { most }
  | most, glyph :: rest =>
    let column := glyph.mark.column
    let inside := indent.all (column < ·)
    if inside && glyph.character = ' ' then
      readEmptyLines? edition indent most rest
    else if inside && glyph.character = '\t' && edition = .v1_1 then
      none
    else if isBreak edition glyph.character then
      (readEmptyLines? edition indent (max most column) rest).map fun lines =>
        { lines with breaks := glyph.character :: lines.breaks }
    else
      some { most := max most column, rest := glyph :: rest }

/-- The indentation of the lines, found from the empty lines and the first one. -/
def foundIndent (edition : Edition) (parent : Int) (most : Nat) : Nat :=
  match edition with
  | .v1_1 => max most (max (parent + 1).toNat 1)
  | .v1_2 => max most (max (parent + 1).toNat (if parent > 0 then 1 else 0))

/-- A line of a block scalar and the breaks behind it. -/
structure BlockLine where
  text : List Char
  /-- The break that ends the line, unless the text does. -/
  ending : List Char
  /-- The breaks of the empty lines that follow. -/
  breaks : List Char
  deriving Inhabited

/-- Whether a line begins with a blank. -/
def BlockLine.isIndented (line : BlockLine) : Bool :=
  isBlank (line.text.headD endOfText)

/-- Read the lines of an indentation. -/
def readBlockLines? (edition : Edition) (indent : Nat) :
    (fuel : Nat) → List Glyph → Option (List BlockLine × List Glyph)
  | 0, _ => none
  | fuel + 1, input =>
    let isEnd := edition = .v1_2 && indent = 0 && isMarkerLine edition '.' input
    if (place input).column ≠ indent || front input = endOfText || isEnd then
      some ([], input)
    else do
      let text := (input.takeWhile (!isLineEnd edition ·.character)).map Glyph.character
      let rest := input.drop text.length
      if front rest = endOfText then
        return ([{ text, ending := [], breaks := [] }], rest)
      let empty ← readEmptyLines? edition (some indent) 0 rest.tail
      let (lines, after) ← readBlockLines? edition indent fuel empty.rest
      return ({ text, ending := [front rest], breaks := empty.breaks } :: lines, after)

/-- What stands between a line and the next one. -/
def BlockLine.between (line : BlockLine) (isLiteral : Bool) (next : BlockLine) : List Char :=
  if !isLiteral && line.ending = ['\n'] && !line.isIndented && !next.isIndented then
    if line.breaks.isEmpty then [' '] else line.breaks
  else
    line.ending ++ line.breaks

/-- Join the lines; the breaks behind the last one are left to chomping. -/
def joinBlockLines (isLiteral : Bool) : List BlockLine → List Char
  | [] => []
  | [line] => line.text
  | line :: next :: lines =>
    line.text ++ line.between isLiteral next ++ joinBlockLines isLiteral (next :: lines)

/--
The breaks at the end.  Before the lines there may be empty ones, and in the second
edition the end of the text counts as a break behind an indented line.
-/
def chomped
    (edition : Edition)
    (chomping : Chomping)
    (parent : Int)
    (headerBreak first : List Char)
    (lines : List BlockLine)
    (rest : List Glyph) :
    List Char :=
  let atEnd := edition = .v1_2 && front rest = endOfText
  match lines.getLast? with
  | some line =>
    let added := if atEnd && max parent 1 ≤ (place rest).column then ['\n'] else []
    match chomping with
    | .strip => []
    | .clip => line.ending ++ added
    | .keep => line.ending ++ added ++ line.breaks
  | none =>
    match chomping with
    | .strip => []
    | .clip => if atEnd then headerBreak else []
    | .keep => if atEnd && first.isEmpty then headerBreak else first

/--
Read a block scalar below a parent with some indentation.  The input begins with the
indicator of the presentation.
-/
def readBlockScalar
    (edition : Edition)
    (isLiteral : Bool)
    (parent : Int)
    (input : List Glyph) :
    Option (List Char × List Glyph) := do
  let (header, rest) ← readIndicators? input.tail
  let rest ← passComment? edition rest
  if !isLineEnd edition (front rest) then
    none
  let headerBreak := if isBreak edition (front rest) then [front rest] else []
  let rest := rest.drop headerBreak.length
  if edition = .v1_2 && front rest = '\t' then
    none
  let fixed := header.indent.map fun indent => (max parent 0).toNat + indent
  let empty ← readEmptyLines? edition fixed 0 rest
  let indent := fixed.getD (foundIndent edition parent empty.most)
  let column := (place empty.rest).column
  let isEnd := front empty.rest = endOfText
  if edition = .v1_2 && !isEnd && column < indent && parent < column then
    none
  let (lines, rest) ←
    if edition = .v1_2 && isEnd then some ([], empty.rest)
    else readBlockLines? edition indent (empty.rest.length + 1) empty.rest
  let first := if lines.isEmpty then [] else empty.breaks
  let tail := chomped edition header.chomping parent headerBreak empty.breaks lines rest
  return (first ++ joinBlockLines isLiteral lines ++ tail, rest)

end Yaml

end ClusterMembership
