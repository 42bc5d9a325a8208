import ClusterMembership.Yaml.Gap

/-!
# Plain scalars

A plain scalar stands without quotes.  It ends at a comment, before a colon that is
an indicator, in flow collections also at their marks, and in block collections
where a line is indented too little.
-/

namespace ClusterMembership

namespace Yaml

/-- Where a plain scalar stands. -/
structure PlainContext where
  edition : Edition
  /-- Whether it stands in a flow collection. -/
  isFlow : Bool
  /-- The least column of its lines in a block collection. -/
  indent : Int
  deriving DecidableEq

namespace PlainContext

/--
Whether a colon followed by some character is refused: in flow collections the
first edition wants a blank before the next mark.
-/
def refusesColon (context : PlainContext) (next : Char) : Bool :=
  context.edition = .v1_1 && context.isFlow && (isFlowMark next || next = '?')

/-- Whether a colon followed by some character is an indicator. -/
def isIndicator (context : PlainContext) (next : Char) : Bool :=
  isGap context.edition next ||
    (context.edition = .v1_2 && context.isFlow && isFlowMark next)

/-- Whether a dash is refused: in flow collections of the second edition, before a mark. -/
def refusesDash (context : PlainContext) (input : List Glyph) : Bool :=
  context.edition = .v1_2 && context.isFlow && front input = '-' && isFlowMark (front input.tail)

/-- Read the characters of one word. -/
def readWord (context : PlainContext) : List Glyph → Option (List Char × List Glyph)
  | [] => some ([], [])
  | glyph :: rest =>
    let character := glyph.character
    if isGap context.edition character then
      some ([], glyph :: rest)
    else if character = ':' && context.refusesColon (front rest) then
      none
    else if (character = ':' && context.isIndicator (front rest)) ||
        (context.isFlow && isFlowMark character) then
      some ([], glyph :: rest)
    else
      (context.readWord rest).map fun (word, rest) => (character :: word, rest)

/--
Whether a tab is refused as indentation.  The second edition allows it in a line
that holds nothing else.
-/
def refusesTab (context : PlainContext) (input : List Glyph) : Bool :=
  front input = '\t' && (place input).column < context.indent &&
    (context.edition = .v1_1 || !isBlankToLineEnd context.edition input)

/--
Read the words behind a gap.  The answer says also whether the last thing read was
a gap with a line break.
-/
def readWords (context : PlainContext) :
    (fuel : Nat) → Gap → List Glyph → Option (List Char × Bool × List Glyph)
  | 0, _, _ => none
  | fuel + 1, gap, input => do
    let stop := ([], !gap.breaks.isEmpty, input)
    if isDocumentMarker context.edition input || front input = '#' then
      return stop
    if context.refusesDash input then
      none
    let (word, rest) ← context.readWord input
    if word.isEmpty then
      return stop
    let (next, rest) ← readGap context.edition context.refusesTab false rest
    let indented := context.isFlow || context.indent ≤ (place rest).column
    let (words, broken, rest) ←
      if next = {} then some ([], false, rest)
      else if indented then context.readWords fuel next rest
      else some ([], !next.breaks.isEmpty, rest)
    return (gap.text ++ word ++ words, broken, rest)

/-- Read a plain scalar. -/
def read (context : PlainContext) (input : List Glyph) :
    Option (List Char × Bool × List Glyph) :=
  context.readWords (input.length + 1) {} input

end PlainContext

end Yaml

end ClusterMembership
