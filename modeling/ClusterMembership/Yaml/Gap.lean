import ClusterMembership.Yaml.Glyph

/-!
# Gaps between words

A plain or quoted scalar is a sequence of words.  Between two words of one line the
blanks count; where lines end between them the first break is folded: it becomes a
space when it is the only one, and disappears otherwise.
-/

namespace ClusterMembership

namespace Yaml

/-- What stands between two words. -/
structure Gap where
  /-- The blanks before the first line break. -/
  blanks : List Char := []
  breaks : List Char := []
  deriving DecidableEq, Inhabited, Repr

/-- The text a gap contributes to a scalar. -/
def Gap.text (gap : Gap) : List Char :=
  match gap.breaks with
  | [] => gap.blanks
  | ['\n'] => [' ']
  | '\n' :: breaks => breaks
  | breaks => breaks

/--
Read the blanks and line breaks that come next.  Blanks behind a break are
indentation, which may be refused.
-/
def readGap
    (edition : Edition)
    (refused : List Glyph → Bool) :
    (broken : Bool) → List Glyph → Option (Gap × List Glyph)
  | _, [] => some ({}, [])
  | broken, glyph :: rest =>
    if isBlank glyph.character then
      if broken then
        if refused (glyph :: rest) then none else readGap edition refused broken rest
      else
        (readGap edition refused broken rest).map fun (gap, rest) =>
          ({ gap with blanks := glyph.character :: gap.blanks }, rest)
    else if isBreak edition glyph.character then
      (readGap edition refused true rest).map fun (gap, rest) =>
        ({ gap with breaks := glyph.character :: gap.breaks }, rest)
    else
      some ({}, glyph :: rest)

/-- Whether a line holds nothing but blanks from here on, a comment apart. -/
def isBlankToLineEnd (edition : Edition) (input : List Glyph) : Bool :=
  let next := front (input.dropWhile (isBlank ·.character))
  isLineEnd edition next || next = '#'

end Yaml

end ClusterMembership
