import ClusterMembership.Yaml.BlockScalar
import ClusterMembership.Yaml.Plain
import ClusterMembership.Yaml.Property
import ClusterMembership.Yaml.Quoted

/-!
# From layout to tokens

The columns of a text decide where block collections begin and end, and whether
something is a key shows only when the colon behind it comes.  The scan keeps the
indentation of the open collections and, for every open flow collection, the token
that may turn out to be a key.
-/

namespace ClusterMembership

namespace Yaml

/-- A place at which a key may begin. -/
structure PossibleKey where
  /-- Whether nothing but a key may stand there. -/
  required : Bool
  /-- The number of tokens before it. -/
  position : Nat
  mark : Mark
  deriving DecidableEq, Inhabited

/-- An indentation that holds again when the one above it ends. -/
structure Indentation where
  indent : Int
  /-- Whether the indentation above is that of a block collection. -/
  isBlock : Bool := true
  deriving DecidableEq, Inhabited

/-- The state of a scan. -/
structure Layout where
  edition : Edition
  input : List Glyph
  tokens : Array Token := #[]
  /-- The possible key of the block context, and those of the open flow collections above it. -/
  keys : List (Option PossibleKey) := [none]
  /-- Whether a key may begin at the next token. -/
  keyAllowed : Bool := true
  indent : Int := -1
  indentations : List Indentation := []
  /-- Where a colon may follow a key without a blank, in the second edition. -/
  adjacent : Option Nat := none

namespace Layout

variable (layout : Layout)

def isFlow : Bool := layout.keys.length > 1

def next : Char := front layout.input

def mark : Mark := place layout.input

/-- The column of the next glyph. -/
def column : Int := layout.mark.column

/-- Whether a gap comes behind the next glyph. -/
def beforeGap : Bool := isGap layout.edition (front layout.input.tail)

def push (token : Token) : Layout := { layout with tokens := layout.tokens.push token }

/-- Go on behind a number of glyphs. -/
def pass (count : Nat) : Layout := { layout with input := layout.input.drop count }

/-- Close the block collections that are indented more than a column. -/
def unroll (column : Int) : List Indentation → Layout → Layout
  | [], layout => layout
  | indentation :: rest, layout =>
    if layout.indent ≤ column then
      layout
    else
      unroll column rest
        { layout with
          indent := indentation.indent
          indentations := rest
          tokens :=
            if indentation.isBlock then layout.tokens.push .blockEnd else layout.tokens }

/-- Close the block collections that end before a column, outside of flow collections. -/
def closeBlocks (column : Int) : Layout :=
  if layout.isFlow then layout else unroll column layout.indentations layout

/-- Undo an indentation that belongs to no block collection. -/
def dropExtraIndent : Layout :=
  match layout.indentations with
  | { indent, isBlock := false } :: rest => { layout with indent, indentations := rest }
  | _ => layout

/--
Indent by one column what is neither a block collection nor a plain scalar: in the
second edition it has to be indented more than the collection it belongs to.
-/
def addExtraIndent : Layout :=
  match layout.indentations with
  | { isBlock := true, .. } :: _ =>
    if layout.edition = .v1_2 && !layout.isFlow then
      { layout with
        indent := layout.indent + 1
        indentations := { indent := layout.indent, isBlock := false } :: layout.indentations }
    else
      layout
  | _ => layout

/-- Open a block collection at a column, whose first token has a position. -/
def openBlock (column : Int) (position : Nat) (token : Token) : Layout :=
  if layout.isFlow then
    layout
  else
    let layout := if layout.indent ≤ column then layout.dropExtraIndent else layout
    if layout.indent < column then
      { layout with
        indent := column
        indentations := { indent := layout.indent } :: layout.indentations
        tokens := layout.tokens.insertIdxIfInBounds position token }
    else
      layout

/-- Give up the possible key of the innermost collection, unless it is required. -/
def dropKey? : Option Layout :=
  match layout.keys with
  | some key :: keys =>
    if key.required then none else some { layout with keys := none :: keys }
  | _ => some layout

/-- Note that a key may begin here. -/
def saveKey? : Option Layout :=
  if layout.keyAllowed then do
    let isBlock := layout.indentations.head?.all Indentation.isBlock
    let key : PossibleKey :=
      { required := !layout.isFlow && layout.indent = layout.column && isBlock
        position := layout.tokens.size
        mark := layout.mark }
    let layout ← layout.dropKey?
    return { layout with keys := some key :: layout.keys.tail }
  else
    some layout

/-- How many characters a key may span at most. -/
def longestKey : Nat := 1024

/-- Whether a possible key is too far back to be one. -/
def isStale (key : PossibleKey) : Bool :=
  (layout.edition = .v1_1 || !layout.isFlow) &&
    (key.mark.line < layout.mark.line || key.mark.index + longestKey < layout.mark.index)

/-- Give up the possible keys that are too far back, unless one of them is required. -/
def dropStaleKeys? : Option Layout := do
  let keys ← layout.keys.mapM fun key =>
    match key with
    | some key =>
      if layout.isStale key then (if key.required then none else some none) else some (some key)
    | none => some none
  return { layout with keys }

/-- Whether a tab may stand in the indentation. -/
def allowsTab : Bool :=
  match layout.edition with
  | .v1_1 => layout.isFlow || !layout.keyAllowed
  | .v1_2 =>
    let inside := !layout.indentations.isEmpty && layout.column < layout.indent
    !inside || isBlankToLineEnd layout.edition layout.input

/-- Go on to the next token, over blanks, comments and line breaks. -/
def toNextToken : (fuel : Nat) → Layout → Option Layout
  | 0, _ => none
  | fuel + 1, layout =>
    if layout.next = ' ' then
      toNextToken fuel (layout.pass 1)
    else if layout.next = '\t' then
      if layout.allowsTab then toNextToken fuel (layout.pass 1)
      else if layout.edition = .v1_1 then some layout
      else none
    else if layout.next = '#' then
      let input := layout.input.dropWhile (!isLineEnd layout.edition ·.character)
      toNextToken fuel { layout with input }
    else if isBreak layout.edition layout.next then
      toNextToken fuel { layout.pass 1 with keyAllowed := layout.keyAllowed || !layout.isFlow }
    else
      some layout

/-- In the second edition a comment right behind a token is refused. -/
def passBlanksBehind? : Option Layout :=
  match layout.edition with
  | .v1_1 => some layout
  | .v1_2 => (passComment? .v1_2 layout.input).map fun input => { layout with input }

/-- How many flow collections may be open at once in the second edition. -/
def deepestFlow : Nat := 255

/-- Begin a flow collection. -/
def openFlow? (token : Token) : Option Layout := do
  let layout ← layout.saveKey?
  let layout := layout.addExtraIndent
  if layout.edition = .v1_2 && deepestFlow < layout.keys.length then
    none
  let layout := (layout.push token).pass 1
  { layout with keys := none :: layout.keys, keyAllowed := true }.passBlanksBehind?

/-- End a flow collection. -/
def closeFlow? (token : Token) : Option Layout := do
  let layout ← layout.dropKey?
  let keys :=
    match layout.keys with
    | _ :: outer :: keys => outer :: keys
    | keys => keys
  let layout ← ((layout.push token).pass 1).passBlanksBehind?
  let layout := { layout with keys, keyAllowed := false }
  return { layout with adjacent := if layout.isFlow then some layout.mark.index else none }

/-- An entry of a flow collection ends. -/
def flowEntry? : Option Layout := do
  let layout ← layout.dropKey?
  { (layout.push .flowEntry).pass 1 with keyAllowed := true }.passBlanksBehind?

/-- An entry of a block sequence begins. -/
def blockEntry? : Option Layout := do
  if (!layout.isFlow && !layout.keyAllowed) || (layout.isFlow && layout.edition = .v1_2) then
    none
  let layout := layout.openBlock layout.column layout.tokens.size .blockSequenceStart
  let layout ← layout.dropKey?
  let layout := { (layout.push .blockEntry).pass 1 with keyAllowed := true }
  let behind := layout.input.dropWhile (isBlank ·.character)
  let isNested := front behind = '-' && isGap layout.edition (front behind.tail)
  let tabbed := (layout.input.takeWhile (isBlank ·.character)).any (·.character = '\t')
  if layout.edition = .v1_2 && isNested && tabbed then
    none
  let next := front (layout.input.dropWhile (·.character = ' '))
  if isBreak layout.edition next || isFlowMark next || next = '#' then
    return layout.addExtraIndent
  return layout

/-- A key begins that is marked as one. -/
def complexKey? : Option Layout := do
  if !layout.isFlow && !layout.keyAllowed then
    none
  let layout := layout.openBlock layout.column layout.tokens.size .blockMappingStart
  let layout ← layout.dropKey?
  let layout := { (layout.push .key).pass 1 with keyAllowed := !layout.isFlow }
  if layout.edition = .v1_2 && front (layout.input.dropWhile (·.character = ' ')) = '\t' then
    none
  return layout

/-- A value begins: behind a possible key, which is one now, or behind a complex key. -/
def value? : Option Layout := do
  let isTabbed :=
    layout.edition = .v1_2 && front layout.input.tail = '\t' &&
      !((layout.input.tail.takeWhile (isBlank ·.character)).any (·.character = ' '))
  let behind := front (layout.input.tail.dropWhile (isBlank ·.character))
  if isTabbed && (behind = '-' || isWordCharacter behind) then
    none
  match layout.keys with
  | some key :: keys =>
    let tokens := layout.tokens.insertIdxIfInBounds key.position .key
    let layout := { layout with tokens, keys := none :: keys, keyAllowed := false }
    let layout := layout.openBlock key.mark.column key.position .blockMappingStart
    return (layout.addExtraIndent.push .value).pass 1
  | _ =>
    if !layout.isFlow && !layout.keyAllowed then
      none
    let layout := layout.openBlock layout.column layout.tokens.size .blockMappingStart
    let layout := { layout.addExtraIndent with keyAllowed := !layout.isFlow }
    return (layout.push .value).pass 1

/-- An anchor or an alias. -/
def anchor? (token : String → Token) : Option Layout := do
  let layout ← layout.saveKey?
  let (name, input) ← readAnchor? layout.edition layout.input
  return { layout.push (token name) with input, keyAllowed := false }

def tag? : Option Layout := do
  let layout ← layout.saveKey?
  let (token, input) ← readTag? layout.edition layout.isFlow layout.input
  return { layout.push token with input, keyAllowed := false }

def blockScalar? (style : Style) : Option Layout := do
  let layout ← layout.dropKey?
  let layout := layout.dropExtraIndent
  let (text, input) ←
    readBlockScalar layout.edition (style = .literal) layout.indent layout.input
  return { layout.push (.scalar (String.ofList text) style) with input, keyAllowed := true }

/-- Whether what comes behind a quoted scalar is refused, in the second edition. -/
def refusedBehindQuote (start : Mark) : Bool :=
  let next := layout.next
  layout.edition = .v1_2 && !isLineEnd layout.edition next &&
    !(layout.isFlow && (next = ',' || next = ']' || next = '\x7d' || next = ':')) &&
    !(!layout.isFlow && next = ':' && start.line = layout.mark.line)

def quoted? (quote : Char) : Option Layout := do
  let start := layout.mark
  let layout ← layout.saveKey?
  let (text, input) ← readQuoted layout.edition quote layout.indent layout.input
  let style : Style := if quote = '"' then .doubleQuoted else .singleQuoted
  let layout := { layout.push (.scalar (String.ofList text) style) with input, keyAllowed := false }
  let layout ← layout.passBlanksBehind?
  if layout.refusedBehindQuote start then
    none
  return { layout with adjacent := some layout.mark.index }

def plain? : Option Layout := do
  let layout ← layout.saveKey?
  let layout := if layout.edition = .v1_2 then layout.dropExtraIndent else layout
  let context : PlainContext :=
    { edition := layout.edition, isFlow := layout.isFlow, indent := layout.indent + 1 }
  if layout.edition = .v1_2 && layout.isFlow && layout.column < context.indent then
    none
  let (text, broken, input) ← context.read layout.input
  return { layout.push (.scalar (String.ofList text) .plain) with input, keyAllowed := broken }

/-- Close everything in front of a directive or a marker between documents. -/
def betweenDocuments? : Option Layout := do
  let layout ← (layout.closeBlocks (-1)).dropKey?
  return { layout with keyAllowed := false }

def directive? : Option Layout := do
  let layout ← layout.betweenDocuments?
  let (token, input) ← readDirective? layout.edition layout.input
  let tokens := layout.tokens ++ token.toArray
  return { layout with tokens, input }

/-- A marker between documents; in the second edition nothing may follow the end marker. -/
def documentMarker? : Option Layout := do
  let isEnd := layout.next = '.'
  let layout ← layout.betweenDocuments?
  let layout := (layout.push (if isEnd then .documentEnd else .documentStart)).pass 3
  if isEnd && layout.edition = .v1_2 then
    let layout ← layout.passBlanksBehind?
    if isLineEnd layout.edition layout.next then some layout else none
  else
    some layout

/-- Whether a plain scalar may begin here, where nothing else does. -/
def allowsPlain : Bool :=
  let next := layout.next
  match layout.edition with
  | .v1_1 =>
    !(isGap .v1_1 next || "-?:,[]\x7b\x7d#&*!|>'\"%@`".toList.contains next) ||
      (next = '-' && !isBlank (front layout.input.tail)) ||
      (!layout.isFlow && (next = '?' || next = ':') && !layout.beforeGap)
  | .v1_2 => !"%@`".toList.contains next

/-- Whether a question mark is the indicator of a key. -/
def isKeyMark : Bool :=
  layout.beforeGap || (layout.edition = .v1_1 && layout.isFlow)

/-- Whether a colon is the indicator of a value. -/
def isValueMark : Bool :=
  layout.beforeGap ||
    (layout.isFlow &&
      (layout.edition = .v1_1 || isFlowMark (front layout.input.tail) ||
        layout.adjacent = some layout.mark.index))

/-- Read the next token, in front of which the scan stands. -/
def token? : Option Layout :=
  match layout.next with
  | '[' => layout.openFlow? .flowSequenceStart
  | '\x7b' => layout.openFlow? .flowMappingStart
  | ']' => layout.closeFlow? .flowSequenceEnd
  | '\x7d' => layout.closeFlow? .flowMappingEnd
  | ',' => layout.flowEntry?
  | '*' => layout.anchor? .alias
  | '&' => layout.anchor? .anchor
  | '!' => layout.tag?
  | '\'' => layout.quoted? '\''
  | '"' => layout.quoted? '"'
  | next =>
    if next = '-' && layout.beforeGap then layout.blockEntry?
    else if next = '?' && layout.isKeyMark then layout.complexKey?
    else if next = ':' && layout.isValueMark then layout.value?
    else if next = '|' && !layout.isFlow then layout.blockScalar? .literal
    else if next = '>' && !layout.isFlow then layout.blockScalar? .folded
    else if layout.allowsPlain then layout.plain?
    else none

/-- Read all tokens; every one but the last takes at least one glyph. -/
def readAll : (fuel : Nat) → Layout → Option (Array Token)
  | 0, _ => none
  | fuel + 1, layout => do
    let layout ← toNextToken (layout.input.length + 1) layout
    let layout ← layout.dropStaleKeys?
    let layout := layout.closeBlocks layout.column
    if layout.next = endOfText then
      return (← layout.betweenDocuments?).tokens
    let isFirst := layout.mark.column = 0
    if isFirst && layout.next = '%' then
      readAll fuel (← layout.directive?)
    else if isFirst && isDocumentMarker layout.edition layout.input then
      readAll fuel (← layout.documentMarker?)
    else if layout.edition = .v1_2 && layout.column < layout.indent then
      none
    else
      readAll fuel (← layout.token?)

end Layout

/-- The tokens of a text, if it is well formed as far as tokens go. -/
def tokens? (edition : Edition) (text : String) : Option (List Token) := do
  let input ← glyphs? edition text.toList
  return (← Layout.readAll (input.length + 1) { edition, input }).toList

end Yaml

end ClusterMembership
