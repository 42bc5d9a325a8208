import ClusterMembership.Yaml.Layout

/-!
# The nodes of a YAML document

A document is a tree of scalars, sequences and mappings in which aliases refer to
anchored nodes.  Nodes are read from tokens, with tags in full and aliases as numbers
of anchors.
-/

namespace ClusterMembership

namespace Yaml

/-- A tag: what its handle stands for, and the suffix. -/
structure Tag where
  expansion : String
  suffix : String
  deriving DecidableEq, Inhabited, Repr

/-- The whole tag. -/
def Tag.text (tag : Tag) : String :=
  tag.expansion ++ tag.suffix

/-- What the tags of the standard begin with. -/
def Tag.standard : String := "tag:yaml.org,2002:"

inductive Node where
  | scalar (text : String) (style : Style) (tag : Option Tag)
  | sequence (items : List Node)
  | mapping (pairs : List (Node × Node))
  /-- The node that has an anchor. -/
  | alias (anchor : Nat)
  deriving Inhabited, Repr

/-- A scalar that is left out. -/
def Node.absent : Node := .scalar "" .plain none

/-- A document: its root, and the anchored nodes. -/
structure Content where
  root : Node
  anchors : List (Nat × Node) := []
  deriving Inhabited, Repr

/-- The anchored node an alias refers to, and any other node itself. -/
def Content.resolve (content : Content) : Node → Node
  | .alias anchor => (content.anchors.lookup anchor).getD .absent
  | node => node

/-- What is known while a document is read. -/
structure Reading where
  edition : Edition
  tokens : List Token
  /-- What the tag handles stand for. -/
  handles : List (String × String) := []
  /-- The numbers of the anchors' names. -/
  names : List (String × Nat) := []
  anchors : List (Nat × Node) := []

/-- A step of reading, which fails on tokens that form no document. -/
abbrev Read := StateT Reading Option

namespace Read

/-- The next token, which stays in front. -/
def peek : Read (Option Token) := do
  return (← get).tokens.head?

def skip : Read Unit :=
  modify fun reading => { reading with tokens := reading.tokens.tail }

/-- Skip a token if it comes next. -/
def accept (token : Token) : Read Bool := do
  if (← peek) = some token then
    skip
    return true
  return false

def expect (token : Token) : Read Unit := do
  if !(← accept token) then
    failure

/-- Whether one of some tokens comes next, or none at all. -/
def atAny (tokens : List Token) : Read Bool := do
  match ← peek with
  | some token => return tokens.contains token
  | none => return true

/--
The number of a name that becomes an anchor.  The first edition counts the names, so
a name that is given again may share its number with a later one.
-/
def declare (name : String) : Read Nat := do
  let reading ← get
  let known := reading.names.map Prod.fst
  let number := if reading.edition = .v1_1 then known.eraseDups.length else known.length
  set { reading with names := (name, number) :: reading.names }
  return number

def expand (handle suffix : String) : Read Tag := do
  if handle.isEmpty then
    return { expansion := "", suffix }
  match (← get).handles.lookup handle with
  | some expansion => return { expansion, suffix }
  | none => failure

/-- The anchor and the tag of a node, in either order. -/
structure Properties where
  anchor : Option Nat := none
  tag : Option Tag := none

def anchorName? : Read (Option String) := do
  match ← peek with
  | some (.anchor name) =>
    skip
    return some name
  | _ => return none

def tag? : Read (Option Tag) := do
  match ← peek with
  | some (.tag handle suffix) =>
    skip
    return some (← expand handle suffix)
  | _ => return none

def properties : Read Properties := do
  match ← anchorName? with
  | some name => return { anchor := some (← declare name), tag := ← tag? }
  | none =>
    let tag ← tag?
    match ← anchorName? with
    | some name => return { anchor := some (← declare name), tag }
    | none => return { tag }

/-- Enter the node of an anchor. -/
def enter (anchor : Option Nat) (node : Node) : Read Node := do
  if let some number := anchor then
    modify fun reading => { reading with anchors := (number, node) :: reading.anchors }
  return node

/-- The tag a scalar has in the end: the tag of an exclamation mark alone says nothing. -/
def scalarTag (edition : Edition) (tag : Option Tag) : Option Tag :=
  if edition = .v1_1 then tag.filter (·.text ≠ "!") else tag

/-- A scalar with its properties. -/
def scalar (properties : Properties) (text : String) (style : Style) : Read Node := do
  let edition := (← get).edition
  enter properties.anchor (.scalar text style (scalarTag edition properties.tag))

/-- Where the entries of a block sequence stand. -/
inductive Placement where
  /-- Below their parent, with an end of their own. -/
  | indented
  /-- In the column of the key whose value they are. -/
  | inline
  deriving DecidableEq

mutual

/--
Read a node; block collections, and sequences in the column of their key, are
accepted only in their places.
-/
def node (isBlock allowsInline : Bool) : (fuel : Nat) → Read Node
  | 0 => failure
  | fuel + 1 => do
    if let some (.alias name) ← peek then
      skip
      match (← get).names.lookup name with
      | some number => return .alias number
      | none => failure
    else
      let properties ← properties
      match ← peek with
      | some (.scalar text style) =>
        skip
        scalar properties text style
      | some .flowSequenceStart =>
        skip
        enter properties.anchor (.sequence (← flowItems true fuel))
      | some .flowMappingStart =>
        skip
        enter properties.anchor (.mapping (← flowPairs true fuel))
      | some .blockSequenceStart =>
        if !isBlock then
          failure
        skip
        enter properties.anchor (.sequence (← blockItems .indented fuel))
      | some .blockMappingStart =>
        if !isBlock then
          failure
        skip
        enter properties.anchor (.mapping (← blockPairs fuel))
      | token =>
        if allowsInline && token = some .blockEntry then
          enter properties.anchor (.sequence (← blockItems .inline fuel))
        else if properties.anchor.isSome || properties.tag.isSome then
          enter properties.anchor (.scalar "" .plain properties.tag)
        else
          failure

/-- Read a node, unless one of some tokens comes, before which it is left out. -/
def nodeUnless (isBlock allowsInline : Bool) (stops : List Token) : (fuel : Nat) → Read Node
  | 0 => failure
  | fuel + 1 => do
    if ← atAny stops then return .absent else node isBlock allowsInline fuel

/-- Read the entries of a block sequence. -/
def blockItems (placement : Placement) : (fuel : Nat) → Read (List Node)
  | 0 => failure
  | fuel + 1 => do
    if ← accept .blockEntry then
      let stops : List Token :=
        match placement with
        | .indented => [.blockEntry, .blockEnd]
        | .inline => [.blockEntry, .key, .value, .blockEnd]
      let item ← nodeUnless true false stops fuel
      return item :: (← blockItems placement fuel)
    else
      if placement = .indented then
        expect .blockEnd
      return []

/-- Read the pairs of a block mapping. -/
def blockPairs : (fuel : Nat) → Read (List (Node × Node))
  | 0 => failure
  | fuel + 1 => do
    let stops : List Token := [.key, .value, .blockEnd]
    let isValue := (← get).edition = .v1_2 && (← peek) = some .value
    if isValue || (← accept .key) then
      let key ← nodeUnless true true stops fuel
      let value ← if ← accept .value then nodeUnless true true stops fuel else pure .absent
      return (key, value) :: (← blockPairs fuel)
    else
      expect .blockEnd
      return []

/-- Read the entries of a flow sequence, some of which may be single pairs. -/
def flowItems (isFirst : Bool) : (fuel : Nat) → Read (List Node)
  | 0 => failure
  | fuel + 1 => do
    if ← accept .flowSequenceEnd then
      return []
    if !isFirst then
      expect .flowEntry
      if ← accept .flowSequenceEnd then
        return []
    let stops : List Token := [.flowEntry, .flowSequenceEnd]
    let isPair := (← peek) = some .key || ((← get).edition = .v1_2 && (← peek) = some .value)
    let item ←
      if isPair then do
        let _ ← accept .key
        if (← get).edition = .v1_1 && (← atAny (.value :: stops)) then
          failure
        let key ← nodeUnless false false (.value :: stops) fuel
        let value ←
          if ← accept .value then nodeUnless false false stops fuel else pure .absent
        pure (.mapping [(key, value)])
      else
        node false false fuel
    return item :: (← flowItems false fuel)

/-- Read the pairs of a flow mapping; a value may be left out, and so may the colon. -/
def flowPairs (isFirst : Bool) : (fuel : Nat) → Read (List (Node × Node))
  | 0 => failure
  | fuel + 1 => do
    if ← accept .flowMappingEnd then
      return []
    if !isFirst then
      expect .flowEntry
      if ← accept .flowMappingEnd then
        return []
    let stops : List Token := [.flowEntry, .flowMappingEnd]
    let isValue := (← get).edition = .v1_2 && (← peek) = some .value
    let pair ←
      if isValue || (← accept .key) then do
        let key ← nodeUnless false false (.value :: stops) fuel
        let value ←
          if ← accept .value then nodeUnless false false stops fuel else pure .absent
        pure (key, value)
      else do
        pure (← node false false fuel, .absent)
    return pair :: (← flowPairs false fuel)

end

/-- Whether a document may ask for a version. -/
def allowsVersion (edition : Edition) (major minor : Nat) : Bool :=
  edition = .v1_2 || (major = 1 && (minor = 1 || minor = 2))

/-- Read the directives in front of a document; none may come twice. -/
def directives : (fuel : Nat) → (versioned : Bool) → Read Unit
  | 0, _ => failure
  | fuel + 1, versioned => do
    match ← peek with
    | some (.version major minor) =>
      if versioned || !allowsVersion (← get).edition major minor then
        failure
      skip
      directives fuel true
    | some (.tagHandle handle expansion) =>
      if ((← get).handles.lookup handle).isSome then
        failure
      skip
      modify fun reading =>
        { reading with handles := reading.handles ++ [(handle, expansion)] }
      directives fuel versioned
    | _ => return ()

/-- What the handles stand for that need no directive. -/
def knownHandles : List (String × String) :=
  [("!", "!"), ("!!", Tag.standard)]

/-- Read the end markers that come next; the answer says whether there were any. -/
def endMarkers : (fuel : Nat) → Read Bool
  | 0 => failure
  | fuel + 1 => do
    if ← accept .documentEnd then
      let _ ← endMarkers fuel
      return true
    return false

/-- Whether a directive comes next. -/
def atDirective : Read Bool := do
  match ← peek with
  | some (.version ..) | some (.tagHandle ..) => return true
  | _ => return false

/-- Read a document; the first one, and any behind an end marker, may lack its start marker. -/
def document (mayBeBare : Bool) (fuel : Nat) : Read Content := do
  modify fun reading => { reading with handles := [], names := [], anchors := [] }
  let isMarked := (← peek) = some .documentStart || (← atDirective)
  directives fuel false
  modify fun reading => { reading with handles := reading.handles ++ knownHandles }
  if isMarked || !mayBeBare then
    expect .documentStart
  let isEmpty := isMarked && ((← atAny [.documentStart, .documentEnd]) || (← atDirective))
  let root ← if isEmpty then pure .absent else node true false fuel
  return { root, anchors := (← get).anchors }

/-- Read the documents of a text. -/
def documents : (fuel : Nat) → (mayBeBare : Bool) → Read (List Content)
  | 0, _ => failure
  | fuel + 1, mayBeBare => do
    let isFirst := mayBeBare
    let edition := (← get).edition
    let ended ← if isFirst && edition = .v1_1 then pure false else endMarkers (fuel + 1)
    if (← peek).isNone then
      return []
    let content ← document (isFirst || (edition = .v1_2 && ended)) (fuel + 1)
    return content :: (← documents fuel false)

end Read

/-- The documents of a text, if it is well formed. -/
def read? (edition : Edition) (text : String) : Option (List Content) := do
  let tokens ← tokens? edition text
  let fuel := 4 * tokens.length + 4
  let (documents, _) ← (Read.documents fuel true).run { edition, tokens }
  return documents

end Yaml

end ClusterMembership
