import GroupReplay.Yaml.Token.Lexer
import GroupReplay.Yaml.Node

/-!
Values from tokens.  A value may be named by an anchor before it and referred to by an alias after
it; a missing one stands for null.
-/

namespace GroupReplay.Yaml

/-- Where a reader of tokens is. -/
structure Reading where
  tokens : List Token
  /-- Handles of tags and what they stand for. -/
  handles : List (String × String) := []
  /-- Anchors in their order, with what they name once it is read. -/
  anchors : Array (String × Option Node) := #[]

/-- A step of reading, which fails where the tokens do not fit. -/
abbrev Reader := StateT Reading Option

namespace Reader

/-- Tokens that do not fit. -/
def reject {α : Type} : Reader α := fun _ => none

/-- The next token, if there is one. -/
def peek : Reader (Option Token) := return (← get).tokens.head?

def skip : Reader Unit := modify fun reading => { reading with tokens := reading.tokens.tail }

/-- Whether the next token is one of some. -/
def atAny (tokens : List Token) : Reader Bool := do
  match ← peek with
  | some token => return tokens.contains token
  | none => return false

/-- Names the value that follows, and says by which number. -/
def declare (name : String) : Reader Nat := do
  let reading ← get
  set { reading with anchors := reading.anchors.push (name, none) }
  return reading.anchors.size

/-- Keeps the value of an anchor. -/
def define (anchor : Option Nat) (node : Node) : Reader Node := do
  match anchor with
  | none => return node
  | some number =>
    modify fun reading =>
      { reading with anchors := reading.anchors.modify number fun entry => (entry.1, some node) }
    return node

/-- The value an alias refers to; the last anchor of the name counts. -/
def lookUp (name : String) : Reader Node := do
  match (← get).anchors.toList.reverse.find? (·.1 = name) with
  | none => reject
  | some (_, node) => return node.getD .unusable

/-- The tag that a handle and a suffix stand for.  A named handle has to be declared. -/
def tag (handle suffix : String) : Reader Tag := do
  let reading ← get
  let local? := handle = "" ∧ suffix = "!"
  match reading.handles.find? (·.1 = handle) with
  | some (_, space) => return ⟨space, suffix⟩
  | none =>
    if handle = "!!" then return ⟨Tag.standard, suffix⟩
    else if ¬ local? ∧ 2 ≤ handle.length ∧ handle.startsWith "!" ∧ handle.endsWith "!" then reject
    else return ⟨handle, suffix⟩

/-- Reads an anchor and a tag, in either order. -/
def properties : Reader (Option Nat × Option Tag) := do
  match ← peek with
  | some (.anchor name) =>
    skip
    let anchor ← declare name
    match ← peek with
    | some (.tag handle suffix) =>
      skip
      return (some anchor, some (← tag handle suffix))
    | _ => return (some anchor, none)
  | some (.tag handle suffix) =>
    skip
    let tag ← tag handle suffix
    match ← peek with
    | some (.anchor name) =>
      skip
      return (some (← declare name), some tag)
    | _ => return (none, some tag)
  | _ => return (none, none)

/-- Reads a value, or null before a token that shows that it is missing. -/
def orMissing (node : Reader Node) (missing : List Token) : Reader Node := do
  if ← atAny missing then return .null else node

/-- Reads the entries of a block sequence; `node` reads one. -/
def blockEntries (node : Reader Node) : Nat → Reader (List Node)
  | 0 => reject
  | fuel + 1 => do
    match ← peek with
    | some .blockEnd =>
      skip
      return []
    | some .blockEntry =>
      skip
      let entry ← orMissing node [.blockEntry, .blockEnd]
      return entry :: (← blockEntries node fuel)
    | _ => reject

/-- Reads the entries of a block sequence that stands at the column of its key. -/
def indentlessEntries (node : Reader Node) : Nat → Reader (List Node)
  | 0 => reject
  | fuel + 1 => do
    match ← peek with
    | some .blockEntry =>
      skip
      let entry ← orMissing node [.blockEntry, .key, .value, .blockEnd]
      return entry :: (← indentlessEntries node fuel)
    | _ => return []

/-- Reads the value after a key of a block mapping. -/
def blockValue (node : Reader Node) : Reader Node := do
  match ← peek with
  | some .value =>
    skip
    orMissing node [.key, .value, .blockEnd]
  | _ => return .null

/-- Reads the keys and values of a block mapping as they follow each other. -/
def blockPairs (node : Reader Node) : Nat → Reader (List Node)
  | 0 => reject
  | fuel + 1 => do
    match ← peek with
    | some .blockEnd =>
      skip
      return []
    | some .key =>
      skip
      let key ← orMissing node [.key, .value, .blockEnd]
      let value ← blockValue node
      return key :: value :: (← blockPairs node fuel)
    | some .value =>
      let value ← blockValue node
      return .null :: value :: (← blockPairs node fuel)
    | _ => reject

/-- Reads a single pair inside a flow sequence after its key's mark. -/
def flowPair (node : Reader Node) : Reader Node := do
  let key ←
    if ← atAny [.value, .flowEntry, .flowSequenceEnd] then
      skip
      pure .null
    else node
  let value ←
    if ← atAny [.value] then
      skip
      orMissing node [.flowEntry, .flowSequenceEnd]
    else pure .null
  match Node.ofPairs? [key, value] with
  | some pair => return pair
  | none => reject

/-- Reads the entries of a flow sequence. -/
def flowEntries (node : Reader Node) : Nat → Bool → Reader (List Node)
  | 0, _ => reject
  | fuel + 1, first => do
    if ← atAny [.flowSequenceEnd] then
      skip
      return []
    if !first then
      if ← atAny [.flowEntry] then skip else reject
    if ← atAny [.flowSequenceEnd] then
      skip
      return []
    let entry ←
      if ← atAny [.key] then
        skip
        flowPair node
      else node
    return entry :: (← flowEntries node fuel false)

/-- Reads the value after a key of a flow mapping. -/
def flowValue (node : Reader Node) : Reader Node := do
  if ← atAny [.value] then
    skip
    orMissing node [.flowEntry, .flowMappingEnd]
  else return .null

/-- Reads the keys and values of a flow mapping as they follow each other. -/
def flowPairs (node : Reader Node) : Nat → Bool → Reader (List Node)
  | 0, _ => reject
  | fuel + 1, first => do
    if ← atAny [.flowMappingEnd] then
      skip
      return []
    if !first then
      if ← atAny [.flowEntry] then skip else reject
    match ← peek with
    | some .flowMappingEnd =>
      skip
      return []
    | some .key =>
      skip
      let key ← orMissing node [.value, .flowEntry, .flowMappingEnd]
      let value ← flowValue node
      return key :: value :: (← flowPairs node fuel false)
    | some .value =>
      let value ← flowValue node
      return .null :: value :: (← flowPairs node fuel false)
    | _ =>
      let key ← node
      return key :: .null :: (← flowPairs node fuel false)

/-- Makes a mapping, in which no key may come twice. -/
def mapping (values : List Node) : Reader Node :=
  match Node.ofPairs? values with
  | some node => return node
  | none => reject

/-- Reads a value.  Blocks, and sequences at the column of their key, may stand in some places
alone. -/
def node : Nat → Bool → Bool → Reader Node
  | 0, _, _ => reject
  | fuel + 1, block, indentless => do
    match ← peek with
    | some (.alias name) =>
      skip
      return ← lookUp name
    | _ => pure ()
    let (anchor, tag) ← properties
    let inBlock := node fuel true false
    let inFlow := node fuel false false
    let length := (← get).tokens.length + 1
    match ← peek with
    | some (.scalar plain text) =>
      skip
      define anchor (Node.ofScalar plain tag text)
    | some .flowSequenceStart =>
      skip
      define anchor (.list (← flowEntries inFlow length true))
    | some .flowMappingStart =>
      skip
      define anchor (← mapping (← flowPairs inFlow length true))
    | some .blockEntry =>
      if indentless then define anchor (.list (← indentlessEntries inBlock length))
      else empty anchor tag
    | some .blockSequenceStart =>
      if block then
        skip
        define anchor (.list (← blockEntries inBlock length))
      else empty anchor tag
    | some .blockMappingStart =>
      if block then
        skip
        define anchor (← mapping (← blockPairs (node fuel true true) length))
      else empty anchor tag
    | _ => empty anchor tag
where
  /-- What stands after an anchor or a tag alone. -/
  empty (anchor : Option Nat) (tag : Option Tag) : Reader Node :=
    if anchor.isSome || tag.isSome then define anchor (Node.ofScalar true tag "") else reject

/-- Skips the marks of a document's end. -/
def skipEnds : Nat → Reader Unit
  | 0 => pure ()
  | fuel + 1 => do
    if ← atAny [.documentEnd] then
      skip
      skipEnds fuel

/-- Reads the directives before a document; the last one alone declares a handle.  Says whether
there were any. -/
def directives : Nat → Bool → Reader Bool
  | 0, _ => return false
  | fuel + 1, versioned => do
    match ← peek with
    | some .versionDirective =>
      if versioned then reject
      skip
      modify ({ · with handles := [] })
      let _ ← directives fuel true
      return true
    | some (.tagDirective handle space) =>
      skip
      modify ({ · with handles := [(handle, space)] })
      let _ ← directives fuel versioned
      return true
    | _ => return false

/-- Reads the only document.  Without one there is an empty mapping. -/
def document : Reader Node := do
  let length := (← get).tokens.length + 1
  skipEnds length
  match ← peek with
  | none => return .map []
  | some _ =>
    let directed ← directives length false
    let explicit ← atAny [.documentStart]
    if explicit then skip
    if directed && !explicit then reject
    let root ←
      match ← peek with
      | none => pure .null
      | some _ =>
        if explicit && (← atAny [.documentStart, .documentEnd]) then pure .null
        else node length true false
    skipEnds length
    match ← peek with
    | none => return root
    | some _ => reject

end Reader

/-- The value of a text that holds at most one document. -/
def Node.ofText? (text : String) : Option Node :=
  (Token.scan text).bind fun tokens => (Reader.document.run { tokens }).map (·.1)

end GroupReplay.Yaml
