import GroupReplay.Yaml.Token.Scalar

/-!
Tokens of a text.  Indentation opens and closes blocks by tokens of their own, and a colon may turn
what stands before it into a key after the fact, which is why such places are remembered.
`Token.scan` gives all tokens of a text, or nothing when it is ill-formed.
-/

namespace GroupReplay.Yaml

namespace Scan

/-- From here on a key may begin. -/
def allowKey : Scan Unit := modify ({ · with keyAllowed := true })

/-- From here on no key may begin. -/
def forbidKey : Scan Unit := modify ({ · with keyAllowed := false })

/-- After a break outside flow collections a key may begin. -/
def allowKeyInBlock : Scan Unit := do
  if (← get).flowLevel = 0 then allowKey

/-- Closes the blocks that started right of a column. -/
def closeBlocks (column : Int) : Scan Unit := do
  let cursor ← get
  if cursor.flowLevel = 0 then
    for indent in cursor.indents do
      if column < (← get).indent then
        modify fun cursor => { cursor with indent := indent.outer, indents := cursor.indents.tail }
        if indent.closes then push .blockEnd cursor.column

/-- Opens a block at a column, unless one is open there; its token goes to a position. -/
def openBlock (column : Nat) (position : Option Nat) (token : Token) : Scan Unit := do
  if (← get).flowLevel = 0 then
    modify fun cursor =>
      match cursor.indents with
      | indent :: others =>
        if !indent.closes && cursor.indent ≤ (column : Int) then
          { cursor with indent := indent.outer, indents := others }
        else cursor
      | [] => cursor
    let cursor ← get
    if cursor.indent < (column : Int) then
      set { cursor with indent := column, indents := ⟨cursor.indent, true⟩ :: cursor.indents }
      match position with
      | some position => insert position token
      | none => push token column

/-- Moves the indentation by one column inside an open block. -/
def nudgeIndent : Scan Unit := modify fun cursor =>
  match cursor.indents with
  | indent :: _ =>
    if cursor.flowLevel = 0 && indent.closes then
      { cursor with
        indents := ⟨cursor.indent, false⟩ :: cursor.indents
        indent := cursor.indent + 1 }
    else cursor
  | [] => cursor

/-- Remembers that a key may have begun here. -/
def saveKey : Scan Unit := modify fun cursor =>
  if cursor.keyAllowed then
    let closes := match cursor.indents with
      | indent :: _ => indent.closes
      | [] => false
    let required := cursor.flowLevel = 0 && cursor.indent = (cursor.column : Int) && closes
    let key : SimpleKey :=
      { possible := true, required, position := cursor.tokens.size, index := cursor.index,
        line := cursor.line, column := cursor.column }
    { cursor with simpleKeys := key :: cursor.simpleKeys.tail }
  else cursor

/-- Forgets the innermost place a key may have begun at, which must not have been one. -/
def dropKey : Scan Unit := do
  let cursor ← get
  match cursor.simpleKeys with
  | key :: others =>
    if key.possible && key.required then reject
    set { cursor with simpleKeys := key.forget :: others }
  | [] => pure ()

/-- Forgets the places that are too far back for a key; outside flow collections a key stands on a
single line. -/
def expireKeys : Scan Unit := do
  let cursor ← get
  let stale := fun key : SimpleKey =>
    key.possible && cursor.flowLevel = 0 &&
      (key.line < cursor.line || key.index + 1024 < cursor.index)
  if cursor.simpleKeys.any fun key => stale key && key.required then reject
  set { cursor with
    simpleKeys := cursor.simpleKeys.map fun key =>
      if stale key then key.forget else key }

/-- Skips to the next token.  Tabs do not indent what stands in a block. -/
def skipToToken : Nat → Scan Unit
  | 0 => pure ()
  | fuel + 1 => do
    let cursor ← get
    let c := cursor.peek 0
    if c = '\t' && !cursor.indents.isEmpty && cursor.leading &&
        (cursor.column : Int) < cursor.indent then
      let _ ← skipToLineEnd true
      if !isBreakOrEnd (← peek) then reject
      skipToToken fuel
    else if isBlank c then
      skipBlank
      skipToToken fuel
    else if isBreak c then
      skipLine
      allowKeyInBlock
      skipToToken fuel
    else if c = '#' then
      skipComment
      skipToToken fuel
    else pure ()

/-- Skips to what follows a key indicator; tabs are not skipped. -/
def skipAfterKey : Nat → Bool → Scan Unit
  | 0, _ => pure ()
  | fuel + 1, skipped => do
    let c ← peek
    if c = ' ' then
      skipBlank
      skipAfterKey fuel true
    else if isBreak c then
      skipLine
      allowKeyInBlock
      skipAfterKey fuel true
    else if c = '#' then
      skipComment
      skipAfterKey fuel skipped
    else if skipped then pure ()
    else reject

/-- Ends a pair that stands open in a flow sequence. -/
def endPair : Scan Unit := do
  let cursor ← get
  match cursor.flowPairs with
  | true :: others =>
    set { cursor with flowMapping := false, flowPairs := false :: others }
    push .flowMappingEnd cursor.column
  | _ => pure ()

/-- The end of the text. -/
def streamEnd : Scan Unit := do
  let cursor ← get
  if cursor.simpleKeys.any fun key => key.required && key.possible then reject
  set { cursor with simpleKeys := cursor.simpleKeys.map SimpleKey.forget }
  closeBlocks (-1)
  dropKey
  forbidKey

/-- Reads bytes written in hexadecimal after percent signs, as one character in UTF-8. -/
def uriEscape : Scan Char := do
  let byte : Scan Nat := do
    match (← peek), hexValue? (← peekAt 1), hexValue? (← peekAt 2) with
    | '%', some high, some low =>
      skipMany 3
      return high * 16 + low
    | _, _, _ => reject
  let rec more : Nat → Nat → Scan Nat
    | 0, code => return code
    | count + 1, code => do
      let next ← byte
      if next / 64 = 2 then more count (code * 256 + next) else reject
  let first ← byte
  let following ←
    if first < 128 then pure 0 else if first / 32 = 6 then pure 1
    else if first / 16 = 14 then pure 2 else if first / 8 = 30 then pure 3 else reject
  match charOf? (← more following first) with
  | some c => return c
  | none => reject

/-- Reads the characters of a tag or its address. -/
def uriText (wanted : Char → Bool) : Nat → String → Scan String
  | 0, text => return text
  | fuel + 1, text => do
    let c ← peek
    if !wanted c then return text
    else if c = '%' then
      let c ← uriEscape
      uriText wanted fuel (text.push c)
    else
      skip
      uriText wanted fuel (text.push c)

/-- Reads a tag's handle.  In a directive it has to be whole. -/
def tagHandle (inDirective : Bool) : Scan String := do
  if (← peek) ≠ '!' then reject
  skip
  let name ← takeWhile isName
  if (← peek) = '!' then
    skip
    return "!" ++ name ++ "!"
  else if inDirective && name ≠ "" then reject
  else return "!" ++ name

/-- Reads a tag: an address in angle brackets, a handle and a suffix, or a local one. -/
def tagToken : Scan Token := do
  let start ← get
  let fuel := start.rest.length
  let (handle, suffix) ←
    if start.peek 1 = '<' then
      skipMany 2
      let suffix ← uriText isUri fuel ""
      if (← peek) ≠ '>' then reject
      skip
      pure ("", suffix)
    else
      let handle ← tagHandle false
      if 2 ≤ handle.length && handle.back = '!' then
        let suffix ← uriText isTag fuel ""
        if suffix = "" then reject
        pure (handle, suffix)
      else
        let suffix ← uriText isTag fuel (String.ofList (handle.toList.drop 1))
        pure (if suffix = "" then ("", "!") else ("!", suffix))
  let cursor ← get
  if isSpace (cursor.peek 0) || (0 < cursor.flowLevel && isFlow (cursor.peek 0)) then
    return .tag handle suffix
  else reject

/-- Skips blanks. -/
def skipBlanks : Scan Unit := do let _ ← takeWhile isBlank

/-- Reads a number of a version. -/
def versionNumber : Scan Unit := do
  let digits ← takeWhile Char.isDigit
  if digits = "" || 9 < digits.length then reject

/-- Reads a directive; an unknown one is skipped. -/
def directive : Scan Token := do
  skip
  let name ← takeWhile isName
  if name = "" || !isSpace (← peek) then reject
  let fuel := (← get).rest.length
  let token ←
    if name = "YAML" then
      skipBlanks
      versionNumber
      if (← peek) ≠ '.' then reject
      skip
      versionNumber
      pure .versionDirective
    else if name = "TAG" then
      skipBlanks
      let handle ← tagHandle true
      skipBlanks
      let c ← peek
      if c ≠ '!' && !isTag c then reject
      let tagPrefix ← uriText (fun c => isUri c || c = '!') fuel ""
      if !isSpace (← peek) then reject
      pure (.tagDirective handle tagPrefix)
    else
      skipComment
      pure (.tagDirective "" "")
  let _ ← skipToLineEnd true
  if !isBreakOrEnd (← peek) then reject
  if isBreak (← peek) then skipLine
  return token

/-- The start or end of a document. -/
def documentMarker (token : Token) : Scan Unit := do
  closeBlocks (-1)
  dropKey
  forbidKey
  skipMany 3
  push token 0

/-- The start of a flow collection. -/
def flowStart (token : Token) : Scan Unit := do
  saveKey
  nudgeIndent
  let cursor ← get
  set { cursor with
    simpleKeys := {} :: cursor.simpleKeys
    flowLevel := cursor.flowLevel + 1
    keyAllowed := true }
  if 255 < cursor.flowLevel + 1 then reject
  skip
  if token = .flowMappingStart then modify ({ · with flowMapping := true })
  else modify fun cursor => { cursor with flowPairs := false :: cursor.flowPairs }
  let _ ← skipToLineEnd true
  push token cursor.column

/-- The end of a flow collection. -/
def flowEnd (token : Token) : Scan Unit := do
  dropKey
  modify fun cursor =>
    if 0 < cursor.flowLevel then
      { cursor with flowLevel := cursor.flowLevel - 1, simpleKeys := cursor.simpleKeys.tail }
    else cursor
  forbidKey
  if token = .flowSequenceEnd then
    endPair
    modify fun cursor => { cursor with flowPairs := cursor.flowPairs.tail }
  let column := (← get).column
  skip
  let _ ← skipToLineEnd true
  modify fun cursor =>
    if 0 < cursor.flowLevel then { cursor with adjacentAt := some cursor.index } else cursor
  push token column

/-- A comma between the entries of a flow collection. -/
def flowEntry : Scan Unit := do
  dropKey
  allowKey
  endPair
  let column := (← get).column
  skip
  let _ ← skipToLineEnd true
  push .flowEntry column

/-- A dash before an entry of a block sequence. -/
def blockEntry : Scan Unit := do
  let start ← get
  if 0 < start.flowLevel || !start.keyAllowed then reject
  match start.tokens.back? with
  | some (.anchor _) | some (.tag _ _) =>
    if start.column = 0 && start.lastColumn = 0 && (-1 : Int) < start.indent then reject
  | _ => pure ()
  skip
  openBlock start.column none .blockSequenceStart
  let blanks ← skipToLineEnd true
  if blanks.tabs && (← peek) = '-' && isSpace (← peekAt 1) then reject
  let c ← peek
  if isBreak c || isFlow c then nudgeIndent
  dropKey
  allowKey
  push .blockEntry (← get).column

/-- A question mark before a key. -/
def keyIndicator : Scan Unit := do
  let start ← get
  if start.flowLevel = 0 then
    if !start.keyAllowed then reject
    openBlock start.column none .blockMappingStart
  else modify ({ · with flowMapping := true })
  dropKey
  modify ({ · with keyAllowed := start.flowLevel = 0 })
  skip
  skipAfterKey start.rest.length false
  if (← peek) = '\t' then reject
  push .key start.column

/-- A colon before a value.  Where a key may have begun before it, the key's token is put there. -/
def valueIndicator : Scan Unit := do
  let start ← get
  let key := start.simpleKeys.headD {}
  let opensPair := !start.flowPairs.isEmpty && !start.flowMapping
  if opensPair then
    modify fun cursor => { cursor with flowPairs := true :: cursor.flowPairs.tail }
  skip
  if (← peek) = '\t' then
    let blanks ← skipToLineEnd true
    let c ← peek
    if !blanks.spaces && (c = '-' || isName c) then reject
  if key.possible then
    insert key.position .key
    if opensPair then
      if key.line < start.line then reject
      insert key.position .flowMappingStart
    openBlock key.column (some key.position) .blockMappingStart
    nudgeIndent
    modify fun cursor =>
      { cursor with simpleKeys := key.forget :: cursor.simpleKeys.tail }
    forbidKey
  else
    if opensPair then push .flowMappingStart start.column
    if start.flowLevel = 0 then
      if !start.keyAllowed then reject
      openBlock start.column none .blockMappingStart
    nudgeIndent
    modify ({ · with keyAllowed := start.flowLevel = 0 })
  push .value start.column

/-- A token that may begin a key and after which none may begin. -/
def inLine (token : Scan Token) : Scan Unit := do
  saveKey
  forbidKey
  let column := (← get).column
  push (← token) column

/-- An anchor or an alias. -/
def name (make : String → Token) : Scan Token := do
  skip
  let name ← takeWhile isAnchor
  if name = "" then reject
  return make name

/-- A quoted scalar, after which an adjacent colon is an indicator in flow collections. -/
def quoted (single : Bool) : Scan Token := do
  let token ← quotedScalar single
  skipToToken (← get).rest.length
  modify fun cursor => { cursor with adjacentAt := some cursor.index }
  return token

/-- A block scalar, after which a key may begin. -/
def block (literal : Bool) : Scan Unit := do
  saveKey
  allowKey
  let column := (← get).column
  push (← blockScalar literal) column

/-- Reads the next token, and says whether there may be more. -/
def next : Scan Bool := do
  skipToToken (← get).rest.length
  expireKeys
  closeBlocks (← get).column
  let cursor ← get
  let c := cursor.peek 0
  let following := cursor.peek 1
  let inFlow := decide (0 < cursor.flowLevel)
  if c = endMark then
    streamEnd
    return false
  if cursor.column = 0 && c = '%' then
    closeBlocks (-1)
    dropKey
    forbidKey
    push (← directive) 0
  else if cursor.isMarker '-' then documentMarker .documentStart
  else if cursor.isMarker '.' then
    documentMarker .documentEnd
    let _ ← skipToLineEnd true
    if !isBreakOrEnd (← peek) then reject
  else if (cursor.column : Int) < cursor.indent then reject
  else if c = '[' then flowStart .flowSequenceStart
  else if c = '\x7b' then flowStart .flowMappingStart
  else if c = ']' then flowEnd .flowSequenceEnd
  else if c = '\x7d' then flowEnd .flowMappingEnd
  else if c = ',' then flowEntry
  else if c = '-' && isSpace following then blockEntry
  else if c = '?' && isSpace following then keyIndicator
  else if c = ':' && (isSpace following ||
      (inFlow && (isFlow following || cursor.adjacentAt = some cursor.index))) then valueIndicator
  else if c = '*' then inLine (name .alias)
  else if c = '&' then inLine (name .anchor)
  else if c = '!' then inLine tagToken
  else if c = '|' && !inFlow then block true
  else if c = '>' && !inFlow then block false
  else if c = '\'' then inLine (quoted true)
  else if c = '"' then inLine (quoted false)
  else if (c = '%' || c = '@' || c = Char.ofNat 96) then reject
  else inLine plainScalar
  return true

/-- Reads tokens up to the end of the text. -/
def all : Nat → Scan Unit
  | 0 => reject
  | fuel + 1 => do if ← next then all fuel

end Scan

/-- The tokens of a text, or nothing when it is ill-formed. -/
def Token.scan (text : String) : Option (List Token) :=
  let characters := text.toList
  (Scan.all (characters.length + 2) { rest := characters }).map (·.2.tokens.toList)

end GroupReplay.Yaml
