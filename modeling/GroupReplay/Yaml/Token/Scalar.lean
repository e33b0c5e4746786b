import GroupReplay.Yaml.Token.Cursor

/-!
The text of scalars.  Line breaks inside quoted and plain scalars fold: one becomes a space, more
become one less.  Block scalars keep them or fold them by their header, which also says what becomes
of those at the end.
-/

namespace GroupReplay.Yaml.Scan

/-- A character with a fixed escape in double quotes. -/
def escaped? (c : Char) : Option Char :=
  match c with
  | '0' => some (Char.ofNat 0)
  | 'a' => some (Char.ofNat 7)
  | 'b' => some (Char.ofNat 8)
  | 't' | '\t' => some '\t'
  | 'n' => some '\n'
  | 'v' => some (Char.ofNat 11)
  | 'f' => some (Char.ofNat 12)
  | 'r' => some '\r'
  | 'e' => some (Char.ofNat 27)
  | ' ' => some ' '
  | '"' => some '"'
  | '/' => some '/'
  | '\\' => some '\\'
  | 'N' => some (Char.ofNat 0x85)
  | '_' => some (Char.ofNat 0xa0)
  | 'L' => some (Char.ofNat 0x2028)
  | 'P' => some (Char.ofNat 0x2029)
  | _ => none

/-- The character of a code point, if there is one. -/
def charOf? (code : Nat) : Option Char :=
  if code.isValidChar then some (Char.ofNat code) else none

/-- Reads the digits of an escape by code point. -/
def hexDigits : Nat → Nat → Scan Nat
  | 0, code => return code
  | count + 1, code => do
    match hexValue? (← peek) with
    | none => reject
    | some digit =>
      skip
      hexDigits count (code * 16 + digit)

/-- Reads an escape in double quotes. -/
def escape : Scan Char := do
  let c ← peekAt 1
  match escaped? c with
  | some c =>
    skipMany 2
    return c
  | none =>
    let width ←
      if c = 'x' then pure 2 else if c = 'u' then pure 4 else if c = 'U' then pure 8 else reject
    skipMany 2
    match charOf? (← hexDigits width 0) with
    | some c => return c
    | none => reject

/-- Joins two parts of a scalar around folded line breaks, of which the first is not counted. -/
def fold (text : String) (moreBreaks : Nat) : String :=
  if moreBreaks = 0 then text ++ " " else text ++ "".pushn '\n' moreBreaks

/-- Reads quoted text up to a blank, a break or the closing quote.  Says whether an escaped break
ended it. -/
def quotedWord (single : Bool) : Nat → String → Scan (String × Bool)
  | 0, text => return (text, false)
  | fuel + 1, text => do
    let c ← peek
    if isSpace c then return (text, false)
    else if c = '\'' && single then
      if (← peekAt 1) = '\'' then
        skipMany 2
        quotedWord single fuel (text.push '\'')
      else return (text, false)
    else if c = '"' && !single then return (text, false)
    else if c = '\\' && !single then
      if isBreak (← peekAt 1) then
        skip
        skipLine
        return (text, true)
      else
        let c ← escape
        quotedWord single fuel (text.push c)
    else
      skip
      quotedWord single fuel (text.push c)

/-- Blanks and breaks between words. -/
structure Gap where
  blanks : String := ""
  /-- Whether a break was met, an escaped one included. -/
  broken : Bool := false
  /-- Whether that was an unescaped one. -/
  folds : Bool := false
  /-- Breaks after the first. -/
  moreBreaks : Nat := 0

/-- Joins the next word after a gap. -/
def Gap.close (gap : Gap) (text : String) : String :=
  if !gap.broken then text ++ gap.blanks
  else if gap.folds then fold text gap.moreBreaks
  else text ++ "".pushn '\n' gap.moreBreaks

/-- Skips the blanks and breaks between words of a quoted scalar.  A tab does not indent. -/
def quotedGap : Nat → Gap → Scan Gap
  | 0, gap => return gap
  | fuel + 1, gap => do
    let c ← peek
    if isBlank c then
      if gap.broken then
        let cursor ← get
        if c = '\t' && (cursor.column : Int) < cursor.indent then reject
        skipBlank
        quotedGap fuel gap
      else
        skipBlank
        quotedGap fuel { gap with blanks := gap.blanks.push c }
    else if isBreak c then
      skipLine
      if gap.broken then quotedGap fuel { gap with moreBreaks := gap.moreBreaks + 1 }
      else quotedGap fuel { gap with blanks := "", broken := true, folds := true }
    else return gap

/-- Reads a quoted scalar after its opening quote and skips the closing one. -/
def quotedBody (single : Bool) : Nat → String → Scan String
  | 0, _ => reject
  | fuel + 1, text => do
    let cursor ← get
    if cursor.isMarker '-' || cursor.isMarker '.' then reject
    if cursor.peek 0 = endMark || (cursor.column : Int) < cursor.indent then reject
    let (text, escapedBreak) ← quotedWord single cursor.rest.length text
    let c ← peek
    if c = (if single then '\'' else '"') then
      skip
      return text
    let gap ← quotedGap cursor.rest.length { broken := escapedBreak }
    quotedBody single fuel (gap.close text)

/-- Reads a quoted scalar.  After it the line may only end, or go on with an indicator. -/
def quotedScalar (single : Bool) : Scan Token := do
  let start ← get
  skip
  let text ← quotedBody single (start.rest.length + 1) ""
  let _ ← skipToLineEnd true
  let cursor ← get
  let c := cursor.peek 0
  let inFlow := 0 < cursor.flowLevel
  if isBreakOrEnd c then return .scalar false text
  else if inFlow && (c = ',' || c = '\x7d' || c = ']' || c = ':') then return .scalar false text
  else if c = ':' && start.line = cursor.line then return .scalar false text
  else reject

/-- Whether a plain scalar can go on with the next character. -/
def plainGoesOn (cursor : Cursor) : Bool :=
  let c := cursor.peek 0
  let next := cursor.peek 1
  let inFlow := decide (0 < cursor.flowLevel)
  if c = ':' then !(isSpace next || (inFlow && isFlow next))
  else !(inFlow && isFlow c)

/-- Reads the characters of a plain scalar up to where it cannot go on. -/
def plainWord : Nat → String → Scan String
  | 0, text => return text
  | fuel + 1, text => do
    let cursor ← get
    if isSpace (cursor.peek 0) || !plainGoesOn cursor then return text
    skip
    plainWord fuel (text.push (cursor.peek 0))

/-- Skips the blanks and breaks between words of a plain scalar. -/
def plainGap (indent : Int) : Nat → Gap → Scan Gap
  | 0, gap => return gap
  | fuel + 1, gap => do
    let cursor ← get
    let c := cursor.peek 0
    if isBlank c then
      if !cursor.leading then
        skipBlank
        plainGap indent fuel { gap with blanks := gap.blanks.push c }
      else if (cursor.column : Int) < indent && c = '\t' then
        let _ ← skipToLineEnd true
        if isBreak (← peek) then plainGap indent fuel gap else reject
      else
        skipBlank
        plainGap indent fuel gap
    else if isBreak c then
      skipLine
      if cursor.leading then plainGap indent fuel { gap with moreBreaks := gap.moreBreaks + 1 }
      else plainGap indent fuel { gap with blanks := "", broken := true, folds := true }
    else return gap

/-- Reads the words of a plain scalar. -/
def plainBody (indent : Int) : Nat → Gap → String → Scan String
  | 0, _, text => return text
  | fuel + 1, gap, text => do
    let cursor ← get
    if cursor.isMarker '-' || cursor.isMarker '.' then return text
    if cursor.peek 0 = '#' then return text
    if 0 < cursor.flowLevel && cursor.peek 0 = '-' && isFlow (cursor.peek 1) then reject
    let begins := !isSpace (cursor.peek 0) && plainGoesOn cursor
    let word ← plainWord cursor.rest.length ""
    let text := if begins then gap.close text ++ word else text
    let gap := if begins then {} else gap
    let cursor ← get
    if !(isBlank (cursor.peek 0) || isBreak (cursor.peek 0)) then return text
    let gap ← plainGap indent cursor.rest.length gap
    let cursor ← get
    if cursor.flowLevel = 0 && (cursor.column : Int) < indent then return text
    plainBody indent fuel gap text

/-- Leaves the columns that were opened in case a block followed. -/
def leaveOpenIndents : Scan Unit := modify fun cursor =>
  let opened := cursor.indents.takeWhile (!·.closes)
  match opened.getLast? with
  | none => cursor
  | some last => { cursor with indent := last.outer, indents := cursor.indents.drop opened.length }

/-- Reads a plain scalar. -/
def plainScalar : Scan Token := do
  leaveOpenIndents
  let cursor ← get
  let indent := cursor.indent + 1
  if 0 < cursor.flowLevel && (cursor.column : Int) < indent then reject
  let text ← plainBody indent (cursor.rest.length + 1) {} ""
  modify fun cursor => if cursor.leading then { cursor with keyAllowed := true } else cursor
  return .scalar true text

/-- What becomes of the breaks at the end of a block scalar. -/
inductive Chomping where
  | strip
  | clip
  | keep
  deriving DecidableEq

/-- The sign that asks for another treatment of final breaks. -/
def chompingSign? (c : Char) : Option Chomping :=
  if c = '+' then some .keep else if c = '-' then some .strip else none

/-- Reads an indentation digit, if one follows; zero is none. -/
def indentDigit : Scan Nat := do
  let c ← peek
  if c = '0' then reject
  else if c.isDigit then
    skip
    return c.toNat - 48
  else return 0

/-- Reads the header of a block scalar: a sign and a digit, in either order. -/
def blockHeader : Scan (Chomping × Nat) := do
  match chompingSign? (← peek) with
  | some chomping =>
    skip
    return (chomping, ← indentDigit)
  | none =>
    let width ← indentDigit
    if width = 0 then return (.clip, 0)
    match chompingSign? (← peek) with
    | some chomping =>
      skip
      return (chomping, width)
    | none => return (.clip, width)

/-- Skips indentation of spaces, up to a column if there is one. -/
def skipSpaces (limit : Option Nat) : Scan Unit := do
  let cursor ← get
  let spaces := (cursor.rest.takeWhile (· = ' ')).length
  let spaces := match limit with
    | none => spaces
    | some column => min spaces (column - cursor.column)
  for _ in [0:spaces] do skipBlank

/-- Skips empty lines and the indentation of the next one; counts the breaks.  Without a known
column it also finds the widest indentation. -/
def skipEmptyLines (limit : Option Nat) : Nat → Nat → Nat → Scan (Nat × Nat)
  | 0, breaks, widest => return (breaks, widest)
  | fuel + 1, breaks, widest => do
    skipSpaces limit
    let cursor ← get
    let widest := max widest cursor.column
    if isBreak (cursor.peek 0) then
      skipLine
      skipEmptyLines limit fuel (breaks + 1) widest
    else return (breaks, widest)

/-- Reads the content lines of a block scalar.  `leadingBreak` tells a break before the line and
`leadingBlank` whether the line before began with a blank, which keeps breaks from folding. -/
def blockLines (literal : Bool) (indent : Nat) :
    Nat → String → Bool → Bool → Nat → Scan (String × Bool × Nat)
  | 0, text, leadingBreak, _, breaks => return (text, leadingBreak, breaks)
  | fuel + 1, text, leadingBreak, leadingBlank, breaks => do
    let cursor ← get
    if cursor.column ≠ indent || cursor.peek 0 = endMark ||
        (indent = 0 && (cursor.isMarker '.' || cursor.isMarker '-')) then
      return (text, leadingBreak, breaks)
    let blank := isBlank (cursor.peek 0)
    let text :=
      if !literal && leadingBreak && !leadingBlank && !blank then fold text breaks
      else (if leadingBreak then text.push '\n' else text) ++ "".pushn '\n' breaks
    let line ← takeWhile (!isBreakOrEnd ·)
    let text := text ++ line
    let cursor ← get
    if cursor.peek 0 = endMark then return (text, false, 0)
    skipLine
    let (breaks, _) ← skipEmptyLines (some indent) (cursor.rest.length + 1) 0 0
    blockLines literal indent fuel text true blank breaks

/-- Reads a block scalar, literal or folded. -/
def blockScalar (literal : Bool) : Scan Token := do
  let start ← get
  skip
  leaveOpenIndents
  let (chomping, width) ← blockHeader
  let _ ← skipToLineEnd true
  let c ← peek
  if !isBreakOrEnd c then reject
  let headerBroken := isBreak c
  if headerBroken then skipLine
  if (← peek) = '\t' then reject
  let cursor ← get
  let outer := cursor.indent
  let given := if outer < 0 then width else outer.toNat + width
  let (breaks, widest) ←
    skipEmptyLines (if width = 0 then none else some given) (cursor.rest.length + 1) 0 0
  let found := max widest (outer + 1).toNat
  let indent := if 0 < width then given else found
  let cursor ← get
  if cursor.peek 0 = endMark then
    let text :=
      if chomping = .strip || cursor.line = start.line then ""
      else if chomping = .clip || breaks = 0 then (if headerBroken then "\n" else "")
      else "".pushn '\n' breaks
    return .scalar false text
  if cursor.column < indent && outer < (cursor.column : Int) then reject
  let (text, leadingBreak, breaks) ←
    blockLines literal indent (cursor.rest.length + 1) "" false false breaks
  let cursor ← get
  let text :=
    if chomping = .strip then text
    else
      let text := if leadingBreak then text.push '\n' else text
      if cursor.peek 0 = endMark && max indent 1 ≤ cursor.column then text.push '\n' else text
  let text := if chomping = .keep then text ++ "".pushn '\n' breaks else text
  return .scalar false text

end GroupReplay.Yaml.Scan
