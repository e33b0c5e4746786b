import GroupReplay.Yaml.Token

/-!
The state of a scan over a text: the place it has got to, the tokens found so far, and what the
layout of blocks and flow collections depends on.
-/

namespace GroupReplay.Yaml

/-- A column that a block, or a part of a line that might open one, starts at. -/
structure Indent where
  /-- The column before it was opened. -/
  outer : Int
  /-- Whether its end is marked by a token. -/
  closes : Bool

/-- A place where a key without an indicator may have begun. -/
structure SimpleKey where
  possible : Bool := false
  required : Bool := false
  /-- How many tokens stand before it. -/
  position : Nat := 0
  index : Nat := 0
  line : Nat := 0
  column : Nat := 0

/-- A place that is no longer taken for a key's. -/
def SimpleKey.forget (key : SimpleKey) : SimpleKey := { key with possible := false }

/-- The state of a scan. -/
structure Cursor where
  rest : List Char
  index : Nat := 0
  line : Nat := 0
  column : Nat := 0
  /-- Whether only blanks were seen on this line. -/
  leading : Bool := true
  tokens : Array Token := #[]
  /-- Line and column of the last token. -/
  lastColumn : Nat := 0
  /-- The column of the innermost block, -1 outside all. -/
  indent : Int := -1
  indents : List Indent := []
  /-- One for every open flow collection and one for the block around them, innermost first. -/
  simpleKeys : List SimpleKey := [{}]
  keyAllowed : Bool := true
  flowLevel : Nat := 0
  /-- Where a colon without a blank after it still is an indicator. -/
  adjacentAt : Option Nat := none
  flowMapping : Bool := false
  /-- For every open flow sequence, whether a single pair stands open in it. -/
  flowPairs : List Bool := []

/-- A step of a scan, which fails on ill-formed text. -/
abbrev Scan := StateT Cursor Option

namespace Cursor

/-- The character `n` places ahead. -/
def peek (cursor : Cursor) (n : Nat) : Char := cursor.rest.getD n endMark

/-- Past a character that does not break the line. -/
def advance (cursor : Cursor) : Cursor :=
  { cursor with rest := cursor.rest.tail, index := cursor.index + 1, column := cursor.column + 1 }

/-- Past a line break; a return followed by a newline is one. -/
def advanceLine (cursor : Cursor) : Cursor :=
  let width := if cursor.peek 0 = '\r' ∧ cursor.peek 1 = '\n' then 2 else 1
  { cursor with
    rest := cursor.rest.drop width
    index := cursor.index + width
    line := cursor.line + 1
    column := 0
    leading := true }

/-- Whether three equal characters and a space, a break or the end follow. -/
def isMarker (cursor : Cursor) (c : Char) : Bool :=
  cursor.column = 0 && cursor.peek 0 = c && cursor.peek 1 = c && cursor.peek 2 = c &&
    isSpace (cursor.peek 3)

end Cursor

namespace Scan

/-- Ill-formed text. -/
def reject {α : Type} : Scan α := fun _ => none

/-- The next character. -/
def peek : Scan Char := return (← get).peek 0

/-- The character `n` places ahead. -/
def peekAt (n : Nat) : Scan Char := return (← get).peek n

/-- Skips a blank. -/
def skipBlank : Scan Unit := modify (·.advance)

/-- Skips a character that is not blank. -/
def skip : Scan Unit := modify fun cursor => { cursor.advance with leading := false }

/-- Skips several characters that are not blank. -/
def skipMany : Nat → Scan Unit
  | 0 => pure ()
  | n + 1 => do skip; skipMany n

/-- Skips a line break. -/
def skipLine : Scan Unit := modify (·.advanceLine)

/-- Puts a token at the end. -/
def push (token : Token) (column : Nat) : Scan Unit :=
  modify fun cursor => { cursor with tokens := cursor.tokens.push token, lastColumn := column }

/-- Puts a token before those from a position on. -/
def insert (position : Nat) (token : Token) : Scan Unit :=
  modify fun cursor =>
    { cursor with
      tokens := cursor.tokens.extract 0 position ++ #[token] ++
        cursor.tokens.extract position cursor.tokens.size }

/-- Skips characters of a class and returns them. -/
def takeWhile (wanted : Char → Bool) : Scan String := do
  let cursor ← get
  let taken := cursor.rest.takeWhile fun c => wanted c && c ≠ endMark
  skipMany taken.length
  return String.ofList taken

/-- Skips a comment up to the end of its line. -/
def skipComment : Scan Unit := do let _ ← takeWhile (!isBreakOrEnd ·)

/-- What blanks were skipped. -/
structure Blanks where
  tabs : Bool := false
  spaces : Bool := false

/-- Skips blanks and a comment after them; without a blank no comment may stand. -/
def skipToLineEnd (tabsToo : Bool) : Scan Blanks := do
  let cursor ← get
  go cursor.rest.length {}
where
  go : Nat → Blanks → Scan Blanks
    | 0, blanks => return blanks
    | fuel + 1, blanks => do
      let c ← peek
      if c = ' ' then
        skipBlank
        go fuel { blanks with spaces := true }
      else if c = '\t' && tabsToo then
        skipBlank
        go fuel { blanks with tabs := true }
      else if c = '#' then
        if blanks.tabs || blanks.spaces then
          skipComment
          return blanks
        else reject
      else return blanks

end Scan

end GroupReplay.Yaml
