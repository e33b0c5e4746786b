/-!
Tokens of YAML and the classes of characters that tell them apart.
-/

namespace GroupReplay.Yaml

/-- A token. -/
inductive Token where
  | versionDirective
  | tagDirective (handle tagPrefix : String)
  | documentStart
  | documentEnd
  | blockSequenceStart
  | blockMappingStart
  | blockEnd
  | flowSequenceStart
  | flowSequenceEnd
  | flowMappingStart
  | flowMappingEnd
  | blockEntry
  | flowEntry
  | key
  | value
  | alias (name : String)
  | anchor (name : String)
  | tag (handle suffix : String)
  /-- A scalar, and whether it is a plain one, which may stand for something else than text. -/
  | scalar (plain : Bool) (text : String)
  deriving DecidableEq, Repr

/-- The character that reading past the end yields; it ends a text wherever it stands. -/
def endMark : Char := Char.ofNat 0

def isBreak (c : Char) : Bool := c = '\n' || c = '\r'

def isBlank (c : Char) : Bool := c = ' ' || c = '\t'

/-- A line break or the end. -/
def isBreakOrEnd (c : Char) : Bool := isBreak c || c = endMark

/-- A blank, a line break or the end. -/
def isSpace (c : Char) : Bool := isBlank c || isBreakOrEnd c

/-- The indicators of flow collections. -/
def isFlow (c : Char) : Bool := c = ',' || c = '[' || c = ']' || c = '\x7b' || c = '\x7d'

/-- Letters, digits, the underscore and the dash, ASCII alone. -/
def isName (c : Char) : Bool := c.isAlphanum || c = '_' || c = '-'

/-- Characters of an anchor's name. -/
def isAnchor (c : Char) : Bool := !isSpace c && !isFlow c && c.toNat ≠ 0xfeff

/-- Characters of a tag's address. -/
def isUri (c : Char) : Bool :=
  (isName c && c ≠ '_') || "#;/?:@&=+$,_.!~*'()[]%".toList.contains c

/-- Characters of a tag's suffix. -/
def isTag (c : Char) : Bool := isUri c && !isFlow c && c ≠ '!'

/-- The value of a hexadecimal digit. -/
def hexValue? (c : Char) : Option Nat :=
  if '0' ≤ c ∧ c ≤ '9' then some (c.toNat - 48)
  else if 'a' ≤ c ∧ c ≤ 'f' then some (c.toNat - 87)
  else if 'A' ≤ c ∧ c ≤ 'F' then some (c.toNat - 55)
  else none

end GroupReplay.Yaml
