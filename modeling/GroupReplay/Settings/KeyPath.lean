import GroupReplay.Number.Integer
import GroupReplay.Settings.Value

/-!
Paths to values inside tables and lists, as in `protocol.address` or `items[0]`.  All names on the
way but the last have to be in lower case to meet an entry that is there.
-/

namespace GroupReplay.Settings

/-- A step of a path. -/
inductive Step where
  | child (name : String)
  /-- An item of a list, counted from its end when negative. -/
  | item (index : Int)
  deriving DecidableEq, Repr

/-- A path. -/
structure KeyPath where
  first : String
  steps : List Step := []
  deriving DecidableEq, Repr

namespace KeyPath

/-- Characters of a name on a path. -/
def isNameChar (c : Char) : Bool := c.isAlphanum || c = ' ' || c = '_' || c = '-'

def isGap (c : Char) : Bool := c = ' ' || c = '\t'

/-- An index in brackets, after the opening one, and what follows it. -/
def index? (text : List Char) : Option (Int × List Char) :=
  let text := text.dropWhile isGap
  let (minus, text) := match text with
    | '-' :: rest => (['-'], rest)
    | rest => ([], rest)
  let digits := text.takeWhile Char.isDigit
  match (text.dropWhile Char.isDigit).dropWhile isGap with
  | ']' :: rest => (Number.int64OfBase? 10 (minus ++ digits)).map (·, rest)
  | _ => none

/-- The steps after the first name of a path. -/
def steps? : Nat → List Char → Option (List Step)
  | _, [] => some []
  | 0, _ => none
  | fuel + 1, '.' :: text =>
    let name := text.takeWhile isNameChar
    if name.isEmpty then none
    else (steps? fuel (text.dropWhile isNameChar)).map (.child (String.ofList name) :: ·)
  | fuel + 1, '[' :: text =>
    (index? text).bind fun (index, rest) => (steps? fuel rest).map (.item index :: ·)
  | _, _ => none

/-- The path that a text spells. -/
def ofText? (text : String) : Option KeyPath :=
  let characters := text.toList
  let name := characters.takeWhile isNameChar
  if name.isEmpty then none
  else
    (steps? characters.length (characters.dropWhile isNameChar)).map (⟨String.ofList name, ·⟩)

/-- The place of an item in a list of some length. -/
def place (index : Int) (length : Nat) : Nat :=
  if 0 ≤ index then index.toNat else length - (-index).toNat

/-- Puts a value at the end of a path from a value on. -/
def assign (value : Value) : List Step → Value → Value
  | [], _ => value
  | [.child name], here => Value.put name value here.asTable
  | .child name :: rest, here => Value.alter name Value.missing (assign value rest) here.asTable
  | .item index :: rest, here =>
    Value.alterItem (place index here.items.length) (assign value rest) here

/-- Puts a value at the end of a path. -/
def put (path : KeyPath) (value : Value) (root : Value) : Value :=
  match path.steps with
  | [] => Value.put path.first value root
  | steps => Value.alter path.first Value.missing (assign value steps) root

end KeyPath

/-- Puts a value under a key: at the end of the path it spells, or, when it spells none, under the
key as a name. -/
def Value.putKey (key : String) (value root : Value) : Value :=
  match KeyPath.ofText? key with
  | some path => path.put value root
  | none => Value.put key value root

end GroupReplay.Settings
