import GroupReplay.Number.Double

/-!
The values of a YAML document, and what a plain scalar stands for.
-/

namespace GroupReplay.Yaml

/-- A value of a document. -/
inductive Node where
  | null
  /-- A scalar that its tag does not admit, or a reference to a value from inside it. -/
  | unusable
  | bool (value : Bool)
  | int (value : Int)
  /-- A number that is no 64-bit integer, as it is written. -/
  | real (text : String)
  | text (text : String)
  | list (items : List Node)
  | map (entries : List (Node × Node))
  deriving BEq, Repr

/-- A tag after its handle was looked up. -/
structure Tag where
  space : String
  name : String

/-- The space of the tags that YAML itself defines. -/
def Tag.standard : String := "tag:yaml.org,2002:"

namespace Node

/-- The spellings of an infinity and of what is no number. -/
def specialReals : List String :=
  [".inf", ".Inf", ".INF", "+.inf", "+.Inf", "+.INF", "-.inf", "-.Inf", "-.INF",
    ".nan", ".NaN", ".NAN"]

/-- Whether a plain scalar is a number that need not be an integer. -/
def isReal (text : String) : Bool :=
  specialReals.contains text ||
    (text.toList.any Char.isDigit && (Number.Double.ofText? text).isSome)

/-- An integer after a mark: `0x` and `0o` for other bases, a plus for base ten. -/
def markedInt? : List Char → Option Int
  | '0' :: 'x' :: digits => Number.int64OfBase? 16 digits
  | '0' :: 'o' :: digits => Number.int64OfBase? 8 digits
  | '+' :: digits => Number.int64OfBase? 10 digits
  | _ => none

/-- What a plain scalar without a tag stands for. -/
def ofPlain (text : String) : Node :=
  match markedInt? text.toList with
  | some value => int value
  | none =>
    if text = "~" ∨ text = "null" then null
    else if text = "true" then bool true
    else if text = "false" then bool false
    else match Number.int64? text with
      | some value => int value
      | none => if isReal text then real text else .text text

/-- What a plain scalar with a tag stands for. -/
def ofTagged (tag : Tag) (text : String) : Node :=
  if tag.space ≠ Tag.standard then .text text
  else if tag.name = "bool" then
    if text = "true" then bool true else if text = "false" then bool false else unusable
  else if tag.name = "int" then
    match Number.int64? text with
    | some value => int value
    | none => unusable
  else if tag.name = "float" then if isReal text then real text else unusable
  else if tag.name = "null" then if text = "~" ∨ text = "null" then null else unusable
  else .text text

/-- What a scalar stands for.  One that is not plain is always text. -/
def ofScalar (plain : Bool) (tag : Option Tag) (text : String) : Node :=
  if !plain then .text text
  else match tag with
    | some tag => ofTagged tag text
    | none => ofPlain text

/-- Pairs the values of a mapping as they follow each other.  An unusable one is no key: the next
value takes its place.  A key without a value is dropped. -/
def pairs : List Node → List (Node × Node)
  | [] => []
  | [_] => []
  | unusable :: rest => pairs rest
  | key :: value :: rest => (key, value) :: pairs rest

/-- A mapping of values as they follow each other, if no key comes twice. -/
def ofPairs? (values : List Node) : Option Node :=
  let entries := pairs values
  let rec distinct : List (Node × Node) → Bool
    | [] => true
    | entry :: rest => rest.all (fun other => !(other.1 == entry.1)) && distinct rest
  if distinct entries then some (map entries) else none

end Node

end GroupReplay.Yaml
