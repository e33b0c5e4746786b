import GroupReplay.Settings.KeyPath
import GroupReplay.Yaml.Node.Reader

/-!
Where settings come from: tables in YAML files and variables of the environment.
-/

namespace GroupReplay.Settings

namespace Source

/-- The value of a number that is no integer; its spelling need not be one of a double. -/
def real? (origin : String) (text : String) : Option Value :=
  (Number.Double.ofText? text).map fun value => .scalar (some origin) (.real value)

/-- The name of an entry.  A key that is null, a list or a mapping gives none. -/
def name? : Yaml.Node → Option String
  | .text text => some text
  | .int value => some (toString value)
  | .bool value => some (toString value)
  | .real text => some text
  | .null | .unusable | .list _ | .map _ => none

mutual

/-- The value of a node. -/
def ofNode? (origin : String) : Yaml.Node → Option Value
  | .null => some (.scalar (some origin) .unit)
  | .unusable => some (.scalar (some origin) .unit)
  | .bool value => some (.scalar (some origin) (.bool value))
  | .int value => some (.scalar (some origin) (.int value))
  | .real text => real? origin text
  | .text text => some (.scalar (some origin) (.text text))
  | .list items => (ofItems? origin items).map (.list (some origin))
  | .map entries => (ofEntries? origin entries).map (.table (some origin))

/-- The values of the items of a list. -/
def ofItems? (origin : String) : List Yaml.Node → Option (List Value)
  | [] => some []
  | item :: rest =>
    (ofNode? origin item).bind fun value => (ofItems? origin rest).map (value :: ·)

/-- The values of the entries of a mapping, all of which have to have names. -/
def ofEntries? (origin : String) : List (Yaml.Node × Yaml.Node) → Option (List (String × Value))
  | [] => some []
  | (key, item) :: rest =>
    (name? key).bind fun name =>
      (ofNode? origin item).bind fun value =>
        (ofEntries? origin rest).map ((name, value) :: ·)

end

/-- The table in the text of a file, which has to be one. -/
def ofFile? (origin text : String) : Option (List (String × Value)) :=
  match (Yaml.Node.ofText? text).bind (ofNode? origin) with
  | some (.table _ entries) => some entries
  | _ => none

/-- What the names of variables that hold settings begin with, in lower case. -/
def variablePrefix : String := "replay__"

/-- The value of a variable: a truth value in any case, an integer, a number, else the text. -/
def ofVariable (text : String) : Scalar :=
  if text.toLower = "true" then .bool true
  else if text.toLower = "false" then .bool false
  else match Number.int64? text with
    | some value => .int value
    | none =>
      match Number.Double.ofText? text with
      | some value => .real value
      | none => .text text

/-- The path that the rest of a variable's name spells: two underscores separate its steps. -/
def separated : List Char → List Char
  | '_' :: '_' :: rest => '.' :: separated rest
  | c :: rest => c :: separated rest
  | [] => []

/-- The key that a variable of a name holds the value of. -/
def keyOf? (name : String) : Option String :=
  let characters := name.toLower.toList
  if variablePrefix.toList.isPrefixOf characters then
    some (String.ofList (separated (characters.drop variablePrefix.length)))
  else none

/-- The keys and values in the environment. -/
def ofEnvironment (environment : List (String × String)) : List (String × Value) :=
  environment.filterMap fun (name, text) =>
    (keyOf? name).map (·, .scalar (some "the environment") (ofVariable text))

end Source

/-- Puts all entries of a source, by their keys. -/
def Value.putSource (source : List (String × Value)) (root : Value) : Value :=
  source.foldl (fun root (key, value) => Value.putKey key value root) root

end GroupReplay.Settings
