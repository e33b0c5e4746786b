import GroupReplay.Settings.Source

/-!
The settings of the program and how they are found.  Four sources are read, and a later one wins: a
file of a fixed name, if it is there; the file that the caller names; the file that a variable of
the environment names; and the variables of the environment.
-/

namespace GroupReplay

/-- The settings of the program. -/
structure Settings where
  /-- Where the protocol service is reached. -/
  address : String := "127.0.0.1:9091"
  /-- Where the local store is kept. -/
  storePath : String := "data/messenger.db"
  deriving DecidableEq, Repr, Inhabited

namespace Settings

/-- Settings for tests, whose store is kept in memory. -/
def forTests : Settings := { storePath := ":memory:" }

/-- Why settings cannot be had. -/
inductive Error where
  | fileNotFound (name : String)
  /-- A file holds no table. -/
  | illFormed
  /-- A section is not what it should be. -/
  | wrongSection (found : Scalar) (expected : String)
  /-- A value that should be a text is a list, a table or missing. -/
  | wrongField (found key : String) (origin : Option String)
  deriving DecidableEq, Repr

/-- The wording of an error.  What is wrong inside a file is not part of it. -/
def Error.message : Error → String
  | fileNotFound name => "configuration file \"" ++ name ++ "\" not found"
  | illFormed => "ill-formed configuration file"
  | wrongSection found expected => "invalid type: " ++ found.describe ++ ", expected " ++ expected
  | wrongField found key origin =>
    "invalid type: " ++ found ++ ", expected a string for key `" ++ key ++ "`" ++
      (origin.map (" in " ++ ·)).getD ""

/-- The text of a value; `key` is where it stands. -/
def readText (key : String) : Value → Except Error String
  | .scalar origin scalar =>
    match scalar.text? with
    | some text => .ok text
    | none => .error (.wrongField "unit value" key origin)
  | .list origin _ => .error (.wrongField "sequence" key origin)
  | .table origin _ => .error (.wrongField "map" key origin)

/-- Reads the only field of a section: an entry of a table or the first item of a list.  It has a
default. -/
def readSection (root : Value) (name expected field default : String) : Except Error String :=
  match root.get? name with
  | none => .ok default
  | some (.table origin entries) =>
    match (Value.table origin entries).get? field with
    | some value => readText (name ++ "." ++ field) value
    | none => .ok default
  | some (.list _ []) => .ok default
  | some (.list _ (item :: _)) => readText (name ++ "[0]") item
  | some (.scalar _ scalar) => .error (.wrongSection scalar expected)

/-- The settings that a value holds. -/
def ofValue (root : Value) : Except Error Settings := do
  let default : Settings := {}
  let address ← readSection root "protocol" "struct ProtocolConfig" "address" default.address
  let storePath ← readSection root "storage" "struct StorageConfig" "path" default.storePath
  return { address, storePath }

/-- The file that is read if it is there. -/
def defaultFile : String := "config.yaml"

/-- The variable that names a file. -/
def fileVariable : String := "REPLAY_CONFIG"

/-- A file's name without what a directory's name may end in. -/
def stem (name : String) : String :=
  let rec trim : List Char → List Char
    | '/' :: rest => trim rest
    | '.' :: '/' :: rest => trim rest
    | rest => rest
  String.ofList (trim name.toList.reverse).reverse

/-- The names under which a file is looked for. -/
def candidates (name : String) : List String :=
  let last := ((stem name).splitOn "/").getLastD ""
  if last = "" ∨ last = "." ∨ last = ".." then [name]
  else [name, stem name ++ ".yaml", stem name ++ ".yml"]

/-- A file's name as values remember it: without idle steps. -/
def originOf (name : String) : String :=
  let steps := (name.splitOn "/").filter fun step => step ≠ "" ∧ step ≠ "."
  (if name.startsWith "/" then "/" else "") ++ "/".intercalate steps

/-- A text without the mark of its byte order, which it may begin with. -/
def withoutMark (text : String) : String :=
  match text.toList with
  | '\uFEFF' :: rest => String.ofList rest
  | _ => text

/-- Reads the first file that is there; `read` gives the text of a file. -/
def ofFile (read : String → Option String) (name : String) (required : Bool) :
    Except Error (List (String × Value)) :=
  let found := (candidates name).findSome? fun candidate => (read candidate).map (candidate, ·)
  match found with
  | none => if required then .error (.fileNotFound name) else .ok []
  | some (candidate, text) =>
    match Source.ofFile? (originOf candidate) (withoutMark text) with
    | some entries => .ok entries
    | none => .error .illFormed

/-- The file that the environment names, if it names one. -/
def wanted? (environment : List (String × String)) : Option String :=
  (environment.find? (·.1 = fileVariable)).map (·.2)

/-- Finds the settings.  `read` gives the text of a file that is there. -/
def load (read : String → Option String) (path : Option String)
    (environment : List (String × String)) : Except Error Settings := do
  let optional ← ofFile read defaultFile false
  let named ← path.elim (pure []) fun name => ofFile read name true
  let wanted ← (wanted? environment).elim (pure []) fun name => ofFile read name true
  let root := [optional, named, wanted, Source.ofEnvironment environment].foldl
    (fun root source => Value.putSource source root) (.table none [])
  ofValue root

end Settings

end GroupReplay
