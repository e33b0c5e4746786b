import GroupReplay.Number.Shortest
import GroupReplay.Text.Quoted

/-!
Values that settings are read from.  They keep where they come from.  A table that is put where a
value already stands is merged into it entry by entry; any other value takes its place.  Names of
entries are kept in lower case.
-/

namespace GroupReplay.Settings

/-- A value without parts. -/
inductive Scalar where
  | unit
  | bool (value : Bool)
  | int (value : Int)
  | real (value : Number.Double)
  | text (value : String)
  deriving DecidableEq, Repr

/-- A value, with the name of the file it comes from, or of the environment. -/
inductive Value where
  | scalar (origin : Option String) (scalar : Scalar)
  | list (origin : Option String) (items : List Value)
  | table (origin : Option String) (entries : List (String × Value))
  deriving Repr

/-- The text of a scalar, which a missing value has not. -/
def Scalar.text? : Scalar → Option String
  | unit => none
  | bool value => some (toString value)
  | int value => some (toString value)
  | real value => some value.render
  | text value => some value

/-- A number with a point in it, unless it is infinite or none. -/
def pointed (value : Number.Double) : String :=
  match value with
  | .finite _ _ _ =>
    if value.render.toList.contains '.' then value.render else value.render ++ ".0"
  | _ => value.render

/-- A scalar as it is named where something else is wanted. -/
def Scalar.describe : Scalar → String
  | unit => "unit value"
  | bool value => "boolean `" ++ toString value ++ "`"
  | int value => "integer `" ++ toString value ++ "`"
  | real value => "floating point `" ++ pointed value ++ "`"
  | text value => "string " ++ Text.quoted value

namespace Value

/-- A value that is not there. -/
def missing : Value := scalar none .unit

/-- The entries of a table; anything else has none. -/
def entries : Value → List (String × Value)
  | table _ entries => entries
  | _ => []

/-- The items of a list; anything else has none. -/
def items : Value → List Value
  | list _ items => items
  | _ => []

/-- The entry of a name. -/
def get? (value : Value) (name : String) : Option Value :=
  (value.entries.find? (·.1 = name)).map (·.2)

/-- A table, in place of what is none. -/
def asTable : Value → Value
  | table origin entries => table origin entries
  | _ => table none []

/-- Sets the entry of a name to a function of the present one, or of a default. -/
def alter (name : String) (default : Value) (f : Value → Value) (value : Value) : Value :=
  let entries := value.entries
  let changed :=
    if entries.any (·.1 = name) then
      entries.map fun entry => if entry.1 = name then (name, f entry.2) else entry
    else entries ++ [(name, f default)]
  match value with
  | table origin _ => table origin changed
  | _ => table none changed

mutual

/-- Puts a value under a name. -/
def put (name : String) : Value → Value → Value
  | table _ entries, target => alter name.toLower (table none []) (merge entries) target
  | list origin items, target => alter name.toLower missing (fun _ => list origin items) target
  | scalar origin value, target => alter name.toLower missing (fun _ => scalar origin value) target

/-- Puts every entry of a table. -/
def merge : List (String × Value) → Value → Value
  | [], target => target
  | (name, value) :: rest, target => merge rest (put name value target)

end

/-- Sets an item to a function of the present one; a list that is too short is filled up. -/
def alterItem (index : Nat) (f : Value → Value) (value : Value) : Value :=
  let items := value.items ++ List.replicate (index + 1 - value.items.length) missing
  match value with
  | list origin _ => list origin (items.modify index f)
  | _ => list none (items.modify index f)

end Value

end GroupReplay.Settings
