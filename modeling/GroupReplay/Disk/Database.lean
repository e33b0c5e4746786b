import GroupReplay.Disk.Basic

/-!
Opening the store that a path names.  The path stands in an address, in which percent signs escape
bytes and a question mark begins options; `:memory:` and the empty path name a store that is kept
nowhere.
-/

namespace GroupReplay.Disk

/-- Where an open store is kept. -/
inductive Keeping where
  | nowhere
  | onDisk (place : Place)
  deriving DecidableEq, Repr

/-- The name of a store that is kept nowhere. -/
def inMemory : String := ":memory:"

/-- Leaves out a text as often as a list begins with it. -/
def dropRepeated (mark : List Char) : Nat → List Char → List Char
  | 0, text => text
  | fuel + 1, text =>
    if mark.isPrefixOf text then dropRepeated mark fuel (text.drop mark.length) else text

/-- The database that a path names, as it is written in the path's address. -/
def databaseText (path : String) : String :=
  let address := "sqlite:".toList ++ path.toList
  let text := dropRepeated "sqlite://".toList address.length address
  String.ofList (dropRepeated "sqlite:".toList text.length text)

/-- The value of a hexadecimal digit. -/
def hexDigit? (byte : UInt8) : Option UInt8 :=
  if 48 ≤ byte ∧ byte ≤ 57 then some (byte - 48)
  else if 65 ≤ byte ∧ byte ≤ 70 then some (byte - 55)
  else if 97 ≤ byte ∧ byte ≤ 102 then some (byte - 87)
  else none

/-- Replaces a percent sign and two hexadecimal digits by the byte they stand for. -/
def unescape : Bytes → Bytes
  | 37 :: high :: low :: rest =>
    match hexDigit? high, hexDigit? low with
    | some h, some l => (h * 16 + l) :: unescape rest
    | _, _ => 37 :: unescape (high :: low :: rest)
  | byte :: rest => byte :: unescape rest
  | [] => []

/-- The steps to a file by its path's text alone: a step up takes back the one before it. -/
def lexical (place : Place) (path : String) : Place :=
  (names path).foldl (fun place step =>
    if step = "" ∨ step = "." then place
    else if step = ".." then place.dropLast
    else place ++ [step]) place

/-- The number of bytes a database's name may have: that of its journal is longer by eight. -/
def longestDatabaseName : Nat := longestName - 8

/-- The number of bytes a database's path from the root may have, with room for its journal's. -/
def longestDatabasePath : Nat := 512 - 8

/-- A place is short enough for a database and its journal. -/
def Short (place : Place) : Prop :=
  (place.getLast?.getD "").utf8ByteSize ≤ longestDatabaseName ∧ size place ≤ longestDatabasePath

instance (place : Place) : Decidable (Short place) := inferInstanceAs (Decidable (_ ∧ _))

/-- What stands behind the host in the rest of a file's address; a host has to be this one. -/
def behindHost? (rest : List Char) : Option (List Char) :=
  if "//".toList.isPrefixOf rest then
    let host := (rest.drop 2).takeWhile (· ≠ '/')
    if host = [] ∨ host = "localhost".toList then some ((rest.drop 2).dropWhile (· ≠ '/')) else none
  else some rest

/-- The path that a file's address names, unescaped: what stands before options, a fragment or an
escaped NUL.  What the options ask for is not looked at. -/
def addressedPath? (text : String) : Option String :=
  if text.startsWith "file:" then
    (behindHost? (text.toList.drop 5)).bind fun named =>
      let bytes := (Bytes.ofText (String.ofList named)).takeWhile fun byte => byte ≠ 63 ∧ byte ≠ 35
      Bytes.toText? ((unescape bytes).takeWhile (· ≠ 0))
  else some text

/-- The path of the file that the text of an address names. -/
def databasePath? (text : String) : Option String :=
  if text.toList.contains '?' then none
  else
    (Bytes.toText? (unescape (Bytes.ofText text))).bind fun name =>
      if Store.holdsNul name then none else addressedPath? name

/-- What is left where a database could not be opened for the length of its name: an empty file, if the
name is too long for a journal beside it but not for the file itself. -/
def leave (place : Place) (disk : Disk) : Disk :=
  if (disk.at? place).isNone && (place.getLast?.getD "").utf8ByteSize ≤ longestName &&
      size place ≤ longestDatabasePath then disk.put place (.text "")
  else disk

/-- Opens the database file at a path, and creates it if it is absent.  The files that a database keeps
beside its own while it is used, named like it with `-journal`, `-wal` or `-shm` after it, are left out:
a store that is kept under such a name is spared here, though opening the other one can destroy it. -/
def openFile (disk : Disk) (path : String) : Option (Keeping × Store.Tables) × Disk :=
  if path = "" ∨ path = inMemory then (some (.nowhere, {}), disk)
  else
    let place := lexical (disk.start path) path
    if !disk.leadsToDirectory [] place.dropLast then (none, disk)
    else if ¬ Short place then (none, disk.leave place)
    else match disk.at? place with
      | none => (some (.onDisk place, {}), disk.put place (.tables {}))
      | some (.text "") => (some (.onDisk place, {}), disk.put place (.tables {}))
      | some (.tables tables) => (some (.onDisk place, tables), disk)
      | some _ => (none, disk)

/-- Opens the database that the text of an address names. -/
def openDatabase (disk : Disk) (text : String) : Option (Keeping × Store.Tables) × Disk :=
  if text = inMemory then (some (.nowhere, {}), disk)
  else match databasePath? text with
    | none => (none, disk)
    | some path => disk.openFile path

/-- Opens the store that a path names.  The directory it stands in is made if need be, even if the
store then cannot be opened. -/
def openStore (disk : Disk) (path : String) :
    Except Store.Error (Keeping × Store.Tables) × Disk :=
  if path = inMemory then (.ok (.nowhere, {}), disk)
  else match disk.makeParent path with
    | .error fault => (.error (.unavailable fault.message), disk)
    | .ok disk =>
      match disk.openDatabase (databaseText path) with
      | (none, left) => (.error .database, left)
      | (some found, opened) => (.ok found, opened)

/-- Keeps the tables of a store that was open. -/
def keep (keeping : Keeping) (tables : Store.Tables) (disk : Disk) : Disk :=
  match keeping with
  | .nowhere => disk
  | .onDisk place => disk.put place (.tables tables)

end GroupReplay.Disk
