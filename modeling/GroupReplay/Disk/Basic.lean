import GroupReplay.Bytes
import GroupReplay.Store.Tables

/-!
The files that the program meets: directories, texts, databases and sockets, each at a place that is
named by the steps from the root.
-/

namespace GroupReplay

/-- What stands at a place. -/
inductive Disk.Entry where
  | directory
  | text (text : String)
  | tables (tables : Store.Tables)
  /-- A socket or a device. -/
  | other
  deriving DecidableEq, Repr

/-- The steps from the root to an entry. -/
abbrev Disk.Place := List String

/-- A file system, as far as it is known, and the directory that relative paths start from. -/
structure Disk where
  entries : List (Disk.Place × Disk.Entry)
  here : Disk.Place
  deriving Repr

namespace Disk

/-- Why a directory could not be made. -/
inductive Fault where
  | absent
  | present
  | notDirectory
  | longName
  | nulInName
  deriving DecidableEq, Repr

/-- The wording of a fault. -/
def Fault.message : Fault → String
  | absent => "No such file or directory (os error 2)"
  | present => "File exists (os error 17)"
  | notDirectory => "Not a directory (os error 20)"
  | longName => "File name too long (os error 36)"
  | nulInName => "file name contained an unexpected NUL byte"

/-- A disk with an empty directory to start from. -/
def fresh : Disk where
  entries := [(["dev"], .directory), (["dev", "null"], .other), (["work"], .directory)]
  here := ["work"]

/-- What stands at a place; the root is a directory. -/
def at? (disk : Disk) (place : Place) : Option Entry :=
  if place.isEmpty then some .directory
  else (disk.entries.find? (·.1 = place)).map (·.2)

/-- Puts an entry at a place, instead of what was there. -/
def put (place : Place) (entry : Entry) (disk : Disk) : Disk :=
  { disk with entries := (place, entry) :: disk.entries.filter (·.1 ≠ place) }

theorem at?_put (disk : Disk) (entry : Entry) {place : Place} (below : place ≠ []) :
    (disk.put place entry).at? place = some entry := by
  simp [at?, put, below]

theorem at?_put_of_ne (disk : Disk) (entry : Entry) {place other : Place} (apart : other ≠ place) :
    (disk.put place entry).at? other = disk.at? other := by
  have kept : (disk.entries.filter (·.1 ≠ place)).find? (·.1 = other) =
      disk.entries.find? (·.1 = other) := by
    rw [List.find?_filter]
    congr
    funext entry
    by_cases here : entry.1 = other <;> simp [here, apart]
  simp only [at?, put, List.find?_cons]
  split
  · rfl
  · rw [show decide (place = other) = false by simp [Ne.symm apart], kept]

/-- The names in a path, those between its slashes. -/
def names (path : String) : List String := (path.toList.splitOn '/').map String.ofList

/-- The steps of a path; idle ones are left out, save a first one that says where it starts. -/
def steps (path : String) : List String :=
  match names path with
  | "." :: rest => "." :: rest.filter fun step => step ≠ "" ∧ step ≠ "."
  | steps => steps.filter fun step => step ≠ "" ∧ step ≠ "."

/-- The directory that a path starts from. -/
def start (disk : Disk) (path : String) : Place :=
  if path.startsWith "/" then [] else disk.here

/-- The number of bytes a name may have. -/
def longestName : Nat := 255

/-- The number of bytes that steps take up, each with the slash before it. -/
def size (steps : List String) : Nat :=
  steps.foldr (fun step further => step.utf8ByteSize + 1 + further) 0

/-- The number of bytes the steps of a path may take up. -/
def longestPath : Nat := 4096

/-- Goes one step on from a directory. -/
def step (disk : Disk) (place : Place) (name : String) : Except Fault Place :=
  if disk.at? place ≠ some .directory then .error .notDirectory
  else if name = "." then .ok place
  else if name = ".." then .ok place.dropLast
  else if longestName < name.utf8ByteSize then .error .longName
  else if (disk.at? (place ++ [name])).isNone then .error .absent
  else .ok (place ++ [name])

/-- Follows the steps of a path. -/
def follow (disk : Disk) (place : Place) (steps : List String) : Except Fault Place :=
  steps.foldlM disk.step place

/-- Whether the steps of a path lead to a directory. -/
def leadsToDirectory (disk : Disk) (place : Place) (steps : List String) : Bool :=
  match disk.follow place steps with
  | .ok found => disk.at? found = some .directory
  | .error _ => false

/-- Makes the directory that the last step of a path names. -/
def makeDirectory (disk : Disk) (place : Place) (steps : List String) : Except Fault Disk := do
  match steps.getLast? with
  | none => throw .present
  | some name =>
    if steps.any fun step => step.toList.any (·.toNat = 0) then throw .nulInName
    if longestPath < size steps then throw .longName
    let parent ← disk.follow place steps.dropLast
    match disk.step parent name with
    | .ok _ => throw .present
    | .error .absent => return disk.put (parent ++ [name]) .directory
    | .error fault => throw fault

/-- Makes a directory and those above it that are absent; one that is there is left alone.  The
steps are given from the last to the first. -/
def makeDirectories (disk : Disk) (place : Place) : List String → Except Fault Disk
  | [] => .ok disk
  | last :: above =>
    let steps := (last :: above).reverse
    let settle := fun (disk : Disk) (fault : Fault) =>
      if disk.leadsToDirectory place steps then .ok disk else .error fault
    match disk.makeDirectory place steps with
    | .ok made => .ok made
    | .error .absent =>
      (disk.makeDirectories place above).bind fun disk =>
        match disk.makeDirectory place steps with
        | .ok made => .ok made
        | .error fault => settle disk fault
    | .error fault => settle disk fault

/-- Makes the directory that a path's file is to stand in. -/
def makeParent (disk : Disk) (path : String) : Except Fault Disk :=
  disk.makeDirectories (disk.start path) ((steps path).dropLast).reverse

/-- The text of the file at a path.  A path that ends like one of a directory names no file. -/
def read? (disk : Disk) (path : String) : Option String :=
  if path.endsWith "/" || path.endsWith "/." then none
  else match disk.follow (disk.start path) (steps path) with
    | .error _ => none
    | .ok place =>
      match disk.at? place with
      | some (.text text) => some text
      | _ => none

/-- Writes a file; the directories it stands in are made. -/
def write (path text : String) (disk : Disk) : Except Fault Disk :=
  (disk.makeParent path).bind fun disk =>
    (disk.follow (disk.start path) (steps path).dropLast).map fun parent =>
      disk.put (parent ++ (steps path).getLast?.toList) (.text text)

end Disk

end GroupReplay
