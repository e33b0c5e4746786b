import GroupReplay.Command

/-!
The program.  It reads the files its settings may be in and runs the command on them.  It has no
transport of its own, so that no service is in its reach.
-/

namespace GroupReplay.Command

/-- The variables of the environment, as the system lists them. -/
def environment : IO (List (String × String)) := do
  let text ← try IO.FS.readFile "/proc/self/environ" catch _ => pure ""
  return (text.splitOn "\x00").filterMap fun entry =>
    match entry.splitOn "=" with
    | name :: value :: more => some (name, "=".intercalate (value :: more))
    | _ => none

/-- The files that settings may be in, as far as they are there. -/
def settingsFiles (names : List String) : IO Disk := do
  let mut disk := Disk.fresh
  for name in names.flatMap Settings.candidates do
    let text? ← try some <$> IO.FS.readFile name catch _ => pure none
    if let some text := text? then
      if let .ok written := disk.write name text then disk := written
  return disk

/-- Runs the command on the files and variables that are there. -/
def execute (arguments : List String) : IO UInt32 := do
  let environment ← environment
  let wanted := Settings.wanted? environment
  let names := Settings.defaultFile :: (configPath arguments).toList ++ wanted.toList
  let disk ← settingsFiles names
  let (outcome, _) := run arguments environment { disk }
  IO.eprintln outcome.message
  return outcome.exitCode

end GroupReplay.Command

def main (arguments : List String) : IO UInt32 := GroupReplay.Command.execute arguments
