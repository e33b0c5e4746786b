import GroupReplay.Address
import GroupReplay.Disk.Database
import GroupReplay.Replay.Basic
import GroupReplay.Settings.Basic

/-!
The command: it finds its settings, connects to the service, opens the store, replays once and
exits.
-/

namespace GroupReplay.Command

/-- The configuration file that the arguments name, in one argument or in two. -/
def configPath : List String → Option String
  | [] => none
  | argument :: rest =>
    if argument = "--config" then rest.head?
    else if argument.startsWith "--config=" then some (argument.drop "--config=".length).toString
    else configPath rest

/-- How a run of the command ends. -/
inductive Outcome where
  | badSettings (e : Settings.Error)
  | unreachable (e : Service.Error)
  | noStore (e : Store.Error)
  | failed (e : Replay.Error)
  /-- A log stays open, and the run with it. -/
  | waiting
  | finished (summary : Replay.Summary)
  deriving DecidableEq, Repr

/-- The code a run exits with. -/
def Outcome.exitCode : Outcome → UInt32
  | finished _ => 0
  | _ => 1

/-- A line that tells how a run ended. -/
def Outcome.message : Outcome → String
  | badSettings e => "Failed to load configuration: " ++ e.message
  | unreachable e => "Connection failed: " ++ e.message
  | noStore e => e.message
  | failed e => "Replay failed: " ++ e.message
  | waiting => "Replay does not end"
  | finished summary =>
    s!"Replay finished: groups={summary.groups} metadata={summary.metadata} " ++
      s!"messages={summary.messages}"

/-- What a run meets: files, and services that listen on local sockets. -/
structure Host where
  disk : Disk
  listening : List (Disk.Place × Service) := []
  /-- The requests that were received. -/
  requests : List Service.Request := []
  deriving Repr

namespace Host

/-- The place of the socket that a target names, if it names one. -/
def socket? (host : Host) : Target → Option Disk.Place
  | .tcp _ => none
  | .uds path => (host.disk.follow (host.disk.start path) (Disk.steps path)).toOption

/-- Connects to a service. -/
def connect (host : Host) (target : Target) : Except Service.Error (Disk.Place × Service) :=
  match (host.socket? target).bind fun place => host.listening.find? (·.1 = place) with
  | some found => .ok found
  | none => .error target.unreachable

/-- A service that listens in place of the one that did. -/
def serve (place : Disk.Place) (service : Service) (host : Host) : Host :=
  { host with listening := (place, service) :: host.listening.filter (·.1 ≠ place) }

end Host

/-- Replays the account of a service into tables. -/
def replayInto (tables : Store.Tables) (service : Service) :
    Except (Halt Replay.Error) Replay.Summary × Run (Projection.Desk Store.Tables) :=
  Replay.replayToStore.run { service, link := .remote, site := { store := tables } }

/-- Runs the command. -/
def run (arguments : List String) (environment : List (String × String)) (host : Host) :
    Outcome × Host :=
  match Settings.load host.disk.read? (configPath arguments) environment with
  | .error e => (.badSettings e, host)
  | .ok settings =>
    match host.connect (.ofAddress settings.address) with
    | .error e => (.unreachable e, host)
    | .ok (place, service) =>
      match host.disk.openStore settings.storePath with
      | (.error e, disk) => (.noStore e, { host with disk })
      | (.ok (keeping, tables), disk) =>
        let (result, run) := replayInto tables service
        let host := { host with
          disk := disk.keep keeping run.site.store
          requests := host.requests ++ run.requests }
        let outcome := match result with
          | .ok summary => .finished summary
          | .error (.failed e) => .failed e
          | .error .waiting => .waiting
        (outcome, host.serve place run.service)

end GroupReplay.Command
