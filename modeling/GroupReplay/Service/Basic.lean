import GroupReplay.Key
import GroupReplay.Service.Log
import GroupReplay.Wire.Declared

/-!
The protocol service of one account, held in memory: the logs of its groups, the groups that are
active, and the calls it is told to fail.  A group's logs can be listed while the group is active.
The home group is active from the start and stays so.
-/

namespace GroupReplay

open Wire

namespace Service

/-- The two logs of a group. -/
structure GroupLogs where
  metadata : Log MetadataEvent := {}
  messages : Log MessageEvent := {}
  deriving DecidableEq, Repr

end Service

open Service

/-- A protocol service. -/
structure Service where
  home : Bytes
  logs : List (Bytes × GroupLogs) := []
  active : List Bytes := [home]
  failsConfiguration : Bool := false
  failsActivate : List Bytes := []
  failsDeactivate : List Bytes := []
  failsMetadata : List Bytes := []
  failsMessages : List Bytes := []
  deriving DecidableEq, Repr

namespace Service

/-- The logs of a group; one that nothing was put into has empty, complete logs. -/
def logsOf (service : Service) (group : Bytes) : GroupLogs :=
  (service.logs.lookup group).getD {}

/-- Changes the logs of a group. -/
def changeLogs (service : Service) (group : Bytes) (change : GroupLogs → GroupLogs) : Service :=
  let others := service.logs.filter (·.1 ≠ group)
  { service with logs := (group, change (service.logsOf group)) :: others }

/-- Puts an entry at the end of a group's metadata log. -/
def pushMetadata (group : Bytes) (event : MetadataEvent) (service : Service) : Service :=
  service.changeLogs group fun logs =>
    { logs with metadata.entries := logs.metadata.entries ++ [event] }

/-- Puts an entry at the end of a group's message log. -/
def pushMessage (group : Bytes) (event : MessageEvent) (service : Service) : Service :=
  service.changeLogs group fun logs =>
    { logs with messages.entries := logs.messages.entries ++ [event] }

/-- Settles what a group's metadata log does after its entries. -/
def endMetadata (group : Bytes) (logEnd : LogEnd) (service : Service) : Service :=
  service.changeLogs group fun logs => { logs with metadata.logEnd := logEnd }

/-- Settles what a group's message log does after its entries. -/
def endMessages (group : Bytes) (logEnd : LogEnd) (service : Service) : Service :=
  service.changeLogs group fun logs => { logs with messages.logEnd := logEnd }

/-- Whether a group's logs can be listed. -/
def isActive (service : Service) (group : Bytes) : Bool := decide (group ∈ service.active)

/-- The account that the service holds. -/
def configuration (service : Service) : Except Status Configuration :=
  if service.failsConfiguration then .error ⟨.unavailable, "protocol service not started"⟩
  else .ok { homeKey := service.home }

/-- Makes a group's logs readable. -/
def activate (group : Bytes) (service : Service) : Except Status Unit × Service :=
  if group ∈ service.failsActivate then (.error ⟨.internal, "unable to activate group"⟩, service)
  else if group ∈ service.active then (.ok (), service)
  else (.ok (), { service with active := service.active ++ [group] })

/-- Releases a group; the home group stays active. -/
def deactivate (group : Bytes) (service : Service) : Except Status Unit × Service :=
  if group ∈ service.failsDeactivate then
    (.error ⟨.internal, "unable to deactivate group"⟩, service)
  else if group = service.home then (.ok (), service)
  else (.ok (), { service with active := service.active.filter (· ≠ group) })

/-- The status for a group whose logs cannot be listed. -/
def inactive (group : Bytes) : Status :=
  ⟨.failedPrecondition, s!"group {Key.encode group} is not active"⟩

/-- Lists a group's metadata log.  A log that cannot be opened is reported before an inactive
group. -/
def listMetadata (service : Service) (group : Bytes) : Except Status (Listing MetadataEvent) :=
  if group ∈ service.failsMetadata then .error ⟨.unavailable, "metadata log unavailable"⟩
  else if group ∉ service.active then .error (inactive group)
  else .ok (service.logsOf group).metadata.listing

/-- Lists a group's message log, with the same precedence. -/
def listMessages (service : Service) (group : Bytes) : Except Status (Listing MessageEvent) :=
  if group ∈ service.failsMessages then .error ⟨.unavailable, "message log unavailable"⟩
  else if group ∉ service.active then .error (inactive group)
  else .ok (service.logsOf group).messages.listing

end Service

end GroupReplay
