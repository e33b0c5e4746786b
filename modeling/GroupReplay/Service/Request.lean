import GroupReplay.Wire.Declared

/-!
Requests as the service receives them over a connection.
-/

namespace GroupReplay.Service

open Wire

/-- A received request. -/
inductive Request where
  | configuration (message : ConfigurationRequest)
  | activate (message : ActivateGroupRequest)
  | deactivate (message : DeactivateGroupRequest)
  | listMetadata (message : LogListRequest)
  | listMessages (message : LogListRequest)
  deriving DecidableEq, Repr

/-- The name of the service's method that a request calls. -/
def Request.method : Request → String
  | .configuration _ => "ServiceGetConfiguration"
  | .activate _ => "ActivateGroup"
  | .deactivate _ => "DeactivateGroup"
  | .listMetadata _ => "GroupMetadataList"
  | .listMessages _ => "GroupMessageList"

end GroupReplay.Service
