import GroupReplay.Text.Quoted

/-!
What can go wrong between a client and the protocol service, and the wording of it.
-/

namespace GroupReplay.Service

/-- The codes under which the service reports failures. -/
inductive Code where
  | unavailable
  | failedPrecondition
  | internal
  deriving DecidableEq, Repr

/-- The code's name. -/
def Code.name : Code → String
  | .unavailable => "Unavailable"
  | .failedPrecondition => "FailedPrecondition"
  | .internal => "Internal"

/-- A failure that the service reports. -/
structure Status where
  code : Code
  text : String
  deriving DecidableEq, Repr

/-- The wording of a status: its code and its text, without details or headers. -/
def Status.message (status : Status) : String :=
  "status: " ++ status.code.name ++ ", message: " ++ Text.quoted status.text ++
    ", details: [], metadata: MetadataMap \x7b headers: \x7b\x7d \x7d"

/-- Why a call of the service or the reading of a log failed. -/
inductive Error where
  | status (status : Status)
  /-- The service could not be reached. -/
  | transport
  /-- The reading of a log was cancelled. -/
  | cancelled
  /-- An address that is no endpoint, with what is wrong with it. -/
  | invalidEndpoint (address reason : String)
  deriving DecidableEq, Repr

/-- The wording of a service error. -/
def Error.message : Error → String
  | .status s => "gRPC status: " ++ s.message
  | .transport => "Transport error: transport error"
  | .cancelled => "Log stream cancelled"
  | .invalidEndpoint address reason => s!"Invalid endpoint: {address}: {reason}"

end GroupReplay.Service
