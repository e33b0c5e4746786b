import GroupReplay.Bytes

/-!
The calls of a replay as an observer of service, store and handler sees them, in one order.
-/

namespace GroupReplay

/-- An observed call.  Group keys are in their text form. -/
inductive Call where
  | configuration
  | ensureAccount (key : String)
  | conversations
  | activate (group : String) (localOnly : Bool)
  | deactivate (group : String)
  | listMetadata (group : String)
  | listMessages (group : String)
  | applyMetadata (group : String) (event : Bytes)
  | applyMessage (group : String) (event : Bytes)
  deriving DecidableEq, Repr

end GroupReplay
