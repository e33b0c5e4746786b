import GroupReplay.Run

/-!
The client of the protocol service.  Over a direct link it calls the service; over a remote one it
encodes each request, the service decodes it and is called, and what it answers is encoded and
decoded on the way back.  The service observes every call before it looks at it.
-/

namespace GroupReplay

open Wire Service

namespace Service.Client

variable {η : Type}

/-- The service answers a request for its configuration. -/
def serveConfiguration : Action (Run η) Status Configuration := do
  .modify (·.observe .configuration)
  Run.atService fun service => (service.configuration, service)

/-- The service answers a request to activate a group. -/
def serveActivate (group : Bytes) (localOnly : Bool) : Action (Run η) Status Unit := do
  .modify (·.observe (.activate (Key.encode group) localOnly))
  Run.atService (Service.activate group)

/-- The service answers a request to deactivate a group. -/
def serveDeactivate (group : Bytes) : Action (Run η) Status Unit := do
  .modify (·.observe (.deactivate (Key.encode group)))
  Run.atService (Service.deactivate group)

/-- The service answers a request to list a metadata log. -/
def serveMetadata (group : Bytes) : Action (Run η) Status (Listing MetadataEvent) := do
  .modify (·.observe (.listMetadata (Key.encode group)))
  Run.atService fun service => (service.listMetadata group, service)

/-- The service answers a request to list a message log. -/
def serveMessages (group : Bytes) : Action (Run η) Status (Listing MessageEvent) := do
  .modify (·.observe (.listMessages (Key.encode group)))
  Run.atService fun service => (service.listMessages group, service)

/-- A message carried over the connection: encoded at one end and decoded at the other. -/
def carried {α : Type} [Message α] (message : α) : Except Status α :=
  match Message.decode (Message.encode message) with
  | .ok message => .ok message
  | .error e => .error ⟨.internal, e.message⟩

/-- Entries carried over the connection; the first that cannot be decoded ends the listing. -/
def carriedListing {α : Type} [Message α] (ending : Ending) : List α → Listing α
  | [] => ⟨[], ending⟩
  | entry :: rest =>
    match carried entry with
    | .error status => ⟨[], .fails status⟩
    | .ok entry =>
      let listing := carriedListing ending rest
      { listing with entries := entry :: listing.entries }

/-- A call over the connection that is answered once. -/
def unary {ρ π : Type} [Message ρ] [Message π] (receive : ρ → Request) (message : ρ)
    (serve : ρ → Action (Run η) Status π) : Action (Run η) Status π := do
  let message ← .ofExcept (carried message)
  .modify (·.receive (receive message))
  let reply ← serve message
  .ofExcept (carried reply)

/-- A call over the connection that is answered by a listing. -/
def listing {α : Type} [Message α] (receive : LogListRequest → Request) (group : Bytes)
    (serve : Bytes → Action (Run η) Status (Listing α)) : Action (Run η) Status (Listing α) := do
  let message ← .ofExcept (carried (LogListRequest.untilNowOf group))
  .modify (·.receive (receive message))
  let listing ← serve message.group
  return carriedListing listing.ending listing.entries

/-- Chooses how a call is made by the link, and reports the service's failures as errors. -/
def byLink {α : Type} (direct remote : Action (Run η) Status α) : Action (Run η) Service.Error α :=
  .mapError .status ⟨fun run =>
    match run.link with
    | .direct => direct.run run
    | .remote => remote.run run⟩

/-- The configuration of the account that the service holds. -/
def configuration : Action (Run η) Service.Error Configuration :=
  byLink serveConfiguration <|
    unary .configuration ({} : ConfigurationRequest) fun _ => serveConfiguration

/-- Makes a group's logs readable. -/
def activate (group : Bytes) (localOnly : Bool) : Action (Run η) Service.Error Unit :=
  byLink (serveActivate group localOnly) do
    let _ ← unary .activate { group, localOnly } fun (message : ActivateGroupRequest) => do
      serveActivate message.group message.localOnly
      return ({} : ActivateGroupReply)

/-- Releases a group. -/
def deactivate (group : Bytes) : Action (Run η) Service.Error Unit :=
  byLink (serveDeactivate group) do
    let _ ← unary .deactivate { group } fun (message : DeactivateGroupRequest) => do
      serveDeactivate message.group
      return ({} : DeactivateGroupReply)

/-- Opens a listing of a group's metadata log, from its start up to now. -/
def listMetadata (group : Bytes) : Action (Run η) Service.Error (Listing MetadataEvent) :=
  byLink (serveMetadata group) (listing .listMetadata group serveMetadata)

/-- Opens a listing of a group's message log, from its start up to now. -/
def listMessages (group : Bytes) : Action (Run η) Service.Error (Listing MessageEvent) :=
  byLink (serveMessages group) (listing .listMessages group serveMessages)

end Service.Client

end GroupReplay
