import GroupReplay.Call
import GroupReplay.Service.Basic
import GroupReplay.Service.Request
import GroupReplay.Store.Access
import GroupReplay.Token

/-!
The state of a run: the service at the far end and how it is reached, the cancellation token, the
calls that were observed, and a local side of any type, which holds the store and whatever handlers
keep.  A run is a store itself: the creation of accounts and the listing of conversations are
observed if the store on its local side wants them to be.
-/

namespace GroupReplay

/-- How a client reaches the service. -/
inductive Link where
  /-- The client calls the service itself. -/
  | direct
  /-- Requests and replies are encoded and carried over a connection. -/
  | remote
  deriving DecidableEq, Repr

/-- The state of a run with a local side of type `η`. -/
structure Run (η : Type) where
  service : Service
  link : Link := .direct
  /-- The requests that the service received over the connection. -/
  requests : List Service.Request := []
  token : Token := .never
  /-- The observed calls, in order. -/
  calls : List Call := []
  site : η

namespace Run

variable {η : Type}

/-- Puts a call at the end of the observed ones. -/
def observe (call : Call) (run : Run η) : Run η := { run with calls := run.calls ++ [call] }

/-- Puts a request at the end of the received ones. -/
def receive (request : Service.Request) (run : Run η) : Run η :=
  { run with requests := run.requests ++ [request] }

/-- The call under which a store operation is observed, if it is one of those that are. -/
def callOf {α : Type} : Store.Op α → Option Call
  | .ensureAccount key _ => some (.ensureAccount key)
  | .conversations => some .conversations
  | _ => none

/-- Observes a store operation if it is one of those that are and the store wants it to be. -/
def observeOp [Store.LocalStore η] {α : Type} (op : Store.Op α) (run : Run η) : Run η :=
  match callOf op with
  | some call => if Store.LocalStore.recorded run.site then run.observe call else run
  | none => run

instance [Store.LocalStore η] : Store.LocalStore (Run η) where
  perform op run :=
    let run := run.observeOp op
    match Store.LocalStore.perform op run.site with
    | (answer, site) => (answer, { run with site })
  recorded run := Store.LocalStore.recorded run.site

/-- An action on the local side. -/
def locally {ε α : Type} (action : Action η ε α) : Action (Run η) ε α := ⟨fun run =>
  match action.run run.site with
  | (result, site) => (result, { run with site })⟩

/-- An action on the service. -/
def atService {ε α : Type} (answer : Service → Except ε α × Service) : Action (Run η) ε α :=
  ⟨fun run =>
    match answer run.service with
    | (result, service) => (result, { run with service })⟩

end Run

end GroupReplay
