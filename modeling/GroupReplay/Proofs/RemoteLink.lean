import GroupReplay.Proofs.KeyText
import GroupReplay.Proofs.TaskSteps
import GroupReplay.Proofs.WireRoundTrip

/-!
Calls of the protocol service over a remote link.  Requests, replies and log entries are encoded and
decoded on their way, and come out as they went in, so that a call does over a connection what it
does over a direct link, and besides leaves a request with the service.  What is built from such
calls and from steps that look at neither link nor requests comes to the same over either link, down
to whole replays.

A message can be carried if its encoding is shorter than `Wire.lengthLimit`, which is far beyond the
size that a transport lets pass.
-/

namespace GroupReplay

open Wire Service Projection

/-! ### Messages under way -/

/-- A message is short enough to be carried. -/
def Wire.Message.Fits {α : Type} [Message α] (message : α) : Prop :=
  (Message.encode message).length < lengthLimit

instance {α : Type} [Message α] (message : α) : Decidable (Message.Fits message) :=
  inferInstanceAs (Decidable (_ < _))

namespace Service

/-- The entries of a group's logs are short enough to be carried. -/
structure GroupLogs.Fits (logs : GroupLogs) : Prop where
  metadata : ∀ event ∈ logs.metadata.entries, Message.Fits event
  messages : ∀ event ∈ logs.messages.entries, Message.Fits event

instance (logs : GroupLogs) : Decidable logs.Fits :=
  decidable_of_iff (_ ∧ _)
    ⟨fun both => ⟨both.1, both.2⟩, fun fits => ⟨fits.metadata, fits.messages⟩⟩

/-- All that a service can be asked for is short enough to be carried. -/
structure Fits (service : Service) : Prop where
  configuration : Message.Fits ({ homeKey := service.home } : Configuration)
  logs : ∀ named ∈ service.logs, named.2.Fits

namespace Fits

variable {service : Service}

theorem logsOf (fits : service.Fits) (group : Bytes) : (service.logsOf group).Fits := by
  unfold Service.logsOf
  cases found : service.logs.lookup group with
  | none => exact ⟨nofun, nofun⟩
  | some logs =>
    obtain ⟨before, behind, split, _⟩ := List.lookup_eq_some_iff.mp found
    exact fits.logs (group, logs) (by simp [split])

theorem reply (fits : service.Fits) {reply : Configuration}
    (answered : service.configuration = .ok reply) : Message.Fits reply := by
  unfold Service.configuration at answered
  split at answered
  · cases answered
  · cases answered
    exact fits.configuration

theorem listed {α : Type} [Message α] {log : Log α}
    (fits : ∀ event ∈ log.entries, Message.Fits event) :
    ∀ event ∈ log.listing.entries, Message.Fits event := by
  intro event member
  refine fits event ?_
  rw [← log.listing_entries_prefix]
  exact List.mem_append_left _ member

theorem changeLogs (fits : service.Fits) {group : Bytes} {change : GroupLogs → GroupLogs}
    (changed : ∀ logs : GroupLogs, logs.Fits → (change logs).Fits) :
    (service.changeLogs group change).Fits := by
  refine ⟨fits.configuration, List.forall_mem_cons.mpr ⟨changed _ (fits.logsOf group), ?_⟩⟩
  exact fun named other => fits.logs named (List.mem_of_mem_filter other)

/-- A message that can be carried may be put into a log. -/
theorem pushMessage (fits : service.Fits) {event : MessageEvent} (short : Message.Fits event)
    (group : Bytes) : (service.pushMessage group event).Fits :=
  fits.changeLogs fun _ held => ⟨held.metadata, fun other member =>
    (List.mem_append.mp member).elim (held.messages other) fun last =>
      List.mem_singleton.mp last ▸ short⟩

theorem activate (fits : service.Fits) (group : Bytes) : (service.activate group).2.Fits := by
  unfold Service.activate
  repeat' split
  all_goals exact ⟨fits.configuration, fits.logs⟩

theorem deactivate (fits : service.Fits) (group : Bytes) : (service.deactivate group).2.Fits := by
  unfold Service.deactivate
  repeat' split
  all_goals exact ⟨fits.configuration, fits.logs⟩

end Fits

/-- A request is short enough to be carried. -/
def Request.Fits : Request → Prop
  | .configuration message => Message.Fits message
  | .activate message => Message.Fits message
  | .deactivate message => Message.Fits message
  | .listMetadata message => Message.Fits message
  | .listMessages message => Message.Fits message

instance : DecidablePred Request.Fits
  | .configuration _ | .activate _ | .deactivate _ | .listMetadata _ | .listMessages _ =>
    inferInstanceAs (Decidable (_ < _))

end Service

namespace Call

/-- Whether a call is one of the service. -/
def ofService : Call → Bool
  | configuration | activate _ _ | deactivate _ | listMetadata _ | listMessages _ => true
  | _ => false

/-- The request that asks for a group's whole log: from its start up to now, in log order. -/
def wholeLog (group : Bytes) : LogListRequest where
  group := group
  sinceId := []
  sinceNow := false
  untilId := []
  untilNow := true
  reversed := false

/-- The request by which a call of the service is made over a connection. -/
def request? : Call → Option Request
  | configuration => some (.configuration {})
  | activate group localOnly =>
    (Key.decode group).toOption.map fun group => .activate { group, localOnly }
  | deactivate group => (Key.decode group).toOption.map fun group => .deactivate { group }
  | listMetadata group => (Key.decode group).toOption.map fun group => .listMetadata (wholeLog group)
  | listMessages group => (Key.decode group).toOption.map fun group => .listMessages (wholeLog group)
  | _ => none

theorem request?_of_local {call : Call} (elsewhere : call.ofService = false) :
    call.request? = none := by
  cases call <;> first | rfl | cases elsewhere

/-- The request of a call, if there is one, is short enough to be carried. -/
def Sendable (call : Call) : Prop := ∀ request ∈ call.request?, request.Fits

instance : DecidablePred Sendable := fun call =>
  inferInstanceAs (Decidable (∀ request ∈ call.request?, request.Fits))

end Call

namespace Service.Client

variable {η α : Type}

theorem carried_ok [Message α] (faithful : Message.Faithful α 1) {message : α}
    (fits : Message.Fits message) : carried message = .ok message := by
  rw [carried, faithful.decode_encode (by decide) message fits]

theorem carriedListing_ok [Message α] (faithful : Message.Faithful α 1) (ending : Ending)
    {entries : List α} (fits : ∀ entry ∈ entries, Message.Fits entry) :
    carriedListing ending entries = ⟨entries, ending⟩ := by
  induction entries with
  | nil => rfl
  | cons entry rest ih =>
    obtain ⟨here, others⟩ := List.forall_mem_cons.mp fits
    simp only [carriedListing, carried_ok faithful here, ih others]

end Service.Client

namespace Run

variable {η : Type}

/-- The run as it would be over a remote link, with the requests that the service received so far. -/
def overLink (requests : List Request) (run : Run η) : Run η :=
  { run with link := .remote, requests }

/-- A run over a direct link whose service could be asked over a connection. -/
structure Carriable (run : Run η) : Prop where
  direct : run.link = .direct
  service : run.service.Fits

variable (requests : List Request) (run : Run η)

@[simp] theorem overLink_link : (run.overLink requests).link = .remote := rfl
@[simp] theorem overLink_requests : (run.overLink requests).requests = requests := rfl

end Run

namespace Service.Client

variable {η α : Type} {requests : List Request}

/-- A call over the connection does what the service does, if request and reply can be carried. -/
theorem unary_run {ρ π : Type} [Message ρ] [Message π] {receive : ρ → Request} {message : ρ}
    {serve : ρ → Action (Run η) Status π} {run after : Run η} {result : Except Status π}
    (sent : carried message = .ok message)
    (served : (serve message).run (run.receive (receive message)) = (result, after))
    (answered : ∀ reply, result = .ok reply → carried reply = .ok reply) :
    (unary receive message serve).run run = (result, after) := by
  simp only [unary, Action.run_bind, sent, Action.run_ofExcept, Action.run_modify, served]
  cases result with
  | ok reply => simp only [answered reply rfl]
  | error status => rfl

/-- A listing comes over the connection as the service gives it, if request and entries can be
carried. -/
theorem listing_run [Message α] (faithful : Message.Faithful α 1)
    {receive : LogListRequest → Request} {group : Bytes}
    {serve : Bytes → Action (Run η) Status (Listing α)} {run after : Run η}
    {result : Except Status (Listing α)}
    (sent : Message.Fits (LogListRequest.untilNowOf group))
    (served : (serve group).run (run.receive (receive (LogListRequest.untilNowOf group))) =
      (result, after))
    (answered : ∀ listing, result = .ok listing → ∀ entry ∈ listing.entries, Message.Fits entry) :
    (listing receive group serve).run run = (result, after) := by
  have request := carried_ok (Kind.faithful .logListRequest) sent
  have group_of : (LogListRequest.untilNowOf group).group = group := rfl
  simp only [listing, Action.run_bind, request, Action.run_ofExcept, Action.run_modify, group_of,
    served]
  cases result with
  | ok listing =>
    simp only [carriedListing_ok faithful listing.ending (answered listing rfl), Action.run_pure]
  | error status => rfl

end Service.Client

/-! ### Actions that come to the same over either link -/

section Transparent

variable {η ε ε' α β : Type}

/-- What an action comes to over a direct link, the calls `made` included, it comes to over a remote
link, where the service receives a request for every call of it. -/
structure Relays (action : Action (Run η) ε α) (run : Run η) (result : Except ε α) (after : Run η)
    (made : List Call) : Prop where
  directly : action.run run = (result, after)
  ready : after.Carriable
  calls : after.calls = run.calls ++ made
  asks : ∀ call ∈ made, call.ofService = true → call.request?.isSome
  remotely : (∀ call ∈ made, call.Sendable) → ∀ requests,
    action.run (run.overLink requests) =
      (result, after.overLink (requests ++ made.filterMap Call.request?))

/-- An action that comes to the same over either link. -/
def Transparent (action : Action (Run η) ε α) : Prop :=
  ∀ run : Run η, run.Carriable → ∃ result after made, Relays action run result after made

/-- What an action comes to that does not call the service, and looks at neither link nor requests. -/
structure Stays (action : Action (Run η) ε α) (run : Run η) (result : Except ε α) (after : Run η)
    (made : List Call) : Prop where
  directly : action.run run = (result, after)
  link : after.link = run.link
  service : after.service = run.service
  calls : after.calls = run.calls ++ made
  elsewhere : ∀ call ∈ made, call.ofService = false
  remotely : ∀ requests, action.run (run.overLink requests) = (result, after.overLink requests)

theorem Stays.relays {action : Action (Run η) ε α} {run after : Run η} {result : Except ε α}
    {made : List Call} (stays : Stays action run result after made) (ready : run.Carriable) :
    Relays action run result after made where
  directly := stays.directly
  ready := ⟨stays.link.trans ready.direct, stays.service ▸ ready.service⟩
  calls := stays.calls
  asks call member asked := by
    rw [stays.elsewhere call member] at asked
    cases asked
  remotely _ requests := by
    have silent : made.filterMap Call.request? = [] := List.filterMap_eq_nil_iff.mpr
      fun call member => Call.request?_of_local (stays.elsewhere call member)
    rw [silent, List.append_nil]
    exact stays.remotely requests

namespace Relays

variable {run middle after : Run η} {made more : List Call} {action : Action (Run η) ε α}

/-- An action that does what another does, and ends in a way that depends on how that one ended. -/
theorem via {other : Action (Run η) ε' β} {ended : Except ε' β} {result : Except ε α}
    (relays : Relays other run ended after made)
    (does : ∀ run after, other.run run = (ended, after) → action.run run = (result, after)) :
    Relays action run result after made where
  directly := does _ _ relays.directly
  ready := relays.ready
  calls := relays.calls
  asks := relays.asks
  remotely fits requests := does _ _ (relays.remotely fits requests)

/-- An action that does what two others do one after the other. -/
theorem both {ε₁ ε₂ β₁ β₂ : Type} {first : Action (Run η) ε₁ β₁} {second : Action (Run η) ε₂ β₂}
    {ended : Except ε₁ β₁} {endedToo : Except ε₂ β₂} {result : Except ε α}
    (relays : Relays first run ended middle made)
    (relaysToo : Relays second middle endedToo after more)
    (does : ∀ run middle after, first.run run = (ended, middle) →
      second.run middle = (endedToo, after) → action.run run = (result, after)) :
    Relays action run result after (made ++ more) where
  directly := does _ _ _ relays.directly relaysToo.directly
  ready := relaysToo.ready
  calls := by rw [relaysToo.calls, relays.calls, List.append_assoc]
  asks call member := (List.mem_append.mp member).elim (relays.asks call) (relaysToo.asks call)
  remotely fits requests := by
    obtain ⟨fitsFirst, fitsSecond⟩ := List.forall_mem_append.mp fits
    rw [List.filterMap_append, ← List.append_assoc]
    exact does _ _ _ (relays.remotely fitsFirst requests) (relaysToo.remotely fitsSecond _)

end Relays

namespace Transparent

theorem of_stays {action : Action (Run η) ε α}
    (stays : ∀ run, ∃ result after made, Stays action run result after made) :
    Transparent action := by
  intro run ready
  obtain ⟨result, after, made, stays⟩ := stays run
  exact ⟨result, after, made, stays.relays ready⟩

/-- An action that ends in a way that does not depend on the run, and leaves it. -/
theorem of_idle {action : Action (Run η) ε α} {result : Except ε α}
    (idle : ∀ run, action.run run = (result, run)) : Transparent action :=
  of_stays fun run => ⟨result, run, [], idle run, rfl, rfl, (List.append_nil _).symm, nofun,
    fun _ => idle _⟩

theorem pure (value : α) : Transparent (pure value : Action (Run η) ε α) := of_idle fun _ => rfl

theorem fail (e : ε) : Transparent (.fail e : Action (Run η) ε α) := of_idle fun _ => rfl

theorem bind {first : Action (Run η) ε β} {next : β → Action (Run η) ε α}
    (transparent : Transparent first) (transparentNext : ∀ value, Transparent (next value)) :
    Transparent (first >>= next) := by
  intro run ready
  obtain ⟨result, middle, made, relays⟩ := transparent run ready
  cases result with
  | error e => exact ⟨.error e, middle, made, relays.via fun _ _ ran => Action.run_bind_error ran⟩
  | ok value =>
    obtain ⟨result, after, more, relaysNext⟩ := transparentNext value middle relays.ready
    exact ⟨result, after, made ++ more, relays.both relaysNext fun _ _ _ ran ranNext =>
      (Action.run_bind_ok ran).trans ranNext⟩

theorem mapError {action : Action (Run η) ε α} {convert : ε → ε'}
    (transparent : Transparent action) : Transparent (.mapError convert action) := by
  intro run ready
  obtain ⟨result, after, made, relays⟩ := transparent run ready
  exact ⟨result.mapError convert, after, made, relays.via fun run after ran => by
    rw [Action.run_mapError, ran]⟩

theorem cleaningUp {action : Action (Run η) (Halt ε) α} {cleanup : Action (Run η) ε' Unit}
    (transparent : Transparent action) (transparentCleanup : Transparent cleanup) :
    Transparent (action.cleaningUp cleanup) := by
  intro run ready
  obtain ⟨result, middle, made, relays⟩ := transparent run ready
  cases result with
  | ok value =>
    exact ⟨.ok value, middle, made, relays.via fun _ _ ran => by
      simp only [Action.cleaningUp, ran]⟩
  | error halt =>
    cases halt with
    | waiting =>
      exact ⟨.error .waiting, middle, made, relays.via fun _ _ ran => by
        simp only [Action.cleaningUp, ran]⟩
    | failed e =>
      obtain ⟨result, after, more, relaysCleanup⟩ := transparentCleanup middle relays.ready
      exact ⟨.error (.failed e), after, made ++ more, relays.both relaysCleanup
        fun _ _ _ ran cleaned => by simp only [Action.cleaningUp, ran, cleaned]⟩

end Transparent

end Transparent

/-! ### Calls of the service -/

namespace Service.Client

variable {η α : Type} {run : Run η}

/-- A call that the service answers alike over either link. -/
private theorem byLink_relays {direct remote : Action (Run η) Status α} {call : Call}
    {request : Request} {answer : Except Status α} {service : Service} (ready : run.Carriable)
    (fits : service.Fits) (directly : direct.run run = (answer, run.answered call service))
    (asks : call.request? = some request)
    (remotely : request.Fits → ∀ requests, remote.run (run.overLink requests) =
      (answer, (run.answered call service).overLink (requests ++ [request]))) :
    Relays (byLink direct remote) run (reported answer) (run.answered call service) [call] where
  directly := by
    simp only [byLink, Action.run_mapError, ready.direct, directly]
  ready := ⟨ready.direct, fits⟩
  calls := rfl
  asks := by simp [asks]
  remotely carried requests := by
    have sent : request.Fits := carried call (List.mem_singleton_self _) request asks
    have asked : [call].filterMap Call.request? = [request] := by simp [asks]
    rw [asked]
    simp only [byLink, Action.run_mapError, Run.overLink_link, remotely sent requests]

theorem configuration_transparent : Transparent (configuration (η := η)) := by
  intro run ready
  refine ⟨_, _, _, byLink_relays ready ready.service rfl rfl fun sent requests => ?_⟩
  exact unary_run (carried_ok (Kind.faithful .configurationRequest) sent) rfl
    fun reply answered => carried_ok (Kind.faithful .configuration) (ready.service.reply answered)

/-- A call that is answered by an empty reply. -/
private theorem acknowledged_run {ρ π : Type} [Message ρ] [Message π] {receive : ρ → Request}
    {message : ρ} {serve : ρ → Action (Run η) Status Unit} {reply : π} {run after : Run η}
    {answer : Except Status Unit} (sent : carried message = .ok message)
    (replied : carried reply = .ok reply)
    (served : (serve message).run (run.receive (receive message)) = (answer, after)) :
    (do let _ ← unary receive message fun message => do
          serve message
          return reply : Action (Run η) Status Unit).run run = (answer, after) := by
  have replies : (do serve message; return reply : Action (Run η) Status π).run
      (run.receive (receive message)) = (answer.map fun _ => reply, after) := by
    rw [Action.run_bind, served]
    cases answer <;> rfl
  have answered : ∀ other, (answer.map fun _ => reply) = .ok other → carried other = .ok other := by
    cases answer with
    | ok _ => rintro _ ⟨⟩; exact replied
    | error status => nofun
  rw [Action.run_bind, unary_run sent replies answered]
  cases answer <;> rfl

theorem activate_transparent (group : Bytes) (localOnly : Bool) :
    Transparent (activate (η := η) group localOnly) := by
  intro run ready
  have asks : (Call.activate (Key.encode group) localOnly).request? =
      some (.activate { group, localOnly }) := by
    rw [Call.request?, Key.decode_encode]
    rfl
  refine ⟨_, _, _, byLink_relays ready (ready.service.activate group) rfl asks fun sent _ => ?_⟩
  have replied : Message.Fits ({} : ActivateGroupReply) := by decide
  exact acknowledged_run (carried_ok (Kind.faithful .activateGroupRequest) sent)
    (carried_ok (Kind.faithful .activateGroupReply) replied) rfl

theorem deactivate_transparent (group : Bytes) :
    Transparent (deactivate (η := η) group) := by
  intro run ready
  have asks : (Call.deactivate (Key.encode group)).request? = some (.deactivate { group }) := by
    rw [Call.request?, Key.decode_encode]
    rfl
  refine ⟨_, _, _, byLink_relays ready (ready.service.deactivate group) rfl asks fun sent _ => ?_⟩
  have replied : Message.Fits ({} : DeactivateGroupReply) := by decide
  exact acknowledged_run (carried_ok (Kind.faithful .deactivateGroupRequest) sent)
    (carried_ok (Kind.faithful .deactivateGroupReply) replied) rfl

theorem listMetadata_transparent (group : Bytes) :
    Transparent (listMetadata (η := η) group) := by
  intro run ready
  have asks : (Call.listMetadata (Key.encode group)).request? =
      some (.listMetadata (Call.wholeLog group)) := by
    rw [Call.request?, Key.decode_encode]
    rfl
  refine ⟨_, _, _, byLink_relays ready ready.service rfl asks fun sent _ => ?_⟩
  refine listing_run (Kind.faithful .metadataEvent) sent rfl fun listing listed => ?_
  rw [(listMetadata_eq_ok_iff.mp listed).2.2]
  exact Fits.listed (ready.service.logsOf group).metadata

theorem listMessages_transparent (group : Bytes) :
    Transparent (listMessages (η := η) group) := by
  intro run ready
  have asks : (Call.listMessages (Key.encode group)).request? =
      some (.listMessages (Call.wholeLog group)) := by
    rw [Call.request?, Key.decode_encode]
    rfl
  refine ⟨_, _, _, byLink_relays ready ready.service rfl asks fun sent _ => ?_⟩
  refine listing_run (Kind.faithful .messageEvent) sent rfl fun listing listed => ?_
  rw [(listMessages_eq_ok_iff.mp listed).2.2]
  exact Fits.listed (ready.service.logsOf group).messages

end Service.Client

/-! ### Drains and replays -/

namespace Replay

variable {η α : Type} {handler : Handler η}

theorem handOver_transparent {recorded : Bool} {call : Call}
    (elsewhere : call.ofService = false) (apply : Action η Projection.Error Unit) :
    Transparent (handOver recorded call apply) := .of_stays fun run => by
  have ran (run : Run η) : (handOver recorded call apply).run run =
      ((apply.run run.site).1, run.handed
        (if recorded && (apply.run run.site).1.isOk then [call] else []) (apply.run run.site).2) :=
    hand_over_run (Prod.eta (apply.run run.site)).symm
  refine ⟨_, _, _, ran run, rfl, rfl, rfl, fun other member => ?_, fun requests => ran _⟩
  split at member
  · exact List.mem_singleton.mp member ▸ elsewhere
  · cases member

theorem applyMetadata_transparent (event : MetadataEvent) :
    Transparent (applyMetadata handler event) := handOver_transparent rfl _

theorem applyMessage_transparent (group : String) (event : MessageEvent) (message : AppMessage) :
    Transparent (applyMessage handler group event message) := handOver_transparent rfl _

theorem applyEntry_transparent (group : String) (event : MessageEvent) :
    Transparent (applyEntry handler group event) := by
  unfold applyEntry
  cases Message.decode (α := AppMessage) event.message with
  | error e => exact .fail _
  | ok message => exact .mapError (applyMessage_transparent group event message)

theorem checkToken_transparent : Transparent (checkToken (η := η)) := .of_stays fun run => by
  have ran (requests : List Request) : (checkToken (η := η)).run (run.overLink requests) =
      if run.token.cancelled then (.error (.failed (.listing .cancelled)), run.overLink requests)
      else (.ok (), run.overLink requests) := rfl
  cases seen : run.token.cancelled with
  | true =>
    rw [seen] at ran
    exact ⟨_, run, [], if_pos seen, rfl, rfl, (List.append_nil _).symm, nofun, ran⟩
  | false =>
    rw [seen] at ran
    exact ⟨_, run, [], if_neg (by simp [seen]), rfl, rfl, (List.append_nil _).symm,
      nofun, ran⟩

theorem atEnd_transparent (ending : Ending) : Transparent (atEnd (η := η) ending) := by
  cases ending with
  | complete => exact .pure ()
  | fails status => exact .fail _
  | hangs => exact .fail _

theorem drainEntries_transparent {apply : α → Action (Run η) DrainError Unit}
    (transparent : ∀ entry, Transparent (apply entry)) (ending : Ending) (entries : List α) :
    Transparent (drainEntries apply ending entries) := by
  induction entries with
  | nil =>
    exact .bind checkToken_transparent fun _ => .bind (atEnd_transparent ending) fun _ => .pure _
  | cons entry rest ih =>
    exact .bind checkToken_transparent fun _ => .bind (.mapError (transparent entry)) fun _ =>
      .bind ih fun _ => .pure _

theorem listed_transparent :
    Transparent (.modify fun run => { run with token := run.token.listed } :
      Action (Run η) (Halt DrainError) Unit) :=
  .of_stays fun _ => ⟨_, _, [], rfl, rfl, rfl, (List.append_nil _).symm, nofun, fun _ => rfl⟩

theorem drain_transparent {openListing : Action (Run η) Service.Error (Listing α)}
    {apply : α → Action (Run η) DrainError Unit} (opens : Transparent openListing)
    (transparent : ∀ entry, Transparent (apply entry)) : Transparent (drain openListing apply) :=
  .bind (.mapError opens) fun listing => .bind listed_transparent fun _ =>
    drainEntries_transparent transparent listing.ending listing.entries

theorem drainMetadata_transparent (handler : Handler η) (group : Bytes) :
    Transparent (drainMetadata handler group) :=
  drain_transparent (Client.listMetadata_transparent group) fun event =>
    .mapError (applyMetadata_transparent event)

theorem drainMessages_transparent (handler : Handler η) (group : Bytes) :
    Transparent (drainMessages handler group) :=
  drain_transparent (Client.listMessages_transparent group) (applyEntry_transparent _)

theorem activate_transparent (group : Bytes) : Transparent (activate (η := η) group) :=
  .mapError (Client.activate_transparent group true)

theorem deactivate_transparent (group : Bytes) : Transparent (deactivate (η := η) group) :=
  .mapError (Client.deactivate_transparent group)

theorem release_transparent (group : Bytes) : Transparent (release (η := η) group) := by
  intro run ready
  obtain ⟨result, after, made, relays⟩ := Client.deactivate_transparent group run ready
  exact ⟨.ok (), after, made, relays.via fun _ _ ran => by simp only [release, ran]⟩

theorem bothLogs_transparent (group : Bytes) : Transparent (bothLogs handler group) :=
  .bind (.mapError (drainMetadata_transparent handler group)) fun _ =>
    .bind (.mapError (drainMessages_transparent handler group)) fun _ => .pure _

theorem conversation_transparent (home : Bytes) (next : Store.Conversation) :
    Transparent (conversation handler home next) := by
  unfold conversation
  cases Key.decode next.key with
  | error e => exact .fail _
  | ok group =>
    dsimp only
    split
    · exact .bind (.mapError (drainMessages_transparent handler group)) fun _ => .pure _
    · exact .bind (.mapError (activate_transparent group)) fun _ =>
        .bind (.cleaningUp (bothLogs_transparent group) (release_transparent group)) fun _ =>
          .bind (.mapError (deactivate_transparent group)) fun _ => .pure _

theorem conversations_transparent (home : Bytes) (listed : List Store.Conversation)
    (summary : Summary) : Transparent (conversations handler home summary listed) := by
  induction listed generalizing summary with
  | nil => exact .pure _
  | cons next rest ih => exact .bind (conversation_transparent home next) fun _ => ih _

variable [Store.LocalStore η]

theorem perform_transparent (op : Store.Op α) :
    Transparent (Store.perform op : Action (Run η) Store.Error α) := .of_stays fun run => by
  have ran (run : Run η) : (Store.perform op : Action (Run η) Store.Error α).run run =
      ((Store.LocalStore.perform op run.site).1, run.stored
        (if Store.LocalStore.recorded run.site then (Run.callOf op).toList else [])
        (Store.LocalStore.perform op run.site).2) :=
    store_run (Prod.eta (Store.LocalStore.perform op run.site)).symm
  refine ⟨_, _, _, ran run, rfl, rfl, rfl, fun call member => ?_, fun requests => ran _⟩
  split at member
  · cases op <;> simp_all [Run.callOf, Call.ofService]
  · cases member

/-- A replay comes to the same over either link. -/
theorem replayWith_transparent (handlerFor : Bytes → Handler η) :
    Transparent (replayWith handlerFor) :=
  .bind (.mapError Client.configuration_transparent) fun configuration =>
    .bind (.mapError (perform_transparent _)) fun _ =>
      .bind (.mapError (drainMetadata_transparent _ configuration.homeKey)) fun _ =>
        .bind (.mapError (perform_transparent _)) fun listed =>
          conversations_transparent configuration.homeKey listed _

end Replay

end GroupReplay
