import GroupReplay.Proofs.RemoteLink
import GroupReplay.Proofs.RepeatedReplay

/-!
Sessions: any sequence of client calls, of activations and releases, of drains and of replays, each
under a token of its own, while the service may be set up anew between them.  A session over a remote
link reports what the same session over a direct link reports, step by step; and over the remote link
the service receives one request for every call that it is asked for, in order.
-/

namespace GroupReplay.Session

open Wire Service Projection Replay

/-- What was read of a listing, and the listing as its reader met it. -/
structure Extract (α : Type) where
  listing : Listing α
  items : List (Except Service.Error α)

/-- Reads a listing under a token, to its end or so many items of it. -/
def extract {α : Type} (token : Token) (most : Option Nat) (listing : Listing α) : Extract α where
  listing := listing
  items :=
    match most with
    | none => listing.itemsUnder token
    | some count => (listing.itemsUnder token).take count

/-- A step of a session with a local side of type `η`. -/
inductive Step (η : Type) where
  /-- The service is set up anew. -/
  | arrange (change : Service → Service)
  | configuration
  | activate (group : Bytes) (localOnly : Bool)
  | deactivate (group : Bytes)
  | listMetadata (token : Token) (most : Option Nat) (group : Bytes)
  | listMessages (token : Token) (most : Option Nat) (group : Bytes)
  /-- The group is activated as a replay does. -/
  | prepare (group : Bytes)
  /-- The group is deactivated as a replay does. -/
  | finish (group : Bytes)
  /-- The group is released as a replay does that failed. -/
  | release (group : Bytes)
  | drainMetadata (token : Token) (handler : Handler η) (group : Bytes)
  | drainMessages (token : Token) (handler : Handler η) (group : Bytes)
  | replay (token : Token) (handlerFor : Bytes → Handler η)

/-- How a step ended. -/
inductive Outcome where
  | arranged
  | configured (result : Except Service.Error Configuration)
  | called (result : Except Service.Error Unit)
  | metadata (result : Except Service.Error (Extract MetadataEvent))
  | messages (result : Except Service.Error (Extract MessageEvent))
  | group (result : Except Replay.Error Unit)
  | drained (result : Except (Halt DrainError) Nat)
  | replayed (result : Except (Halt Replay.Error) Summary)

variable {η : Type}

/-- An action whose ending is an outcome. -/
def settled {ε α : Type} (outcome : Except ε α → Outcome) (action : Action (Run η) ε α) :
    Action (Run η) Empty Outcome := ⟨fun run =>
  match action.run run with
  | (result, run) => (.ok (outcome result), run)⟩

/-- An action under a token of its own. -/
def under {ε α : Type} (token : Token) (action : Action (Run η) ε α) : Action (Run η) ε α := do
  .modify fun run => { run with token }
  action

/-- Makes a step. -/
def Step.perform [Store.LocalStore η] : Step η → Action (Run η) Empty Outcome
  | arrange change => do
    .modify fun run => { run with service := change run.service }
    return .arranged
  | configuration => settled .configured Client.configuration
  | activate group localOnly => settled .called (Client.activate group localOnly)
  | deactivate group => settled .called (Client.deactivate group)
  | listMetadata token most group =>
    settled (fun listed => .metadata (listed.map (extract token most))) (Client.listMetadata group)
  | listMessages token most group =>
    settled (fun listed => .messages (listed.map (extract token most))) (Client.listMessages group)
  | prepare group => settled .group (Replay.activate group)
  | finish group => settled .group (Replay.deactivate group)
  | release group => settled .group (Replay.release group)
  | drainMetadata token handler group =>
    settled .drained (under token (Replay.drainMetadata handler group))
  | drainMessages token handler group =>
    settled .drained (under token (Replay.drainMessages handler group))
  | replay token handlerFor => settled .replayed (under token (replayWith handlerFor))

/-- What is seen of a step: how it ended, the calls that it made and the requests that reached the
service because of it, and what it left of the service and on the local side. -/
structure Report (η : Type) where
  outcome : Outcome
  calls : List Call
  requests : List Request
  service : Service
  site : η

/-- What is seen of the steps of a session. -/
def reports [Store.LocalStore η] : List (Step η) → Run η → List (Report η)
  | [], _ => []
  | step :: rest, run =>
    match step.perform.run run with
    | (.error e, _) => nomatch e
    | (.ok outcome, after) =>
      { outcome
        calls := after.calls.drop run.calls.length
        requests := after.requests.drop run.requests.length
        service := after.service
        site := after.site } :: reports rest after

/-- A step over a remote link shows what it shows over a direct one, and the service received one
request for each of its calls, in order. -/
structure Report.Relayed (remote direct : Report η) : Prop where
  outcome : remote.outcome = direct.outcome
  calls : remote.calls = direct.calls
  service : remote.service = direct.service
  site : remote.site = direct.site
  requests : List.Forall₂ (fun request call => call.request? = some request) remote.requests
    (direct.calls.filter Call.ofService)

/-- A step that leaves the service such that it can be asked over a connection. -/
def Step.Fits : Step η → Prop
  | arrange change => ∀ service : Service, service.Fits → (change service).Fits
  | _ => True

theorem settled_transparent {ε α : Type} {outcome : Except ε α → Outcome}
    {action : Action (Run η) ε α} (transparent : Transparent action) :
    Transparent (settled outcome action) := by
  intro run ready
  obtain ⟨result, after, made, relays⟩ := transparent run ready
  exact ⟨.ok (outcome result), after, made, relays.via fun _ _ ran => by simp only [settled, ran]⟩

theorem under_transparent {ε α : Type} {token : Token} {action : Action (Run η) ε α}
    (transparent : Transparent action) : Transparent (under token action) :=
  .bind (.of_stays fun _ => ⟨_, _, [], rfl, rfl, rfl, (List.append_nil _).symm, nofun, fun _ => rfl⟩)
    fun _ => transparent

/-- Every step comes to the same over either link. -/
theorem Step.perform_transparent [Store.LocalStore η] {step : Step η} (fits : step.Fits) :
    Transparent step.perform := by
  cases step with
  | arrange change =>
    intro run ready
    exact ⟨.ok .arranged, { run with service := change run.service }, [], rfl,
      ⟨ready.direct, fits run.service ready.service⟩, (List.append_nil _).symm, nofun,
      fun _ requests => by rw [List.filterMap_nil, List.append_nil]; rfl⟩
  | configuration => exact settled_transparent Client.configuration_transparent
  | activate group localOnly =>
    exact settled_transparent (Client.activate_transparent group localOnly)
  | deactivate group => exact settled_transparent (Client.deactivate_transparent group)
  | listMetadata token most group =>
    rw [Step.perform]
    exact settled_transparent (Client.listMetadata_transparent group)
  | listMessages token most group =>
    rw [Step.perform]
    exact settled_transparent (Client.listMessages_transparent group)
  | prepare group => exact settled_transparent (Replay.activate_transparent group)
  | finish group => exact settled_transparent (Replay.deactivate_transparent group)
  | release group => exact settled_transparent (Replay.release_transparent group)
  | drainMetadata token handler group =>
    exact settled_transparent (under_transparent (drainMetadata_transparent handler group))
  | drainMessages token handler group =>
    exact settled_transparent (under_transparent (drainMessages_transparent handler group))
  | replay token handlerFor =>
    exact settled_transparent (under_transparent (replayWith_transparent handlerFor))

/-- The requests of calls answer to those of the calls that are for the service, one by one. -/
theorem requests_of_calls {made : List Call}
    (asks : ∀ call ∈ made, call.ofService = true → call.request?.isSome) :
    List.Forall₂ (fun request call => call.request? = some request)
      (made.filterMap Call.request?) (made.filter Call.ofService) := by
  induction made with
  | nil => exact .nil
  | cons call rest ih =>
    obtain ⟨here, others⟩ := List.forall_mem_cons.mp asks
    cases asked : call.ofService with
    | true =>
      obtain ⟨request, requested⟩ := Option.isSome_iff_exists.mp (here asked)
      rw [List.filterMap_cons_some requested, List.filter_cons_of_pos asked]
      exact .cons requested (ih others)
    | false =>
      rw [List.filterMap_cons_none (Call.request?_of_local asked),
        List.filter_cons_of_neg (by simp [asked])]
      exact ih others

/-- For every service set-up and every sequence of client calls, activations and releases, drains and
replays, under whatever tokens and with whatever handlers and local sides: over a remote link every
step has the result or the error, makes the calls, and leaves the service and the local side, with its
store and its notices, that it does over a direct link; and the service receives the requests for the
calls it is asked for, one by one and in order, a listing always for the group's whole log.  The
messages have to be short enough to be carried: those that the service holds or is given, and the
requests of the calls that are made. -/
theorem remote_session [Store.LocalStore η] {steps : List (Step η)} {run : Run η}
    (ready : run.Carriable) (arranged : ∀ step ∈ steps, step.Fits)
    (sent : ∀ report ∈ reports steps run, ∀ call ∈ report.calls, call.Sendable)
    (requests : List Request) :
    List.Forall₂ Report.Relayed (reports steps (run.overLink requests)) (reports steps run) := by
  induction steps generalizing run requests with
  | nil => exact .nil
  | cons step rest ih =>
    obtain ⟨here, later⟩ := List.forall_mem_cons.mp arranged
    obtain ⟨result, after, made, relays⟩ := step.perform_transparent here run ready
    cases result with
    | error e => cases e
    | ok outcome =>
      have direct := relays.directly
      simp only [reports, direct] at sent ⊢
      obtain ⟨sentHere, sentLater⟩ := List.forall_mem_cons.mp sent
      have calls : after.calls.drop run.calls.length = made := by
        rw [relays.calls, List.drop_left]
      rw [calls] at sentHere ⊢
      rw [relays.remotely sentHere requests]
      refine .cons ⟨rfl, calls, rfl, rfl, ?_⟩ (ih relays.ready later sentLater _)
      rw [Run.overLink_requests, Run.overLink_requests, List.drop_left]
      exact requests_of_calls relays.asks

/-- A session in which a group that is not active is asked for, a drain is cancelled after its first
event, and everything is replayed after another message came. -/
def interrupted : List (Step (Desk Store.AnyStore)) :=
  [.configuration, .listMessages .never none [2], .activate [2] false,
    .listMessages .never (some 1) [2], .finish [2],
    .drainMetadata (.afterApplies 1) (toStore [1]) [1],
    .arrange (Service.pushMessage [2] (titling [2] [12])), .replay .never toStoreSilently]

/-- That session over a remote link, with the requests that reached the service. -/
theorem interrupted_relayed :
    let run := onEmptyStore joinedAtHome
    let remote := reports interrupted (run.overLink [])
    List.Forall₂ Report.Relayed remote (reports interrupted run) ∧
      remote.map (·.requests.map Request.method) =
        [["ServiceGetConfiguration"], ["GroupMessageList"], ["ActivateGroup"], ["GroupMessageList"],
          ["DeactivateGroup"], ["GroupMetadataList"], [],
          ["ServiceGetConfiguration", "GroupMetadataList", "ActivateGroup", "GroupMetadataList",
            "GroupMessageList", "DeactivateGroup"]] := by
  intro run remote
  have ready : run.Carriable := ⟨rfl, by decide +kernel, by decide +kernel⟩
  have arranged : ∀ step ∈ interrupted, step.Fits := by
    intro step member
    cases step with
    | arrange change =>
      obtain rfl : change = Service.pushMessage [2] (titling [2] [12]) := by
        simpa [interrupted] using member
      exact fun _ fits => fits.pushMessage (by decide +kernel) [2]
    | _ => trivial
  exact ⟨remote_session ready arranged (by decide +kernel) [], by decide +kernel⟩

end GroupReplay.Session
