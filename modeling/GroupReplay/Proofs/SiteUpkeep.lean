import GroupReplay.Proofs.KeyText
import GroupReplay.Proofs.TaskSteps

/-!
What a replay keeps on its local side.  Calls of the service do not touch it, over whichever link they
are made; all that does is the creation of the account, the listing of conversations and the handler.
So whatever these keep a replay keeps, however it ends, and with conversations that are listed under
keys that can be read it does not fail for a key.
-/

namespace GroupReplay

open Wire Service Projection

/-- A text is the one that a key is written as. -/
def Key.ReadsBack (text : String) : Prop :=
  ∃ key, Key.decode text = .ok key ∧ Key.encode key = text

theorem Key.readsBack_encode (key : Bytes) : Key.ReadsBack (Key.encode key) :=
  ⟨key, Key.decode_encode key, rfl⟩

namespace Replay

variable {η ε ε' α β : Type} {holds : η → Prop} {returns : α → Prop} {fails : ε → Prop}

/-- A property of the local side is kept by an action, however it ends; and it ends in a value or in
an error of certain ones. -/
structure Upholds (holds : η → Prop) (returns : α → Prop) (fails : ε → Prop)
    (action : Action (Run η) ε α) : Prop where
  site : ∀ run, holds run.site → holds (action.run run).2.site
  value : ∀ run value, holds run.site → (action.run run).1 = .ok value → returns value
  error : ∀ run e, holds run.site → (action.run run).1 = .error e → fails e

/-- An action that keeps a property of the local side, in whatever it ends. -/
abbrev Keeping (holds : η → Prop) (action : Action (Run η) ε α) : Prop :=
  Upholds holds (fun _ => True) (fun _ => True) action

namespace Upholds

theorem pure {value : α} (returned : returns value) :
    Upholds holds returns fails (pure value : Action (Run η) ε α) where
  site _ kept := kept
  value _ _ _ same := by cases same; exact returned
  error _ _ _ same := by cases same

theorem fail {e : ε} (failed : fails e) :
    Upholds holds returns fails (.fail e : Action (Run η) ε α) where
  site _ kept := kept
  value _ _ _ same := by cases same
  error _ _ _ same := by cases same; exact failed

theorem ofExcept {result : Except ε α} :
    Keeping holds (.ofExcept result : Action (Run η) ε α) :=
  ⟨fun _ kept => kept, fun _ _ _ _ => trivial, fun _ _ _ _ => trivial⟩

/-- A change of the run that leaves the local side. -/
theorem modify {change : Run η → Run η} (leaves : ∀ run, (change run).site = run.site) :
    Keeping holds (.modify change : Action (Run η) ε Unit) where
  site run kept := by rw [Action.run_modify, leaves]; exact kept
  value _ _ _ _ := trivial
  error _ _ _ _ := trivial

theorem bind {first : Action (Run η) ε β} {next : β → Action (Run η) ε α} {middle : β → Prop}
    (upheld : Upholds holds middle fails first)
    (upheldNext : ∀ value, middle value → Upholds holds returns fails (next value)) :
    Upholds holds returns fails (first >>= next) := by
  have steps (run : Run η) (kept : holds run.site) :
      holds ((first >>= next).run run).2.site ∧
        (∀ value, ((first >>= next).run run).1 = .ok value → returns value) ∧
        ∀ e, ((first >>= next).run run).1 = .error e → fails e := by
    have site := upheld.site run kept
    have value := upheld.value run
    have error := upheld.error run
    rw [Action.run_bind]
    cases ran : first.run run with
    | mk result after =>
      rw [ran] at site value error
      cases result with
      | ok got =>
        have more := upheldNext got (value got kept rfl)
        exact ⟨more.site after site, fun _ => more.value after _ site,
          fun _ => more.error after _ site⟩
      | error e =>
        refine ⟨site, nofun, ?_⟩
        rintro _ ⟨⟩
        exact error e kept rfl
  exact ⟨fun run kept => (steps run kept).1, fun run _ kept => (steps run kept).2.1 _,
    fun run _ kept => (steps run kept).2.2 _⟩

theorem mapError {action : Action (Run η) ε α} {convert : ε → ε'} {failsToo : ε' → Prop}
    (upheld : Upholds holds returns fails action)
    (converted : ∀ e, fails e → failsToo (convert e)) :
    Upholds holds returns failsToo (.mapError convert action) := by
  have ran (run : Run η) := Action.run_mapError convert action run
  refine ⟨fun run kept => ?_, fun run value kept ended => ?_, fun run e kept ended => ?_⟩
  · rw [ran]
    exact upheld.site run kept
  · rw [ran] at ended
    exact upheld.value run value kept (Action.mapError_eq_ok_iff.mp ended)
  · rw [ran] at ended
    cases result : (action.run run).1 with
    | ok value => rw [result] at ended; cases ended
    | error cause =>
      rw [result] at ended
      cases ended
      exact converted cause (upheld.error run cause kept result)

/-- A cleanup that keeps the local side changes nothing about how the action ends. -/
theorem cleaningUp {fails : Halt ε → Prop} {action : Action (Run η) (Halt ε) α}
    {cleanup : Action (Run η) ε' Unit} (upheld : Upholds holds returns fails action)
    (cleaned : Keeping holds cleanup) : Upholds holds returns fails (action.cleaningUp cleanup) := by
  have same (run : Run η) : ((action.cleaningUp cleanup).run run).1 = (action.run run).1 := by
    simp only [Action.cleaningUp]
    split <;> simp_all
  refine ⟨fun run kept => ?_, fun run value kept ended => ?_, fun run e kept ended => ?_⟩
  · have site := upheld.site run kept
    simp only [Action.cleaningUp]
    split
    · next after ran =>
      rw [ran] at site
      exact cleaned.site after site
    · exact site
  · exact upheld.value run value kept (same run ▸ ended)
  · exact upheld.error run e kept (same run ▸ ended)

end Upholds

/-! ### Calls of the service -/

section Calls

theorem atService_keeping {answer : Service → Except ε α × Service} :
    Keeping holds (Run.atService answer : Action (Run η) ε α) :=
  ⟨fun _ kept => kept, fun _ _ _ _ => trivial, fun _ _ _ _ => trivial⟩

/-- What the service is asked it answers away from the local side. -/
theorem served_keeping {call : Call} {answer : Service → Except Status α × Service} :
    Keeping holds (do
      .modify (·.observe call)
      Run.atService answer : Action (Run η) Status α) :=
  .bind (.modify fun _ => rfl) fun _ _ => atService_keeping

theorem unary_keeping {ρ π : Type} [Message ρ] [Message π] {receive : ρ → Request} {message : ρ}
    {serve : ρ → Action (Run η) Status π} (served : ∀ message, Keeping holds (serve message)) :
    Keeping holds (Client.unary receive message serve) :=
  .bind .ofExcept fun _ _ => .bind (.modify fun _ => rfl) fun _ _ => .bind (served _) fun _ _ =>
    .ofExcept

theorem listing_keeping [Message α] {receive : LogListRequest → Request} {group : Bytes}
    {serve : Bytes → Action (Run η) Status (Listing α)}
    (served : ∀ group, Keeping holds (serve group)) :
    Keeping holds (Client.listing receive group serve) :=
  .bind .ofExcept fun _ _ => .bind (.modify fun _ => rfl) fun _ _ => .bind (served _) fun _ _ =>
    .pure trivial

theorem byLink_keeping {direct remote : Action (Run η) Status α} (directly : Keeping holds direct)
    (remotely : Keeping holds remote) : Keeping holds (Client.byLink direct remote) := by
  refine Upholds.mapError ⟨fun run kept => ?_, fun _ _ _ _ => trivial, fun _ _ _ _ => trivial⟩
    fun _ _ => trivial
  dsimp only
  split
  · exact directly.site run kept
  · exact remotely.site run kept

theorem configuration_keeping : Keeping holds (Client.configuration (η := η)) :=
  byLink_keeping served_keeping (unary_keeping fun _ => served_keeping)

theorem activate_keeping (group : Bytes) (localOnly : Bool) :
    Keeping holds (Client.activate (η := η) group localOnly) :=
  byLink_keeping served_keeping (.bind (unary_keeping fun _ => .bind served_keeping fun _ _ =>
    .pure trivial) fun _ _ => .pure trivial)

theorem deactivate_keeping (group : Bytes) : Keeping holds (Client.deactivate (η := η) group) :=
  byLink_keeping served_keeping (.bind (unary_keeping fun _ => .bind served_keeping fun _ _ =>
    .pure trivial) fun _ _ => .pure trivial)

theorem listMetadata_keeping (group : Bytes) : Keeping holds (Client.listMetadata (η := η) group) :=
  byLink_keeping served_keeping (listing_keeping fun _ => served_keeping)

theorem listMessages_keeping (group : Bytes) : Keeping holds (Client.listMessages (η := η) group) :=
  byLink_keeping served_keeping (listing_keeping fun _ => served_keeping)

end Calls

/-! ### The local side and drains -/

section Drains

/-- An action on the local side keeps a property of it, however it ends. -/
def SiteKeeps (holds : η → Prop) (action : Action η ε α) : Prop :=
  ∀ site, holds site → holds (action.run site).2

theorem handOver_keeping {recorded : Bool} {call : Call} {apply : Action η Projection.Error Unit}
    (kept : SiteKeeps holds apply) : Keeping holds (handOver recorded call apply) := by
  refine ⟨fun run before => ?_, fun _ _ _ _ => trivial, fun _ _ _ _ => trivial⟩
  rw [hand_over_run (Prod.eta _).symm]
  exact kept run.site before

/-- A handler keeps a property of the local side, whatever it is handed. -/
structure HandlerKeeps (holds : η → Prop) (handler : Handler η) : Prop where
  metadata : ∀ event, SiteKeeps holds (handler.applyMetadata event)
  messages : ∀ group event message,
    SiteKeeps holds (handler.applyMessage (Key.encode group) event message)

variable {handler : Handler η}

theorem applyEntry_keeping (kept : HandlerKeeps holds handler) (group : Bytes)
    (event : MessageEvent) : Keeping holds (applyEntry handler (Key.encode group) event) := by
  unfold applyEntry
  cases Message.decode (α := AppMessage) event.message with
  | error e => exact .fail trivial
  | ok message =>
    exact .mapError (handOver_keeping (kept.messages group event message)) fun _ _ => trivial

theorem checkToken_keeping : Keeping holds (checkToken (η := η)) := by
  refine ⟨fun run kept => ?_, fun _ _ _ _ => trivial, fun _ _ _ _ => trivial⟩
  simp only [checkToken]
  split <;> exact kept

theorem atEnd_keeping (ending : Ending) : Keeping holds (atEnd (η := η) ending) := by
  cases ending with
  | complete => exact .pure trivial
  | fails status => exact .fail trivial
  | hangs => exact .fail trivial

theorem drainEntries_keeping {apply : α → Action (Run η) DrainError Unit}
    (kept : ∀ entry, Keeping holds (apply entry)) (ending : Ending) (entries : List α) :
    Keeping holds (drainEntries apply ending entries) := by
  induction entries with
  | nil =>
    exact .bind checkToken_keeping fun _ _ => .bind (atEnd_keeping ending) fun _ _ => .pure trivial
  | cons entry rest ih =>
    exact .bind checkToken_keeping fun _ _ =>
      .bind (.mapError (kept entry) fun _ _ => trivial) fun _ _ =>
        .bind ih fun _ _ => .pure trivial

theorem drain_keeping {openListing : Action (Run η) Service.Error (Listing α)}
    {apply : α → Action (Run η) DrainError Unit} (opened : Keeping holds openListing)
    (kept : ∀ entry, Keeping holds (apply entry)) : Keeping holds (drain openListing apply) :=
  .bind (.mapError opened fun _ _ => trivial) fun listing _ =>
    .bind (.modify fun _ => rfl) fun _ _ => drainEntries_keeping kept listing.ending listing.entries

end Drains

/-! ### A replay -/

/-- How a replay may end early that can read the keys of all conversations that are listed: not for a
key, and for the listing only with certain errors. -/
def Spares (unlisted : Store.Error → Prop) : Halt Error → Prop
  | .failed (.storeRead e) => unlisted e
  | .failed (.deserialization _ (.key _)) => False
  | _ => True

section Replays

variable {handler : Handler η} {unlisted : Store.Error → Prop}

theorem metadata_upholds (kept : HandlerKeeps holds handler) (group : Bytes) :
    Upholds holds (fun _ => True) (Spares unlisted) (metadata handler group) := by
  refine .mapError (drain_keeping (listMetadata_keeping group) fun event => ?_) fun halt _ => ?_
  · exact .mapError (handOver_keeping (kept.metadata event)) fun _ _ => trivial
  · cases halt <;> trivial

theorem messages_upholds (kept : HandlerKeeps holds handler) (group : Bytes) :
    Upholds holds (fun _ => True) (Spares unlisted) (messages handler group) := by
  refine .mapError (drain_keeping (listMessages_keeping group) (applyEntry_keeping kept group))
    fun halt _ => ?_
  cases halt with
  | waiting => trivial
  | failed e => cases e <;> trivial

theorem bothLogs_upholds (kept : HandlerKeeps holds handler) (group : Bytes) :
    Upholds holds (fun _ => True) (Spares unlisted) (bothLogs handler group) :=
  .bind (metadata_upholds kept group) fun _ _ => .bind (messages_upholds kept group) fun _ _ =>
    .pure trivial

theorem release_keeping (group : Bytes) : Keeping holds (release (η := η) group) :=
  ⟨fun run kept => (deactivate_keeping group).site run kept, fun _ _ _ _ => trivial,
    fun _ _ _ _ => trivial⟩

theorem activate_upholds (group : Bytes) :
    Upholds holds (fun _ => True) (fun e => Spares unlisted (.failed e)) (activate (η := η) group) :=
  .mapError (activate_keeping group true) fun _ _ => trivial

theorem deactivate_upholds (group : Bytes) :
    Upholds holds (fun _ => True) (fun e => Spares unlisted (.failed e)) (deactivate (η := η) group) :=
  .mapError (deactivate_keeping group) fun _ _ => trivial

theorem conversation_upholds (kept : HandlerKeeps holds handler) (home : Bytes)
    {next : Store.Conversation} (readable : Key.ReadsBack next.key) :
    Upholds holds (fun _ => True) (Spares unlisted) (conversation handler home next) := by
  obtain ⟨group, read, _⟩ := readable
  rw [conversation, read]
  dsimp only
  split
  · exact .bind (messages_upholds kept group) fun _ _ => .pure trivial
  · refine .bind (.mapError (activate_upholds group) fun _ spared => spared) fun _ _ => ?_
    refine .bind ((bothLogs_upholds kept group).cleaningUp (release_keeping group)) fun _ _ => ?_
    exact .bind (.mapError (deactivate_upholds group) fun _ spared => spared) fun _ _ =>
      .pure trivial

theorem conversations_upholds (kept : HandlerKeeps holds handler) (home : Bytes)
    {listed : List Store.Conversation} (readable : ∀ next ∈ listed, Key.ReadsBack next.key)
    (summary : Summary) :
    Upholds holds (fun _ => True) (Spares unlisted) (conversations handler home summary listed) := by
  induction listed generalizing summary with
  | nil => exact .pure trivial
  | cons next rest ih =>
    obtain ⟨here, others⟩ := List.forall_mem_cons.mp readable
    exact .bind (conversation_upholds kept home here) fun _ _ => ih others _

/-- What a store operation does on the local side. -/
theorem perform_upholds [Store.LocalStore η] {α : Type} {op : Store.Op α} {returns : α → Prop}
    {fails : Store.Error → Prop}
    (kept : ∀ site, holds site → holds (Store.LocalStore.perform op site).2)
    (answered : ∀ site answer, holds site →
      (Store.LocalStore.perform op site).1 = .ok answer → returns answer)
    (refused : ∀ site e, holds site → (Store.LocalStore.perform op site).1 = .error e → fails e) :
    Upholds holds returns fails (Store.perform op : Action (Run η) Store.Error α) := by
  have ran (run : Run η) : ∃ calls, (Store.perform op : Action (Run η) Store.Error α).run run =
      ((Store.LocalStore.perform op run.site).1,
        run.stored calls (Store.LocalStore.perform op run.site).2) :=
    ⟨_, store_run (Prod.eta _).symm⟩
  refine ⟨fun run before => ?_, fun run answer before => ?_, fun run e before => ?_⟩ <;>
    obtain ⟨calls, ran⟩ := ran run <;> rw [ran]
  · exact kept run.site before
  · exact answered run.site answer before
  · exact refused run.site e before

/-- A local side that a replay keeps: the creation of the account keeps it, and so do the listing of
conversations, which are listed under keys that can be read, and whatever handlers do. -/
structure ReplayKeeps [Store.LocalStore η] (holds : η → Prop) (unlisted : Store.Error → Prop)
    (handlerFor : Bytes → Handler η) : Prop where
  account : ∀ key site, holds site → holds (Store.LocalStore.perform (.ensureAccount key "") site).2
  listing : ∀ site, holds site → holds (Store.LocalStore.perform .conversations site).2
  listed : ∀ site listed, holds site →
    (Store.LocalStore.perform .conversations site).1 = .ok listed →
      ∀ conversation ∈ listed, Key.ReadsBack conversation.key
  unlisted : ∀ site e, holds site →
    (Store.LocalStore.perform .conversations site).1 = .error e → unlisted e
  handlers : ∀ home, HandlerKeeps holds (handlerFor home)

/-- A replay keeps what all that it does to the local side keeps, and does not end for a key. -/
theorem replayWith_upholds [Store.LocalStore η] {handlerFor : Bytes → Handler η}
    (kept : ReplayKeeps holds unlisted handlerFor) :
    Upholds holds (fun _ => True) (Spares unlisted) (replayWith handlerFor) := by
  refine .bind (.mapError configuration_keeping fun _ _ => trivial) fun configuration _ => ?_
  have handlers := kept.handlers configuration.homeKey
  have account := perform_upholds (kept.account (Key.encode configuration.homeKey))
    (fun _ _ _ _ => trivial) fun _ _ _ _ => trivial
  refine .bind (.mapError account fun _ _ => trivial) fun _ _ => ?_
  refine .bind (metadata_upholds handlers configuration.homeKey) fun _ _ => ?_
  have listing := perform_upholds kept.listing kept.listed kept.unlisted
  exact .bind (.mapError listing fun e failed => failed) fun _ readable =>
    conversations_upholds handlers configuration.homeKey readable _

end Replays

end Replay

end GroupReplay
