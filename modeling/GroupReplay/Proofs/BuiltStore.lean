import GroupReplay.Proofs.MessageProjection
import GroupReplay.Proofs.RepeatedReplay

/-!
What a replay builds.  The engine with its listings, activations and failures comes, as far as the
store is concerned, to a short program: ensure the account, apply the home group's metadata, list the
conversations, apply the logs of each.  A replay that succeeds leaves exactly what this program
leaves, and one that fails leaves what a first part of it leaves.
-/

namespace GroupReplay

open Wire Service Projection

namespace Replay

/-! ### What is handed over -/

/-- An entry of a group's message log as it is handed over, if it can be decoded. -/
def delivered? (group : Bytes) (event : MessageEvent) : Option Handed :=
  match Message.decode event.message with
  | .error _ => none
  | .ok message => some (.message ⟨Key.encode group, event, message⟩)

/-- The metadata log of a group, as it is handed over. -/
def metadataEntries (service : Service) (group : Bytes) : List Handed :=
  (service.logsOf group).metadata.entries.map .metadata

/-- The message log of a group, as it is handed over. -/
def messageEntries (service : Service) (group : Bytes) : List Handed :=
  (service.logsOf group).messages.entries.filterMap (delivered? group)

/-- What is handed over for a conversation: its metadata entries, unless they are those of the home
group, and its messages. -/
def conversationEntries (service : Service) (conversation : Store.Conversation) : List Handed :=
  match Key.decode conversation.key with
  | .error _ => []
  | .ok group =>
    (if group = service.home then [] else metadataEntries service group) ++
      messageEntries service group

section Program

variable {σ : Type} [Store.LocalStore σ]

/-- Ensures the account of a service and applies what is handed over. -/
def building (service : Service) (handed : List Handed) :
    Action (Desk σ) Projection.Error Unit := do
  let _ ← Desk.perform (.ensureAccount (Key.encode service.home) "")
  Handed.applyAll service.home false handed

/-- The conversations that a store lists once the home group's metadata log was applied. -/
def listedThen (service : Service) (desk : Desk σ) : List Store.Conversation :=
  match (building service (metadataEntries service service.home) >>= fun _ =>
    Desk.perform .conversations).run desk with
  | (.ok listed, _) => listed
  | (.error _, _) => []

/-- All that is handed over for a service in a replay. -/
def handedOver (service : Service) (desk : Desk σ) : List Handed :=
  metadataEntries service service.home ++
    (listedThen service desk).flatMap (conversationEntries service)

end Program

/-- What a task hands over. -/
def Task.handed? : Task → Option Handed
  | applyMetadata _ event => some (.metadata event)
  | applyMessage group event => delivered? group event
  | _ => none

variable {service : Service} {group : Bytes}

theorem handed_metadataTasks (service : Service) (group : Bytes) :
    (metadataTasks service group).filterMap Task.handed? = metadataEntries service group := by
  rw [metadataTasks, List.filterMap_cons_none rfl, filterMap_logTasks _ fun _ => rfl]
  exact congrFun List.filterMap_eq_map _

theorem handed_messageTasks (service : Service) (group : Bytes) :
    (messageTasks service group).filterMap Task.handed? = messageEntries service group := by
  rw [messageTasks, List.filterMap_cons_none rfl, filterMap_logTasks _ fun _ => rfl]
  rfl

theorem handed_groupTasks (service : Service) (group : Bytes) :
    (groupTasks service group).filterMap Task.handed? =
      (if group = service.home then [] else metadataEntries service group) ++
        messageEntries service group := by
  rw [groupTasks]
  split
  · exact handed_messageTasks service group
  · rw [bothTasks, List.filterMap_cons_none rfl, List.filterMap_append, List.filterMap_append,
      handed_metadataTasks, handed_messageTasks, List.filterMap_cons_none rfl, List.filterMap_nil,
      List.append_nil]

/-- The tasks of conversations hand over what there is for them, up to the first whose key cannot be
read. -/
theorem prefix_handed_conversationTasks (service : Service) (listed : List Store.Conversation) :
    (conversationTasks service listed).filterMap Task.handed? <+:
      listed.flatMap (conversationEntries service) := by
  induction listed with
  | nil => exact List.prefix_rfl
  | cons next rest ih =>
    rw [conversationTasks, List.flatMap_cons, conversationEntries]
    cases Key.decode next.key with
    | error e => exact List.nil_prefix
    | ok group =>
      rw [List.filterMap_append, handed_groupTasks]
      exact (List.prefix_append_right_inj _).mpr ih

theorem handed_conversationTasks {listed : List Store.Conversation} {groups : List Bytes}
    (readable : GroupsOf listed groups) (service : Service) :
    (conversationTasks service listed).filterMap Task.handed? =
      listed.flatMap (conversationEntries service) := by
  induction listed generalizing groups with
  | nil => rfl
  | cons next rest ih =>
    cases groups with
    | nil => cases readable
    | cons group groups =>
      obtain ⟨read, more⟩ := readable.cons
      rw [conversationTasks, List.flatMap_cons, conversationEntries, read]
      dsimp only
      rw [List.filterMap_append, handed_groupTasks, ih more]

/-! ### Tasks, seen from the desk -/

/-- A task other than the one that ensures the account. -/
def Task.AfterAccount (task : Task) : Prop := ∀ own, task ≠ .account own

variable {home : Bytes} {task : Task} {desk later : Desk Store.AnyStore} {run after : StoreRun}

private theorem listing_leaves {answer : Except Store.Error (List Store.Conversation)}
    {left : Desk Store.AnyStore}
    (performed : Store.LocalStore.perform .conversations desk = (answer, left)) : left = desk := by
  have unchanged := desk.store.listing_unchanged
  rw [desk_performed (Prod.eta _).symm] at performed
  cases performed
  exact congrArg (fun store => { desk with store }) unchanged

/-- What a task does on the desk is to apply what it hands over. -/
private theorem on_site_hands (other : task.AfterAccount)
    (did : (task.onSite (toStoreSilently home)).run desk = (.ok (), later)) :
    (Handed.applyAll home false task.handed?.toList).run desk = (.ok (), later) := by
  cases task with
  | account own => exact absurd rfl (other own)
  | conversations =>
    obtain ⟨listed, left, performed, rest⟩ := Action.run_bind_eq_ok_iff.mp did
    cases rest
    rw [listing_leaves (Action.run_mapError_eq_ok_iff.mp performed)]
    rfl
  | applyMetadata group event =>
    have applied := Action.run_mapError_eq_ok_iff.mp did
    exact Action.run_bind_eq_ok_iff.mpr ⟨(), later, applied, rfl⟩
  | applyMessage group event =>
    rw [Task.onSite] at did
    rw [Task.handed?, delivered?]
    cases decoded : Message.decode (α := AppMessage) event.message with
    | error e => rw [decoded] at did; cases did
    | ok message =>
      rw [decoded] at did
      have applied := Action.run_mapError_eq_ok_iff.mp did
      exact Action.run_bind_eq_ok_iff.mpr ⟨(), later, applied, rfl⟩
  | _ => cases did; rfl

/-- What a task fails to do on the desk leaves it as it was. -/
private theorem on_site_failed {e : Error} (sound : desk.store.Sound)
    (did : (task.onSite (toStoreSilently home)).run desk = (.error e, later)) : later = desk := by
  cases task with
  | account own =>
    cases performed :
        Store.LocalStore.perform (.ensureAccount (Key.encode own) "") desk.store with
    | mk answer store =>
      simp only [Task.onSite, Action.run_bind, Action.mapError, Store.perform,
        desk_performed performed] at did
      cases answer with
      | ok created => cases did
      | error e =>
        cases did
        rw [Store.AnyStore.refused_unchanged sound performed]
  | conversations =>
    cases performed : Store.LocalStore.perform .conversations desk with
    | mk answer left =>
      simp only [Task.onSite, Action.run_bind, Action.mapError, Store.perform, performed] at did
      cases answer with
      | ok listed => cases did
      | error e => cases did; exact listing_leaves performed
  | applyMetadata group event =>
    obtain ⟨cause, failed⟩ := Action.failed_of_run_mapError did
    have refused : ((Handed.metadata event).apply home false).run desk = (.error cause, later) :=
      failed
    exact Handed.unchanged_of_failed sound refused
  | applyMessage group event =>
    rw [Task.onSite] at did
    cases decoded : Message.decode (α := AppMessage) event.message with
    | error e => rw [decoded] at did; cases did; rfl
    | ok message =>
      rw [decoded] at did
      obtain ⟨cause, failed⟩ := Action.failed_of_run_mapError did
      have refused : ((Handed.message ⟨Key.encode group, event, message⟩).apply home false).run desk =
          (.error cause, later) := failed
      exact Handed.unchanged_of_failed sound refused
  | _ => cases did

/-- Tasks that are carried out apply what they hand over. -/
theorem Passed.hands {done : List Task} (passed : Passed (toStoreSilently home) run done after)
    (direct : run.link = .direct) (others : ∀ task ∈ done, task.AfterAccount) :
    (Handed.applyAll home false (done.filterMap Task.handed?)).run run.site =
      (.ok (), after.site) := by
  induction passed with
  | nil => rfl
  | @cons run middle after task rest performed _ ih =>
    obtain ⟨other, others⟩ := List.forall_mem_cons.mp others
    have applied := on_site_hands other ((performed_site direct performed).1 rfl)
    have more := ih (performed_link direct performed) others
    have split : (task :: rest).filterMap Task.handed? =
        task.handed?.toList ++ rest.filterMap Task.handed? := by
      cases handed : task.handed? <;> simp [handed]
    rw [split, Handed.applyAll_append]
    exact Action.run_bind_eq_ok_iff.mpr ⟨(), middle.site, applied, more⟩

/-! ### A whole replay, seen from the desk -/

/-- The tasks of a replay that come after the one that ensures the account. -/
def laterTasks (service : Service) (listed : List Store.Conversation) : List Task :=
  metadataTasks service service.home ++ .conversations :: conversationTasks service listed

theorem tasks_eq (service : Service) (listed : List Store.Conversation) :
    tasks service listed =
      .configuration :: .account service.home :: laterTasks service listed := rfl

private theorem metadata_after_account (service : Service) (group : Bytes) :
    ∀ task ∈ metadataTasks service group, task.AfterAccount :=
  forall_metadataTasks nofun (fun _ _ => nofun) nofun

private theorem after_account (service : Service) (listed : List Store.Conversation) :
    ∀ task ∈ laterTasks service listed, task.AfterAccount := by
  have metadata := metadata_after_account service
  have messages (group : Bytes) : ∀ task ∈ messageTasks service group, task.AfterAccount :=
    forall_messageTasks nofun (fun _ _ => nofun) nofun
  refine List.forall_mem_append.mpr ⟨metadata service.home, List.forall_mem_cons.mpr ⟨nofun, ?_⟩⟩
  exact forall_conversationTasks (fun _ _ => nofun) (fun group =>
    forall_groupTasks nofun (fun _ => metadata group) (messages group) nofun) listed

private theorem configuration_site (direct : run.link = .direct)
    (asked : (Task.perform (toStoreSilently home) .configuration).run run = (.ok (), after)) :
    after.site = run.site :=
  (congrArg Prod.snd ((performed_site direct asked).1 rfl)).symm

/-- The tasks of a replay up to some point, the first two included, build what they hand over. -/
private theorem builds {done : List Task} (direct : run.link = .direct)
    (passed : Passed (toStoreSilently service.home) run
      (.configuration :: .account service.home :: done) after)
    (others : ∀ task ∈ done, task.AfterAccount) :
    (building service (done.filterMap Task.handed?)).run run.site = (.ok (), after.site) := by
  obtain _ | ⟨configured, _ | ⟨ensured, more⟩⟩ := passed
  have configuredDirect := performed_link direct configured
  have same := configuration_site direct configured
  obtain ⟨created, site, performed, rest⟩ :=
    Action.run_bind_eq_ok_iff.mp ((performed_site configuredDirect ensured).1 rfl)
  cases rest
  rw [same] at performed
  have ensuredOnDesk := Action.run_mapError_eq_ok_iff.mp performed
  have applied := more.hands (performed_link configuredDirect ensured) others
  exact Action.run_bind_eq_ok_iff.mpr
    ⟨created, _, Action.run_mapError_eq_ok_iff.mpr ensuredOnDesk, applied⟩

/-- The opening tasks build the home group's metadata. -/
private theorem opening_builds (direct : run.link = .direct)
    (opening : Passed (toStoreSilently service.home) run (openingTasks service) after) :
    (building service (metadataEntries service service.home)).run run.site = (.ok (), after.site) := by
  have built := builds direct opening (metadata_after_account service service.home)
  rwa [handed_metadataTasks] at built

/-- What a store lists after the opening tasks is `listedThen`. -/
private theorem lists_then (direct : run.link = .direct) :
    Lists (toStoreSilently run.service.home) run (listedThen run.service run.site) := by
  intro middle answer site opening performed
  have built := opening_builds direct opening
  have listing : (Desk.perform .conversations : Action (Desk Store.AnyStore) _ _).run middle.site =
      (.ok answer, site) := Action.run_mapError_eq_ok_iff.mpr performed
  rw [listedThen, Action.run_bind_ok built, listing]

/-- The tasks after the one that ensures the account, if the keys of all conversations can be read,
hand over all that there is; in any case they hand over a first part of it. -/
private theorem handed_later (service : Service) (desk : Desk Store.AnyStore) :
    let later := (laterTasks service (listedThen service desk)).filterMap Task.handed?
    later <+: handedOver service desk ∧
      ((∃ groups, GroupsOf (listedThen service desk) groups) → later = handedOver service desk) := by
  intro later
  have split : later = metadataEntries service service.home ++
      (conversationTasks service (listedThen service desk)).filterMap Task.handed? := by
    rw [← handed_metadataTasks]
    exact List.filterMap_append
  rw [split, handedOver]
  constructor
  · exact (List.prefix_append_right_inj _).mpr (prefix_handed_conversationTasks _ _)
  · rintro ⟨groups, readable⟩
    rw [handed_conversationTasks readable]

/-- A task that fails leaves the desk as it was. -/
private theorem failed_site {halt : Halt Error} (direct : run.link = .direct)
    (sound : run.site.store.Sound)
    (failed : (task.perform (toStoreSilently home)).run run = (.error halt, after)) :
    after.site = run.site := by
  obtain same | ⟨e, failedOnSite⟩ := (performed_site direct failed).2 halt rfl
  · exact same
  · exact on_site_failed sound failedOnSite

/-- Tasks that are the first of a replay left the desk as it was, or built a first part of what is to
be built. -/
private theorem begun_builds {done rest : List Task} (direct : run.link = .direct)
    (split : tasks run.service (listedThen run.service run.site) = done ++ rest)
    (passed : Passed (toStoreSilently run.service.home) run done after) :
    after.site = run.site ∨ ∃ made, made <+: handedOver run.service run.site ∧
      (building run.service made).run run.site = (.ok (), after.site) := by
  rw [tasks_eq] at split
  -- Until the account is ensured, nothing is done on the desk.
  match done, split with
  | [], _ => cases passed; exact .inl rfl
  | [first], split =>
    cases split
    obtain _ | ⟨configured, _ | _⟩ := passed
    exact .inl (configuration_site direct configured)
  | first :: second :: done, split =>
    obtain ⟨rfl, more⟩ := List.cons.inj split
    obtain ⟨rfl, later⟩ := List.cons.inj more
    have begun : done <+: laterTasks run.service (listedThen run.service run.site) :=
      ⟨rest, later.symm⟩
    have others : ∀ task ∈ done, task.AfterAccount := fun task member =>
      after_account run.service _ task (begun.subset member)
    have part := (begun.filterMap Task.handed?).trans (handed_later run.service run.site).1
    exact .inr ⟨_, part, builds direct passed others⟩

/-- A replay that fails stopped in the middle of what is to be built. -/
private theorem failed_builds {halt : Halt Error} (direct : run.link = .direct)
    (sound : run.site.store.Sound) (ran : replayToStore.run run = (.error halt, after)) :
    after.site = run.site ∨ ∃ made, made <+: handedOver run.service run.site ∧
      (building run.service made).run run.site = (.ok (), after.site) := by
  obtain ⟨succeeded, _⟩ | ⟨done, task, rest, middle, _, stopped, split, passed, failed, _, last⟩ :=
    replay_cases direct (lists_then direct) ran
  · cases succeeded
  · have middleSound := (passed.wrote sound direct).later.sound
    rw [last, stoppedAt_site, failed_site (passed.link direct) middleSound failed]
    exact begun_builds direct split passed

/-! ### Nothing is lost -/

/-- The group that a metadata entry says was joined. -/
def joinedGroup? (event : MetadataEvent) : Option Bytes :=
  match event.metadata with
  | none => none
  | some metadata =>
    if EventType.ofNumber? metadata.eventType = some .groupJoined then
      match Message.decode (α := GroupJoined) event.event with
      | .error _ => none
      | .ok joined => joined.group.map (·.key)
    else none

/-- A message entry in the log of the group of a listed conversation. -/
def Logged (service : Service) (listed : List Store.Conversation) (group : Bytes)
    (event : MessageEvent) : Prop :=
  (∃ conversation ∈ listed, Key.decode conversation.key = .ok group) ∧
    event ∈ (service.logsOf group).messages.entries

/-- Nothing that the logs of the home group and of listed conversations hold is missing from what was
handed over, or from the records. -/
structure Complete (service : Service) (listed : List Store.Conversation) (handed : List Handed)
    (records : Store.Records) : Prop where
  /-- A group that was joined, by the home group's metadata log, is listed. -/
  joined : ∀ event ∈ (service.logsOf service.home).metadata.entries, ∀ group,
    joinedGroup? event = some group → ∃ type, ⟨Key.encode group, type⟩ ∈ listed
  /-- The messages of every listed conversation were handed over, in a row. -/
  projected : ∀ conversation ∈ listed, ∃ group, Key.decode conversation.key = .ok group ∧
    messageEntries service group <:+: handed
  /-- None of them was left out. -/
  decoded : ∀ group event, Logged service listed group event →
    ∃ message : AppMessage, Message.decode event.message = .ok message
  /-- Those of a stored type have an interaction of their content id. -/
  stored : ∀ group event, Logged service listed group event → ∀ message : AppMessage,
    Message.decode event.message = .ok message → ∀ type ∈ storedTypes,
      AppMessageType.ofNumber? message.type = some type →
        ∃ context, event.context = some context ∧
          ∃ i ∈ records.interactions, i.cid = Key.encode context.id
  /-- Acknowledgements are recorded and reached the interaction that they are for. -/
  acknowledged : ∀ group event, Logged service listed group event → ∀ message : AppMessage,
    Message.decode event.message = .ok message →
      AppMessageType.ofNumber? message.type = some .acknowledge →
        records.Acknowledges message.target

/-- An operation on a desk that succeeded is one on its store that did. -/
private theorem store_performed {α : Type} {op : Store.Op α} {answer : α}
    (performed : (Desk.perform op : Action (Desk Store.AnyStore) _ α).run desk =
      (.ok answer, later)) : desk.store.perform op = (.ok answer, later.store) := by
  have onDesk := Action.run_mapError_eq_ok_iff.mp performed
  cases onStore : Store.LocalStore.perform op desk.store with
  | mk result store =>
    have same := (desk_performed onStore).symm.trans onDesk
    cases same
    exact onStore

/-- What was built holds the records of all that was handed over, none of which was refused. -/
private theorem built_holds {handed : List Handed} (sound : desk.store.Sound)
    (built : (building service handed).run desk = (.ok (), later)) :
    ∀ each ∈ handed, ∃ writes, each.writes service.home = .ok writes ∧
      ∀ write ∈ writesOf (each.writes service.home), later.store.records.Holds write := by
  obtain ⟨created, ensured, performed, applied⟩ := Action.run_bind_eq_ok_iff.mp built
  have ensuredWrote : desk.store.Wrote [.account (Key.encode service.home) ""] ensured.store :=
    Store.AnyStore.wrote_of_ok sound (store_performed performed)
  have ensuredSound := ensuredWrote.later.sound
  have wrote := Handed.applyAll_wrote ensuredSound applied
  intro each member
  obtain ⟨writes, comes, _⟩ := (Handed.applyAll_ok_iff _ ensuredSound).mp ⟨later, applied⟩ each member
  refine ⟨writes, comes, fun write among => ?_⟩
  rw [wrote.records]
  exact Store.Records.holds_carryAll ensuredSound.records write
    (List.mem_flatMap.mpr ⟨each, member, among⟩)

/-- A group that was joined is the conversation that its joining puts in. -/
private theorem joined_writes {event : MetadataEvent} {writes : List Noticed}
    (joined : joinedGroup? event = some group) (comes : metadataWrites home event = .ok writes) :
    ∃ type, .conversation ⟨Key.encode group, type⟩ ∈ writesOf (metadataWrites home event) := by
  unfold joinedGroup? at joined
  cases context : event.context with
  | none => simp [metadataWrites, context] at comes
  | some inside =>
    cases metadata : event.metadata with
    | none => simp [metadata] at joined
    | some data =>
      rw [metadata] at joined
      by_cases type : EventType.ofNumber? data.eventType = some .groupJoined
      · simp only [type, ↓reduceIte] at joined
        simp only [metadataWrites, context, metadata, type, joinedWrites]
        cases decoded : Message.decode (α := GroupJoined) event.event with
        | error e => simp [decoded] at joined
        | ok value =>
          simp only [decoded] at joined
          cases named : value.group with
          | none => simp [named] at joined
          | some descriptor =>
            obtain rfl : descriptor.key = group := by simpa [named] using joined
            simp only [named]
            exact ⟨_, List.mem_singleton_self _⟩
      · simp [type] at joined

/-- The groups that the home group's metadata log says were joined are listed. -/
private theorem joined_listed (direct : run.link = .direct) (sound : run.site.store.Sound)
    (passed : Passed (toStoreSilently run.service.home) run
      (tasks run.service (listedThen run.service run.site)) after) :
    ∀ event ∈ (run.service.logsOf run.service.home).metadata.entries, ∀ group,
      joinedGroup? event = some group →
        ∃ type, ⟨Key.encode group, type⟩ ∈ listedThen run.service run.site := by
  intro event member group joined
  obtain ⟨opened, opening, _ | ⟨listing, _⟩⟩ := passed_append_iff.mp passed
  have openedDirect := opening.link direct
  have openedSound := (opening.wrote sound direct).later.sound
  -- What is listed is what the store holds once the home group's metadata was built.
  obtain ⟨answer, site, performed, _⟩ :=
    Action.run_bind_eq_ok_iff.mp ((performed_site openedDirect listing).1 rfl)
  have answered := Action.run_mapError_eq_ok_iff.mp performed
  have listedNow : listedThen run.service run.site = opened.site.store.records.conversations := by
    rw [← lists_then direct opened answer site opening answered]
    exact listed_of_performed Store.backed_id (by exact openedSound) answered
  have built := opening_builds direct opening
  have handed : Handed.metadata event ∈ metadataEntries run.service run.service.home :=
    List.mem_map_of_mem member
  obtain ⟨writes, comes, holds⟩ := built_holds sound built _ handed
  obtain ⟨type, among⟩ := joined_writes joined comes
  have held := holds _ among
  obtain ⟨⟨key, type⟩, stored, rfl⟩ := List.mem_map.mp held
  exact ⟨type, listedNow ▸ stored⟩

/-- The tasks of a message log are among those of a replay that lists its group. -/
private theorem applied_of_logged {listed : List Store.Conversation} {groups : List Bytes}
    {event : MessageEvent} (readable : GroupsOf listed groups)
    (logged : Logged service listed group event) :
    .applyMessage group event ∈ conversationTasks service listed := by
  obtain ⟨⟨conversation, member, read⟩, entry⟩ := logged
  obtain ⟨other, among, readOther⟩ := readable.decode_of_mem member
  obtain rfl : group = other := Except.ok.inj (read.symm.trans readOther)
  have ofLog : .applyMessage group event ∈ messageTasks service group :=
    List.mem_cons_of_mem _ (mem_logTasks _ entry)
  rw [conversationTasks_of_groups service readable]
  exact List.mem_flatMap.mpr ⟨group, among, messageTasks_subset service group ofLog⟩

/-- A replay that succeeds leaves nothing out. -/
private theorem complete (direct : run.link = .direct) (sound : run.site.store.Sound)
    (passed : Passed (toStoreSilently run.service.home) run
      (tasks run.service (listedThen run.service run.site)) after)
    (built : (building run.service (handedOver run.service run.site)).run run.site =
      (.ok (), after.site)) :
    Complete run.service (listedThen run.service run.site) (handedOver run.service run.site)
      after.site.store.records := by
  obtain ⟨opened, opening, _ | ⟨listing, more⟩⟩ := passed_append_iff.mp passed
  obtain ⟨groups, readable⟩ := more.groups
  have projected : ∀ conversation ∈ listedThen run.service run.site,
      ∃ group, Key.decode conversation.key = .ok group ∧
        messageEntries run.service group <:+: handedOver run.service run.site := by
    intro conversation member
    obtain ⟨group, _, read⟩ := readable.decode_of_mem member
    have last : messageEntries run.service group <:+ conversationEntries run.service conversation := by
      rw [conversationEntries, read]
      exact List.suffix_append _ _
    have part : conversationEntries run.service conversation <:+:
        (listedThen run.service run.site).flatMap (conversationEntries run.service) :=
      List.infix_of_mem_flatten (List.mem_map_of_mem member)
    exact ⟨group, read, (last.isInfix.trans part).trans (List.suffix_append _ _).isInfix⟩
  have decoded : ∀ group event, Logged run.service (listedThen run.service run.site) group event →
      ∃ message : AppMessage, Message.decode event.message = .ok message := by
    intro group event logged
    obtain ⟨before, later, performed⟩ := more.performed (applied_of_logged readable logged)
    cases decodes : Message.decode (α := AppMessage) event.message with
    | ok message => exact ⟨message, rfl⟩
    | error e =>
      rw [Task.applyMessage_undecodable decodes] at performed
      split at performed <;> cases performed
  have delivered : ∀ group event, Logged run.service (listedThen run.service run.site) group event →
      ∀ message : AppMessage, Message.decode event.message = .ok message →
        .message ⟨Key.encode group, event, message⟩ ∈ handedOver run.service run.site := by
    rintro group event ⟨⟨conversation, member, read⟩, entry⟩ message decodes
    obtain ⟨other, readOther, row⟩ := projected conversation member
    obtain rfl : group = other := Except.ok.inj (read.symm.trans readOther)
    refine row.subset (List.mem_filterMap.mpr ⟨event, entry, ?_⟩)
    rw [delivered?, decodes]
  refine ⟨joined_listed direct sound passed, projected, decoded, ?_, ?_⟩
  · intro group event logged message decodes type stored named
    obtain ⟨writes, comes, holds⟩ := built_holds sound built _ (delivered group event logged _ decodes)
    obtain ⟨context, inside, added, among, cid⟩ := Delivery.adds_of_stored comes named stored
    obtain ⟨i, present, same⟩ := List.mem_map.mp (holds _ among)
    exact ⟨context, inside, i, present, same.trans cid⟩
  · intro group event logged message decodes named
    obtain ⟨writes, comes, holds⟩ := built_holds sound built _ (delivered group event logged _ decodes)
    exact holds _ (Delivery.acknowledges_target comes named)

/-- What a replay builds.  If it succeeds, the store, and all else that a handler keeps, is what
becomes of it by ensuring the account and applying, one after the other, the home group's metadata and
then what there is of each conversation that is listed at that moment; and nothing of that is lost.
If it fails, the store is as it was, or the account was ensured and a first part of it applied. -/
theorem replay_builds {outcome : Except (Halt Error) Summary} (direct : run.link = .direct)
    (reachable : Store.Reachable run.site.store) (ran : replayToStore.run run = (outcome, after)) :
    let handed := handedOver run.service run.site
    (∀ summary, outcome = .ok summary →
      (building run.service handed).run run.site = (.ok (), after.site) ∧
        Complete run.service (listedThen run.service run.site) handed after.site.store.records) ∧
    ∀ halt, outcome = .error halt →
      after.site = run.site ∨ ∃ made, made <+: handed ∧
        (building run.service made).run run.site = (.ok (), after.site) := by
  intro handed
  have sound := reachable.sound
  constructor
  · rintro summary rfl
    obtain ⟨_, passed⟩ | ⟨_, _, _, _, _, _, _, _, _, failed, _⟩ :=
      replay_cases direct (lists_then direct) ran
    · obtain ⟨_, _, _ | ⟨_, more⟩⟩ := passed_append_iff.mp passed
      have built := builds direct (tasks_eq run.service _ ▸ passed) (after_account run.service _)
      rw [(handed_later run.service run.site).2 more.groups] at built
      exact ⟨built, complete direct sound passed built⟩
    · cases failed
  · rintro halt rfl
    exact failed_builds direct sound ran

/-- An acknowledgement of the content id that is written "Cw". -/
def answering (group id : Bytes) : MessageEvent :=
  .of group id [9] { type := AppMessageType.acknowledge.number, target := "Cw" }

/-- A service whose home group's log names a second group, which holds a message and the answer to
it. -/
def answeredAtHome : Service where
  home := [1]
  logs :=
    [([1], { metadata := { entries := [joining [1] [10] [2]] } }),
     ([2], { messages := { entries := [titling [2] [11], answering [2] [12]] } })]

/-- A replay of a group that was joined at home: its conversation is listed, and its messages are
built, in the same replay. -/
theorem answered_at_home_built :
    let run := onEmptyStore answeredAtHome
    let after := (replayToStore.run run).2
    listedThen answeredAtHome run.site = [⟨"Ag", .multiMember⟩] ∧
      (building answeredAtHome (handedOver answeredAtHome run.site)).run run.site =
        (.ok (), after.site) ∧
      after.site.store.records.interactions.map (fun i => (i.cid, i.acknowledged)) =
        [("Cw", true)] ∧
      after.site.store.records.Acknowledges "Cw" := by
  intro run after
  have succeeded : (replayToStore.run run).1 = .ok ⟨1, 1, 2⟩ := by decide +kernel
  have listed : listedThen answeredAtHome run.site = [⟨"Ag", .multiMember⟩] := by decide +kernel
  obtain ⟨built, complete⟩ :=
    (replay_builds rfl (.memory false) (Prod.ext succeeded rfl)).1 _ rfl
  have logged : Logged answeredAtHome (listedThen answeredAtHome run.site) [2]
      (answering [2] [12]) := by
    refine ⟨⟨⟨"Ag", .multiMember⟩, ?_, by decide +kernel⟩, by decide +kernel⟩
    exact listed ▸ List.mem_singleton_self _
  have acknowledged := complete.acknowledged [2] (answering [2] [12]) logged
    { type := AppMessageType.acknowledge.number, target := "Cw" } (by decide +kernel) (by decide)
  exact ⟨listed, built, by decide +kernel, acknowledged⟩

end Replay

end GroupReplay
