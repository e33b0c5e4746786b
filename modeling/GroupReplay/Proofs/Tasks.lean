import GroupReplay.Proofs.Actions
import GroupReplay.Replay.Basic
import Mathlib.Data.List.Basic

/-!
A replay as one list of tasks.  The nested loops of a replay, over conversations and over the two
logs of each, come to a flat list that the service's logs and the listed conversations determine,
and to a register that says which group is held for the time being.  `replay_carries_out` is the
statement that the replay and this machine are the same computation; everything said about single
steps of a replay is said about tasks.
-/

namespace GroupReplay

open Wire Service Projection

namespace Service

/-- The services differ at most in which groups are active. -/
def Alike (a b : Service) : Prop := a = { b with active := a.active }

/-- What a reader meets after the last entry of a log. -/
def LogEnd.ending : LogEnd → Ending
  | .complete => .complete
  | .failAfter _ => .fails logUnavailable
  | .hang => .hangs

theorem Log.listing_ending {α : Type} (log : Log α) : log.listing.ending = log.logEnd.ending := by
  unfold Log.listing LogEnd.ending
  cases log.logEnd <;> rfl

/-- A log that is not broken off delivers all of its entries. -/
theorem Log.listing_entries_of_whole {α : Type} {log : Log α}
    (whole : ∀ count, log.logEnd ≠ .failAfter count) : log.listing.entries = log.entries := by
  unfold Log.listing
  cases ended : log.logEnd with
  | complete => rfl
  | failAfter count => exact absurd ended (whole count)
  | hang => rfl

theorem Log.listing_entries_prefix {α : Type} (log : Log α) :
    log.listing.entries ++ log.entries.drop log.listing.entries.length = log.entries := by
  unfold Log.listing
  cases log.logEnd with
  | complete => simp
  | failAfter count =>
    rw [List.length_take]
    by_cases short : count ≤ log.entries.length
    · rw [Nat.min_eq_left short]
      exact List.take_append_drop count log.entries
    · rw [Nat.min_eq_right (by omega), List.drop_length, List.append_nil]
      exact List.take_of_length_le (by omega)
  | hang => simp

theorem listMetadata_eq_ok_iff {service : Service} {group : Bytes}
    {listing : Listing MetadataEvent} :
    service.listMetadata group = .ok listing ↔
      group ∉ service.failsMetadata ∧ group ∈ service.active ∧
        listing = (service.logsOf group).metadata.listing := by
  unfold listMetadata
  split
  · simp_all
  · split <;> simp_all [eq_comm]

theorem listMessages_eq_ok_iff {service : Service} {group : Bytes}
    {listing : Listing MessageEvent} :
    service.listMessages group = .ok listing ↔
      group ∉ service.failsMessages ∧ group ∈ service.active ∧
        listing = (service.logsOf group).messages.listing := by
  unfold listMessages
  split
  · simp_all
  · split <;> simp_all [eq_comm]

namespace Alike

variable {a b c : Service}

theorem refl (a : Service) : Alike a a := rfl

theorem trans (first : Alike a b) (second : Alike b c) : Alike a c := by
  unfold Alike at *
  rw [first, second]

theorem symm (alike : Alike a b) : Alike b a := by
  unfold Alike at *
  rw [alike]

theorem home (alike : Alike a b) : a.home = b.home := by rw [alike]

theorem failsActivate (alike : Alike a b) : a.failsActivate = b.failsActivate := by rw [alike]

theorem failsDeactivate (alike : Alike a b) : a.failsDeactivate = b.failsDeactivate := by rw [alike]

theorem logsOf (alike : Alike a b) (group : Bytes) : a.logsOf group = b.logsOf group := by
  rw [alike]; rfl

theorem activate (alike : Alike a b) (group : Bytes) : Alike (a.activate group).2 b := by
  refine .trans ?_ alike
  unfold Service.activate
  split
  · rfl
  · split <;> rfl

theorem deactivate (alike : Alike a b) (group : Bytes) : Alike (a.deactivate group).2 b := by
  refine .trans ?_ alike
  unfold Service.deactivate
  split
  · rfl
  · split <;> rfl

end Alike

end Service

namespace Replay

/-- A task of a replay. -/
inductive Task where
  /-- Ask for the account's home group. -/
  | configuration
  /-- Ensure the account record of a home group. -/
  | account (home : Bytes)
  /-- List the conversations. -/
  | conversations
  /-- Meet a conversation whose key cannot be read. -/
  | unreadable (key : String) (e : Key.DecodeError)
  | activate (group : Bytes)
  | openMetadata (group : Bytes)
  | applyMetadata (group : Bytes) (event : MetadataEvent)
  /-- Meet the end of a metadata log. -/
  | closeMetadata (group : Bytes) (logEnd : LogEnd)
  | openMessages (group : Bytes)
  | applyMessage (group : Bytes) (event : MessageEvent)
  /-- Meet the end of a message log. -/
  | closeMessages (group : Bytes) (logEnd : LogEnd)
  | deactivate (group : Bytes)

variable {η α β : Type}

/-- Opens a listing. -/
def openLog (openListing : Action (Run η) Service.Error (Listing α)) :
    Action (Run η) (Halt DrainError) Unit := do
  let _ ← .mapError (fun e => .failed (.listing e)) openListing
  .modify fun run => { run with token := run.token.listed }

/-- Hands one entry of a listing over, unless the token is cancelled. -/
def handEntry (apply : Action (Run η) DrainError Unit) : Action (Run η) (Halt DrainError) Unit := do
  checkToken
  .mapError .failed apply

/-- Meets the end of a listing, unless the token is cancelled. -/
def closeLog (ending : Ending) : Action (Run η) (Halt DrainError) Unit := do
  checkToken
  atEnd ending

namespace Task

/-- What a task does. -/
def perform [Store.LocalStore η] (handler : Handler η) : Task → Action (Run η) (Halt Error) Unit
  | configuration => do
    let _ ← .mapError (fun e => .failed (.configuration e)) Client.configuration
  | account home => do
    let account := Key.encode home
    let _ ← .mapError (fun e => .failed (.storeWrite account e))
      (Store.perform (.ensureAccount account ""))
  | conversations => do
    let _ ← .mapError (fun e => .failed (.storeRead e)) (Store.perform .conversations)
  | unreadable key e => .fail (.failed (.deserialization key (.key e)))
  | activate group => .mapError .failed (Replay.activate group)
  | openMetadata group =>
    .mapError (.map (.metadata (Key.encode group))) (openLog (Client.listMetadata group))
  | applyMetadata group event =>
    .mapError (.map (.metadata (Key.encode group)))
      (handEntry (.mapError .handler (Replay.applyMetadata handler event)))
  | closeMetadata group logEnd =>
    .mapError (.map (.metadata (Key.encode group))) (closeLog logEnd.ending)
  | openMessages group =>
    .mapError (.map (Error.ofMessages group)) (openLog (Client.listMessages group))
  | applyMessage group event =>
    .mapError (.map (Error.ofMessages group))
      (handEntry (applyEntry handler (Key.encode group) event))
  | closeMessages group logEnd =>
    .mapError (.map (Error.ofMessages group)) (closeLog logEnd.ending)
  | deactivate group => .mapError .failed (Replay.deactivate group)

/-- The group that is held after a task. -/
def holding (held : Option Bytes) : Task → Option Bytes
  | activate group => some group
  | deactivate _ => none
  | _ => held

/-- The group that is released if a task fails: the one that is held, unless the task was to give
it back anyway. -/
def freed (held : Option Bytes) : Task → Option Bytes
  | deactivate _ => none
  | _ => held

/-- A task that neither takes nor gives back a group. -/
def Stays : Task → Prop
  | activate _ | deactivate _ => False
  | _ => True

theorem Stays.holding {task : Task} (stays : task.Stays) (held : Option Bytes) :
    task.holding held = held := by
  cases task <;> first | rfl | exact stays.elim

theorem Stays.freed {task : Task} (stays : task.Stays) (held : Option Bytes) :
    task.freed held = held := by
  cases task <;> first | rfl | exact stays.elim

end Task

/-- Releases a group if one is to be released. -/
def free : Option Bytes → Action (Run η) Error Unit
  | none => pure ()
  | some group => release group

/-- Carries tasks out one after the other while a group is held or none is. -/
def carryOut [Store.LocalStore η] (handler : Handler η) :
    Option Bytes → List Task → Action (Run η) (Halt Error) Unit
  | _, [] => pure ()
  | held, task :: rest => do
    (task.perform handler).cleaningUp (free (task.freed held))
    carryOut handler (task.holding held) rest

/-- The entries of a log as far as they are delivered, the log's end, and the entries that a log
that breaks off keeps back. -/
def logTasks (apply : α → Task) (close : LogEnd → Task) (log : Log α) : List Task :=
  let delivered := log.listing.entries
  delivered.map apply ++ close log.logEnd :: (log.entries.drop delivered.length).map apply

/-- What all entries of a log and its end have, all tasks of the log have. -/
theorem forall_logTasks {property : Task → Prop} {apply : α → Task} {close : LogEnd → Task}
    {log : Log α} (entries : ∀ entry ∈ log.entries, property (apply entry))
    (ended : property (close log.logEnd)) :
    ∀ task ∈ logTasks apply close log, property task := by
  intro task member
  simp only [logTasks, List.mem_append, List.mem_map, List.mem_cons] at member
  rw [← log.listing_entries_prefix] at entries
  obtain ⟨entry, delivered, rfl⟩ | rfl | ⟨entry, keptBack, rfl⟩ := member
  · exact entries entry (List.mem_append_left _ delivered)
  · exact ended
  · exact entries entry (List.mem_append_right _ keptBack)

/-- All entries of a log are handed over by its tasks, some perhaps behind its end. -/
theorem mem_logTasks {apply : α → Task} {log : Log α} {entry : α} (close : LogEnd → Task)
    (member : entry ∈ log.entries) : apply entry ∈ logTasks apply close log := by
  rw [← log.listing_entries_prefix] at member
  rw [logTasks]
  obtain delivered | keptBack := List.mem_append.mp member
  · exact List.mem_append_left _ (List.mem_map_of_mem delivered)
  · exact List.mem_append_right _ (List.mem_cons_of_mem _ (List.mem_map_of_mem keptBack))

/-- What the tasks of a log come to its entries come to, those that are kept back included. -/
theorem flatMap_logTasks {apply : α → Task} {close : LogEnd → Task} (comes : Task → List β)
    (ended : ∀ logEnd, comes (close logEnd) = []) (log : Log α) :
    (logTasks apply close log).flatMap comes =
      log.entries.flatMap fun entry => comes (apply entry) := by
  rw [logTasks, List.flatMap_append, List.flatMap_cons, ended, List.nil_append, List.flatMap_map,
    List.flatMap_map, ← List.flatMap_append, Log.listing_entries_prefix]

theorem filterMap_logTasks {apply : α → Task} {close : LogEnd → Task} (keep : Task → Option β)
    (ended : ∀ logEnd, keep (close logEnd) = none) (log : Log α) :
    (logTasks apply close log).filterMap keep =
      log.entries.filterMap fun entry => keep (apply entry) := by
  rw [List.filterMap_eq_flatMap_toList, List.filterMap_eq_flatMap_toList]
  exact flatMap_logTasks _ (fun logEnd => congrArg Option.toList (ended logEnd)) log

/-- The tasks of a group's metadata log. -/
def metadataTasks (service : Service) (group : Bytes) : List Task :=
  .openMetadata group ::
    logTasks (.applyMetadata group) (.closeMetadata group) (service.logsOf group).metadata

/-- The tasks of a group's message log. -/
def messageTasks (service : Service) (group : Bytes) : List Task :=
  .openMessages group ::
    logTasks (.applyMessage group) (.closeMessages group) (service.logsOf group).messages

/-- The tasks of both logs of a group. -/
def bothTasks (service : Service) (group : Bytes) : List Task :=
  metadataTasks service group ++ messageTasks service group

/-- The tasks of a conversation's group. -/
def groupTasks (service : Service) (group : Bytes) : List Task :=
  if group = service.home then messageTasks service group
  else .activate group :: (bothTasks service group ++ [.deactivate group])

/-- The tasks of conversations, up to the first whose key cannot be read. -/
def conversationTasks (service : Service) : List Store.Conversation → List Task
  | [] => []
  | next :: rest =>
    match Key.decode next.key with
    | .error e => [.unreadable next.key e]
    | .ok group => groupTasks service group ++ conversationTasks service rest

theorem messageTasks_subset (service : Service) (group : Bytes) :
    messageTasks service group ⊆ groupTasks service group := by
  rw [groupTasks]
  split
  · exact List.Subset.refl _
  · exact List.subset_cons_of_subset _
      (List.subset_append_of_subset_left _ (List.subset_append_right _ _))

section ForAll

variable {property : Task → Prop} {service : Service} {group : Bytes}

theorem forall_metadataTasks (opened : property (.openMetadata group))
    (entries : ∀ event ∈ (service.logsOf group).metadata.entries,
      property (.applyMetadata group event))
    (ended : property (.closeMetadata group (service.logsOf group).metadata.logEnd)) :
    ∀ task ∈ metadataTasks service group, property task :=
  List.forall_mem_cons.mpr ⟨opened, forall_logTasks entries ended⟩

theorem forall_messageTasks (opened : property (.openMessages group))
    (entries : ∀ event ∈ (service.logsOf group).messages.entries,
      property (.applyMessage group event))
    (ended : property (.closeMessages group (service.logsOf group).messages.logEnd)) :
    ∀ task ∈ messageTasks service group, property task :=
  List.forall_mem_cons.mpr ⟨opened, forall_logTasks entries ended⟩

/-- What the tasks of both logs have, with the taking and giving back of the group, all tasks of the
group have; of home only the messages count. -/
theorem forall_groupTasks (activated : property (.activate group))
    (metadata : group ≠ service.home → ∀ task ∈ metadataTasks service group, property task)
    (messages : ∀ task ∈ messageTasks service group, property task)
    (deactivated : property (.deactivate group)) :
    ∀ task ∈ groupTasks service group, property task := by
  rw [groupTasks]
  split
  · exact messages
  · next foreign =>
    have both : ∀ task ∈ bothTasks service group, property task :=
      List.forall_mem_append.mpr ⟨metadata foreign, messages⟩
    exact List.forall_mem_cons.mpr
      ⟨activated, List.forall_mem_append.mpr ⟨both, List.forall_mem_singleton.mpr deactivated⟩⟩

theorem forall_conversationTasks (unreadable : ∀ key e, property (.unreadable key e))
    (groups : ∀ group, ∀ task ∈ groupTasks service group, property task)
    (listed : List Store.Conversation) :
    ∀ task ∈ conversationTasks service listed, property task := by
  induction listed with
  | nil => exact List.forall_mem_nil _
  | cons next rest ih =>
    rw [conversationTasks]
    split
    · exact List.forall_mem_singleton.mpr (unreadable _ _)
    · exact List.forall_mem_append.mpr ⟨groups _, ih⟩

end ForAll

/-- The tasks before the conversations are listed. -/
def openingTasks (service : Service) : List Task :=
  .configuration :: .account service.home :: metadataTasks service service.home

/-- The tasks of a replay that lists certain conversations. -/
def tasks (service : Service) (listed : List Store.Conversation) : List Task :=
  openingTasks service ++ .conversations :: conversationTasks service listed

/-- The totals after another conversation was replayed. -/
def tally (service : Service) (summary : Summary) (conversation : Store.Conversation) : Summary :=
  match Key.decode conversation.key with
  | .error _ => summary
  | .ok group =>
    { groups := summary.groups + 1
      metadata := summary.metadata +
        if group = service.home then 0 else (service.logsOf group).metadata.entries.length
      messages := summary.messages + (service.logsOf group).messages.entries.length }

/-- The totals of a replay that listed certain conversations. -/
def totals (service : Service) (listed : List Store.Conversation) : Summary :=
  listed.foldl (tally service)
    { metadata := (service.logsOf service.home).metadata.entries.length }

/-! ### Services that are alike have the same tasks -/

theorem groupTasks_alike {a b : Service} (alike : a.Alike b) (group : Bytes) :
    groupTasks a group = groupTasks b group := by
  rw [alike]; rfl

theorem conversationTasks_alike {a b : Service} (alike : a.Alike b)
    (listed : List Store.Conversation) : conversationTasks a listed = conversationTasks b listed := by
  induction listed with
  | nil => rfl
  | cons next rest ih =>
    rw [conversationTasks, conversationTasks]
    cases Key.decode next.key with
    | error e => rfl
    | ok group => simp only [groupTasks_alike alike, ih]

theorem openingTasks_alike {a b : Service} (alike : a.Alike b) :
    openingTasks a = openingTasks b := by
  rw [alike]; rfl

theorem tasks_alike {a b : Service} (alike : a.Alike b) (listed : List Store.Conversation) :
    tasks a listed = tasks b listed := by
  rw [tasks, tasks, openingTasks_alike alike, conversationTasks_alike alike]

theorem totals_alike {a b : Service} (alike : a.Alike b) (listed : List Store.Conversation) :
    totals a listed = totals b listed := by
  rw [alike]; rfl

end Replay

end GroupReplay
