import GroupReplay.Proofs.Flattening

/-!
The plan of a replay: the calls that are observed if nothing fails, as the nested loops would make
them.  It is what the tasks of a replay are observed as, and a replay makes the calls of the tasks
that it gets to, in their order.
-/

namespace GroupReplay

open Wire Service Projection

namespace Replay

/-- The calls of draining a group's metadata log. -/
def metadataCalls (service : Service) (group : Bytes) : List Call :=
  .listMetadata (Key.encode group) :: (service.logsOf group).metadata.entries.map metadataCall

/-- The calls of draining a group's message log. -/
def messageCalls (service : Service) (group : Bytes) : List Call :=
  .listMessages (Key.encode group) ::
    (service.logsOf group).messages.entries.map (messageCall group)

/-- The calls of replaying a conversation's group. -/
def groupCalls (service : Service) (group : Bytes) : List Call :=
  if group = service.home then messageCalls service group
  else
    .activate (Key.encode group) true ::
      (metadataCalls service group ++ messageCalls service group ++
        [.deactivate (Key.encode group)])

/-- The calls of replaying conversations, up to the first whose key cannot be read. -/
def conversationCalls (service : Service) : List Store.Conversation → List Call
  | [] => []
  | next :: rest =>
    match Key.decode next.key with
    | .error _ => []
    | .ok group => groupCalls service group ++ conversationCalls service rest

/-- The calls before the conversations are listed. -/
def openingCalls (service : Service) : List Call :=
  .configuration :: .ensureAccount (Key.encode service.home) :: metadataCalls service service.home

/-- The calls of a replay of certain conversations in which nothing fails. -/
def plan (service : Service) (listed : List Store.Conversation) : List Call :=
  openingCalls service ++ .conversations :: conversationCalls service listed

namespace Task

/-- The call that a task is observed as. -/
def call? : Task → Option Call
  | configuration => some .configuration
  | account home => some (.ensureAccount (Key.encode home))
  | conversations => some .conversations
  | activate group => some (.activate (Key.encode group) true)
  | openMetadata group => some (.listMetadata (Key.encode group))
  | applyMetadata _ event => some (metadataCall event)
  | openMessages group => some (.listMessages (Key.encode group))
  | applyMessage group event => some (messageCall group event)
  | deactivate group => some (.deactivate (Key.encode group))
  | unreadable _ _ | closeMetadata _ _ | closeMessages _ _ => none

/-- The call that a task is observed as even if it fails: service and store observe what they are
asked for before they look at it, a handler only what it applied. -/
def attempt? : Task → Option Call
  | applyMetadata _ _ | applyMessage _ _ => none
  | task => task.call?

end Task

/-! ### The plan is what the tasks are observed as -/

theorem calls_metadataTasks (service : Service) (group : Bytes) :
    (metadataTasks service group).filterMap Task.call? = metadataCalls service group := by
  rw [metadataTasks, List.filterMap_cons, filterMap_logTasks _ fun _ => rfl]
  exact congrArg _ (congrFun List.filterMap_eq_map _)

theorem calls_messageTasks (service : Service) (group : Bytes) :
    (messageTasks service group).filterMap Task.call? = messageCalls service group := by
  rw [messageTasks, List.filterMap_cons, filterMap_logTasks _ fun _ => rfl]
  exact congrArg _ (congrFun List.filterMap_eq_map _)

theorem calls_groupTasks (service : Service) (group : Bytes) :
    (groupTasks service group).filterMap Task.call? = groupCalls service group := by
  rw [groupTasks, groupCalls]
  split
  · exact calls_messageTasks service group
  · rw [bothTasks, List.filterMap_cons, List.filterMap_append, List.filterMap_append,
      calls_metadataTasks, calls_messageTasks]
    rfl

theorem calls_conversationTasks (service : Service) (listed : List Store.Conversation) :
    (conversationTasks service listed).filterMap Task.call? = conversationCalls service listed := by
  induction listed with
  | nil => rfl
  | cons next rest ih =>
    rw [conversationTasks, conversationCalls]
    cases Key.decode next.key with
    | error e => rfl
    | ok group => rw [List.filterMap_append, calls_groupTasks, ih]

/-- The tasks of a replay, all carried out, are observed as its plan. -/
theorem calls_tasks (service : Service) (listed : List Store.Conversation) :
    (tasks service listed).filterMap Task.call? = plan service listed := by
  have opening : (openingTasks service).filterMap Task.call? = openingCalls service := by
    rw [openingTasks, List.filterMap_cons, List.filterMap_cons, calls_metadataTasks]
    rfl
  rw [tasks, plan, List.filterMap_append, opening, List.filterMap_cons, calls_conversationTasks]
  rfl

/-! ### Conversations whose keys can all be read -/

/-- The groups of conversations, if all of their keys can be read. -/
def GroupsOf (listed : List Store.Conversation) (groups : List Bytes) : Prop :=
  listed.map (fun next => Key.decode next.key) = groups.map .ok

theorem GroupsOf.cons {next : Store.Conversation} {rest : List Store.Conversation} {group : Bytes}
    {groups : List Bytes} (same : GroupsOf (next :: rest) (group :: groups)) :
    Key.decode next.key = .ok group ∧ GroupsOf rest groups :=
  List.cons.inj same

/-- The key of each of the conversations can be read. -/
theorem GroupsOf.decode_of_mem {listed : List Store.Conversation} {groups : List Bytes}
    (same : GroupsOf listed groups) {conversation : Store.Conversation}
    (member : conversation ∈ listed) :
    ∃ group ∈ groups, Key.decode conversation.key = .ok group := by
  have read : Key.decode conversation.key ∈ groups.map .ok :=
    same ▸ List.mem_map_of_mem member
  obtain ⟨group, among, same⟩ := List.mem_map.mp read
  exact ⟨group, among, same.symm⟩

theorem GroupsOf.length {listed : List Store.Conversation} {groups : List Bytes}
    (same : GroupsOf listed groups) : groups.length = listed.length := by
  have lengths := congrArg List.length same
  rwa [List.length_map, List.length_map, eq_comm] at lengths

/-- Conversations are carried out only if all of their keys can be read. -/
theorem Passed.groups {η : Type} [Store.LocalStore η] {handler : Handler η} {run after : Run η}
    {service : Service} {listed : List Store.Conversation}
    (passed : Passed handler run (conversationTasks service listed) after) :
    ∃ groups, GroupsOf listed groups := by
  induction listed generalizing run with
  | nil => exact ⟨[], rfl⟩
  | cons next rest ih =>
    rw [conversationTasks] at passed
    cases read : Key.decode next.key with
    | error e =>
      rw [read] at passed
      cases passed with
      | cons passed _ => cases passed
    | ok group =>
      rw [read] at passed
      obtain ⟨middle, _, restPassed⟩ := passed_append_iff.mp passed
      obtain ⟨groups, same⟩ := ih restPassed
      exact ⟨group :: groups, by rw [GroupsOf, List.map_cons, read, same]; rfl⟩

theorem conversationTasks_append (service : Service) {first : List Store.Conversation}
    {groups : List Bytes} (readable : GroupsOf first groups) (second : List Store.Conversation) :
    conversationTasks service (first ++ second) =
      conversationTasks service first ++ conversationTasks service second := by
  induction first generalizing groups with
  | nil => rfl
  | cons next rest ih =>
    cases groups with
    | nil => cases readable
    | cons group groups =>
      obtain ⟨read, more⟩ := readable.cons
      rw [List.cons_append, conversationTasks, conversationTasks, read]
      simp only [ih more, List.append_assoc]

/-- The tasks of conversations whose keys can all be read are those of their groups. -/
theorem conversationTasks_of_groups (service : Service) {listed : List Store.Conversation}
    {groups : List Bytes} (same : GroupsOf listed groups) :
    conversationTasks service listed = groups.flatMap (groupTasks service) := by
  induction listed generalizing groups with
  | nil =>
    obtain rfl : groups = [] := by simpa [GroupsOf, eq_comm] using same
    rfl
  | cons next rest ih =>
    cases groups with
    | nil => cases same
    | cons group groups =>
      obtain ⟨read, more⟩ := same.cons
      rw [conversationTasks, read, List.flatMap_cons, ← ih more]

theorem conversationCalls_of_groups (service : Service) {listed : List Store.Conversation}
    {groups : List Bytes} (same : GroupsOf listed groups) :
    conversationCalls service listed = groups.flatMap (groupCalls service) := by
  rw [← calls_conversationTasks, conversationTasks_of_groups service same, List.filterMap_flatMap]
  simp only [calls_groupTasks]

/-- The metadata events that a replay of certain groups hands over. -/
def metadataOf (service : Service) (groups : List Bytes) : List MetadataEvent :=
  (service.logsOf service.home).metadata.entries ++
    (groups.filter (· ≠ service.home)).flatMap fun group =>
      (service.logsOf group).metadata.entries

/-- The messages that a replay of certain groups hands over. -/
def messagesOf (service : Service) (groups : List Bytes) : List MessageEvent :=
  groups.flatMap fun group => (service.logsOf group).messages.entries

private theorem foldl_tally (service : Service) {listed : List Store.Conversation}
    {groups : List Bytes} (same : GroupsOf listed groups) (summary : Summary) :
    listed.foldl (tally service) summary =
      { groups := summary.groups + groups.length
        metadata := summary.metadata + ((groups.filter (· ≠ service.home)).flatMap
          fun group => (service.logsOf group).metadata.entries).length
        messages := summary.messages + (messagesOf service groups).length } := by
  induction listed generalizing groups summary with
  | nil =>
    obtain rfl : groups = [] := by simpa [GroupsOf, eq_comm] using same
    rfl
  | cons next rest ih =>
    cases groups with
    | nil => cases same
    | cons group groups =>
      obtain ⟨read, more⟩ := same.cons
      rw [List.foldl_cons, ih more, tally, read]
      by_cases home : group = service.home <;>
        simp [home, messagesOf, Nat.add_assoc, Nat.add_comm, Nat.add_left_comm]

/-- The totals of a replay count the groups, the metadata events and the messages. -/
theorem totals_of_groups (service : Service) {listed : List Store.Conversation}
    {groups : List Bytes} (same : GroupsOf listed groups) :
    totals service listed =
      { groups := groups.length
        metadata := (metadataOf service groups).length
        messages := (messagesOf service groups).length } := by
  rw [totals, foldl_tally service same, metadataOf, List.length_append]
  simp

/-! ### What a task adds to the observed calls -/

section Observed

variable {η : Type} [Store.LocalStore η] {handler : Handler η} {run after : Run η} {task : Task}
  {result : Except (Halt Error) Unit}

/-- What is observed of a task, if the handler's and the store's calls are or are not, and the task
succeeds or not. -/
def Task.seen (handlerRecorded storeRecorded ok : Bool) (task : Task) : List Call :=
  match task with
  | account _ | conversations => if storeRecorded then task.call?.toList else []
  | applyMetadata _ _ | applyMessage _ _ =>
    if handlerRecorded && ok then task.call?.toList else []
  | _ => task.call?.toList

@[simp] theorem Task.seen_ok (task : Task) : task.seen true true true = task.call?.toList := by
  cases task <;> rfl

@[simp] theorem Task.seen_failed (task : Task) :
    task.seen true true false = task.attempt?.toList := by
  cases task <;> rfl

private theorem isOk_mapError {ε ε' α : Type} (result : Except ε α) (convert : ε → ε') :
    (result.mapError convert).isOk = result.isOk := by
  cases result <;> rfl

theorem performed_calls (direct : run.link = .direct)
    (ran : (task.perform handler).run run = (result, after)) :
    after.calls = run.calls ++
      task.seen handler.recorded (Store.LocalStore.recorded run.site) result.isOk := by
  cases task with
  | configuration =>
    rw [Task.configuration_run direct] at ran
    cases ran
    rfl
  | account home =>
    rw [Task.account_run (Prod.eta _).symm] at ran
    cases ran
    rfl
  | conversations =>
    rw [Task.conversations_run (Prod.eta _).symm] at ran
    cases ran
    rfl
  | unreadable key e =>
    cases ran
    simp [Task.seen, Task.call?]
  | activate group =>
    rw [Task.activate_run direct] at ran
    cases ran
    rfl
  | openMetadata group =>
    rw [Task.openMetadata_run direct] at ran
    split at ran <;> cases ran <;> rfl
  | applyMetadata group event =>
    rw [Task.applyMetadata_run (Prod.eta _).symm] at ran
    split at ran <;> cases ran
    · simp [Task.seen, Except.isOk, Except.toBool]
    · rw [Task.seen, isOk_mapError]
      rfl
  | closeMetadata group logEnd =>
    rw [Task.closeMetadata_run] at ran
    cases logEnd <;> split at ran <;> cases ran <;> simp [Task.seen, Task.call?]
  | openMessages group =>
    rw [Task.openMessages_run direct] at ran
    split at ran <;> cases ran <;> rfl
  | applyMessage group event =>
    cases decoded : Message.decode (α := AppMessage) event.message with
    | error e =>
      rw [Task.applyMessage_undecodable decoded] at ran
      split at ran <;> cases ran <;> simp [Task.seen, Except.isOk, Except.toBool]
    | ok message =>
      rw [Task.applyMessage_run decoded (Prod.eta _).symm] at ran
      split at ran <;> cases ran
      · simp [Task.seen, Except.isOk, Except.toBool]
      · rw [Task.seen, isOk_mapError]
        rfl
  | closeMessages group logEnd =>
    rw [Task.closeMessages_run] at ran
    cases logEnd <;> split at ran <;> cases ran <;> simp [Task.seen, Task.call?]
  | deactivate group =>
    rw [Task.deactivate_run direct] at ran
    cases ran
    rfl

end Observed

end Replay

end GroupReplay
