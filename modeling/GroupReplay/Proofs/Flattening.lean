import GroupReplay.Proofs.CarryOut

/-!
The nested loops of a replay come to the flat list of its tasks.  Cleaning up around a group's two
logs is handed down to each of their tasks, the entries that a log keeps back stand behind an end
that fails, and the conversations after one whose key cannot be read are cut off.
-/

namespace GroupReplay

open Wire Service Projection

namespace Replay

variable {η α : Type} [Store.LocalStore η] {handler : Handler η} {run : Run η} {service : Service}

@[simp] theorem Task.freed_none (task : Task) : task.freed none = none := by
  cases task <;> rfl

omit [Store.LocalStore η] in
private theorem free_none : (free none : Action (Run η) Error Unit) = pure () := rfl

theorem carryOut_append (held : Option Bytes) (first second : List Task) :
    carryOut handler held (first ++ second) =
      carryOut handler held first >>= fun _ => carryOut handler (heldAfter held first) second := by
  induction first generalizing held with
  | nil => rfl
  | cons task rest ih =>
    rw [List.cons_append, carryOut, carryOut, bind_assoc]
    exact congrArg _ (funext fun _ => ih _)

/-- Releasing a group when any of some tasks fails is releasing it when all of them, as a block,
fail. -/
theorem carryOut_of_stays {block : List Task} (stay : ∀ task ∈ block, task.Stays)
    (held : Option Bytes) :
    carryOut handler held block = (carryOut handler none block).cleaningUp (free held) := by
  induction block with
  | nil => rfl
  | cons task rest ih =>
    have stays := stay task (by simp)
    have restStays := ih fun task member => stay task (by simp [member])
    rw [carryOut, carryOut, stays.holding, stays.holding, stays.freed, stays.freed, restStays,
      Action.cleaningUp_bind, free_none, Action.cleaningUp_nothing]

theorem heldAfter_of_stays {block : List Task} (stay : ∀ task ∈ block, task.Stays)
    (held : Option Bytes) : heldAfter held block = held := by
  induction block with
  | nil => rfl
  | cons task rest ih =>
    rw [heldAfter, List.foldl_cons, (stay task (by simp)).holding]
    exact ih fun task member => stay task (by simp [member])

/-! ### The two logs of a group -/

section Logs

variable {convert : DrainError → Error} {hand : α → Action (Run η) DrainError Unit}
  {apply : α → Task} {close : LogEnd → Task}

/-- The tasks do to a log what a drain does, and report errors in their own way. -/
structure Drains (handler : Handler η) (convert : DrainError → Error)
    (hand : α → Action (Run η) DrainError Unit) (apply : α → Task) (close : LogEnd → Task) :
    Prop where
  entry : ∀ entry, (apply entry).perform handler = .mapError (.map convert) (handEntry (hand entry))
  logEnd : ∀ logEnd,
    (close logEnd).perform handler = .mapError (.map convert) (closeLog logEnd.ending)
  entryStays : ∀ entry, (apply entry).Stays
  endStays : ∀ logEnd, (close logEnd).Stays

private theorem carry_out_one (task : Task) (stays : task.Stays) (rest : List Task) :
    carryOut handler none (task :: rest) =
      task.perform handler >>= fun _ => carryOut handler none rest := by
  rw [carryOut, stays.holding, stays.freed, free_none, Action.cleaningUp_nothing]

private theorem drain_entries_eq (drains : Drains handler convert hand apply close)
    (logEnd : LogEnd) (entries : List α) :
    Action.mapError (.map convert) (drainEntries hand logEnd.ending entries) =
      carryOut handler none (entries.map apply) >>= fun _ =>
        (close logEnd).perform handler >>= fun _ => pure entries.length := by
  induction entries with
  | nil =>
    rw [drains.logEnd]
    change _ = Action.mapError _ (checkToken >>= fun _ => atEnd logEnd.ending) >>= _
    simp only [drainEntries, Action.mapError_bind, bind_assoc]
    rfl
  | cons entry rest ih =>
    rw [List.map_cons, carry_out_one _ (drains.entryStays entry), drains.entry]
    simp only [drainEntries, handEntry, Action.mapError_bind, ih, bind_assoc]
    rfl

private theorem fails_never_ok (drains : Drains handler convert hand apply close) (count : Nat)
    (state after : Run η) :
    ((close (.failAfter count)).perform handler).run state ≠ (.ok (), after) := by
  rw [drains.logEnd]
  simp only [closeLog, Action.mapError, Action.run_bind, checkToken]
  cases state.token.cancelled <;> simp [atEnd, LogEnd.ending]

/-- Handing a listed log over is carrying the log's tasks out. -/
theorem Drains.entries_eq (drains : Drains handler convert hand apply close) (log : Log α) :
    Action.mapError (.map convert) (drainEntries hand log.listing.ending log.listing.entries) =
      carryOut handler none (logTasks apply close log) >>= fun _ => pure log.entries.length := by
  have stay : ∀ task ∈ log.listing.entries.map apply, task.Stays := by
    intro task member
    obtain ⟨entry, _, rfl⟩ := List.mem_map.mp member
    exact drains.entryStays entry
  rw [Log.listing_ending, drain_entries_eq drains, logTasks, carryOut_append,
    heldAfter_of_stays stay, carry_out_one _ (drains.endStays _)]
  simp only [bind_assoc]
  refine congrArg _ (funext fun _ => ?_)
  by_cases broken : ∃ count, log.logEnd = .failAfter count
  · obtain ⟨count, ended⟩ := broken
    rw [ended]
    exact Action.bind_of_never_ok (fun state _ after => fails_never_ok drains count state after) _ _
  · have whole := Log.listing_entries_of_whole fun count ended => broken ⟨count, ended⟩
    simp only [whole, List.drop_length, List.map_nil]
    rfl

/-- A drain opens the log and carries its tasks out. -/
theorem Drains.drain_run (drains : Drains handler convert hand apply close) {log : Log α}
    {openListing : Action (Run η) Service.Error (Listing α)}
    {answer : Except Service.Error (Listing α)} {after : Run η}
    (opened : openListing.run run = (answer, after))
    (listed : ∀ listing, answer = .ok listing → listing = log.listing) :
    (Action.mapError (.map convert) (drain openListing hand)).run run =
      match answer with
      | .ok _ =>
        (carryOut handler none (logTasks apply close log) >>= fun _ =>
          pure log.entries.length).run after.listed
      | .error e => (.error (.failed (convert (.listing e))), after) := by
  cases answer with
  | error e => simp only [drain, Action.run_bind, Action.mapError, opened, Halt.map]
  | ok listing =>
    rw [← drains.entries_eq, listed listing rfl]
    simp only [drain, Action.run_bind, Action.mapError, opened, listed listing rfl]
    rfl

end Logs

private theorem metadata_drains (group : Bytes) :
    Drains handler (.metadata (Key.encode group))
      (fun event => .mapError .handler (Replay.applyMetadata handler event))
      (.applyMetadata group) (.closeMetadata group) :=
  ⟨fun _ => rfl, fun _ => rfl, fun _ => trivial, fun _ => trivial⟩

private theorem messages_drain (group : Bytes) :
    Drains handler (Error.ofMessages group) (applyEntry handler (Key.encode group))
      (.applyMessage group) (.closeMessages group) :=
  ⟨fun _ => rfl, fun _ => rfl, fun _ => trivial, fun _ => trivial⟩

/-- Replaying a metadata log is carrying its tasks out. -/
theorem metadata_run (direct : run.link = .direct) (alike : run.service.Alike service)
    (group : Bytes) :
    (metadata handler group).run run =
      (carryOut handler none (metadataTasks service group) >>= fun _ =>
        pure (service.logsOf group).metadata.entries.length).run run := by
  rw [metadataTasks, carry_out_one (.openMetadata group) trivial, bind_assoc,
    Action.run_bind, Task.openMetadata_run direct, metadata, drainMetadata,
    (metadata_drains group).drain_run (Client.listMetadata_run direct group)
      fun listing listed => ?_]
  · cases run.service.listMetadata group <;> rfl
  · rw [← alike.logsOf]
    exact (Service.listMetadata_eq_ok_iff.mp (Client.ok_of_reported listed)).2.2

/-- Replaying a message log is carrying its tasks out. -/
theorem messages_run (direct : run.link = .direct) (alike : run.service.Alike service)
    (group : Bytes) :
    (messages handler group).run run =
      (carryOut handler none (messageTasks service group) >>= fun _ =>
        pure (service.logsOf group).messages.entries.length).run run := by
  rw [messageTasks, carry_out_one (.openMessages group) trivial, bind_assoc,
    Action.run_bind, Task.openMessages_run direct, messages, drainMessages,
    (messages_drain group).drain_run (Client.listMessages_run direct group)
      fun listing listed => ?_]
  · cases run.service.listMessages group <;> rfl
  · rw [← alike.logsOf]
    exact (Service.listMessages_eq_ok_iff.mp (Client.ok_of_reported listed)).2.2

/-! ### Groups and conversations -/

theorem metadataTasks_stay (service : Service) (group : Bytes) :
    ∀ task ∈ metadataTasks service group, task.Stays :=
  forall_metadataTasks trivial (fun _ _ => trivial) trivial

theorem messageTasks_stay (service : Service) (group : Bytes) :
    ∀ task ∈ messageTasks service group, task.Stays :=
  forall_messageTasks trivial (fun _ _ => trivial) trivial

theorem bothTasks_stay (service : Service) (group : Bytes) :
    ∀ task ∈ bothTasks service group, task.Stays :=
  List.forall_mem_append.mpr ⟨metadataTasks_stay service group, messageTasks_stay service group⟩

/-- How many entries the two logs of a group hold. -/
def counts (service : Service) (group : Bytes) : Nat × Nat :=
  ((service.logsOf group).metadata.entries.length, (service.logsOf group).messages.entries.length)

/-- Replaying both logs of a group is carrying their tasks out. -/
theorem bothLogs_run (handler : Handler η) (direct : run.link = .direct)
    (alike : run.service.Alike service) (group : Bytes) :
    (bothLogs handler group).run run =
      (carryOut handler none (bothTasks service group) >>= fun _ =>
        pure (counts service group)).run run := by
  rw [bothTasks, carryOut_append, heldAfter_of_stays (metadataTasks_stay service group), bothLogs,
    Action.run_bind, metadata_run direct alike, ← Action.run_bind, bind_assoc, bind_assoc]
  refine Action.run_bind_congr rfl fun _ middle ran => ?_
  have passed := passed_of_carryOut direct ran
  rw [pure_bind, Action.run_bind, messages_run (passed.link direct) (passed.alike direct alike),
    ← Action.run_bind, bind_assoc]
  rfl

/-- Giving a group back is not cleaned up after. -/
private theorem carry_out_last (held : Option Bytes) (group : Bytes) :
    carryOut handler held [.deactivate group] = Action.mapError .failed (deactivate group) := by
  rw [carryOut, Task.freed, free_none, Action.cleaningUp_nothing]
  exact Action.bind_pure_self _

/-- Replaying a group that is not home is carrying its tasks out. -/
theorem foreign_run (direct : run.link = .direct) (alike : run.service.Alike service)
    {group : Bytes} (foreign : group ≠ service.home) :
    (do
      .mapError .failed (activate group)
      let counts ← (bothLogs handler group).cleaningUp (release group)
      .mapError .failed (deactivate group)
      return counts : Action (Run η) (Halt Error) (Nat × Nat)).run run =
      (carryOut handler none (groupTasks service group) >>= fun _ =>
        pure (counts service group)).run run := by
  have stay := bothTasks_stay service group
  rw [groupTasks, if_neg foreign, carryOut, Task.freed_none, free_none, Action.cleaningUp_nothing,
    Task.holding, bind_assoc]
  refine Action.run_bind_congr rfl fun _ active activated => ?_
  have bothRun := bothLogs_run handler (performed_link direct activated)
    (performed_alike direct alike activated) group
  rw [carryOut_append, heldAfter_of_stays stay, carryOut_of_stays stay, carry_out_last,
    Action.run_bind, Action.cleaningUp_run_congr bothRun, ← Action.run_bind,
    Action.cleaningUp_bind, bind_assoc, bind_assoc]
  rfl

/-- Replaying a conversation whose key can be read is carrying its group's tasks out. -/
theorem conversation_run (direct : run.link = .direct) (alike : run.service.Alike service)
    {next : Store.Conversation} {group : Bytes} (read : Key.decode next.key = .ok group) :
    (conversation handler service.home next).run run =
      (carryOut handler none (groupTasks service group) >>= fun _ =>
        pure (if group = service.home then 0 else (counts service group).1,
          (counts service group).2)).run run := by
  simp only [conversation, read]
  split
  · next home =>
    rw [Action.run_bind, messages_run direct alike, ← Action.run_bind, bind_assoc, groupTasks,
      if_pos home]
    rfl
  · next foreign => exact foreign_run direct alike foreign

theorem heldAfter_groupTasks (service : Service) (group : Bytes) :
    heldAfter none (groupTasks service group) = none := by
  rw [groupTasks]
  split
  · exact heldAfter_of_stays (messageTasks_stay service group) none
  · rw [heldAfter, List.foldl_cons, List.foldl_append]
    rfl

/-- Replaying conversations is carrying their tasks out. -/
theorem conversations_run (direct : run.link = .direct) (alike : run.service.Alike service)
    (summary : Summary) (listed : List Store.Conversation) :
    (conversations handler service.home summary listed).run run =
      (carryOut handler none (conversationTasks service listed) >>= fun _ =>
        pure (listed.foldl (tally service) summary)).run run := by
  induction listed generalizing run summary with
  | nil => rfl
  | cons next rest ih =>
    rw [conversations]
    cases read : Key.decode next.key with
    | error e =>
      have ends : (conversation handler service.home next : Action (Run η) (Halt Error) _) =
          .fail (.failed (.deserialization next.key (.key e))) := by
        simp only [conversation, read]
      rw [ends, conversationTasks, read]
      rfl
    | ok group =>
      have counted : tally service summary next =
          ⟨summary.groups + 1,
            summary.metadata + if group = service.home then 0 else (counts service group).1,
            summary.messages + (counts service group).2⟩ := by
        rw [tally, read]; rfl
      rw [Action.run_bind, conversation_run direct alike read, ← Action.run_bind, bind_assoc,
        conversationTasks, read]
      dsimp only
      rw [carryOut_append, heldAfter_groupTasks, bind_assoc]
      refine Action.run_bind_congr rfl fun _ middle ran => ?_
      have passed := passed_of_carryOut direct ran
      rw [pure_bind, ih (passed.link direct) (passed.alike direct alike), List.foldl_cons, counted]

/-! ### A whole replay -/

/-- The configuration names the home group. -/
theorem configuration_home {configuration : Configuration}
    (configured : service.configuration = .ok configuration) :
    configuration.homeKey = service.home := by
  unfold Service.configuration at configured
  split at configured <;> cases configured
  rfl

theorem heldAfter_openingTasks (service : Service) :
    heldAfter none (openingTasks service) = none :=
  heldAfter_of_stays (metadataTasks_stay service service.home) none

/-- Draining the home group's metadata log is the last of the opening tasks. -/
private theorem opening_eq {β : Type} (service : Service)
    (next : Unit → Action (Run η) (Halt Error) β) :
    carryOut handler none (openingTasks service) >>= next =
      Task.perform handler .configuration >>= fun _ =>
        Task.perform handler (.account service.home) >>= fun _ =>
          carryOut handler none (metadataTasks service service.home) >>= next := by
  rw [openingTasks, carry_out_one .configuration trivial, carry_out_one (.account _) trivial,
    bind_assoc]
  simp only [bind_assoc]

omit [Store.LocalStore η] in
/-- A value that is not looked at may be dropped before. -/
private theorem bind_dropped {ε β γ : Type} (action : Action (Run η) ε β)
    (next : Unit → Action (Run η) ε γ) :
    (action >>= fun _ => next ()) = (action >>= fun _ => pure ()) >>= next := by
  rw [bind_assoc]
  rfl

private theorem account_then_metadata (direct : run.link = .direct)
    (alike : run.service.Alike service) {β : Type} (next : Nat → Action (Run η) (Halt Error) β) :
    (do
      let _ ← .mapError (fun e => .failed (.storeWrite (Key.encode service.home) e))
        (Store.perform (.ensureAccount (Key.encode service.home) ""))
      let count ← metadata handler service.home
      next count : Action (Run η) (Halt Error) β).run run =
      (Task.perform handler (.account service.home) >>= fun _ =>
        carryOut handler none (metadataTasks service service.home) >>= fun _ =>
          next (counts service service.home).1).run run := by
  rw [bind_dropped _ fun _ => metadata handler service.home >>= next]
  refine Action.run_bind_congr rfl fun _ middle performed => ?_
  rw [Action.run_bind, metadata_run (performed_link direct performed)
    (performed_alike direct alike performed), ← Action.run_bind, bind_assoc]
  rfl

private theorem list_then_conversations (direct : run.link = .direct)
    (alike : run.service.Alike service) (summary : Summary) {listed : List Store.Conversation}
    (lists : ∀ answer site, Store.LocalStore.perform .conversations run.site = (.ok answer, site) →
      answer = listed) :
    (do
      let listed ← .mapError (fun e => .failed (.storeRead e)) (Store.perform .conversations)
      conversations handler service.home summary listed :
        Action (Run η) (Halt Error) Summary).run run =
      (carryOut handler none (.conversations :: conversationTasks service listed) >>= fun _ =>
        pure (listed.foldl (tally service) summary)).run run := by
  rw [carry_out_one .conversations trivial, bind_assoc]
  cases performed : Store.LocalStore.perform .conversations run.site with
  | mk answer site =>
    rw [Action.run_bind, Action.run_bind, Task.conversations_run performed]
    simp only [Action.mapError, store_run performed]
    cases answer with
    | error e => rfl
    | ok answer =>
      rw [← lists answer site performed]
      exact conversations_run (by simpa using direct) (by simpa using alike) _ _

/-- What is listed once the opening tasks were carried out, if they are and the store answers. -/
def Lists (handler : Handler η) (run : Run η) (listed : List Store.Conversation) : Prop :=
  ∀ middle answer site, Passed handler run (openingTasks run.service) middle →
    Store.LocalStore.perform .conversations middle.site = (.ok answer, site) → answer = listed

/-- A replay is the carrying out of its tasks, given what is listed once the opening tasks are
done. -/
theorem replay_carries_out {handlerFor : Bytes → Handler η} (direct : run.link = .direct)
    {listed : List Store.Conversation} (lists : Lists (handlerFor run.service.home) run listed) :
    (replayWith handlerFor).run run =
      (carryOut (handlerFor run.service.home) none (tasks run.service listed) >>= fun _ =>
        pure (totals run.service listed)).run run := by
  rw [tasks, carryOut_append, heldAfter_openingTasks, bind_assoc, opening_eq, replayWith,
    Action.run_bind, Action.run_bind, Task.configuration_run direct, Action.run_mapError,
    Client.configuration_run direct]
  cases configured : run.service.configuration with
  | error status => rfl
  | ok configuration =>
    have asked : (Task.perform (handlerFor run.service.home) .configuration).run run =
        (.ok (), run.answered .configuration run.service) := by
      rw [Task.configuration_run direct, configured]; rfl
    simp only [Client.reported, Action.mapError_ok, Except.map, configuration_home configured]
    have opened : (run.answered .configuration run.service).service.Alike run.service := .refl _
    rw [account_then_metadata (by simpa using direct) opened]
    refine Action.run_bind_congr rfl fun _ ensured accountRan => ?_
    have ensuredDirect := performed_link (by simpa using direct) accountRan
    have ensuredAlike := performed_alike (by simpa using direct) opened accountRan
    refine Action.run_bind_congr rfl fun _ drained metadataRan => ?_
    have drain := passed_of_carryOut ensuredDirect metadataRan
    exact list_then_conversations (drain.link ensuredDirect) (drain.alike ensuredDirect ensuredAlike)
      _ fun answer site => lists drained answer site (.cons asked (.cons accountRan drain))

theorem exists_listed (handler : Handler η) (run : Run η) :
    ∃ listed, Lists handler run listed := by
  by_cases any : ∃ listed middle site, Passed handler run (openingTasks run.service) middle ∧
      Store.LocalStore.perform .conversations middle.site = (.ok listed, site)
  · obtain ⟨listed, middle, site, passed, performed⟩ := any
    refine ⟨listed, fun other answer otherSite otherPassed otherPerformed => ?_⟩
    rw [otherPassed.unique passed, performed] at otherPerformed
    cases otherPerformed
    rfl
  · exact ⟨[], fun middle answer site passed performed =>
      absurd ⟨answer, middle, site, passed, performed⟩ any⟩

/-- A replay either carries all of its tasks out or stops at the first that cannot be. -/
theorem replay_cases {handlerFor : Bytes → Handler η} {listed : List Store.Conversation}
    {result : Except (Halt Error) Summary} {after : Run η} (direct : run.link = .direct)
    (lists : Lists (handlerFor run.service.home) run listed)
    (ran : (replayWith handlerFor).run run = (result, after)) :
    (result = .ok (totals run.service listed) ∧
      Passed (handlerFor run.service.home) run (tasks run.service listed) after) ∨
      ∃ done task rest middle halt stopped,
        tasks run.service listed = done ++ task :: rest ∧
          Passed (handlerFor run.service.home) run done middle ∧
          (task.perform (handlerFor run.service.home)).run middle = (.error halt, stopped) ∧
          result = .error halt ∧
          after = stoppedAt halt (task.freed (heldAfter none done)) stopped := by
  rw [replay_carries_out direct lists, Action.run_bind] at ran
  cases carried : (carryOut (handlerFor run.service.home) none (tasks run.service listed)).run run with
  | mk outcome ended =>
    rw [carried] at ran
    obtain ⟨rfl, passed⟩ | ⟨done, task, rest, middle, halt, stopped, split, passed, failed, rfl, last⟩ :=
      carryOut_cases direct carried
    · cases ran
      exact .inl ⟨rfl, passed⟩
    · cases ran
      exact .inr ⟨done, task, rest, middle, halt, stopped, split, passed, failed, rfl, last⟩

end Replay

end GroupReplay
