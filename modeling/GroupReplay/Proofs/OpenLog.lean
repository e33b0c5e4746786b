import GroupReplay.Proofs.Holding
import GroupReplay.Proofs.Plan
import Mathlib.Data.List.Induction

/-!
Which log is being drained while a replay's tasks are carried out.  An entry is handed over out of
the log that was opened last, and what comes next reads the same log: another entry or the log's
end.  Whatever reads a log looks at the token first, so that under a cancelled token it fails and
does nothing else.
-/

namespace GroupReplay

open Wire Service Projection

/-- A call that hands an event to a handler. -/
def Call.Applies : Call → Prop
  | applyMetadata _ _ | applyMessage _ _ => True
  | _ => False

namespace Replay

/-- One of the two logs of a group. -/
inductive GroupLog where
  | metadata (group : Bytes)
  | messages (group : Bytes)
  deriving DecidableEq

namespace GroupLog

def group : GroupLog → Bytes
  | metadata group | messages group => group

/-- The call that opens a log. -/
def call : GroupLog → Call
  | metadata group => .listMetadata (Key.encode group)
  | messages group => .listMessages (Key.encode group)

/-- The task that opens a log. -/
def opening : GroupLog → Task
  | metadata group => .openMetadata group
  | messages group => .openMessages group

/-- How the drain of a log that failed is reported. -/
def error : GroupLog → DrainError → Error
  | metadata group => .metadata (Key.encode group)
  | messages group => Error.ofMessages group

end GroupLog

namespace Task

/-- The log that a task reads from: it hands an entry over or meets the end. -/
def reads? : Task → Option GroupLog
  | applyMetadata group _ | closeMetadata group _ => some (.metadata group)
  | applyMessage group _ | closeMessages group _ => some (.messages group)
  | _ => none

/-- The log that is open after a task. -/
def leaves? : Task → Option GroupLog
  | openMetadata group | applyMetadata group _ => some (.metadata group)
  | openMessages group | applyMessage group _ => some (.messages group)
  | _ => none

/-- A task that hands an entry of a log over. -/
structure EntryOf (log : GroupLog) (task : Task) : Prop where
  reads : task.reads? = some log
  leaves : task.leaves? = some log

/-- A task that meets the end of a log that breaks off. -/
def Breaks : Task → Prop
  | closeMetadata _ (.failAfter _) | closeMessages _ (.failAfter _) => True
  | _ => False

variable {log : GroupLog} {task : Task}

theorem stays_of_reads (reads : task.reads? = some log) : task.Stays := by
  cases task <;> trivial

/-- After a task a log is open if the task opened it or handed an entry of it over. -/
theorem leaves_cases (leaves : task.leaves? = some log) :
    task = log.opening ∨ task.EntryOf log := by
  cases task with
  | openMetadata | openMessages => cases leaves; exact .inl rfl
  | applyMetadata | applyMessage => exact .inr ⟨leaves, leaves⟩
  | _ => cases leaves

theorem seen_opening (log : GroupLog) (handlerRecorded storeRecorded ok : Bool) :
    log.opening.seen handlerRecorded storeRecorded ok = [log.call] := by
  cases log <;> rfl

theorem EntryOf.seen_applies (entry : task.EntryOf log)
    {handlerRecorded storeRecorded ok : Bool} :
    ∀ call ∈ task.seen handlerRecorded storeRecorded ok, call.Applies := by
  cases task with
  | applyMetadata | applyMessage =>
    intro call among
    rw [seen] at among
    split at among
    · obtain rfl := List.mem_singleton.mp among
      trivial
    · cases among
  | closeMetadata | closeMessages => cases entry.leaves
  | _ => cases entry.reads

end Task

/-! ### Tasks in the order of their logs -/

/-- Every task reads from the log that the one before it left open, and opens none while one is;
what stands behind a log that breaks off does not matter. -/
def InLogOrder : Option GroupLog → List Task → Prop
  | log, [] => log = none
  | log, task :: rest => task.reads? = log ∧ (task.Breaks ∨ InLogOrder task.leaves? rest)

theorem InLogOrder.append {log : Option GroupLog} {first second : List Task}
    (ordered : InLogOrder log first) (more : InLogOrder none second) :
    InLogOrder log (first ++ second) := by
  induction first generalizing log with
  | nil => rwa [show log = none from ordered]
  | cons task rest ih => exact ⟨ordered.1, ordered.2.imp_right ih⟩

section Logs

variable {α : Type} {apply : α → Task} {close : LogEnd → Task} {log : GroupLog}

private theorem inLogOrder_entries (entries : ∀ entry, (apply entry).EntryOf log)
    {behind : List Task} (ordered : InLogOrder (some log) behind) (delivered : List α) :
    InLogOrder (some log) (delivered.map apply ++ behind) := by
  induction delivered with
  | nil => exact ordered
  | cons entry rest ih =>
    refine ⟨(entries entry).reads, .inr ?_⟩
    rw [(entries entry).leaves]
    exact ih

private theorem inLogOrder_logTasks (entries : ∀ entry, (apply entry).EntryOf log)
    (ended : ∀ logEnd, (close logEnd).reads? = some log ∧ (close logEnd).leaves? = none)
    (breaks : ∀ count, (close (.failAfter count)).Breaks) (source : Log α) :
    InLogOrder (some log) (logTasks apply close source) := by
  have closed : (close source.logEnd).Breaks ∨ InLogOrder (close source.logEnd).leaves?
      ((source.entries.drop source.listing.entries.length).map apply) := by
    by_cases broken : ∃ count, source.logEnd = .failAfter count
    · obtain ⟨count, broken⟩ := broken
      rw [broken]
      exact .inl (breaks count)
    · have whole := Log.listing_entries_of_whole fun count ends => broken ⟨count, ends⟩
      rw [whole, List.drop_length, (ended _).2]
      exact .inr rfl
  have behind : InLogOrder (some log) (close source.logEnd ::
      (source.entries.drop source.listing.entries.length).map apply) := ⟨(ended _).1, closed⟩
  exact inLogOrder_entries entries behind _

end Logs

variable {service : Service}

theorem inLogOrder_metadataTasks (service : Service) (group : Bytes) :
    InLogOrder none (metadataTasks service group) :=
  ⟨rfl, .inr <|
    inLogOrder_logTasks (fun _ => ⟨rfl, rfl⟩) (fun _ => ⟨rfl, rfl⟩) (fun _ => by trivial) _⟩

theorem inLogOrder_messageTasks (service : Service) (group : Bytes) :
    InLogOrder none (messageTasks service group) :=
  ⟨rfl, .inr <|
    inLogOrder_logTasks (fun _ => ⟨rfl, rfl⟩) (fun _ => ⟨rfl, rfl⟩) (fun _ => by trivial) _⟩

theorem inLogOrder_groupTasks (service : Service) (group : Bytes) :
    InLogOrder none (groupTasks service group) := by
  have messages := inLogOrder_messageTasks service group
  rw [groupTasks]
  split
  · exact messages
  · have both := (inLogOrder_metadataTasks service group).append messages
    exact ⟨rfl, .inr (both.append ⟨rfl, .inr rfl⟩)⟩

theorem inLogOrder_conversationTasks (service : Service) (listed : List Store.Conversation) :
    InLogOrder none (conversationTasks service listed) := by
  induction listed with
  | nil => rfl
  | cons next rest ih =>
    rw [conversationTasks]
    cases Key.decode next.key with
    | error e => exact ⟨rfl, .inr rfl⟩
    | ok group => exact (inLogOrder_groupTasks service group).append ih

theorem inLogOrder_openingTasks (service : Service) : InLogOrder none (openingTasks service) :=
  ⟨rfl, .inr ⟨rfl, .inr (inLogOrder_metadataTasks service service.home)⟩⟩

/-- The tasks of a replay are in the order of their logs. -/
theorem inLogOrder_tasks (service : Service) (listed : List Store.Conversation) :
    InLogOrder none (tasks service listed) :=
  (inLogOrder_openingTasks service).append ⟨rfl, .inr (inLogOrder_conversationTasks service listed)⟩

/-! ### Along the tasks that were carried out -/

section Steps

variable {η : Type} [Store.LocalStore η] {handler : Handler η} {run after : Run η} {task : Task}
  {log : GroupLog}

/-- Under a cancelled token a log is not read any further. -/
theorem reads_cancelled (reads : task.reads? = some log) (cancelled : run.token.cancelled = true) :
    (task.perform handler).run run = (.error (.failed (log.error (.listing .cancelled))), run) := by
  cases task with
  | applyMetadata group event =>
    cases reads
    rw [Task.applyMetadata_run (Prod.eta _).symm, if_pos cancelled]
    rfl
  | closeMetadata group logEnd =>
    cases reads
    rw [Task.closeMetadata_run, if_pos cancelled]
    rfl
  | applyMessage group event =>
    cases reads
    cases decoded : Message.decode (α := AppMessage) event.message with
    | error e =>
      rw [Task.applyMessage_undecodable decoded, if_pos cancelled]
      rfl
    | ok message =>
      rw [Task.applyMessage_run decoded (Prod.eta _).symm, if_pos cancelled]
      rfl
  | closeMessages group logEnd =>
    cases reads
    rw [Task.closeMessages_run, if_pos cancelled]
    rfl
  | _ => cases reads

/-- So that whoever is about to read one stops there and releases the group that is held. -/
theorem carryOut_reads_cancelled (direct : run.link = .direct) (reads : task.reads? = some log)
    (cancelled : run.token.cancelled = true) (held : Option Bytes) (rest : List Task) :
    (carryOut handler held (task :: rest)).run run =
      (.error (.failed (log.error (.listing .cancelled))), run.freed held) := by
  rw [carryOut_cons_run direct, reads_cancelled reads cancelled,
    (Task.stays_of_reads reads).freed]

/-- Only whoever reads a log may wait for ever. -/
theorem reads_of_waiting (direct : run.link = .direct)
    (waits : (task.perform handler).run run = (.error .waiting, after)) :
    ∃ log, task.reads? = some log := by
  have failing {ε α : Type} {answer : Except ε α} {report : ε → Error} :
      (answer.map fun _ => ()).mapError (fun e => Halt.failed (report e)) ≠ .error .waiting := by
    cases answer <;> exact nofun
  have failed {ε : Type} {answer : Except ε Unit} {report : ε → Error} :
      answer.mapError (fun e => Halt.failed (report e)) ≠ .error .waiting := by
    cases answer <;> exact nofun
  cases task with
  | configuration =>
    rw [Task.configuration_run direct] at waits
    exact absurd (congrArg Prod.fst waits) failing
  | account home =>
    rw [Task.account_run (Prod.eta _).symm] at waits
    exact absurd (congrArg Prod.fst waits) failing
  | conversations =>
    rw [Task.conversations_run (Prod.eta _).symm] at waits
    exact absurd (congrArg Prod.fst waits) failing
  | unreadable key e => cases waits
  | activate group =>
    rw [Task.activate_run direct] at waits
    exact absurd (congrArg Prod.fst waits) failed
  | openMetadata group =>
    rw [Task.openMetadata_run direct] at waits
    split at waits <;> cases waits
  | openMessages group =>
    rw [Task.openMessages_run direct] at waits
    split at waits <;> cases waits
  | deactivate group =>
    rw [Task.deactivate_run direct] at waits
    exact absurd (congrArg Prod.fst waits) failed
  | _ => exact ⟨_, rfl⟩

/-- No replay gets past the end of a log that breaks off. -/
private theorem not_breaks (passed : (task.perform handler).run run = (.ok (), after)) :
    ¬ task.Breaks := by
  intro breaks
  cases task with
  | closeMetadata group logEnd =>
    cases logEnd with
    | failAfter count =>
      rw [Task.closeMetadata_run] at passed
      split at passed <;> cases passed
    | _ => exact breaks
  | closeMessages group logEnd =>
    cases logEnd with
    | failAfter count =>
      rw [Task.closeMessages_run] at passed
      split at passed <;> cases passed
    | _ => exact breaks
  | _ => exact breaks

/-- The log that is open once tasks are done. -/
def openAfter (log : Option GroupLog) (done : List Task) : Option GroupLog :=
  done.foldl (fun _ task => task.leaves?) log

/-- What comes after tasks that were carried out goes on with the log that they left open. -/
theorem Passed.inLogOrder {opened : Option GroupLog} {done rest : List Task}
    (passed : Passed handler run done after) (ordered : InLogOrder opened (done ++ rest)) :
    InLogOrder (openAfter opened done) rest := by
  induction passed generalizing opened with
  | nil => exact ordered
  | cons passed _ ih => exact ih (ordered.2.resolve_left (not_breaks passed))

/-- A log that is open was opened, and since then only entries of it were handed over. -/
theorem Passed.opened {done rest : List Task} (passed : Passed handler run done after)
    (ordered : InLogOrder none (done ++ rest)) (isOpen : openAfter none done = some log) :
    ∃ before inside, done = before ++ log.opening :: inside ∧
      ∀ task ∈ inside, task.EntryOf log := by
  -- From the end, since the last task decides what is open.
  induction done using List.reverseRecOn generalizing after rest with
  | nil => cases isOpen
  | append_singleton earlier task ih =>
    obtain ⟨middle, passedEarlier, _⟩ := passed_append_iff.mp passed
    rw [List.append_assoc] at ordered
    have here := (passedEarlier.inLogOrder ordered).1
    have leaves : task.leaves? = some log := by rwa [openAfter, List.foldl_concat] at isOpen
    obtain rfl | entry := Task.leaves_cases leaves
    · exact ⟨earlier, [], rfl, nofun⟩
    · rw [entry.reads] at here
      obtain ⟨before, inside, rfl, entries⟩ := ih passedEarlier ordered here.symm
      refine ⟨before, inside ++ [task], by simp, ?_⟩
      exact List.forall_mem_append.mpr ⟨entries, List.forall_mem_singleton.mpr entry⟩

theorem Passed.calls_more {done : List Task} (passed : Passed handler run done after)
    (direct : run.link = .direct) : ∃ more, after.calls = run.calls ++ more := by
  induction passed with
  | nil => exact ⟨[], by simp⟩
  | cons passed _ ih =>
    obtain ⟨more, calls⟩ := ih (performed_link direct passed)
    exact ⟨_, by rw [calls, performed_calls direct passed, List.append_assoc]⟩

/-- Handing an entry of a log over is observed as nothing but that. -/
theorem entry_calls {result : Except (Halt Error) Unit} (direct : run.link = .direct)
    (entry : task.EntryOf log) (ran : (task.perform handler).run run = (result, after)) :
    ∃ seen, after.calls = run.calls ++ seen ∧ ∀ call ∈ seen, call.Applies :=
  ⟨_, performed_calls direct ran, entry.seen_applies⟩

theorem Passed.entries_calls {inside : List Task} (passed : Passed handler run inside after)
    (direct : run.link = .direct) (entries : ∀ task ∈ inside, task.EntryOf log) :
    ∃ seen, after.calls = run.calls ++ seen ∧ ∀ call ∈ seen, call.Applies := by
  induction passed with
  | nil => exact ⟨[], by simp, nofun⟩
  | cons passed _ ih =>
    obtain ⟨entry, others⟩ := List.forall_mem_cons.mp entries
    obtain ⟨first, one, applies⟩ := entry_calls direct entry passed
    obtain ⟨seen, calls, more⟩ := ih (performed_link direct passed) others
    refine ⟨first ++ seen, by rw [calls, one, List.append_assoc], ?_⟩
    exact List.forall_mem_append.mpr ⟨applies, more⟩

/-- While a log is open, its listing is the last call but for entries that were handed over. -/
theorem Passed.open_calls {done rest : List Task} (passed : Passed handler run done after)
    (direct : run.link = .direct) (ordered : InLogOrder none (done ++ rest))
    (isOpen : openAfter none done = some log) :
    ∃ before inside, after.calls = run.calls ++ before ++ log.call :: inside ∧
      ∀ call ∈ inside, call.Applies := by
  obtain ⟨earlier, entries, rfl, areEntries⟩ := passed.opened ordered isOpen
  obtain ⟨middle, passedEarlier, _ | ⟨opened, passedEntries⟩⟩ := passed_append_iff.mp passed
  have middleDirect := passedEarlier.link direct
  obtain ⟨before, calls⟩ := passedEarlier.calls_more direct
  obtain ⟨inside, more, applies⟩ :=
    passedEntries.entries_calls (performed_link middleDirect opened) areEntries
  refine ⟨before, inside, ?_, applies⟩
  rw [more, performed_calls middleDirect opened, calls, Task.seen_opening]
  simp

/-- Of tasks in order none takes home. -/
private theorem held_foreign {home : Bytes} {held : Option Bytes} {done : List Task}
    (orderly : Orderly home held done) (foreign : held ≠ some home) :
    heldAfter held done ≠ some home := by
  induction done generalizing held with
  | nil => exact foreign
  | cons task rest ih =>
    refine ih orderly.2 ?_
    cases task with
    | activate group => exact fun same => orderly.1.2 (Option.some.inj same)
    | deactivate group => exact nofun
    | _ => exact foreign

/-- While a log is open its group is held, unless it is home, and then none is. -/
theorem Passed.open_held {home : Bytes} {done rest : List Task}
    (passed : Passed handler run done after) (ordered : InLogOrder none (done ++ rest))
    (isOpen : openAfter none done = some log) (orderly : Orderly home none done) :
    heldAfter none done = if log.group = home then none else some log.group := by
  have foreign := held_foreign orderly nofun
  obtain ⟨before, entries, rfl, areEntries⟩ := passed.opened ordered isOpen
  have stay : ∀ task ∈ log.opening :: entries, task.Stays :=
    List.forall_mem_cons.mpr ⟨by cases log <;> trivial, fun task member =>
      Task.stays_of_reads (areEntries task member).reads⟩
  obtain ⟨_, fits, _⟩ := orderly_append_iff.mp orderly
  have listable : Listable home (heldAfter none before) log.group := by cases log <;> exact fits
  rw [heldAfter_append, heldAfter_of_stays stay] at foreign ⊢
  obtain held | ⟨held, isHome⟩ := listable
  · have differs : log.group ≠ home := fun isHome => foreign (isHome ▸ held)
    rw [held, if_neg differs]
  · rw [held, if_pos isHome]

end Steps

end Replay

end GroupReplay
