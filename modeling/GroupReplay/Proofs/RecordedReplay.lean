import GroupReplay.Projection.Recording
import GroupReplay.Proofs.Holding
import GroupReplay.Proofs.Plan
import GroupReplay.Store.Records
import GroupReplay.Wire.Event
import Mathlib.Control.Monad.Basic

/-!
Replays of a recording handler on a store in memory, where service, store and handler are observed
in one order.  A replay that succeeds is observed as its plan; one that fails is observed as the
plan up to the first task that fails, and gives back the group that is held then.
-/

namespace GroupReplay

open Wire Service Projection

namespace Replay

/-- A run with a store in memory and the notes of a recording handler. -/
abbrev RecordedRun := Run (Desk Store.Records)

def Task.appliesMetadata : Task → Bool
  | applyMetadata _ _ => true
  | _ => false

def Task.appliesMessage : Task → Bool
  | applyMessage _ _ => true
  | _ => false

/-- What of the local side is known after tasks: accounts may have been added, and the handler has
counted what it applied. -/
structure Reached (start : RecordedRun) (done : List Task) (now : RecordedRun) : Prop where
  store : now.site.store = { start.site.store with accounts := now.site.store.accounts }
  refuseMetadata : now.site.recorder.refuseMetadata = start.site.recorder.refuseMetadata
  refuseMessage : now.site.recorder.refuseMessage = start.site.recorder.refuseMessage
  metadataSeen : now.site.recorder.metadataSeen =
    start.site.recorder.metadataSeen + done.countP Task.appliesMetadata
  messagesSeen : now.site.recorder.messagesSeen =
    start.site.recorder.messagesSeen + done.countP Task.appliesMessage

variable {start now after : RecordedRun} {done : List Task} {task : Task}

theorem Reached.initial (start : RecordedRun) : Reached start [] start :=
  ⟨rfl, rfl, rfl, rfl, rfl⟩

private theorem Reached.same_site (reached : Reached start done now) (same : after.site = now.site)
    (metadata : task.appliesMetadata = false) (message : task.appliesMessage = false) :
    Reached start (done ++ [task]) after := by
  obtain ⟨store, refuseMetadata, refuseMessage, metadataSeen, messagesSeen⟩ := reached
  refine ⟨?_, ?_, ?_, ?_, ?_⟩ <;> rw [same]
  · exact store
  · exact refuseMetadata
  · exact refuseMessage
  · simpa [metadata] using metadataSeen
  · simpa [message] using messagesSeen

/-- Ensuring an account adds at most an account. -/
theorem ensureAccount_accounts (key name : String) (records : Store.Records) :
    (records.perform (.ensureAccount key name)).2 =
      { records with accounts := (records.perform (.ensureAccount key name)).2.accounts } := by
  simp only [Store.Records.perform, Store.Records.write, Store.Records.ensureAccount]
  split
  · rfl
  · split <;> rfl

theorem conversations_unchanged (records : Store.Records) :
    (records.perform .conversations).2 = records := by
  simp only [Store.Records.perform]
  split <;> rfl

theorem Reached.step (reached : Reached start done now) (direct : now.link = .direct)
    (ran : (task.perform recording).run now = (.ok (), after)) :
    Reached start (done ++ [task]) after := by
  cases task with
  | configuration =>
    rw [Task.configuration_run direct] at ran
    exact reached.same_site (congrArg (·.2.site) ran).symm rfl rfl
  | account home =>
    rw [Task.account_run (Prod.eta _).symm] at ran
    have site : after.site = { now.site with
        store := (now.site.store.perform (.ensureAccount (Key.encode home) "")).2 } :=
      (congrArg (·.2.site) ran).symm
    refine ⟨?_, ?_, ?_, ?_, ?_⟩ <;> rw [site]
    · simp only []
      rw [ensureAccount_accounts, reached.store]
    · exact reached.refuseMetadata
    · exact reached.refuseMessage
    · simpa [Task.appliesMetadata] using reached.metadataSeen
    · simpa [Task.appliesMessage] using reached.messagesSeen
  | conversations =>
    rw [Task.conversations_run (Prod.eta _).symm] at ran
    have site : after.site = { now.site with
        store := (now.site.store.perform .conversations).2 } := (congrArg (·.2.site) ran).symm
    rw [conversations_unchanged] at site
    exact reached.same_site site rfl rfl
  | unreadable key e => cases ran
  | activate group =>
    rw [Task.activate_run direct] at ran
    exact reached.same_site (congrArg (·.2.site) ran).symm rfl rfl
  | openMetadata group =>
    rw [Task.openMetadata_run direct] at ran
    split at ran
    · exact reached.same_site (congrArg (·.2.site) ran).symm rfl rfl
    · cases ran
  | applyMetadata group event =>
    rw [Task.applyMetadata_run (Prod.eta _).symm] at ran
    simp only [recording, recordMetadata] at ran
    split at ran
    · cases ran
    · split at ran
      · cases ran
      · cases ran
        obtain ⟨store, refuseMetadata, refuseMessage, metadataSeen, messagesSeen⟩ := reached
        refine ⟨store, refuseMetadata, refuseMessage, ?_, ?_⟩
        · simp [metadataSeen, Task.appliesMetadata, Nat.add_assoc]
        · simpa [Task.appliesMessage] using messagesSeen
  | closeMetadata group logEnd =>
    rw [Task.closeMetadata_run] at ran
    cases logEnd <;> split at ran <;> cases ran
    exact reached.same_site rfl rfl rfl
  | openMessages group =>
    rw [Task.openMessages_run direct] at ran
    split at ran
    · exact reached.same_site (congrArg (·.2.site) ran).symm rfl rfl
    · cases ran
  | applyMessage group event =>
    cases decoded : Message.decode (α := AppMessage) event.message with
    | error e =>
      rw [Task.applyMessage_undecodable decoded] at ran
      split at ran <;> cases ran
    | ok message =>
      rw [Task.applyMessage_run decoded (Prod.eta _).symm] at ran
      simp only [recording, recordMessage] at ran
      split at ran
      · cases ran
      · split at ran
        · cases ran
        · cases ran
          obtain ⟨store, refuseMetadata, refuseMessage, metadataSeen, messagesSeen⟩ := reached
          refine ⟨store, refuseMetadata, refuseMessage, ?_, ?_⟩
          · simpa [Task.appliesMetadata] using metadataSeen
          · simp [messagesSeen, Task.appliesMessage, Nat.add_assoc]
  | closeMessages group logEnd =>
    rw [Task.closeMessages_run] at ran
    cases logEnd <;> split at ran <;> cases ran
    exact reached.same_site rfl rfl rfl
  | deactivate group =>
    rw [Task.deactivate_run direct] at ran
    exact reached.same_site (congrArg (·.2.site) ran).symm rfl rfl

theorem Passed.reached {middle : RecordedRun} {earlier : List Task}
    (passed : Passed recording middle done now) (direct : middle.link = .direct)
    (reached : Reached start earlier middle) : Reached start (earlier ++ done) now := by
  induction passed generalizing earlier with
  | nil => simpa using reached
  | cons passed _ ih =>
    simpa using ih (performed_link direct passed) (reached.step direct passed)

/-- What the store lists is what it held from the start. -/
theorem recorded_lists (direct : start.link = .direct) :
    Lists recording start start.site.store.conversations := by
  intro middle answer site passed performed
  have reached := passed.reached direct (.initial start)
  have listed : (middle.site.store.perform .conversations).1 = .ok answer :=
    congrArg Prod.fst performed
  rw [reached.store] at listed
  simp only [Store.Records.perform] at listed
  split at listed
  · cases listed
  · cases listed; rfl

theorem Reached.recorded (reached : Reached start done now) :
    now.site.store.recorded = start.site.store.recorded := by
  rw [reached.store]

/-- Tasks that are carried out are observed, one call each. -/
theorem Passed.calls (passed : Passed recording start done now) (direct : start.link = .direct)
    (recorded : start.site.store.recorded = true) :
    now.calls = start.calls ++ done.filterMap Task.call? := by
  induction passed with
  | nil => simp
  | @cons start middle now task rest passed _ ih =>
    have observed : Store.LocalStore.recorded start.site = true := recorded
    have reached := (Reached.initial start).step direct passed
    have seen : middle.calls = start.calls ++ task.call?.toList := by
      rw [performed_calls direct passed, observed]
      exact congrArg _ task.seen_ok
    rw [ih (performed_link direct passed) (reached.recorded.trans recorded), seen]
    cases called : task.call? <;> simp [called]

/-- A replay that succeeds makes exactly these calls, and its totals count the conversations and the
events that were handed over. -/
theorem successful_replay_trace {run after : RecordedRun} {summary : Summary}
    (direct : run.link = .direct) (recorded : run.site.store.recorded = true)
    (succeeded : (replay recording).run run = (.ok summary, after)) :
    ∃ groups, GroupsOf run.site.store.conversations groups ∧
      after.calls = run.calls ++
        ([.configuration, .ensureAccount (Key.encode run.service.home)] ++
          metadataCalls run.service run.service.home ++ [.conversations] ++
          groups.flatMap (groupCalls run.service)) ∧
      summary =
        { groups := groups.length
          metadata := (metadataOf run.service groups).length
          messages := (messagesOf run.service groups).length } := by
  obtain ⟨counted, passed⟩ | ⟨_, _, _, _, _, _, _, _, _, failed, _⟩ :=
    replay_cases direct (recorded_lists direct) succeeded
  · have calls := passed.calls direct recorded
    obtain ⟨opened, openingPassed, more⟩ := passed_append_iff.mp passed
    cases more with
    | cons _ conversationsPassed =>
      obtain ⟨groups, same⟩ := conversationsPassed.groups
      refine ⟨groups, same, ?_, ?_⟩
      · rw [calls, calls_tasks, plan, conversationCalls_of_groups _ same]
        simp [openingCalls]
      · rw [Except.ok.inj counted, totals_of_groups _ same]
  · cases failed

/-- A service with events in the logs of its home group and of another one. -/
def twoGroups : Service where
  home := [1]
  logs :=
    [([1], { metadata := { entries := [.of [1] [10] 1 ({} : DeviceAdded)] }
             messages := { entries := [.carrying [1] [11] [9] []] } }),
     ([2], { metadata := { entries := [.of [2] [12] 1 ({} : DeviceAdded)] }
             messages := { entries := [.carrying [2] [13] [9] [], .carrying [2] [14] [9] []] } })]

/-- A recorded run on a store that has both groups of `twoGroups` for conversations. -/
def twoConversations : RecordedRun where
  service := twoGroups
  site.store := { conversations := [⟨"Ag", .contact⟩, ⟨"AQ", .account⟩], recorded := true }

/-- The trace of a replay of two groups. -/
theorem two_groups_trace :
    let after := ((replay recording).run twoConversations).2
    ∃ groups, GroupsOf twoConversations.site.store.conversations groups ∧
      after.calls = twoConversations.calls ++
        ([.configuration, .ensureAccount (Key.encode twoGroups.home)] ++
          metadataCalls twoGroups twoGroups.home ++ [.conversations] ++
          groups.flatMap (groupCalls twoGroups)) ∧
      (⟨2, 2, 3⟩ : Summary) =
        { groups := groups.length
          metadata := (metadataOf twoGroups groups).length
          messages := (messagesOf twoGroups groups).length } := by
  have succeeded : ((replay recording).run twoConversations).1 = .ok ⟨2, 2, 3⟩ := by
    decide +kernel
  exact successful_replay_trace rfl rfl (Prod.ext succeeded rfl)

end Replay

end GroupReplay
