import GroupReplay.Proofs.Holding
import GroupReplay.Proofs.StoreReplay
import GroupReplay.Wire.Event
import Mathlib.Control.Monad.Basic

/-!
Replays into a store, repeated.  What a replay wrote is settled, so that carrying its tasks out again
leaves the records as they are.  The conversations are listed once, before the logs of groups are
drained: a repeated replay gets through all that the first one did, and goes on with the
conversations that were added after the first one listed them.
-/

namespace GroupReplay

open Wire Service Projection

namespace Replay

variable {first now : StoreRun} {home : Bytes}

/-- Tasks that were carried out can be carried out again later, and then change no record. -/
theorem Passed.again {start : Service} {held : Option Bytes} {done : List Task} {last : StoreRun}
    (passed : Passed (toStoreSilently home) first done last)
    (sound : first.site.store.Sound) (direct : first.link = .direct)
    (alike : first.service.Alike start) (became : last.site.store.Later now.site.store)
    (nowDirect : now.link = .direct) (quiet : now.token.Quiet) (keeps : Keeps start held now.service)
    (orderly : Orderly start.home held done) :
    ∃ after, Passed (toStoreSilently home) now done after ∧
      now.site.store.Agrees after.site.store := by
  have wrote := passed.wrote sound direct
  have ready : Ready first now :=
    ⟨nowDirect, quiet, keeps.alike.trans alike.symm, became.sound,
      (wrote.later.trans became).refusal⟩
  obtain ⟨after, again⟩ := passed.anew direct sound ready keeps orderly
  have rewrote := again.wrote became.sound nowDirect
  have held : ∀ write ∈ done.flatMap (·.writes home), now.site.store.records.Holds write := by
    intro write member
    have written := Store.Records.holds_carryAll sound.records write member
    rw [← wrote.records] at written
    exact written.grows became.grows
  have unchanged : after.site.store.records = now.site.store.records :=
    rewrote.records.trans (Store.Records.carryAll_held became.sound.records held)
  exact ⟨after, again, became.sound, rewrote.later.sound, unchanged.symm, fun op =>
    (rewrote.later.refusal op).symm⟩

/-! ### A replay, repeated -/

variable {run once : StoreRun} {summary : Summary} {token : Token}

/-- The conversations that a store holds beyond those that were replayed. -/
def lateConversations (store : Store.AnyStore) (summary : Summary) : List Store.Conversation :=
  store.records.conversations.drop summary.groups

private theorem readable_of_passed {listed : List Store.Conversation} {service : Service}
    (passed : Passed (toStoreSilently home) run (.conversations :: conversationTasks service listed)
      once) : ∃ groups, GroupsOf listed groups := by
  cases passed with
  | cons _ conversationsPassed => exact conversationsPassed.groups

/-- Behind the conversations that a replay listed, the store holds the late ones. -/
private theorem listed_then_late {service : Service} {listed : List Store.Conversation}
    {store : Store.AnyStore} (readable : ∃ groups, GroupsOf listed groups)
    (kept : listed <+: store.records.conversations) :
    store.records.conversations = listed ++ lateConversations store (totals service listed) := by
  obtain ⟨groups, readable⟩ := readable
  obtain ⟨late, split⟩ := kept
  rw [lateConversations, totals_of_groups _ readable, readable.length, ← split, List.drop_left]

/-- What a repeated replay lists is what the store holds after the first. -/
private theorem lists_again {opened : StoreRun} (sound : run.site.store.Sound)
    (direct : run.link = .direct)
    (opening : Passed (toStoreSilently home) run (openingTasks run.service) opened)
    (became : opened.site.store.Later now.site.store) (nowDirect : now.link = .direct)
    (quiet : now.token.Quiet) (keeps : Keeps run.service none now.service) :
    Lists (toStoreSilently home) now now.site.store.records.conversations := by
  intro reopened answer site reopening performed
  obtain ⟨same, passed, agrees⟩ := opening.again sound direct (.refl _) became nowDirect quiet keeps
    (orderly_openingTasks run.service)
  rw [openingTasks_alike keeps.alike] at reopening
  obtain rfl := reopening.unique passed
  rw [listed_of_performed Store.backed_id (by exact agrees.right) performed]
  exact congrArg Store.Records.conversations agrees.records.symm

/-- A replay whose tasks were all carried out before gets through them without changing a record, and
goes on with the conversations that the store holds behind those that were listed before. -/
private theorem replay_continues (second : StoreRun) {listed late : List Store.Conversation}
    (sound : run.site.store.Sound) (direct : run.link = .direct)
    (passed : Passed (toStoreSilently run.service.home) run (tasks run.service listed) once)
    (became : once.site.store.Later second.site.store) (secondDirect : second.link = .direct)
    (quiet : second.token.Quiet) (keeps : Keeps run.service none second.service)
    (behind : second.site.store.records.conversations = listed ++ late) :
    ∃ middle : StoreRun, middle.link = .direct ∧ middle.service.Alike run.service ∧
      second.site.store.Agrees middle.site.store ∧
      replayToStore.run second =
        (conversations (toStoreSilently run.service.home) run.service.home
          (totals run.service listed) late).run middle := by
  obtain ⟨middle, again, agrees⟩ := passed.again sound direct (.refl _) became secondDirect quiet
    keeps (orderly_tasks run.service listed)
  obtain ⟨opened, opening, more⟩ := passed_append_iff.mp passed
  have openedSound := (opening.wrote sound direct).later.sound
  have openedBecame := (more.wrote openedSound (opening.link direct)).later.trans became
  have middleDirect := again.link secondDirect
  have middleAlike := again.alike secondDirect keeps.alike
  refine ⟨middle, middleDirect, middleAlike, agrees, ?_⟩
  have homeSame : second.service.home = run.service.home := keeps.alike.home
  have lists := lists_again sound direct opening openedBecame secondDirect quiet keeps
  rw [← homeSame, behind] at lists
  obtain ⟨groups, readable⟩ := readable_of_passed more
  have allTasks : tasks run.service (listed ++ late) =
      tasks run.service listed ++ conversationTasks run.service late := by
    rw [tasks, conversationTasks_append _ readable, tasks, List.append_assoc]
    rfl
  have allTotals : totals run.service (listed ++ late) =
      late.foldl (tally run.service) (totals run.service listed) := List.foldl_append
  -- The tasks of `listed` pass again and leave `middle`; those of `late` are what is left.
  rw [replayToStore, replay_carries_out secondDirect lists, homeSame, tasks_alike keeps.alike,
    totals_alike keeps.alike, allTasks, allTotals, carryOut_append, bind_assoc, Action.run_bind,
    carryOut_of_passed secondDirect none again, heldAfter_tasks]
  exact (conversations_run middleDirect middleAlike _ _).symm

/-- A replay that succeeded, repeated on the unchanged service without being cancelled.  It does all
that the first one did without changing a record, and goes on with the late conversations.  If there
are none it succeeds with the same totals and leaves the store as it was for every reader.  There
are none if only the home group's log speaks of the account. -/
theorem replay_repeated (direct : run.link = .direct)
    (reachable : Store.Reachable run.site.store)
    (succeeded : replayToStore.run run = (.ok summary, once)) (quiet : token.Quiet) :
    let late := lateConversations once.site.store summary
    (∃ middle : StoreRun, middle.link = .direct ∧ middle.service.Alike run.service ∧
      once.site.store.Agrees middle.site.store ∧
      replayToStore.run { once with token } =
        (conversations (toStoreSilently run.service.home) run.service.home summary late).run
          middle) ∧
    (late = [] → ∃ again, replayToStore.run { once with token } = (.ok summary, again) ∧
      ∀ account, ((Store.snapshot account).run again.site.store).1 =
        ((Store.snapshot account).run once.site.store).1) ∧
    (AccountAtHome run.service → late = []) := by
  intro late
  have sound := reachable.sound
  obtain ⟨opened, listed, opening, listing, more, rfl⟩ := succeeded_passed direct sound succeeded
  have wrote := more.wrote (opening.wrote sound direct).later.sound (opening.link direct)
  have passed : Passed (toStoreSilently run.service.home) run (tasks run.service listed) once :=
    opening.append more
  have keeps : Keeps run.service none once.service := by
    have kept := passed.keeps direct (.initial (home_active_of_opened direct opening))
      (orderly_tasks run.service listed)
    rwa [heldAfter_tasks] at kept
  have behind : once.site.store.records.conversations = listed ++ late :=
    listed_then_late (readable_of_passed more) (listing ▸ wrote.later.grows.conversations)
  obtain ⟨middle, middleDirect, alike, agrees, continues⟩ :=
    replay_continues { once with token } sound direct passed (.refl wrote.later.sound)
      (passed.link direct) quiet keeps behind
  refine ⟨⟨middle, middleDirect, alike, agrees, continues⟩, fun covered => ?_, fun atHome => ?_⟩
  · rw [covered] at continues
    exact ⟨middle, continues, fun account => (agrees.snapshot account).symm⟩
  · have others : ∀ write ∈ (Task.conversations :: conversationTasks run.service listed).flatMap
        (Task.writes run.service.home), AddsNone write := by
      intro write member
      obtain ⟨task, among, writes⟩ := List.mem_flatMap.mp member
      obtain rfl | among := List.mem_cons.mp among
      · cases writes
      · exact conversationTasks_add_none atHome listed task among write writes
    have unchanged : once.site.store.records.conversations = listed := by
      rw [wrote.records, Store.Records.carryAll_conversations others, listing]
    rw [unchanged] at behind
    exact List.self_eq_append_right.mp behind

/-- The event that a group was joined. -/
def joining (group id joined : Bytes) : MetadataEvent :=
  .of group id EventType.groupJoined.number
    ({ group := some { key := joined, groupType := GroupType.multiMember.number } } : GroupJoined)

/-- A message that becomes an interaction. -/
def titling (group id : Bytes) : MessageEvent :=
  .of group id [9] { type := AppMessageType.setGroupInfo.number }

/-- A service whose home group's log names a second group, which holds a message. -/
def joinedAtHome : Service where
  home := [1]
  logs :=
    [([1], { metadata := { entries := [joining [1] [10] [2]] } }),
     ([2], { messages := { entries := [titling [2] [11]] } })]

/-- A service whose home group's log names a second group, whose log names a third one. -/
def joinedInside : Service where
  home := [1]
  logs :=
    [([1], { metadata := { entries := [joining [1] [10] [2]] } }),
     ([2], { metadata := { entries := [joining [2] [11] [3]] } }),
     ([3], { messages := { entries := [titling [3] [12]] } })]

/-- A run on an empty store in memory. -/
def onEmptyStore (service : Service) : StoreRun where
  service
  site.store := .inMemory {}

/-- A replay of a group that was joined at home, repeated. -/
theorem joined_at_home_repeated :
    let once := (replayToStore.run (onEmptyStore joinedAtHome)).2
    once.site.store.records.conversations = [⟨"Ag", .multiMember⟩] ∧
      ∃ again, replayToStore.run { once with token := .never } = (.ok ⟨1, 1, 1⟩, again) ∧
        ∀ account, ((Store.snapshot account).run again.site.store).1 =
          ((Store.snapshot account).run once.site.store).1 := by
  intro once
  have succeeded : (replayToStore.run (onEmptyStore joinedAtHome)).1 = .ok ⟨1, 1, 1⟩ := by
    decide +kernel
  have atHome : AccountAtHome joinedAtHome := by
    intro group foreign event member
    have empty : (joinedAtHome.logsOf group).metadata.entries = [] := by
      have other : (group == [1]) = false := beq_false_of_ne foreign
      rw [Service.logsOf, joinedAtHome, List.lookup_cons, other, List.lookup_cons]
      cases group == [2] <;> rfl
    rw [empty] at member
    cases member
  have quiet : Token.never.Quiet := ⟨rfl, fun _ => rfl⟩
  obtain ⟨_, covered, late⟩ := replay_repeated rfl (.memory false) (Prod.ext succeeded rfl) quiet
  exact ⟨by decide +kernel, covered (late atHome)⟩

/-- A replay of a group that was joined inside another one, repeated: only then are the third group's
messages replayed. -/
theorem joined_inside_repeated :
    let once := (replayToStore.run (onEmptyStore joinedInside)).2
    let again := (replayToStore.run { once with token := .never }).2
    Store.Reachable (onEmptyStore joinedInside).site.store ∧
      (replayToStore.run (onEmptyStore joinedInside)).1 = .ok ⟨1, 2, 0⟩ ∧
      (replayToStore.run { once with token := .never }).1 = .ok ⟨2, 2, 1⟩ ∧
      ((Store.snapshot "AQ").run again.site.store).1 ≠
        ((Store.snapshot "AQ").run once.site.store).1 := by
  intro once again
  exact ⟨.memory false, by decide +kernel, by decide +kernel, by decide +kernel⟩

end Replay

end GroupReplay
