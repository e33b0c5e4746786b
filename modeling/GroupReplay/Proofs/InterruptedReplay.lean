import GroupReplay.Proofs.BuiltStore

/-!
Replays that were interrupted.  However a replay ends, and whatever failed, it has begun its writes
and done nothing else to the store; and the same writes, made from the first on, leave what they
would have left without the interruption.  So a later replay of the same logs that succeeds absorbs
what was left, provided that both come to the same writes: they list the same conversations if only
the home group's log speaks of the account.
-/

namespace GroupReplay

open Wire Service Projection

namespace Service

/-- Services whose logs hold the same entries.  Calls may fail in one of them and not in the other,
and so may the reading of a log. -/
structure SameLogs (a b : Service) : Prop where
  home : a.home = b.home
  metadata : ∀ group, (a.logsOf group).metadata.entries = (b.logsOf group).metadata.entries
  messages : ∀ group, (a.logsOf group).messages.entries = (b.logsOf group).messages.entries

theorem SameLogs.of_alike {a b : Service} (alike : a.Alike b) : a.SameLogs b := by
  rw [alike]
  exact ⟨rfl, fun _ => rfl, fun _ => rfl⟩

theorem SameLogs.trans {a b c : Service} (first : a.SameLogs b) (second : b.SameLogs c) :
    a.SameLogs c where
  home := first.home.trans second.home
  metadata group := (first.metadata group).trans (second.metadata group)
  messages group := (first.messages group).trans (second.messages group)

end Service

namespace Replay

/-! ### The same logs come to the same writes -/

section Logs

variable {a b service : Service} {home group : Bytes}

private theorem metadataTasks_writes (home : Bytes) (service : Service) (group : Bytes) :
    (metadataTasks service group).flatMap (Task.writes home) =
      (service.logsOf group).metadata.entries.flatMap fun event =>
        writesOf (metadataWrites home event) := by
  rw [metadataTasks, List.flatMap_cons, flatMap_logTasks _ fun _ => rfl]
  rfl

private theorem messageTasks_writes (home : Bytes) (service : Service) (group : Bytes) :
    (messageTasks service group).flatMap (Task.writes home) =
      (service.logsOf group).messages.entries.flatMap fun event =>
        (Task.applyMessage group event).writes home := by
  rw [messageTasks, List.flatMap_cons, flatMap_logTasks _ fun _ => rfl]
  rfl

private theorem groupTasks_writes (same : a.SameLogs b) (home group : Bytes) :
    (groupTasks a group).flatMap (Task.writes home) =
      (groupTasks b group).flatMap (Task.writes home) := by
  have metadata : (metadataTasks a group).flatMap (Task.writes home) =
      (metadataTasks b group).flatMap (Task.writes home) := by
    rw [metadataTasks_writes, metadataTasks_writes, same.metadata]
  have messages : (messageTasks a group).flatMap (Task.writes home) =
      (messageTasks b group).flatMap (Task.writes home) := by
    rw [messageTasks_writes, messageTasks_writes, same.messages]
  rw [groupTasks, groupTasks, same.home]
  split
  · exact messages
  · rw [bothTasks, bothTasks, List.flatMap_cons, List.flatMap_cons, List.flatMap_append,
      List.flatMap_append, List.flatMap_append, List.flatMap_append, metadata, messages]

private theorem conversationTasks_writes (same : a.SameLogs b) (home : Bytes)
    (listed : List Store.Conversation) :
    (conversationTasks a listed).flatMap (Task.writes home) =
      (conversationTasks b listed).flatMap (Task.writes home) := by
  induction listed with
  | nil => rfl
  | cons next rest ih =>
    rw [conversationTasks, conversationTasks]
    cases Key.decode next.key with
    | error e => rfl
    | ok group => rw [List.flatMap_append, List.flatMap_append, groupTasks_writes same, ih]

theorem openingWrites_same (same : a.SameLogs b) : openingWrites a = openingWrites b := by
  rw [openingWrites, openingWrites, openingTasks, openingTasks, same.home, List.flatMap_cons,
    List.flatMap_cons, List.flatMap_cons, List.flatMap_cons, metadataTasks_writes,
    metadataTasks_writes, same.metadata]

theorem replayWrites_same (same : a.SameLogs b) (listed : List Store.Conversation) :
    replayWrites a listed = replayWrites b listed := by
  have opening := openingWrites_same same
  have conversations := conversationTasks_writes same b.home listed
  rw [openingWrites, openingWrites, same.home] at opening
  rw [replayWrites, replayWrites, tasks, tasks, same.home, List.flatMap_append, List.flatMap_append,
    opening, List.flatMap_cons, List.flatMap_cons, conversations]

theorem listedFrom_same (same : a.SameLogs b) (records : Store.Records) :
    listedFrom a records = listedFrom b records := by
  rw [listedFrom, listedFrom, openingWrites_same same]

theorem AccountAtHome.same (atHome : AccountAtHome a) (same : a.SameLogs b) : AccountAtHome b := by
  intro group foreign event member
  rw [← same.home] at foreign ⊢
  rw [← same.metadata] at member
  exact atHome group foreign event member

end Logs

/-! ### What is left is absorbed -/

section Absorbing

variable {σ : Type} [Store.LocalStore σ] {held : σ → Store.AnyStore} {first stopped : Run (Desk σ)}
  {second after single : StoreRun} {summary : Summary}

/-- The opening writes lead to the same conversations whether the writes of a replay were begun
before or not. -/
private theorem listed_begun {service : Service} {store left : Store.AnyStore}
    {listed : List Store.Conversation} (atHome : AccountAtHome service) (sound : store.Sound)
    (began : store.Began (replayWrites service listed) left) :
    listedFrom service left.records = listedFrom service store.records := by
  have absorbed := Store.Records.carryAll_begun sound.records began.begun
  calc listedFrom service left.records
    _ = (Store.Records.carryAll (replayWrites service listed) left.records).conversations :=
      (conversations_of_replayWrites atHome listed _).symm
    _ = (Store.Records.carryAll (replayWrites service listed) store.records).conversations :=
      congrArg Store.Records.conversations absorbed
    _ = listedFrom service store.records := conversations_of_replayWrites atHome listed _

/-- What succeeds on a store that the writes of a replay were begun on succeeds on the store as it
was before, and comes to the same. -/
private theorem begun_absorbed (atHome : AccountAtHome single.service)
    (sound : single.site.store.Sound)
    (began : single.site.store.Began (replayWrites single.service
      (listedFrom single.service single.site.store.records)) second.site.store)
    (secondDirect : second.link = .direct)
    (succeeded : replayToStore.run second = (.ok summary, after))
    (singleDirect : single.link = .direct) (quiet : single.token.Quiet)
    (alike : single.service.Alike second.service)
    (active : single.service.home ∈ single.service.active) :
    ∃ once, replayToStore.run single = (.ok summary, once) ∧
      once.site.store.Agrees after.site.store := by
  have secondSound := began.later.sound
  obtain ⟨passed, rfl⟩ := (succeeded_iff secondDirect secondSound).mp succeeded
  have lists : listedFrom second.service second.site.store.records =
      listedFrom single.service single.site.store.records := by
    rw [← listedFrom_same (.of_alike alike)]
    exact listed_begun atHome sound began
  rw [lists, ← alike.home, ← tasks_alike alike] at passed
  have ready : Ready second single :=
    ⟨singleDirect, quiet, alike, sound, fun op => (began.later.refusal op).symm⟩
  obtain ⟨once, passedOnce⟩ := passed.anew secondDirect secondSound ready (.initial active)
    (orderly_tasks single.service _)
  have wrote := passed.wrote secondSound secondDirect
  have wroteOnce := passedOnce.wrote sound singleDirect
  refine ⟨once, (succeeded_iff singleDirect sound).mpr ⟨passedOnce, ?_⟩, wroteOnce.later.sound,
    wrote.later.sound, ?_, fun op => ?_⟩
  · rw [lists, totals_alike alike]
  · rw [wroteOnce.records, wrote.records]
    exact (Store.Records.carryAll_begun sound.records began.begun).symm
  · calc once.site.store.refusal? op
      _ = single.site.store.refusal? op := wroteOnce.later.refusal op
      _ = second.site.store.refusal? op := (began.later.refusal op).symm
      _ = after.site.store.refusal? op := (wrote.later.refusal op).symm

/-- A replay that was interrupted leaves nothing that a later one does not absorb.  The first replay
runs on a store that may fail at any point, and may end in any way; the second is of the same logs,
on what the first one left, and succeeds.  Then a single replay succeeds too that starts from the
store that the first one found, with the service of the second one, if nobody cancels it and home is
active where it was.  It comes to the same totals, and leaves the same records and the same snapshot
for every account. -/
theorem interrupted_replay_absorbed {outcome : Except (Halt Error) Summary}
    {rejectsWrites rejectsLists : Bool} (backed : Store.Backed held)
    (firstDirect : first.link = .direct) (reachable : Store.Reachable (held first.site.store))
    (atHome : AccountAtHome first.service)
    (interrupted : replayToStore.run first = (outcome, stopped))
    (logs : first.service.SameLogs second.service) (secondDirect : second.link = .direct)
    (left : second.site.store = (held stopped.site.store).told rejectsWrites rejectsLists)
    (succeeded : replayToStore.run second = (.ok summary, after))
    (singleDirect : single.link = .direct) (quiet : single.token.Quiet)
    (alike : single.service.Alike second.service)
    (active : second.service.home ∈ second.service.active →
      single.service.home ∈ single.service.active)
    (found : single.site.store = (held first.site.store).told rejectsWrites rejectsLists) :
    ∃ once, replayToStore.run single = (.ok summary, once) ∧
      once.site.store.records = after.site.store.records ∧
      ∀ account, ((Store.snapshot account).run once.site.store).1 =
        ((Store.snapshot account).run after.site.store).1 := by
  have sound := reachable.sound
  have same : first.service.SameLogs single.service := logs.trans (.of_alike alike.symm)
  have lists : listedFrom first.service (held first.site.store).records =
      listedFrom single.service single.site.store.records := by
    rw [← listedFrom_same same, found]
    exact (Store.AnyStore.conversations_told _ _ _ _).symm
  have began := (replay_began backed sound firstDirect interrupted).told sound rejectsWrites
    rejectsLists
  rw [← left, ← found, lists, replayWrites_same same] at began
  have secondSound := began.later.sound
  have homeActive : second.service.home ∈ second.service.active := by
    obtain ⟨_, _, opening, _⟩ := succeeded_passed secondDirect secondSound succeeded
    exact home_active_of_opened secondDirect opening
  obtain ⟨once, succeededOnce, agrees⟩ :=
    begun_absorbed (atHome.same same) (found ▸ sound.told _ _) began secondDirect succeeded
      singleDirect quiet alike (active homeActive)
  exact ⟨once, succeededOnce, agrees.records, agrees.snapshot⟩

end Absorbing

/-- A database that fails between the note of an acknowledgement and the flag of its interaction: a
second replay sets the flag. -/
theorem broken_acknowledgement_absorbed :
    let first : Run (Desk Store.Failing) :=
      { service := answeredAtHome, site.store := ⟨.inTables {}, 6⟩ }
    let left := (replayToStore.run first).2.site.store.store
    let second : StoreRun := { service := answeredAtHome, site.store := left.told false false }
    let single : StoreRun := { service := answeredAtHome, site.store := .inTables {} }
    let after := (replayToStore.run second).2
    left.records.acknowledged = ["Cw"] ∧
      left.records.interactions.map (fun i => (i.cid, i.acknowledged)) = [("Cw", false)] ∧
      ∃ once, replayToStore.run single = (.ok ⟨1, 1, 2⟩, once) ∧
        once.site.store.records = after.site.store.records ∧
        ∀ account, ((Store.snapshot account).run once.site.store).1 =
          ((Store.snapshot account).run after.site.store).1 := by
  intro first left second single after
  have counted : (replayToStore.run second).1 = .ok ⟨1, 1, 2⟩ := by decide +kernel
  have succeeded : replayToStore.run second = (.ok ⟨1, 1, 2⟩, after) := by rw [← counted]
  have interrupted : replayToStore.run first = (_, (replayToStore.run first).2) := (Prod.eta _).symm
  have atHome : AccountAtHome answeredAtHome := accountAtHome_of_empty (by decide)
  have sameLogs : first.service.SameLogs second.service := .of_alike (.refl _)
  have toldLeft : second.site.store = left.told false false := by simp only [second]
  have toldStart : single.site.store = first.site.store.store.told false false := rfl
  exact ⟨by decide +kernel, by decide +kernel,
    interrupted_replay_absorbed Store.Failing.backed rfl .tables atHome interrupted sameLogs rfl
      toldLeft succeeded rfl ⟨rfl, fun _ => rfl⟩ (.refl _) id toldStart⟩

end Replay

end GroupReplay
