import GroupReplay.Proofs.KeyReading
import GroupReplay.Proofs.RecordedReplay
import GroupReplay.Proofs.ReplayedStore

/-!
No group is replayed twice.  A store keeps its conversations under different texts, and no two texts
are read as the same group, so that the groups of the conversations that a replay lists are all
different.  Its plan activates each of them at most once and opens each of their logs at most once;
the metadata log of home is opened before the conversations are listed, and not again if home is one
of them.  Whatever becomes of the replay, it makes no calls but those of its plan, each as often as
the plan has it, and gives back the group that it held.
-/

namespace GroupReplay

open Wire Service Projection

/-! ### The groups that keys denote -/

/-- The groups that texts denote, without those texts that cannot be read as a key. -/
def Key.denoted (texts : List String) : List Bytes :=
  texts.filterMap fun text => (decode text).toOption

/-- Different texts denote different groups. -/
theorem Key.denoted_nodup {texts : List String} (different : texts.Nodup) :
    (denoted texts).Nodup := by
  refine different.filterMap fun text other group read readOther => ?_
  have ok_of_mem {text : String} (read : group ∈ (decode text).toOption) :
      decode text = .ok group := by
    cases decoded : decode text with
    | error e => rw [decoded] at read; cases read
    | ok key => rw [decoded] at read; cases read; rfl
  exact decode_injective (ok_of_mem read) (ok_of_mem readOther)

/-- No two conversations that a sound store keeps are of the same group. -/
theorem Store.AnyStore.Sound.groups_differ {store : AnyStore} (sound : store.Sound) :
    (Key.denoted store.conversationKeys).Nodup := by
  refine Key.denoted_nodup ?_
  rw [AnyStore.conversationKeys_eq sound]
  exact sound.records.conversations

/-- A store to which conversations were added, one after the other. -/
def Store.AnyStore.filled (store : AnyStore) (added : List Conversation) : AnyStore :=
  added.foldl (fun store conversation => (store.perform (.addConversation conversation)).2) store

theorem Store.Reachable.filled {store : AnyStore} (reachable : Reachable store)
    (added : List Conversation) : Reachable (store.filled added) := by
  induction added generalizing store with
  | nil => exact reachable
  | cons conversation rest ih => exact ih (reachable.perform (.addConversation conversation))

namespace Replay

/-! ### What a plan does to groups -/

/-- What a replay does to a group at most once. -/
inductive Access where
  | activation
  | metadata
  | messages
  deriving DecidableEq

/-- What a call does to which group. -/
def Access.of? : Call → Option (Access × String)
  | .activate group _ => some (.activation, group)
  | .listMetadata group => some (.metadata, group)
  | .listMessages group => some (.messages, group)
  | _ => none

/-- What a replay of a conversation does to its group. -/
def groupAccesses (service : Service) (group : Bytes) : List (Access × String) :=
  if group = service.home then [(.messages, Key.encode group)]
  else
    [(.activation, Key.encode group), (.metadata, Key.encode group), (.messages, Key.encode group)]

section Plan

variable {service : Service} {group other : Bytes} {listed : List Store.Conversation}

private theorem accesses_metadataCalls (service : Service) (group : Bytes) :
    (metadataCalls service group).filterMap Access.of? = [(.metadata, Key.encode group)] := by
  rw [metadataCalls, List.filterMap_cons, List.filterMap_map]
  simp only [Access.of?]
  exact congrArg _ (List.filterMap_eq_nil_iff.mpr fun _ _ => rfl)

private theorem accesses_messageCalls (service : Service) (group : Bytes) :
    (messageCalls service group).filterMap Access.of? = [(.messages, Key.encode group)] := by
  rw [messageCalls, List.filterMap_cons, List.filterMap_map]
  simp only [Access.of?]
  exact congrArg _ (List.filterMap_eq_nil_iff.mpr fun _ _ => rfl)

theorem accesses_groupCalls (service : Service) (group : Bytes) :
    (groupCalls service group).filterMap Access.of? = groupAccesses service group := by
  rw [groupCalls, groupAccesses]
  split
  · exact accesses_messageCalls service group
  · rw [List.filterMap_cons, List.filterMap_append, List.filterMap_append, accesses_metadataCalls,
      accesses_messageCalls]
    rfl

/-- What is done to the groups of conversations is done to groups that their keys denote, in this
order, perhaps not to all of them. -/
theorem accesses_conversationCalls (service : Service) (listed : List Store.Conversation) :
    ((conversationCalls service listed).filterMap Access.of?).Sublist
      ((Key.denoted (listed.map (·.key))).flatMap (groupAccesses service)) := by
  induction listed with
  | nil => exact .slnil
  | cons next rest ih =>
    rw [conversationCalls, List.map_cons, Key.denoted, List.filterMap_cons]
    cases Key.decode next.key with
    | error e => exact List.nil_sublist _
    | ok group =>
      rw [List.filterMap_append, accesses_groupCalls]
      exact (List.Sublist.refl _).append ih

/-- Whatever is done to a group names that group, and the metadata log of home is not opened with it. -/
theorem of_mem_groupAccesses {access : Access} {text : String}
    (member : (access, text) ∈ groupAccesses service group) :
    text = Key.encode group ∧ (access = .metadata → group ≠ service.home) := by
  unfold groupAccesses at member
  split at member
  · obtain ⟨rfl, rfl⟩ := Prod.mk.inj (List.mem_singleton.mp member)
    exact ⟨rfl, nofun⟩
  · next foreign =>
    simp only [List.mem_cons, List.not_mem_nil, or_false, Prod.mk.injEq] at member
    obtain ⟨_, named⟩ | ⟨_, named⟩ | ⟨_, named⟩ := member <;> exact ⟨named, fun _ => foreign⟩

private theorem group_accesses_nodup (service : Service) (group : Bytes) :
    (groupAccesses service group).Nodup := by
  unfold groupAccesses
  split <;> simp

private theorem group_accesses_disjoint (differ : group ≠ other) :
    List.Disjoint (groupAccesses service group) (groupAccesses service other) := by
  rintro ⟨access, text⟩ here there
  have same : Key.encode group = Key.encode other :=
    (of_mem_groupAccesses here).1.symm.trans (of_mem_groupAccesses there).1
  exact differ (Key.encode_injective same)

/-- A plan for conversations of different groups activates no group twice and opens no log twice. -/
theorem accesses_plan_nodup (differ : (Key.denoted (listed.map (·.key))).Nodup) :
    ((plan service listed).filterMap Access.of?).Nodup := by
  have opening : (openingCalls service).filterMap Access.of? =
      [(.metadata, Key.encode service.home)] := accesses_metadataCalls service service.home
  have others : ((Key.denoted (listed.map (·.key))).flatMap (groupAccesses service)).Nodup :=
    List.nodup_flatMap.mpr ⟨fun group _ => group_accesses_nodup service group,
      differ.imp fun differ => group_accesses_disjoint differ⟩
  have fresh : (Access.metadata, Key.encode service.home) ∉
      (Key.denoted (listed.map (·.key))).flatMap (groupAccesses service) := by
    intro again
    obtain ⟨group, _, member⟩ := List.mem_flatMap.mp again
    obtain ⟨same, foreign⟩ := of_mem_groupAccesses member
    exact foreign rfl (Key.encode_injective same).symm
  rw [plan, List.filterMap_append, opening]
  exact (List.nodup_cons.mpr ⟨fresh, others⟩).sublist
    (.cons_cons _ (accesses_conversationCalls service listed))

end Plan

/-! ### The calls that a replay gets to -/

section Calls

variable {η : Type} [Store.LocalStore η] {handler : Handler η} {run after : Run η}

private theorem seen_sublist (task : Task) (handlerRecorded storeRecorded ok : Bool) :
    (task.seen handlerRecorded storeRecorded ok).Sublist task.call?.toList := by
  have observed {condition : Prop} [Decidable condition] :
      (if condition then task.call?.toList else []).Sublist task.call?.toList := by
    split
    · exact .refl _
    · exact List.nil_sublist _
  cases task <;> first | exact .refl _ | exact observed

/-- A task is observed as its call or not at all. -/
theorem performed_calls_sublist {task : Task} {result : Except (Halt Error) Unit}
    (direct : run.link = .direct) (ran : (task.perform handler).run run = (result, after)) :
    ∃ seen, after.calls = run.calls ++ seen ∧ seen.Sublist task.call?.toList :=
  ⟨_, performed_calls direct ran, seen_sublist ..⟩

private theorem call_of_cons (task : Task) (rest : List Task) :
    (task :: rest).filterMap Task.call? = task.call?.toList ++ rest.filterMap Task.call? := by
  rw [List.filterMap_eq_flatMap_toList, List.flatMap_cons, ← List.filterMap_eq_flatMap_toList]

/-- Tasks that are carried out are observed as their calls, in their order, perhaps not as all. -/
theorem Passed.calls_sublist {done : List Task} (passed : Passed handler run done after)
    (direct : run.link = .direct) :
    ∃ trace, after.calls = run.calls ++ trace ∧ trace.Sublist (done.filterMap Task.call?) := by
  induction passed with
  | nil => exact ⟨[], (List.append_nil _).symm, .slnil⟩
  | @cons _ _ _ task rest performed _ ih =>
    obtain ⟨seen, first, among⟩ := performed_calls_sublist direct performed
    obtain ⟨trace, calls, sublist⟩ := ih (performed_link direct performed)
    refine ⟨seen ++ trace, by rw [calls, first, List.append_assoc], ?_⟩
    rw [call_of_cons]
    exact among.append sublist

omit [Store.LocalStore η] in
/-- Where a replay stops it gives back the group that it held, if any. -/
theorem stoppedAt_calls (halt : Halt Error) (freed : Option Bytes) (run : Run η) :
    ∃ more, (stoppedAt halt freed run).calls = run.calls ++ more ∧
      ∀ call ∈ more, ∃ group, call = .deactivate group := by
  have nothing : run.calls = run.calls ++ [] := (List.append_nil _).symm
  cases halt with
  | waiting => exact ⟨[], nothing, nofun⟩
  | failed e =>
    cases freed with
    | none => exact ⟨[], nothing, nofun⟩
    | some group => exact ⟨_, rfl, List.forall_mem_singleton.mpr ⟨_, rfl⟩⟩

/-- Whatever becomes of a replay, it makes calls of its plan, in their order, and gives back the group
that it held. -/
theorem replay_calls_sublist {handlerFor : Bytes → Handler η} {listed : List Store.Conversation}
    {result : Except (Halt Error) Summary} (direct : run.link = .direct)
    (lists : Lists (handlerFor run.service.home) run listed)
    (ran : (replayWith handlerFor).run run = (result, after)) :
    ∃ trace more, after.calls = run.calls ++ (trace ++ more) ∧
      trace.Sublist (plan run.service listed) ∧ ∀ call ∈ more, ∃ group, call = .deactivate group := by
  rw [← calls_tasks]
  obtain ⟨_, passed⟩ | ⟨done, task, rest, middle, halt, stopped, split, passed, failed, _, last⟩ :=
    replay_cases direct lists ran
  · obtain ⟨trace, calls, sublist⟩ := passed.calls_sublist direct
    exact ⟨trace, [], by rw [calls, List.append_nil], sublist, nofun⟩
  · obtain ⟨trace, calls, sublist⟩ := passed.calls_sublist direct
    obtain ⟨more, freed, released⟩ := stoppedAt_calls halt (task.freed (heldAfter none done)) stopped
    obtain ⟨seen, attempted, among⟩ := performed_calls_sublist (passed.link direct) failed
    refine ⟨trace ++ seen, more, ?_, ?_, released⟩
    · rw [last, freed, attempted, calls]
      simp only [List.append_assoc]
    · rw [split, List.filterMap_append, call_of_cons]
      exact sublist.append (among.trans (List.sublist_append_left _ _))

end Calls

/-! ### Stores that replays keep sound -/

section Sound

variable {η : Type} [Store.LocalStore η] {held : η → Store.AnyStore} {handler : Handler η}
  {run after : Run η}

omit [Store.LocalStore η] in
private theorem dropped_site {ε α : Type} (action : Action η ε α) (site : η) :
    ((action >>= fun _ => pure ()).run site).2 = (action.run site).2 := by
  rw [Action.run_bind]
  cases action.run site with
  | mk result later => cases result <;> rfl

/-- What a task does on the local side keeps the store sound if the handler does. -/
theorem onSite_sound (backed : Store.Backed held)
    (kept : HandlerKeeps (fun site => (held site).Sound) handler) (task : Task) :
    SiteKeeps (fun site => (held site).Sound) (task.onSite handler) := by
  intro site sound
  cases task with
  | account home =>
    have began := backed.write_began sound (.account (Key.encode home) "")
    rw [Task.onSite, dropped_site, Action.run_mapError]
    exact began.later.sound
  | conversations =>
    have unchanged := backed.listing_unchanged sound
    rw [Task.onSite, dropped_site, Action.run_mapError]
    exact unchanged ▸ sound
  | applyMetadata group event =>
    rw [Task.onSite, Action.run_mapError]
    exact kept.metadata event site sound
  | applyMessage group event =>
    rw [Task.onSite]
    cases Message.decode (α := AppMessage) event.message with
    | error e => exact sound
    | ok message =>
      dsimp only
      rw [Action.run_mapError]
      exact kept.messages group event message site sound
  | _ => exact sound

/-- However a task ends, the store is sound. -/
theorem performed_sound {task : Task} {result : Except (Halt Error) Unit} (backed : Store.Backed held)
    (kept : HandlerKeeps (fun site => (held site).Sound) handler) (sound : (held run.site).Sound)
    (direct : run.link = .direct) (ran : (task.perform handler).run run = (result, after)) :
    (held after.site).Sound := by
  obtain ⟨did, stopped⟩ := performed_site direct ran
  have done := onSite_sound backed kept task run.site sound
  cases result with
  | ok value => rwa [did rfl] at done
  | error halt =>
    obtain same | ⟨e, failed⟩ := stopped halt rfl
    · rwa [same]
    · rwa [failed] at done

theorem Passed.sound {done : List Task} (passed : Passed handler run done after)
    (backed : Store.Backed held) (kept : HandlerKeeps (fun site => (held site).Sound) handler)
    (sound : (held run.site).Sound) (direct : run.link = .direct) : (held after.site).Sound := by
  induction passed with
  | nil => exact sound
  | cons performed _ ih =>
    exact ih (performed_sound backed kept sound direct performed) (performed_link direct performed)

/-- The conversations that a replay lists are of different groups. -/
theorem exists_listed_differ (backed : Store.Backed held)
    (kept : HandlerKeeps (fun site => (held site).Sound) handler) (sound : (held run.site).Sound)
    (direct : run.link = .direct) :
    ∃ listed, Lists handler run listed ∧ (Key.denoted (listed.map (·.key))).Nodup := by
  obtain ⟨listed, lists⟩ := exists_listed handler run
  by_cases differ : (Key.denoted (listed.map (·.key))).Nodup
  · exact ⟨listed, lists, differ⟩
  · -- Then nothing is listed at all.
    refine ⟨[], fun middle answer site opening performed => absurd ?_ differ, List.nodup_nil⟩
    have stored := opening.sound backed kept sound direct
    obtain ⟨_, same, _⟩ := Store.AnyStore.carried_of_ok stored (backed.ok performed)
    have kept := stored.groups_differ
    rw [← lists middle answer site opening performed, same]
    rwa [Store.AnyStore.conversationKeys_eq stored] at kept

end Sound

/-- No group is replayed twice.  Whatever a service holds and whatever texts conversations were added
under, those that can be read as keys denote different groups; and however a replay ends, it
activated no group twice and opened neither log of a group twice, the metadata log of home included,
be home among the conversations or not. -/
theorem groups_replayed_once {η : Type} [Store.LocalStore η] {held : η → Store.AnyStore}
    {handlerFor : Bytes → Handler η} {run after : Run η} {result : Except (Halt Error) Summary}
    (backed : Store.Backed held) (reachable : Store.Reachable (held run.site))
    (kept : HandlerKeeps (fun site => (held site).Sound) (handlerFor run.service.home))
    (direct : run.link = .direct) (ran : (replayWith handlerFor).run run = (result, after)) :
    (Key.denoted (held run.site).conversationKeys).Nodup ∧
      ∃ trace, after.calls = run.calls ++ trace ∧ (trace.filterMap Access.of?).Nodup := by
  refine ⟨reachable.sound.groups_differ, ?_⟩
  obtain ⟨listed, lists, differ⟩ :=
    exists_listed_differ backed kept reachable.sound direct
  obtain ⟨trace, more, calls, planned, released⟩ := replay_calls_sublist direct lists ran
  refine ⟨trace ++ more, calls, ?_⟩
  have nothing : more.filterMap Access.of? = [] := by
    refine List.filterMap_eq_nil_iff.mpr fun call member => ?_
    obtain ⟨group, rfl⟩ := released call member
    rfl
  rw [List.filterMap_append, nothing, List.append_nil]
  exact (accesses_plan_nodup differ).sublist (planned.filterMap Access.of?)

/-- A run on a store to which home and two more groups were added, one of them twice and then under
another text, whose last symbol has bits to spare. -/
def respelled : StoreRun where
  service := twoGroups
  site.store := (Store.AnyStore.inMemory { recorded := true }).filled
    [⟨"AQ", .account⟩, ⟨"Ag", .contact⟩, ⟨"Aw", .contact⟩, ⟨"Ag", .contact⟩, ⟨"Ah", .contact⟩]

/-- The text that is added last is not read as the group, and the replay ends for it. -/
theorem respelled_group_once :
    respelled.site.store.conversationKeys = ["AQ", "Ag", "Aw", "Ah"] ∧
      Key.denoted respelled.site.store.conversationKeys = [[1], [2], [3]] ∧
      ((replay recording).run respelled).1 =
        .error (.failed (.deserialization "Ah" (.key (.lastSymbol 104 1)))) ∧
      (Key.denoted respelled.site.store.conversationKeys).Nodup ∧
      ∃ trace, ((replay recording).run respelled).2.calls = respelled.calls ++ trace ∧
        (trace.filterMap Access.of?).Nodup := by
  have backed : Store.Backed fun desk : Desk Store.AnyStore => desk.store :=
    backed_desk Store.backed_id
  have kept : HandlerKeeps (fun desk : Desk Store.AnyStore => desk.store.Sound) recording :=
    provided_sound Store.backed_id .recording
  have reachable : Store.Reachable respelled.site.store := (Store.Reachable.memory true).filled _
  exact ⟨by decide +kernel, by decide +kernel, by decide +kernel,
    groups_replayed_once backed reachable kept rfl (Prod.eta ((replay recording).run respelled)).symm⟩

end Replay

end GroupReplay
