import GroupReplay.Projection.Recording
import GroupReplay.Proofs.BuiltStore
import GroupReplay.Proofs.SiteUpkeep
import GroupReplay.Proofs.StoreHistory

/-!
A store that replays built can be replayed from.  Every write of the handler that writes into stores
is legible: its keys are texts of keys, and an interaction has one of the types that are stored, with
a payload that fits.  Replays write nothing else, whatever becomes of them; so on what they left a
later one can list the conversations and read the keys of all of them.
-/

namespace GroupReplay

open Wire Service Projection

namespace Store

/-! ### Legible records -/

/-- A member whose keys can be read. -/
structure Member.Legible (added : Member) : Prop where
  conversation : Key.ReadsBack added.conversation
  member : Key.ReadsBack added.member
  device : Key.ReadsBack added.device

/-- An interaction whose keys can be read and which is of a type that is stored; if that is the type of
user messages, so is what it carries. -/
structure Interaction.Legible (interaction : Interaction) : Prop where
  cid : Key.ReadsBack interaction.cid
  conversation : Key.ReadsBack interaction.conversation
  device : interaction.device ≠ "" → Key.ReadsBack interaction.device
  type : ∃ type ∈ storedTypes, interaction.type = type.number ∧
    (type = .userMessage → ∃ message : UserMessage, Message.decode interaction.payload = .ok message)

/-- A write of a legible record. -/
def Write.Legible : Write → Prop
  | account _ _ | acknowledgement _ => True
  | conversation added => Key.ReadsBack added.key
  | member added => added.Legible
  | interaction added => added.Legible

/-- Records that are all legible. -/
structure Records.Legible (records : Records) : Prop where
  conversations : ∀ conversation ∈ records.conversations, Key.ReadsBack conversation.key
  members : ∀ member ∈ records.members, member.Legible
  interactions : ∀ interaction ∈ records.interactions, interaction.Legible

/-- The flag of an interaction has nothing to do with whether it is legible. -/
theorem Interaction.Legible.acknowledged {interaction : Interaction}
    (legible : interaction.Legible) (acknowledged : Bool) :
    Interaction.Legible { interaction with acknowledged } :=
  ⟨legible.cid, legible.conversation, legible.device, legible.type⟩

theorem Interaction.Legible.flag {interaction : Interaction} (legible : interaction.Legible)
    (cid : String) : (interaction.flag cid).Legible := by
  unfold Interaction.flag
  split
  · exact legible.acknowledged true
  · exact legible

namespace Records.Legible

variable {records left : Records} {writes : List Write}

/-- A legible write keeps records legible. -/
theorem carry {write : Write} (legible : records.Legible) (sound : records.Sound)
    (writes : write.Legible) : (Records.carry write.op records).2.Legible := by
  cases write with
  | account key name =>
    simp only [Write.op, Records.carry, ensureAccount]
    split
    · exact legible
    · exact ⟨legible.conversations, legible.members, legible.interactions⟩
  | conversation added =>
    simp only [Write.op, Records.carry, addConversation]
    split
    · exact legible
    · exact ⟨List.forall_mem_append.mpr
        ⟨legible.conversations, List.forall_mem_singleton.mpr writes⟩, legible.members,
        legible.interactions⟩
  | member added =>
    simp only [Write.op, Records.carry, addMember]
    split
    · exact legible
    · exact ⟨legible.conversations, List.forall_mem_append.mpr
        ⟨legible.members, List.forall_mem_singleton.mpr writes⟩, legible.interactions⟩
  | interaction added =>
    simp only [Write.op, Records.carry, addInteraction]
    split
    · exact legible
    · exact ⟨legible.conversations, legible.members, List.forall_mem_append.mpr
        ⟨legible.interactions, List.forall_mem_singleton.mpr (writes.acknowledged _)⟩⟩
  | acknowledgement cid =>
    simp only [Write.op, Records.carry, acknowledge,
      Records.acknowledgeFirst_eq_map sound.interactions]
    refine { legible with interactions := fun i among => ?_ }
    obtain ⟨before, stored, rfl⟩ := List.mem_map.mp among
    exact (legible.interactions before stored).flag cid

theorem carryAll (legible : records.Legible) (sound : records.Sound)
    (all : ∀ write ∈ writes, write.Legible) : (Records.carryAll writes records).Legible := by
  induction writes generalizing records with
  | nil => exact legible
  | cons write rest ih =>
    obtain ⟨here, others⟩ := List.forall_mem_cons.mp all
    exact ih (legible.carry sound here) (sound.carry write.op) others

/-- Legible writes keep records legible, however far they come. -/
theorem begun (legible : records.Legible) (sound : records.Sound)
    (all : ∀ write ∈ writes, write.Legible) (begun : Begun writes records left) : left.Legible := by
  obtain ⟨made, rest, rfl, either⟩ := begun
  have madeLegible := legible.carryAll sound (List.forall_mem_append.mp all).1
  obtain rfl | ⟨cid, more, rfl, rfl⟩ := either
  · exact madeLegible
  · exact ⟨madeLegible.conversations, madeLegible.members, madeLegible.interactions⟩

end Records.Legible

/-! ### Listing the conversations -/

namespace AnyStore

variable {store : AnyStore}

/-- A store that does not reject the listing of conversations. -/
def AcceptsLists : AnyStore → Prop
  | inMemory records => records.rejectsLists = false
  | inTables _ => True

instance : DecidablePred AcceptsLists
  | inMemory records => inferInstanceAs (Decidable (records.rejectsLists = false))
  | inTables _ => .isTrue trivial

theorem AcceptsLists.refusal (accepts : store.AcceptsLists) :
    store.refusal? .conversations = none := by
  cases store with
  | inMemory records => exact if_neg (Bool.eq_false_iff.mp accepts)
  | inTables tables => rfl

/-- A sound store keeps no conversation of an unknown type. -/
theorem Sound.lists_known (sound : store.Sound) (text : String) :
    (store.perform .conversations).1 ≠ .error (.unknownConversationType text) := by
  intro listed
  cases refused : store.refusal? .conversations with
  | none =>
    obtain ⟨_, performed, _⟩ := perform_carried sound refused
    rw [performed] at listed
    cases listed
  | some e =>
    rw [perform_refused refused] at listed
    cases store with
    | inMemory records =>
      obtain rfl : e = .unknownConversationType text := Except.error.inj listed
      simp [refusal?, Records.refusal?] at refused
    | inTables tables => cases refused

end AnyStore

end Store

namespace Projection

open Store

/-! ### What the handler writes is legible -/

/-- The writes that a metadata event comes to are legible. -/
theorem metadataWrites_legible (account : Bytes) (event : MetadataEvent) :
    ∀ write ∈ writesOf (metadataWrites account event), write.Legible := by
  unfold metadataWrites
  split
  · exact nofun
  · exact nofun
  · next context _ _ _ =>
    split
    · unfold joinedWrites
      split
      · exact nofun
      · split
        · exact nofun
        · exact List.forall_mem_singleton.mpr (Key.readsBack_encode _)
    · unfold deviceWrites
      split
      · exact nofun
      · next added _ =>
        have member : Write.Legible (.member
            ⟨Key.encode context.group, Key.encode added.memberKey, Key.encode added.deviceKey⟩) :=
          ⟨Key.readsBack_encode _, Key.readsBack_encode _, Key.readsBack_encode _⟩
        dsimp only [writesOf]
        split
        · exact List.forall_mem_cons.mpr
            ⟨Key.readsBack_encode _, List.forall_mem_singleton.mpr member⟩
        · exact List.forall_mem_singleton.mpr member
    · exact nofun

/-- The interaction that a message becomes is legible, if the payload of a user message is one. -/
theorem interaction_legible {group id : Bytes} {event : MessageEvent} {type : AppMessageType}
    {message : AppMessage} (stored : storedType? message.type = some type)
    (fits : type = .userMessage →
      ∃ user : UserMessage, Message.decode message.payload = .ok user) :
    (interaction (Key.encode group) (Key.encode id) event type message).Legible where
  cid := Key.readsBack_encode id
  conversation := Key.readsBack_encode group
  device given := by
    unfold interaction at given ⊢
    cases headers : event.headers with
    | none => simp [headers] at given
    | some sent => exact Key.readsBack_encode sent.deviceKey
  type := ⟨type, (storedType?_eq_some_iff.mp stored).2, rfl, fits⟩

/-- The writes that a message of a group comes to are legible. -/
theorem messageWrites_legible (group : Bytes) (event : MessageEvent) (message : AppMessage) :
    ∀ write ∈ writesOf (messageWrites (Key.encode group) event message), write.Legible := by
  unfold messageWrites
  split
  · exact nofun
  · dsimp only
    split
    · split
      · exact nofun
      · exact List.forall_mem_singleton.mpr trivial
    · split
      · exact nofun
      · next stored =>
        split
        · split
          · exact nofun
          · next user decoded =>
            exact List.forall_mem_singleton.mpr
              (interaction_legible stored fun _ => ⟨user, decoded⟩)
        · next other =>
          exact List.forall_mem_singleton.mpr
            (interaction_legible stored fun user => absurd user other)

/-- The handlers of this library. -/
inductive Provided {σ : Type} [LocalStore σ] : Handler (Desk σ) → Prop where
  | recording : Provided recording
  | toStore (account : Bytes) : Provided (toStore account)
  | toStoreSilently (account : Bytes) : Provided (toStoreSilently account)

end Projection

namespace Replay

open Store

section Keeping

variable {σ : Type} [LocalStore σ] {held : σ → AnyStore} {lists : Option Store.Error}
  {desk after : Desk σ} {writes : List Write}

/-- A desk whose store can be replayed from, as far as it lists its conversations. -/
structure Replayable (held : σ → AnyStore) (lists : Option Store.Error) (desk : Desk σ) : Prop where
  sound : (held desk.store).Sound
  legible : (held desk.store).records.Legible
  refusal : (held desk.store).refusal? .conversations = lists

omit [LocalStore σ] in
/-- Legible writes that were begun leave a store that can be replayed from. -/
theorem Replayable.began (replayable : Replayable held lists desk)
    (legible : ∀ write ∈ writes, write.Legible)
    (began : (held desk.store).Began writes (held after.store)) : Replayable held lists after where
  sound := began.later.sound
  legible := replayable.legible.begun replayable.sound.records legible began.begun
  refusal := (began.later.refusal _).trans replayable.refusal

/-- An action that begins legible writes, however it ends, and does nothing else to the store. -/
def BeginsLegibly {ε α : Type} (held : σ → AnyStore) (action : Action (Desk σ) ε α) : Prop :=
  ∀ desk, (held desk.store).Sound → ∃ writes : List Write, (∀ write ∈ writes, write.Legible) ∧
    (held desk.store).Began writes (held (action.run desk).2.store)

private theorem writes_begin {action : Action (Desk σ) Projection.Error Unit} {announcing : Bool}
    {writes : Except Projection.Error (List Noticed)} (backed : Backed held)
    (comes : action = .ofExcept writes >>= writeAll announcing)
    (legible : ∀ write ∈ writesOf writes, write.Legible) : BeginsLegibly held action := by
  intro desk sound
  subst comes
  cases writes with
  | error e => exact ⟨[], nofun, .none sound []⟩
  | ok writes => exact ⟨_, legible, (writeAll_began backed sound (Prod.eta _).symm).1⟩

/-- A handler that begins legible writes, whatever it is handed. -/
structure HandlerBegins (held : σ → AnyStore) (handler : Handler (Desk σ)) : Prop where
  metadata : ∀ event, BeginsLegibly held (handler.applyMetadata event)
  messages : ∀ group event message,
    BeginsLegibly held (handler.applyMessage (Key.encode group) event message)

/-- The handlers of this library write nothing that is not legible. -/
theorem provided_begins {handler : Handler (Desk σ)} (backed : Backed held)
    (provided : Provided handler) : HandlerBegins held handler := by
  have metadata (account : Bytes) (announcing : Bool) (event : MetadataEvent) :
      BeginsLegibly held (Projection.applyMetadata account announcing event) :=
    writes_begin backed (applyMetadata_writes account announcing event)
      (metadataWrites_legible account event)
  have messages (announcing : Bool) (group : Bytes) (event : MessageEvent) (message : AppMessage) :
      BeginsLegibly held (Projection.applyMessage announcing (Key.encode group) event message) :=
    writes_begin backed (applyMessage_writes announcing (Key.encode group) event message)
      (messageWrites_legible group event message)
  cases provided with
  | recording =>
    refine ⟨fun event desk sound => ⟨[], nofun, ?_⟩, fun group event message desk sound =>
      ⟨[], nofun, ?_⟩⟩
    · simp only [recording, recordMetadata]
      split <;> exact .none sound []
    · simp only [recording, recordMessage]
      split <;> exact .none sound []
  | toStore account => exact ⟨metadata account true, messages true⟩
  | toStoreSilently account => exact ⟨metadata account false, messages false⟩

/-- They leave a store that can be replayed from. -/
theorem provided_keeps {handler : Handler (Desk σ)} (backed : Backed held)
    (provided : Provided handler) : HandlerKeeps (Replayable held lists) handler := by
  have begins := provided_begins backed provided
  constructor
  · intro event desk replayable
    obtain ⟨_, legible, began⟩ := begins.metadata event desk replayable.sound
    exact replayable.began legible began
  · intro group event message desk replayable
    obtain ⟨_, legible, began⟩ := begins.messages group event message desk replayable.sound
    exact replayable.began legible began

/-- They keep a store sound. -/
theorem provided_sound {handler : Handler (Desk σ)} (backed : Backed held)
    (provided : Provided handler) :
    HandlerKeeps (fun desk : Desk σ => (held desk.store).Sound) handler := by
  have begins := provided_begins backed provided
  constructor
  · intro event desk sound
    obtain ⟨_, _, began⟩ := begins.metadata event desk sound
    exact began.later.sound
  · intro group event message desk sound
    obtain ⟨_, _, began⟩ := begins.messages group event message desk sound
    exact began.later.sound

/-- What a desk lists is what its store holds. -/
private theorem performed_lists {listed : List Conversation} (backed : Backed held)
    (sound : (held desk.store).Sound)
    (answered : (LocalStore.perform .conversations desk).1 = .ok listed) :
    listed = (held desk.store).records.conversations := by
  rw [desk_performed (Prod.eta _).symm] at answered
  have performed : LocalStore.perform .conversations desk.store = (.ok listed, _) :=
    Prod.ext answered rfl
  exact (AnyStore.carried_of_ok sound (backed.ok performed)).2.1

/-- A replay with a handler of this library leaves a store that can be replayed from, and ends early
for the listing of conversations only if that fails. -/
theorem replayable_kept {handlerFor : Bytes → Handler (Desk σ)} {unlisted : Store.Error → Prop}
    (backed : Backed held) (provided : ∀ home, Provided (handlerFor home))
    (refused : ∀ desk e, Replayable held lists desk →
      (LocalStore.perform .conversations desk).1 = .error e → unlisted e) :
    ReplayKeeps (Replayable held lists) unlisted handlerFor where
  account key desk replayable := by
    have began := (backed_desk backed).write_began replayable.sound (.account key "")
    have legible : ∀ write ∈ [Write.account key ""], write.Legible :=
      List.forall_mem_singleton.mpr trivial
    exact replayable.began legible began
  listing desk replayable := by
    have same := (backed_desk backed).listing_unchanged replayable.sound
    exact ⟨same ▸ replayable.sound, same ▸ replayable.legible, same ▸ replayable.refusal⟩
  listed desk listed replayable answered := by
    have stored := performed_lists backed replayable.sound answered
    exact stored ▸ replayable.legible.conversations
  unlisted := refused
  handlers home := provided_keeps backed (provided home)

end Keeping

/-! ### Stores that replays built -/

/-- The stores that were empty and were changed by replays only, and told what to reject between them.
A replay is over either link, of any service and with any token; its store may fail at any point, and
it may end in any way. -/
inductive BuiltByReplays : AnyStore → Prop where
  | empty {store : AnyStore} (empty : store.Empty) : BuiltByReplays store
  | told {store : AnyStore} (built : BuiltByReplays store) (rejectsWrites rejectsLists : Bool) :
      BuiltByReplays (store.told rejectsWrites rejectsLists)
  | replayed {σ : Type} [LocalStore σ] {held : σ → AnyStore} {run after : Run (Desk σ)}
      {outcome : Except (Halt Error) Summary} (backed : Backed held)
      (built : BuiltByReplays (held run.site.store))
      (ran : replayToStore.run run = (outcome, after)) : BuiltByReplays (held after.site.store)

/-- Replays keep stores sound and legible. -/
theorem BuiltByReplays.legible {store : AnyStore} (built : BuiltByReplays store) :
    store.Sound ∧ store.records.Legible := by
  induction built with
  | @empty store empty =>
    refine ⟨empty.sound, ?_⟩
    cases empty <;> exact ⟨nofun, nofun, nofun⟩
  | @told store _ rejectsWrites rejectsLists ih =>
    obtain ⟨sound, legible⟩ := ih
    refine ⟨sound.told rejectsWrites rejectsLists, ?_⟩
    cases store with
    | inMemory records => exact ⟨legible.conversations, legible.members, legible.interactions⟩
    | inTables tables => exact legible
  | @replayed σ _ held run after _ backed _ ran ih =>
    have kept : ReplayKeeps (Replayable held ((held run.site.store).refusal? .conversations))
        (fun _ => True) (toStoreSilently (σ := σ)) :=
      replayable_kept backed (fun home => .toStoreSilently home) fun _ _ _ _ => trivial
    have left := (replayWith_upholds kept).site run ⟨ih.1, ih.2, rfl⟩
    rw [← replayToStore, ran] at left
    exact ⟨left.sound, left.legible⟩

/-- A store that replays built can be replayed from.  It lists no conversation of an unknown type; all
conversations, members and interactions that it holds are legible; and while it does not reject the
listing of conversations, no replay on it, with whichever handler, ends because they cannot be listed
or because the key of one cannot be read. -/
theorem built_replayable {store : AnyStore} (built : BuiltByReplays store) :
    (∀ text, (store.perform .conversations).1 ≠ .error (.unknownConversationType text)) ∧
      (∀ key ∈ store.conversationKeys, Key.ReadsBack key) ∧ store.records.Legible ∧
      ∀ (handlerFor : Bytes → Handler (Desk AnyStore)) (run after : StoreRun)
        (outcome : Except (Halt Error) Summary), (∀ home, Provided (handlerFor home)) →
        run.site.store = store → store.AcceptsLists →
        (replayWith handlerFor).run run = (outcome, after) →
          (∀ e, outcome ≠ .error (.failed (.storeRead e))) ∧
            ∀ key e, outcome ≠ .error (.failed (.deserialization key (.key e))) := by
  obtain ⟨sound, legible⟩ := built.legible
  refine ⟨sound.lists_known, ?_, legible, ?_⟩
  · rw [AnyStore.conversationKeys_eq sound]
    exact List.forall_mem_map.mpr legible.conversations
  · rintro handlerFor run after outcome provided rfl accepts ran
    have listed : ∀ (desk : Desk AnyStore) (e : Store.Error), Replayable id none desk →
        (LocalStore.perform .conversations desk).1 = .error e → False := by
      intro desk e replayable failed
      rw [desk_performed (Prod.eta _).symm] at failed
      obtain ⟨_, performed, _⟩ := AnyStore.perform_carried replayable.sound replayable.refusal
      cases (congrArg Prod.fst performed).symm.trans failed
    have kept : ReplayKeeps (Replayable id none) (fun _ => False) handlerFor :=
      replayable_kept backed_id provided listed
    have error (halt : Halt Error) (ended : outcome = .error halt) :
        Spares (fun _ => False) halt := by
      refine (replayWith_upholds kept).error run halt ⟨sound, legible, accepts.refusal⟩ ?_
      rw [ran, ended]
    exact ⟨fun e ended => error _ ended, fun key e ended => error _ ended⟩

/-- A database that failed in a replay, between the note of an acknowledgement and the flag of its
interaction, and a replay over a connection that was cancelled after one event: all that is left can
be read, and a recording replay counts it all. -/
theorem broken_off_replayable :
    let first : Run (Desk Failing) :=
      { service := answeredAtHome, site.store := ⟨.inTables {}, 6⟩ }
    let second : StoreRun :=
      { service := answeredAtHome, link := .remote, token := .afterApplies 1
        site.store := (replayToStore.run first).2.site.store.store }
    let left := (replayToStore.run second).2.site.store
    let third : StoreRun := { service := answeredAtHome, link := .remote, site.store := left }
    (replayToStore.run second).1 = .error (.failed (.metadata "AQ" (.listing .cancelled))) ∧
      left.records.interactions.map (fun i => (i.cid, i.acknowledged)) = [("Cw", false)] ∧
      Key.ReadsBack "Ag" ∧ left.records.Legible ∧
      ((replay recording).run third).1 = .ok ⟨1, 1, 2⟩ ∧
      ∀ e, ((replay recording).run third).1 ≠ .error (.failed (.storeRead e)) := by
  intro first second left third
  have empty : BuiltByReplays (Failing.store first.site.store) := .empty .inTables
  have started : BuiltByReplays (Failing.store (replayToStore.run first).2.site.store) :=
    .replayed Failing.backed empty (Prod.eta (replayToStore.run first)).symm
  have again : BuiltByReplays (id second.site.store) := started
  have built : BuiltByReplays left :=
    .replayed backed_id again (Prod.eta (replayToStore.run second)).symm
  obtain ⟨_, keys, legible, later⟩ := built_replayable built
  have kept : "Ag" ∈ left.conversationKeys := by decide +kernel
  have accepts : left.AcceptsLists := by decide +kernel
  have unlisted := (later (fun _ => recording) third _ _ (fun _ => .recording) rfl accepts
    (Prod.eta _).symm).1
  exact ⟨by decide +kernel, by decide +kernel, keys "Ag" kept, legible, by decide +kernel, unlisted⟩

end Replay

end GroupReplay
