import GroupReplay.Projection.ToStore
import GroupReplay.Proofs.Actions
import GroupReplay.Proofs.StoreView

/-!
What the handler that writes into a store makes of an event: it is either refused outright or comes
to a list of writes, each with the notice of the change that it may be.  The list depends on the
event alone, and a store that holds the records of all writes of the list is left as it is.
-/

namespace GroupReplay.Projection

open Wire Store

/-- A write, and the notice of the change that it may be. -/
abbrev Noticed := Write × Notice

/-- The write of a conversation. -/
def conversationWrite (added : Conversation) : Noticed :=
  (.conversation added, .conversationAdded added.key)

/-- The writes that the joining of a group comes to. -/
def joinedWrites (event : MetadataEvent) : Except Error (List Noticed) :=
  match Message.decode (α := GroupJoined) event.event with
  | .error e => .error (.payload e)
  | .ok joined =>
    match joined.group with
    | none => .error (.invalid .noGroup)
    | some group =>
      .ok [conversationWrite ⟨Key.encode group.key, conversationType group.groupType⟩]

/-- The writes that the adding of a device comes to. -/
def deviceWrites (account : Bytes) (context : EventContext) (event : MetadataEvent) :
    Except Error (List Noticed) :=
  match Message.decode (α := DeviceAdded) event.event with
  | .error e => .error (.payload e)
  | .ok added =>
    let conversation := Key.encode context.group
    let member := Key.encode added.memberKey
    let own := if context.group = account then [conversationWrite ⟨conversation, .account⟩] else []
    .ok (own ++ [(.member ⟨conversation, member, Key.encode added.deviceKey⟩,
      .memberAdded conversation member)])

/-- The writes that a metadata event comes to. -/
def metadataWrites (account : Bytes) (event : MetadataEvent) : Except Error (List Noticed) :=
  match event.context, event.metadata with
  | none, _ => .error (.invalid .noContext)
  | some _, none => .error (.invalid .noMetadata)
  | some context, some metadata =>
    match EventType.ofNumber? metadata.eventType with
    | some .groupJoined => joinedWrites event
    | some .memberDeviceAdded => deviceWrites account context event
    | _ => .ok []

/-- The writes that a message comes to. -/
def messageWrites (conversation : String) (event : MessageEvent) (message : AppMessage) :
    Except Error (List Noticed) :=
  match event.context with
  | none => .error (.invalid .noContext)
  | some context =>
    let cid := Key.encode context.id
    if AppMessageType.ofNumber? message.type = some .acknowledge then
      if message.target = "" then .error (.invalid (.noTarget cid))
      else .ok [(.acknowledgement message.target, .interactionAcknowledged message.target)]
    else match storedType? message.type with
      | none => .ok []
      | some type =>
        let stored : Noticed :=
          (.interaction (interaction conversation cid event type message),
            .interactionAdded conversation cid)
        if type = .userMessage then
          match Message.decode (α := UserMessage) message.payload with
          | .error e => .error (.payload e)
          | .ok _ => .ok [stored]
        else .ok [stored]

/-- The writes without their notices; what is refused comes to none. -/
def writesOf : Except Error (List Noticed) → List Write
  | .error _ => []
  | .ok writes => writes.map Prod.fst

/-- An event that concerns the account: it joined a group, or a device was added to its own. -/
def OfAccount (home : Bytes) (event : MetadataEvent) : Prop :=
  ∃ metadata, event.metadata = some metadata ∧
    (EventType.ofNumber? metadata.eventType = some .groupJoined ∨
      EventType.ofNumber? metadata.eventType = some .memberDeviceAdded ∧
        ∃ context, event.context = some context ∧ context.group = home)

/-- A write that is not of a conversation. -/
def AddsNone (write : Write) : Prop := ∀ added, write ≠ .conversation added

/-- Only events that concern the account add conversations. -/
theorem metadataWrites_add_none {home : Bytes} {event : MetadataEvent}
    (other : ¬ OfAccount home event) :
    ∀ write ∈ writesOf (metadataWrites home event), AddsNone write := by
  unfold metadataWrites
  cases context : event.context with
  | none => exact nofun
  | some inside =>
    cases metadata : event.metadata with
    | none => exact nofun
    | some data =>
      dsimp only
      split
      · next joined => exact absurd ⟨data, metadata, .inl joined⟩ other
      · next added =>
        have foreign : inside.group ≠ home := fun own =>
          other ⟨data, metadata, .inr ⟨added, inside, context, own⟩⟩
        unfold deviceWrites
        split
        · exact nofun
        · simp [writesOf, foreign, AddsNone]
      · exact nofun

/-- Messages come to interactions and acknowledgements alone. -/
theorem messageWrites_kinds (conversation : String) (event : MessageEvent) (message : AppMessage) :
    ∀ write ∈ writesOf (messageWrites conversation event message),
      (∃ added, write = .interaction added) ∨ ∃ cid, write = .acknowledgement cid := by
  unfold messageWrites
  cases event.context with
  | none => exact nofun
  | some context =>
    dsimp only
    split
    · split <;> simp [writesOf]
    · split
      · exact nofun
      · split
        · split <;> simp [writesOf]
        · simp [writesOf]

theorem messageWrites_add_none (conversation : String) (event : MessageEvent)
    (message : AppMessage) :
    ∀ write ∈ writesOf (messageWrites conversation event message), AddsNone write := by
  intro write member added same
  obtain ⟨_, rfl⟩ | ⟨_, rfl⟩ := messageWrites_kinds conversation event message write member <;>
    cases same

section Handler

variable {σ : Type} [LocalStore σ]

/-- Makes writes one after the other, and announces those that were changes if changes are to be
announced. -/
def writeAll (announcing : Bool) : List Noticed → Action (Desk σ) Error Unit
  | [] => pure ()
  | (write, notice) :: rest => do
    let changed ← Desk.perform write.op
    announceIf announcing changed notice
    writeAll announcing rest

private theorem groupJoined_writes (announcing : Bool) (event : MetadataEvent) :
    (groupJoined announcing event : Action (Desk σ) Error Unit) =
      .ofExcept (joinedWrites event) >>= writeAll announcing := by
  unfold groupJoined joinedWrites decoded
  cases Message.decode (α := GroupJoined) event.event with
  | error e => rfl
  | ok joined =>
    cases named : joined.group with
    | none => simp only [pure_bind, named]; rfl
    | some group =>
      simp only [pure_bind, named, Action.ofExcept_ok]
      simp [addConversation, conversationWrite, writeAll, Write.op]

private theorem deviceAdded_writes (account : Bytes) (announcing : Bool) (context : EventContext)
    (event : MetadataEvent) :
    (deviceAdded account announcing context event : Action (Desk σ) Error Unit) =
      .ofExcept (deviceWrites account context event) >>= writeAll announcing := by
  unfold deviceAdded deviceWrites decoded
  cases Message.decode (α := DeviceAdded) event.event with
  | error e => rfl
  | ok added =>
    by_cases own : context.group = account <;>
      simp [own, Action.ofExcept_ok, addConversation, conversationWrite, writeAll, Write.op]

/-- A metadata event is refused, or its writes are made. -/
theorem applyMetadata_writes (account : Bytes) (announcing : Bool) (event : MetadataEvent) :
    (applyMetadata account announcing event : Action (Desk σ) Error Unit) =
      .ofExcept (metadataWrites account event) >>= writeAll announcing := by
  unfold applyMetadata metadataWrites contextOf
  cases event.context with
  | none => rfl
  | some context =>
    cases event.metadata with
    | none => rfl
    | some metadata =>
      simp only [pure_bind]
      cases EventType.ofNumber? metadata.eventType with
      | none => rfl
      | some type =>
        cases type with
        | groupJoined => exact groupJoined_writes announcing event
        | memberDeviceAdded => exact deviceAdded_writes account announcing context event
        | _ => rfl

private theorem acknowledge_writes (announcing : Bool) (cid : String) (message : AppMessage) :
    (acknowledge announcing cid message : Action (Desk σ) Error Unit) =
      .ofExcept (if message.target = "" then .error (.invalid (.noTarget cid))
        else .ok [(.acknowledgement message.target, .interactionAcknowledged message.target)]) >>=
          writeAll announcing := by
  unfold acknowledge
  by_cases empty : message.target = ""
  · simp [empty, Action.ofExcept_error, Action.fail_bind]
  · simp [empty, Action.ofExcept_ok, writeAll, Write.op]

/-- A message is refused, or its writes are made. -/
theorem applyMessage_writes (announcing : Bool) (conversation : String) (event : MessageEvent)
    (message : AppMessage) :
    (applyMessage announcing conversation event message : Action (Desk σ) Error Unit) =
      .ofExcept (messageWrites conversation event message) >>= writeAll announcing := by
  unfold applyMessage messageWrites contextOf
  cases event.context with
  | none => rfl
  | some context =>
    simp only [pure_bind]
    split
    · exact acknowledge_writes announcing _ message
    · cases storedType? message.type with
      | none => rfl
      | some type =>
        by_cases user : type = .userMessage
        · simp only [user, ↓reduceIte, decoded]
          cases Message.decode (α := UserMessage) message.payload with
          | error e => rfl
          | ok value => simp [Action.ofExcept_ok, writeAll, Write.op]
        · simp [user, Action.ofExcept_ok, writeAll, Write.op]

end Handler

/-! ### Writes that are made -/

section Made

variable {σ : Type} [LocalStore σ] {held : σ → AnyStore} {desk after : Desk σ} {announcing : Bool}
  {writes : List Noticed}

/-- A desk after a write, if there is something to announce or not. -/
def written (store : σ) (notices : List Notice) (desk : Desk σ) : Desk σ :=
  { desk with store, notices := desk.notices ++ notices }

theorem writeAll_cons_run (write : Write) (notice : Notice) :
    (writeAll announcing ((write, notice) :: writes)).run desk =
      match LocalStore.perform write.op desk.store with
      | (.ok changed, store) => (writeAll announcing writes).run
          (written store (if announcing && changed then [notice] else []) desk)
      | (.error e, store) => (.error (.storage e), { desk with store }) := by
  have performed : (Desk.perform write.op : Action (Desk σ) Error Bool).run desk =
      ((LocalStore.perform write.op desk.store).1.mapError .storage,
        { desk with store := (LocalStore.perform write.op desk.store).2 }) := by
    rw [Desk.perform, Action.run_mapError]
    rfl
  rw [writeAll, Action.run_bind, performed]
  cases LocalStore.perform write.op desk.store with
  | mk result store =>
    cases result with
    | error e => rfl
    | ok changed =>
      cases announcing <;> cases changed <;>
        simp [announceIf, Desk.announce, written, Action.run_bind]

/-- Writes are made one after the other, up to the first that fails. -/
theorem writeAll_began {result : Except Error Unit} (backed : Backed held)
    (sound : (held desk.store).Sound) (ran : (writeAll announcing writes).run desk = (result, after)) :
    (held desk.store).Began (writes.map Prod.fst) (held after.store) ∧
      (result = .ok () →
        (held desk.store).Wrote (writes.map Prod.fst) (held after.store)) := by
  induction writes generalizing desk with
  | nil => cases ran; exact ⟨.none sound [], fun _ => .refl sound⟩
  | cons each rest ih =>
    obtain ⟨write, notice⟩ := each
    rw [writeAll_cons_run] at ran
    cases performed : LocalStore.perform write.op desk.store with
    | mk answer store =>
      rw [performed] at ran
      cases answer with
      | error e =>
        cases ran
        have broken : Broken write.op (held desk.store) (held store) := backed.error sound performed
        exact ⟨(broken.began sound).append (rest.map Prod.fst), nofun⟩
      | ok changed =>
        have wrote := AnyStore.wrote_of_ok sound (backed.ok performed)
        obtain ⟨began, ended⟩ := ih wrote.later.sound ran
        exact ⟨wrote.then_began began, fun succeeded => wrote.append (ended succeeded)⟩

end Made

/-! ### Writes that are settled -/

section Settling

variable {store : AnyStore} {desk after : Desk AnyStore} {announcing : Bool} {writes : List Noticed}

/-- A store holds the record of a write and does not refuse it. -/
def Settled (store : AnyStore) (write : Write) : Prop :=
  store.records.Holds write ∧ store.refusal? write.op = none

theorem Settled.later {write : Write} {later : AnyStore} (settled : Settled store write)
    (became : store.Later later) : Settled later write :=
  ⟨settled.1.grows became.grows, (became.refusal _).trans settled.2⟩

/-- A write that is settled changes nothing. -/
theorem Settled.perform {write : Write} (sound : store.Sound) (settled : Settled store write) :
    store.perform write.op = (.ok false, store) := by
  obtain ⟨held, accepted⟩ := settled
  cases store with
  | inMemory records =>
    have unchanged : Records.carry write.op records = (false, records) :=
      Records.carry_held sound held
    simp only [AnyStore.perform, Records.perform_carried accepted, unchanged]
  | inTables tables => simp only [AnyStore.perform, Tables.perform_held sound accepted held]

/-- A write that was not refused is settled. -/
theorem settled_of_performed {write : Write} {answer : Bool} {later : AnyStore}
    (sound : store.Sound) (performed : store.perform write.op = (.ok answer, later)) :
    Settled later write := by
  obtain ⟨accepted, _, records, became⟩ := AnyStore.carried_of_ok sound performed
  exact ⟨records ▸ Records.holds_carry sound.records _, (became.refusal _).trans accepted⟩

private theorem writeAll_later {result : Except Error Unit} (sound : desk.store.Sound)
    (ran : (writeAll announcing writes).run desk = (result, after)) :
    desk.store.Later after.store := by
  exact (writeAll_began backed_id (by exact sound) ran).1.later

/-- Writes that were made are settled. -/
theorem writeAll_settles (sound : desk.store.Sound)
    (ran : (writeAll announcing writes).run desk = (.ok (), after)) :
    ∀ each ∈ writes, Settled after.store each.1 := by
  induction writes generalizing desk with
  | nil => exact nofun
  | cons each rest ih =>
    obtain ⟨write, notice⟩ := each
    rw [writeAll_cons_run] at ran
    cases performed : LocalStore.perform write.op desk.store with
    | mk answer store =>
      rw [performed] at ran
      cases answer with
      | error e => cases ran
      | ok changed =>
        have became := (AnyStore.wrote_of_ok sound performed).later
        exact List.forall_mem_cons.mpr
          ⟨(settled_of_performed sound performed).later (writeAll_later became.sound ran),
            ih became.sound ran⟩

/-- Writes that are settled change nothing and leave nothing to announce. -/
theorem writeAll_settled (sound : desk.store.Sound)
    (settled : ∀ each ∈ writes, Settled desk.store each.1) :
    (writeAll announcing writes).run desk = (.ok (), desk) := by
  induction writes with
  | nil => rfl
  | cons each rest ih =>
    obtain ⟨write, notice⟩ := each
    obtain ⟨held, others⟩ := List.forall_mem_cons.mp settled
    have performed : LocalStore.perform write.op desk.store = (.ok false, desk.store) :=
      held.perform sound
    have kept : written desk.store (if announcing && false then [notice] else []) desk = desk := by
      simp [written]
    rw [writeAll_cons_run, performed]
    exact (congrArg (writeAll announcing rest).run kept).trans (ih others)

/-! ### Writes that are refused -/

/-- A write that is refused ends the list, and changes and announces nothing. -/
theorem writeAll_refused {write : Write} {notice : Notice} {e : Store.Error}
    (refused : desk.store.refusal? write.op = some e) :
    (writeAll announcing ((write, notice) :: writes)).run desk = (.error (.storage e), desk) := by
  have performed : LocalStore.perform write.op desk.store = (.error e, desk.store) :=
    AnyStore.perform_refused refused
  rw [writeAll_cons_run, performed]

/-- Writes of which none is refused are made. -/
theorem writeAll_accepted (sound : desk.store.Sound)
    (accepted : ∀ each ∈ writes, desk.store.refusal? each.1.op = none) :
    ∃ after, (writeAll announcing writes).run desk = (.ok (), after) := by
  induction writes generalizing desk with
  | nil => exact ⟨desk, rfl⟩
  | cons each rest ih =>
    obtain ⟨write, notice⟩ := each
    obtain ⟨here, others⟩ := List.forall_mem_cons.mp accepted
    obtain ⟨store, carried, _, became⟩ := AnyStore.perform_carried sound here
    have performed : LocalStore.perform write.op desk.store = (.ok _, store) := carried
    rw [writeAll_cons_run, performed]
    refine ih became.sound fun each member => ?_
    exact (became.refusal each.1.op).trans (others each member)

/-- No write that was made is one that the store refuses. -/
theorem accepted_of_writeAll (sound : desk.store.Sound)
    (ran : (writeAll announcing writes).run desk = (.ok (), after)) :
    ∀ each ∈ writes, desk.store.refusal? each.1.op = none := by
  intro each member
  exact ((writeAll_later sound ran).refusal each.1.op).symm.trans
    (writeAll_settles sound ran each member).2

end Settling

end GroupReplay.Projection
