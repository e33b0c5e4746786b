import GroupReplay.Proofs.Handing

/-!
When the handler that writes into a store fails, with which error, and that nothing has changed then.
There are two kinds of reasons.  What is handed over may be malformed, which can be told from it alone
and is told before anything is written.  Or the store refuses the first of the writes that it comes
to: in memory because all writes are rejected, in tables because of a NUL in one of the two texts that
are not texts of keys, an acknowledgement's target and the conversation that a message is stored for.
Both kinds leave the desk as it was: all records, acknowledgements without an interaction among them,
and all notices.
-/

namespace GroupReplay.Projection

open Wire Store

/-- A metadata event of a type. -/
def OfType (type : EventType) (event : MetadataEvent) : Prop :=
  ∃ metadata, event.metadata = some metadata ∧
    EventType.ofNumber? metadata.eventType = some type

/-- A message that acknowledges another. -/
def Delivery.Acknowledges (delivery : Delivery) : Prop :=
  AppMessageType.ofNumber? delivery.message.type = some .acknowledge

instance (delivery : Delivery) : Decidable delivery.Acknowledges :=
  inferInstanceAs (Decidable (_ = _))

/-- The text that a message passes to the store besides texts of keys. -/
def Delivery.text (delivery : Delivery) : String :=
  if delivery.Acknowledges then delivery.message.target else delivery.conversation

namespace Handed

/-- What cannot be applied whatever the store, and the error that says why. -/
inductive Malformed : Handed → Error → Prop where
  | eventWithoutContext {event : MetadataEvent} (absent : event.context = none) :
      Malformed (.metadata event) (.invalid .noContext)
  | withoutMetadata {event : MetadataEvent} {context : EventContext}
      (present : event.context = some context) (absent : event.metadata = none) :
      Malformed (.metadata event) (.invalid .noMetadata)
  | undecodableJoined {event : MetadataEvent} {context : EventContext} {e : DecodeError}
      (present : event.context = some context) (joined : OfType .groupJoined event)
      (undecodable : Message.decode (α := GroupJoined) event.event = .error e) :
      Malformed (.metadata event) (.payload e)
  | withoutGroup {event : MetadataEvent} {context : EventContext} {content : GroupJoined}
      (present : event.context = some context) (joined : OfType .groupJoined event)
      (decodes : Message.decode event.event = .ok content) (absent : content.group = none) :
      Malformed (.metadata event) (.invalid .noGroup)
  | undecodableDevice {event : MetadataEvent} {context : EventContext} {e : DecodeError}
      (present : event.context = some context) (added : OfType .memberDeviceAdded event)
      (undecodable : Message.decode (α := DeviceAdded) event.event = .error e) :
      Malformed (.metadata event) (.payload e)
  | messageWithoutContext {delivery : Delivery} (absent : delivery.event.context = none) :
      Malformed (.message delivery) (.invalid .noContext)
  | withoutTarget {delivery : Delivery} {context : EventContext}
      (present : delivery.event.context = some context) (acknowledges : delivery.Acknowledges)
      (absent : delivery.message.target = "") :
      Malformed (.message delivery) (.invalid (.noTarget (Key.encode context.id)))
  | undecodableText {delivery : Delivery} {context : EventContext} {e : DecodeError}
      (present : delivery.event.context = some context)
      (stored : storedType? delivery.message.type = some .userMessage)
      (undecodable : Message.decode (α := UserMessage) delivery.message.payload = .error e) :
      Malformed (.message delivery) (.payload e)

/-- Why a store refuses to write what is handed over. -/
inductive Refused : AnyStore → Handed → Store.Error → Prop where
  | rejecting {records : Records} (rejects : records.rejectsWrites = true) (handed : Handed) :
      Refused (.inMemory records) handed (.unavailable "write rejected")
  | nul (tables : Tables) {delivery : Delivery} (holds : holdsNul delivery.text = true) :
      Refused (.inTables tables) (.message delivery) .database

variable {account : Bytes} {announcing : Bool} {handed : Handed} {store : AnyStore}
  {desk after : Desk AnyStore} {e : Error}

/-! ### What is malformed -/

private theorem joined_malformed {event : MetadataEvent} {context : EventContext}
    (present : event.context = some context) (joined : OfType .groupJoined event)
    (fails : joinedWrites event = .error e) : Malformed (.metadata event) e := by
  unfold joinedWrites at fails
  split at fails
  · next undecodable =>
    cases fails
    exact .undecodableJoined present joined undecodable
  · next content decodes =>
    split at fails
    · next absent =>
      cases fails
      exact .withoutGroup present joined decodes absent
    · cases fails

private theorem device_malformed {event : MetadataEvent} {context : EventContext}
    (present : event.context = some context) (added : OfType .memberDeviceAdded event)
    (fails : deviceWrites account context event = .error e) : Malformed (.metadata event) e := by
  unfold deviceWrites at fails
  split at fails
  · next undecodable =>
    cases fails
    exact .undecodableDevice present added undecodable
  · cases fails

private theorem metadata_malformed {event : MetadataEvent}
    (fails : metadataWrites account event = .error e) : Malformed (.metadata event) e := by
  unfold metadataWrites at fails
  split at fails
  · next absent =>
    cases fails
    exact .eventWithoutContext absent
  · next context present absent =>
    cases fails
    exact .withoutMetadata present absent
  · next context metadata present holds =>
    split at fails
    · next type => exact joined_malformed present ⟨metadata, holds, type⟩ fails
    · next type => exact device_malformed present ⟨metadata, holds, type⟩ fails
    · cases fails

private theorem message_malformed {delivery : Delivery} (fails : delivery.writes = .error e) :
    Malformed (.message delivery) e := by
  unfold Delivery.writes messageWrites at fails
  split at fails
  · next absent =>
    cases fails
    exact .messageWithoutContext absent
  · next context present =>
    dsimp only at fails
    split at fails
    · next acknowledges =>
      split at fails
      · next absent =>
        cases fails
        exact .withoutTarget present acknowledges absent
      · cases fails
    · split at fails
      · cases fails
      · next type stored =>
        split at fails
        · next text =>
          subst text
          split at fails
          · next undecodable =>
            cases fails
            exact .undecodableText present stored undecodable
          · cases fails
        · cases fails

/-- What comes to no list of writes is what is malformed. -/
theorem writes_error_iff : handed.writes account = .error e ↔ handed.Malformed e := by
  constructor
  · intro fails
    cases handed with
    | metadata event => exact metadata_malformed fails
    | message delivery => exact message_malformed fails
  · intro malformed
    cases malformed with
    | eventWithoutContext absent => simp [writes, metadataWrites, absent]
    | withoutMetadata present absent => simp [writes, metadataWrites, present, absent]
    | undecodableJoined present joined undecodable =>
      obtain ⟨metadata, holds, type⟩ := joined
      simp [writes, metadataWrites, joinedWrites, present, holds, type, undecodable]
    | withoutGroup present joined decodes absent =>
      obtain ⟨metadata, holds, type⟩ := joined
      simp [writes, metadataWrites, joinedWrites, present, holds, type, decodes, absent]
    | undecodableDevice present added undecodable =>
      obtain ⟨metadata, holds, type⟩ := added
      simp [writes, metadataWrites, deviceWrites, present, holds, type, undecodable]
    | messageWithoutContext absent => simp [writes, Delivery.writes, messageWrites, absent]
    | withoutTarget present acknowledges absent =>
      have acknowledges : AppMessageType.ofNumber? _ = some .acknowledge := acknowledges
      simp [writes, Delivery.writes, messageWrites, present, acknowledges, absent]
    | @undecodableText delivery context e present stored undecodable =>
      have other : AppMessageType.ofNumber? delivery.message.type ≠ some .acknowledge := by
        intro acknowledges
        rw [storedType?, acknowledges] at stored
        cases stored
      simp [writes, Delivery.writes, messageWrites, present, other, stored, undecodable]

/-! ### What is refused -/

/-- A write of a conversation passes on the text of a key and that of a kind. -/
private theorem conversation_text (key : Bytes) (type : ConversationType) :
    (conversationWrite ⟨Key.encode key, type⟩).1.op.texts.any holdsNul = false := by
  have kind : holdsNul type.text = false := by cases type <;> decide
  simp [conversationWrite, Write.op, Op.texts, key_clear, kind]

/-- A write of an interaction passes on the conversation, and otherwise texts of keys. -/
private theorem interaction_text (conversation : String) (id : Bytes) (event : MessageEvent)
    (type : AppMessageType) (message : AppMessage) :
    (Op.addInteraction (interaction conversation (Key.encode id) event type message)).texts.any
      holdsNul = holdsNul conversation := by
  have device : holdsNul
      (interaction conversation (Key.encode id) event type message).device = false := by
    unfold interaction
    cases event.headers with
    | none => rfl
    | some headers => exact key_clear headers.deviceKey
  simp only [Op.texts, List.any_cons, List.any_nil, device, Bool.or_false]
  simp only [interaction, key_clear, Bool.false_or]

private theorem joined_text {event : MetadataEvent} {first : Noticed} {rest : List Noticed}
    (comes : joinedWrites event = .ok (first :: rest)) :
    first.1.op.texts.any holdsNul = false := by
  unfold joinedWrites at comes
  split at comes
  · cases comes
  · split at comes <;> cases comes
    exact conversation_text _ _

private theorem device_text {context : EventContext} {event : MetadataEvent} {first : Noticed}
    {rest : List Noticed} (comes : deviceWrites account context event = .ok (first :: rest)) :
    first.1.op.texts.any holdsNul = false := by
  unfold deviceWrites at comes
  split at comes
  · cases comes
  · dsimp only at comes
    by_cases own : context.group = account
    · rw [if_pos own] at comes
      cases comes
      exact conversation_text _ _
    · rw [if_neg own] at comes
      cases comes
      simp [Write.op, Op.texts, key_clear]

private theorem metadata_text {event : MetadataEvent} {first : Noticed} {rest : List Noticed}
    (comes : metadataWrites account event = .ok (first :: rest)) :
    first.1.op.texts.any holdsNul = false := by
  unfold metadataWrites at comes
  split at comes
  · cases comes
  · cases comes
  · split at comes
    · exact joined_text comes
    · exact device_text comes
    · cases comes

private theorem message_text {delivery : Delivery} {first : Noticed} {rest : List Noticed}
    (comes : delivery.writes = .ok (first :: rest)) :
    first.1.op.texts.any holdsNul = holdsNul delivery.text := by
  unfold Delivery.writes messageWrites at comes
  split at comes
  · cases comes
  · dsimp only at comes
    split at comes
    · next acknowledges =>
      have own : delivery.text = delivery.message.target := if_pos acknowledges
      split at comes <;> cases comes
      simp [Write.op, Op.texts, own]
    · next other =>
      have own : delivery.text = delivery.conversation := if_neg other
      split at comes
      · cases comes
      · rw [own]
        split at comes
        · split at comes <;> cases comes
          exact interaction_text _ _ _ _ _
        · cases comes
          exact interaction_text _ _ _ _ _

private theorem refusal_rejecting (records : Records) (write : Write) : records.refusal? write.op =
    if records.rejectsWrites then some (.unavailable "write rejected") else none := by
  cases write <;> rfl

/-- A store refuses the first of the writes that something comes to for one of the reasons. -/
theorem refusal_iff {first : Noticed} {rest : List Noticed} {refusal : Store.Error}
    (comes : handed.writes account = .ok (first :: rest)) :
    store.refusal? first.1.op = some refusal ↔ Refused store handed refusal := by
  cases store with
  | inMemory records =>
    simp only [AnyStore.refusal?, refusal_rejecting, Option.ite_none_right_eq_some,
      Option.some.injEq]
    constructor
    · rintro ⟨rejects, rfl⟩
      exact .rejecting rejects handed
    · intro refused
      cases refused with
      | rejecting rejects => exact ⟨rejects, rfl⟩
  | inTables tables =>
    simp only [AnyStore.refusal?, Tables.refusal?, Option.ite_none_right_eq_some,
      Option.some.injEq]
    cases handed with
    | metadata event =>
      rw [metadata_text comes]
      constructor
      · rintro ⟨holds, _⟩
        cases holds
      · intro refused
        cases refused
    | message delivery =>
      rw [message_text comes]
      constructor
      · rintro ⟨holds, rfl⟩
        exact .nul tables holds
      · intro refused
        cases refused with
        | nul _ holds => exact ⟨holds, rfl⟩

/-- What is handed over fails exactly if it is malformed or if it comes to a write and the store
refuses it, and nothing at all has changed then. -/
theorem failed_apply (reachable : Reachable desk.store) (account : Bytes) (announcing : Bool)
    (handed : Handed) (e : Error) (after : Desk AnyStore) :
    (handed.apply account announcing).run desk = (.error e, after) ↔
      after = desk ∧ (handed.Malformed e ∨
        ∃ refusal, e = .storage refusal ∧ writesOf (handed.writes account) ≠ [] ∧
          Refused desk.store handed refusal) := by
  constructor
  · intro failed
    refine ⟨unchanged_of_failed reachable.sound failed, ?_⟩
    rw [apply_writes] at failed
    cases comes : handed.writes account with
    | error cause =>
      rw [comes] at failed
      cases failed
      exact .inl (writes_error_iff.mp comes)
    | ok writes =>
      rw [comes] at failed
      cases writes with
      | nil => cases failed
      | cons first rest =>
        cases refused : desk.store.refusal? first.1.op with
        | none =>
          obtain ⟨_, made⟩ : ∃ later,
              (writeAll announcing (first :: rest)).run desk = (.ok (), later) :=
            writeAll_accepted reachable.sound (accepted_of_first comes refused)
          cases made.symm.trans failed
        | some refusal =>
          have ended := (writeAll_refused refused).symm.trans failed
          cases ended
          exact .inr ⟨refusal, rfl, List.cons_ne_nil _ _, (refusal_iff comes).mp refused⟩
  · rintro ⟨rfl, malformed | ⟨refusal, rfl, writing, refused⟩⟩
    · rw [apply_writes, writes_error_iff.mpr malformed]
      rfl
    · rw [apply_writes]
      cases comes : handed.writes account with
      | error cause =>
        rw [comes] at writing
        exact absurd rfl writing
      | ok writes =>
        cases writes with
        | nil =>
          rw [comes] at writing
          exact absurd rfl writing
        | cons first rest => exact writeAll_refused ((refusal_iff comes).mpr refused)

/-- An acknowledgement whose target holds a NUL, refused by tables, and a device of the home group,
which comes to two writes, refused by memory that rejects writes. -/
theorem refused_unchanged_desks :
    let tables : Desk AnyStore :=
      { store := ((AnyStore.inTables {}).perform (.acknowledge "b")).2
        notices := [.interactionAcknowledged "b"] }
    let memory : Desk AnyStore := { store := .inMemory { rejectsWrites := true } }
    let target : Handed := .message (.posted [1] [2]
      { type := AppMessageType.acknowledge.number, target := "b\x00" })
    let device : Handed := .metadata (.of [1] [2] EventType.memberDeviceAdded.number
      ({ memberKey := [3], deviceKey := [4] } : DeviceAdded))
    (target.apply [1] true).run tables = (.error (.storage .database), tables) ∧
      (device.apply [1] true).run memory =
        (.error (.storage (.unavailable "write rejected")), memory) := by
  intro tables memory target device
  have written : Reachable tables.store := .perform .tables _
  have rejecting : Reachable memory.store := .told (.memory false) true false
  exact ⟨(failed_apply written [1] true target _ tables).mpr
      ⟨rfl, .inr ⟨.database, rfl, by decide +kernel, .nul _ (by decide +kernel)⟩⟩,
    (failed_apply rejecting [1] true device _ memory).mpr
      ⟨rfl, .inr ⟨_, rfl, by decide +kernel, .rejecting rfl device⟩⟩⟩

end Handed

end GroupReplay.Projection
