import GroupReplay.Proofs.KeyText
import GroupReplay.Proofs.ProjectionWrites
import GroupReplay.Wire.Event
import Mathlib.Control.Monad.Basic

/-!
What is handed to the handler that writes into a store: metadata events and decoded messages.  One
that fails leaves the desk as it was, since of the writes that it comes to the first is refused or
none is; one that succeeds has made all of them, and whether it succeeds depends on nothing but what
the store refuses.
-/

namespace GroupReplay.Projection

open Wire Store

/-- A message as it is handed over: decoded, with the conversation that it belongs to. -/
structure Delivery where
  conversation : String
  event : MessageEvent
  message : AppMessage
  deriving DecidableEq

/-- A message of a group, under an id, as it is handed over. -/
def Delivery.posted (group id : Bytes) (message : AppMessage) : Delivery :=
  ⟨Key.encode group, .of group id [9] message, message⟩

/-- What a handler is handed. -/
inductive Handed where
  | metadata (event : MetadataEvent)
  | message (delivery : Delivery)
  deriving DecidableEq

section Applying

variable {σ : Type} [LocalStore σ]

/-- Applies a message that was handed over. -/
def Delivery.apply (announcing : Bool) (delivery : Delivery) : Action (Desk σ) Error Unit :=
  applyMessage announcing delivery.conversation delivery.event delivery.message

/-- Applies what was handed over to the handler of an account. -/
def Handed.apply (account : Bytes) (announcing : Bool) : Handed → Action (Desk σ) Error Unit
  | metadata event => applyMetadata account announcing event
  | message delivery => delivery.apply announcing

end Applying

/-- The writes that a message that was handed over comes to. -/
def Delivery.writes (delivery : Delivery) : Except Error (List Noticed) :=
  messageWrites delivery.conversation delivery.event delivery.message

namespace Handed

/-- The writes that what was handed over comes to. -/
def writes (account : Bytes) : Handed → Except Error (List Noticed)
  | metadata event => metadataWrites account event
  | message delivery => delivery.writes

theorem apply_writes {σ : Type} [LocalStore σ] (account : Bytes) (announcing : Bool)
    (handed : Handed) :
    (handed.apply account announcing : Action (Desk σ) Error Unit) =
      .ofExcept (handed.writes account) >>= writeAll announcing := by
  cases handed with
  | metadata event => exact applyMetadata_writes account announcing event
  | message delivery =>
    exact applyMessage_writes announcing delivery.conversation delivery.event delivery.message

variable {account : Bytes} {announcing : Bool} {handed : Handed} {store : AnyStore}
  {desk after : Desk AnyStore}

/-! ### What is refused -/

/-- The text of a key can stand in a statement. -/
theorem key_clear (key : Bytes) : holdsNul (Key.encode key) = false := by
  rw [holdsNul, List.any_eq_false]
  intro char member
  simpa using Key.encode_ne_nul key char member

/-- A message comes to one write at most. -/
private theorem message_writes_one {delivery : Delivery} {first : Noticed} {rest : List Noticed}
    (comes : delivery.writes = .ok (first :: rest)) : rest = [] := by
  unfold Delivery.writes messageWrites at comes
  cases context : delivery.event.context with
  | none => simp [context] at comes
  | some inside =>
    simp only [context] at comes
    split at comes
    · split at comes <;> cases comes
      rfl
    · split at comes
      · cases comes
      · split at comes
        · split at comes <;> cases comes
          rfl
        · cases comes
          rfl

/-- A joined group comes to one write at most. -/
private theorem joined_writes_one {event : MetadataEvent} {first : Noticed} {rest : List Noticed}
    (comes : joinedWrites event = .ok (first :: rest)) : rest = [] := by
  unfold joinedWrites at comes
  split at comes
  · cases comes
  · split at comes <;> cases comes
    rfl

/-- A store that does not refuse the first write of a device does not refuse the second, which is of
a member whose keys are all texts of keys. -/
private theorem device_accepted {context : EventContext} {event : MetadataEvent} {first : Noticed}
    {rest : List Noticed} (comes : deviceWrites account context event = .ok (first :: rest))
    (accepted : store.refusal? first.1.op = none) :
    ∀ each ∈ rest, store.refusal? each.1.op = none := by
  unfold deviceWrites at comes
  split at comes
  · cases comes
  · dsimp only at comes
    by_cases own : context.group = account
    · rw [if_pos own] at comes
      cases comes
      refine List.forall_mem_singleton.mpr ?_
      cases store with
      | inMemory records => exact accepted
      | inTables tables => simp [AnyStore.refusal?, Tables.refusal?, Write.op, Op.texts, key_clear]
    · rw [if_neg own] at comes
      cases comes
      exact List.forall_mem_nil _

/-- A store that does not refuse the first write that something comes to refuses none of them. -/
theorem accepted_of_first {first : Noticed} {rest : List Noticed}
    (comes : handed.writes account = .ok (first :: rest))
    (accepted : store.refusal? first.1.op = none) :
    ∀ each ∈ first :: rest, store.refusal? each.1.op = none := by
  refine List.forall_mem_cons.mpr ⟨accepted, ?_⟩
  cases handed with
  | message delivery =>
    rw [message_writes_one comes]
    exact List.forall_mem_nil _
  | metadata event =>
    simp only [writes, metadataWrites] at comes
    split at comes
    · cases comes
    · cases comes
    · split at comes
      · rw [joined_writes_one comes]
        exact List.forall_mem_nil _
      · exact device_accepted comes accepted
      · cases comes

/-- A store takes what is handed over: its checks pass and none of its writes is refused. -/
def Taken (account : Bytes) (store : AnyStore) (handed : Handed) : Prop :=
  ∃ writes, handed.writes account = .ok writes ∧ ∀ each ∈ writes, store.refusal? each.1.op = none

/-- What a store takes does not change. -/
theorem taken_later_iff {later : AnyStore} (became : store.Later later) :
    handed.Taken account later ↔ handed.Taken account store := by
  simp only [Taken, became.refusal]

/-- What is handed over is taken, or it fails and leaves the desk as it was. -/
theorem taken_or_unchanged (account : Bytes) (announcing : Bool) (handed : Handed)
    (desk : Desk AnyStore) :
    handed.Taken account desk.store ∨
      ∃ e, (handed.apply account announcing).run desk = (.error e, desk) := by
  rw [apply_writes]
  cases comes : handed.writes account with
  | error e => exact .inr ⟨e, rfl⟩
  | ok writes =>
    cases writes with
    | nil => exact .inl ⟨[], comes, List.forall_mem_nil _⟩
    | cons first rest =>
      cases refused : desk.store.refusal? first.1.op with
      | none => exact .inl ⟨first :: rest, comes, accepted_of_first comes refused⟩
      | some e => exact .inr ⟨_, writeAll_refused refused⟩

/-- What is handed over succeeds exactly if it is taken. -/
theorem apply_ok_iff (announcing : Bool) (sound : desk.store.Sound) :
    (∃ after, (handed.apply account announcing).run desk = (.ok (), after)) ↔
      handed.Taken account desk.store := by
  constructor
  · rintro ⟨after, ran⟩
    obtain taken | ⟨e, failed⟩ := taken_or_unchanged account announcing handed desk
    · exact taken
    · rw [failed] at ran
      cases ran
  · rintro ⟨writes, comes, accepted⟩
    rw [apply_writes, comes]
    exact writeAll_accepted sound accepted

/-- What fails leaves the desk as it was. -/
theorem unchanged_of_failed {e : Error} (sound : desk.store.Sound)
    (ran : (handed.apply account announcing).run desk = (.error e, after)) : after = desk := by
  obtain taken | ⟨_, failed⟩ := taken_or_unchanged account announcing handed desk
  · obtain ⟨_, succeeded⟩ := (apply_ok_iff announcing sound).mpr taken
    rw [succeeded] at ran
    cases ran
  · rw [failed] at ran
    cases ran
    rfl

/-- What succeeds has made its writes. -/
theorem apply_wrote (sound : desk.store.Sound)
    (ran : (handed.apply account announcing).run desk = (.ok (), after)) :
    desk.store.Wrote (writesOf (handed.writes account)) after.store := by
  rw [apply_writes] at ran
  cases comes : handed.writes account with
  | error e =>
    rw [comes] at ran
    cases ran
  | ok writes =>
    rw [comes] at ran
    exact (writeAll_began backed_id (by exact sound) ran).2 rfl

/-- Whether it succeeds or fails, the store takes nothing away. -/
theorem apply_later (sound : desk.store.Sound) (account : Bytes) (announcing : Bool)
    (handed : Handed) :
    desk.store.Later ((handed.apply account announcing).run desk).2.store := by
  cases ran : (handed.apply account announcing).run desk with
  | mk result after =>
    cases result with
    | error e =>
      rw [unchanged_of_failed sound ran]
      exact .refl sound
    | ok value => exact (apply_wrote sound ran).later

end Handed

/-! ### One after the other -/

/-- Applies all that was handed over to the handler of an account, up to the first that fails. -/
def Handed.applyAll {σ : Type} [LocalStore σ] (account : Bytes) (announcing : Bool)
    (many : List Handed) : Action (Desk σ) Error Unit :=
  forM many (Handed.apply account announcing)

namespace Handed

variable {account : Bytes} {announcing : Bool} {many : List Handed} {desk after : Desk AnyStore}

theorem applyAll_cons {σ : Type} [LocalStore σ] (handed : Handed) (rest : List Handed) :
    (applyAll account announcing (handed :: rest) : Action (Desk σ) Error Unit) =
      handed.apply account announcing >>= fun _ => applyAll account announcing rest :=
  List.forM_cons

theorem applyAll_append {σ : Type} [LocalStore σ] (first second : List Handed) :
    (applyAll account announcing (first ++ second) : Action (Desk σ) Error Unit) =
      applyAll account announcing first >>= fun _ => applyAll account announcing second :=
  List.forM_append

/-- Many that all succeed have made all of their writes. -/
theorem applyAll_wrote (sound : desk.store.Sound)
    (ran : (applyAll account announcing many).run desk = (.ok (), after)) :
    desk.store.Wrote (many.flatMap fun handed => writesOf (handed.writes account)) after.store := by
  induction many generalizing desk with
  | nil => cases ran; exact .refl sound
  | cons handed rest ih =>
    rw [applyAll_cons] at ran
    obtain ⟨_, middle, applied, more⟩ := Action.run_bind_eq_ok_iff.mp ran
    have wrote := apply_wrote sound applied
    exact wrote.append (ih wrote.later.sound more)

/-- Many succeed exactly if the store, as it is before the first, takes each of them. -/
theorem applyAll_ok_iff (announcing : Bool) (sound : desk.store.Sound) :
    (∃ after, (applyAll account announcing many).run desk = (.ok (), after)) ↔
      ∀ handed ∈ many, handed.Taken account desk.store := by
  induction many generalizing desk with
  | nil => exact ⟨fun _ => List.forall_mem_nil _, fun _ => ⟨desk, rfl⟩⟩
  | cons handed rest ih =>
    rw [applyAll_cons, List.forall_mem_cons]
    constructor
    · rintro ⟨after, ran⟩
      obtain ⟨_, middle, applied, more⟩ := Action.run_bind_eq_ok_iff.mp ran
      have became := (apply_wrote sound applied).later
      have others := (ih became.sound).mp ⟨after, more⟩
      refine ⟨(apply_ok_iff _ sound).mp ⟨middle, applied⟩, fun other member => ?_⟩
      exact (taken_later_iff became).mp (others other member)
    · rintro ⟨here, others⟩
      obtain ⟨middle, applied⟩ := (apply_ok_iff announcing sound).mpr here
      have became := (apply_wrote sound applied).later
      obtain ⟨after, more⟩ := (ih became.sound).mpr fun other member =>
        (taken_later_iff became).mpr (others other member)
      exact ⟨after, Action.run_bind_eq_ok_iff.mpr ⟨(), middle, applied, more⟩⟩

end Handed

end GroupReplay.Projection
