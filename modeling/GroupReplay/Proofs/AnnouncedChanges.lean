import GroupReplay.Proofs.AbsorbedEvents
import GroupReplay.Proofs.StoreChanges

/-!
What is announced is what changed.  The notices that an event leaves, whether it is applied or fails,
are those of the difference between the store before and after it; so along any course of events no
change is announced twice.
-/

namespace GroupReplay.Projection

open Wire Store

/-- The notice of a change. -/
def noticeOf : Change → Notice
  | .conversationAdded key => .conversationAdded key
  | .memberAdded added => .memberAdded added.conversation added.member
  | .interactionAdded conversation cid => .interactionAdded conversation cid
  | .interactionFlagged cid => .interactionAcknowledged cid

/-- Writes as events come to them: one, or the account conversation and a member of it. -/
inductive Announceable : List Noticed → Prop where
  | nothing : Announceable []
  | one {write : Write} {notice : Notice}
      (fits : (changeOf? write).map noticeOf = some notice) : Announceable [(write, notice)]
  | device (own : Conversation) (added : Member) :
      Announceable [conversationWrite own,
        (.member added, .memberAdded added.conversation added.member)]

theorem announceable_of_writes {account : Bytes} {handed : Handed} {writes : List Noticed}
    (comes : handed.writes account = .ok writes) : Announceable writes := by
  cases handed with
  | metadata event =>
    simp only [Handed.writes, metadataWrites] at comes
    split at comes
    · cases comes
    · cases comes
    · split at comes
      · unfold joinedWrites at comes
        split at comes
        · cases comes
        · split at comes <;> cases comes
          exact .one rfl
      · unfold deviceWrites at comes
        split at comes
        · cases comes
        · dsimp only at comes
          split at comes <;> cases comes
          · exact .device _ _
          · exact .one rfl
      · cases comes
        exact .nothing
  | message delivery =>
    simp only [Handed.writes, Delivery.writes, messageWrites] at comes
    split at comes
    · cases comes
    · split at comes
      · split at comes <;> cases comes
        exact .one rfl
      · split at comes
        · cases comes
          exact .nothing
        · split at comes
          · split at comes <;> cases comes
            exact .one rfl
          · cases comes
            exact .one rfl

section Announcing

variable {σ : Type} [LocalStore σ] {held : σ → AnyStore} {desk middle after : Desk σ}

/-- What was announced at a desk is what changed in its store, and nothing was taken away. -/
structure Announces (held : σ → AnyStore) (desk after : Desk σ) : Prop where
  advances : (held desk.store).Advances (held after.store)
  notices : after.notices =
    desk.notices ++ (changes (held desk.store) (held after.store)).map noticeOf

omit [LocalStore σ] in
theorem Announces.nothing (sound : (held desk.store).Sound) : Announces held desk desk where
  advances := .refl sound
  notices := by simp [(HoldsAlike.refl (held desk.store)).changes sound]

/-- A write that succeeds is announced if it changed something. -/
theorem announces_made {write : Write} {notice : Notice} {changed : Bool} {store : σ}
    (mirrored : Mirrored held) (sound : (held desk.store).Sound)
    (fits : (changeOf? write).map noticeOf = some notice)
    (performed : LocalStore.perform write.op desk.store = (.ok changed, store)) :
    Announces held desk (written store (if changed then [notice] else []) desk) := by
  have performedHeld := mirrored.ok performed
  obtain ⟨_, rfl, records, became⟩ := AnyStore.carried_of_ok sound performedHeld
  have advances := AnyStore.advances_perform sound write.op
  rw [performedHeld] at advances
  obtain ⟨change, is, rfl⟩ := Option.map_eq_some_iff.mp fits
  refine ⟨advances, congrArg (desk.notices ++ ·) ?_⟩
  have made := changes_of_write write sound became.sound records
  simp only [written, made, is]
  split <;> rfl

/-- An operation that fails changes nothing that would be announced. -/
theorem announces_failed {α : Type} {op : Op α} {e : Store.Error} {store : σ}
    (mirrored : Mirrored held) (sound : (held desk.store).Sound)
    (performed : LocalStore.perform op desk.store = (.error e, store)) :
    HoldsAlike (held desk.store) (held store) ∧ Announces held desk { desk with store } := by
  have fails := mirrored.error sound performed
  have alike := holdsAlike_of_failed fails
  exact ⟨alike, AnyStore.advances_failed sound fails, by simp [alike.changes sound]⟩

/-- A member's write, whether it succeeds or fails, is announced, and leaves conversations and
interactions alone. -/
private theorem announces_member {added : Member} {outcome : Except Error Unit}
    (mirrored : Mirrored held) (sound : (held desk.store).Sound)
    (ran : (writeAll true
      [(.member added, .memberAdded added.conversation added.member)]).run desk =
        (outcome, after)) :
    Announces held desk after ∧
      (held after.store).conversationKeys = (held desk.store).conversationKeys ∧
      (held after.store).records.interactions = (held desk.store).records.interactions := by
  rw [writeAll_cons_run] at ran
  cases performed : LocalStore.perform (Write.member added).op desk.store with
  | mk answer store =>
    rw [performed] at ran
    cases answer with
    | error e =>
      cases ran
      obtain ⟨alike, announces⟩ := announces_failed mirrored sound performed
      exact ⟨announces, alike.conversations, alike.interactions⟩
    | ok changed =>
      cases ran
      have announces := announces_made mirrored sound rfl performed
      have laterSound : (held store).Sound := announces.advances.sound
      obtain ⟨_, _, records, _⟩ := AnyStore.carried_of_ok sound (mirrored.ok performed)
      obtain ⟨conversations, interactions⟩ := conversations_of_member added (held desk.store).records
      rw [← records] at conversations interactions
      refine ⟨announces, ?_, interactions⟩
      calc (held store).conversationKeys
        _ = (held store).records.conversations.map (·.key) := AnyStore.conversationKeys_eq laterSound
        _ = (held desk.store).records.conversations.map (·.key) := by rw [conversations]
        _ = (held desk.store).conversationKeys := (AnyStore.conversationKeys_eq sound).symm

/-- The writes that an event comes to are announced as far as they change something. -/
theorem writeAll_announces {writes : List Noticed} {outcome : Except Error Unit}
    (mirrored : Mirrored held) (announceable : Announceable writes)
    (sound : (held desk.store).Sound) (ran : (writeAll true writes).run desk = (outcome, after)) :
    Announces held desk after := by
  cases announceable with
  | nothing =>
    cases ran
    exact .nothing sound
  | @one write notice fits =>
    rw [writeAll_cons_run] at ran
    cases performed : LocalStore.perform write.op desk.store with
    | mk answer store =>
      rw [performed] at ran
      cases answer with
      | error e => cases ran; exact (announces_failed mirrored sound performed).2
      | ok changed =>
        cases ran
        simpa using announces_made mirrored sound fits performed
  | device own added =>
    rw [conversationWrite, writeAll_cons_run] at ran
    cases performed : LocalStore.perform (Write.conversation own).op desk.store with
    | mk answer store =>
      rw [performed] at ran
      cases answer with
      | error e => cases ran; exact (announces_failed mirrored sound performed).2
      | ok changed =>
        have first := announces_made mirrored sound rfl performed
        obtain ⟨_, _, records, _⟩ := AnyStore.carried_of_ok sound (mirrored.ok performed)
        obtain ⟨members, interactions⟩ := members_of_conversation own (held desk.store).records
        rw [← records] at members interactions
        obtain ⟨second, conversations, interactionsToo⟩ :=
          announces_member mirrored first.advances.sound ran
        refine ⟨first.advances.trans second.advances, ?_⟩
        rw [changes_append_members members interactions conversations interactionsToo
          sound.records.interactions, List.map_append, ← List.append_assoc]
        exact second.notices.trans (congrArg (· ++ _) first.notices)

/-- An event, applied or failed, is announced as far as it changed something. -/
theorem apply_announces {account : Bytes} {handed : Handed} {outcome : Except Error Unit}
    (mirrored : Mirrored held) (sound : (held desk.store).Sound)
    (ran : (handed.apply account true).run desk = (outcome, after)) : Announces held desk after := by
  rw [Handed.apply_writes] at ran
  cases comes : handed.writes account with
  | error e =>
    rw [comes] at ran
    cases ran
    exact .nothing sound
  | ok writes =>
    rw [comes] at ran
    exact writeAll_announces mirrored (announceable_of_writes comes) sound ran

end Announcing

/-! ### A whole course of events -/

section Course

variable {σ : Type} [LocalStore σ]

/-- What happens at a desk: handlers of any accounts apply events to it, or fail, and announce;
operations are performed on its store, or fail; and the store is told what to reject.  The list is of
the changes that the store went through while events were applied. -/
inductive Announcing (held : σ → AnyStore) (start : Desk σ) : List Change → Desk σ → Prop where
  | begin : Announcing held start [] start
  | applied {announced : List Change} {desk after : Desk σ} {account : Bytes} {handed : Handed}
      {outcome : Except Error Unit} (course : Announcing held start announced desk)
      (ran : (handed.apply account true).run desk = (outcome, after)) :
      Announcing held start (announced ++ changes (held desk.store) (held after.store)) after
  | performed {announced : List Change} {desk : Desk σ} {α : Type} {op : Op α}
      {answer : Except Store.Error α} {store : σ} (course : Announcing held start announced desk)
      (did : LocalStore.perform op desk.store = (answer, store)) :
      Announcing held start announced { desk with store }
  | told {announced : List Change} {desk : Desk σ} {store : σ} {rejectsWrites rejectsLists : Bool}
      (course : Announcing held start announced desk)
      (same : held store = (held desk.store).told rejectsWrites rejectsLists) :
      Announcing held start announced { desk with store }

variable {held : σ → AnyStore} {start desk : Desk σ} {announced : List Change}

/-- What was announced is in the store, and nothing was announced twice. -/
structure Accounted (held : σ → AnyStore) (start desk : Desk σ) (announced : List Change) : Prop where
  sound : (held desk.store).Sound
  notices : desk.notices = start.notices ++ announced.map noticeOf
  once : (announced.map Change.subject).Nodup
  holds : ∀ change ∈ announced, change.subject.Holds (held desk.store)

omit [LocalStore σ] in
/-- What was announced stays accounted for while nothing is taken out of the store. -/
theorem Accounted.advances {store : σ} (accounted : Accounted held start desk announced)
    (advances : (held desk.store).Advances (held store)) :
    Accounted held start { desk with store } announced where
  sound := advances.sound
  notices := accounted.notices
  once := accounted.once
  holds change among := (accounted.holds change among).advances accounted.sound advances

omit [LocalStore σ] in
/-- What an event announces was not announced before. -/
theorem Accounted.applied {after : Desk σ} (accounted : Accounted held start desk announced)
    (announces : Announces held desk after) :
    Accounted held start after (announced ++ changes (held desk.store) (held after.store)) := by
  have sound := accounted.sound
  refine ⟨announces.advances.sound, ?_, ?_, ?_⟩
  · rw [announces.notices, accounted.notices, List.map_append, List.append_assoc]
  · rw [List.map_append]
    refine List.nodup_append.mpr
      ⟨accounted.once, nodup_subjects sound announces.advances.sound, ?_⟩
    rintro subject old _ new rfl
    obtain ⟨change, among, rfl⟩ := List.mem_map.mp old
    obtain ⟨other, changed, same⟩ := List.mem_map.mp new
    exact (subject_of_change sound changed).1 (same ▸ accounted.holds change among)
  · refine List.forall_mem_append.mpr ⟨fun change among => ?_, fun change changed => ?_⟩
    · exact (accounted.holds change among).advances sound announces.advances
    · exact (subject_of_change sound changed).2

theorem Announcing.accounted (mirrored : Mirrored held) (sound : (held start.store).Sound)
    (course : Announcing held start announced desk) : Accounted held start desk announced := by
  induction course with
  | begin => exact ⟨sound, by simp, List.nodup_nil, nofun⟩
  | applied _ ran ih => exact ih.applied (apply_announces mirrored ih.sound ran)
  | @performed _ desk _ op answer store _ did ih =>
    refine ih.advances ?_
    cases answer with
    | error e => exact (announces_failed mirrored ih.sound did).2.advances
    | ok value =>
      have advances := AnyStore.advances_perform ih.sound op
      rwa [mirrored.ok did] at advances
  | told _ same ih =>
    refine ih.advances ?_
    rw [same]
    exact AnyStore.advances_told ih.sound _ _

/-- Notices are the changes of the store, and no change is announced twice.  At any desk whose store
was empty once, whatever has happened to it since, an event that is applied or fails leaves exactly
the notices of what it changed; and along any course of events the notices are those of the changes
that the events made, of which no two are about the same. -/
theorem notices_are_changes {first : AnyStore} {past : List Exchange} (mirrored : Mirrored held)
    (empty : first.Empty) (history : History first past (held start.store))
    (course : Announcing held start announced desk) :
    desk.notices = start.notices ++ announced.map noticeOf ∧
      (announced.map Change.subject).Nodup ∧
      ∀ (account : Bytes) (handed : Handed) (outcome : Except Error Unit) (after : Desk σ),
        (handed.apply account true).run desk = (outcome, after) →
          after.notices = desk.notices ++
            (changes (held desk.store) (held after.store)).map noticeOf := by
  have accounted := course.accounted mirrored (history.advances empty.sound).sound
  exact ⟨accounted.notices, accounted.once, fun _ _ _ _ ran =>
    (apply_announces mirrored accounted.sound ran).notices⟩

end Course

/-- A device that a member brought into the account's own group. -/
def deviceAtHome : Handed :=
  .metadata (.of [1] [10] EventType.memberDeviceAdded.number
    ({ memberKey := [5], deviceKey := [6] } : DeviceAdded))

/-- Another message that becomes an interaction, of the content id that is written "DQ". -/
def retitled : Handed :=
  .message (.posted [2] [13] { type := AppMessageType.setGroupInfo.number })

section Witness

variable {σ : Type} [LocalStore σ] {held : σ → AnyStore}

/-- A desk once the handler of the account [1] was handed events. -/
def handedAtHome (desk : Desk σ) (events : List Handed) : Desk σ :=
  events.foldl (fun desk handed => ((handed.apply [1] true).run desk).2) desk

private theorem announcing_one {start desk : Desk σ} {announced : List Change}
    (course : Announcing held start announced desk) (handed : Handed) :
    Announcing held start
      (announced ++ changes (held desk.store) (held (handedAtHome desk [handed]).store))
      (handedAtHome desk [handed]) :=
  .applied course (Prod.eta _).symm

/-- A database that fails at its tenth statement: a device and a message are announced, and so is the
acknowledgement of the message when it comes, but not when it comes again; the message whose insertion
fails is not announced.  Up to there the notices are those of a store in memory. -/
theorem failing_database_announced :
    let start : Desk Failing := { store := ⟨.inTables {}, 9⟩ }
    let inMemory : Desk AnyStore := { store := .inMemory {} }
    let events := [deviceAtHome, titled, titleAcknowledged, titleAcknowledged]
    let desk := handedAtHome start events
    let announced : List Change :=
      [.conversationAdded "AQ", .memberAdded ⟨"AQ", "BQ", "Bg"⟩, .interactionAdded "Ag" "Cw",
        .interactionFlagged "Cw"]
    let failed := handedAtHome desk [retitled]
    ((retitled.apply [1] true).run desk).1 = .error (.storage .database) ∧
      desk.notices = announced.map noticeOf ∧ (announced.map Change.subject).Nodup ∧
      failed.notices =
        desk.notices ++ (changes desk.store.store failed.store.store).map noticeOf ∧
      (handedAtHome inMemory events).notices = announced.map noticeOf := by
  intro start inMemory events desk announced failed
  have course {σ : Type} [LocalStore σ] (held : σ → AnyStore) (start : Desk σ) :=
    announcing_one (announcing_one (announcing_one (announcing_one
      (.begin : Announcing held start [] start) deviceAtHome) titled) titleAcknowledged)
      titleAcknowledged
  obtain ⟨list, rfl, failing⟩ :
      ∃ list, list = announced ∧ Announcing Failing.store start list desk :=
    ⟨_, by decide +kernel, course Failing.store start⟩
  obtain ⟨list, same, plain⟩ : ∃ list, list = announced ∧
      Announcing id inMemory list (handedAtHome inMemory events) :=
    ⟨_, by decide +kernel, course id inMemory⟩
  obtain ⟨notices, once, more⟩ :=
    notices_are_changes Failing.mirrored .inTables (.begin _) failing
  obtain ⟨alike, _⟩ := notices_are_changes mirrored_id (.inMemory false) (.begin _) plain
  exact ⟨by decide +kernel, notices, once, more [1] retitled _ failed (Prod.eta _).symm,
    same ▸ alike⟩

end Witness

end GroupReplay.Projection
