import GroupReplay.Proofs.StoreHistory

/-!
The difference between a store before and after.  `changes` compares two states without regard to
how one became the other.  What a write answers to have changed is this difference, an operation that
fails leaves none, and as no record is taken away and no flag is taken back, what changed once never
changes again.
-/

namespace GroupReplay.Store

/-! ### Changes of a store -/

/-- A change of a store that observers are told of. -/
inductive Change where
  | conversationAdded (key : String)
  | memberAdded (added : Member)
  | interactionAdded (conversation cid : String)
  /-- An interaction that was stored without its flag has it. -/
  | interactionFlagged (cid : String)
  deriving DecidableEq, Repr

/-- What a change is about: an interaction is known by its content id alone. -/
inductive Subject where
  | conversation (key : String)
  | member (added : Member)
  | interaction (cid : String)
  | acknowledgement (cid : String)
  deriving DecidableEq, Repr

def Change.subject : Change → Subject
  | conversationAdded key => .conversation key
  | memberAdded added => .member added
  | interactionAdded _ cid => .interaction cid
  | interactionFlagged cid => .acknowledgement cid

section Differences

variable {β : Type} [DecidableEq β]

/-- What a list has that another has not. -/
def newIn (before after : List β) : List β := after.filter fun x => x ∉ before

theorem newIn_self (l : List β) : newIn l l = [] :=
  List.filter_eq_nil_iff.mpr fun x member => by simpa using member

theorem newIn_snoc {l : List β} {x : β} (fresh : x ∉ l) : newIn l (l ++ [x]) = [x] := by
  rw [newIn, List.filter_append, ← newIn, newIn_self]
  simp [fresh]

theorem mem_newIn {before after : List β} {x : β} :
    x ∈ newIn before after ↔ x ∈ after ∧ x ∉ before := by
  simp [newIn]

end Differences

/-- The interactions of content ids that none had before. -/
def addedInteractions (before after : List Interaction) : List Interaction :=
  after.filter fun i => i.cid ∉ before.map (·.cid)

/-- The interactions that had no flag before and have it now. -/
def flaggedInteractions (before after : List Interaction) : List Interaction :=
  before.filter fun i =>
    !i.acknowledged && after.any fun j => decide (j.cid = i.cid) && j.acknowledged

/-- The difference between a store before and after: the conversations, members and interactions that
are new, and the interactions that got their flag. -/
def changes (before after : AnyStore) : List Change :=
  (newIn before.conversationKeys after.conversationKeys).map .conversationAdded ++
    (newIn before.records.members after.records.members).map .memberAdded ++
    (addedInteractions before.records.interactions after.records.interactions).map
      (fun i => .interactionAdded i.conversation i.cid) ++
    (flaggedInteractions before.records.interactions after.records.interactions).map
      fun i => .interactionFlagged i.cid

/-! ### The interactions among the changes -/

section Interactions

variable {interactions before after : List Interaction} {i : Interaction}

theorem mem_addedInteractions :
    i ∈ addedInteractions before after ↔ i ∈ after ∧ i.cid ∉ before.map (·.cid) := by
  simp [addedInteractions]

theorem mem_flaggedInteractions :
    i ∈ flaggedInteractions before after ↔ i ∈ before ∧ i.acknowledged = false ∧
      ∃ j ∈ after, j.cid = i.cid ∧ j.acknowledged = true := by
  simp [flaggedInteractions]

theorem addedInteractions_of_cids (same : after.map (·.cid) = before.map (·.cid)) :
    addedInteractions before after = [] := by
  refine List.filter_eq_nil_iff.mpr fun i member => ?_
  have known : i.cid ∈ before.map (·.cid) := same ▸ List.mem_map_of_mem member
  simpa using known

theorem addedInteractions_snoc (fresh : i.cid ∉ interactions.map (·.cid)) :
    addedInteractions interactions (interactions ++ [i]) = [i] := by
  rw [addedInteractions, List.filter_append, ← addedInteractions, addedInteractions_of_cids rfl]
  simpa using fresh

/-- One content id is not that of a flagged interaction and of one without a flag. -/
theorem flaggedInteractions_self (unique : (interactions.map (·.cid)).Nodup) :
    flaggedInteractions interactions interactions = [] := by
  rw [List.eq_nil_iff_forall_not_mem]
  intro i among
  obtain ⟨stored, lacks, j, other, same, flagged⟩ := mem_flaggedInteractions.mp among
  obtain rfl := List.inj_on_of_nodup_map unique other stored same
  rw [lacks] at flagged
  cases flagged

theorem flaggedInteractions_snoc (unique : (interactions.map (·.cid)).Nodup)
    (fresh : i.cid ∉ interactions.map (·.cid)) :
    flaggedInteractions interactions (interactions ++ [i]) = [] := by
  rw [List.eq_nil_iff_forall_not_mem]
  intro stored among
  obtain ⟨before, lacks, j, after, same, flagged⟩ := mem_flaggedInteractions.mp among
  obtain old | last := List.mem_append.mp after
  · have none := flaggedInteractions_self unique
    exact List.eq_nil_iff_forall_not_mem.mp none stored
      (mem_flaggedInteractions.mpr ⟨before, lacks, j, old, same, flagged⟩)
  · obtain rfl := List.mem_singleton.mp last
    exact fresh (same ▸ List.mem_map_of_mem before)

/-- The interaction that an acknowledgement flags is the one of its content id that lacked the
flag. -/
theorem flaggedInteractions_flag (unique : (interactions.map (·.cid)).Nodup) (cid : String) :
    flaggedInteractions interactions (interactions.map (Interaction.flag cid)) =
      interactions.filter fun i => i.cid = cid ∧ i.acknowledged = false := by
  refine List.filter_congr fun i stored => ?_
  rw [Bool.eq_iff_iff]
  simp only [Bool.and_eq_true, Bool.not_eq_true', List.any_eq_true, List.mem_map,
    decide_eq_true_eq]
  constructor
  · rintro ⟨lacks, _, ⟨j, other, rfl⟩, same, flagged⟩
    rw [Interaction.flag_cid] at same
    obtain rfl := List.inj_on_of_nodup_map unique other stored same
    simp only [Interaction.flag_acknowledged, lacks, Bool.or_false, decide_eq_true_eq] at flagged
    exact ⟨flagged, lacks⟩
  · rintro ⟨same, lacks⟩
    refine ⟨lacks, _, ⟨i, stored, rfl⟩, Interaction.flag_cid cid i, ?_⟩
    simp [Interaction.flag_acknowledged, same]

/-- Of a content id there is one interaction that lacks its flag, or none. -/
theorem map_cid_lacking (unique : (interactions.map (·.cid)).Nodup) (cid : String) :
    (interactions.filter fun i => i.cid = cid ∧ i.acknowledged = false).map (·.cid) =
      if interactions.any fun i => i.cid = cid ∧ i.acknowledged = false then [cid] else [] := by
  induction interactions with
  | nil => rfl
  | cons i rest ih =>
    obtain ⟨fresh, unique⟩ := List.nodup_cons.mp unique
    by_cases lacks : i.cid = cid ∧ i.acknowledged = false
    · have others : rest.filter (fun j => j.cid = cid ∧ j.acknowledged = false) = [] := by
        refine List.filter_eq_nil_iff.mpr fun j among => ?_
        have differs : j.cid ≠ cid := fun same =>
          fresh (List.mem_map.mpr ⟨j, among, same.trans lacks.1.symm⟩)
        simp [differs]
      rw [List.filter_cons_of_pos (by simpa using lacks), others]
      simp [lacks]
    · rw [List.filter_cons_of_neg (by simpa using lacks), ih unique]
      simp [lacks]

end Interactions

/-! ### What one write changes -/

section Stores

variable {store later before middle after : AnyStore}

/-- Stores that hold the same conversations, members and interactions. -/
structure HoldsAlike (before after : AnyStore) : Prop where
  conversations : after.conversationKeys = before.conversationKeys
  members : after.records.members = before.records.members
  interactions : after.records.interactions = before.records.interactions

theorem HoldsAlike.refl (store : AnyStore) : HoldsAlike store store := ⟨rfl, rfl, rfl⟩

/-- Nothing changed in a store that holds what it held. -/
theorem HoldsAlike.changes (alike : HoldsAlike before after) (sound : before.Sound) :
    changes before after = [] := by
  rw [Store.changes, alike.conversations, alike.members, alike.interactions, newIn_self,
    newIn_self, addedInteractions_of_cids rfl,
    flaggedInteractions_self sound.records.interactions]
  rfl

/-- What is left of a store by a failed operation holds what it held. -/
theorem holdsAlike_of_failed {α : Type} {op : Op α} {store left : AnyStore}
    (fails : Fails op store left) : HoldsAlike store left := by
  obtain rfl | ⟨tables, cid, rfl, rfl⟩ := AnyStore.records_of_failed fails
  · exact .refl _
  · simp only [Tables.insertAcknowledgement]
    split <;> exact ⟨rfl, rfl, rfl⟩

/-- What a write changes if it changes anything; of accounts nobody is told. -/
def changeOf? : Write → Option Change
  | .account _ _ => none
  | .conversation added => some (.conversationAdded added.key)
  | .member added => some (.memberAdded added)
  | .interaction added => some (.interactionAdded added.conversation added.cid)
  | .acknowledgement cid => some (.interactionFlagged cid)

/-- A write changes what it answers to have changed. -/
theorem changes_of_write (write : Write) (sound : store.Sound) (laterSound : later.Sound)
    (carried : later.records = (Records.carry write.op store.records).2) :
    changes store later =
      if (Records.carry write.op store.records).1 then (changeOf? write).toList else [] := by
  have unique := sound.records.interactions
  rw [changes, AnyStore.conversationKeys_eq sound, AnyStore.conversationKeys_eq laterSound, carried]
  cases write with
  | account key name =>
    simp only [Write.op, Records.carry, Records.ensureAccount]
    split <;> simp [newIn_self, addedInteractions_of_cids, flaggedInteractions_self unique,
      changeOf?]
  | conversation added =>
    simp only [Write.op, Records.carry, Records.addConversation]
    split
    · simp [newIn_self, addedInteractions_of_cids, flaggedInteractions_self unique]
    · next absent =>
      have fresh : added.key ∉ store.records.conversations.map (·.key) := by simpa using absent
      simp [newIn_self, newIn_snoc fresh, addedInteractions_of_cids,
        flaggedInteractions_self unique, changeOf?]
  | member added =>
    simp only [Write.op, Records.carry, Records.addMember]
    split
    · simp [newIn_self, addedInteractions_of_cids, flaggedInteractions_self unique]
    · next absent =>
      simp [newIn_self, newIn_snoc absent, addedInteractions_of_cids,
        flaggedInteractions_self unique, changeOf?]
  | interaction added =>
    simp only [Write.op, Records.carry, Records.addInteraction]
    split
    · simp [newIn_self, addedInteractions_of_cids, flaggedInteractions_self unique]
    · next absent =>
      have fresh : added.cid ∉ store.records.interactions.map (·.cid) := by simpa using absent
      simp [newIn_self, addedInteractions_snoc, flaggedInteractions_snoc unique, fresh, changeOf?]
  | acknowledgement cid =>
    have cids : (store.records.interactions.map (Interaction.flag cid)).map (·.cid) =
        store.records.interactions.map (·.cid) := by
      simp [Function.comp_def, Interaction.flag_cid]
    have flagged := congrArg (List.map Change.interactionFlagged) (map_cid_lacking unique cid)
    rw [List.map_map] at flagged
    simp only [Write.op, Records.carry, Records.acknowledge,
      Records.acknowledgeFirst_eq_map unique, newIn_self, addedInteractions_of_cids cids,
      flaggedInteractions_flag unique, List.map_nil, List.nil_append]
    refine flagged.trans ?_
    split <;> rfl

/-! ### Changes one after the other -/

/-- A conversation's write leaves members and interactions alone. -/
theorem members_of_conversation (own : Conversation) (records : Records) :
    (Records.carry (Write.conversation own).op records).2.members = records.members ∧
      (Records.carry (Write.conversation own).op records).2.interactions = records.interactions := by
  simp only [Write.op, Records.carry, Records.addConversation]
  split <;> exact ⟨rfl, rfl⟩

/-- A member's write leaves conversations and interactions alone. -/
theorem conversations_of_member (added : Member) (records : Records) :
    (Records.carry (Write.member added).op records).2.conversations = records.conversations ∧
      (Records.carry (Write.member added).op records).2.interactions = records.interactions := by
  simp only [Write.op, Records.carry, Records.addMember]
  split <;> exact ⟨rfl, rfl⟩

/-- Members that are added after conversations come after them among the changes. -/
theorem changes_append_members (members : middle.records.members = before.records.members)
    (interactions : middle.records.interactions = before.records.interactions)
    (conversations : after.conversationKeys = middle.conversationKeys)
    (interactionsToo : after.records.interactions = middle.records.interactions)
    (unique : (before.records.interactions.map (·.cid)).Nodup) :
    changes before after = changes before middle ++ changes middle after := by
  simp [changes, members, interactions, conversations, interactionsToo, newIn_self,
    addedInteractions_of_cids, flaggedInteractions_self unique]

/-! ### What a change is about -/

/-- What a change is about is in the store. -/
def Subject.Holds (store : AnyStore) : Subject → Prop
  | conversation key => key ∈ store.conversationKeys
  | member added => added ∈ store.records.members
  | interaction cid => cid ∈ store.records.interactions.map (·.cid)
  | acknowledgement cid => store.records.HasFlag cid

/-- What a store holds it holds for good. -/
theorem Subject.Holds.advances {subject : Subject} (held : subject.Holds store)
    (sound : store.Sound) (advances : store.Advances later) : subject.Holds later := by
  have grows := advances.grows
  cases subject with
  | conversation key =>
    rw [Holds, AnyStore.conversationKeys_eq sound] at held
    rw [Holds, AnyStore.conversationKeys_eq advances.sound]
    exact (grows.conversations.map _).subset held
  | member added => exact grows.members.subset held
  | interaction cid =>
    obtain ⟨i, stored, rfl⟩ := List.mem_map.mp held
    have kept : store.records.Holds (.interaction i) := List.mem_map_of_mem stored
    exact kept.grows grows
  | acknowledgement cid => exact advances.flags cid held

/-- What a change is about was not in the store before and is in it after. -/
theorem subject_of_change (sound : before.Sound) {change : Change}
    (changed : change ∈ changes before after) :
    ¬ change.subject.Holds before ∧ change.subject.Holds after := by
  simp only [changes, List.mem_append, List.mem_map] at changed
  obtain ((⟨key, new, rfl⟩ | ⟨added, new, rfl⟩) | ⟨i, new, rfl⟩) | ⟨i, lacking, rfl⟩ := changed
  · obtain ⟨present, absent⟩ := mem_newIn.mp new
    exact ⟨absent, present⟩
  · obtain ⟨present, absent⟩ := mem_newIn.mp new
    exact ⟨absent, present⟩
  · obtain ⟨present, absent⟩ := mem_addedInteractions.mp new
    exact ⟨absent, List.mem_map_of_mem present⟩
  · obtain ⟨stored, lacks, flagged⟩ := mem_flaggedInteractions.mp lacking
    refine ⟨?_, flagged⟩
    rintro ⟨j, other, same, acknowledged⟩
    obtain rfl := List.inj_on_of_nodup_map sound.records.interactions other stored same
    rw [lacks] at acknowledged
    cases acknowledged

/-- No two changes of a store are about the same. -/
theorem nodup_subjects (sound : before.Sound) (afterSound : after.Sound) :
    ((changes before after).map Change.subject).Nodup := by
  have keys : (newIn before.conversationKeys after.conversationKeys).Nodup := by
    rw [AnyStore.conversationKeys_eq afterSound]
    exact afterSound.records.conversations.filter _
  have members : (newIn before.records.members after.records.members).Nodup :=
    afterSound.records.members.filter _
  have added : ((addedInteractions before.records.interactions
      after.records.interactions).map (·.cid)).Nodup :=
    (List.filter_sublist.map _).nodup afterSound.records.interactions
  have flagged : ((flaggedInteractions before.records.interactions
      after.records.interactions).map (·.cid)).Nodup :=
    (List.filter_sublist.map _).nodup sound.records.interactions
  have split : (changes before after).map Change.subject =
      (newIn before.conversationKeys after.conversationKeys).map .conversation ++
        (newIn before.records.members after.records.members).map .member ++
        ((addedInteractions before.records.interactions
          after.records.interactions).map (·.cid)).map .interaction ++
        ((flaggedInteractions before.records.interactions
          after.records.interactions).map (·.cid)).map .acknowledgement := by
    simp [changes, Function.comp_def, Change.subject]
  rw [split]
  refine List.nodup_append.mpr ⟨List.nodup_append.mpr ⟨List.nodup_append.mpr
    ⟨keys.map fun _ _ => Subject.conversation.inj, members.map fun _ _ => Subject.member.inj, ?_⟩,
    added.map fun _ _ => Subject.interaction.inj, ?_⟩,
    flagged.map fun _ _ => Subject.acknowledgement.inj, ?_⟩
  -- Subjects of different kinds differ.
  all_goals
    rintro subject first _ second rfl
    cases subject <;> simp at first second

end Stores

/-! ### Stores that may fail at any statement -/

/-- What is done to a store of type `σ` is done to the store that is held: an operation that succeeds
is performed on it, and of one that fails, for whatever reason, the statements are run that come
before the one that failed. -/
structure Mirrored {σ : Type} [LocalStore σ] (held : σ → AnyStore) : Prop where
  ok {α : Type} {op : Op α} {store later : σ} {answer : α} :
    LocalStore.perform op store = (.ok answer, later) →
      (held store).perform op = (.ok answer, held later)
  error {α : Type} {op : Op α} {store later : σ} {e : Store.Error} : (held store).Sound →
    LocalStore.perform op store = (.error e, later) → Fails op (held store) (held later)

/-- A store of either kind mirrors itself. -/
theorem mirrored_id : Mirrored (id : AnyStore → AnyStore) where
  ok performed := performed
  error sound performed := by
    rw [AnyStore.refused_unchanged sound performed]
    exact .unchanged _

namespace Failing

variable {α : Type} {script : Script α} {steps stepsLeft : Nat} {tables left : Tables}

/-- A script that ends in an error was stopped at a statement, or says so itself. -/
private theorem fails_within {e : Error}
    (ran : script.runWithin steps tables = (.error e, stepsLeft, left)) :
    script.FailsAt tables left ∨ script.run tables = (.error e, left) := by
  induction script generalizing steps tables with
  | done answer => cases ran; exact .inr rfl
  | andThen statement next ih =>
    cases steps with
    | zero => cases ran; exact .inl (.here _ _ _)
    | succ steps =>
      cases did : Tables.run statement tables with
      | mk outcome middle =>
        simp only [Script.runWithin, did] at ran
        cases outcome with
        | ok value =>
          refine (ih value ran).imp (.later did) fun said => ?_
          simp only [Script.run, did]
          exact said
        | error e =>
          cases ran
          rw [Tables.unchanged_of_failed did]
          exact .inl (.here _ _ _)

/-- A store that fails for good at some point mirrors one whose operations fail at a statement. -/
theorem mirrored : Mirrored Failing.store where
  ok performed := backed.ok performed
  error {_ op failing later e} sound performed := by
    obtain ⟨records | tables, steps⟩ := failing
    · cases steps with
      | zero => cases performed; exact .unchanged _
      | succ steps =>
        obtain ⟨answered, rfl⟩ := Prod.mk.inj performed
        have refused : (AnyStore.inMemory records).perform op =
            (.error e, .inMemory (records.perform op).2) := Prod.ext answered rfl
        rw [AnyStore.refused_unchanged sound refused]
        exact .unchanged _
    · cases ran : (Script.ofOp op).runWithin steps tables with
      | mk result rest =>
        simp only [LocalStore.perform, perform, ran] at performed
        cases performed
        obtain fails | said := fails_within ran
        · exact .inTables fails
        · have refused : (AnyStore.inTables tables).perform op = (.error e, .inTables rest.2) := by
            simp only [AnyStore.perform, Tables.perform, said]
          rw [AnyStore.refused_unchanged sound refused]
          exact .unchanged _

end Failing

end GroupReplay.Store
