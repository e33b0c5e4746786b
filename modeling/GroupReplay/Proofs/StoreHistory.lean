import GroupReplay.Proofs.StoreView
import Mathlib.Data.List.Basic
import Mathlib.Data.List.Nodup

/-!
Histories of a store from empty on: operations of every kind, those included that failed, for a
reason of the store's own or because the database broke off between two statements.  Whatever the
history, keys are unique and nothing is lost, changed or unflagged; what was answered tells what was
put in, and members are listed in strict order.
-/

namespace GroupReplay

/-- The bytewise order is the lexicographic one. -/
theorem Bytes.before_iff_lt {a b : Bytes} : before a b = true ↔ a < b := by
  induction a generalizing b with
  | nil => cases b <;> simp [before]
  | cons x xs ih =>
    cases b with
    | nil => simp [before]
    | cons y ys =>
      rw [before, List.cons_lt_cons_iff]
      by_cases less : x < y
      · simp [less]
      · by_cases more : y < x
        · have differ : x ≠ y := fun same => UInt8.lt_irrefl y (same ▸ more)
          simp [less, more, differ]
        · have same : x = y := UInt8.le_antisymm (UInt8.not_lt.mp more) (UInt8.not_lt.mp less)
          simp [same, ih]

namespace Store

/-! ### The order of members -/

namespace Member

/-- A member stands strictly before another, by member and then by device, both bytewise. -/
def Precedes (a b : Member) : Prop :=
  Bytes.ofText a.member < Bytes.ofText b.member ∨
    a.member = b.member ∧ Bytes.ofText a.device < Bytes.ofText b.device

variable {a b c : Member}

private theorem text_trichotomy (a b : String) :
    Bytes.ofText a < Bytes.ofText b ∨ a = b ∨ Bytes.ofText b < Bytes.ofText a := by
  by_cases less : Bytes.ofText a < Bytes.ofText b
  · exact .inl less
  · by_cases more : Bytes.ofText b < Bytes.ofText a
    · exact .inr (.inr more)
    · exact .inr (.inl (Bytes.ofText_injective (List.le_antisymm more less)))

theorem precedes_trichotomy (a b : Member) :
    a.Precedes b ∨ (a.member = b.member ∧ a.device = b.device) ∨ b.Precedes a := by
  obtain less | same | more := text_trichotomy a.member b.member
  · exact .inl (.inl less)
  · obtain less | sameDevice | more := text_trichotomy a.device b.device
    · exact .inl (.inr ⟨same, less⟩)
    · exact .inr (.inl ⟨same, sameDevice⟩)
    · exact .inr (.inr (.inr ⟨same.symm, more⟩))
  · exact .inr (.inr (.inl more))

theorem Precedes.trans (first : a.Precedes b) (second : b.Precedes c) : a.Precedes c := by
  obtain less | ⟨same, less⟩ := first <;> obtain lessNext | ⟨sameNext, lessNext⟩ := second
  · exact .inl (List.lt_trans less lessNext)
  · exact .inl (sameNext ▸ less)
  · exact .inl (same ▸ lessNext)
  · exact .inr ⟨same.trans sameNext, List.lt_trans less lessNext⟩

theorem Precedes.asymm (first : a.Precedes b) : ¬ b.Precedes a := by
  intro second
  obtain less | ⟨_, less⟩ := first.trans second
  · exact List.lt_irrefl _ less
  · exact List.lt_irrefl _ less

/-- A member is not listed after another exactly if the other does not stand before it. -/
theorem notAfter_iff : a.notAfter b = true ↔ ¬ b.Precedes a := by
  simp only [notAfter, Bytes.before_iff_lt]
  obtain less | same | more := text_trichotomy a.member b.member
  · have first : a.Precedes b := .inl less
    simp [less, first.asymm]
  · simp [Precedes, same, List.lt_irrefl, ← Bytes.before_iff_lt, ← Bool.not_eq_true]
  · have first : b.Precedes a := .inl more
    simp [more, first, List.lt_asymm more]

theorem notAfter_trans (a b c : Member) (first : a.notAfter b = true)
    (second : b.notAfter c = true) : a.notAfter c = true := by
  rw [notAfter_iff] at *
  intro precedes
  obtain before | ⟨same, sameDevice⟩ | after := precedes_trichotomy b c
  · exact first (before.trans precedes)
  · refine first ?_
    rwa [Precedes, same, sameDevice]
  · exact second after

theorem notAfter_total (a b : Member) : (a.notAfter b || b.notAfter a) = true := by
  rw [Bool.or_eq_true, notAfter_iff, notAfter_iff]
  by_cases precedes : a.Precedes b
  · exact .inl precedes.asymm
  · exact .inr precedes

/-- The members of one conversation, none of them twice, are listed in strict order. -/
theorem sorted_strictly {members : List Member} (unique : members.Nodup) {conversation : String}
    (together : ∀ member ∈ members, member.conversation = conversation) :
    (members.mergeSort notAfter).Pairwise Precedes := by
  have perm := List.mergeSort_perm members notAfter
  have sorted : (members.mergeSort notAfter).Pairwise fun a b => a.notAfter b = true :=
    List.pairwise_mergeSort notAfter_trans notAfter_total members
  have distinct := perm.nodup_iff.mpr unique
  refine (sorted.and distinct).imp_of_mem fun {a b} amongA amongB ⟨notAfter, differ⟩ => ?_
  obtain precedes | ⟨same, sameDevice⟩ | follows := precedes_trichotomy a b
  · exact precedes
  · have inA := together a (perm.mem_iff.mp amongA)
    have inB := together b (perm.mem_iff.mp amongB)
    refine absurd ?_ differ
    cases a
    cases b
    simp_all
  · exact absurd follows (notAfter_iff.mp notAfter)

end Member

/-! ### Operations that the database breaks off -/

/-- What a script leaves of tables when one of its statements fails: those before it were run. -/
inductive Script.FailsAt : {α : Type} → Script α → Tables → Tables → Prop where
  | here {α β : Type} (statement : Statement β) (next : β → Script α) (tables : Tables) :
      FailsAt (.andThen statement next) tables tables
  | later {α β : Type} {statement : Statement β} {next : β → Script α} {result : β}
      {tables middle left : Tables} (ran : Tables.run statement tables = (.ok result, middle))
      (more : FailsAt (next result) middle left) : FailsAt (.andThen statement next) tables left

variable {α : Type}

/-- What a failed operation leaves of a store: one in memory is as it was; of tables, the statements
before the one that failed were run. -/
inductive Fails (op : Op α) : AnyStore → AnyStore → Prop where
  | unchanged (store : AnyStore) : Fails op store store
  | inTables {tables left : Tables} (fails : (Script.ofOp op).FailsAt tables left) :
      Fails op (.inTables tables) (.inTables left)

/-- A script of one statement did nothing if that failed. -/
private theorem fails_of {β : Type} {statement : Statement β} {answer : β → Except Error α}
    {tables left : Tables} (fails : (Script.of statement answer).FailsAt tables left) :
    left = tables := by
  cases fails with
  | here => rfl
  | later ran more => cases more

/-- Of an operation that failed nothing was done, but an acknowledgement may have been noted. -/
theorem Tables.left_of_failed {op : Op α} {tables left : Tables}
    (fails : (Script.ofOp op).FailsAt tables left) :
    left = tables ∨ ∃ cid, left = (insertAcknowledgement cid tables).2 := by
  cases op with
  | addInteraction interaction =>
    refine .inl ?_
    simp only [Script.ofOp, Script.addInteraction] at fails
    split at fails
    · exact fails_of fails
    · cases fails with
      | here => rfl
      | later ran more =>
        rw [fails_of more]
        exact unchanged_of_looked_up ran
  | acknowledge cid =>
    cases fails with
    | here => exact .inl rfl
    | later ran more =>
      rw [fails_of more]
      exact .inr ⟨cid, noted_of_inserted ran⟩
  | _ => exact .inl (fails_of fails)

/-! ### Histories -/

/-- An operation on a store with what it was answered. -/
structure Exchange : Type 1 where
  {Answer : Type}
  op : Op Answer
  answer : Except Error Answer

/-- What happened to a store: operations were performed or broken off, in any order, and one in
memory was told at any time what to reject. -/
inductive History : AnyStore → List Exchange → AnyStore → Prop where
  | begin (store : AnyStore) : History store [] store
  | performed {first last later : AnyStore} {past : List Exchange} {α : Type} {op : Op α}
      {answer : Except Error α} (history : History first past last)
      (did : last.perform op = (answer, later)) : History first (past ++ [⟨op, answer⟩]) later
  | failed {first last left : AnyStore} {past : List Exchange} {α : Type} {op : Op α}
      (history : History first past last) (fails : Fails op last left) (e : Error) :
      History first (past ++ [⟨op, .error e⟩]) left
  | told {first last : AnyStore} {past : List Exchange} (history : History first past last)
      (rejectsWrites rejectsLists : Bool) :
      History first past (last.told rejectsWrites rejectsLists)

/-- A store into which nothing was put. -/
inductive AnyStore.Empty : AnyStore → Prop where
  | inMemory (recorded : Bool) : Empty (.inMemory { recorded })
  | inTables : Empty (.inTables {})

/-- A write was made: it was not answered with an error. -/
def Made (past : List Exchange) (write : Write) : Prop :=
  ∃ changed, (⟨write.op, .ok changed⟩ : Exchange) ∈ past

/-- An interaction of a content id is stored, and acknowledged. -/
def Records.HasFlag (records : Records) (cid : String) : Prop :=
  ∃ i ∈ records.interactions, i.cid = cid ∧ i.acknowledged = true

namespace Records

variable {records : Records}

/-- An operation takes no flag back. -/
theorem hasFlag_carry (sound : records.Sound) {cid : String} (flagged : records.HasFlag cid)
    (op : Op α) : (carry op records).2.HasFlag cid := by
  cases op with
  | ensureAccount key name => simp only [carry, ensureAccount]; split <;> exact flagged
  | addConversation conversation =>
    simp only [carry, addConversation]
    split <;> exact flagged
  | addMember member => simp only [carry, addMember]; split <;> exact flagged
  | addInteraction interaction =>
    simp only [carry, addInteraction]
    split
    · exact flagged
    · obtain ⟨i, stored, same, acknowledged⟩ := flagged
      exact ⟨i, List.mem_append_left _ stored, same, acknowledged⟩
  | acknowledge other =>
    simp only [carry, acknowledge, acknowledgeFirst_eq_map sound.interactions]
    obtain ⟨i, stored, same, acknowledged⟩ := flagged
    exact ⟨i.flag other, List.mem_map_of_mem stored, (Interaction.flag_cid other i).trans same,
      by simp [Interaction.flag_acknowledged, acknowledged]⟩
  | _ => exact flagged

/-- A member that is held after an operation was held before or is what the operation added. -/
theorem member_of_carried {op : Op α} {member : Member}
    (held : member ∈ (carry op records).2.members) :
    member ∈ records.members ∨
      (⟨op, .ok (carry op records).1⟩ : Exchange) =
        ⟨.addMember member, .ok (addMember member records).1⟩ := by
  cases op with
  | ensureAccount key name =>
    simp only [carry, ensureAccount] at held
    split at held <;> exact .inl held
  | addConversation conversation =>
    simp only [carry, addConversation] at held
    split at held <;> exact .inl held
  | addMember added =>
    simp only [carry, addMember] at held
    split at held
    · exact .inl held
    · obtain before | last := List.mem_append.mp held
      · exact .inl before
      · obtain rfl := List.mem_singleton.mp last
        exact .inr rfl
  | addInteraction interaction =>
    simp only [carry, addInteraction] at held
    split at held <;> exact .inl held
  | _ => exact .inl held

end Records

namespace AnyStore

variable {store later : AnyStore}

/-- What a store came to be after whatever happened to it: nothing was taken away, nor any flag. -/
structure Advances (store later : AnyStore) : Prop where
  sound : later.Sound
  grows : store.records.Grows later.records
  flags : ∀ cid, store.records.HasFlag cid → later.records.HasFlag cid

theorem Advances.trans {last : AnyStore} (first : Advances store later)
    (second : Advances later last) : Advances store last :=
  ⟨second.sound, first.grows.trans second.grows, fun cid flagged =>
    second.flags cid (first.flags cid flagged)⟩

theorem Advances.refl (sound : store.Sound) : Advances store store :=
  ⟨sound, .refl _, fun _ flagged => flagged⟩

theorem advances_perform (sound : store.Sound) (op : Op α) :
    Advances store (store.perform op).2 := by
  have became := later_perform sound op
  refine ⟨became.sound, became.grows, fun cid flagged => ?_⟩
  cases refused : store.refusal? op with
  | some e =>
    rw [perform_refused refused]
    exact flagged
  | none =>
    obtain ⟨_, performed, records, _⟩ := perform_carried sound refused
    rw [performed, records]
    exact Records.hasFlag_carry sound.records flagged op

theorem advances_told (sound : store.Sound) (rejectsWrites rejectsLists : Bool) :
    Advances store (store.told rejectsWrites rejectsLists) := by
  refine ⟨sound.told _ _, grows_told store _ _, fun cid flagged => ?_⟩
  cases store <;> exact flagged

/-- A failed operation leaves the records as they were, or noted an acknowledgement. -/
theorem records_of_failed {op : Op α} (fails : Fails op store later) :
    later = store ∨ ∃ tables cid, store = .inTables tables ∧
      later = .inTables (Tables.insertAcknowledgement cid tables).2 := by
  cases fails with
  | unchanged => exact .inl rfl
  | inTables fails =>
    obtain rfl | ⟨cid, rfl⟩ := Tables.left_of_failed fails
    · exact .inl rfl
    · exact .inr ⟨_, cid, rfl, rfl⟩

theorem advances_failed {op : Op α} (sound : store.Sound) (fails : Fails op store later) :
    Advances store later := by
  obtain rfl | ⟨tables, cid, rfl, rfl⟩ := records_of_failed fails
  · exact .refl sound
  · have noted : (inTables (Tables.insertAcknowledgement cid tables).2).records =
        tables.records.noted cid := Tables.records_insertAcknowledgement cid tables
    refine ⟨Tables.Sound.insertAcknowledgement sound cid, ?_, ?_⟩
    · rw [noted]
      exact Records.grows_noted tables.records cid
    · rw [noted]
      exact fun _ flagged => flagged

/-- What a store answers is what its records say. -/
theorem answer_of_ok {op : Op α} {answer : α} (sound : store.Sound)
    (answered : (store.perform op).1 = .ok answer) :
    answer = (Records.carry op store.records).1 :=
  (carried_of_ok sound (Prod.ext answered rfl)).2.1

theorem Empty.sound (empty : store.Empty) : store.Sound := by
  cases empty with
  | inMemory recorded =>
    exact ⟨List.nodup_nil, List.nodup_nil, List.nodup_nil, List.nodup_nil⟩
  | inTables => exact Tables.sound_empty

theorem Empty.members (empty : store.Empty) : store.records.members = [] := by
  cases empty <;> rfl

end AnyStore

namespace History

variable {first last : AnyStore} {past : List Exchange}

/-- Whatever happens to a store takes nothing away. -/
theorem advances (history : History first past last) (sound : first.Sound) :
    first.Advances last := by
  induction history with
  | begin => exact .refl sound
  | @performed last later _ _ op _ _ did ih =>
    have became := ih
    have next := AnyStore.advances_perform became.sound op
    rw [did] at next
    exact became.trans next
  | failed _ fails _ ih =>
    have became := ih
    exact became.trans (AnyStore.advances_failed became.sound fails)
  | told _ rejectsWrites rejectsLists ih =>
    have became := ih
    exact became.trans (AnyStore.advances_told became.sound rejectsWrites rejectsLists)

/-- Of every write that was made the record is held. -/
theorem holds_of_made (history : History first past last) (sound : first.Sound) {write : Write}
    (made : Made past write) : last.records.Holds write := by
  obtain ⟨changed, among⟩ := made
  induction history with
  | begin => cases among
  | @performed last later past _ op answer history did ih =>
    have became := history.advances sound
    have next := AnyStore.advances_perform became.sound op
    rw [did] at next
    obtain before | now := List.mem_append.mp among
    · exact (ih before).grows next.grows
    · cases List.mem_singleton.mp now
      obtain ⟨_, _, records, _⟩ := AnyStore.carried_of_ok became.sound did
      rw [records]
      exact Records.holds_carry became.sound.records write
  | failed history fails e ih =>
    have next := AnyStore.advances_failed (history.advances sound).sound fails
    obtain before | now := List.mem_append.mp among
    · exact (ih before).grows next.grows
    · cases List.mem_singleton.mp now
  | told history rejectsWrites rejectsLists ih =>
    have next := AnyStore.advances_told (history.advances sound).sound rejectsWrites rejectsLists
    exact (ih among).grows next.grows

/-- Every member that is held was put in. -/
theorem made_of_member (history : History first past last) (empty : first.Empty) {member : Member}
    (held : member ∈ last.records.members) : Made past (.member member) := by
  have longer {past : List Exchange} {next : Exchange} (made : Made past (.member member)) :
      Made (past ++ [next]) (.member member) := by
    obtain ⟨changed, among⟩ := made
    exact ⟨changed, List.mem_append_left _ among⟩
  induction history with
  | begin =>
    rw [empty.members] at held
    cases held
  | @performed last later past _ op answer history did ih =>
    have sound := (history.advances empty.sound).sound
    cases answer with
    | error e =>
      rw [AnyStore.refused_unchanged sound did] at held
      exact longer (ih held)
    | ok answer =>
      obtain ⟨_, rfl, records, _⟩ := AnyStore.carried_of_ok sound did
      rw [records] at held
      obtain before | added := Records.member_of_carried held
      · exact longer (ih before)
      · rw [added]
        exact ⟨_, List.mem_append_right _ (List.mem_singleton_self _)⟩
  | @failed last left past _ op history fails e ih =>
    obtain rfl | ⟨tables, cid, rfl, rfl⟩ := AnyStore.records_of_failed fails
    · exact longer (ih held)
    · have noted : (AnyStore.inTables (Tables.insertAcknowledgement cid tables).2).records =
          tables.records.noted cid := Tables.records_insertAcknowledgement cid tables
      rw [noted] at held
      exact longer (ih held)
  | @told last past history rejectsWrites rejectsLists ih =>
    refine ih ?_
    cases last <;> exact held

end History

/-! ### What a write answers -/

/-- A write put in what it is for: its record is the last one now, or an interaction that lacked its
flag has it. -/
def Write.Adds (before after : Records) : Write → Prop
  | account key displayName => after.accounts = before.accounts ++ [⟨key, displayName⟩]
  | conversation added => after.conversations = before.conversations ++ [added]
  | member added => after.members = before.members ++ [added]
  | interaction added =>
    ∃ acknowledged, after.interactions = before.interactions ++ [{ added with acknowledged }]
  | acknowledgement cid =>
    ∃ i ∈ before.interactions, i.cid = cid ∧ i.acknowledged = false ∧
      { i with acknowledged := true } ∈ after.interactions

/-- Records of which none was added and none changed. -/
structure Records.SameAs (before after : Records) : Prop where
  accounts : after.accounts = before.accounts
  conversations : after.conversations = before.conversations
  members : after.members = before.members
  interactions : after.interactions = before.interactions

namespace Records

variable {records : Records}

private theorem append_ne_self {β : Type} (l : List β) (x : β) : l ++ [x] ≠ l := by
  intro same
  have lengths := congrArg List.length same
  simp at lengths

/-- What was put in was not there before. -/
theorem adds_not_same {after : Records} {write : Write} (sound : records.Sound)
    (adds : write.Adds records after) : ¬ records.SameAs after := by
  intro same
  cases write with
  | account key name => exact append_ne_self _ _ (adds.symm.trans same.accounts)
  | conversation added => exact append_ne_self _ _ (adds.symm.trans same.conversations)
  | member added => exact append_ne_self _ _ (adds.symm.trans same.members)
  | interaction added =>
    obtain ⟨_, adds⟩ := adds
    exact append_ne_self _ _ (adds.symm.trans same.interactions)
  | acknowledgement cid =>
    obtain ⟨i, stored, _, lacks, flagged⟩ := adds
    rw [same.interactions] at flagged
    have unchanged := List.inj_on_of_nodup_map sound.interactions flagged stored rfl
    rw [← unchanged] at lacks
    cases lacks

/-- A write that answers that something changed put in what it is for, and any other changed
nothing. -/
theorem adds_or_same (sound : records.Sound) (write : Write) :
    ((carry write.op records).1 = true ∧ write.Adds records (carry write.op records).2) ∨
      ((carry write.op records).1 = false ∧ records.SameAs (carry write.op records).2) := by
  have same : records.SameAs records := ⟨rfl, rfl, rfl, rfl⟩
  cases write with
  | account key name =>
    simp only [Write.op, carry, ensureAccount]
    split
    · exact .inr ⟨rfl, same⟩
    · exact .inl ⟨rfl, rfl⟩
  | conversation added =>
    simp only [Write.op, carry, addConversation]
    split
    · exact .inr ⟨rfl, same⟩
    · exact .inl ⟨rfl, rfl⟩
  | member added =>
    simp only [Write.op, carry, addMember]
    split
    · exact .inr ⟨rfl, same⟩
    · exact .inl ⟨rfl, rfl⟩
  | interaction added =>
    simp only [Write.op, carry, addInteraction]
    split
    · exact .inr ⟨rfl, same⟩
    · exact .inl ⟨rfl, _, rfl⟩
  | acknowledgement cid =>
    simp only [Write.op, carry, acknowledge, acknowledgeFirst_eq_map sound.interactions]
    by_cases lacking : ∃ i ∈ records.interactions, i.cid = cid ∧ i.acknowledged = false
    · obtain ⟨i, stored, rfl, lacks⟩ := lacking
      refine .inl ⟨List.any_eq_true.mpr ⟨i, stored, by simp [lacks]⟩, i, stored, rfl, lacks, ?_⟩
      exact List.mem_map.mpr ⟨i, stored, if_pos rfl⟩
    · have flagged (i : Interaction) (stored : i ∈ records.interactions) (is : i.cid = cid) :
          i.acknowledged = true := by
        rw [← Bool.not_eq_false]
        exact fun lacks => lacking ⟨i, stored, is, lacks⟩
      have unchanged : records.interactions.map (Interaction.flag cid) = records.interactions :=
        map_flag_of_flagged flagged
      refine .inr ⟨List.any_eq_false.mpr fun i stored => ?_, rfl, rfl, rfl, unchanged⟩
      simpa using flagged i stored

end Records

/-! ### What a store keeps -/

namespace AnyStore

variable {store earlier later : AnyStore}

/-- The keys of all conversations that a store keeps, in tables whatever their kind. -/
def conversationKeys : AnyStore → List String
  | inMemory records => records.conversations.map (·.key)
  | inTables tables => tables.conversations.map (·.key)

/-- Every row of conversations stands for one, so that its key is that of a record. -/
theorem conversationKeys_eq (sound : store.Sound) :
    store.conversationKeys = store.records.conversations.map (·.key) := by
  cases store with
  | inMemory records => rfl
  | inTables tables =>
    exact (Tables.keys_of_known (Tables.Ordered.kinds (Tables.Sound.toOrdered sound))).symm

/-- A store answers an operation so, and with no error. -/
def Answers (store : AnyStore) (op : Op α) (answer : α) : Prop :=
  (store.perform op).1 = .ok answer

/-- What a store keeps of all that happened to it: keys are unique, every interaction of a content
id that was acknowledged has its flag, and the members that were put in are listed in order. -/
structure Keeps (past : List Exchange) (store : AnyStore) : Prop where
  accounts : (store.records.accounts.map (·.key)).Nodup
  conversations : store.conversationKeys.Nodup
  members : store.records.members.Nodup
  interactions : (store.records.interactions.map (·.cid)).Nodup
  acknowledged : ∀ cid, Made past (.acknowledgement cid) →
    ∀ i ∈ store.records.interactions, i.cid = cid → i.acknowledged = true
  listed : ∀ conversation members, store.Answers (.members conversation) members →
    members.Pairwise Member.Precedes ∧
      ∀ member, member ∈ members ↔ member.conversation = conversation ∧ Made past (.member member)

/-- A later store answers what an earlier one did, and goes on from there: only flags were set. -/
structure Continues (earlier later : AnyStore) : Prop where
  account : ∀ key account found, earlier.Answers (.account key) (some account) →
    later.Answers (.account key) found → found = some account
  conversations : ∀ before after, earlier.Answers .conversations before →
    later.Answers .conversations after → before <+: after
  types : ∀ before after, earlier.Answers .conversations before →
    later.Answers .conversations after → ∀ a ∈ before, ∀ b ∈ after, b.key = a.key → b.type = a.type
  interactions : ∀ conversation before after, earlier.Answers (.interactions conversation) before →
    later.Answers (.interactions conversation) after →
      before.map Interaction.unflagged <+: after.map Interaction.unflagged
  flags : ∀ conversation before after, earlier.Answers (.interactions conversation) before →
    later.Answers (.interactions conversation) after →
      ∀ i ∈ before, i.acknowledged = true → i ∈ after

/-- An account that is found first is found first in a list that was only added to. -/
private theorem find_of_prefix {β : Type} {is : β → Bool} {before after : List β} {x : β}
    (found : before.find? is = some x) (longer : before <+: after) : after.find? is = some x := by
  obtain ⟨more, rfl⟩ := longer
  rw [List.find?_append, found]
  rfl

/-- An interaction that has its flag stays as it is. -/
theorem Advances.flagged_mem (advances : earlier.Advances later) {i : Interaction}
    (stored : i ∈ earlier.records.interactions) (flagged : i.acknowledged = true) :
    i ∈ later.records.interactions := by
  have kept := advances.grows.interactions.subset (List.mem_map_of_mem stored)
  obtain ⟨j, still, unflagged⟩ := List.mem_map.mp kept
  obtain ⟨k, among, same, acknowledged⟩ := advances.flags i.cid ⟨i, stored, rfl, flagged⟩
  have cid : j.cid = i.cid := (congrArg Interaction.cid unflagged :)
  obtain rfl : j = k := List.inj_on_of_nodup_map advances.sound.records.interactions still among
    (cid.trans same.symm)
  obtain rfl : j = i := by
    cases i
    cases j
    simp_all [Interaction.unflagged]
  exact still

theorem Advances.continues (advances : earlier.Advances later) (sound : earlier.Sound) :
    earlier.Continues later := by
  have grows := advances.grows
  have listed (before after : List Conversation) (was : earlier.Answers .conversations before)
      (is : later.Answers .conversations after) : before <+: after := by
    rw [answer_of_ok sound was, answer_of_ok advances.sound is]
    exact grows.conversations
  refine ⟨fun key account found was is => ?_, listed,
    fun before after was is a among b still same => ?_, fun conversation before after was is => ?_,
    fun conversation before after was is i among flagged => ?_⟩
  · have first : earlier.records.accounts.find? (·.key = key) = some account :=
      (answer_of_ok sound was).symm
    rw [answer_of_ok advances.sound is]
    exact find_of_prefix first grows.accounts
  · have kept := (listed before after was is).subset among
    have unique := advances.sound.records.conversations
    rw [answer_of_ok advances.sound is] at still kept
    exact congrArg Conversation.type (List.inj_on_of_nodup_map unique still kept same)
  · have unflagged (interactions : List Interaction) :
        (interactions.filter (·.conversation = conversation)).map Interaction.unflagged =
          (interactions.map Interaction.unflagged).filter (·.conversation = conversation) := by
      rw [List.filter_map]
      rfl
    rw [answer_of_ok sound was, answer_of_ok advances.sound is]
    simp only [Records.carry, unflagged]
    exact grows.interactions.filter _
  · rw [answer_of_ok sound was] at among
    rw [answer_of_ok advances.sound is]
    obtain ⟨stored, here⟩ := List.mem_filter.mp among
    exact List.mem_filter.mpr ⟨advances.flagged_mem stored flagged, here⟩

end AnyStore

namespace History

variable {first last : AnyStore} {past : List Exchange}

theorem keeps (history : History first past last) (empty : first.Empty) : last.Keeps past := by
  have sound := (history.advances empty.sound).sound
  have records := sound.records
  refine ⟨records.accounts, ?_, records.members, records.interactions, fun cid made => ?_,
    fun conversation members answered => ⟨?_, fun member => ?_⟩⟩
  · rw [AnyStore.conversationKeys_eq sound]
    exact records.conversations
  · exact (history.holds_of_made empty.sound made).2
  · rw [AnyStore.answer_of_ok sound answered]
    have together : ∀ member ∈ last.records.members.filter (·.conversation = conversation),
        member.conversation = conversation := fun member among => by
      simpa using (List.mem_filter.mp among).2
    exact Member.sorted_strictly (records.members.filter _) together
  · rw [AnyStore.answer_of_ok sound answered]
    simp only [Records.carry, List.mem_mergeSort, List.mem_filter, decide_eq_true_eq]
    constructor
    · rintro ⟨held, here⟩
      exact ⟨here, history.made_of_member empty held⟩
    · rintro ⟨here, made⟩
      exact ⟨history.holds_of_made empty.sound made, here⟩

end History

/-- Whatever happens to a store that was empty, with errors or without: what was put in is kept, and
nothing else; later answers continue earlier ones; and a write answers that it changed something
exactly if its record was not held before, and nothing changed exactly if it answers so. -/
theorem store_history {first earlier later : AnyStore} {past since : List Exchange}
    (empty : first.Empty) (history : History first past earlier)
    (more : History earlier since later) :
    earlier.Keeps past ∧ earlier.Continues later ∧
      ∀ (write : Write) (changed : Bool) (next : AnyStore),
        earlier.perform write.op = (.ok changed, next) →
          (changed = true ↔ write.Adds earlier.records next.records) ∧
            (changed = false ↔ earlier.records.SameAs next.records) := by
  have sound := (history.advances empty.sound).sound
  refine ⟨history.keeps empty, (more.advances sound).continues sound,
    fun write changed next performed => ?_⟩
  obtain ⟨_, rfl, records, _⟩ := AnyStore.carried_of_ok sound performed
  have either := Records.adds_or_same sound.records write
  rw [← records] at either
  have not_both : write.Adds earlier.records next.records →
      ¬ earlier.records.SameAs next.records := Records.adds_not_same sound.records
  obtain ⟨changed, adds⟩ | ⟨unchanged, same⟩ := either
  · simp [changed, adds, not_both adds]
  · have nothing : ¬ write.Adds earlier.records next.records := fun adds => not_both adds same
    simp [unchanged, nothing, same]

/-- Two members were put into tables, and the database broke off once an acknowledgement was
noted. -/
def brokenOff : List Exchange :=
  [⟨.addMember ⟨"g", "n", "x"⟩, .ok true⟩, ⟨.addMember ⟨"g", "m", "y"⟩, .ok true⟩,
    ⟨.acknowledge "c", .error .database⟩]

def notedTables : Tables where
  members := [⟨"g", "n", "x"⟩, ⟨"g", "m", "y"⟩]
  acknowledgements := ["c"]

/-- The tables once the interaction came, which has its flag from the start. -/
def flaggedTables : Tables :=
  { notedTables with
    interactions := [⟨1, ⟨"c", "g", "d", 0, [7], 0, true⟩⟩]
    lastInteraction := 1 }

/-- An acknowledgement that the database broke off, and then the interaction that it was for. -/
theorem broken_off_then_added :
    (AnyStore.inTables notedTables).Keeps brokenOff ∧
      (AnyStore.inTables notedTables).Continues (.inTables flaggedTables) ∧
      ∀ (write : Write) (changed : Bool) (next : AnyStore),
        (AnyStore.inTables notedTables).perform write.op = (.ok changed, next) →
          (changed = true ↔ write.Adds notedTables.records next.records) ∧
            (changed = false ↔ notedTables.records.SameAs next.records) := by
  have members : History (.inTables {})
      [⟨.addMember ⟨"g", "n", "x"⟩, .ok true⟩, ⟨.addMember ⟨"g", "m", "y"⟩, .ok true⟩]
      (.inTables { members := [⟨"g", "n", "x"⟩, ⟨"g", "m", "y"⟩] }) :=
    ((History.begin _).performed rfl).performed rfl
  have noted : (Script.ofOp (.acknowledge "c")).FailsAt
      { members := [⟨"g", "n", "x"⟩, ⟨"g", "m", "y"⟩] } notedTables := by
    have ran : Tables.run (.insertAcknowledgement "c")
        { members := [⟨"g", "n", "x"⟩, ⟨"g", "m", "y"⟩] } = (.ok 1, notedTables) := rfl
    exact .later ran (.here _ _ _)
  have added : History (.inTables notedTables)
      [⟨.addInteraction ⟨"c", "g", "d", 0, [7], 0, false⟩, .ok true⟩] (.inTables flaggedTables) :=
    (History.begin _).performed rfl
  exact store_history .inTables (members.failed (.inTables noted) .database) added

end Store

end GroupReplay
