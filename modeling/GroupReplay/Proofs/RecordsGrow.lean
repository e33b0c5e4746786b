import GroupReplay.Store.Records
import Mathlib.Data.List.Nodup

/-!
Records only grow.  `Records.carry` is what an operation does to records when it is not rejected;
it keeps their keys unique and never takes a record away.  A write whose record is held changes
nothing, so that writes may be begun, broken off and made again from the first on.
-/

namespace GroupReplay.Store

/-- A write, by what it puts in. -/
inductive Write where
  | account (key displayName : String)
  | conversation (added : Conversation)
  | member (added : Member)
  | interaction (added : Interaction)
  | acknowledgement (cid : String)
  deriving DecidableEq

/-- The operation that makes a write. -/
def Write.op : Write → Op Bool
  | account key displayName => .ensureAccount key displayName
  | conversation added => .addConversation added
  | member added => .addMember added
  | interaction added => .addInteraction added
  | acknowledgement cid => .acknowledge cid

/-- An interaction without its flag. -/
def Interaction.unflagged (interaction : Interaction) : Interaction :=
  { interaction with acknowledged := false }

/-- An interaction, flagged if it is the one of a content id. -/
def Interaction.flag (cid : String) (interaction : Interaction) : Interaction :=
  if interaction.cid = cid then { interaction with acknowledged := true } else interaction

theorem Interaction.flag_cid (cid : String) (interaction : Interaction) :
    (interaction.flag cid).cid = interaction.cid := by
  unfold flag
  split <;> rfl

theorem Interaction.flag_unflagged (cid : String) (interaction : Interaction) :
    (interaction.flag cid).unflagged = interaction.unflagged := by
  unfold flag
  split <;> rfl

/-- The flagged one of a content id is acknowledged, and flagging takes no flag away. -/
theorem Interaction.flag_acknowledged (cid : String) (interaction : Interaction) :
    (interaction.flag cid).acknowledged =
      (decide (interaction.cid = cid) || interaction.acknowledged) := by
  unfold flag
  by_cases same : interaction.cid = cid <;> simp [same]

namespace Records

variable {α : Type} {records : Records}

/-- Why an operation is rejected, if it is. -/
def refusal? (records : Records) : Op α → Option Error
  | .account _ | .members _ | .interactions _ => none
  | .conversations => if records.rejectsLists then some (.unavailable "list rejected") else none
  | .ensureAccount _ _ | .addConversation _ | .addMember _ | .addInteraction _ | .acknowledge _ =>
    if records.rejectsWrites then some (.unavailable "write rejected") else none

/-- What an operation answers and leaves if it is not rejected. -/
def carry (op : Op α) (records : Records) : α × Records :=
  match op with
  | .ensureAccount key name => ensureAccount key name records
  | .account key => (records.accounts.find? (·.key = key), records)
  | .conversations => (records.conversations, records)
  | .addConversation conversation => addConversation conversation records
  | .addMember member => addMember member records
  | .members conversation =>
    ((records.members.filter (·.conversation = conversation)).mergeSort Member.notAfter, records)
  | .addInteraction interaction => addInteraction interaction records
  | .acknowledge cid => acknowledge cid records
  | .interactions conversation =>
    (records.interactions.filter (·.conversation = conversation), records)

theorem perform_refused {op : Op α} {e : Error} (refused : records.refusal? op = some e) :
    records.perform op = (.error e, records) := by
  cases op <;> simp_all [refusal?, perform, write]

theorem perform_carried {op : Op α} (accepted : records.refusal? op = none) :
    records.perform op = (.ok (carry op records).1, (carry op records).2) := by
  cases op <;> simp_all [refusal?, perform, write, carry]

/-- Records with other switches: what is rejected, and whether calls are recorded. -/
def switched (rejectsWrites rejectsLists recorded : Bool) (records : Records) : Records :=
  { records with rejectsWrites, rejectsLists, recorded }

/-- What an operation that is not rejected does has nothing to do with the switches. -/
theorem carry_switched (op : Op α) (rejectsWrites rejectsLists recorded : Bool)
    (records : Records) :
    carry op (records.switched rejectsWrites rejectsLists recorded) =
      ((carry op records).1,
        (carry op records).2.switched rejectsWrites rejectsLists recorded) := by
  cases op with
  | ensureAccount key name =>
    by_cases present : records.accounts.any (·.key = key) = true <;>
      simp only [carry, ensureAccount, switched, present, Bool.false_eq_true, ↓reduceIte]
  | addConversation conversation =>
    by_cases present : records.conversations.any (·.key = conversation.key) = true <;>
      simp only [carry, addConversation, switched, present, Bool.false_eq_true, ↓reduceIte]
  | addMember member =>
    by_cases present : member ∈ records.members <;>
      simp only [carry, addMember, switched, present, ↓reduceIte]
  | addInteraction interaction =>
    by_cases present : records.interactions.any (·.cid = interaction.cid) = true
    · simp only [carry, addInteraction, switched, present, ↓reduceIte]
    · simp only [carry, addInteraction, switched, present, Bool.false_eq_true, ↓reduceIte]
      rfl
  | _ => rfl

/-- An operation leaves the switches alone. -/
theorem switched_carry (op : Op α) (records : Records) :
    (carry op records).2.switched records.rejectsWrites records.rejectsLists records.recorded =
      (carry op records).2 :=
  (congrArg Prod.snd (carry_switched op _ _ _ records)).symm

/-- What is rejected does not change. -/
theorem refusal_carry {β : Type} (op : Op α) (other : Op β) :
    (carry op records).2.refusal? other = records.refusal? other := by
  rw [← switched_carry op records]
  cases other <;> rfl

/-- Keys are unique. -/
structure Sound (records : Records) : Prop where
  accounts : (records.accounts.map (·.key)).Nodup
  conversations : (records.conversations.map (·.key)).Nodup
  members : records.members.Nodup
  interactions : (records.interactions.map (·.cid)).Nodup

/-- A content id is acknowledged for good: this is recorded, and its interaction, if it is stored, is
flagged. -/
def Acknowledges (records : Records) (cid : String) : Prop :=
  cid ∈ records.acknowledged ∧ ∀ i ∈ records.interactions, i.cid = cid → i.acknowledged = true

/-- Records that others became: nothing was taken away, and only flags were set. -/
structure Grows (records later : Records) : Prop where
  accounts : records.accounts <+: later.accounts
  conversations : records.conversations <+: later.conversations
  members : records.members <+: later.members
  interactions :
    records.interactions.map Interaction.unflagged <+: later.interactions.map Interaction.unflagged
  acknowledged : records.acknowledged <+: later.acknowledged
  acknowledges : ∀ cid, records.Acknowledges cid → later.Acknowledges cid

theorem Grows.refl (records : Records) : Grows records records :=
  ⟨List.prefix_rfl, List.prefix_rfl, List.prefix_rfl, List.prefix_rfl, List.prefix_rfl,
    fun _ held => held⟩

theorem Grows.trans {later last : Records} (first : Grows records later)
    (second : Grows later last) : Grows records last where
  accounts := first.accounts.trans second.accounts
  conversations := first.conversations.trans second.conversations
  members := first.members.trans second.members
  interactions := first.interactions.trans second.interactions
  acknowledged := first.acknowledged.trans second.acknowledged
  acknowledges cid held := second.acknowledges cid (first.acknowledges cid held)

/-- Content ids being unique, an acknowledgement flags the one interaction that it is for. -/
theorem acknowledgeFirst_eq_map {interactions : List Interaction}
    (unique : (interactions.map (·.cid)).Nodup) (cid : String) :
    acknowledgeFirst cid interactions = interactions.map (Interaction.flag cid) := by
  induction interactions with
  | nil => rfl
  | cons i rest ih =>
    obtain ⟨fresh, unique⟩ := List.nodup_cons.mp unique
    rw [acknowledgeFirst, List.map_cons]
    split
    · next here =>
      have others : rest.map (Interaction.flag cid) = rest.map id := by
        refine List.map_congr_left fun other member => ?_
        rw [Interaction.flag, if_neg]
        · rfl
        · rintro same
          exact fresh (List.mem_map.mpr ⟨other, member, same.trans here.1.symm⟩)
      rw [others, List.map_id, Interaction.flag, if_pos here.1]
    · next elsewhere =>
      rw [ih unique, Interaction.flag]
      split
      · next same =>
        have flagged : i.acknowledged = true := by simpa [same] using elsewhere
        rw [← flagged]
      · rfl

/-- Flagging the interactions of a content id that all have their flag changes none. -/
theorem map_flag_of_flagged {interactions : List Interaction} {cid : String}
    (flagged : ∀ i ∈ interactions, i.cid = cid → i.acknowledged = true) :
    interactions.map (Interaction.flag cid) = interactions := by
  refine (List.map_congr_left fun i stored => ?_).trans (List.map_id _)
  rw [Interaction.flag]
  split
  · next same => rw [← flagged i stored same]; rfl
  · rfl

private theorem nodup_snoc {β : Type} {l : List β} {x : β} (unique : l.Nodup) (fresh : x ∉ l) :
    (l ++ [x]).Nodup := by
  rw [List.nodup_append]
  refine ⟨unique, by simp, ?_⟩
  rintro a member b last rfl
  exact fresh (List.mem_singleton.mp last ▸ member)

/-- An operation keeps records sound. -/
theorem Sound.carry (sound : records.Sound) (op : Op α) : (carry op records).2.Sound := by
  cases op with
  | ensureAccount key name =>
    simp only [Records.carry, ensureAccount]
    split
    · exact sound
    · next absent =>
      refine { sound with accounts := ?_ }
      rw [List.map_append]
      exact nodup_snoc sound.accounts (by simpa using absent)
  | addConversation conversation =>
    simp only [Records.carry, addConversation]
    split
    · exact sound
    · next absent =>
      refine { sound with conversations := ?_ }
      rw [List.map_append]
      exact nodup_snoc sound.conversations (by simpa using absent)
  | addMember member =>
    simp only [Records.carry, addMember]
    split
    · exact sound
    · next absent => exact { sound with members := nodup_snoc sound.members absent }
  | addInteraction interaction =>
    simp only [Records.carry, addInteraction]
    split
    · exact sound
    · next absent =>
      refine { sound with interactions := ?_ }
      rw [List.map_append]
      exact nodup_snoc sound.interactions (by simpa using absent)
  | acknowledge cid =>
    simp only [Records.carry, acknowledge, acknowledgeFirst_eq_map sound.interactions]
    refine { sound with interactions := ?_ }
    rw [List.map_map]
    simpa [Function.comp_def, Interaction.flag_cid] using sound.interactions
  | _ => exact sound

/-- Records that took note of an acknowledgement and flagged no interaction for it. -/
def noted (cid : String) (records : Records) : Records :=
  { records with
    acknowledged :=
      if cid ∈ records.acknowledged then records.acknowledged else records.acknowledged ++ [cid] }

theorem prefix_noted (cid : String) (records : Records) :
    records.acknowledged <+: (records.noted cid).acknowledged := by
  unfold noted
  dsimp only
  split
  · exact List.prefix_rfl
  · exact List.prefix_append _ _

theorem mem_noted (cid : String) (records : Records) :
    cid ∈ (records.noted cid).acknowledged := by
  unfold noted
  dsimp only
  split
  · next recorded => exact recorded
  · exact List.mem_append_right _ (List.mem_singleton_self cid)

/-- An operation takes nothing away. -/
theorem grows_carry (sound : records.Sound) (op : Op α) : records.Grows (carry op records).2 := by
  have same := Grows.refl records
  cases op with
  | ensureAccount key name =>
    simp only [carry, ensureAccount]
    split
    · exact same
    · exact { same with accounts := List.prefix_append _ _ }
  | addConversation conversation =>
    simp only [carry, addConversation]
    split
    · exact same
    · exact { same with conversations := List.prefix_append _ _ }
  | addMember member =>
    simp only [carry, addMember]
    split
    · exact same
    · exact { same with members := List.prefix_append _ _ }
  | addInteraction interaction =>
    simp only [carry, addInteraction]
    split
    · exact same
    · refine { same with interactions := ?_, acknowledges := ?_ }
      · rw [List.map_append]
        exact List.prefix_append _ _
      · rintro cid ⟨recorded, flagged⟩
        refine ⟨recorded, List.forall_mem_append.mpr ⟨flagged, List.forall_mem_singleton.mpr ?_⟩⟩
        rintro rfl
        simp [recorded]
  | acknowledge cid =>
    simp only [carry, acknowledge, acknowledgeFirst_eq_map sound.interactions]
    have kept := prefix_noted cid records
    refine { same with interactions := ?_, acknowledged := kept, acknowledges := ?_ }
    · simp [Function.comp_def, Interaction.flag_unflagged]
    · rintro other ⟨recorded, flagged⟩
      refine ⟨kept.subset recorded, fun i member same => ?_⟩
      obtain ⟨before, among, rfl⟩ := List.mem_map.mp member
      rw [Interaction.flag_cid] at same
      simp [Interaction.flag_acknowledged, flagged before among same]
  | _ => exact same

/-- What writes, made one after the other, leave. -/
def carryAll (writes : List Write) (records : Records) : Records :=
  writes.foldl (fun records write => (carry write.op records).2) records

theorem carryAll_append (first second : List Write) (records : Records) :
    carryAll (first ++ second) records = carryAll second (carryAll first records) :=
  List.foldl_append

/-- Only the write of a conversation adds one. -/
theorem carry_conversations {write : Write} (other : ∀ added, write ≠ .conversation added)
    (records : Records) : (carry write.op records).2.conversations = records.conversations := by
  cases write with
  | account key name => simp only [Write.op, carry, ensureAccount]; split <;> rfl
  | conversation added => exact absurd rfl (other added)
  | member added => simp only [Write.op, carry, addMember]; split <;> rfl
  | interaction added => simp only [Write.op, carry, addInteraction]; split <;> rfl
  | acknowledgement cid => rfl

theorem carryAll_conversations {writes : List Write}
    (others : ∀ write ∈ writes, ∀ added, write ≠ .conversation added) (records : Records) :
    (carryAll writes records).conversations = records.conversations := by
  induction writes generalizing records with
  | nil => rfl
  | cons write rest ih =>
    obtain ⟨other, others⟩ := List.forall_mem_cons.mp others
    exact (ih others _).trans (carry_conversations other records)

/-- Only the write of a member adds one. -/
theorem carry_members {write : Write} (other : ∀ added, write ≠ .member added)
    (records : Records) : (carry write.op records).2.members = records.members := by
  cases write with
  | account key name => simp only [Write.op, carry, ensureAccount]; split <;> rfl
  | conversation added => simp only [Write.op, carry, addConversation]; split <;> rfl
  | member added => exact absurd rfl (other added)
  | interaction added => simp only [Write.op, carry, addInteraction]; split <;> rfl
  | acknowledgement cid => rfl

theorem carryAll_members {writes : List Write}
    (others : ∀ write ∈ writes, ∀ added, write ≠ .member added) (records : Records) :
    (carryAll writes records).members = records.members := by
  induction writes generalizing records with
  | nil => rfl
  | cons write rest ih =>
    obtain ⟨other, others⟩ := List.forall_mem_cons.mp others
    exact (ih others _).trans (carry_members other records)

/-! ### Writes whose records are held -/

/-- The record of a write is held. -/
def Holds (records : Records) : Write → Prop
  | .account key _ => key ∈ records.accounts.map (·.key)
  | .conversation added => added.key ∈ records.conversations.map (·.key)
  | .member added => added ∈ records.members
  | .interaction added => added.cid ∈ records.interactions.map (·.cid)
  | .acknowledgement cid => records.Acknowledges cid

theorem Holds.grows {later : Records} {write : Write} (held : records.Holds write)
    (grows : records.Grows later) : later.Holds write := by
  cases write with
  | account key name => exact (grows.accounts.map _).subset held
  | conversation added => exact (grows.conversations.map _).subset held
  | member added => exact grows.members.subset held
  | interaction added =>
    have cids (interactions : List Interaction) :
        (interactions.map Interaction.unflagged).map (·.cid) = interactions.map (·.cid) := by
      rw [List.map_map]
      rfl
    have kept := (grows.interactions.map (·.cid)).subset
    rw [cids, cids] at kept
    exact kept held
  | acknowledgement cid => exact grows.acknowledges cid held

/-- A write puts its record in, unless it is held. -/
theorem holds_carry (sound : records.Sound) (write : Write) :
    (carry write.op records).2.Holds write := by
  cases write with
  | account key name =>
    simp only [Write.op, carry, ensureAccount]
    split
    · next present => simpa [Holds] using present
    · simp [Holds]
  | conversation added =>
    simp only [Write.op, carry, addConversation]
    split
    · next present => simpa [Holds] using present
    · simp [Holds]
  | member added =>
    simp only [Write.op, carry, addMember]
    split
    · next present => exact present
    · simp [Holds]
  | interaction added =>
    simp only [Write.op, carry, addInteraction]
    split
    · next present => simpa [Holds] using present
    · simp [Holds]
  | acknowledgement cid =>
    simp only [Write.op, carry, acknowledge, acknowledgeFirst_eq_map sound.interactions]
    refine ⟨mem_noted cid records, fun i member same => ?_⟩
    obtain ⟨before, _, rfl⟩ := List.mem_map.mp member
    rw [Interaction.flag_cid] at same
    simp [Interaction.flag_acknowledged, same]

/-- Every acknowledgement that is recorded reached its interaction. -/
def Flagged (records : Records) : Prop := ∀ cid ∈ records.acknowledged, records.Acknowledges cid

/-- An operation leaves no acknowledgement behind that did not reach its interaction. -/
theorem Flagged.carry (flagged : records.Flagged) (sound : records.Sound) (op : Op α) :
    (carry op records).2.Flagged := by
  have kept := (grows_carry sound op).acknowledges
  cases op with
  | ensureAccount key name =>
    simp only [Records.carry, ensureAccount] at kept ⊢
    split <;> exact flagged
  | addConversation conversation =>
    simp only [Records.carry, addConversation] at kept ⊢
    split <;> exact flagged
  | addMember member =>
    simp only [Records.carry, addMember] at kept ⊢
    split <;> exact flagged
  | addInteraction interaction =>
    intro cid recorded
    refine kept cid (flagged cid ?_)
    simp only [Records.carry, addInteraction] at recorded
    split at recorded <;> exact recorded
  | acknowledge cid =>
    intro other recorded
    by_cases same : other = cid
    · rw [same]
      exact holds_carry sound (.acknowledgement cid)
    · refine kept other (flagged other ?_)
      simp only [Records.carry, acknowledge] at recorded
      split at recorded
      · exact recorded
      · simpa [same] using recorded
  | _ => exact flagged

/-- A write whose record is held changes nothing. -/
theorem carry_held {write : Write} (sound : records.Sound) (held : records.Holds write) :
    carry write.op records = (false, records) := by
  cases write with
  | account key name =>
    have present : records.accounts.any (·.key = key) = true := by simpa [Holds] using held
    simp [Write.op, carry, ensureAccount, present]
  | conversation added =>
    have present : records.conversations.any (·.key = added.key) = true := by
      simpa [Holds] using held
    simp [Write.op, carry, addConversation, present]
  | member added =>
    have present : added ∈ records.members := held
    simp [Write.op, carry, addMember, present]
  | interaction added =>
    have present : records.interactions.any (·.cid = added.cid) = true := by
      simpa [Holds] using held
    simp [Write.op, carry, addInteraction, present]
  | acknowledgement cid =>
    obtain ⟨acknowledged, flagged⟩ := held
    have unchanged := map_flag_of_flagged flagged
    have changes :
        records.interactions.any (fun i => i.cid = cid ∧ i.acknowledged = false) = false := by
      rw [List.any_eq_false]
      intro i member
      simpa using flagged i member
    simp only [Write.op, carry, acknowledge, acknowledgeFirst_eq_map sound.interactions, unchanged,
      acknowledged, ↓reduceIte, changes]

/-! ### Lists of writes -/

/-- Records that were told what to reject. -/
def told (rejectsWrites rejectsLists : Bool) (records : Records) : Records :=
  { records with rejectsWrites, rejectsLists }

/-- What an operation that is not rejected does has nothing to do with what is rejected. -/
theorem carry_told (op : Op α) (rejectsWrites rejectsLists : Bool) (records : Records) :
    carry op (records.told rejectsWrites rejectsLists) =
      ((carry op records).1, (carry op records).2.told rejectsWrites rejectsLists) := by
  have carried := carry_switched op rejectsWrites rejectsLists records.recorded records
  rw [← switched_carry op records]
  exact carried

theorem carryAll_told (writes : List Write) (rejectsWrites rejectsLists : Bool)
    (records : Records) :
    carryAll writes (records.told rejectsWrites rejectsLists) =
      (carryAll writes records).told rejectsWrites rejectsLists := by
  induction writes generalizing records with
  | nil => rfl
  | cons write rest ih =>
    rw [carryAll, List.foldl_cons, carry_told]
    exact ih _

theorem Sound.carryAll (sound : records.Sound) (writes : List Write) :
    (carryAll writes records).Sound := by
  induction writes generalizing records with
  | nil => exact sound
  | cons write rest ih => exact ih (sound.carry write.op)

theorem grows_carryAll (sound : records.Sound) (writes : List Write) :
    records.Grows (carryAll writes records) := by
  induction writes generalizing records with
  | nil => exact .refl records
  | cons write rest ih => exact (grows_carry sound write.op).trans (ih (sound.carry write.op))

/-- All records of writes that were made are held. -/
theorem holds_carryAll (sound : records.Sound) {writes : List Write} :
    ∀ write ∈ writes, (carryAll writes records).Holds write := by
  induction writes generalizing records with
  | nil => exact nofun
  | cons write rest ih =>
    have next := sound.carry write.op
    exact List.forall_mem_cons.mpr
      ⟨(holds_carry sound write).grows (grows_carryAll next rest), ih next⟩

/-- Writes whose records are all held change nothing. -/
theorem carryAll_held (sound : records.Sound) {writes : List Write}
    (held : ∀ write ∈ writes, records.Holds write) : carryAll writes records = records := by
  induction writes with
  | nil => rfl
  | cons write rest ih =>
    obtain ⟨here, others⟩ := List.forall_mem_cons.mp held
    calc carryAll (write :: rest) records
      _ = carryAll rest (carry write.op records).2 := rfl
      _ = carryAll rest records := by rw [carry_held sound here]
      _ = records := ih others

/-! ### Writes that were begun -/

theorem Sound.noted (sound : records.Sound) (cid : String) : (records.noted cid).Sound :=
  ⟨sound.accounts, sound.conversations, sound.members, sound.interactions⟩

theorem grows_noted (records : Records) (cid : String) : records.Grows (records.noted cid) := by
  have same := Grows.refl records
  have kept := prefix_noted cid records
  refine { same with acknowledged := kept, acknowledges := ?_ }
  rintro other ⟨recorded, flagged⟩
  exact ⟨kept.subset recorded, flagged⟩

/-- An acknowledgement whose note was taken flags what it would have flagged. -/
theorem carry_noted (cid : String) (records : Records) :
    (carry (.acknowledge cid) (records.noted cid)).2 = (carry (.acknowledge cid) records).2 := by
  have recorded := mem_noted cid records
  simp only [carry, acknowledge, recorded, ↓reduceIte]
  rfl

/-- What is left of records once writes were begun: the first of them were made, and of the next one,
if it is an acknowledgement, at least the note was taken. -/
def Begun (writes : List Write) (records left : Records) : Prop :=
  ∃ made rest, writes = made ++ rest ∧
    (left = carryAll made records ∨ ∃ cid more, rest = .acknowledgement cid :: more ∧
      left = (carryAll made records).noted cid)

theorem Begun.none (writes : List Write) (records : Records) : Begun writes records records :=
  ⟨[], writes, rfl, .inl rfl⟩

theorem Begun.all (writes : List Write) (records : Records) :
    Begun writes records (carryAll writes records) :=
  ⟨writes, [], (List.append_nil _).symm, .inl rfl⟩

theorem Begun.append {writes : List Write} {left : Records} (begun : Begun writes records left)
    (more : List Write) : Begun (writes ++ more) records left := by
  obtain ⟨made, rest, rfl, either⟩ := begun
  refine ⟨made, rest ++ more, List.append_assoc _ _ _, either.imp_right ?_⟩
  rintro ⟨cid, others, rfl, noted⟩
  exact ⟨cid, others ++ more, rfl, noted⟩

/-- Writes that were begun once others were made. -/
theorem Begun.after {first second : List Write} {left : Records}
    (begun : Begun second (carryAll first records) left) : Begun (first ++ second) records left := by
  obtain ⟨made, rest, rfl, either⟩ := begun
  refine ⟨first ++ made, rest, (List.append_assoc _ _ _).symm, ?_⟩
  rwa [carryAll_append]

theorem Begun.told {writes : List Write} {left : Records} (begun : Begun writes records left)
    (rejectsWrites rejectsLists : Bool) :
    Begun writes (records.told rejectsWrites rejectsLists)
      (left.told rejectsWrites rejectsLists) := by
  obtain ⟨made, rest, rfl, either⟩ := begun
  refine ⟨made, rest, rfl, ?_⟩
  rw [carryAll_told]
  obtain rfl | ⟨cid, more, rfl, rfl⟩ := either
  · exact .inl rfl
  · exact .inr ⟨cid, more, rfl, rfl⟩

/-- Writes that were begun before leave what they leave when they are made once. -/
theorem carryAll_begun (sound : records.Sound) {writes : List Write} {left : Records}
    (begun : Begun writes records left) : carryAll writes left = carryAll writes records := by
  obtain ⟨made, rest, rfl, either⟩ := begun
  have madeSound := sound.carryAll made
  have held : ∀ write ∈ made, (carryAll made records).Holds write := holds_carryAll sound
  rw [carryAll_append, carryAll_append]
  obtain rfl | ⟨cid, more, rfl, rfl⟩ := either
  · rw [carryAll_held madeSound held]
  · have grows := grows_noted (carryAll made records) cid
    have again : carryAll made ((carryAll made records).noted cid) =
        (carryAll made records).noted cid :=
      carryAll_held (madeSound.noted cid) fun write member => (held write member).grows grows
    calc carryAll (.acknowledgement cid :: more) (carryAll made ((carryAll made records).noted cid))
      _ = carryAll more (carry (.acknowledge cid) ((carryAll made records).noted cid)).2 := by
        rw [again]
        rfl
      _ = carryAll (.acknowledgement cid :: more) (carryAll made records) := by
        rw [carry_noted]
        rfl

end Records

end GroupReplay.Store
