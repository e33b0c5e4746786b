import GroupReplay.Proofs.RecordsGrow
import GroupReplay.Store.Tables

/-!
The tables of a database hold records.  `Tables.records` reads them off, and every operation that is
not refused does to them, and answers, what it does and answers on records in memory.
-/

namespace GroupReplay.Store

variable {α : Type}

/-- The texts that an operation passes to the database. -/
def Op.texts : Op α → List String
  | .ensureAccount key name => [key, name]
  | .account key => [key]
  | .conversations => []
  | .addConversation conversation => [conversation.key, conversation.type.text]
  | .addMember member => [member.conversation, member.member, member.device]
  | .members conversation => [conversation]
  | .addInteraction interaction =>
    [interaction.cid, interaction.conversation, interaction.device]
  | .acknowledge cid => [cid]
  | .interactions conversation => [conversation]

/-- Ids ascend and none is greater than the last one given out. -/
structure Ascending {ρ : Type} (id : ρ → Nat) (rows : List ρ) (last : Nat) : Prop where
  order : rows.Pairwise fun a b => id a < id b
  bound : ∀ row ∈ rows, id row ≤ last

theorem Ascending.snoc {ρ : Type} {id : ρ → Nat} {rows : List ρ} {last : Nat} {row : ρ}
    (ascending : Ascending id rows last) (next : id row = last + 1) :
    Ascending id (rows ++ [row]) (last + 1) where
  order := by
    refine List.pairwise_append.mpr ⟨ascending.order, List.pairwise_singleton _ _, ?_⟩
    intro earlier member final same
    have bound := ascending.bound earlier member
    rw [List.mem_singleton.mp same]
    omega
  bound := by
    refine List.forall_mem_append.mpr ⟨fun earlier member => ?_, ?_⟩
    · have bound := ascending.bound earlier member
      omega
    · exact List.forall_mem_singleton.mpr (Nat.le_of_eq next)

/-- Rows with ascending ids are listed as they are. -/
theorem Ascending.byId {ρ : Type} {id : ρ → Nat} {rows : List ρ} {last : Nat}
    (ascending : Ascending id rows last) : Tables.byId id rows = rows := by
  refine List.mergeSort_of_pairwise (ascending.order.imp fun before => ?_)
  exact decide_eq_true (Nat.le_of_lt before)

theorem Ascending.filter {ρ : Type} {id : ρ → Nat} {rows : List ρ} {last : Nat}
    (ascending : Ascending id rows last) (keep : ρ → Bool) :
    Ascending id (rows.filter keep) last where
  order := ascending.order.filter keep
  bound row member := ascending.bound row (List.mem_of_mem_filter member)

theorem Ascending.map {ρ : Type} {id : ρ → Nat} {rows : List ρ} {last : Nat}
    (ascending : Ascending id rows last) {change : ρ → ρ} (same : ∀ row, id (change row) = id row) :
    Ascending id (rows.map change) last where
  order := List.pairwise_map.mpr (ascending.order.imp fun before => by rwa [same, same])
  bound := by
    intro row member
    obtain ⟨earlier, among, rfl⟩ := List.mem_map.mp member
    rw [same]
    exact ascending.bound earlier among

namespace Tables

variable {tables : Tables}

/-- The conversation that a row stands for, if its kind is known. -/
def conversation? (row : ConversationRow) : Option Conversation :=
  (ConversationType.ofText? row.type).map fun type => ⟨row.key, type⟩

/-- The records that tables hold. -/
def records (tables : Tables) : Records where
  accounts := tables.accounts
  conversations := tables.conversations.filterMap conversation?
  members := tables.members
  interactions := tables.interactions.map (·.interaction)
  acknowledged := tables.acknowledgements

@[simp] theorem records_accounts : tables.records.accounts = tables.accounts := rfl
@[simp] theorem records_members : tables.records.members = tables.members := rfl
@[simp] theorem records_interactions :
    tables.records.interactions = tables.interactions.map (·.interaction) := rfl
@[simp] theorem records_acknowledged : tables.records.acknowledged = tables.acknowledgements := rfl

/-- Ids ascend and kinds are known. -/
structure Ordered (tables : Tables) : Prop where
  conversations : Ascending (·.id) tables.conversations tables.lastConversation
  kinds : ∀ row ∈ tables.conversations, ∃ type : ConversationType, row.type = type.text
  interactions : Ascending (·.id) tables.interactions tables.lastInteraction

/-- Ids ascend, kinds are known and the records are sound. -/
structure Sound (tables : Tables) : Prop extends Ordered tables where
  records : tables.records.Sound

/-- Tables are sound before anything was put in. -/
theorem sound_empty : ({} : Tables).Sound :=
  ⟨⟨⟨.nil, nofun⟩, nofun, ⟨.nil, nofun⟩⟩,
    List.nodup_nil, List.nodup_nil, List.nodup_nil, List.nodup_nil⟩

/-- Why the database refuses an operation, if it does. -/
def refusal? (op : Op α) : Option Error :=
  if op.texts.any holdsNul then some .database else none

theorem perform_refused {op : Op α} {e : Error} (refused : refusal? op = some e) :
    tables.perform op = (.error e, tables) := by
  unfold refusal? at refused
  split at refused
  · next nul =>
    cases refused
    cases op with
    | conversations => simp [Op.texts] at nul
    | addInteraction interaction =>
      simp only [Op.texts] at nul
      simp only [perform, Script.ofOp, Script.addInteraction]
      by_cases comes : interaction.acknowledged = true
      · simp [comes, Script.of, Script.run, run, Statement.texts, nul]
      · by_cases first : [interaction.cid].any holdsNul = true <;>
          simp only [comes, first, Bool.false_eq_true, ↓reduceIte, Script.of, Script.run, run,
            Statement.texts, nul]
    | acknowledge cid =>
      simp only [Op.texts] at nul
      simp only [perform, Script.ofOp, Script.run, run, Statement.texts, nul, ↓reduceIte]
    | _ =>
      simp only [Op.texts] at nul
      simp only [perform, Script.ofOp, Script.of, Script.run, run, Statement.texts, nul, ↓reduceIte]
  · cases refused

private theorem conversation?_text {row : ConversationRow} {type : ConversationType}
    (kind : row.type = type.text) : conversation? row = some ⟨row.key, type⟩ := by
  rw [conversation?, kind, ConversationType.ofText?_text]
  rfl

private theorem read_rows {rows : List ConversationRow}
    (kinds : ∀ row ∈ rows, ∃ type : ConversationType, row.type = type.text) :
    Script.readConversations (rows.map fun row => (row.key, row.type)) =
      .ok (rows.filterMap conversation?) := by
  induction rows with
  | nil => rfl
  | cons row rest ih =>
    obtain ⟨⟨type, kind⟩, others⟩ := List.forall_mem_cons.mp kinds
    rw [List.map_cons, Script.readConversations, kind, ConversationType.ofText?_text, ih others,
      List.filterMap_cons, conversation?_text kind]
    rfl

/-- Rows of known kinds have the keys of the conversations that they stand for. -/
theorem keys_of_known {rows : List ConversationRow}
    (kinds : ∀ row ∈ rows, ∃ type : ConversationType, row.type = type.text) :
    (rows.filterMap conversation?).map (·.key) = rows.map (·.key) := by
  induction rows with
  | nil => rfl
  | cons row rest ih =>
    obtain ⟨⟨type, kind⟩, others⟩ := List.forall_mem_cons.mp kinds
    rw [List.filterMap_cons, conversation?_text kind, List.map_cons, List.map_cons, ih others]

private theorem any_key {rows : List ConversationRow}
    (kinds : ∀ row ∈ rows, ∃ type : ConversationType, row.type = type.text) (key : String) :
    (rows.filterMap conversation?).any (·.key = key) = rows.any (·.key = key) := by
  have same := congrArg (List.any · (· = key)) (keys_of_known kinds)
  rw [List.any_map, List.any_map] at same
  exact same

/-! ### Insertions, as the records see them -/

private theorem insert_account_view (account : Account) (tables : Tables) :
    (decide (0 < (insertAccount account tables).1), (insertAccount account tables).2.records) =
      Records.ensureAccount account.key account.displayName tables.records := by
  by_cases present : tables.accounts.any (·.key = account.key) = true
  · rw [insertAccount, if_pos present, Records.ensureAccount, records_accounts, if_pos present]
    rfl
  · rw [insertAccount, if_neg present, Records.ensureAccount, records_accounts, if_neg present]
    rfl

private theorem insert_conversation_view (conversation : Conversation)
    (kinds : ∀ row ∈ tables.conversations, ∃ type : ConversationType, row.type = type.text) :
    (decide (0 < (insertConversation conversation.key conversation.type.text tables).1),
        (insertConversation conversation.key conversation.type.text tables).2.records) =
      Records.addConversation conversation tables.records := by
  have same : tables.records.conversations.any (·.key = conversation.key) =
      tables.conversations.any (·.key = conversation.key) := any_key kinds conversation.key
  by_cases present : tables.conversations.any (·.key = conversation.key) = true
  · rw [insertConversation, if_pos present, Records.addConversation, same, if_pos present]
    rfl
  · rw [insertConversation, if_neg present, Records.addConversation, same, if_neg present]
    refine Prod.ext rfl ?_
    have row : conversation?
        ⟨tables.lastConversation + 1, conversation.key, conversation.type.text⟩ =
          some conversation := conversation?_text rfl
    simp [records, row]

private theorem insert_member_view (member : Member) (tables : Tables) :
    (decide (0 < (insertMember member tables).1), (insertMember member tables).2.records) =
      Records.addMember member tables.records := by
  by_cases present : member ∈ tables.members
  · rw [insertMember, if_pos present, Records.addMember, records_members, if_pos present]
    rfl
  · rw [insertMember, if_neg present, Records.addMember, records_members, if_neg present]
    rfl

private theorem insert_interaction_view (tables : Tables) (interaction : Interaction)
    (acknowledged : Bool) (same : acknowledged = (interaction.acknowledged ||
      decide (interaction.cid ∈ tables.records.acknowledged))) :
    (decide (0 < (insertInteraction { interaction with acknowledged } tables).1),
        (insertInteraction { interaction with acknowledged } tables).2.records) =
      Records.addInteraction interaction tables.records := by
  have any : tables.records.interactions.any (·.cid = interaction.cid) =
      tables.interactions.any (·.interaction.cid = interaction.cid) := List.any_map
  by_cases present : tables.interactions.any (·.interaction.cid = interaction.cid) = true
  · rw [insertInteraction, if_pos present, Records.addInteraction, any, if_pos present]
    rfl
  · rw [insertInteraction, if_neg present, Records.addInteraction, any, if_neg present, same]
    refine Prod.ext rfl ?_
    simp [records]

private theorem acknowledge_view (cid : String) (sound : tables.Sound) :
    let acknowledged := (insertAcknowledgement cid tables).2
    (decide (0 < (flagInteractions cid acknowledged).1),
        (flagInteractions cid acknowledged).2.records) =
      Records.acknowledge cid tables.records := by
  have flags : (tables.interactions.map fun row =>
      if lacksFlag cid row then
        { row with interaction := { row.interaction with acknowledged := true } }
      else row).map (·.interaction) =
        (tables.interactions.map (·.interaction)).map (Interaction.flag cid) := by
    rw [List.map_map, List.map_map]
    refine List.map_congr_left fun row _ => ?_
    simp only [Function.comp_apply, lacksFlag, Interaction.flag, decide_eq_true_eq]
    by_cases same : row.interaction.cid = cid
    · by_cases flagged : row.interaction.acknowledged = true
      · rw [if_neg (by simp [flagged]), if_pos same, ← flagged]
      · rw [if_pos (by simp [same, flagged]), if_pos same]
    · rw [if_neg (by simp [same]), if_neg same]
  have counted : decide (0 < tables.interactions.countP (lacksFlag cid)) =
      (tables.interactions.map (·.interaction)).any
        fun i => i.cid = cid ∧ i.acknowledged = false := by
    rw [Bool.eq_iff_iff]
    simp [List.countP_pos_iff, lacksFlag]
  have inserted : (insertAcknowledgement cid tables).2 = { tables with
      acknowledgements := if cid ∈ tables.acknowledgements then tables.acknowledgements
        else tables.acknowledgements ++ [cid] } := by
    unfold insertAcknowledgement
    split <;> rfl
  have first := Records.acknowledgeFirst_eq_map sound.records.interactions cid
  rw [inserted, Records.acknowledge, first]
  refine Prod.ext counted ?_
  simp only [flagInteractions, records]
  rw [flags]
  by_cases already : cid ∈ tables.acknowledgements <;> simp only [already, ↓reduceIte]

private theorem clear_of_accepted {op : Op α} (accepted : refusal? op = none) :
    op.texts.any holdsNul = false := by
  unfold refusal? at accepted
  split at accepted
  · cases accepted
  · next clear => simpa using clear

/-- An operation that is not refused acts on tables as it does on the records that they hold. -/
theorem perform_carried {op : Op α} (sound : tables.Sound) (accepted : refusal? op = none) :
    (tables.perform op).1 = .ok (Records.carry op tables.records).1 ∧
      (tables.perform op).2.records = (Records.carry op tables.records).2 := by
  have clear := clear_of_accepted accepted
  cases op with
  | ensureAccount key name =>
    simp only [Op.texts] at clear
    simp only [perform, Script.ofOp, Script.of, Script.run, run, Statement.texts, clear,
      Bool.false_eq_true, ↓reduceIte]
    have view := insert_account_view ⟨key, name⟩ tables
    exact ⟨congrArg (fun both => Except.ok both.1) view, congrArg Prod.snd view⟩
  | account key =>
    simp only [Op.texts] at clear
    simp only [perform, Script.ofOp, Script.of, Script.run, run, Statement.texts, clear,
      Bool.false_eq_true, ↓reduceIte]
    exact ⟨rfl, rfl⟩
  | conversations =>
    simp only [perform, Script.ofOp, Script.of, Script.run, run, Statement.texts, List.any_nil,
      Bool.false_eq_true, ↓reduceIte, sound.conversations.byId, read_rows sound.kinds]
    exact ⟨rfl, rfl⟩
  | addConversation conversation =>
    simp only [Op.texts] at clear
    simp only [perform, Script.ofOp, Script.of, Script.run, run, Statement.texts, clear,
      Bool.false_eq_true, ↓reduceIte]
    have view := insert_conversation_view conversation sound.kinds
    exact ⟨congrArg (fun both => Except.ok both.1) view, congrArg Prod.snd view⟩
  | addMember member =>
    simp only [Op.texts] at clear
    simp only [perform, Script.ofOp, Script.of, Script.run, run, Statement.texts, clear,
      Bool.false_eq_true, ↓reduceIte]
    have view := insert_member_view member tables
    exact ⟨congrArg (fun both => Except.ok both.1) view, congrArg Prod.snd view⟩
  | members conversation =>
    simp only [Op.texts] at clear
    simp only [perform, Script.ofOp, Script.of, Script.run, run, Statement.texts, clear,
      Bool.false_eq_true, ↓reduceIte]
    exact ⟨rfl, rfl⟩
  | addInteraction interaction =>
    simp only [Op.texts] at clear
    have cidClear : [interaction.cid].any holdsNul = false := by
      simpa using (List.any_eq_false.mp clear) interaction.cid (by simp)
    simp only [perform, Script.ofOp, Script.addInteraction]
    by_cases comes : interaction.acknowledged = true
    · have view := insert_interaction_view tables interaction true (by simp [comes])
      simp only [comes, ↓reduceIte, Script.of, Script.run, run, Statement.texts, clear,
        Bool.false_eq_true]
      exact ⟨congrArg (fun both => Except.ok both.1) view, congrArg Prod.snd view⟩
    · have found : (tables.acknowledgements.find? (· = interaction.cid)).isSome =
          (interaction.acknowledged || decide (interaction.cid ∈ tables.records.acknowledged)) := by
        rw [Bool.eq_iff_iff, Bool.or_eq_true, decide_eq_true_iff]
        simp [comes]
      have view := insert_interaction_view tables interaction _ found
      simp only [comes, Bool.false_eq_true, ↓reduceIte, Script.of, Script.run, run, Statement.texts,
        clear, cidClear]
      exact ⟨congrArg (fun both => Except.ok both.1) view, congrArg Prod.snd view⟩
  | acknowledge cid =>
    simp only [Op.texts] at clear
    simp only [perform, Script.ofOp, Script.of, Script.run, run, Statement.texts, clear,
      Bool.false_eq_true, ↓reduceIte]
    have view := acknowledge_view cid sound
    exact ⟨congrArg (fun both => Except.ok both.1) view, congrArg Prod.snd view⟩
  | interactions conversation =>
    simp only [Op.texts] at clear
    have listed : byId (·.id)
        (tables.interactions.filter (·.interaction.conversation = conversation)) =
          tables.interactions.filter (·.interaction.conversation = conversation) :=
      (sound.interactions.filter _).byId
    simp only [perform, Script.ofOp, Script.of, Script.run, run, Statement.texts, clear,
      Bool.false_eq_true, ↓reduceIte, listed]
    refine ⟨congrArg Except.ok ?_, rfl⟩
    simp only [Records.carry, records_interactions, List.filter_map]
    rfl

/-! ### Writes whose records are held -/

theorem flag_held {cid : String}
    (flagged : ∀ row ∈ tables.interactions, row.interaction.cid = cid →
      row.interaction.acknowledged = true) : flagInteractions cid tables = (0, tables) := by
  have none (row : InteractionRow) (member : row ∈ tables.interactions) :
      lacksFlag cid row = false := by
    simpa [lacksFlag] using flagged row member
  have counted : tables.interactions.countP (lacksFlag cid) = 0 :=
    List.countP_eq_zero.mpr fun row member => by simp [none row member]
  have unchanged : (tables.interactions.map fun row =>
      if lacksFlag cid row then
        { row with interaction := { row.interaction with acknowledged := true } }
      else row) = tables.interactions := by
    refine (List.map_congr_left fun row member => ?_).trans (List.map_id _)
    rw [none row member]
    rfl
  rw [flagInteractions, counted, unchanged]

/-- A write whose record is held leaves the tables as they are, ids given out included. -/
theorem perform_held {write : Write} (sound : tables.Sound) (accepted : refusal? write.op = none)
    (held : tables.records.Holds write) : tables.perform write.op = (.ok false, tables) := by
  have clear := clear_of_accepted accepted
  cases write with
  | account key name =>
    have present : tables.accounts.any (·.key = key) = true := by
      simpa [Records.Holds] using held
    simp only [Write.op, Op.texts] at clear
    simp only [Write.op, perform, Script.ofOp, Script.of, Script.run, run, Statement.texts, clear,
      Bool.false_eq_true, ↓reduceIte, insertAccount, present]
    rfl
  | conversation added =>
    have listed : tables.records.conversations.any (·.key = added.key) = true := by
      simpa [Records.Holds] using held
    have present : tables.conversations.any (·.key = added.key) = true :=
      (any_key sound.kinds added.key).symm.trans listed
    simp only [Write.op, Op.texts] at clear
    simp only [Write.op, perform, Script.ofOp, Script.of, Script.run, run, Statement.texts, clear,
      Bool.false_eq_true, ↓reduceIte, insertConversation, present]
    rfl
  | member added =>
    have present : added ∈ tables.members := held
    simp only [Write.op, Op.texts] at clear
    simp only [Write.op, perform, Script.ofOp, Script.of, Script.run, run, Statement.texts, clear,
      Bool.false_eq_true, ↓reduceIte, insertMember, present]
    rfl
  | interaction added =>
    have present : tables.interactions.any (·.interaction.cid = added.cid) = true := by
      simpa [Records.Holds] using held
    simp only [Write.op, Op.texts] at clear
    have cidClear : [added.cid].any holdsNul = false := by
      simpa using (List.any_eq_false.mp clear) added.cid (by simp)
    simp only [Write.op, perform, Script.ofOp, Script.addInteraction]
    by_cases comes : added.acknowledged = true <;>
      simp only [comes, Bool.false_eq_true, ↓reduceIte, Script.of, Script.run, run,
        Statement.texts, clear, cidClear, insertInteraction, present] <;> rfl
  | acknowledgement cid =>
    obtain ⟨recorded, all⟩ := held
    have present : cid ∈ tables.acknowledgements := recorded
    have flagged : ∀ row ∈ tables.interactions, row.interaction.cid = cid →
        row.interaction.acknowledged = true := fun row member =>
      all row.interaction (List.mem_map.mpr ⟨row, member, rfl⟩)
    simp only [Write.op, Op.texts] at clear
    simp only [Write.op, perform, Script.ofOp, Script.of, Script.run, run, Statement.texts, clear,
      Bool.false_eq_true, ↓reduceIte, insertAcknowledgement, present, flag_held flagged]
    rfl

end Tables

/-! ### Soundness -/

/-- A statement that writes no kind that is unknown. -/
def Statement.Kinded : Statement α → Prop
  | .insertConversation _ text => ∃ type : ConversationType, text = type.text
  | _ => True

/-- A script all of whose statements write no kind that is unknown. -/
def Script.Kinded : Script α → Prop
  | .done _ => True
  | .andThen statement next => statement.Kinded ∧ ∀ result, (next result).Kinded

theorem Script.ofOp_kinded (op : Op α) : (Script.ofOp op).Kinded := by
  cases op with
  | addConversation conversation => exact ⟨⟨_, rfl⟩, fun _ => trivial⟩
  | addInteraction interaction =>
    rw [Script.ofOp, Script.addInteraction]
    dsimp only
    split
    · exact ⟨trivial, fun _ => trivial⟩
    · exact ⟨trivial, fun _ => ⟨trivial, fun _ => trivial⟩⟩
  | acknowledge cid => exact ⟨trivial, fun _ => ⟨trivial, fun _ => trivial⟩⟩
  | _ => exact ⟨trivial, fun _ => trivial⟩

namespace Tables

variable {tables : Tables}

/-- A statement keeps rows ordered. -/
theorem Ordered.run {statement : Statement α} (ordered : tables.Ordered)
    (kinded : statement.Kinded) : (run statement tables).2.Ordered := by
  unfold Tables.run
  split
  · exact ordered
  · cases statement with
    | insertAccount account =>
      simp only [insertAccount]
      split <;> exact ⟨ordered.conversations, ordered.kinds, ordered.interactions⟩
    | insertConversation key text =>
      simp only [insertConversation]
      split
      · exact ordered
      · refine { ordered with conversations := ordered.conversations.snoc rfl, kinds := ?_ }
        exact List.forall_mem_append.mpr ⟨ordered.kinds, List.forall_mem_singleton.mpr kinded⟩
    | insertMember member =>
      simp only [insertMember]
      split <;> exact ⟨ordered.conversations, ordered.kinds, ordered.interactions⟩
    | insertInteraction interaction =>
      simp only [insertInteraction]
      split
      · exact ordered
      · exact { ordered with interactions := ordered.interactions.snoc rfl }
    | insertAcknowledgement cid =>
      simp only [insertAcknowledgement]
      split <;> exact ⟨ordered.conversations, ordered.kinds, ordered.interactions⟩
    | flagInteractions cid =>
      exact { ordered with interactions := ordered.interactions.map fun row => by split <;> rfl }
    | _ => exact ordered

/-- A script keeps rows ordered. -/
theorem Ordered.script {script : Script α} (ordered : tables.Ordered) (kinded : script.Kinded) :
    (script.run tables).2.Ordered := by
  induction script generalizing tables with
  | done answer => exact ordered
  | andThen statement next ih =>
    rw [Script.run]
    have after := ordered.run kinded.1
    split
    · next result later ran =>
      rw [ran] at after
      exact ih result after (kinded.2 result)
    · next e later ran =>
      rw [ran] at after
      exact after

/-- An operation keeps tables sound. -/
theorem Sound.perform (sound : tables.Sound) (op : Op α) : (tables.perform op).2.Sound := by
  have ordered := sound.toOrdered.script (Script.ofOp_kinded op)
  cases refused : refusal? op with
  | some e =>
    rw [perform_refused refused]
    exact sound
  | none =>
    have view := (perform_carried sound refused).2
    exact ⟨ordered, view ▸ sound.records.carry op⟩

end Tables

/-! ### Scripts that stop short -/

/-- What a script leaves of tables that stops short: some of its first statements were run. -/
inductive Script.StopsAt : {α : Type} → Script α → Tables → Tables → Prop where
  | here {α : Type} (script : Script α) (tables : Tables) : StopsAt script tables tables
  | later {α β : Type} {statement : Statement β} {next : β → Script α} {result : β}
      {tables middle left : Tables} (ran : Tables.run statement tables = (.ok result, middle))
      (more : StopsAt (next result) middle left) : StopsAt (.andThen statement next) tables left

namespace Tables

variable {tables left : Tables}

private theorem clear_of_ran {β : Type} {statement : Statement β} {result : β} {middle : Tables}
    (ran : run statement tables = (.ok result, middle)) :
    ¬ statement.texts.any holdsNul = true := by
  unfold Tables.run at ran
  split at ran
  · cases ran
  · assumption

/-- A statement that fails changes nothing. -/
theorem unchanged_of_failed {β : Type} {statement : Statement β} {e : Error}
    (ran : run statement tables = (.error e, left)) : left = tables := by
  unfold Tables.run at ran
  split at ran
  · cases ran; rfl
  · cases statement <;> cases ran

/-- Looking an acknowledgement up changes nothing. -/
theorem unchanged_of_looked_up {cid : String} {found : Option String}
    (ran : run (.selectAcknowledgement cid) tables = (.ok found, left)) : left = tables := by
  rw [Tables.run, if_neg (clear_of_ran ran)] at ran
  exact (Prod.mk.inj ran).2.symm

theorem noted_of_inserted {cid : String} {rows : Nat}
    (ran : run (.insertAcknowledgement cid) tables = (.ok rows, left)) :
    left = (insertAcknowledgement cid tables).2 := by
  rw [Tables.run, if_neg (clear_of_ran ran)] at ran
  exact (Prod.mk.inj ran).2.symm

/-- A script of one statement that stops short did nothing or everything. -/
private theorem stops_of {β : Type} {statement : Statement β} {answer : β → Except Error α}
    (stops : (Script.of statement answer).StopsAt tables left) :
    left = tables ∨ left = ((Script.of statement answer).run tables).2 := by
  cases stops with
  | here => exact .inl rfl
  | later ran more =>
    cases more with
    | here => exact .inr (by rw [Script.of, Script.run, ran]; rfl)

/-- A note that is taken of an acknowledgement, as the records see it. -/
theorem records_insertAcknowledgement (cid : String) (tables : Tables) :
    (insertAcknowledgement cid tables).2.records = tables.records.noted cid := by
  by_cases recorded : cid ∈ tables.acknowledgements <;>
    simp [insertAcknowledgement, Records.noted, records, recorded]

theorem Sound.insertAcknowledgement (sound : tables.Sound) (cid : String) :
    (insertAcknowledgement cid tables).2.Sound := by
  have ordered : (Tables.insertAcknowledgement cid tables).2.Ordered := by
    unfold Tables.insertAcknowledgement
    split <;> exact ⟨sound.conversations, sound.kinds, sound.interactions⟩
  have records := sound.records.noted cid
  rw [← records_insertAcknowledgement] at records
  exact ⟨ordered, records⟩

/-- A write whose script stops short is made or not, or is an acknowledgement that was only noted. -/
theorem stops_of_write {write : Write} (stops : (Script.ofOp write.op).StopsAt tables left) :
    left = tables ∨ left = (tables.perform write.op).2 ∨
      ∃ cid, write = .acknowledgement cid ∧ refusal? write.op = none ∧
        left = (insertAcknowledgement cid tables).2 := by
  cases write with
  | interaction added =>
    refine Or.imp_right .inl ?_
    simp only [Write.op, perform, Script.ofOp, Script.addInteraction] at stops ⊢
    by_cases comes : added.acknowledged = true
    · simp only [comes, ↓reduceIte] at stops ⊢
      exact stops_of stops
    · simp only [comes, Bool.false_eq_true, ↓reduceIte] at stops ⊢
      cases stops with
      | here => exact .inl rfl
      | later ran more =>
        obtain rfl := unchanged_of_looked_up ran
        rw [Script.run, ran]
        exact stops_of more
  | acknowledgement cid =>
    cases stops with
    | here => exact .inl rfl
    | later ran more =>
      obtain rfl := noted_of_inserted ran
      refine .inr ((stops_of more).symm.imp (fun made => ?_) fun stopped => ?_)
      · rw [made, Write.op, perform, Script.ofOp, Script.run, ran]
      · exact ⟨cid, rfl, if_neg (clear_of_ran ran), stopped⟩
  | _ => exact (stops_of stops).imp_right .inl

end Tables

end GroupReplay.Store
