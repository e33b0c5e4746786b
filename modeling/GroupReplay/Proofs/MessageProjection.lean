import GroupReplay.Proofs.Handing

/-!
What messages come to in a store, in closed form.  The interactions are those that the store held,
followed by the first one of every content id that it did not hold; and an interaction is flagged if
it was, or if its content id is the target of an acknowledgement, wherever that stands among the
messages or was recorded before.  So messages may be reordered as long as those that become
interactions keep their order.
-/

namespace GroupReplay

open Wire

namespace Store

/-- The interactions of a list whose content ids are not taken, the first one of each. -/
def firstsOf (taken : List String) : List Interaction → List Interaction
  | [] => []
  | i :: rest =>
    if i.cid ∈ taken then firstsOf taken rest else i :: firstsOf (taken ++ [i.cid]) rest

/-- An interaction, flagged if its content id is one of certain targets. -/
def Interaction.acknowledgedBy (targets : List String) (interaction : Interaction) : Interaction :=
  { interaction with
    acknowledged := interaction.acknowledged || decide (interaction.cid ∈ targets) }

/-- Flags depend on which targets there are, not on their order or on how often they occur. -/
theorem Interaction.acknowledgedBy_congr {targets others : List String}
    (same : ∀ cid, cid ∈ targets ↔ cid ∈ others) (interaction : Interaction) :
    interaction.acknowledgedBy targets = interaction.acknowledgedBy others := by
  simp only [acknowledgedBy, same]

/-- An interaction that is flagged already if it is to be stays as it is. -/
theorem Interaction.acknowledgedBy_eq_self {targets : List String} {interaction : Interaction}
    (already : interaction.cid ∈ targets → interaction.acknowledged = true) :
    interaction.acknowledgedBy targets = interaction := by
  have same : (interaction.acknowledged || decide (interaction.cid ∈ targets)) =
      interaction.acknowledged := by
    cases flagged : interaction.acknowledged with
    | true => rfl
    | false => simpa [flagged] using already
  rw [acknowledgedBy, same]

/-- An interaction that was flagged for a target that is among others is flagged for these. -/
theorem Interaction.acknowledgedBy_flag {targets : List String} {cid : String}
    (among : cid ∈ targets) (interaction : Interaction) :
    (interaction.flag cid).acknowledgedBy targets = interaction.acknowledgedBy targets := by
  unfold flag
  split
  · next same => simp [acknowledgedBy, same, among]
  · rfl

/-- The interaction that a write adds, if it adds one. -/
def Write.interaction? : Write → Option Interaction
  | interaction added => some added
  | _ => none

/-- The content id that a write acknowledges, if it acknowledges one. -/
def Write.target? : Write → Option String
  | acknowledgement cid => some cid
  | _ => none

namespace Records

variable {records : Records}

private theorem mem_noted_iff {cid other : String} :
    other ∈ (records.noted cid).acknowledged ↔ other ∈ records.acknowledged ∨ other = cid := by
  unfold noted
  dsimp only
  split
  · next recorded =>
    refine ⟨.inl, fun either => either.elim id ?_⟩
    rintro rfl
    exact recorded
  · simp

/-- A write that neither adds an interaction nor acknowledges one. -/
private theorem carry_others {write : Write} (adds : write.interaction? = none)
    (acknowledges : write.target? = none) (records : Records) :
    (carry write.op records).2.interactions = records.interactions ∧
      (carry write.op records).2.acknowledged = records.acknowledged := by
  cases write with
  | account key name => simp only [Write.op, carry, ensureAccount]; split <;> exact ⟨rfl, rfl⟩
  | conversation added => simp only [Write.op, carry, addConversation]; split <;> exact ⟨rfl, rfl⟩
  | member added => simp only [Write.op, carry, addMember]; split <;> exact ⟨rfl, rfl⟩
  | interaction added => cases adds
  | acknowledgement cid => cases acknowledges

/-- The interactions that records come to if certain ones are to be added and certain content ids are
to be acknowledged. -/
def projected (records : Records) (added : List Interaction) (targets : List String) :
    List Interaction :=
  (records.interactions ++ firstsOf (records.interactions.map (·.cid)) added).map
    (Interaction.acknowledgedBy (records.acknowledged ++ targets))

theorem projected_nothing (flagged : records.Flagged) :
    records.projected [] [] = records.interactions := by
  have unchanged : ∀ i ∈ records.interactions, i.acknowledgedBy records.acknowledged = i := by
    intro i member
    refine Interaction.acknowledgedBy_eq_self fun recorded => ?_
    exact (flagged i.cid recorded).2 i member rfl
  rw [projected, firstsOf, List.append_nil, List.append_nil, List.map_congr_left unchanged]
  exact List.map_id' _

/-- An interaction that is added is the first of those to be added. -/
theorem projected_interaction (added : Interaction) (more : List Interaction)
    (targets : List String) :
    (carry (.addInteraction added) records).2.projected more targets =
      records.projected (added :: more) targets := by
  simp only [carry, addInteraction]
  by_cases present : added.cid ∈ records.interactions.map (·.cid)
  · have stored : records.interactions.any (·.cid = added.cid) = true := by simpa using present
    simp only [stored, ↓reduceIte, projected, firstsOf, present]
  · have missing : records.interactions.any (·.cid = added.cid) = false := by simpa using present
    -- The note of an acknowledgement is looked up now or later.
    have flag : Interaction.acknowledgedBy (records.acknowledged ++ targets)
        { added with
          acknowledged := added.acknowledged || decide (added.cid ∈ records.acknowledged) } =
            added.acknowledgedBy (records.acknowledged ++ targets) := by
      by_cases recorded : added.cid ∈ records.acknowledged <;>
        simp [Interaction.acknowledgedBy, recorded]
    simp only [missing, Bool.false_eq_true, ↓reduceIte, projected, firstsOf, present, List.map_append,
      List.map_cons, List.map_nil, flag, List.append_assoc, List.cons_append, List.nil_append]

/-- A content id that is acknowledged is one of those to be acknowledged. -/
theorem projected_acknowledgement (sound : records.Sound) (added : List Interaction) (cid : String)
    (targets : List String) :
    (carry (.acknowledge cid) records).2.projected added targets =
      records.projected added (cid :: targets) := by
  simp only [carry, acknowledge, acknowledgeFirst_eq_map sound.interactions]
  have cids : (records.interactions.map (Interaction.flag cid)).map (·.cid) =
      records.interactions.map (·.cid) := by
    simp [Function.comp_def, Interaction.flag_cid]
  have recorded : ∀ other, other ∈ (records.noted cid).acknowledged ++ targets ↔
      other ∈ records.acknowledged ++ cid :: targets := by
    intro other
    rw [List.mem_append, mem_noted_iff, List.mem_append, List.mem_cons, or_assoc]
  have flags : Interaction.acknowledgedBy ((records.noted cid).acknowledged ++ targets) =
      Interaction.acknowledgedBy (records.acknowledged ++ cid :: targets) :=
    funext (Interaction.acknowledgedBy_congr recorded)
  have flagged : Interaction.acknowledgedBy (records.acknowledged ++ cid :: targets) ∘
      Interaction.flag cid = Interaction.acknowledgedBy (records.acknowledged ++ cid :: targets) :=
    funext (Interaction.acknowledgedBy_flag (by simp))
  calc _
    _ = (records.interactions.map (Interaction.flag cid) ++
          firstsOf ((records.interactions.map (Interaction.flag cid)).map (·.cid)) added).map
            (Interaction.acknowledgedBy ((records.noted cid).acknowledged ++ targets)) := rfl
    _ = records.projected added (cid :: targets) := by
      rw [cids, flags, List.map_append, List.map_map, flagged, ← List.map_append, projected]

/-- What writes make of the interactions, in whichever order additions and acknowledgements come in
them. -/
theorem carryAll_interactions (sound : records.Sound) (flagged : records.Flagged)
    (writes : List Write) :
    (carryAll writes records).interactions =
      records.projected (writes.filterMap Write.interaction?) (writes.filterMap Write.target?) := by
  induction writes generalizing records with
  | nil => exact (projected_nothing flagged).symm
  | cons write rest ih =>
    have more := ih (sound.carry write.op) (flagged.carry sound write.op)
    rw [carryAll, List.foldl_cons]
    refine more.trans ?_
    have others (adds : write.interaction? = none) (acknowledges : write.target? = none) :=
      carry_others adds acknowledges records
    cases write with
    | interaction added => exact projected_interaction added _ _
    | acknowledgement cid => exact projected_acknowledgement sound _ cid _
    | _ =>
      obtain ⟨interactions, acknowledged⟩ := others rfl rfl
      rw [projected, interactions, acknowledged]
      rfl

end Records

end Store

namespace Projection

open Store

/-- The types of the messages that become interactions. -/
def storedTypes : List AppMessageType := [.userMessage, .groupInvitation, .setGroupInfo, .setUserInfo]

theorem storedType?_eq_some_iff {number : Int32} {type : AppMessageType} :
    storedType? number = some type ↔
      AppMessageType.ofNumber? number = some type ∧ type ∈ storedTypes := by
  unfold storedType?
  cases AppMessageType.ofNumber? number with
  | none => simp
  | some named => cases named <;> cases type <;> simp [storedTypes]

/-- The number of the variant that a number names is that number. -/
private theorem number_of_named {number : Int32} {type : AppMessageType}
    (named : AppMessageType.ofNumber? number = some type) : type.number = number := by
  simpa using List.find?_some named

namespace Delivery

/-- The interaction that a message of one of the stored types becomes, not flagged yet. -/
def interaction? (delivery : Delivery) : Option Interaction :=
  match delivery.event.context, AppMessageType.ofNumber? delivery.message.type with
  | some context, some type =>
    if type ∈ storedTypes then
      some
        { cid := Key.encode context.id
          conversation := delivery.conversation
          device := (delivery.event.headers.map fun headers => Key.encode headers.deviceKey).getD ""
          type := delivery.message.type
          payload := delivery.message.payload
          sentDate := delivery.message.sentDate
          acknowledged := false }
    else none
  | _, _ => none

/-- The content id that an acknowledgement is for. -/
def target? (delivery : Delivery) : Option String :=
  if AppMessageType.ofNumber? delivery.message.type = some .acknowledge then
    some delivery.message.target
  else none

/-- Applies messages one after the other, up to the first that fails. -/
def applyAll {σ : Type} [LocalStore σ] (announcing : Bool) (deliveries : List Delivery) :
    Action (Desk σ) Error Unit :=
  forM deliveries (Delivery.apply announcing)

variable {delivery : Delivery}

/-- A message of none of the stored types becomes no interaction. -/
private theorem interaction?_of_not_stored (other : storedType? delivery.message.type = none) :
    delivery.interaction? = none := by
  unfold interaction?
  split
  · next context type _ named =>
    refine if_neg fun stored => ?_
    rw [storedType?_eq_some_iff.mpr ⟨named, stored⟩] at other
    cases other
  · rfl

/-- What a message of one of the stored types becomes is what the handler adds for it. -/
private theorem interaction?_of_stored {context : EventContext} {type : AppMessageType}
    (inside : delivery.event.context = some context)
    (stored : storedType? delivery.message.type = some type) :
    delivery.interaction? = some (interaction delivery.conversation (Key.encode context.id)
      delivery.event type delivery.message) := by
  obtain ⟨named, among⟩ := storedType?_eq_some_iff.mp stored
  have number := number_of_named named
  simp only [interaction?, inside, named, among, ↓reduceIte, interaction, number]

/-- A message that is not refused comes to the one write that its type calls for. -/
theorem writes_of_ok {writes : List Noticed} (comes : delivery.writes = .ok writes) :
    (writesOf delivery.writes).filterMap Write.interaction? = delivery.interaction?.toList ∧
      (writesOf delivery.writes).filterMap Write.target? = delivery.target?.toList := by
  rw [comes]
  unfold Delivery.writes messageWrites at comes
  cases context : delivery.event.context with
  | none => simp [context] at comes
  | some inside =>
    simp only [context] at comes
    by_cases acknowledges : AppMessageType.ofNumber? delivery.message.type = some .acknowledge
    · rw [if_pos acknowledges] at comes
      split at comes <;> cases comes
      simp [writesOf, interaction?, target?, context, acknowledges, storedTypes, Write.interaction?,
        Write.target?]
    · rw [if_neg acknowledges] at comes
      have noTarget : delivery.target? = none := if_neg acknowledges
      rw [noTarget]
      cases stored : storedType? delivery.message.type with
      | none =>
        simp only [stored] at comes
        cases comes
        rw [interaction?_of_not_stored stored]
        exact ⟨rfl, rfl⟩
      | some type =>
        simp only [stored] at comes
        rw [interaction?_of_stored context stored]
        split at comes
        · split at comes <;> cases comes
          exact ⟨rfl, rfl⟩
        · cases comes
          exact ⟨rfl, rfl⟩

private theorem exists_kept {α β : Type} {keep : α → Option β} {all : List α} {value : β}
    (kept : all.filterMap keep = [value]) : ∃ each ∈ all, keep each = some value :=
  List.mem_filterMap.mp (kept ▸ List.mem_singleton_self value)

/-- A message of a stored type that is not refused adds an interaction of its content id. -/
theorem adds_of_stored {writes : List Noticed} {type : AppMessageType}
    (comes : delivery.writes = .ok writes)
    (named : AppMessageType.ofNumber? delivery.message.type = some type)
    (stored : type ∈ storedTypes) :
    ∃ context, delivery.event.context = some context ∧
      ∃ added, .interaction added ∈ writesOf delivery.writes ∧ added.cid = Key.encode context.id := by
  cases inside : delivery.event.context with
  | none => simp [Delivery.writes, messageWrites, inside] at comes
  | some context =>
    have among := storedType?_eq_some_iff.mpr ⟨named, stored⟩
    have adds := (writes_of_ok comes).1
    rw [interaction?_of_stored inside among] at adds
    obtain ⟨write, written, is⟩ := exists_kept adds
    cases write with
    | interaction added =>
      have same : added.cid = Key.encode context.id := congrArg (·.cid) (Option.some.inj is)
      exact ⟨context, rfl, added, written, same⟩
    | _ => cases is

/-- An acknowledgement that is not refused acknowledges its target. -/
theorem acknowledges_target {writes : List Noticed} (comes : delivery.writes = .ok writes)
    (named : AppMessageType.ofNumber? delivery.message.type = some .acknowledge) :
    .acknowledgement delivery.message.target ∈ writesOf delivery.writes := by
  have acknowledges := (writes_of_ok comes).2
  have target : delivery.target? = some delivery.message.target := if_pos named
  rw [target] at acknowledges
  obtain ⟨write, written, is⟩ := exists_kept acknowledges
  cases write with
  | acknowledgement cid => exact Option.some.inj is ▸ written
  | _ => cases is

end Delivery

variable {announcing : Bool} {deliveries : List Delivery} {desk after : Desk AnyStore}

/-- Messages are applied as anything that is handed over; the account makes no difference. -/
private theorem applyAll_handed (account : Bytes) (deliveries : List Delivery) :
    (Delivery.applyAll announcing deliveries : Action (Desk AnyStore) Error Unit) =
      Handed.applyAll account announcing (deliveries.map .message) := by
  rw [Handed.applyAll, List.forM_map]
  rfl

/-- The writes of messages that are not refused, by what they add and what they acknowledge. -/
private theorem writes_of_deliveries
    (accepted : ∀ delivery ∈ deliveries, ∃ writes, delivery.writes = .ok writes) :
    let writes := deliveries.flatMap fun delivery => writesOf delivery.writes
    writes.filterMap Write.interaction? = deliveries.filterMap Delivery.interaction? ∧
      writes.filterMap Write.target? = deliveries.filterMap Delivery.target? := by
  induction deliveries with
  | nil => exact ⟨rfl, rfl⟩
  | cons delivery rest ih =>
    obtain ⟨⟨writes, comes⟩, others⟩ := List.forall_mem_cons.mp accepted
    obtain ⟨adds, acknowledges⟩ := Delivery.writes_of_ok comes
    obtain ⟨moreAdds, moreAcknowledges⟩ := ih others
    dsimp only at moreAdds moreAcknowledges ⊢
    rw [List.flatMap_cons, List.filterMap_append, List.filterMap_append, adds, acknowledges,
      moreAdds, moreAcknowledges]
    constructor
    · cases added : delivery.interaction? <;> simp [added]
    · cases target : delivery.target? <;> simp [target]

/-- The interactions of a store once messages were all applied. -/
private theorem interactions_applied (reachable : Reachable desk.store)
    (applied : (Delivery.applyAll announcing deliveries).run desk = (.ok (), after)) :
    after.store.records.interactions =
      desk.store.records.projected (deliveries.filterMap Delivery.interaction?)
        (deliveries.filterMap Delivery.target?) := by
  rw [applyAll_handed []] at applied
  have sound := reachable.sound
  have taken := (Handed.applyAll_ok_iff _ sound).mp ⟨after, applied⟩
  have accepted : ∀ delivery ∈ deliveries, ∃ writes, delivery.writes = .ok writes := by
    intro delivery member
    obtain ⟨writes, comes, _⟩ := taken (.message delivery) (List.mem_map_of_mem member)
    exact ⟨writes, comes⟩
  obtain ⟨adds, acknowledges⟩ := writes_of_deliveries accepted
  have wrote := (Handed.applyAll_wrote sound applied).records
  rw [List.flatMap_map] at wrote
  rw [wrote, Records.carryAll_interactions sound.records reachable.flagged, ← adds, ← acknowledges]
  rfl

/-- Only the messages that become interactions make any. -/
private theorem filterMap_producing (deliveries : List Delivery) :
    (deliveries.filter (·.interaction?.isSome)).filterMap Delivery.interaction? =
      deliveries.filterMap Delivery.interaction? := by
  rw [List.filterMap_filter]
  refine List.filterMap_congr fun delivery _ => ?_
  cases delivery.interaction? <;> rfl

/-- Messages that all succeed, in closed form.  The interactions of the store after them are those of
the store before, followed by one for each message of a stored type whose content id is neither in
the store before nor that of such a message earlier on; and an interaction is flagged exactly if it
was, or if its content id is recorded as acknowledged in the store before or the target of an
acknowledgement anywhere among the messages.  Reordered messages that keep the order of those that
become interactions succeed too and lead to the same interactions with the same flags. -/
theorem messages_projected (reachable : Reachable desk.store)
    (applied : (Delivery.applyAll announcing deliveries).run desk = (.ok (), after)) :
    (let before := desk.store.records
      let added := firstsOf (before.interactions.map (·.cid))
        (deliveries.filterMap Delivery.interaction?)
      let targets := before.acknowledged ++ deliveries.filterMap Delivery.target?
      after.store.records.interactions =
        (before.interactions ++ added).map (Interaction.acknowledgedBy targets)) ∧
      ∀ reordered : List Delivery, reordered.Perm deliveries →
        reordered.filter (·.interaction?.isSome) = deliveries.filter (·.interaction?.isSome) →
          ∃ again, (Delivery.applyAll announcing reordered).run desk = (.ok (), again) ∧
            again.store.records.interactions = after.store.records.interactions := by
  have closed := interactions_applied reachable applied
  refine ⟨closed, fun reordered perm order => ?_⟩
  have sound := reachable.sound
  have taken : ∀ handed ∈ deliveries.map Handed.message, handed.Taken [] desk.store := by
    rw [applyAll_handed []] at applied
    exact (Handed.applyAll_ok_iff _ sound).mp ⟨after, applied⟩
  have takenToo : ∀ handed ∈ reordered.map Handed.message, handed.Taken [] desk.store :=
    fun handed member => taken handed ((perm.map _).mem_iff.mp member)
  obtain ⟨again, appliedToo⟩ := (Handed.applyAll_ok_iff announcing sound).mpr takenToo
  rw [← applyAll_handed] at appliedToo
  refine ⟨again, appliedToo, ?_⟩
  have additions : reordered.filterMap Delivery.interaction? =
      deliveries.filterMap Delivery.interaction? := by
    rw [← filterMap_producing reordered, order, filterMap_producing]
  have targets : ∀ cid, cid ∈ desk.store.records.acknowledged ++
        reordered.filterMap Delivery.target? ↔
      cid ∈ desk.store.records.acknowledged ++ deliveries.filterMap Delivery.target? := by
    intro cid
    rw [List.mem_append, List.mem_append, (perm.filterMap Delivery.target?).mem_iff]
  rw [interactions_applied reachable appliedToo, closed, Records.projected, Records.projected,
    additions, funext (Interaction.acknowledgedBy_congr targets)]

/-- A message that becomes an interaction. -/
def naming (group id : Bytes) : Delivery :=
  .posted group id { type := AppMessageType.setUserInfo.number }

/-- An acknowledgement of the content id that is written "Cw". -/
def confirming (group id : Bytes) : Delivery :=
  .posted group id { type := AppMessageType.acknowledge.number, target := "Cw" }

/-- Three interactions, one of them posted in two groups and acknowledged before and after, one
acknowledged before the start. -/
def conversing : List Delivery :=
  [confirming [2] [20], naming [2] [11], naming [3] [11], naming [3] [13], naming [2] [14],
    confirming [3] [21]]

/-- The same with both acknowledgements at the end. -/
def conversingInOrder : List Delivery :=
  [naming [2] [11], naming [3] [11], naming [3] [13], naming [2] [14], confirming [3] [21],
    confirming [2] [20]]

/-- The closed form where acknowledgements precede, follow and repeat, and in another order. -/
theorem conversing_projected :
    let start : Desk AnyStore := { store := ((AnyStore.inTables {}).perform (.acknowledge "DQ")).2 }
    let after := ((Delivery.applyAll true conversing).run start).2
    after.store.records.interactions.map (fun i => (i.conversation, i.cid, i.acknowledged)) =
        [("Ag", "Cw", true), ("Aw", "DQ", true), ("Ag", "Dg", false)] ∧
      ∃ again, (Delivery.applyAll true conversingInOrder).run start = (.ok (), again) ∧
        again.store.records.interactions = after.store.records.interactions := by
  intro start after
  have reachable : Reachable start.store := .perform .tables (.acknowledge "DQ")
  have succeeded : ((Delivery.applyAll true conversing).run start).1 = .ok () := by decide +kernel
  have applied : (Delivery.applyAll true conversing).run start = (.ok (), after) :=
    Prod.ext succeeded rfl
  obtain ⟨closed, reorder⟩ := messages_projected reachable applied
  refine ⟨?_, reorder conversingInOrder (by decide +kernel) (by decide +kernel)⟩
  rw [closed]
  decide +kernel

end Projection

end GroupReplay
