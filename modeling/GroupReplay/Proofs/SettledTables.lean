import GroupReplay.Proofs.TablesView

/-!
Tables seen with the flag set of every interaction whose acknowledgement is recorded.  Tables that
lost no acknowledgement are seen as they are, and writes that are made one after the other lose none.
Seen so, a note of an acknowledgement is the whole operation, since setting the flags afterwards
changes nothing, and an insertion comes to the same whether its flag was looked up or missed.
-/

namespace GroupReplay.Store

namespace Tables

variable {tables : Tables} {cid : String}

/-- An acknowledgement is lost: it is recorded, and an interaction of its content id is stored without
the flag. -/
def Lost (tables : Tables) (cid : String) : Prop :=
  cid ∈ tables.acknowledgements ∧
    ∃ row ∈ tables.interactions, row.interaction.cid = cid ∧ row.interaction.acknowledged = false

theorem flagged_iff : tables.records.Flagged ↔ ∀ cid, ¬ tables.Lost cid := by
  constructor
  · rintro flagged cid ⟨recorded, row, stored, same, unflagged⟩
    have kept := (flagged cid recorded).2 row.interaction (List.mem_map_of_mem stored) same
    rw [unflagged] at kept
    cases kept
  · refine fun kept cid recorded => ⟨recorded, fun interaction member same => ?_⟩
    obtain ⟨row, stored, rfl⟩ := List.mem_map.mp member
    cases flag : row.interaction.acknowledged with
    | true => rfl
    | false => exact absurd ⟨recorded, row, stored, same, flag⟩ (kept cid)

/-- A row, flagged if the acknowledgement of its interaction is among some. -/
def settleRow (acknowledgements : List String) (row : InteractionRow) : InteractionRow :=
  if row.interaction.cid ∈ acknowledgements then
    { row with interaction := { row.interaction with acknowledged := true } }
  else row

/-- The tables with all flags set whose acknowledgements are recorded. -/
def settled (tables : Tables) : Tables :=
  { tables with interactions := tables.interactions.map (settleRow tables.acknowledgements) }

/-- The tables after writes that were made one after the other. -/
def performAll (writes : List Write) (tables : Tables) : Tables :=
  writes.foldl (fun tables write => (tables.perform write.op).2) tables

theorem performAll_snoc (writes : List Write) (write : Write) (tables : Tables) :
    performAll (writes ++ [write]) tables = ((performAll writes tables).perform write.op).2 := by
  rw [performAll, List.foldl_append]
  rfl

theorem settled_of_kept (kept : ∀ cid, ¬ tables.Lost cid) : tables.settled = tables := by
  have rows : tables.interactions.map (settleRow tables.acknowledgements) = tables.interactions := by
    refine (List.map_congr_left fun row stored => ?_).trans (List.map_id _)
    unfold settleRow
    split
    · next recorded =>
      cases flag : row.interaction.acknowledged with
      | true => simp [← flag]
      | false => exact absurd ⟨recorded, row, stored, rfl, flag⟩ (kept row.interaction.cid)
    · rfl
  rw [settled, rows]

theorem settled_cids (cid : String) (tables : Tables) :
    tables.settled.interactions.any (·.interaction.cid = cid) =
      tables.interactions.any (·.interaction.cid = cid) := by
  rw [settled, List.any_map]
  refine congrArg tables.interactions.any (funext fun row => ?_)
  simp only [Function.comp_apply, settleRow]
  split <;> rfl

/-! ### Statements, seen with all flags set -/

/-- A row, flagged if it lacks the flag and is of a content id. -/
def flagRow (cid : String) (row : InteractionRow) : InteractionRow :=
  if lacksFlag cid row then
    { row with interaction := { row.interaction with acknowledged := true } }
  else row

theorem flagInteractions_rows (cid : String) (tables : Tables) :
    (flagInteractions cid tables).2 =
      { tables with interactions := tables.interactions.map (flagRow cid) } := rfl

theorem settleRow_flagRow {acknowledgements : List String} (recorded : cid ∈ acknowledgements)
    (row : InteractionRow) :
    settleRow acknowledgements (flagRow cid row) = settleRow acknowledgements row := by
  unfold flagRow
  split
  · next lacks =>
    simp only [lacksFlag, decide_eq_true_eq] at lacks
    simp only [settleRow, lacks.1, recorded, ↓reduceIte]
  · rfl

theorem flagRow_settleRow {before after : List String}
    (noted : ∀ other, other ∈ after ↔ other ∈ before ∨ other = cid) (row : InteractionRow) :
    flagRow cid (settleRow before row) = settleRow after row := by
  by_cases recorded : row.interaction.cid ∈ before
  · have still : row.interaction.cid ∈ after := (noted _).mpr (.inl recorded)
    simp [flagRow, settleRow, recorded, still, lacksFlag]
  · by_cases same : row.interaction.cid = cid
    · have now : cid ∈ after := (noted _).mpr (.inr rfl)
      rw [same] at recorded
      have waiting : settleRow before row = row := by rw [settleRow, same, if_neg recorded]
      rw [waiting, settleRow, same, if_pos now, flagRow]
      cases flag : row.interaction.acknowledged with
      | true => rw [if_neg (by simp [lacksFlag, flag]), ← flag]
      | false => rw [if_pos (by simp [lacksFlag, same, flag])]
    · have neither : row.interaction.cid ∉ after := fun among =>
        ((noted _).mp among).elim recorded same
      simp [flagRow, settleRow, recorded, neither, lacksFlag, same]

theorem mem_insertAcknowledgement (cid other : String) (tables : Tables) :
    other ∈ (insertAcknowledgement cid tables).2.acknowledgements ↔
      other ∈ tables.acknowledgements ∨ other = cid := by
  unfold insertAcknowledgement
  split
  · next recorded => exact ⟨.inl, fun among => among.elim id fun same => same ▸ recorded⟩
  · simp

theorem settled_insertAcknowledgement (cid : String) (tables : Tables) :
    (insertAcknowledgement cid tables).2.settled =
      (flagInteractions cid (insertAcknowledgement cid tables.settled).2).2 := by
  have rows := flagRow_settleRow (mem_insertAcknowledgement cid · tables)
  rw [flagInteractions_rows]
  unfold insertAcknowledgement at rows ⊢
  by_cases recorded : cid ∈ tables.acknowledgements <;>
    simp_all [settled, List.map_map, Function.comp_def]

theorem settled_flagInteractions (recorded : cid ∈ tables.acknowledgements) :
    (flagInteractions cid tables).2.settled = tables.settled := by
  simp only [flagInteractions_rows, settled, List.map_map]
  refine congrArg (fun rows => { tables with interactions := rows }) ?_
  exact List.map_congr_left fun row _ => settleRow_flagRow recorded row

theorem settled_insertInteraction {interaction : Interaction} {acknowledged : Bool}
    (comes : interaction.acknowledged = true → acknowledged = true)
    (seen : acknowledged = true →
      interaction.acknowledged = true ∨ interaction.cid ∈ tables.acknowledgements) :
    (insertInteraction { interaction with acknowledged } tables).2.settled =
      (insertInteraction { interaction with
        acknowledged := interaction.acknowledged ||
          decide (interaction.cid ∈ tables.acknowledgements) } tables.settled).2 := by
  have stored := settled_cids interaction.cid tables
  unfold insertInteraction
  by_cases present : tables.interactions.any (·.interaction.cid = interaction.cid) = true
  · rw [if_pos present, if_pos (stored.trans present)]
  · have row : settleRow tables.acknowledgements
        ⟨tables.lastInteraction + 1, { interaction with acknowledged }⟩ =
          ⟨tables.lastInteraction + 1, { interaction with
            acknowledged := interaction.acknowledged ||
              decide (interaction.cid ∈ tables.acknowledgements) }⟩ := by
      unfold settleRow
      by_cases recorded : interaction.cid ∈ tables.acknowledgements
      · simp [recorded]
      · have same : acknowledged = interaction.acknowledged := by
          cases acknowledged <;> cases flag : interaction.acknowledged <;> simp_all
        simp [recorded, same]
    rw [if_neg present, if_neg (by rwa [stored])]
    simp only [settled, List.map_append, List.map_cons, List.map_nil, row]

/-! ### Whole operations -/

theorem perform_refused_of_nul {write : Write} (nul : write.op.texts.any holdsNul = true)
    (tables : Tables) : (tables.perform write.op).2 = tables := by
  rw [perform_refused (if_pos nul)]

theorem perform_acknowledgement (clear : [cid].any holdsNul = false) (tables : Tables) :
    (tables.perform (.acknowledge cid)).2 =
      (flagInteractions cid (insertAcknowledgement cid tables).2).2 := by
  simp only [perform, Script.ofOp, Script.of, Script.run, run, Statement.texts, clear,
    Bool.false_eq_true, ↓reduceIte]

theorem clear_of_addition {interaction : Interaction}
    (clear : (Op.addInteraction interaction).texts.any holdsNul = false) :
    [interaction.cid].any holdsNul = false := by
  simpa using (List.any_eq_false.mp clear) interaction.cid (by simp [Op.texts])

theorem perform_addition {interaction : Interaction}
    (clear : (Op.addInteraction interaction).texts.any holdsNul = false) (tables : Tables) :
    (tables.perform (.addInteraction interaction)).2 =
      (insertInteraction { interaction with
        acknowledged := interaction.acknowledged ||
          decide (interaction.cid ∈ tables.acknowledgements) } tables).2 := by
  have cidClear := clear_of_addition clear
  simp only [Op.texts] at clear
  simp only [perform, Script.ofOp, Script.addInteraction]
  cases comes : interaction.acknowledged with
  | true =>
    simp only [↓reduceIte, Script.of, Script.run, run, Statement.texts, clear, Bool.false_eq_true,
      Bool.true_or]
  | false =>
    have found : (tables.acknowledgements.find? (· = interaction.cid)).isSome =
        decide (interaction.cid ∈ tables.acknowledgements) := by
      rw [Bool.eq_iff_iff, decide_eq_true_iff]
      simp
    simp only [Bool.false_eq_true, ↓reduceIte, Script.of, Script.run, run, Statement.texts, clear,
      cidClear, Bool.false_or, found]

/-- Writes that are made one after the other lose no acknowledgement. -/
theorem kept_performAll (sound : tables.Sound) (kept : ∀ cid, ¬ tables.Lost cid)
    (writes : List Write) (cid : String) : ¬ (performAll writes tables).Lost cid := by
  induction writes generalizing tables with
  | nil => exact kept cid
  | cons write rest ih =>
    refine ih (sound.perform write.op) ?_
    show ∀ cid, ¬ (tables.perform write.op).2.Lost cid
    cases refused : refusal? write.op with
    | some e =>
      rw [perform_refused refused]
      exact kept
    | none =>
      rw [← flagged_iff] at kept ⊢
      rw [(perform_carried sound refused).2]
      exact kept.carry sound.records write.op

end Tables

end GroupReplay.Store
