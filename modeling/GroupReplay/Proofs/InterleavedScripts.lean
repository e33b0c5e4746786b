import GroupReplay.Proofs.SettledTables
import Mathlib.Logic.Relation

/-!
Writes to a database by tasks that share it.  A statement runs as a whole, and between two statements
of one task any number of other tasks may run theirs.  Whatever the interleaving, the tables come to
what they come to if the writes are made one after the other, in the order in which each of them got
through to the tables, but for the flags of interactions whose acknowledgement is recorded: a flag may
be missing.

It is missing only if an addition was overtaken by an acknowledgement of its content id: it looked for
the acknowledgement before that was noted, and inserts its interaction without the flag after flags
were set.  No transaction keeps an acknowledgement from falling in between.
-/

namespace GroupReplay.Store

namespace Script

variable {α : Type}

/-- What is left of a script after its next statement, and the tables that it left. -/
def step : Script α → Tables → Option (Script α × Tables)
  | .done _, _ => none
  | .andThen statement next, tables =>
    match Tables.run statement tables with
    | (.ok result, tables) => some (next result, tables)
    | (.error e, tables) => some (.done (.error e), tables)

/-- The answer of a script that is done. -/
def answer? : Script α → Option (Except Error α)
  | .done answer => some answer
  | .andThen _ _ => none

/-- The content id whose interactions a script is about to flag. -/
def flags? : Script α → Option String
  | .andThen (.flagInteractions cid) _ => some cid
  | _ => none

/-- The interaction that a script is about to insert. -/
def inserts? : Script α → Option Interaction
  | .andThen (.insertInteraction interaction) _ => some interaction
  | _ => none

/-- Whether the write that a script makes has yet to get through to the tables.  An acknowledgement
has when it is noted. -/
def waits : Script α → Bool
  | .done _ => false
  | .andThen (.flagInteractions _) _ => false
  | _ => true

/-- The end of an addition: its interaction is inserted, with or without the flag. -/
def inserting (interaction : Interaction) (acknowledged : Bool) : Script Bool :=
  of (.insertInteraction { interaction with acknowledged }) fun rows => .ok (decide (0 < rows))

/-- The end of an acknowledgement: the interactions of its content id are flagged. -/
def flagging (cid : String) : Script Bool :=
  of (.flagInteractions cid) fun rows => .ok (decide (0 < rows))

end Script

theorem Script.run_of {α β : Type} (statement : Statement β) (answer : β → Except Error α)
    (tables : Tables) : ((of statement answer).run tables).2 = (Tables.run statement tables).2 := by
  simp only [of, run]
  split <;> simp only [*]

theorem Script.step_of {α β : Type} (statement : Statement β) (answer : β → Except Error α)
    (tables : Tables) : ∃ ended, (of statement answer).step tables =
      some (.done ended, (Tables.run statement tables).2) := by
  simp only [of, step]
  split
  · next ran => exact ⟨_, by rw [ran]⟩
  · next ran => exact ⟨_, by rw [ran]⟩

/-- A task that makes a write, and what is left of its script. -/
structure WriteTask where
  write : Write
  script : Script Bool

/-- Tables and the tasks that share them. -/
structure Pool where
  tables : Tables
  tasks : List WriteTask

namespace Pool

/-- Tasks that have yet to begin. -/
def start (tables : Tables) (writes : List Write) : Pool where
  tables := tables
  tasks := writes.map fun write => ⟨write, .ofOp write.op⟩

/-- One of the tasks runs its next statement. -/
inductive Step : Pool → Pool → Prop where
  | run {tables later : Tables} {before after : List WriteTask} {task : WriteTask}
      {rest : Script Bool} (stepped : task.script.step tables = some (rest, later)) :
      Step ⟨tables, before ++ task :: after⟩ ⟨later, before ++ { task with script := rest } :: after⟩

/-- Any number of statements, of any tasks in any order. -/
abbrev Reaches : Pool → Pool → Prop := Relation.ReflTransGen Step

/-- All tasks are done. -/
def Over (pool : Pool) : Prop := ∀ task ∈ pool.tasks, task.script.answer?.isSome = true

/-- An addition was overtaken: an acknowledgement of its content id is recorded and none is about to
flag, and the addition is about to insert the interaction, of which there is none yet, unflagged. -/
structure Overtaken (pool : Pool) (cid : String) : Prop where
  recorded : cid ∈ pool.tables.acknowledgements
  through : ∀ task ∈ pool.tasks, task.script.flags? ≠ some cid
  absent : cid ∉ pool.tables.interactions.map (·.interaction.cid)
  adds : ∃ task ∈ pool.tasks, ∃ interaction, task.script.inserts? = some interaction ∧
    interaction.cid = cid ∧ interaction.acknowledged = false

end Pool

theorem Script.not_flags {script : Script Bool} {cid : String} (unnoted : script.flags? = none) :
    script.flags? ≠ some cid := by
  rw [unnoted]
  exact (Option.some_ne_none cid).symm

/-- No write is through to the tables when it begins. -/
theorem Script.ofOp_waits (write : Write) : (Script.ofOp write.op).waits = true := by
  cases write with
  | interaction added =>
    simp only [Write.op, ofOp, addInteraction]
    split <;> rfl
  | _ => rfl

theorem Script.done_of_answered {script : Script Bool} (answered : script.answer?.isSome = true) :
    ∃ answer, script = .done answer := by
  cases script with
  | done answer => exact ⟨answer, rfl⟩
  | andThen statement next => cases answered

/-- An addition whose interaction comes unflagged looks for the acknowledgement first. -/
theorem Script.addInteraction_unflagged {interaction : Interaction}
    (unflagged : interaction.acknowledged = false) :
    addInteraction interaction = .andThen (.selectAcknowledgement interaction.cid) fun found =>
      inserting interaction found.isSome := by
  simp only [addInteraction, unflagged, Bool.false_eq_true, ↓reduceIte]
  rfl

/-! ### The stages of a task -/

/-- Where a task is, with what is known of the tables there. -/
inductive Stage (tables : Tables) : WriteTask → Prop where
  | start (write : Write) : Stage tables ⟨write, .ofOp write.op⟩
  /-- An addition looked for the acknowledgement. -/
  | lookedUp (interaction : Interaction) (found : Bool) (unflagged : interaction.acknowledged = false)
      (seen : found = true → interaction.cid ∈ tables.acknowledgements) :
      Stage tables ⟨.interaction interaction, .inserting interaction found⟩
  /-- An acknowledgement was noted. -/
  | noted (cid : String) (clear : [cid].any holdsNul = false)
      (recorded : cid ∈ tables.acknowledgements) :
      Stage tables ⟨.acknowledgement cid, .flagging cid⟩
  | ended (write : Write) (answer : Except Error Bool) : Stage tables ⟨write, .done answer⟩

theorem Stage.mono {tables later : Tables} {task : WriteTask} (stage : Stage tables task)
    (grows : tables.acknowledgements ⊆ later.acknowledgements) : Stage later task := by
  cases stage with
  | start write => exact .start write
  | lookedUp interaction found unflagged seen =>
    exact .lookedUp interaction found unflagged fun was => grows (seen was)
  | noted cid clear recorded => exact .noted cid clear (grows recorded)
  | ended write answer => exact .ended write answer

/-- What a task's next statement does: to the tables seen with all flags set, either nothing, or, when
its write gets through, all that the write does to them; and it loses an acknowledgement only by an
insertion. -/
structure Moves (tables later : Tables) (task : WriteTask) (rest : Script Bool) : Prop where
  grows : tables.acknowledgements ⊆ later.acknowledgements
  stage : Stage later { task with script := rest }
  waits : rest.waits = true → task.script.waits = true
  settled : later.settled = if task.script.waits && !rest.waits
    then (tables.settled.perform task.write.op).2 else tables.settled
  lost : ∀ cid, later.Lost cid → tables.Lost cid ∧ task.script.flags? ≠ some cid ∨
    rest.flags? = some cid ∨
    cid ∈ tables.acknowledgements ∧ cid ∉ tables.interactions.map (·.interaction.cid) ∧
      ∃ interaction, task.script.inserts? = some interaction ∧ interaction.cid = cid ∧
        interaction.acknowledged = false

namespace Moves

variable {tables later : Tables} {rest : Script Bool}

/-- A script that is done waits for nothing. -/
theorem unwaiting {script : Script Bool} {answer : Except Error Bool}
    (waits : (Script.done answer).waits = true) : script.waits = true :=
  absurd waits Bool.false_ne_true

/-- The last statement of a script is refused. -/
theorem refused {write : Write} {script : Script Bool} {e : Error}
    (nul : write.op.texts.any holdsNul = true) (unnoted : script.flags? = none) :
    Moves tables tables ⟨write, script⟩ (.done (.error e)) where
  grows := List.Subset.refl _
  stage := .ended write _
  waits := unwaiting
  settled := by rw [Tables.perform_refused_of_nul nul, ite_self]
  lost cid lost := .inl ⟨lost, Script.not_flags unnoted⟩

/-- The end of an addition. -/
theorem insertion {interaction : Interaction} {acknowledged : Bool}
    (comes : interaction.acknowledged = true → acknowledged = true)
    (seen : acknowledged = true →
      interaction.acknowledged = true ∨ interaction.cid ∈ tables.acknowledgements)
    (stepped : (Script.inserting interaction acknowledged).step tables = some (rest, later)) :
    Moves tables later ⟨.interaction interaction, .inserting interaction acknowledged⟩ rest := by
  simp only [Script.inserting, Script.of, Script.step, Tables.run, Statement.texts] at stepped
  cases nul : [interaction.cid, interaction.conversation, interaction.device].any holdsNul with
  | true =>
    simp only [nul, ↓reduceIte, Option.some.injEq, Prod.mk.injEq] at stepped
    obtain ⟨rfl, rfl⟩ := stepped
    exact refused nul rfl
  | false =>
    simp only [nul, Bool.false_eq_true, ↓reduceIte, Option.some.injEq, Prod.mk.injEq] at stepped
    obtain ⟨rfl, rfl⟩ := stepped
    have same : (Tables.insertInteraction { interaction with acknowledged }
        tables).2.acknowledgements = tables.acknowledgements := by
      unfold Tables.insertInteraction
      split <;> rfl
    refine ⟨fun cid among => same ▸ among, .ended _ _, unwaiting, ?_, fun cid lost => ?_⟩
    · have clear : (Op.addInteraction interaction).texts.any holdsNul = false := nul
      exact (Tables.settled_insertInteraction comes seen).trans (Tables.perform_addition clear _).symm
    · obtain ⟨recorded, row, stored, named, unflagged⟩ := lost
      rw [same] at recorded
      unfold Tables.insertInteraction at stored
      split at stored
      · exact .inl ⟨⟨recorded, row, stored, named, unflagged⟩, Script.not_flags rfl⟩
      · next absent =>
        obtain earlier | new := List.mem_append.mp stored
        · exact .inl ⟨⟨recorded, row, earlier, named, unflagged⟩, Script.not_flags rfl⟩
        · obtain rfl := List.mem_singleton.mp new
          refine .inr (.inr ⟨recorded, fun among => absent ?_, _, rfl, named, unflagged⟩)
          simpa [← named] using among

/-- A statement that is a whole script and concerns neither interactions nor acknowledgements. -/
theorem whole {write : Write} {statement : Statement Nat} {answer : Nat → Except Error Bool}
    (script : Script.ofOp write.op = .of statement answer)
    (waits : (Script.of statement answer).waits = true)
    (unnoted : (Script.of statement answer).flags? = none)
    (aside : (Tables.run statement tables).2.acknowledgements = tables.acknowledgements ∧
      (Tables.run statement tables).2.interactions = tables.interactions)
    (settles : (Tables.run statement tables).2.settled = (Tables.run statement tables.settled).2)
    (stepped : (Script.ofOp write.op).step tables = some (rest, later)) :
    Moves tables later ⟨write, .ofOp write.op⟩ rest := by
  obtain ⟨acknowledgements, interactions⟩ := aside
  rw [script] at stepped ⊢
  obtain ⟨_, made⟩ := Script.step_of statement answer tables
  rw [made, Option.some.injEq, Prod.mk.injEq] at stepped
  obtain ⟨rfl, rfl⟩ := stepped
  refine ⟨fun cid among => acknowledgements ▸ among, .ended _ _, unwaiting, ?_, fun cid lost => ?_⟩
  · rw [waits, settles, Tables.perform, script, Script.run_of]
    rfl
  · rw [Tables.Lost, acknowledgements, interactions] at lost
    exact .inl ⟨lost, Script.not_flags unnoted⟩

/-- An addition begins: with the insertion, if its interaction comes acknowledged, else with the look
for the acknowledgement. -/
theorem addition {interaction : Interaction}
    (stepped : (Script.addInteraction interaction).step tables = some (rest, later)) :
    Moves tables later ⟨.interaction interaction, .addInteraction interaction⟩ rest := by
  cases comes : interaction.acknowledged with
  | true =>
    have begins : Script.addInteraction interaction = .inserting interaction true := by
      simp only [Script.addInteraction, comes, ↓reduceIte]
      rfl
    rw [begins] at stepped ⊢
    exact insertion (fun _ => rfl) (fun _ => .inl comes) stepped
  | false =>
    rw [Script.addInteraction_unflagged comes] at stepped ⊢
    simp only [Script.step, Tables.run, Statement.texts] at stepped
    cases nul : [interaction.cid].any holdsNul with
    | true =>
      simp only [nul, ↓reduceIte, Option.some.injEq, Prod.mk.injEq] at stepped
      obtain ⟨rfl, rfl⟩ := stepped
      refine refused ?_ rfl
      simp_all [Write.op, Op.texts]
    | false =>
      simp only [nul, Bool.false_eq_true, ↓reduceIte, Option.some.injEq, Prod.mk.injEq] at stepped
      obtain ⟨rfl, rfl⟩ := stepped
      refine ⟨List.Subset.refl _, .lookedUp interaction _ comes fun found => ?_, fun _ => rfl, rfl,
        fun cid lost => .inl ⟨lost, Script.not_flags rfl⟩⟩
      simpa using found

/-- An acknowledgement begins: it is noted. -/
theorem noting {cid : String}
    (stepped : (Script.ofOp (.acknowledge cid)).step tables = some (rest, later)) :
    Moves tables later ⟨.acknowledgement cid, .ofOp (.acknowledge cid)⟩ rest := by
  simp only [Script.ofOp, Script.step, Tables.run, Statement.texts] at stepped
  cases nul : [cid].any holdsNul with
  | true =>
    simp only [nul, ↓reduceIte, Option.some.injEq, Prod.mk.injEq] at stepped
    obtain ⟨rfl, rfl⟩ := stepped
    exact refused nul rfl
  | false =>
    simp only [nul, Bool.false_eq_true, ↓reduceIte, Option.some.injEq, Prod.mk.injEq] at stepped
    obtain ⟨rfl, rfl⟩ := stepped
    have recorded := (Tables.mem_insertAcknowledgement cid · tables)
    refine ⟨fun other among => (recorded other).mpr (.inl among),
      .noted cid nul ((recorded cid).mpr (.inr rfl)), fun _ => rfl, ?_, fun other lost => ?_⟩
    · exact (Tables.settled_insertAcknowledgement cid tables).trans
        (Tables.perform_acknowledgement nul _).symm
    · by_cases same : cid = other
      · exact .inr (.inl (congrArg some same))
      · obtain ⟨noted, unflagged⟩ := lost
        have before := ((recorded other).mp noted).resolve_right fun is => same is.symm
        have rows : (Tables.insertAcknowledgement cid tables).2.interactions =
            tables.interactions := by
          unfold Tables.insertAcknowledgement
          split <;> rfl
        exact .inl ⟨⟨before, rows ▸ unflagged⟩, Script.not_flags rfl⟩

/-- The end of an acknowledgement. -/
theorem flagging {cid : String} (clear : [cid].any holdsNul = false)
    (recorded : cid ∈ tables.acknowledgements)
    (stepped : (Script.flagging cid).step tables = some (rest, later)) :
    Moves tables later ⟨.acknowledgement cid, .flagging cid⟩ rest := by
  simp only [Script.flagging, Script.of, Script.step, Tables.run, Statement.texts, clear,
    Bool.false_eq_true, ↓reduceIte, Option.some.injEq, Prod.mk.injEq] at stepped
  obtain ⟨rfl, rfl⟩ := stepped
  refine ⟨List.Subset.refl _, .ended _ _, unwaiting, Tables.settled_flagInteractions recorded, ?_⟩
  rintro other ⟨noted, row, stored, named, unflagged⟩
  rw [Tables.flagInteractions_rows] at stored
  obtain ⟨before, earlier, rfl⟩ := List.mem_map.mp stored
  unfold Tables.flagRow at named unflagged
  split at unflagged
  · cases unflagged
  · next kept =>
    rw [if_neg kept] at named
    refine .inl ⟨⟨noted, before, earlier, named, unflagged⟩, fun same => ?_⟩
    obtain rfl : cid = other := Option.some.inj same
    simp [Tables.lacksFlag, named, unflagged] at kept

end Moves

/-- What any task's next statement does. -/
theorem Stage.moves {tables later : Tables} {task : WriteTask} {rest : Script Bool}
    (stage : Stage tables task) (stepped : task.script.step tables = some (rest, later)) :
    Moves tables later task rest := by
  cases stage with
  | start write =>
    cases write with
    | account key name =>
      refine .whole rfl rfl rfl ?_ ?_ stepped <;>
        simp only [Tables.run, Statement.texts, Tables.insertAccount, Tables.settled] <;> grind
    | conversation added =>
      refine .whole rfl rfl rfl ?_ ?_ stepped <;>
        simp only [Tables.run, Statement.texts, Tables.insertConversation, Tables.settled] <;> grind
    | member added =>
      refine .whole rfl rfl rfl ?_ ?_ stepped <;>
        simp only [Tables.run, Statement.texts, Tables.insertMember, Tables.settled] <;> grind
    | interaction added =>
      exact .addition stepped
    | acknowledgement cid =>
      exact .noting stepped
  | lookedUp interaction found unflagged seen =>
    exact .insertion (fun comes => absurd comes (by simp [unflagged])) (fun was => .inr (seen was))
      stepped
  | noted cid clear recorded => exact .flagging clear recorded stepped
  | ended write answer => cases stepped

namespace Pool

variable {tables : Tables} {writes : List Write} {pool next final : Pool} {cid : String}

/-! ### Runs of a pool -/

/-- The writes that have yet to get through to the tables. -/
def waiting (pool : Pool) : List Write := (pool.tasks.filter (·.script.waits)).map (·.write)

/-- The writes that got through did, but for flags, what they do one after the other. -/
structure InOrder (tables : Tables) (writes : List Write) (pool : Pool) : Prop where
  stages : ∀ task ∈ pool.tasks, Stage pool.tables task
  through : ∃ order, (order ++ pool.waiting).Perm writes ∧
    pool.tables.settled = Tables.performAll order tables.settled

theorem inOrder_start (tables : Tables) (writes : List Write) :
    (start tables writes).InOrder tables writes where
  stages := List.forall_mem_map.mpr fun write _ => .start write
  through := by
    refine ⟨[], ?_, rfl⟩
    have all : (start tables writes).tasks.filter (·.script.waits) =
        writes.map fun write => ⟨write, .ofOp write.op⟩ :=
      List.filter_eq_self.mpr (List.forall_mem_map.mpr fun write _ => Script.ofOp_waits write)
    rw [waiting, all, List.map_map, List.nil_append]
    exact .of_eq (List.map_id writes)

theorem InOrder.step (inOrder : pool.InOrder tables writes) (step : Step pool next) :
    next.InOrder tables writes := by
  obtain @⟨shared, later, before, after, task, rest, stepped⟩ := step
  obtain ⟨order, perm, settled⟩ := inOrder.through
  have moves := (inOrder.stages task (by simp)).moves stepped
  refine ⟨fun other among => ?_, ?_⟩
  · obtain old | rfl :
        other ∈ before ++ task :: after ∨ other = { task with script := rest } := by
      simp only [List.mem_append, List.mem_cons] at among ⊢
      tauto
    · exact (inOrder.stages other old).mono moves.grows
    · exact moves.stage
  · have settles := moves.settled
    simp only [waiting, List.filter_append, List.filter_cons] at perm ⊢
    cases through : task.script.waits && !rest.waits with
    | false =>
      have same : rest.waits = task.script.waits := by
        rw [Bool.eq_iff_iff]
        exact ⟨moves.waits, fun waited => by simpa [waited] using through⟩
      rw [through] at settles
      refine ⟨order, ?_, settles.trans settled⟩
      rw [same]
      cases waited : task.script.waits <;> simpa [waited] using perm
    | true =>
      obtain ⟨waited, left⟩ : task.script.waits = true ∧ rest.waits = false := by
        simpa using through
      simp only [waited, left, Bool.false_eq_true, ↓reduceIte] at perm ⊢
      rw [through] at settles
      refine ⟨order ++ [task.write], .trans ?_ perm, ?_⟩
      · rw [List.append_assoc, List.singleton_append, List.map_append, List.map_append,
          List.map_cons]
        exact List.perm_middle.symm.append_left order
      · rw [Tables.performAll_snoc, ← settled]
        exact settles

theorem InOrder.reaches (inOrder : pool.InOrder tables writes) (run : Reaches pool next) :
    next.InOrder tables writes := by
  induction run with
  | refl => exact inOrder
  | tail _ step ih => exact ih.step step

theorem waiting_of_over (ended : final.Over) : final.waiting = [] := by
  have none : final.tasks.filter (·.script.waits) = [] :=
    List.filter_eq_nil_iff.mpr fun task among => by
      obtain ⟨answer, done⟩ := Script.done_of_answered (ended task among)
      simp [done, Script.waits]
  rw [waiting, none, List.map_nil]

/-- An acknowledgement that is lost is one that a task is about to carry out, or an addition was
overtaken by it. -/
theorem lost_of_reaches {first : Pool} (inOrder : first.InOrder tables writes)
    (kept : ¬ first.tables.Lost cid) (run : Reaches first next) (lost : next.tables.Lost cid) :
    (∃ task ∈ next.tasks, task.script.flags? = some cid) ∨
      ∃ middle, Reaches first middle ∧ Reaches middle next ∧ middle.Overtaken cid := by
  induction run with
  | refl => exact absurd lost kept
  | @tail pool next reached step ih =>
    have still (middle : Pool) (run : Reaches middle pool) : Reaches middle next :=
      run.tail step
    obtain @⟨shared, later, before, after, task, rest, stepped⟩ := step
    have moves := ((inOrder.reaches reached).stages task (by simp)).moves stepped
    -- A task that is about to flag and is not the one that moved is still about to.
    have pending {other : WriteTask} (among : other ∈ before ++ task :: after)
        (flags : other.script.flags? = some cid) (unmoved : task.script.flags? ≠ some cid) :
        ∃ other ∈ before ++ { task with script := rest } :: after,
          other.script.flags? = some cid := by
      refine ⟨other, ?_, flags⟩
      have apart : other ≠ task := fun same => unmoved (same ▸ flags)
      simp only [List.mem_append, List.mem_cons] at among ⊢
      tauto
    obtain ⟨already, unmoved⟩ | flags | ⟨recorded, absent, added, inserts, named, unflagged⟩ :=
      moves.lost cid lost
    · obtain ⟨other, among, flags⟩ | ⟨middle, before_it, after_it, overtaken⟩ := ih already
      · exact .inl (pending among flags unmoved)
      · exact .inr ⟨middle, before_it, still middle after_it, overtaken⟩
    · exact .inl ⟨{ task with script := rest }, by simp, flags⟩
    · by_cases owed : ∃ other ∈ before ++ task :: after, other.script.flags? = some cid
      · obtain ⟨other, among, flags⟩ := owed
        refine .inl (pending among flags fun flags => ?_)
        unfold Script.inserts? at inserts
        split at inserts
        · next script => rw [script] at flags; cases flags
        · cases inserts
      · have through (other) (among : other ∈ before ++ task :: after) :
            other.script.flags? ≠ some cid := fun flags => owed ⟨other, among, flags⟩
        exact .inr ⟨_, reached, still _ .refl,
          recorded, through, absent, task, by simp, added, inserts, named, unflagged⟩

theorem not_flags_of_over {task : WriteTask} (ended : final.Over) (among : task ∈ final.tasks) :
    task.script.flags? ≠ some cid := by
  obtain ⟨answer, done⟩ := Script.done_of_answered (ended task among)
  rw [done]
  exact Script.not_flags rfl

/-- A task that no other one interrupts does what its script does when it is run. -/
theorem reaches_run (before after : List WriteTask) (write : Write) (script : Script Bool)
    (tables : Tables) :
    Reaches ⟨tables, before ++ ⟨write, script⟩ :: after⟩
      ⟨(script.run tables).2, before ++ ⟨write, .done (script.run tables).1⟩ :: after⟩ := by
  induction script generalizing tables with
  | done answer => exact .refl
  | andThen statement next ih =>
    rw [Script.run]
    split
    · next result later ran =>
      have stepped : (Script.andThen statement next).step tables =
          some (next result, later) := by
        rw [Script.step, ran]
      exact (ih result later).head (.run stepped)
    · next e later ran =>
      have stepped : (Script.andThen statement next).step tables =
          some (.done (.error e), later) := by
        rw [Script.step, ran]
      exact .single (.run stepped)

/-- Writes that are made one after the other are one of the ways in which their scripts interleave. -/
theorem reaches_performAll (tables : Tables) (writes : List Write) :
    ∃ final, Reaches (start tables writes) final ∧ final.Over ∧
      final.tables = Tables.performAll writes tables := by
  suffices follows : ∀ done : List WriteTask, (∀ task ∈ done, task.script.answer?.isSome = true) →
      ∃ final, Reaches ⟨tables, done ++ (start tables writes).tasks⟩ final ∧ final.Over ∧
        final.tables = Tables.performAll writes tables from follows [] nofun
  induction writes generalizing tables with
  | nil => exact fun done ended => ⟨_, .refl, by simpa [Over, start] using ended, rfl⟩
  | cons write rest ih =>
    intro done ended
    have made := reaches_run done (start tables rest).tasks write (.ofOp write.op) tables
    obtain ⟨final, run, all, same⟩ := ih (tables.perform write.op).2
      (done ++ [⟨write, .done (tables.perform write.op).1⟩])
      (List.forall_mem_append.mpr ⟨ended, List.forall_mem_singleton.mpr rfl⟩)
    rw [List.append_assoc] at run
    exact ⟨final, made.trans run, all, same⟩

/-! ### Runs by turns -/

/-- The task of a position runs its next statement, if it has one. -/
def advance (pool : Pool) (turn : Nat) : Pool :=
  match pool.tasks[turn]? with
  | none => pool
  | some task =>
    match task.script.step pool.tables with
    | none => pool
    | some (rest, tables) => ⟨tables, pool.tasks.set turn { task with script := rest }⟩

/-- Tasks run their next statements by turns. -/
def follow (pool : Pool) (turns : List Nat) : Pool := turns.foldl advance pool

theorem reaches_advance (pool : Pool) (turn : Nat) : Reaches pool (pool.advance turn) := by
  unfold advance
  split
  · exact .refl
  · next task found =>
    split
    · exact .refl
    · next rest later stepped =>
      obtain ⟨inside, rfl⟩ := List.getElem?_eq_some_iff.mp found
      have tasks : pool.tasks =
          pool.tasks.take turn ++ pool.tasks[turn] :: pool.tasks.drop (turn + 1) := by
        rw [← List.drop_eq_getElem_cons inside, List.take_append_drop]
      have step : Step ⟨pool.tables,
          pool.tasks.take turn ++ pool.tasks[turn] :: pool.tasks.drop (turn + 1)⟩ _ := .run stepped
      rw [← tasks, ← List.set_eq_take_cons_drop _ inside] at step
      exact .single step

theorem reaches_follow (pool : Pool) (turns : List Nat) : Reaches pool (pool.follow turns) := by
  induction turns generalizing pool with
  | nil => exact .refl
  | cons turn rest ih => exact (reaches_advance pool turn).trans (ih _)

/-- An acknowledgement of an interaction that is being added is lost if it falls in between the look
for it and the insertion. -/
theorem overtaking_loses {tables : Tables} {interaction : Interaction}
    (unflagged : interaction.acknowledged = false)
    (clear : (Op.addInteraction interaction).texts.any holdsNul = false)
    (unrecorded : interaction.cid ∉ tables.acknowledgements)
    (absent : ∀ row ∈ tables.interactions, row.interaction.cid ≠ interaction.cid) :
    let writes : List Write := [.interaction interaction, .acknowledgement interaction.cid]
    let final := (start tables writes).follow [0, 1, 1, 0]
    final.Over ∧ final.tables.Lost interaction.cid := by
  intro writes final
  have cidClear := Tables.clear_of_addition clear
  have unfound : tables.acknowledgements.find? (· = interaction.cid) = none :=
    List.find?_eq_none.mpr fun other among => by
      simpa using ne_of_mem_of_not_mem among unrecorded
  let noted : Tables := { tables with
    acknowledgements := tables.acknowledgements ++ [interaction.cid] }
  let row : InteractionRow :=
    ⟨tables.lastInteraction + 1, { interaction with acknowledged := false }⟩
  have looks : (Script.ofOp (.addInteraction interaction)).step tables =
      some (.inserting interaction false, tables) := by
    simp only [Script.ofOp, Script.addInteraction_unflagged unflagged, Script.step, Tables.run,
      Statement.texts, cidClear, Bool.false_eq_true, ↓reduceIte, unfound, Option.isSome_none]
  have notes : (Script.ofOp (.acknowledge interaction.cid)).step tables =
      some (.flagging interaction.cid, noted) := by
    simp only [Script.ofOp, Script.step, Tables.run, Statement.texts, cidClear, Bool.false_eq_true,
      ↓reduceIte, Tables.insertAcknowledgement, unrecorded]
    rfl
  have flags : (Script.flagging interaction.cid).step noted = some (.done (.ok false), noted) := by
    have held : Tables.flagInteractions interaction.cid noted = (0, noted) :=
      Tables.flag_held fun row stored same => absurd same (absent row stored)
    simp only [Script.flagging, Script.of, Script.step, Tables.run, Statement.texts, cidClear,
      Bool.false_eq_true, ↓reduceIte, held]
    rfl
  have inserts : (Script.inserting interaction false).step noted =
      some (.done (.ok true), { noted with
        interactions := tables.interactions ++ [row], lastInteraction := row.id }) := by
    have new : ¬ noted.interactions.any (·.interaction.cid = interaction.cid) = true := by
      simpa [noted] using absent
    simp only [Op.texts] at clear
    simp only [Script.inserting, Script.of, Script.step, Tables.run, Statement.texts, clear,
      Bool.false_eq_true, ↓reduceIte, Tables.insertInteraction, new]
    rfl
  have ended : final = ⟨{ noted with
        interactions := tables.interactions ++ [row], lastInteraction := row.id },
      [⟨.interaction interaction, .done (.ok true)⟩,
        ⟨.acknowledgement interaction.cid, .done (.ok false)⟩]⟩ := by
    simp [final, writes, follow, advance, start, Write.op, looks, notes, flags, inserts]
  rw [ended]
  refine ⟨by simp [Over, Script.answer?], ?_, row, ?_, rfl, rfl⟩ <;> simp [noted]

/-! ### Interleaved writes -/

/-- Writes whose scripts interleave come to what they come to one after the other in some order but
for flags whose acknowledgements are recorded, and a flag is missing only if an addition was
overtaken. -/
theorem interleaved_writes {tables : Tables} (kept : ∀ cid, ¬ tables.Lost cid)
    {writes : List Write} {final : Pool} (run : Reaches (start tables writes) final)
    (ended : final.Over) :
    ∃ order : List Write, order.Perm writes ∧
      final.tables.settled = Tables.performAll order tables ∧
      ((∀ cid, ¬ final.tables.Lost cid) → final.tables = Tables.performAll order tables) ∧
      ∀ cid, final.tables.Lost cid →
        ∃ middle, Reaches (start tables writes) middle ∧ Reaches middle final ∧
          middle.Overtaken cid := by
  have inOrder := inOrder_start tables writes
  obtain ⟨order, perm, settled⟩ := (inOrder.reaches run).through
  rw [waiting_of_over ended, List.append_nil] at perm
  rw [Tables.settled_of_kept kept] at settled
  refine ⟨order, perm, settled, fun none => (Tables.settled_of_kept none).symm.trans settled,
    fun cid lost => ?_⟩
  obtain ⟨task, among, flags⟩ | overtaken := lost_of_reaches inOrder (kept cid) run lost
  · exact absurd flags (not_flags_of_over ended among)
  · exact overtaken

/-- An addition that was overtaken by the acknowledgement of its interaction. -/
theorem overtaken_addition_settled :
    let note : Interaction := ⟨"c", "g", "d", 0, [7], 0, false⟩
    let writes : List Write := [.interaction note, .acknowledgement "c"]
    let final := (start {} writes).follow [0, 1, 1, 0]
    final.Over ∧ final.tables.Lost "c" ∧
      (∃ order : List Write, order.Perm writes ∧
        final.tables.settled = Tables.performAll order {}) ∧
      ∃ middle, Reaches (start {} writes) middle ∧ Reaches middle final ∧
        middle.Overtaken "c" := by
  intro note writes final
  obtain ⟨ended, lost⟩ : final.Over ∧ final.tables.Lost "c" :=
    overtaking_loses rfl (by decide +kernel) nofun nofun
  have kept : ∀ cid, ¬ ({} : Tables).Lost cid := fun _ lost => nomatch lost.1
  obtain ⟨order, perm, settled, -, overtaken⟩ :=
    interleaved_writes kept (reaches_follow (start {} writes) [0, 1, 1, 0]) ended
  exact ⟨ended, lost, ⟨order, perm, settled⟩, overtaken "c" lost⟩

/-- Statements that interleave can leave an interaction without the flag whose acknowledgement is
recorded, which no order of the writes does. -/
theorem acknowledgement_overtakes :
    let note : Interaction := ⟨"c", "g", "d", 0, [7], 0, false⟩
    let writes : List Write := [.interaction note, .acknowledgement "c"]
    ∃ final, Reaches (start {} writes) final ∧ final.Over ∧ final.tables.Lost "c" ∧
      ∀ order : List Write, order.Perm writes → final.tables ≠ Tables.performAll order {} := by
  intro note writes
  let final := (start {} writes).follow [0, 1, 1, 0]
  obtain ⟨ended, lost⟩ : final.Over ∧ final.tables.Lost "c" :=
    overtaking_loses rfl (by decide +kernel) nofun nofun
  refine ⟨final, reaches_follow _ _, ended, lost, fun order _ same => ?_⟩
  have kept : ∀ cid, ¬ ({} : Tables).Lost cid := fun _ lost => nomatch lost.1
  exact Tables.kept_performAll Tables.sound_empty kept order "c" (same ▸ lost)

end Pool

end GroupReplay.Store
