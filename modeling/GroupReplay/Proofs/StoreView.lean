import GroupReplay.Proofs.TablesView
import GroupReplay.Store.Access
import GroupReplay.Store.Any

/-!
Stores of either kind, seen as the records that they hold.  An operation that a store does not refuse
acts on these records as `Records.carry` says, and what a store refuses does not change; so stores
that hold the same records and refuse the same operations cannot be told apart.
-/

namespace GroupReplay.Store

/-- The stores that operations lead to from empty ones.  A store in memory can be told at any time
to reject writes or the listing of conversations. -/
inductive Reachable : AnyStore → Prop where
  | memory (recorded : Bool) : Reachable (.inMemory { recorded })
  | tables : Reachable (.inTables {})
  | told {records : Records} (reachable : Reachable (.inMemory records))
      (rejectsWrites rejectsLists : Bool) :
      Reachable (.inMemory { records with rejectsWrites, rejectsLists })
  | perform {store : AnyStore} (reachable : Reachable store) {α : Type} (op : Op α) :
      Reachable (store.perform op).2

variable {α : Type}

namespace AnyStore

/-- The records that a store holds. -/
def records : AnyStore → Records
  | inMemory records => records
  | inTables tables => tables.records

/-- Why a store refuses an operation, if it does. -/
def refusal? (store : AnyStore) (op : Op α) : Option Error :=
  match store with
  | inMemory records => records.refusal? op
  | inTables _ => Tables.refusal? op

/-- The records of a store are sound, and so are the tables that it keeps them in. -/
def Sound : AnyStore → Prop
  | inMemory records => records.Sound
  | inTables tables => tables.Sound

variable {store : AnyStore}

theorem Sound.records (sound : store.Sound) : store.records.Sound := by
  cases store with
  | inMemory records => exact sound
  | inTables tables => exact Tables.Sound.records sound

/-- What a store came to be: nothing was taken away, and the same operations are refused. -/
structure Later (store later : AnyStore) : Prop where
  sound : later.Sound
  grows : store.records.Grows later.records
  refusal : ∀ {α : Type} (op : Op α), later.refusal? op = store.refusal? op

theorem Later.refl (sound : store.Sound) : Later store store := ⟨sound, .refl _, fun _ => rfl⟩

theorem Later.trans {middle last : AnyStore} (first : Later store middle)
    (second : Later middle last) : Later store last :=
  ⟨second.sound, first.grows.trans second.grows, fun op =>
    (second.refusal op).trans (first.refusal op)⟩

theorem perform_refused {op : Op α} {e : Error} (refused : store.refusal? op = some e) :
    store.perform op = (.error e, store) := by
  cases store with
  | inMemory records => simp only [perform, Records.perform_refused refused]
  | inTables tables => simp only [perform, Tables.perform_refused refused]

/-- An operation that is not refused. -/
theorem perform_carried {op : Op α} (sound : store.Sound) (accepted : store.refusal? op = none) :
    ∃ later, store.perform op = (.ok (Records.carry op store.records).1, later) ∧
      later.records = (Records.carry op store.records).2 ∧ Later store later := by
  cases store with
  | inMemory records =>
    refine ⟨.inMemory (Records.carry op records).2, ?_, rfl, Records.Sound.carry sound op,
      Records.grows_carry sound op, ?_⟩
    · simp only [perform, Records.perform_carried accepted]
      rfl
    · exact fun other => Records.refusal_carry op other
  | inTables tables =>
    obtain ⟨answer, view⟩ := Tables.perform_carried sound accepted
    have grows := Records.grows_carry (Tables.Sound.records sound) op
    refine ⟨.inTables (tables.perform op).2, Prod.ext (by exact answer) rfl, view,
      Tables.Sound.perform sound op, ?_, fun _ => rfl⟩
    rw [← view] at grows
    exact grows

/-- What an operation that succeeded answered and left. -/
theorem carried_of_ok {op : Op α} {answer : α} {later : AnyStore} (sound : store.Sound)
    (performed : store.perform op = (.ok answer, later)) :
    store.refusal? op = none ∧ answer = (Records.carry op store.records).1 ∧
      later.records = (Records.carry op store.records).2 ∧ Later store later := by
  cases refused : store.refusal? op with
  | some e => rw [perform_refused refused] at performed; cases performed
  | none =>
    obtain ⟨after, carried, records, became⟩ := perform_carried sound refused
    rw [carried] at performed
    cases performed
    exact ⟨rfl, rfl, records, became⟩

theorem later_perform (sound : store.Sound) (op : Op α) : Later store (store.perform op).2 := by
  cases refused : store.refusal? op with
  | some e =>
    rw [perform_refused refused]
    exact .refl sound
  | none =>
    obtain ⟨later, performed, _, became⟩ := perform_carried sound refused
    rw [performed]
    exact became

/-- A store that writes, made one after the other, led to. -/
structure Wrote (store : AnyStore) (writes : List Write) (after : AnyStore) : Prop where
  later : store.Later after
  records : after.records = Records.carryAll writes store.records

theorem Wrote.refl (sound : store.Sound) : Wrote store [] store := ⟨.refl sound, rfl⟩

theorem Wrote.append {middle after : AnyStore} {first second : List Write}
    (wrote : Wrote store first middle) (more : Wrote middle second after) :
    Wrote store (first ++ second) after where
  later := wrote.later.trans more.later
  records := by rw [Records.carryAll_append, ← wrote.records, more.records]

/-- A write that succeeded was made. -/
theorem wrote_of_ok {write : Write} {changed : Bool} {after : AnyStore} (sound : store.Sound)
    (performed : store.perform write.op = (.ok changed, after)) : Wrote store [write] after := by
  obtain ⟨_, _, records, became⟩ := carried_of_ok sound performed
  exact ⟨became, records⟩

/-- A store that writes were begun on. -/
structure Began (store : AnyStore) (writes : List Write) (after : AnyStore) : Prop where
  later : store.Later after
  begun : Records.Begun writes store.records after.records

theorem Began.none (sound : store.Sound) (writes : List Write) : Began store writes store :=
  ⟨.refl sound, .none writes _⟩

theorem Wrote.began {writes : List Write} {after : AnyStore} (wrote : Wrote store writes after) :
    Began store writes after where
  later := wrote.later
  begun := by rw [wrote.records]; exact .all writes _

theorem Began.append {writes : List Write} {after : AnyStore} (began : Began store writes after)
    (more : List Write) : Began store (writes ++ more) after :=
  ⟨began.later, began.begun.append more⟩

/-- Writes that were begun once others were made. -/
theorem Wrote.then_began {middle after : AnyStore} {first second : List Write}
    (wrote : Wrote store first middle) (began : Began middle second after) :
    Began store (first ++ second) after where
  later := wrote.later.trans began.later
  begun := by
    have begun := began.begun
    rw [wrote.records] at begun
    exact begun.after

/-- A store that refused an operation is the store that it was. -/
theorem refused_unchanged {op : Op α} {e : Error} {after : AnyStore} (sound : store.Sound)
    (performed : store.perform op = (.error e, after)) : after = store := by
  cases refused : store.refusal? op with
  | some e => rw [perform_refused refused] at performed; cases performed; rfl
  | none =>
    obtain ⟨_, carried, _, _⟩ := perform_carried sound refused
    rw [carried] at performed
    cases performed

/-- Stores that hold the same records and refuse the same operations. -/
structure Agrees (a b : AnyStore) : Prop where
  left : a.Sound
  right : b.Sound
  records : a.records = b.records
  refusal : ∀ {α : Type} (op : Op α), a.refusal? op = b.refusal? op

/-- Listing the conversations leaves a store as it is. -/
theorem listing_unchanged (store : AnyStore) : (store.perform .conversations).2 = store := by
  cases store with
  | inMemory records =>
    simp only [perform, Records.perform]
    split <;> rfl
  | inTables tables => rfl

/-- Stores that agree answer the same and agree after. -/
theorem Agrees.perform {a b : AnyStore} (agrees : Agrees a b) (op : Op α) :
    (a.perform op).1 = (b.perform op).1 ∧ Agrees (a.perform op).2 (b.perform op).2 := by
  cases refused : a.refusal? op with
  | some e =>
    rw [perform_refused refused, perform_refused ((agrees.refusal op).symm.trans refused)]
    exact ⟨rfl, agrees⟩
  | none =>
    obtain ⟨laterA, performedA, recordsA, becameA⟩ := perform_carried agrees.left refused
    obtain ⟨laterB, performedB, recordsB, becameB⟩ :=
      perform_carried agrees.right ((agrees.refusal op).symm.trans refused)
    rw [performedA, performedB, agrees.records]
    refine ⟨rfl, becameA.sound, becameB.sound, ?_, fun other => ?_⟩
    · rw [recordsA, recordsB, agrees.records]
    · rw [becameA.refusal, becameB.refusal, agrees.refusal]

/-- Actions that end the same on stores that agree, and in stores that agree. -/
def Blind {β : Type} (action : Action AnyStore Error β) : Prop :=
  ∀ a b, Agrees a b →
    (action.run a).1 = (action.run b).1 ∧ Agrees (action.run a).2 (action.run b).2

theorem blind_perform (op : Op α) : Blind (Store.perform op) := fun _ _ agrees => agrees.perform op

theorem blind_pure {β : Type} (value : β) : Blind (pure value) := fun _ _ agrees => ⟨rfl, agrees⟩

theorem Blind.bind {β γ : Type} {first : Action AnyStore Error β}
    {next : β → Action AnyStore Error γ} (blind : Blind first)
    (blindNext : ∀ value, Blind (next value)) : Blind (first >>= next) := by
  intro a b agrees
  obtain ⟨same, after⟩ := blind a b agrees
  rw [Action.run_bind, Action.run_bind]
  cases ranA : first.run a with
  | mk resultA laterA =>
    cases ranB : first.run b with
    | mk resultB laterB =>
      rw [ranA, ranB] at same after
      obtain rfl : resultA = resultB := same
      cases resultA with
      | error e => exact ⟨rfl, after⟩
      | ok value => exact blindNext value _ _ after

theorem blind_recordsOf (conversations : List Conversation) :
    Blind (recordsOf conversations : Action AnyStore Error _) := by
  induction conversations with
  | nil => exact blind_pure []
  | cons conversation rest ih =>
    exact (blind_perform _).bind fun _ => (blind_perform _).bind fun _ =>
      ih.bind fun _ => blind_pure _

/-- Stores that agree have the same snapshots. -/
theorem Agrees.snapshot {a b : AnyStore} (agrees : Agrees a b) (account : String) :
    ((Store.snapshot account).run a).1 = ((Store.snapshot account).run b).1 := by
  have blind : Blind (Store.snapshot account : Action AnyStore Error _) :=
    (blind_perform _).bind fun _ => (blind_perform _).bind fun _ =>
      (blind_recordsOf _).bind fun _ => blind_pure _
  exact (blind a b agrees).1

/-! ### Stores that are told what to reject -/

/-- A store that was told what to reject; tables cannot be told. -/
def told (rejectsWrites rejectsLists : Bool) : AnyStore → AnyStore
  | inMemory records => inMemory (records.told rejectsWrites rejectsLists)
  | inTables tables => inTables tables

theorem Sound.told (sound : store.Sound) (rejectsWrites rejectsLists : Bool) :
    (store.told rejectsWrites rejectsLists).Sound := by
  cases store with
  | inMemory records =>
    obtain ⟨accounts, conversations, members, interactions⟩ := sound
    exact ⟨accounts, conversations, members, interactions⟩
  | inTables tables => exact sound

theorem grows_told (store : AnyStore) (rejectsWrites rejectsLists : Bool) :
    store.records.Grows (store.told rejectsWrites rejectsLists).records := by
  cases store with
  | inMemory records =>
    exact ⟨List.prefix_rfl, List.prefix_rfl, List.prefix_rfl, List.prefix_rfl, List.prefix_rfl,
      fun _ held => held⟩
  | inTables tables => exact .refl _

/-- The conversations that writes lead to are the same whatever is rejected later. -/
theorem conversations_told (writes : List Write) (store : AnyStore)
    (rejectsWrites rejectsLists : Bool) :
    (Records.carryAll writes (store.told rejectsWrites rejectsLists).records).conversations =
      (Records.carryAll writes store.records).conversations := by
  cases store with
  | inMemory records =>
    have carried := Records.carryAll_told writes rejectsWrites rejectsLists records
    have same := congrArg Records.conversations carried
    exact same
  | inTables tables => rfl

/-- Stores told the same are as far apart as they were before. -/
theorem Began.told {after : AnyStore} {writes : List Write} (sound : store.Sound)
    (began : Began store writes after) (rejectsWrites rejectsLists : Bool) :
    Began (store.told rejectsWrites rejectsLists) writes
      (after.told rejectsWrites rejectsLists) := by
  -- What a store refuses shows its kind: only tables refuse a NUL.
  have nul := began.later.refusal (.account "\x00")
  cases store with
  | inMemory records =>
    cases after with
    | inTables tables => cases nul
    | inMemory left =>
      have grows : (records.told rejectsWrites rejectsLists).Grows
          (left.told rejectsWrites rejectsLists) := by
        obtain ⟨accounts, conversations, members, interactions, acknowledged, acknowledges⟩ :=
          began.later.grows
        exact ⟨accounts, conversations, members, interactions, acknowledged, acknowledges⟩
      refine ⟨⟨began.later.sound.told _ _, grows, fun op => by cases op <;> rfl⟩, ?_⟩
      have begun : Records.Begun writes records left := began.begun
      exact begun.told rejectsWrites rejectsLists
  | inTables tables =>
    cases after with
    | inTables left => exact began
    | inMemory records => cases nul

/-- A store that rejects no write for being one. -/
def AcceptsWrites : AnyStore → Prop
  | inMemory records => records.rejectsWrites = false
  | inTables _ => True

/-- A write that a store does not refuse while it accepts writes. -/
def Takes (store : AnyStore) (write : Write) : Prop :=
  store.AcceptsWrites → store.refusal? write.op = none

theorem takes_inMemory (records : Records) (write : Write) : (inMemory records).Takes write := by
  intro accepts
  have accepts : records.rejectsWrites = false := accepts
  cases write <;> simp [refusal?, Records.refusal?, Write.op, accepts]

/-- What a store is after any operations, whatever it was told to reject on the way. -/
structure Outlasts (store later : AnyStore) : Prop where
  sound : later.Sound
  grows : store.records.Grows later.records
  takes : ∀ write, store.Takes write → later.Takes write

theorem Outlasts.refl (sound : store.Sound) : Outlasts store store :=
  ⟨sound, .refl _, fun _ takes => takes⟩

theorem Outlasts.trans {middle last : AnyStore} (first : Outlasts store middle)
    (second : Outlasts middle last) : Outlasts store last :=
  ⟨second.sound, first.grows.trans second.grows, fun write takes =>
    second.takes write (first.takes write takes)⟩

theorem Later.outlasts {later : AnyStore} (became : Later store later) : Outlasts store later := by
  refine ⟨became.sound, became.grows, fun write takes => ?_⟩
  cases later with
  | inMemory records => exact takes_inMemory records write
  | inTables tables =>
    intro accepts
    rw [became.refusal]
    -- What a store refuses shows its kind: only tables refuse a NUL.
    have nul := became.refusal (.account "\x00")
    cases store with
    | inMemory records => cases nul
    | inTables tables => exact takes trivial

theorem outlasts_told (sound : store.Sound) (rejectsWrites rejectsLists : Bool) :
    Outlasts store (store.told rejectsWrites rejectsLists) := by
  refine ⟨sound.told _ _, grows_told store _ _, fun write takes => ?_⟩
  cases store with
  | inMemory records => exact takes_inMemory _ write
  | inTables tables => exact takes

end AnyStore

/-! ### Stores that may fail -/

/-- What a failed operation may leave of a store: one in memory is as it was; of tables, some of the
statements of the operation's script may have been run. -/
inductive Broken (op : Op α) : AnyStore → AnyStore → Prop where
  | unchanged (store : AnyStore) : Broken op store store
  | inTables {tables left : Tables} (stops : (Script.ofOp op).StopsAt tables left) :
      Broken op (.inTables tables) (.inTables left)

section Failing

variable {store left : AnyStore}

/-- A failed listing leaves a store as it was. -/
theorem Broken.listing (broken : Broken .conversations store left) : left = store := by
  cases broken with
  | unchanged => rfl
  | inTables stops =>
    cases stops with
    | here => rfl
    | later ran more =>
      cases more with
      | here => exact congrArg AnyStore.inTables (congrArg Prod.snd ran).symm

/-- A failed write was begun. -/
theorem Broken.began {write : Write} (sound : store.Sound) (broken : Broken write.op store left) :
    store.Began [write] left := by
  cases broken with
  | unchanged => exact .none sound [write]
  | @inTables tables left stops =>
    obtain rfl | rfl | ⟨cid, rfl, accepted, rfl⟩ := Tables.stops_of_write stops
    · exact .none sound [write]
    · cases performed : (AnyStore.inTables tables).perform write.op with
      | mk answer after =>
        obtain rfl : .inTables (tables.perform write.op).2 = after := congrArg Prod.snd performed
        cases answer with
        | error e =>
          rw [AnyStore.refused_unchanged sound performed]
          exact .none sound [write]
        | ok changed => exact (AnyStore.wrote_of_ok sound performed).began
    · have noted := Tables.records_insertAcknowledgement cid tables
      have grows := Records.grows_noted tables.records cid
      rw [← noted] at grows
      exact ⟨⟨Tables.Sound.insertAcknowledgement sound cid, grows, fun _ => rfl⟩,
        [], [.acknowledgement cid], rfl, .inr ⟨cid, [], rfl, noted⟩⟩

end Failing

/-- An operation on a store of type `σ` that succeeds was performed on the store that is held; one
that fails, for whatever reason, may have been broken off. -/
structure Backed {σ : Type} [LocalStore σ] (held : σ → AnyStore) : Prop where
  ok {α : Type} {op : Op α} {store later : σ} {answer : α} :
    LocalStore.perform op store = (.ok answer, later) →
      (held store).perform op = (.ok answer, held later)
  error {α : Type} {op : Op α} {store later : σ} {e : Error} : (held store).Sound →
    LocalStore.perform op store = (.error e, later) → Broken op (held store) (held later)

/-- A store of either kind backs itself. -/
theorem backed_id : Backed (id : AnyStore → AnyStore) where
  ok performed := performed
  error sound performed := by
    rw [AnyStore.refused_unchanged sound performed]
    exact .unchanged _

namespace Backed

variable {σ : Type} [LocalStore σ] {held : σ → AnyStore} {store : σ}

/-- A write was begun, however it ended. -/
theorem write_began (backed : Backed held) (sound : (held store).Sound) (write : Write) :
    (held store).Began [write] (held (LocalStore.perform write.op store).2) := by
  cases performed : LocalStore.perform write.op store with
  | mk answer later =>
    cases answer with
    | ok changed => exact (AnyStore.wrote_of_ok sound (backed.ok performed)).began
    | error e => exact (backed.error sound performed).began sound

/-- A listing of conversations left the store as it was, however it ended. -/
theorem listing_unchanged (backed : Backed held) (sound : (held store).Sound) :
    held (LocalStore.perform .conversations store).2 = held store := by
  cases performed : LocalStore.perform .conversations store with
  | mk answer later =>
    cases answer with
    | ok listed => rw [← AnyStore.listing_unchanged (held store), backed.ok performed]
    | error e => exact (backed.error sound performed).listing

end Backed

/-- A store of either kind that fails for good at some point: in memory after a number of further
operations, in tables after a number of further statements. -/
structure Failing where
  store : AnyStore
  steps : Nat

/-- Runs the statements of a script as far as a database gets that fails for good after a number of
steps. -/
def Script.runWithin {α : Type} : Script α → Nat → Tables → Except Error α × Nat × Tables
  | .done answer, steps, tables => (answer, steps, tables)
  | .andThen _ _, 0, tables => (.error .database, 0, tables)
  | .andThen statement next, steps + 1, tables =>
    match Tables.run statement tables with
    | (.ok result, tables) => (next result).runWithin steps tables
    | (.error e, tables) => (.error e, steps, tables)

namespace Failing

/-- Performs an operation as far as the store gets. -/
def perform {α : Type} (op : Op α) : Failing → Except Error α × Failing
  | ⟨.inMemory records, 0⟩ => (.error (.unavailable "out of order"), ⟨.inMemory records, 0⟩)
  | ⟨.inMemory records, steps + 1⟩ =>
    ((records.perform op).1, ⟨.inMemory (records.perform op).2, steps⟩)
  | ⟨.inTables tables, steps⟩ =>
    match (Script.ofOp op).runWithin steps tables with
    | (answer, steps, tables) => (answer, ⟨.inTables tables, steps⟩)

instance : LocalStore Failing where
  perform := perform
  recorded failing := LocalStore.recorded failing.store

variable {α : Type} {script : Script α} {steps stepsLeft : Nat} {tables left : Tables}

/-- A script that a failing database got through ran as it would have on any other. -/
private theorem run_of_ok {answer : α}
    (ran : script.runWithin steps tables = (.ok answer, stepsLeft, left)) :
    script.run tables = (.ok answer, left) := by
  induction script generalizing steps tables with
  | done result => cases ran; rfl
  | andThen statement next ih =>
    cases steps with
    | zero => cases ran
    | succ steps =>
      cases did : Tables.run statement tables with
      | mk result middle =>
        simp only [Script.runWithin, did] at ran
        cases result with
        | ok value =>
          simp only [Script.run, did]
          exact ih value ran
        | error e => cases ran

/-- Wherever the database fails, the script stops. -/
private theorem stops_within {result : Except Error α}
    (ran : script.runWithin steps tables = (result, stepsLeft, left)) :
    script.StopsAt tables left := by
  induction script generalizing steps tables with
  | done answer => cases ran; exact .here _ _
  | andThen statement next ih =>
    cases steps with
    | zero => cases ran; exact .here _ _
    | succ steps =>
      cases did : Tables.run statement tables with
      | mk outcome middle =>
        simp only [Script.runWithin, did] at ran
        cases outcome with
        | ok value => exact .later did (ih value ran)
        | error e =>
          cases ran
          rw [Tables.unchanged_of_failed did]
          exact .here _ _

/-- A store that fails at some point backs one whose operations are broken off there. -/
theorem backed : Backed Failing.store where
  ok {_ op failing later answer} performed := by
    obtain ⟨records | tables, steps⟩ := failing
    · cases steps with
      | zero => cases performed
      | succ steps =>
        obtain ⟨answered, rfl⟩ := Prod.mk.inj performed
        exact Prod.ext answered rfl
    · cases ran : (Script.ofOp op).runWithin steps tables with
      | mk result rest =>
        simp only [LocalStore.perform, perform, ran] at performed
        cases performed
        simp only [AnyStore.perform, Tables.perform, run_of_ok ran]
  error {_ op failing later e} sound performed := by
    obtain ⟨records | tables, steps⟩ := failing
    · cases steps with
      | zero => cases performed; exact .unchanged _
      | succ steps =>
        obtain ⟨answered, rfl⟩ := Prod.mk.inj performed
        have refused : (AnyStore.inMemory records).perform op =
            (.error e, .inMemory (records.perform op).2) := Prod.ext answered rfl
        rw [AnyStore.refused_unchanged sound refused]
        exact .unchanged _
    · cases ran : (Script.ofOp op).runWithin steps tables with
      | mk result rest =>
        simp only [LocalStore.perform, perform, ran] at performed
        cases performed
        exact .inTables (stops_within ran)

end Failing

theorem Reachable.sound {store : AnyStore} (reachable : Reachable store) : store.Sound := by
  induction reachable with
  | memory recorded => exact ⟨List.nodup_nil, List.nodup_nil, List.nodup_nil, List.nodup_nil⟩
  | tables => exact Tables.sound_empty
  | told _ _ _ ih =>
    obtain ⟨accounts, conversations, members, interactions⟩ := ih
    exact ⟨accounts, conversations, members, interactions⟩
  | perform _ op ih => exact (AnyStore.later_perform ih op).sound

theorem Reachable.flagged {store : AnyStore} (reachable : Reachable store) :
    store.records.Flagged := by
  induction reachable with
  | memory recorded => exact List.forall_mem_nil _
  | tables => exact List.forall_mem_nil _
  | told _ _ _ ih => exact ih
  | @perform store reachable _ op ih =>
    cases refused : store.refusal? op with
    | some e =>
      rw [AnyStore.perform_refused refused]
      exact ih
    | none =>
      obtain ⟨later, performed, carried, _⟩ := AnyStore.perform_carried reachable.sound refused
      rw [performed, carried]
      exact ih.carry reachable.sound.records op

end GroupReplay.Store
