import GroupReplay.Proofs.TablesView

/-!
Two empty stores, one in memory and one in tables, answer every sequence of operations alike, as
long as nobody tells the one to reject anything and no text of an operation has a NUL that the other
would refuse.  What carries this along a sequence is that the records in memory are, but for the
switches, those that the tables hold.
-/

namespace GroupReplay.Store

/-- An operation, whatever the type of its answer. -/
structure AnyOp : Type 1 where
  {Answer : Type}
  op : Op Answer

/-- What an operation was answered, whatever its type. -/
structure AnyAnswer : Type 1 where
  {Answer : Type}
  answer : Except Error Answer

/-- Performs operations one after the other, also after one that failed, and lists the answers. -/
def answers {σ : Type} [LocalStore σ] : List AnyOp → σ → List AnyAnswer
  | [], _ => []
  | next :: rest, store =>
    ⟨(LocalStore.perform next.op store).1⟩ :: answers rest (LocalStore.perform next.op store).2

/-- None of an operation's texts has a NUL. -/
def AnyOp.Clear (next : AnyOp) : Prop := ∀ text ∈ next.op.texts, holdsNul text = false

variable {α : Type} {op : Op α} {tables : Tables}

/-- Records in memory that are those of tables, and that were told to reject nothing. -/
def Tables.mirrored (recorded : Bool) (tables : Tables) : Records :=
  tables.records.switched false false recorded

/-- An operation on tables is not refused if its texts are clear. -/
theorem Tables.accepted_of_clear (clear : ∀ text ∈ op.texts, holdsNul text = false) :
    refusal? op = none := by
  have none : op.texts.any holdsNul = false := by
    rw [List.any_eq_false]
    intro text member
    simp [clear text member]
  rw [refusal?, none]
  rfl

/-- An operation that tables do not refuse is answered in memory as in tables, and the records in
memory are those of the tables still. -/
theorem Tables.perform_mirrored (sound : tables.Sound) (accepted : refusal? op = none)
    (recorded : Bool) :
    (tables.mirrored recorded).perform op =
      ((tables.perform op).1, (tables.perform op).2.mirrored recorded) := by
  obtain ⟨answered, view⟩ := perform_carried sound accepted
  have welcome : (tables.mirrored recorded).refusal? op = none := by cases op <;> rfl
  have carried := Records.carry_switched op false false recorded tables.records
  calc (tables.mirrored recorded).perform op
    _ = (.ok (Records.carry op (tables.mirrored recorded)).1,
          (Records.carry op (tables.mirrored recorded)).2) := Records.perform_carried welcome
    _ = (.ok (Records.carry op tables.records).1,
          (Records.carry op tables.records).2.switched false false recorded) := by
        rw [mirrored, carried]
    _ = ((tables.perform op).1, (tables.perform op).2.mirrored recorded) := by
        rw [answered, mirrored, view]

/-- Tables and the records that mirror them answer every sequence of operations alike. -/
theorem Tables.answers_mirrored (sound : tables.Sound) (recorded : Bool) {ops : List AnyOp}
    (clear : ∀ next ∈ ops, next.Clear) :
    answers ops (tables.mirrored recorded) = answers ops tables := by
  induction ops generalizing tables with
  | nil => rfl
  | cons next rest ih =>
    obtain ⟨here, others⟩ := List.forall_mem_cons.mp clear
    have step : LocalStore.perform next.op (tables.mirrored recorded) =
        ((tables.perform next.op).1, (tables.perform next.op).2.mirrored recorded) :=
      perform_mirrored sound (accepted_of_clear here) recorded
    rw [answers, answers, step]
    exact congrArg _ (ih (sound.perform next.op) others)

/-- From empty on, a store in memory, whether its calls are recorded or not, and one in tables give
the same answer at every step of any sequence of operations. -/
theorem stores_answer_alike (recorded : Bool) {ops : List AnyOp}
    (clear : ∀ next ∈ ops, next.Clear) :
    answers ops ({ recorded } : Records) = answers ops ({} : Tables) :=
  Tables.answers_mirrored Tables.sound_empty recorded clear

/-- Operations among which an interaction is acknowledged before it is stored and twice after, and
records are added again under other names. -/
def earlyAndRepeated : List AnyOp :=
  let posted : Interaction := ⟨"c1", "g", "d", -1, [0], -5, false⟩
  [⟨.acknowledge "c1"⟩, ⟨.addInteraction posted⟩, ⟨.addInteraction { posted with cid := "c2" }⟩,
    ⟨.acknowledge "c2"⟩, ⟨.acknowledge "c2"⟩, ⟨.addInteraction { posted with device := "e" }⟩,
    ⟨.interactions "g"⟩, ⟨.ensureAccount "a" ""⟩, ⟨.ensureAccount "a" "b"⟩, ⟨.account "a"⟩,
    ⟨.addConversation ⟨"g", .contact⟩⟩, ⟨.addConversation ⟨"g", .account⟩⟩, ⟨.conversations⟩,
    ⟨.addMember ⟨"g", "n", "x"⟩⟩, ⟨.addMember ⟨"g", "m", "y"⟩⟩, ⟨.addMember ⟨"g", "n", "x"⟩⟩,
    ⟨.members "g"⟩]

/-- Acknowledgements that come early or again, and records that are added again. -/
theorem early_and_repeated_alike :
    answers earlyAndRepeated ({ recorded := true } : Records) =
      answers earlyAndRepeated ({} : Tables) := by
  have clear : ∀ next ∈ earlyAndRepeated, next.op.texts.all fun text => !holdsNul text := by
    decide +kernel
  refine stores_answer_alike true fun next member text among => ?_
  simpa using List.all_eq_true.mp (clear next member) text among

end GroupReplay.Store
