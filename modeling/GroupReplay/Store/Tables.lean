import GroupReplay.Store.Basic

/-!
A store kept in the tables of a database.  Every operation is a script of statements, each of
which runs as a whole; two operations take two statements, so that scripts of several tasks may
interleave between them.  Unique columns make an insertion skip a row that is already there, ids
count up, and listings are ordered by id.  A statement whose text would hold a NUL is refused.
-/

namespace GroupReplay.Store

/-- A row of the table of conversations, which keeps the kind as text. -/
structure ConversationRow where
  id : Nat
  key : String
  type : String
  deriving DecidableEq, Repr, Inhabited

/-- A row of the table of interactions. -/
structure InteractionRow where
  id : Nat
  interaction : Interaction
  deriving DecidableEq, Repr, Inhabited

/-- The tables, with the last id given out in each that counts them. -/
structure Tables where
  accounts : List Account := []
  conversations : List ConversationRow := []
  lastConversation : Nat := 0
  members : List Member := []
  interactions : List InteractionRow := []
  lastInteraction : Nat := 0
  /-- Every acknowledged content id, its interaction stored or not. -/
  acknowledgements : List String := []
  deriving DecidableEq, Repr, Inhabited

/-- The statements of the store, each with the type of its result: rows that were selected, or the
number of rows that were changed. -/
inductive Statement : Type → Type where
  | insertAccount (account : Account) : Statement Nat
  | selectAccount (key : String) : Statement (Option Account)
  | insertConversation (key type : String) : Statement Nat
  | selectConversations : Statement (List (String × String))
  | insertMember (member : Member) : Statement Nat
  | selectMembers (conversation : String) : Statement (List Member)
  | selectAcknowledgement (cid : String) : Statement (Option String)
  | insertInteraction (interaction : Interaction) : Statement Nat
  | insertAcknowledgement (cid : String) : Statement Nat
  /-- Sets the flag of the interactions of a content id that lack it. -/
  | flagInteractions (cid : String) : Statement Nat
  | selectInteractions (conversation : String) : Statement (List Interaction)

/-- The texts that are spelled out in a statement. -/
def Statement.texts {α : Type} : Statement α → List String
  | .insertAccount account => [account.key, account.displayName]
  | .selectAccount key => [key]
  | .insertConversation key type => [key, type]
  | .selectConversations => []
  | .insertMember member => [member.conversation, member.member, member.device]
  | .selectMembers conversation => [conversation]
  | .selectAcknowledgement cid => [cid]
  | .insertInteraction i => [i.cid, i.conversation, i.device]
  | .insertAcknowledgement cid => [cid]
  | .flagInteractions cid => [cid]
  | .selectInteractions conversation => [conversation]

/-- Whether a text holds a NUL, which ends the text of a statement early. -/
def holdsNul (text : String) : Bool := text.toList.any (·.toNat = 0)

namespace Tables

def insertAccount (account : Account) (tables : Tables) : Nat × Tables :=
  if tables.accounts.any (·.key = account.key) then (0, tables)
  else (1, { tables with accounts := tables.accounts ++ [account] })

def insertConversation (key type : String) (tables : Tables) : Nat × Tables :=
  if tables.conversations.any (·.key = key) then (0, tables)
  else
    let id := tables.lastConversation + 1
    let conversations := tables.conversations ++ [⟨id, key, type⟩]
    (1, { tables with conversations, lastConversation := id })

def insertMember (member : Member) (tables : Tables) : Nat × Tables :=
  if member ∈ tables.members then (0, tables)
  else (1, { tables with members := tables.members ++ [member] })

def insertInteraction (interaction : Interaction) (tables : Tables) : Nat × Tables :=
  if tables.interactions.any (·.interaction.cid = interaction.cid) then (0, tables)
  else
    let id := tables.lastInteraction + 1
    let interactions := tables.interactions ++ [⟨id, interaction⟩]
    (1, { tables with interactions, lastInteraction := id })

def insertAcknowledgement (cid : String) (tables : Tables) : Nat × Tables :=
  if cid ∈ tables.acknowledgements then (0, tables)
  else (1, { tables with acknowledgements := tables.acknowledgements ++ [cid] })

/-- Whether a row is one that `flagInteractions` changes. -/
def lacksFlag (cid : String) (row : InteractionRow) : Bool :=
  row.interaction.cid = cid ∧ row.interaction.acknowledged = false

def flagInteractions (cid : String) (tables : Tables) : Nat × Tables :=
  let flag := fun row : InteractionRow =>
    if lacksFlag cid row then
      { row with interaction := { row.interaction with acknowledged := true } }
    else row
  (tables.interactions.countP (lacksFlag cid),
    { tables with interactions := tables.interactions.map flag })

/-- Rows in the order of their ids. -/
def byId {ρ : Type} (id : ρ → Nat) (rows : List ρ) : List ρ :=
  rows.mergeSort fun a b => decide (id a ≤ id b)

/-- Runs a statement. -/
def run {α : Type} (statement : Statement α) (tables : Tables) : Except Error α × Tables :=
  if statement.texts.any holdsNul then (.error .database, tables)
  else match statement with
    | .insertAccount account =>
      (.ok (insertAccount account tables).1, (insertAccount account tables).2)
    | .selectAccount key => (.ok (tables.accounts.find? (·.key = key)), tables)
    | .insertConversation key type =>
      (.ok (insertConversation key type tables).1, (insertConversation key type tables).2)
    | .selectConversations =>
      (.ok ((byId (·.id) tables.conversations).map fun row => (row.key, row.type)), tables)
    | .insertMember member => (.ok (insertMember member tables).1, (insertMember member tables).2)
    | .selectMembers conversation =>
      (.ok ((tables.members.filter (·.conversation = conversation)).mergeSort Member.notAfter),
        tables)
    | .selectAcknowledgement cid => (.ok (tables.acknowledgements.find? (· = cid)), tables)
    | .insertInteraction interaction =>
      (.ok (insertInteraction interaction tables).1, (insertInteraction interaction tables).2)
    | .insertAcknowledgement cid =>
      (.ok (insertAcknowledgement cid tables).1, (insertAcknowledgement cid tables).2)
    | .flagInteractions cid =>
      (.ok (flagInteractions cid tables).1, (flagInteractions cid tables).2)
    | .selectInteractions conversation =>
      let rows := tables.interactions.filter (·.interaction.conversation = conversation)
      (.ok ((byId (·.id) rows).map (·.interaction)), tables)

end Tables

/-- A program of statements that ends in an answer or an error. -/
inductive Script : Type → Type 1 where
  | done {α : Type} (answer : Except Error α) : Script α
  | andThen {α β : Type} (statement : Statement β) (next : β → Script α) : Script α

namespace Script

/-- Runs the statements of a script one after the other; an error of one ends it. -/
def run {α : Type} : Script α → Tables → Except Error α × Tables
  | .done answer, tables => (answer, tables)
  | .andThen statement next, tables =>
    match Tables.run statement tables with
    | (.ok result, tables) => (next result).run tables
    | (.error e, tables) => (.error e, tables)

/-- A statement whose result is turned into the answer. -/
def of {α β : Type} (statement : Statement β) (answer : β → Except Error α) : Script α :=
  .andThen statement fun result => .done (answer result)

/-- The kinds of listed conversations are read from their texts, and the first unknown one fails. -/
def readConversations : List (String × String) → Except Error (List Conversation)
  | [] => .ok []
  | (key, text) :: rest =>
    match ConversationType.ofText? text with
    | none => .error (.unknownConversationType text)
    | some type => (readConversations rest).map (⟨key, type⟩ :: ·)

/-- Adding an interaction: unless it comes acknowledged, its acknowledgement is looked up first. -/
def addInteraction (interaction : Interaction) : Script Bool :=
  let insert := fun acknowledged =>
    of (.insertInteraction { interaction with acknowledged }) fun rows => .ok (decide (0 < rows))
  if interaction.acknowledged then insert true
  else .andThen (.selectAcknowledgement interaction.cid) fun found => insert found.isSome

/-- The script of an operation. -/
def ofOp {α : Type} : Op α → Script α
  | .ensureAccount key name => of (.insertAccount ⟨key, name⟩) fun rows => .ok (0 < rows)
  | .account key => of (.selectAccount key) .ok
  | .conversations => of .selectConversations readConversations
  | .addConversation conversation =>
    of (.insertConversation conversation.key conversation.type.text) fun rows => .ok (0 < rows)
  | .addMember member => of (.insertMember member) fun rows => .ok (0 < rows)
  | .members conversation => of (.selectMembers conversation) .ok
  | .addInteraction interaction => addInteraction interaction
  | .acknowledge cid =>
    .andThen (.insertAcknowledgement cid) fun _ =>
      of (.flagInteractions cid) fun rows => .ok (0 < rows)
  | .interactions conversation => of (.selectInteractions conversation) .ok

end Script

namespace Tables

/-- Performs an operation. -/
def perform {α : Type} (op : Op α) (tables : Tables) : Except Error α × Tables :=
  (Script.ofOp op).run tables

/-- Writes a row of conversations as it is, whatever its kind, unless the key is taken. -/
def insertRow (key type : String) (tables : Tables) : Except Error Unit × Tables :=
  match insertConversation key type tables with
  | (0, tables) => (.error .database, tables)
  | (_, tables) => (.ok (), tables)

instance : LocalStore Tables where
  perform := perform
  recorded _ := false

end Tables

end GroupReplay.Store
