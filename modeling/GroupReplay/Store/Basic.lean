import GroupReplay.Bytes

/-!
The local store of a messenger account: its records, the operations on them and what can go wrong.
Every `add` operation creates a record if it is absent and says whether it did, so that a log can be
read again without changing anything.  `LocalStore` is what the rest of the library asks of a store.
-/

namespace GroupReplay.Store

/-- The account whose groups are replayed. -/
structure Account where
  /-- Text form of the home group's key. -/
  key : String
  displayName : String
  deriving DecidableEq, Repr, Inhabited

/-- Kind of a conversation. -/
inductive ConversationType where
  | account
  | contact
  | multiMember
  deriving DecidableEq, Repr, Inhabited

namespace ConversationType

/-- The text under which a store keeps the kind. -/
def text : ConversationType → String
  | account => "account"
  | contact => "contact"
  | multiMember => "multi_member"

/-- The kind kept under a text. -/
def ofText? (text : String) : Option ConversationType :=
  if text = "account" then some account
  else if text = "contact" then some contact
  else if text = "multi_member" then some multiMember
  else none

theorem ofText?_text (type : ConversationType) : ofText? type.text = some type := by
  cases type <;> simp [ofText?, text]

/-- The kind's name as a variant. -/
def name : ConversationType → String
  | account => "Account"
  | contact => "Contact"
  | multiMember => "MultiMember"

end ConversationType

/-- A group that the account is a member of, the home group included. -/
structure Conversation where
  /-- Text form of the group's key. -/
  key : String
  type : ConversationType
  deriving DecidableEq, Repr, Inhabited

/-- A member's device, seen in the metadata log of a conversation. -/
structure Member where
  conversation : String
  member : String
  device : String
  deriving DecidableEq, Repr, Inhabited

/-- The order in which the members of a conversation are listed: by member and then by device,
both bytewise. -/
def Member.notAfter (a b : Member) : Bool :=
  if Bytes.before (.ofText a.member) (.ofText b.member) then true
  else if Bytes.before (.ofText b.member) (.ofText a.member) then false
  else !Bytes.before (.ofText b.device) (.ofText a.device)

/-- An application message, known by its content id. -/
structure Interaction where
  cid : String
  conversation : String
  device : String
  type : Int32
  payload : Bytes
  sentDate : Int64
  acknowledged : Bool
  deriving DecidableEq, Repr, Inhabited

/-- Why a store operation failed. -/
inductive Error where
  /-- The database refused a statement or could not be opened. -/
  | database
  /-- A stored conversation has a kind that no variant is kept under. -/
  | unknownConversationType (text : String)
  | unavailable (reason : String)
  deriving DecidableEq, Repr

/-- The wording of a store error.  What a database says is not part of it. -/
def Error.message : Error → String
  | .database => "Database error"
  | .unknownConversationType text => s!"Unknown conversation type: {text}"
  | .unavailable reason => s!"Store unavailable: {reason}"

/-- The operations on a store, each with the type of its answer. -/
inductive Op : Type → Type where
  /-- Creates the account if there is none of that key; a present one keeps its name. -/
  | ensureAccount (key displayName : String) : Op Bool
  | account (key : String) : Op (Option Account)
  /-- All conversations, in the order of their creation. -/
  | conversations : Op (List Conversation)
  | addConversation (conversation : Conversation) : Op Bool
  | addMember (member : Member) : Op Bool
  /-- The members of a conversation, sorted. -/
  | members (conversation : String) : Op (List Member)
  /-- Adds an interaction, acknowledged if its content id already is. -/
  | addInteraction (interaction : Interaction) : Op Bool
  /-- Acknowledges a content id, whether or not its interaction is stored yet, and says whether a
  stored interaction changed. -/
  | acknowledge (cid : String) : Op Bool
  /-- The interactions of a conversation, in the order of their creation. -/
  | interactions (conversation : String) : Op (List Interaction)

/-- A store of type `σ`: it performs operations, and may want the creation of accounts and the
listing of conversations to be recorded among the calls of a replay. -/
class LocalStore (σ : Type) where
  perform : {α : Type} → Op α → σ → Except Error α × σ
  recorded : σ → Bool

end GroupReplay.Store
