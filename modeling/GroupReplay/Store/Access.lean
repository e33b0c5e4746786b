import GroupReplay.Action
import GroupReplay.Store.Basic

/-!
Actions on a store, and what a store holds for an account as a whole.
-/

namespace GroupReplay.Store

variable {σ α : Type} [LocalStore σ]

/-- Performs an operation. -/
def perform (op : Op α) : Action σ Error α := ⟨LocalStore.perform op⟩

/-- What a store holds for a conversation. -/
structure ConversationRecords where
  conversation : Conversation
  members : List Member
  interactions : List Interaction
  deriving DecidableEq, Repr

/-- What a store holds: the record of an account, and all conversations in their order. -/
structure Snapshot where
  account : Option Account
  conversations : List ConversationRecords
  deriving DecidableEq, Repr

/-- What is held for conversations, one after the other. -/
def recordsOf : List Conversation → Action σ Error (List ConversationRecords)
  | [] => pure []
  | conversation :: rest => do
    let members ← perform (.members conversation.key)
    let interactions ← perform (.interactions conversation.key)
    let more ← recordsOf rest
    return ⟨conversation, members, interactions⟩ :: more

/-- Reads what a store holds; `account` is the text form of the home group's key. -/
def snapshot (account : String) : Action σ Error Snapshot := do
  let account ← perform (.account account)
  let conversations ← perform .conversations
  let conversations ← recordsOf conversations
  return { account, conversations }

end GroupReplay.Store
