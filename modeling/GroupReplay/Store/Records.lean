import GroupReplay.Store.Basic

/-!
A store that keeps its records in memory, in the order of their creation.  It can be told to
reject writes or the listing of conversations.
-/

namespace GroupReplay.Store

/-- Records in memory. -/
structure Records where
  accounts : List Account := []
  conversations : List Conversation := []
  members : List Member := []
  interactions : List Interaction := []
  /-- Every acknowledged content id, its interaction stored or not. -/
  acknowledged : List String := []
  rejectsWrites : Bool := false
  rejectsLists : Bool := false
  /-- Whether accounts created and conversations listed are recorded as calls. -/
  recorded : Bool := false
  deriving DecidableEq, Repr, Inhabited

namespace Records

/-- The first interaction of a content id that is not acknowledged becomes so. -/
def acknowledgeFirst (cid : String) : List Interaction → List Interaction
  | [] => []
  | i :: rest =>
    if i.cid = cid ∧ i.acknowledged = false then { i with acknowledged := true } :: rest
    else i :: acknowledgeFirst cid rest

/-- A write, unless writes are rejected. -/
def write {α : Type} (records : Records) (change : Records → α × Records) :
    Except Error α × Records :=
  if records.rejectsWrites then (.error (.unavailable "write rejected"), records)
  else (.ok (change records).1, (change records).2)

def ensureAccount (key displayName : String) (records : Records) : Bool × Records :=
  if records.accounts.any (·.key = key) then (false, records)
  else (true, { records with accounts := records.accounts ++ [⟨key, displayName⟩] })

def addConversation (conversation : Conversation) (records : Records) : Bool × Records :=
  if records.conversations.any (·.key = conversation.key) then (false, records)
  else (true, { records with conversations := records.conversations ++ [conversation] })

def addMember (member : Member) (records : Records) : Bool × Records :=
  if member ∈ records.members then (false, records)
  else (true, { records with members := records.members ++ [member] })

def addInteraction (interaction : Interaction) (records : Records) : Bool × Records :=
  if records.interactions.any (·.cid = interaction.cid) then (false, records)
  else
    let acknowledged := interaction.acknowledged || decide (interaction.cid ∈ records.acknowledged)
    let interactions := records.interactions ++ [{ interaction with acknowledged }]
    (true, { records with interactions })

def acknowledge (cid : String) (records : Records) : Bool × Records :=
  let changes := records.interactions.any fun i => i.cid = cid ∧ i.acknowledged = false
  let interactions := acknowledgeFirst cid records.interactions
  let acknowledged :=
    if cid ∈ records.acknowledged then records.acknowledged else records.acknowledged ++ [cid]
  (changes, { records with interactions, acknowledged })

/-- Performs an operation. -/
def perform {α : Type} (op : Op α) (records : Records) : Except Error α × Records :=
  match op with
  | .ensureAccount key name => records.write (ensureAccount key name)
  | .account key => (.ok (records.accounts.find? (·.key = key)), records)
  | .conversations =>
    if records.rejectsLists then (.error (.unavailable "list rejected"), records)
    else (.ok records.conversations, records)
  | .addConversation conversation => records.write (addConversation conversation)
  | .addMember member => records.write (addMember member)
  | .members conversation =>
    (.ok ((records.members.filter (·.conversation = conversation)).mergeSort Member.notAfter),
      records)
  | .addInteraction interaction => records.write (addInteraction interaction)
  | .acknowledge cid => records.write (acknowledge cid)
  | .interactions conversation =>
    (.ok (records.interactions.filter (·.conversation = conversation)), records)

instance : LocalStore Records where
  perform := perform
  recorded := recorded

end Records

end GroupReplay.Store
