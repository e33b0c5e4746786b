import GroupReplay.Wire.Declared

/-!
Log entries built from what they say.
-/

namespace GroupReplay.Wire

/-- A metadata log entry of a group, with a payload and without a signature. -/
def MetadataEvent.of {α : Type} [Message α] (group id : Bytes) (eventType : Int32) (payload : α) :
    MetadataEvent where
  context := some { id, group }
  metadata := some { eventType }
  event := Message.encode payload

/-- A message log entry of a group that carries an encoded envelope. -/
def MessageEvent.carrying (group id device message : Bytes) : MessageEvent where
  context := some { id, group }
  headers := some { deviceKey := device }
  message := message

/-- A message log entry with an envelope. -/
def MessageEvent.of (group id device : Bytes) (message : AppMessage) : MessageEvent :=
  .carrying group id device (Message.encode message)

/-- The date that built text messages bear. -/
def textDate : Int64 := 1704067200000

/-- The date that built acknowledgements bear. -/
def acknowledgeDate : Int64 := 1704067200500

/-- A message log entry with a text. -/
def MessageEvent.text (group id device : Bytes) (body : String) : MessageEvent :=
  .of group id device
    { type := AppMessageType.userMessage.number
      payload := Message.encode ({ body } : UserMessage)
      sentDate := textDate }

/-- A message log entry that acknowledges a content id. -/
def MessageEvent.acknowledging (group id device : Bytes) (target : String) : MessageEvent :=
  .of group id device
    { type := AppMessageType.acknowledge.number, sentDate := acknowledgeDate, target }

end GroupReplay.Wire
