import GroupReplay.Projection.Desk

/-!
The handler that only records: it notes the messages it is handed, and fails at chosen positions.
An event that it refuses is neither noted nor counted.
-/

namespace GroupReplay.Projection

open Wire Store

variable {σ : Type}

/-- Notes a metadata event, unless it stands at the position to fail at. -/
def recordMetadata : Action (Desk σ) Error Unit := ⟨fun desk =>
  let notes := desk.recorder
  if notes.refuseMetadata = some notes.metadataSeen then
    (.error (.invalid .refusedMetadata), desk)
  else
    (.ok (), { desk with recorder.metadataSeen := notes.metadataSeen + 1 })⟩

/-- Notes a message, unless it stands at the position to fail at. -/
def recordMessage (message : AppMessage) : Action (Desk σ) Error Unit := ⟨fun desk =>
  let notes := desk.recorder
  if notes.refuseMessage = some notes.messagesSeen then
    (.error (.invalid .refusedMessage), desk)
  else
    (.ok (), { desk with
      recorder.messagesSeen := notes.messagesSeen + 1
      recorder.decoded := notes.decoded ++ [message] })⟩

/-- The recording handler. -/
def recording : Handler (Desk σ) where
  applyMetadata _ := recordMetadata
  applyMessage _ _ := recordMessage
  recorded := true

/-- Starts counting the positions of metadata events and messages anew. -/
def Recorder.restart (recorder : Recorder) : Recorder :=
  { recorder with metadataSeen := 0, messagesSeen := 0 }

end GroupReplay.Projection
