import GroupReplay.Projection.Basic

/-!
A desk: a store together with the notices of its changes and the notes of a recording handler.  It
is the local side that both handlers of this library work on.
-/

namespace GroupReplay.Projection

open Wire Store

/-- The notes of a recording handler. -/
structure Recorder where
  /-- The position of the metadata event to fail at, counted from zero over all groups. -/
  refuseMetadata : Option Nat := none
  /-- The position of the message to fail at, counted likewise. -/
  refuseMessage : Option Nat := none
  metadataSeen : Nat := 0
  messagesSeen : Nat := 0
  /-- The messages that were applied, in order. -/
  decoded : List AppMessage := []
  deriving DecidableEq, Repr

/-- A store of type `σ`, the notices of its changes and the notes of a recording handler. -/
structure Desk (σ : Type) where
  store : σ
  notices : List Notice := []
  recorder : Recorder := {}
  deriving Repr

namespace Desk

variable {σ : Type} [LocalStore σ]

instance : LocalStore (Desk σ) where
  perform op desk :=
    match LocalStore.perform op desk.store with
    | (answer, store) => (answer, { desk with store })
  recorded desk := LocalStore.recorded desk.store

/-- Performs a store operation. -/
def perform {α : Type} (op : Op α) : Action (Desk σ) Error α :=
  .mapError .storage (Store.perform op)

/-- Announces a change. -/
def announce (notice : Notice) : Action (Desk σ) Error Unit :=
  .modify fun desk => { desk with notices := desk.notices ++ [notice] }

end Desk

end GroupReplay.Projection
