import GroupReplay.Service.Error
import GroupReplay.Token

/-!
Group logs as the service holds them and listings as a reader meets them: entries in order, and
what comes after the last one.
-/

namespace GroupReplay.Service

/-- What a log does once its entries are read. -/
inductive LogEnd where
  | complete
  /-- Fails after this many entries, or after all of them if there are fewer. -/
  | failAfter (count : Nat)
  /-- Stays open. -/
  | hang
  deriving DecidableEq, Repr

/-- A log that the service holds. -/
structure Log (α : Type) where
  entries : List α := []
  logEnd : LogEnd := .complete
  deriving DecidableEq, Repr

/-- What a reader meets after the last entry of a listing. -/
inductive Ending where
  | complete
  | fails (status : Status)
  /-- Nothing, for ever. -/
  | hangs
  deriving DecidableEq, Repr

/-- A log as a reader meets it. -/
structure Listing (α : Type) where
  entries : List α
  ending : Ending
  deriving DecidableEq, Repr

/-- The status of a log that breaks off. -/
def logUnavailable : Status := ⟨.unavailable, "log store unavailable"⟩

/-- A log as it is listed from its start. -/
def Log.listing {α : Type} (log : Log α) : Listing α :=
  match log.logEnd with
  | .complete => ⟨log.entries, .complete⟩
  | .failAfter count => ⟨log.entries.take count, .fails logUnavailable⟩
  | .hang => ⟨log.entries, .hangs⟩

/-- The items that a listing delivers to a reader: its entries, and the failure after them. -/
def Listing.items {α : Type} (listing : Listing α) : List (Except Error α) :=
  listing.entries.map .ok ++
    match listing.ending with
    | .fails status => [.error (.status status)]
    | .complete | .hangs => []

/-- The items that a listing delivers under a token: none if it is cancelled before the first. -/
def Listing.itemsUnder {α : Type} (token : Token) (listing : Listing α) : List (Except Error α) :=
  if token.cancelled then [] else listing.items

end GroupReplay.Service
