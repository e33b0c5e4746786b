/-!
Cancellation tokens.  A token is cancelled from the start or as soon as a run has got as far as a
given point, and stays cancelled.
-/

namespace GroupReplay

/-- How far a run has got. -/
structure Progress where
  /-- Log listings that were opened. -/
  listings : Nat := 0
  /-- Events that were handed to a handler, failed ones included. -/
  applies : Nat := 0
  deriving DecidableEq, Repr

/-- A cancellation token. -/
structure Token where
  cancelled : Bool := false
  progress : Progress := {}
  /-- The points at which the token is cancelled. -/
  due : Progress → Bool := fun _ => false

namespace Token

/-- A token that is never cancelled. -/
def never : Token := {}

/-- A token that is cancelled from the start. -/
def fired : Token := { cancelled := true }

/-- A token that is cancelled right after a number of events were handed over. -/
def afterApplies (count : Nat) : Token := { due := fun progress => count ≤ progress.applies }

/-- A token that is cancelled once a number of listings were opened. -/
def afterListings (count : Nat) : Token := { due := fun progress => count ≤ progress.listings }

/-- The token when the run has got further. -/
def advance (token : Token) (progress : Progress) : Token :=
  { token with progress, cancelled := token.cancelled || token.due progress }

/-- The token after another listing was opened. -/
def listed (token : Token) : Token :=
  token.advance { token.progress with listings := token.progress.listings + 1 }

/-- The token after another event was handed over. -/
def applied (token : Token) : Token :=
  token.advance { token.progress with applies := token.progress.applies + 1 }

end Token

end GroupReplay
