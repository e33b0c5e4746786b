import GroupReplay.Replay.Drain

/-!
A drain whose listing is forwarded by a task of its own.  The task, the pump, pulls items from the
log and puts them into a channel that holds a limited number; the reader takes them out and hands
entries over.  The caller may cancel at any moment.  `Step` says what either of them, or the
caller, can do next; a run is any sequence of steps from `Forwarding.start`.

Pump and reader look at the token before they go on, and it may be cancelled right after they
looked.  A reader that is through gives up its end of the channel before it cancels what is left of
the drain.
-/

namespace GroupReplay

namespace Forwarding

/-- An item of a log: an entry, or the failure that the log breaks off with. -/
abbrev Item (α : Type) := Except Service.Error α

/-- A log as the pump meets it: its items in their order, which may go on for ever. -/
structure Source (α : Type) where
  item? : Nat → Option (Item α)
  /-- Behind the last item there is none. -/
  closed : ∀ n, item? n = none → item? (n + 1) = none
  /-- Whether the log ends after its items, and does not stay open. -/
  ends : Bool

/-- A log of a number of items. -/
def Source.ofItems {α : Type} (items : List (Item α)) (ends : Bool) : Source α where
  item? n := items[n]?
  closed n none := by
    rw [List.getElem?_eq_none_iff] at *
    omega
  ends := ends

/-- How many items the channel holds. -/
def capacity : Nat := 32

/-- Why the pump stopped. -/
inductive Stop where
  /-- The log came to its end. -/
  | logEnded
  /-- It put a failure into the channel. -/
  | failureForwarded
  | cancelled
  /-- Nobody reads any more. -/
  | abandoned
  deriving DecidableEq, Repr

/-- Where the pump is. -/
inductive Pump (α : Type) where
  | idle
  /-- It looked at the token and waits for the log. -/
  | pulling
  /-- It waits for room in the channel. -/
  | holding (item : Item α)
  | stopped (reason : Stop)

/-- Where the reader is. -/
inductive Reader where
  | idle
  /-- It looked at the token and waits for the channel. -/
  | receiving
  /-- The handler has the last entry that was handed over. -/
  | handing
  /-- The channel is closed. -/
  | atEnd
  /-- It knows its result and still holds the channel. -/
  | leaving (result : Except Replay.DrainError Nat)
  /-- It let go of the channel. -/
  | gone (result : Except Replay.DrainError Nat)
  | finished (result : Except Replay.DrainError Nat)

/-- What becomes of an entry that the reader took out of the channel. -/
structure Handling (α : Type) where
  /-- Why an entry is refused before it is handed over. -/
  refusal? : α → Option Replay.DrainError
  /-- What the handler says to the last of the entries that it was handed. -/
  answer : List α → Except Replay.DrainError Unit

end Forwarding

open Forwarding

/-- A drain whose listing is forwarded. -/
structure Forwarding (α : Type) where
  /-- How many items of the log the pump pulled. -/
  pulled : Nat := 0
  pump : Pump α := .idle
  channel : List (Item α) := []
  /-- How many items the reader took out of the channel. -/
  taken : Nat := 0
  reader : Reader := .idle
  /-- The entries that were handed over, in order, the one that failed included. -/
  handed : List α := []
  /-- How many of them the handler applied. -/
  applied : Nat := 0
  /-- Whether the caller cancelled. -/
  cancelled : Bool := false

namespace Forwarding

variable {α : Type}

/-- A drain before its first step. -/
def start : Forwarding α := {}

/-- Whether the reader let go of its end of the channel. -/
def isAbandoned (drain : Forwarding α) : Bool :=
  match drain.reader with
  | .gone _ | .finished _ => true
  | _ => false

/-- Whether the reader is done. -/
def isOver (drain : Forwarding α) : Bool :=
  match drain.reader with
  | .finished _ => true
  | _ => false

/-- Whether the drain's own token is cancelled: the caller cancelled, or the reader is done. -/
def scopeCancelled (drain : Forwarding α) : Bool := drain.cancelled || drain.isOver

/-- Where the pump is after it put an item into the channel. -/
def Pump.after : Item α → Pump α
  | .ok _ => .idle
  | .error _ => .stopped .failureForwarded

/-- The drain once its reader knows its result. -/
def leave (drain : Forwarding α) (result : Except Replay.DrainError Nat) : Forwarding α :=
  { drain with reader := .leaving result }

/-- The drain once its reader saw that it is cancelled. -/
def abort (drain : Forwarding α) : Forwarding α := drain.leave (.error (.listing .cancelled))

/-- The drain once its reader turned to an item that it took out of the channel. -/
def take (handling : Handling α) (drain : Forwarding α) : Item α → Forwarding α
  | .error e => drain.leave (.error (.listing e))
  | .ok entry =>
    match handling.refusal? entry with
    | some e => drain.leave (.error e)
    | none => { drain with handed := drain.handed ++ [entry], reader := .handing }

/-- The drain once the handler answered. -/
def heard (drain : Forwarding α) : Except Replay.DrainError Unit → Forwarding α
  | .ok () => { drain with applied := drain.applied + 1, reader := .idle }
  | .error e => drain.leave (.error e)

/-- What can happen next. -/
inductive Step (handling : Handling α) (source : Source α) :
    Forwarding α → Forwarding α → Prop where
  /-- The caller cancels. -/
  | cancel (drain : Forwarding α) : Step handling source drain { drain with cancelled := true }
  /-- The pump sees that the drain is cancelled. -/
  | pumpCancelled (drain : Forwarding α) (idle : drain.pump = .idle)
      (seen : drain.scopeCancelled = true) :
      Step handling source drain { drain with pump := .stopped .cancelled }
  /-- The pump turns to the log. -/
  | look (drain : Forwarding α) (idle : drain.pump = .idle) (clear : drain.scopeCancelled = false) :
      Step handling source drain { drain with pump := .pulling }
  /-- The log has nothing for the pump yet, which looks again. -/
  | retry (drain : Forwarding α) (pulling : drain.pump = .pulling) :
      Step handling source drain { drain with pump := .idle }
  /-- The pump pulls an item. -/
  | pull (drain : Forwarding α) (item : Item α) (pulling : drain.pump = .pulling)
      (next : source.item? drain.pulled = some item) :
      Step handling source drain { drain with pump := .holding item, pulled := drain.pulled + 1 }
  /-- The pump meets the end of the log. -/
  | logEnd (drain : Forwarding α) (pulling : drain.pump = .pulling)
      (none : source.item? drain.pulled = none) (ends : source.ends = true) :
      Step handling source drain { drain with pump := .stopped .logEnded }
  /-- The pump puts an item into the channel. -/
  | send (drain : Forwarding α) (item : Item α) (holding : drain.pump = .holding item)
      (room : drain.channel.length < capacity) (read : drain.isAbandoned = false) :
      Step handling source drain
        { drain with pump := .after item, channel := drain.channel ++ [item] }
  /-- The pump finds that nobody reads. -/
  | abandon (drain : Forwarding α) (item : Item α) (holding : drain.pump = .holding item)
      (unread : drain.isAbandoned = true) :
      Step handling source drain { drain with pump := .stopped .abandoned }
  /-- The reader sees that the drain is cancelled. -/
  | readerCancelled (drain : Forwarding α) (idle : drain.reader = .idle)
      (seen : drain.cancelled = true) : Step handling source drain drain.abort
  /-- The reader turns to the channel. -/
  | listen (drain : Forwarding α) (idle : drain.reader = .idle)
      (clear : drain.cancelled = false) :
      Step handling source drain { drain with reader := .receiving }
  /-- The channel has nothing for the reader yet, which looks again. -/
  | wait (drain : Forwarding α) (receiving : drain.reader = .receiving) :
      Step handling source drain { drain with reader := .idle }
  /-- The reader takes an item. -/
  | receive (drain : Forwarding α) (item : Item α) (rest : List (Item α))
      (receiving : drain.reader = .receiving) (next : drain.channel = item :: rest) :
      Step handling source drain
        (take handling { drain with channel := rest, taken := drain.taken + 1 } item)
  /-- The handler answers. -/
  | hear (drain : Forwarding α) (handing : drain.reader = .handing) :
      Step handling source drain (drain.heard (handling.answer drain.handed))
  /-- The reader finds the channel closed. -/
  | close (drain : Forwarding α) (reason : Stop) (receiving : drain.reader = .receiving)
      (empty : drain.channel = []) (stopped : drain.pump = .stopped reason) :
      Step handling source drain { drain with reader := .atEnd }
  /-- The reader takes an end after a cancellation for one. -/
  | endCancelled (drain : Forwarding α) (closed : drain.reader = .atEnd)
      (seen : drain.cancelled = true) : Step handling source drain drain.abort
  /-- The reader takes an end for the end of the log. -/
  | complete (drain : Forwarding α) (closed : drain.reader = .atEnd)
      (clear : drain.cancelled = false) :
      Step handling source drain (drain.leave (.ok drain.applied))
  /-- The reader lets go of the channel. -/
  | letGo (drain : Forwarding α) (result : Except Replay.DrainError Nat)
      (leaving : drain.reader = .leaving result) :
      Step handling source drain { drain with reader := .gone result }
  /-- The reader returns, and with it the drain's own token is cancelled. -/
  | finish (drain : Forwarding α) (result : Except Replay.DrainError Nat)
      (gone : drain.reader = .gone result) :
      Step handling source drain { drain with reader := .finished result }

/-- The drains that a run can get to. -/
inductive Reachable (handling : Handling α) (source : Source α) : Forwarding α → Prop where
  | start : Reachable handling source start
  | step {before after : Forwarding α} (reachable : Reachable handling source before)
      (step : Step handling source before after) : Reachable handling source after

end Forwarding

end GroupReplay
