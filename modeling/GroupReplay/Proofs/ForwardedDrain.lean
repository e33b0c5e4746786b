import GroupReplay.Replay.Forwarding
import Mathlib.Logic.Relation

/-!
A drain whose listing is forwarded, over every interleaving of its pump, its reader and the caller
who may cancel.  What is handed over is always the beginning of the log; a drain that succeeds has
handed over all of a log that ended, so a listing that was cut off by a cancellation is never taken
for a complete one; and the pump runs ahead of the reader by no more than the channel holds and the
one item in its hand, and nearly stands still once nobody waits for it.
-/

namespace GroupReplay.Forwarding

variable {α : Type} {handling : Handling α} {source : Source α} {drain before after : Forwarding α}

namespace Source

/-- Entries that a log begins with. -/
def BeginsWith (source : Source α) (entries : List α) : Prop :=
  ∀ i < entries.length, source.item? i = entries[i]?.map Except.ok

/-- The first items of a log are entries, this many. -/
def Delivers (source : Source α) (count : Nat) : Prop :=
  ∀ i < count, ∃ entry, source.item? i = some (.ok entry)

/-- A log ends cleanly after a number of entries. -/
structure EndsAfter (source : Source α) (count : Nat) : Prop where
  ends : source.ends = true
  delivers : source.Delivers count
  none : ∀ i, count ≤ i → source.item? i = none

theorem BeginsWith.delivers {entries : List α} (begins : source.BeginsWith entries) :
    source.Delivers entries.length := fun i less =>
  ⟨entries[i], by rw [begins i less, List.getElem?_eq_getElem less]; rfl⟩

theorem BeginsWith.snoc {entries : List α} {entry : α} (begins : source.BeginsWith entries)
    (next : source.item? entries.length = some (.ok entry)) :
    source.BeginsWith (entries ++ [entry]) := by
  intro i less
  obtain earlier | rfl : i < entries.length ∨ i = entries.length := by
    rw [List.length_append, List.length_singleton] at less
    omega
  · rw [begins i earlier, List.getElem?_append_left earlier]
  · rw [next, List.getElem?_concat_length]
    rfl

theorem Delivers.succ {count : Nat} (delivers : source.Delivers count) {entry : α}
    (next : source.item? count = some (.ok entry)) : source.Delivers (count + 1) := by
  intro i less
  obtain earlier | rfl : i < count ∨ i = count := by omega
  · exact delivers i earlier
  · exact ⟨entry, next⟩

theorem none_from {count : Nat} (none : source.item? count = none) (i : Nat) (later : count ≤ i) :
    source.item? i = Option.none := by
  induction later with
  | refl => exact none
  | @step i _ ih => exact source.closed i ih

end Source

/-- Every entry was accepted, and the handler applied it. -/
def Handling.Applies (handling : Handling α) (entries : List α) : Prop :=
  ∀ before entry, before ++ [entry] <+: entries →
    handling.refusal? entry = none ∧ handling.answer (before ++ [entry]) = .ok ()

theorem Handling.Applies.nil : handling.Applies [] := by
  intro before entry begins
  simp at begins

theorem Handling.Applies.snoc {entries : List α} {entry : α} (applies : handling.Applies entries)
    (accepted : handling.refusal? entry = none)
    (applied : handling.answer (entries ++ [entry]) = .ok ()) :
    handling.Applies (entries ++ [entry]) := by
  intro earlier other begins
  obtain same | shorter := List.prefix_concat_iff.mp begins
  · obtain ⟨rfl, rfl⟩ := List.append_inj' same rfl |>.imp_right List.singleton_inj.mp
    exact ⟨accepted, applied⟩
  · exact applies earlier other shorter

/-! ### What holds at any time -/

/-- How many items the pump put into the channel, those included that were taken out. -/
def sent (drain : Forwarding α) : Nat := drain.taken + drain.channel.length

/-- What is known of a pump wherever it is. -/
def PumpKeeps (source : Source α) (drain : Forwarding α) : Prop :=
  match drain.pump with
  | .idle | .pulling => drain.pulled = drain.sent ∧ source.Delivers drain.sent
  | .holding item =>
    drain.pulled = drain.sent + 1 ∧ source.Delivers drain.sent ∧
      source.item? drain.sent = some item
  | .stopped .logEnded =>
    drain.pulled = drain.sent ∧ source.ends = true ∧ source.item? drain.sent = none
  | .stopped .failureForwarded =>
    drain.pulled = drain.sent ∧ ∃ n e, n + 1 = drain.sent ∧ source.item? n = some (.error e)
  | .stopped .cancelled => drain.pulled = drain.sent ∧ drain.scopeCancelled = true
  | .stopped .abandoned => drain.pulled = drain.sent + 1 ∧ drain.isAbandoned = true

/-- All entries that were taken were handed over and applied. -/
structure Settled (handling : Handling α) (handed : List α) (taken applied : Nat) : Prop where
  taken : taken = handed.length
  applied : applied = handed.length
  applies : handling.Applies handed

/-- What is known of a result: success means that nothing is left in a log that ended. -/
def ResultKeeps (handling : Handling α) (drain : Forwarding α) :
    Except Replay.DrainError Nat → Prop
  | .ok count =>
    Settled handling drain.handed drain.taken drain.applied ∧ count = drain.applied ∧
      drain.channel = [] ∧ drain.pump = .stopped .logEnded
  | .error _ => drain.taken = drain.handed.length ∨ drain.taken = drain.handed.length + 1

/-- What is known of a reader wherever it is. -/
def ReaderKeeps (handling : Handling α) (drain : Forwarding α) : Prop :=
  match drain.reader with
  | .idle | .receiving => Settled handling drain.handed drain.taken drain.applied
  | .handing =>
    ∃ earlier entry, drain.handed = earlier ++ [entry] ∧ drain.taken = earlier.length + 1 ∧
      drain.applied = earlier.length ∧ handling.Applies earlier ∧ handling.refusal? entry = none
  | .atEnd =>
    Settled handling drain.handed drain.taken drain.applied ∧ drain.channel = [] ∧
      ∃ reason, drain.pump = .stopped reason ∧ (reason = .logEnded ∨ drain.cancelled = true)
  | .leaving result | .gone result | .finished result => ResultKeeps handling drain result

/-- What holds of a drain at any time. -/
structure Keeps (handling : Handling α) (source : Source α) (drain : Forwarding α) : Prop where
  begins : source.BeginsWith drain.handed
  channel : ∀ i < drain.channel.length, source.item? (drain.taken + i) = drain.channel[i]?
  room : drain.channel.length ≤ capacity
  pump : PumpKeeps source drain
  reader : ReaderKeeps handling drain

theorem keeps_start : Keeps handling source start where
  begins := nofun
  channel := nofun
  room := Nat.zero_le _
  pump := ⟨rfl, nofun⟩
  reader := ⟨rfl, rfl, .nil⟩

/-! ### Steps of the pump -/

/-- A pump that is running is not what a reader at the end of the channel has met. -/
private theorem reader_of_pumped (keeps : ReaderKeeps handling before)
    (running : ∀ reason, before.pump ≠ .stopped reason) (reader : after.reader = before.reader)
    (taken : after.taken = before.taken) (handed : after.handed = before.handed)
    (applied : after.applied = before.applied) : ReaderKeeps handling after := by
  have result {result : Except Replay.DrainError Nat}
      (was : ResultKeeps handling before result) : ResultKeeps handling after result := by
    cases result with
    | ok count => exact absurd was.2.2.2 (running _)
    | error e =>
      rw [ResultKeeps, taken, handed]
      exact was
  unfold ReaderKeeps at keeps ⊢
  rw [reader]
  cases place : before.reader with
  | idle | receiving | handing =>
    rw [place] at keeps
    rw [handed, taken, applied]
    exact keeps
  | atEnd =>
    rw [place] at keeps
    obtain ⟨_, _, reason, stopped, _⟩ := keeps
    exact absurd stopped (running reason)
  | leaving | gone | finished =>
    rw [place] at keeps
    exact result keeps

/-- A step of the reader leaves the pump where it is. -/
private theorem pump_of_read (keeps : PumpKeeps source before) (pump : after.pump = before.pump)
    (pulled : after.pulled = before.pulled) (sent : after.sent = before.sent)
    (scope : before.scopeCancelled = true → after.scopeCancelled = true)
    (abandoned : before.isAbandoned = true → after.isAbandoned = true) :
    PumpKeeps source after := by
  unfold PumpKeeps at keeps ⊢
  rw [pump, pulled, sent]
  cases place : before.pump with
  | idle | pulling | holding item =>
    rw [place] at keeps
    exact keeps
  | stopped reason =>
    rw [place] at keeps
    cases reason with
    | logEnded | failureForwarded => exact keeps
    | cancelled => exact keeps.imp_right scope
    | abandoned => exact keeps.imp_right abandoned

/-- What is known of a result has nothing to do with where the reader is, nor with the token. -/
private theorem result_anywhere {result : Except Replay.DrainError Nat}
    (keeps : ResultKeeps handling before result) (reader : Reader) (cancelled : Bool) :
    ResultKeeps handling { before with reader, cancelled } result := by
  cases result <;> exact keeps

/-- As long as the reader holds the channel, only the caller can have cancelled. -/
private theorem scope_of_held (seen : before.scopeCancelled = true)
    (held : before.isAbandoned = false) (cancelled : after.cancelled = before.cancelled) :
    after.scopeCancelled = true := by
  have ongoing : before.isOver = false := by
    unfold isAbandoned at held
    unfold isOver
    split at held
    · cases held
    · cases held
    · next other => split <;> simp_all
  rw [scopeCancelled, ongoing, Bool.or_false] at seen
  rw [scopeCancelled, cancelled, seen, Bool.true_or]

namespace Keeps

/-- The reader turns to something else. -/
theorem turn (keeps : Keeps handling source before) (held : before.isAbandoned = false)
    {reader : Reader} {applied : Nat}
    (next : ReaderKeeps handling { before with reader, applied }) :
    Keeps handling source { before with reader, applied } where
  begins := keeps.begins
  channel := keeps.channel
  room := keeps.room
  pump := pump_of_read keeps.pump rfl rfl rfl (fun seen => scope_of_held seen held rfl)
    fun abandoned => absurd abandoned (by simp [held])
  reader := next

/-- The pump goes on and puts nothing into the channel. -/
theorem pump_on (keeps : Keeps handling source before)
    (running : ∀ reason, before.pump ≠ .stopped reason) {pump : Pump α} {pulled : Nat}
    (next : PumpKeeps source { before with pump, pulled }) :
    Keeps handling source { before with pump, pulled } where
  begins := keeps.begins
  channel := keeps.channel
  room := keeps.room
  pump := next
  reader := reader_of_pumped keeps.reader running rfl rfl rfl rfl

theorem send (keeps : Keeps handling source before) {item : Item α}
    (holding : before.pump = .holding item) (room : before.channel.length < capacity) :
    Keeps handling source
      { before with pump := .after item, channel := before.channel ++ [item] } := by
  have pump := keeps.pump
  rw [PumpKeeps, holding] at pump
  obtain ⟨pulled, delivers, next⟩ := pump
  have running (reason : Stop) : before.pump ≠ .stopped reason := by rw [holding]; nofun
  have more : sent { before with pump := .after item, channel := before.channel ++ [item] } =
      before.sent + 1 := by
    simp only [sent, List.length_append, List.length_singleton]
    omega
  refine ⟨keeps.begins, fun i less => ?_, ?_, ?_,
    reader_of_pumped keeps.reader running rfl rfl rfl rfl⟩
  · obtain earlier | rfl : i < before.channel.length ∨ i = before.channel.length := by
      rw [List.length_append, List.length_singleton] at less
      omega
    · rw [List.getElem?_append_left earlier]
      exact keeps.channel i earlier
    · rw [List.getElem?_concat_length]
      exact next
  · rw [List.length_append, List.length_singleton]
    exact room
  · cases item with
    | ok entry => exact ⟨pulled.trans more.symm, more ▸ delivers.succ next⟩
    | error e => exact ⟨pulled.trans more.symm, before.sent, e, more.symm, next⟩

/-- The reader takes an item. -/
theorem receive (keeps : Keeps handling source before) {item : Item α} {rest : List (Item α)}
    (receiving : before.reader = .receiving) (next : before.channel = item :: rest) :
    Keeps handling source
      (take handling { before with channel := rest, taken := before.taken + 1 } item) := by
  have settled := keeps.reader
  rw [ReaderKeeps, receiving] at settled
  have held : before.isAbandoned = false := by rw [isAbandoned, receiving]
  have first : source.item? before.taken = some item := by
    have there := keeps.channel 0 (by rw [next]; exact Nat.zero_lt_succ _)
    rwa [next] at there
  have others (i : Nat) (less : i < rest.length) :
      source.item? (before.taken + 1 + i) = rest[i]? := by
    have there := keeps.channel (i + 1) (by rw [next, List.length_cons]; omega)
    rw [next, List.getElem?_cons_succ] at there
    rw [← there]
    congr 1
    omega
  have room : rest.length ≤ capacity := by
    have room := keeps.room
    rw [next, List.length_cons] at room
    omega
  have sent : before.taken + 1 + rest.length = before.sent := by
    rw [Forwarding.sent, next, List.length_cons]
    omega
  have pump {reader : Reader} {handed : List α} : PumpKeeps source
      { before with channel := rest, taken := before.taken + 1, reader, handed } :=
    pump_of_read keeps.pump rfl rfl sent (fun seen => scope_of_held seen held rfl)
      fun abandoned => absurd abandoned (by simp [held])
  have onlyTaken : before.taken + 1 = before.handed.length + 1 := by rw [settled.taken]
  cases item with
  | error e => exact ⟨keeps.begins, others, room, pump, .inr onlyTaken⟩
  | ok entry =>
    rw [take]
    cases refused : handling.refusal? entry with
    | some e => exact ⟨keeps.begins, others, room, pump, .inr onlyTaken⟩
    | none =>
      rw [settled.taken] at first
      exact ⟨keeps.begins.snoc first, others, room, pump, before.handed, entry, rfl, onlyTaken,
        settled.applied, settled.applies, refused⟩

/-- The handler answers. -/
theorem hear (keeps : Keeps handling source before) (handing : before.reader = .handing) :
    Keeps handling source (before.heard (handling.answer before.handed)) := by
  have reader := keeps.reader
  rw [ReaderKeeps, handing] at reader
  obtain ⟨earlier, entry, handed, taken, applied, applies, accepted⟩ := reader
  have held : before.isAbandoned = false := by rw [isAbandoned, handing]
  have length : before.handed.length = earlier.length + 1 := by rw [handed]; simp
  cases answer : handling.answer before.handed with
  | ok _ =>
    refine keeps.turn held ⟨taken.trans length.symm, ?_, ?_⟩
    · exact (congrArg (· + 1) applied).trans length.symm
    · show handling.Applies before.handed
      rw [handed] at answer ⊢
      exact applies.snoc accepted answer
  | error e => exact keeps.turn held (.inl (taken.trans length.symm))

/-- The reader finds the channel closed: the pump saw the end of the log or the cancellation. -/
theorem close (keeps : Keeps handling source before) {reason : Stop}
    (receiving : before.reader = .receiving) (empty : before.channel = [])
    (stopped : before.pump = .stopped reason) :
    Keeps handling source { before with reader := .atEnd } := by
  have settled := keeps.reader
  rw [ReaderKeeps, receiving] at settled
  have pump := keeps.pump
  rw [PumpKeeps, stopped] at pump
  have held : before.isAbandoned = false := by rw [isAbandoned, receiving]
  have sent : before.sent = before.handed.length := by
    rw [Forwarding.sent, empty, settled.taken]
    rfl
  refine keeps.turn held ⟨settled, empty, reason, stopped,
    ?_⟩
  cases reason with
  | logEnded => exact .inl rfl
  | cancelled =>
    have seen := pump.2
    rw [scopeCancelled, isOver, receiving] at seen
    exact .inr (by simpa using seen)
  | failureForwarded =>
    -- The failure would have been taken out, but all that was taken was handed over.
    obtain ⟨_, n, e, last, failure⟩ := pump
    obtain ⟨entry, delivered⟩ := keeps.begins.delivers n (by omega)
    rw [failure] at delivered
    cases delivered
  | abandoned =>
    rw [held] at pump
    cases pump.2

/-- The caller cancels. -/
theorem cancel (keeps : Keeps handling source before) :
    Keeps handling source { before with cancelled := true } := by
  have reader := keeps.reader
  refine ⟨keeps.begins, keeps.channel, keeps.room,
    pump_of_read keeps.pump rfl rfl rfl (fun _ => rfl) fun abandoned => abandoned, ?_⟩
  unfold ReaderKeeps at reader ⊢
  dsimp only at reader ⊢
  cases place : before.reader with
  | idle | receiving | handing =>
    rw [place] at reader
    exact reader
  | atEnd =>
    rw [place] at reader
    obtain ⟨settled, empty, reason, stopped, _⟩ := reader
    exact ⟨settled, empty, reason, stopped, .inr rfl⟩
  | leaving | gone | finished =>
    rw [place] at reader
    exact result_anywhere reader _ true

/-- The reader returns. -/
theorem finish (keeps : Keeps handling source before) {result : Except Replay.DrainError Nat}
    (gone : before.reader = .gone result) :
    Keeps handling source { before with reader := .finished result } := by
  have reader := keeps.reader
  rw [ReaderKeeps, gone] at reader
  have scope : scopeCancelled { before with reader := .finished result } = true :=
    Bool.or_true before.cancelled
  exact ⟨keeps.begins, keeps.channel, keeps.room,
    pump_of_read keeps.pump rfl rfl rfl (fun _ => scope) fun _ => rfl,
    result_anywhere reader _ before.cancelled⟩

/-- Whatever happens next keeps what holds. -/
theorem step (keeps : Keeps handling source before) (step : Step handling source before after) :
    Keeps handling source after := by
  have pump := keeps.pump
  have reader := keeps.reader
  cases step with
  | cancel => exact keeps.cancel
  | pumpCancelled idle seen =>
    rw [PumpKeeps, idle] at pump
    exact keeps.pump_on (by rw [idle]; nofun) ⟨pump.1, seen⟩
  | look idle clear =>
    rw [PumpKeeps, idle] at pump
    exact keeps.pump_on (by rw [idle]; nofun) pump
  | retry pulling =>
    rw [PumpKeeps, pulling] at pump
    exact keeps.pump_on (by rw [pulling]; nofun) pump
  | pull item pulling next =>
    rw [PumpKeeps, pulling] at pump
    obtain ⟨pulled, delivers⟩ := pump
    rw [pulled] at next
    exact keeps.pump_on (by rw [pulling]; nofun) ⟨congrArg (· + 1) pulled, delivers, next⟩
  | logEnd pulling none ends =>
    rw [PumpKeeps, pulling] at pump
    obtain ⟨pulled, delivers⟩ := pump
    rw [pulled] at none
    exact keeps.pump_on (by rw [pulling]; nofun) ⟨pulled, ends, none⟩
  | send item holding room read => exact keeps.send holding room
  | abandon item holding unread =>
    rw [PumpKeeps, holding] at pump
    exact keeps.pump_on (by rw [holding]; nofun) ⟨pump.1, unread⟩
  | readerCancelled idle seen =>
    rw [ReaderKeeps, idle] at reader
    exact keeps.turn (by rw [isAbandoned, idle]) (.inl reader.taken)
  | listen idle clear =>
    rw [ReaderKeeps, idle] at reader
    exact keeps.turn (by rw [isAbandoned, idle]) reader
  | wait receiving =>
    rw [ReaderKeeps, receiving] at reader
    exact keeps.turn (by rw [isAbandoned, receiving]) reader
  | receive item rest receiving next => exact keeps.receive receiving next
  | hear handing => exact keeps.hear handing
  | close reason receiving empty stopped => exact keeps.close receiving empty stopped
  | endCancelled closed seen =>
    rw [ReaderKeeps, closed] at reader
    exact keeps.turn (by rw [isAbandoned, closed]) (.inl reader.1.taken)
  | complete closed clear =>
    rw [ReaderKeeps, closed] at reader
    obtain ⟨settled, empty, reason, stopped, either⟩ := reader
    obtain rfl : reason = .logEnded := either.resolve_right (by simp [clear])
    exact keeps.turn (by rw [isAbandoned, closed])
      ⟨settled, rfl, empty, stopped⟩
  | letGo result leaving =>
    rw [ReaderKeeps, leaving] at reader
    exact keeps.turn (by rw [isAbandoned, leaving]) (result_anywhere reader _ before.cancelled)
  | finish result gone => exact keeps.finish gone

end Keeps

/-! ### Runs -/

theorem Reachable.keeps (reachable : Reachable handling source drain) :
    Keeps handling source drain := by
  induction reachable with
  | start => exact keeps_start
  | step _ step ih => exact ih.step step

theorem Reachable.later (reachable : Reachable handling source before)
    (steps : Relation.ReflTransGen (Step handling source) before after) :
    Reachable handling source after := by
  induction steps with
  | refl => exact reachable
  | tail _ step ih => exact ih.step step

/-- A pump that stopped stays so. -/
theorem stopped_later {reason : Stop}
    (steps : Relation.ReflTransGen (Step handling source) before after)
    (stopped : before.pump = .stopped reason) : after.pump = .stopped reason := by
  induction steps with
  | refl => exact stopped
  | tail _ step ih =>
    cases step with
    | pumpCancelled idle | look idle => rw [idle] at ih; cases ih
    | retry pulling | pull _ pulling | logEnd pulling => rw [pulling] at ih; cases ih
    | send _ holding | abandon _ holding => rw [holding] at ih; cases ih
    | receive item =>
      unfold take
      split
      · exact ih
      · split <;> exact ih
    | hear =>
      unfold heard
      split <;> exact ih
    | _ => exact ih

namespace Keeps

/-- A drain that returned its success handed over the whole log, which ended. -/
theorem complete (keeps : Keeps handling source drain) {count : Nat}
    (returned : drain.reader = .finished (.ok count)) :
    source.EndsAfter count ∧ drain.handed.length = count ∧ drain.applied = count ∧
      handling.Applies drain.handed ∧ drain.pump = .stopped .logEnded := by
  have reader := keeps.reader
  rw [ReaderKeeps, returned] at reader
  obtain ⟨settled, rfl, empty, ended⟩ := reader
  have pump := keeps.pump
  rw [PumpKeeps, ended] at pump
  obtain ⟨_, ends, none⟩ := pump
  have all : drain.sent = drain.handed.length := by
    rw [sent, empty, settled.taken]
    rfl
  rw [all] at none
  rw [settled.applied]
  exact ⟨⟨ends, keeps.begins.delivers, Source.none_from none⟩, rfl, rfl, settled.applies, ended⟩

/-- What the pump pulled was put into the channel, but for an item that it has in hand. -/
theorem pulled_le (keeps : Keeps handling source drain) : drain.pulled ≤ drain.sent + 1 := by
  have pump := keeps.pump
  unfold PumpKeeps at pump
  split at pump
  all_goals
    obtain ⟨pulled, _⟩ := pump
    omega

/-- All that the reader took was handed over, but for a last item that was none or was refused. -/
theorem taken_bounds (keeps : Keeps handling source drain) :
    drain.handed.length ≤ drain.taken ∧ drain.taken ≤ drain.handed.length + 1 := by
  have result {result : Except Replay.DrainError Nat}
      (known : ResultKeeps handling drain result) :
      drain.handed.length ≤ drain.taken ∧ drain.taken ≤ drain.handed.length + 1 := by
    cases result with
    | ok count =>
      have taken := known.1.taken
      omega
    | error e =>
      unfold ResultKeeps at known
      omega
  have reader := keeps.reader
  unfold ReaderKeeps at reader
  split at reader
  · have taken := reader.taken
    omega
  · have taken := reader.taken
    omega
  · obtain ⟨earlier, entry, handed, taken, _⟩ := reader
    rw [handed, List.length_append, List.length_singleton]
    omega
  · have taken := reader.1.taken
    omega
  all_goals exact result reader

end Keeps

/-! ### Pumps that nobody waits for -/

/-- How far the pump gets if it looks at the token no more. -/
def reach (drain : Forwarding α) : Nat :=
  match drain.pump with
  | .pulling => drain.pulled + 1
  | _ => drain.pulled

theorem reach_bounds (drain : Forwarding α) :
    drain.pulled ≤ drain.reach ∧ drain.reach ≤ drain.pulled + 1 := by
  unfold reach
  split <;> omega

/-- A token that is cancelled stays so. -/
theorem scope_step (step : Step handling source before after)
    (seen : before.scopeCancelled = true) : after.scopeCancelled = true := by
  cases step with
  | cancel => rfl
  | readerCancelled place | listen place | wait place | endCancelled place | complete place =>
    exact scope_of_held seen (by rw [isAbandoned, place]) rfl
  | close _ receiving => exact scope_of_held seen (by rw [isAbandoned, receiving]) rfl
  | letGo _ leaving => exact scope_of_held seen (by rw [isAbandoned, leaving]) rfl
  | receive item _ receiving =>
    refine scope_of_held seen (by rw [isAbandoned, receiving]) ?_
    unfold take
    split
    · rfl
    · split <;> rfl
  | hear handing =>
    refine scope_of_held seen (by rw [isAbandoned, handing]) ?_
    unfold heard
    split <;> rfl
  | finish => exact Bool.or_true _
  | _ => exact seen

/-- Under a cancelled token the pump does not turn to the log again. -/
theorem reach_step (step : Step handling source before after)
    (seen : before.scopeCancelled = true) : after.reach ≤ before.reach := by
  cases step with
  | look _ clear =>
    rw [seen] at clear
    cases clear
  | pumpCancelled | abandon | retry | logEnd => exact (reach_bounds before).1
  | pull item pulling =>
    refine Nat.le_of_eq ?_
    simp only [reach, pulling]
  | send item holding =>
    refine Nat.le_of_eq ?_
    cases item <;> simp only [reach, holding, Pump.after]
  | receive item =>
    unfold take
    split
    · exact Nat.le_refl _
    · split <;> exact Nat.le_refl _
  | hear =>
    unfold heard
    split <;> exact Nat.le_refl _
  | _ => exact Nat.le_refl _

/-- Once the caller cancelled, or the drain returned, the pump pulls one more item at most. -/
theorem pulled_once_more (seen : before.scopeCancelled = true)
    (steps : Relation.ReflTransGen (Step handling source) before after) :
    after.pulled ≤ before.pulled + 1 := by
  have kept : after.scopeCancelled = true ∧ after.reach ≤ before.reach := by
    induction steps with
    | refl => exact ⟨seen, Nat.le_refl _⟩
    | tail _ step ih => exact ⟨scope_step step ih.1, Nat.le_trans (reach_step step ih.1) ih.2⟩
  calc after.pulled
    _ ≤ after.reach := (reach_bounds after).1
    _ ≤ before.reach := kept.2
    _ ≤ before.pulled + 1 := (reach_bounds before).2

/-! ### Drains at any time -/

/-- Whatever the log has and whoever moves next, at any time: the entries handed over are those that
the log begins with, none of them from behind a failure; success is returned only by a drain that
handed over all of a log that ended, every entry applied, and not in a run whose pump stopped for a
cancellation; once the caller cancelled, or the drain returned, the pump pulls one more item at most;
and it pulled no more items than the reader took, the channel holds and the pump has in hand. -/
theorem forwarded_drain (reachable : Reachable handling source drain) :
    source.BeginsWith drain.handed ∧
      (∀ n e, source.item? n = some (.error e) → drain.handed.length ≤ n) ∧
      (∀ count, drain.reader = .finished (.ok count) →
        source.EndsAfter count ∧ drain.handed.length = count ∧ drain.applied = count ∧
          handling.Applies drain.handed) ∧
      (drain.pump = .stopped .cancelled →
        ∀ later, Relation.ReflTransGen (Step handling source) drain later →
          ∀ count, later.reader ≠ .finished (.ok count)) ∧
      (drain.scopeCancelled = true →
        ∀ later, Relation.ReflTransGen (Step handling source) drain later →
          later.pulled ≤ drain.pulled + 1) ∧
      drain.pulled ≤ drain.taken + (capacity + 1) ∧
      drain.handed.length ≤ drain.taken ∧ drain.taken ≤ drain.handed.length + 1 := by
  have keeps := reachable.keeps
  refine ⟨keeps.begins, fun n e failure => ?_, fun count returned => ?_,
    fun stopped later steps count returned => ?_, fun seen later => pulled_once_more seen, ?_,
    keeps.taken_bounds⟩
  · refine Nat.le_of_not_lt fun before => ?_
    obtain ⟨entry, delivered⟩ := keeps.begins.delivers n before
    rw [failure] at delivered
    cases delivered
  · obtain ⟨ends, handed, applied, applies, _⟩ := keeps.complete returned
    exact ⟨ends, handed, applied, applies⟩
  · obtain ⟨_, _, _, _, ended⟩ := (reachable.later steps).keeps.complete returned
    rw [stopped_later steps stopped] at ended
    cases ended
  · have pulled := keeps.pulled_le
    have room := keeps.room
    rw [sent] at pulled
    omega

/-- A handler that takes every entry. -/
def welcoming : Handling α where
  refusal? _ := none
  answer _ := .ok ()

/-- A drain that returned once a log of one entry was read to its end. -/
def wholeLog : Forwarding Nat where
  pulled := 1
  pump := .stopped .logEnded
  taken := 1
  reader := .finished (.ok 1)
  handed := [7]
  applied := 1

theorem wholeLog_reachable : Reachable welcoming (.ofItems [.ok 7] true) wholeLog := by
  have begun : Reachable welcoming (.ofItems [.ok 7] true) (start : Forwarding Nat) := .start
  have sent := ((begun.step (.look _ rfl rfl)).step (.pull _ (.ok 7) rfl rfl)).step
    (.send _ (.ok 7) rfl (by decide) rfl)
  have ended := (sent.step (.look _ rfl rfl)).step (.logEnd _ rfl rfl rfl)
  have applied := ((ended.step (.listen _ rfl rfl)).step (.receive _ (.ok 7) [] rfl rfl)).step
    (.hear _ rfl)
  have closed := ((applied.step (.listen _ rfl rfl)).step (.close _ .logEnded rfl rfl rfl)).step
    (.complete _ rfl rfl)
  exact (closed.step (.letGo _ (.ok 1) rfl)).step (.finish _ (.ok 1) rfl)

/-- A drain whose pump saw a cancellation behind the only entry of the log. -/
def cutOff : Forwarding Nat where
  pulled := 1
  pump := .stopped .cancelled
  channel := [.ok 7]
  cancelled := true

theorem cutOff_reachable : Reachable welcoming (.ofItems [.ok 7] true) cutOff := by
  have begun : Reachable welcoming (.ofItems [.ok 7] true) (start : Forwarding Nat) := .start
  have sent := ((begun.step (.look _ rfl rfl)).step (.pull _ (.ok 7) rfl rfl)).step
    (.send _ (.ok 7) rfl (by decide) rfl)
  exact (sent.step (.cancel _)).step (.pumpCancelled _ rfl rfl)

/-- A log that is read to its end, and one that is cut off right before. -/
theorem single_entry_forwarded :
    (Source.EndsAfter (.ofItems [.ok 7] true) 1 ∧ wholeLog.handed.length = 1 ∧
        wholeLog.applied = 1 ∧ welcoming.Applies wholeLog.handed) ∧
      ∀ later, Relation.ReflTransGen (Step welcoming (.ofItems [.ok 7] true)) cutOff later →
        (∀ count, later.reader ≠ .finished (.ok count)) ∧ later.pulled ≤ 2 := by
  obtain ⟨_, _, complete, _⟩ := forwarded_drain wholeLog_reachable
  obtain ⟨_, _, _, cancelled, once, _⟩ := forwarded_drain cutOff_reachable
  exact ⟨complete 1 rfl, fun later steps => ⟨cancelled rfl later steps, once rfl later steps⟩⟩

end GroupReplay.Forwarding
