import GroupReplay.Proofs.CarryOut
import GroupReplay.Proofs.ForwardedDrain
import Mathlib.Data.List.Induction

/-!
Forwarded drains and the drains of a replay, which hand a listing over entry by entry.  If nobody
cancels, the interleaving of pump and reader makes no difference: a forwarded drain that returns
has handed over what the drain of the replay hands over and returns the same, and whatever the
drain of the replay returns a forwarded drain can return.
-/

namespace GroupReplay.Forwarding

open Service Wire Projection
open Replay (DrainError drainEntries)

variable {α : Type}

/-! ### Why a drain fails -/

section Causes

variable {handling : Handling α} {source : Source α} {drain : Forwarding α}

/-- The result that a reader knows. -/
def Reader.result? : Reader → Option (Except DrainError Nat)
  | leaving result | gone result | finished result => some result
  | _ => none

/-- Why a drain fails that nobody cancels, once these entries were handed over. -/
inductive Cause (handling : Handling α) (source : Source α) : List α → DrainError → Prop where
  /-- The log breaks off behind them. -/
  | broken {handed : List α} {e : Service.Error} (applies : handling.Applies handed)
      (next : source.item? handed.length = some (.error e)) :
      Cause handling source handed (.listing e)
  /-- The entry behind them is refused. -/
  | refused {handed : List α} {entry : α} {e : DrainError} (applies : handling.Applies handed)
      (next : source.item? handed.length = some (.ok entry))
      (refusal : handling.refusal? entry = some e) : Cause handling source handed e
  /-- The handler fails at the last of them. -/
  | failed {earlier : List α} {entry : α} {e : DrainError} (applies : handling.Applies earlier)
      (accepted : handling.refusal? entry = none)
      (answer : handling.answer (earlier ++ [entry]) = .error e) :
      Cause handling source (earlier ++ [entry]) e

/-- The item that the reader takes is the one behind the entries that were handed over. -/
private theorem next_taken (keeps : Keeps handling source drain) {item : Item α}
    {rest : List (Item α)} (receiving : drain.reader = .receiving)
    (next : drain.channel = item :: rest) :
    source.item? drain.handed.length = some item ∧ handling.Applies drain.handed := by
  have settled := keeps.reader
  rw [ReaderKeeps, receiving] at settled
  have there := keeps.channel 0 (by rw [next]; exact Nat.zero_lt_succ _)
  rw [next, settled.taken] at there
  exact ⟨there, settled.applies⟩

/-- A drain that nobody cancelled fails for a cause. -/
theorem Reachable.cause (reachable : Reachable handling source drain) {e : DrainError}
    (result : drain.reader.result? = some (.error e)) (uncancelled : drain.cancelled = false) :
    Cause handling source drain.handed e := by
  induction reachable with
  | start => cases result
  | @step before after reachable step ih =>
    cases step with
    | cancel => cases uncancelled
    | readerCancelled _ seen | endCancelled _ seen => cases seen.symm.trans uncancelled
    | receive item rest receiving next =>
      obtain ⟨first, applies⟩ := next_taken reachable.keeps receiving next
      cases item with
      | error failure =>
        cases result
        exact .broken applies first
      | ok entry =>
        rw [take] at result ⊢
        cases refusal : handling.refusal? entry with
        | none =>
          rw [refusal] at result
          cases result
        | some refused =>
          rw [refusal] at result
          cases result
          exact .refused applies first refusal
    | hear handing =>
      have reader := reachable.keeps.reader
      rw [ReaderKeeps, handing] at reader
      obtain ⟨earlier, entry, handed, _, _, applies, accepted⟩ := reader
      cases answer : handling.answer before.handed with
      | ok _ =>
        rw [answer] at result
        cases result
      | error failure =>
        rw [answer] at result
        cases result
        rw [handed] at answer
        have caused : Cause handling source (earlier ++ [entry]) e :=
          .failed applies accepted answer
        rw [← handed] at caused
        exact caused
    | complete | listen | wait | close => cases result
    | letGo known leaving => exact ih (by rw [leaving]; exact result) uncancelled
    | finish known gone => exact ih (by rw [gone]; exact result) uncancelled
    | _ => exact ih result uncancelled

end Causes

/-! ### A schedule for every outcome -/

section Schedules

variable {handling : Handling α} {source : Source α} {handed : List α}

theorem Handling.Applies.of_snoc {before : List α} {entry : α}
    (applies : handling.Applies (before ++ [entry])) :
    handling.Applies before ∧ handling.refusal? entry = none ∧
      handling.answer (before ++ [entry]) = .ok () :=
  ⟨fun earlier other begins => applies earlier other (begins.trans (List.prefix_append _ _)),
    applies before entry List.prefix_rfl⟩

theorem Source.BeginsWith.of_snoc {before : List α} {entry : α}
    (begins : source.BeginsWith (before ++ [entry])) :
    source.BeginsWith before ∧ source.item? before.length = some (.ok entry) := by
  have length : (before ++ [entry]).length = before.length + 1 := by simp
  refine ⟨fun i less => ?_, ?_⟩
  · rw [begins i (by omega), List.getElem?_append_left less]
  · rw [begins before.length (by omega), List.getElem?_concat_length]
    rfl

/-- A drain between two entries: these were applied, and nothing is under way. -/
def between (handed : List α) : Forwarding α where
  pulled := handed.length
  taken := handed.length
  handed := handed
  applied := handed.length

/-- A drain whose reader turns to an item once it was fetched. -/
def fetched (handed : List α) (item : Item α) : Forwarding α :=
  { between handed with
    pulled := handed.length + 1
    pump := .after item
    channel := []
    taken := handed.length + 1
    reader := .receiving }

private theorem fetch (ready : Reachable handling source (between handed)) {item : Item α}
    (next : source.item? handed.length = some item) :
    Reachable handling source ((fetched handed item).take handling item) := by
  have sent := ((ready.step (.look _ rfl rfl)).step (.pull _ item rfl next)).step
    (.send _ item rfl (by exact Nat.zero_lt_succ _) rfl)
  exact (sent.step (.listen _ rfl rfl)).step (.receive _ item [] rfl rfl)

/-- An entry that is accepted can be handed over. -/
private theorem hand_over (ready : Reachable handling source (between handed)) {entry : α}
    (next : source.item? handed.length = some (.ok entry))
    (accepted : handling.refusal? entry = none) :
    Reachable handling source
      ({ fetched handed (.ok entry) with handed := handed ++ [entry], reader := .handing }.heard
        (handling.answer (handed ++ [entry]))) := by
  have taken := fetch ready next
  rw [take, accepted] at taken
  exact taken.step (.hear _ rfl)

/-- Entries that a log begins with and that are applied can be handed over one by one. -/
theorem reachable_between (begins : source.BeginsWith handed) (applies : handling.Applies handed) :
    Reachable handling source (between handed) := by
  induction handed using List.reverseRecOn with
  | nil => exact .start
  | append_singleton earlier entry ih =>
    obtain ⟨earlierBegins, next⟩ := begins.of_snoc
    obtain ⟨earlierApplies, accepted, answer⟩ := applies.of_snoc
    have heard := hand_over (ih earlierBegins earlierApplies) next accepted
    rw [answer] at heard
    have same : between (earlier ++ [entry]) =
        { fetched earlier (.ok entry) with
          handed := earlier ++ [entry]
          applied := earlier.length + 1
          reader := .idle } := by
      simp [between, fetched, Pump.after]
    rw [same]
    exact heard

/-- A reader that knows its result can return it. -/
private theorem leave_returned {drain : Forwarding α} {result : Except DrainError Nat}
    (left : Reachable handling source (drain.leave result))
    (uncancelled : drain.cancelled = false) :
    ∃ later, Reachable handling source later ∧ later.cancelled = false ∧
      later.reader = .finished result :=
  ⟨_, (left.step (.letGo _ result rfl)).step (.finish _ result rfl), uncancelled, rfl⟩

/-- A log that ends can be handed over to its end. -/
theorem can_complete (begins : source.BeginsWith handed) (applies : handling.Applies handed)
    (ends : source.EndsAfter handed.length) :
    ∃ drain, Reachable handling source drain ∧ drain.cancelled = false ∧
      drain.reader = .finished (.ok handed.length) := by
  have ready := reachable_between begins applies
  have stopped := (ready.step (.look _ rfl rfl)).step
    (.logEnd _ rfl (ends.none _ (Nat.le_refl _)) ends.ends)
  have closed := (stopped.step (.listen _ rfl rfl)).step (.close _ .logEnded rfl rfl rfl)
  exact leave_returned (closed.step (.complete _ rfl rfl)) rfl

/-- A drain that has a cause to fail can fail for it. -/
theorem can_fail {e : DrainError} (begins : source.BeginsWith handed)
    (cause : Cause handling source handed e) :
    ∃ drain, Reachable handling source drain ∧ drain.cancelled = false ∧
      drain.reader = .finished (.error e) := by
  cases cause with
  | broken applies next => exact leave_returned (fetch (reachable_between begins applies) next) rfl
  | refused applies next refusal =>
    have taken := fetch (reachable_between begins applies) next
    rw [take, refusal] at taken
    exact leave_returned taken rfl
  | failed applies accepted answer =>
    obtain ⟨earlierBegins, next⟩ := begins.of_snoc
    have heard := hand_over (reachable_between earlierBegins applies) next accepted
    rw [answer] at heard
    exact leave_returned heard rfl

end Schedules

/-! ### Listings -/

/-- A listing as the pump meets it. -/
def Source.ofListing (listing : Listing α) : Source α :=
  .ofItems listing.items (listing.ending != .hangs)

namespace Source

variable {listing : Listing α} {n : Nat}

private theorem item_lt (less : n < listing.entries.length) :
    (ofListing listing).item? n = listing.entries[n]?.map .ok := by
  simp only [ofListing, ofItems, Listing.items]
  rw [List.getElem?_append_left (by simpa using less), List.getElem?_map]

private theorem item_ge (beyond : listing.entries.length ≤ n) :
    (ofListing listing).item? n =
      match listing.ending with
      | .fails status => if n = listing.entries.length then some (.error (.status status)) else none
      | .complete | .hangs => none := by
  simp only [ofListing, ofItems, Listing.items]
  rw [List.getElem?_append_right (by simpa using beyond), List.length_map]
  cases listing.ending with
  | complete | hangs => rfl
  | fails status =>
    dsimp only
    split
    · next same =>
      rw [same, Nat.sub_self]
      rfl
    · rw [List.getElem?_eq_none_iff, List.length_singleton]
      omega

/-- An entry that the pump meets is an entry of the listing. -/
theorem item_eq_ok_iff {entry : α} :
    (ofListing listing).item? n = some (.ok entry) ↔ listing.entries[n]? = some entry := by
  obtain less | beyond := Nat.lt_or_ge n listing.entries.length
  · rw [item_lt less, List.getElem?_eq_getElem less]
    simp
  · rw [item_ge beyond, List.getElem?_eq_none beyond]
    split <;> simp

/-- The failure that the pump meets comes right behind the entries. -/
theorem item_eq_error_iff {e : Service.Error} :
    (ofListing listing).item? n = some (.error e) ↔
      n = listing.entries.length ∧
        ∃ status, listing.ending = .fails status ∧ e = .status status := by
  obtain less | beyond := Nat.lt_or_ge n listing.entries.length
  · rw [item_lt less, List.getElem?_eq_getElem less]
    simp [Nat.ne_of_lt less]
  · rw [item_ge beyond]
    cases listing.ending <;> simp [eq_comm]

theorem beginsWith_iff {handed : List α} :
    (ofListing listing).BeginsWith handed ↔ handed <+: listing.entries := by
  rw [List.prefix_iff_getElem?]
  refine forall₂_congr fun i less => ?_
  rw [List.getElem?_eq_getElem less]
  exact item_eq_ok_iff

/-- A listing ends after its entries if it is complete. -/
theorem endsAfter_iff {handed : List α} (begins : handed <+: listing.entries) :
    (ofListing listing).EndsAfter handed.length ↔
      listing.entries = handed ∧ listing.ending = .complete := by
  constructor
  · intro ended
    have whole : listing.entries.length ≤ handed.length := by
      refine Nat.le_of_not_lt fun less => ?_
      have none := ended.none _ (Nat.le_refl _)
      rw [item_lt less, List.getElem?_eq_getElem less] at none
      cases none
    have same := begins.eq_of_length_le whole
    refine ⟨same.symm, ?_⟩
    have none := ended.none _ (Nat.le_refl _)
    have ends := ended.ends
    rw [item_ge whole, same] at none
    simp only [ofListing, ofItems] at ends
    cases ending : listing.ending with
    | complete => rfl
    | fails status => simp [ending] at none
    | hangs => simp [ending] at ends
  · rintro ⟨rfl, complete⟩
    refine ⟨by simp [ofListing, ofItems, complete], (beginsWith_iff.mpr begins).delivers,
      fun i beyond => ?_⟩
    rw [item_ge beyond, complete]

end Source

/-! ### Entries applied one after the other -/

section Program

variable {η : Type} {apply : α → Action (Run η) DrainError Unit} {refusal? : α → Option DrainError}
  {run : Run η}

/-- The run after entries were applied one after the other, whatever came of it. -/
def appliedAll (apply : α → Action (Run η) DrainError Unit) (run : Run η) (entries : List α) :
    Run η :=
  entries.foldl (fun run entry => ((apply entry).run run).2) run

theorem appliedAll_snoc (before : List α) (entry : α) :
    appliedAll apply run (before ++ [entry]) =
      ((apply entry).run (appliedAll apply run before)).2 :=
  List.foldl_concat _ _ _ _

/-- What becomes of the entries if they are applied from a run on. -/
def Handling.ofApply (refusal? : α → Option DrainError)
    (apply : α → Action (Run η) DrainError Unit) (run : Run η) : Handling α where
  refusal?
  answer entries :=
    match entries.getLast? with
    | some entry => ((apply entry).run (appliedAll apply run entries.dropLast)).1
    | none => .ok ()

theorem Handling.answer_snoc (before : List α) (entry : α) :
    (ofApply refusal? apply run).answer (before ++ [entry]) =
      ((apply entry).run (appliedAll apply run before)).1 := by
  simp [ofApply]

/-- An application that does nothing to entries that are refused before they are handed over, and
moves a token that will not be cancelled on to one that will not be. -/
structure Applicable (refusal? : α → Option DrainError)
    (apply : α → Action (Run η) DrainError Unit) : Prop where
  refused : ∀ entry e, refusal? entry = some e → ∀ run, (apply entry).run run = (.error e, run)
  calm : ∀ entry run, run.token.Quiet → ((apply entry).run run).2.token.Quiet

theorem Applicable.quiet (applicable : Applicable refusal? apply) (quiet : run.token.Quiet)
    (entries : List α) : (appliedAll apply run entries).token.Quiet := by
  induction entries generalizing run with
  | nil => exact quiet
  | cons entry rest ih => exact ih (applicable.calm entry run quiet)

theorem drainEntries_nil_run (clear : run.token.cancelled = false) (ending : Ending) :
    (drainEntries apply ending []).run run =
      match ending with
      | .complete => (.ok 0, run)
      | .fails status => (.error (.failed (.listing (.status status))), run)
      | .hangs => (.error .waiting, run) := by
  rw [drainEntries, Action.run_bind, Replay.checkToken]
  dsimp only
  rw [clear]
  cases ending <;> rfl

theorem drainEntries_cons_run (clear : run.token.cancelled = false) (ending : Ending)
    (entry : α) (rest : List α) :
    (drainEntries apply ending (entry :: rest)).run run =
      match (apply entry).run run with
      | (.ok (), middle) =>
        (((drainEntries apply ending rest).run middle).1.map (· + 1),
          ((drainEntries apply ending rest).run middle).2)
      | (.error e, middle) => (.error (.failed e), middle) := by
  rw [drainEntries, Action.run_bind, Replay.checkToken]
  dsimp only
  rw [clear]
  simp only [Bool.false_eq_true, ↓reduceIte, Action.run_bind, Action.mapError]
  cases (apply entry).run run with
  | mk answer middle =>
    cases answer with
    | error e => rfl
    | ok _ =>
      dsimp only
      cases (drainEntries apply ending rest).run middle with
      | mk result after => cases result <;> rfl

/-- A drain goes on behind entries that were all applied. -/
theorem drainEntries_applied (applicable : Applicable refusal? apply) (quiet : run.token.Quiet)
    {before : List α} (applies : (Handling.ofApply refusal? apply run).Applies before)
    (ending : Ending) (rest : List α) :
    (drainEntries apply ending (before ++ rest)).run run =
      (((drainEntries apply ending rest).run (appliedAll apply run before)).1.map
          (· + before.length),
        ((drainEntries apply ending rest).run (appliedAll apply run before)).2) := by
  -- From the end, so that the run from which the answers are counted stays the same.
  induction before using List.reverseRecOn generalizing rest with
  | nil =>
    rw [List.nil_append, appliedAll, List.foldl_nil]
    cases (drainEntries apply ending rest).run run with
    | mk result after => cases result <;> rfl
  | append_singleton before entry ih =>
    obtain ⟨earlier, _, answer⟩ := applies.of_snoc
    rw [Handling.answer_snoc] at answer
    have clear := (applicable.quiet quiet before).clear
    have applied : (apply entry).run (appliedAll apply run before) =
        (.ok (), appliedAll apply run (before ++ [entry])) :=
      Prod.ext answer (appliedAll_snoc before entry).symm
    rw [List.append_assoc, List.singleton_append, ih earlier, drainEntries_cons_run clear, applied]
    dsimp only
    cases (drainEntries apply ending rest).run (appliedAll apply run (before ++ [entry])) with
    | mk result after =>
      cases result with
      | error halt => rfl
      | ok count =>
        have length : count + 1 + before.length = count + (before ++ [entry]).length := by
          rw [List.length_append, List.length_singleton]
          omega
        exact congrArg (fun total => (Except.ok total, after)) length

/-- All entries of a log that ends are handed over. -/
private theorem drainEntries_whole (applicable : Applicable refusal? apply)
    (quiet : run.token.Quiet) {entries : List α}
    (applies : (Handling.ofApply refusal? apply run).Applies entries) :
    (drainEntries apply .complete entries).run run =
      (.ok entries.length, appliedAll apply run entries) := by
  have drained := drainEntries_applied applicable quiet applies .complete []
  rw [List.append_nil, drainEntries_nil_run (applicable.quiet quiet entries).clear] at drained
  simpa [Except.map] using drained

/-- A cause for a drain to fail makes the drain of the replay fail. -/
private theorem drainEntries_failed (applicable : Applicable refusal? apply)
    (quiet : run.token.Quiet) {listing : Listing α} {handed : List α} {e : DrainError}
    (begins : (Source.ofListing listing).BeginsWith handed)
    (cause : Cause (.ofApply refusal? apply run) (.ofListing listing) handed e) :
    (drainEntries apply listing.ending listing.entries).run run =
      (.error (.failed e), appliedAll apply run handed) := by
  obtain ⟨more, split⟩ := Source.beginsWith_iff.mp begins
  have clear (before : List α) := (applicable.quiet quiet before).clear
  cases cause with
  | broken applies next =>
    obtain ⟨whole, status, ending, rfl⟩ := Source.item_eq_error_iff.mp next
    obtain rfl : more = [] := by
      rw [← split, List.length_append] at whole
      exact List.eq_nil_of_length_eq_zero (by omega)
    rw [← split, ending, drainEntries_applied applicable quiet applies,
      drainEntries_nil_run (clear handed)]
    rfl
  | @refused _ entry e applies next refusal =>
    have first := Source.item_eq_ok_iff.mp next
    rw [← split, List.getElem?_append_right (Nat.le_refl _), Nat.sub_self] at first
    obtain ⟨rest, rfl⟩ : ∃ rest, more = entry :: rest := by
      cases more with
      | nil => cases first
      | cons other rest =>
        cases first
        exact ⟨rest, rfl⟩
    rw [← split, drainEntries_applied applicable quiet applies,
      drainEntries_cons_run (clear handed), applicable.refused entry e refusal]
    rfl
  | @failed earlier entry e applies accepted answer =>
    rw [Handling.answer_snoc] at answer
    have applied : (apply entry).run (appliedAll apply run earlier) =
        (.error e, appliedAll apply run (earlier ++ [entry])) :=
      Prod.ext answer (appliedAll_snoc earlier entry).symm
    rw [List.append_assoc, List.singleton_append] at split
    rw [← split, drainEntries_applied applicable quiet applies,
      drainEntries_cons_run (clear earlier), applied]
    rfl

/-- A forwarded drain that nobody cancels and that returns has handed over what the drain of the
replay hands over, and returns the same. -/
theorem returns_alike (applicable : Applicable refusal? apply) (quiet : run.token.Quiet)
    {listing : Listing α} {drain : Forwarding α} {result : Except DrainError Nat}
    (reachable : Reachable (.ofApply refusal? apply run) (.ofListing listing) drain)
    (returned : drain.reader = .finished result) (uncancelled : drain.cancelled = false) :
    (drainEntries apply listing.ending listing.entries).run run =
      (result.mapError .failed, appliedAll apply run drain.handed) := by
  have keeps := reachable.keeps
  cases result with
  | ok count =>
    obtain ⟨ends, rfl, _, applies, _⟩ := keeps.complete returned
    obtain ⟨entries, ending⟩ :=
      (Source.endsAfter_iff (Source.beginsWith_iff.mp keeps.begins)).mp ends
    rw [entries, ending]
    exact drainEntries_whole applicable quiet applies
  | error e =>
    have cause := reachable.cause (by rw [returned]; rfl) uncancelled
    exact drainEntries_failed applicable quiet keeps.begins cause

/-- Handing entries over comes to the end of the listing or to a cause to fail. -/
private theorem exists_outcome (handling : Handling α) (listing : Listing α) {rest : List α} :
    ∀ before, listing.entries = before ++ rest → handling.Applies before →
      handling.Applies listing.entries ∧ (∀ status, listing.ending ≠ .fails status) ∨
        ∃ handed e, (Source.ofListing listing).BeginsWith handed ∧
          Cause handling (.ofListing listing) handed e := by
  induction rest with
  | nil =>
    intro before split applies
    rw [List.append_nil] at split
    by_cases broken : ∃ status, listing.ending = .fails status
    · obtain ⟨status, broken⟩ := broken
      have next := Source.item_eq_error_iff.mpr
        ⟨(congrArg List.length split).symm, status, broken, rfl⟩
      exact .inr ⟨before, _, Source.beginsWith_iff.mpr (split ▸ List.prefix_rfl),
        .broken applies next⟩
    · exact .inl ⟨split ▸ applies, fun status ending => broken ⟨status, ending⟩⟩
  | cons entry rest ih =>
    intro before split applies
    have begins : (Source.ofListing listing).BeginsWith (before ++ [entry]) := by
      refine Source.beginsWith_iff.mpr ⟨rest, ?_⟩
      rw [split, List.append_assoc, List.singleton_append]
    obtain ⟨earlier, next⟩ := begins.of_snoc
    cases refusal : handling.refusal? entry with
    | some e => exact .inr ⟨before, e, earlier, .refused applies next refusal⟩
    | none =>
      cases answer : handling.answer (before ++ [entry]) with
      | error e => exact .inr ⟨before ++ [entry], e, begins, .failed applies refusal answer⟩
      | ok _ =>
        refine ih (before ++ [entry]) ?_ (applies.snoc refusal answer)
        rw [split, List.append_assoc, List.singleton_append]

/-- Whatever the drain of a replay returns, a forwarded drain that nobody cancels can return, and
nothing else. -/
theorem returned_iff (applicable : Applicable refusal? apply) (quiet : run.token.Quiet)
    (listing : Listing α) (result : Except DrainError Nat) :
    (∃ drain, Reachable (.ofApply refusal? apply run) (.ofListing listing) drain ∧
        drain.cancelled = false ∧ drain.reader = .finished result) ↔
      ((drainEntries apply listing.ending listing.entries).run run).1 =
        result.mapError .failed := by
  constructor
  · rintro ⟨drain, reachable, uncancelled, returned⟩
    rw [returns_alike applicable quiet reachable returned uncancelled]
  · intro returned
    obtain ⟨applies, whole⟩ | ⟨handed, e, begins, cause⟩ :=
      exists_outcome (.ofApply refusal? apply run) listing [] rfl .nil
    · cases ending : listing.ending with
      | complete =>
        rw [ending, drainEntries_whole applicable quiet applies] at returned
        cases result with
        | error e => cases returned
        | ok count =>
          cases returned
          have ends := (Source.endsAfter_iff List.prefix_rfl).mpr ⟨rfl, ending⟩
          exact can_complete (Source.beginsWith_iff.mpr List.prefix_rfl) applies ends
      | fails status => exact absurd ending (whole status)
      | hangs =>
        have waits := drainEntries_applied applicable quiet applies .hangs []
        have clear := (applicable.quiet quiet listing.entries).clear
        rw [List.append_nil, drainEntries_nil_run clear] at waits
        rw [ending, waits] at returned
        cases result <;> cases returned
    · rw [drainEntries_failed applicable quiet begins cause] at returned
      cases result with
      | ok count => cases returned
      | error e =>
        cases returned
        exact can_fail begins cause

/-- A drain of a replay opens its listing and returns what a forwarded drain of it can return. -/
theorem drain_returned_iff {listing : Listing α} {opened : Run η}
    {openListing : Action (Run η) Service.Error (Listing α)}
    (opens : openListing.run run = (.ok listing, opened)) (quiet : opened.token.Quiet)
    (applicable : Applicable refusal? apply) (result : Except DrainError Nat) :
    (∃ drain, Reachable (.ofApply refusal? apply opened.listed) (.ofListing listing) drain ∧
        drain.cancelled = false ∧ drain.reader = .finished result) ↔
      ((Replay.drain openListing apply).run run).1 = result.mapError .failed := by
  have listed : (Replay.drain openListing apply).run run =
      (drainEntries apply listing.ending listing.entries).run opened.listed := by
    simp only [Replay.drain, Action.run_bind, Action.mapError, opens]
    rfl
  rw [listed]
  exact returned_iff applicable (quiet.advance _) listing result

private theorem handOver_calm {recorded : Bool} {call : Call}
    {action : Action η Projection.Error Unit} (quiet : run.token.Quiet) :
    ((Replay.handOver recorded call action).run run).2.token.Quiet := by
  rw [Replay.hand_over_run (Prod.eta _).symm]
  exact quiet.advance _

private theorem mapError_calm {ε ε' : Type} {action : Action (Run η) ε Unit} {convert : ε → ε'}
    (calm : (action.run run).2.token.Quiet) :
    ((action.mapError convert).run run).2.token.Quiet := by
  rw [Action.mapError]
  dsimp only
  cases ran : action.run run with
  | mk answer after =>
    rw [ran] at calm
    cases answer <;> exact calm

/-- Metadata events are handed over as they are. -/
theorem metadata_applicable (handler : Handler η) :
    Applicable (fun _ => none) fun event =>
      .mapError .handler (Replay.applyMetadata handler event) where
  refused _ _ := nofun
  calm _ _ quiet := mapError_calm (handOver_calm quiet)

/-- Why a message is refused before it is handed over. -/
def undecodable? (event : MessageEvent) : Option DrainError :=
  match Message.decode (α := AppMessage) event.message with
  | .error e => some (.envelope e)
  | .ok _ => none

/-- Messages are decoded before they are handed over. -/
theorem messages_applicable (handler : Handler η) (group : String) :
    Applicable undecodable? (Replay.applyEntry handler group) where
  refused event e refusal run := by
    rw [undecodable?] at refusal
    rw [Replay.applyEntry]
    cases decoded : Message.decode (α := AppMessage) event.message with
    | error failure =>
      rw [decoded] at refusal
      cases refusal
      rfl
    | ok message =>
      rw [decoded] at refusal
      cases refusal
  calm event run quiet := by
    rw [Replay.applyEntry]
    cases Message.decode (α := AppMessage) event.message with
    | error e => exact quiet
    | ok message => exact mapError_calm (handOver_calm quiet)

end Program

end GroupReplay.Forwarding
