import GroupReplay.Proofs.DrainFaults

/-!
How a drain comes out that nobody cancels.  It hands over, in order, what it reads of the entries
before the first fault, and the handler accepts each of them; it ends with the error of that fault, and
with how many entries there were if there is none and the log is complete.  What it hands over is noted
beside the handler's own state, and a drain goes on with notes as it goes without.  A forwarded drain
can return this result and no other, and it hands the same entries over.
-/

namespace GroupReplay

open Wire Service Projection

variable {α β η ε ε' : Type}

/-- A run as it is seen without its notes. -/
def Run.forget (run : Run (Noted η)) : Run η := run.onto Noted.site run.token

namespace Replay

/-! ### Notes go unnoticed -/

/-- Actions that do the same to a run with notes and to one without. -/
def Unnoticed (noted : Action (Run (Noted η)) ε α) (plain : Action (Run η) ε α) : Prop :=
  ∀ run, plain.run run.forget = ((noted.run run).1, (noted.run run).2.forget)

namespace Unnoticed

theorem bind {noted : Action (Run (Noted η)) ε α} {plain : Action (Run η) ε α}
    {notedNext : α → Action (Run (Noted η)) ε β} {plainNext : α → Action (Run η) ε β}
    (first : Unnoticed noted plain) (next : ∀ value, Unnoticed (notedNext value) (plainNext value)) :
    Unnoticed (noted >>= notedNext) (plain >>= plainNext) := by
  intro run
  rw [Action.run_bind, Action.run_bind, first run]
  cases noted.run run with
  | mk result after =>
    cases result with
    | ok value => exact next value after
    | error e => rfl

theorem mapError {noted : Action (Run (Noted η)) ε α} {plain : Action (Run η) ε α}
    (unnoticed : Unnoticed noted plain) (convert : ε → ε') :
    Unnoticed (noted.mapError convert) (plain.mapError convert) := by
  intro run
  rw [Action.run_mapError, Action.run_mapError, unnoticed run]

theorem checkToken : Unnoticed (checkToken (η := Noted η)) (checkToken (η := η)) := by
  intro run
  simp only [Replay.checkToken, Run.forget, Run.onto]
  split <;> rfl

theorem atEnd (ending : Ending) : Unnoticed (atEnd (η := Noted η) ending) (atEnd (η := η) ending) := by
  cases ending <;> exact fun _ => rfl

theorem drainEntries {noted : α → Action (Run (Noted η)) DrainError Unit}
    {plain : α → Action (Run η) DrainError Unit} (each : ∀ entry, Unnoticed (noted entry) (plain entry))
    (ending : Ending) (entries : List α) :
    Unnoticed (drainEntries noted ending entries) (drainEntries plain ending entries) := by
  induction entries with
  | nil => exact checkToken.bind fun _ => (atEnd ending).bind fun _ _ => rfl
  | cons entry rest ih =>
    exact checkToken.bind fun _ => ((each entry).mapError _).bind fun _ => ih.bind fun _ _ => rfl

end Unnoticed

/-! ### One entry -/

/-- An entry was read, handed over and accepted. -/
def Accepted (read : α → Except DrainError Handed) (entry : α) (handing : Handing) : Prop :=
  read entry = .ok handing.1 ∧ handing.2 = .ok ()

/-- Applying an entry is reading it and handing over what was read, which is noted. -/
structure Applies (read : α → Except DrainError Handed) (handler : Handler η)
    (noted : α → Action (Run (Noted η)) DrainError Unit)
    (plain : α → Action (Run η) DrainError Unit) : Prop where
  unread : ∀ {entry e}, read entry = .error e → ∀ run, (noted entry).run run = (.error e, run)
  handed : ∀ {entry handed}, read entry = .ok handed → ∀ run answer site,
    (handler.hand handed).run run.site.site = (answer, site) →
      ∃ after, (noted entry).run run = (answer.mapError .handler, after) ∧
        after.site = ⟨site, run.site.handings ++ [(handed, answer)]⟩
  unnoticed : ∀ entry, Unnoticed (noted entry) (plain entry)

section HandingOver

variable {recorded : Bool} {call : Call} {apply : Action η Projection.Error Unit} {handed : Handed}

private theorem handOver_noted {run : Run (Noted η)} {answer : Except Projection.Error Unit}
    {site : η} (ran : apply.run run.site.site = (answer, site)) :
    ∃ after, (Action.mapError DrainError.handler
        (handOver recorded call (Noted.note handed apply))).run run =
          (answer.mapError .handler, after) ∧
      after.site = ⟨site, run.site.handings ++ [(handed, answer)]⟩ := by
  have noted : (Noted.note handed apply).run run.site =
      (answer, ⟨site, run.site.handings ++ [(handed, answer)]⟩) := by
    simp only [Noted.note, ran]
  rw [Action.run_mapError, hand_over_run noted]
  exact ⟨_, rfl, rfl⟩

private theorem handOver_unnoticed :
    Unnoticed (handOver recorded call (Noted.note handed apply)) (handOver recorded call apply) := by
  intro run
  have plain : apply.run run.forget.site = apply.run run.site.site := rfl
  have noted : (Noted.note handed apply).run run.site = ((apply.run run.site.site).1,
      ⟨(apply.run run.site.site).2,
        run.site.handings ++ [(handed, (apply.run run.site.site).1)]⟩) := rfl
  rw [hand_over_run noted, hand_over_run (plain.trans (Prod.eta _).symm)]
  rfl

end HandingOver

theorem metadata_applies (handler : Handler η) :
    Applies readMetadata handler
      (fun event => .mapError .handler (applyMetadata (noting handler) event))
      (fun event => .mapError .handler (applyMetadata handler event)) where
  unread := nofun
  handed reads run answer site ran := by
    cases reads
    exact handOver_noted ran
  unnoticed _ := handOver_unnoticed.mapError _

theorem messages_apply (handler : Handler η) (group : Bytes) :
    Applies (readMessage group) handler (applyEntry (noting handler) (Key.encode group))
      (applyEntry handler (Key.encode group)) where
  unread := by
    intro event e fails run
    rw [applyEntry]
    cases decoded : Message.decode (α := AppMessage) event.message with
    | error failure =>
      rw [readMessage, decoded] at fails
      cases fails
      rfl
    | ok message =>
      rw [readMessage, decoded] at fails
      cases fails
  handed := by
    intro event handed reads run answer site ran
    rw [applyEntry]
    cases decoded : Message.decode (α := AppMessage) event.message with
    | error failure =>
      rw [readMessage, decoded] at reads
      cases reads
    | ok message =>
      rw [readMessage, decoded] at reads
      cases reads
      exact handOver_noted ran
  unnoticed event := by
    rw [applyEntry, applyEntry]
    cases Message.decode (α := AppMessage) event.message with
    | error e => exact fun _ => rfl
    | ok message => exact handOver_unnoticed.mapError _

/-! ### One after the other -/

section Draining

variable {log : Log α} {read : α → Except DrainError Handed} {handler : Handler η} {site : η}
  {noted : α → Action (Run (Noted η)) DrainError Unit} {plain : α → Action (Run η) DrainError Unit}
  {result : Except (Halt DrainError) Nat} {handings : List Handing}

/-- How a drain ends that nobody cancels, and what it has handed over. -/
inductive Outcome (log : Log α) (read : α → Except DrainError Handed) (handler : Handler η)
    (site : η) : Except (Halt DrainError) Nat → List Handing → Prop where
  /-- It stops at the first fault. -/
  | stopped {position : Nat} {e : DrainError} {attempts accepted : List Handing}
      (first : FirstFault log read handler site position e attempts)
      (before : List.Forall₂ (Accepted read) (log.entries.take position) accepted) :
      Outcome log read handler site (.error (.failed e)) (accepted ++ attempts)
  | complete {accepted : List Handing} (clear : ∀ position, Clear log read handler site position)
      (ends : log.logEnd = .complete) (all : List.Forall₂ (Accepted read) log.entries accepted) :
      Outcome log read handler site (.ok log.entries.length) accepted
  /-- The log stays open, and the drain waits for more. -/
  | waiting {accepted : List Handing} (clear : ∀ position, Clear log read handler site position)
      (ends : log.logEnd = .hang) (all : List.Forall₂ (Accepted read) log.entries accepted) :
      Outcome log read handler site (.error .waiting) accepted

theorem siteAfter_snoc {before : List α} {entry : α} {handed : Handed}
    (reads : read entry = .ok handed) : siteAfter read handler site (before ++ [entry]) =
      ((handler.hand handed).run (siteAfter read handler site before)).2 := by
  simp only [siteAfter, List.foldl_concat, reads]

/-- What is known between two entries: those before were read and accepted. -/
structure Midway (log : Log α) (read : α → Except DrainError Handed) (handler : Handler η) (site : η)
    (before : List α) (run : Run (Noted η)) : Prop where
  clear : ∀ position < before.length, Clear log read handler site position
  site : run.site.site = siteAfter read handler site before
  accepted : List.Forall₂ (Accepted read) before run.site.handings

/-- A drain that was not cancelled to its end was not cancelled before. -/
theorem uncancelled_before {ending : Ending} {entries : List α} {run after : Run (Noted η)}
    (ran : (drainEntries noted ending entries).run run = (result, after))
    (uncancelled : after.token.cancelled = false) : run.token.cancelled = false := by
  refine Bool.eq_false_iff.mpr fun cancelled => ?_
  have stays : run = after := by
    cases entries <;>
    · rw [drainEntries, Action.run_bind, checkToken] at ran
      dsimp only at ran
      rw [cancelled] at ran
      cases ran
      rfl
  rw [← stays, cancelled] at uncancelled
  cases uncancelled

/-- At the end of the listing. -/
private theorem outcome_of_end {run after : Run (Noted η)}
    (midway : Midway log read handler site log.listing.entries run)
    (ran : (drainEntries noted log.listing.ending []).run run = (result, after))
    (uncancelled : after.token.cancelled = false) :
    Outcome log read handler site (result.map (· + log.listing.entries.length))
      after.site.handings := by
  rw [Forwarding.drainEntries_nil_run (uncancelled_before ran uncancelled)] at ran
  cases ending : log.listing.ending with
  | fails status =>
    rw [ending] at ran
    cases ran
    obtain ⟨breaks, rfl⟩ := Log.breaksAt_of_fails ending
    have first : FirstFault log read handler site log.listing.entries.length
        (.listing (.status logUnavailable)) [] :=
      ⟨fault_end_iff.mpr ⟨breaks, rfl, rfl⟩, midway.clear⟩
    have stopped := Outcome.stopped first (by
      rw [Log.take_listing]
      exact midway.accepted)
    rwa [List.append_nil] at stopped
  | complete =>
    rw [ending] at ran
    cases ran
    have clear := clear_of_unbroken midway.clear (by simp [ending])
    have whole := (listed_of_clear clear).1
    have accepted := midway.accepted
    rw [whole] at accepted ⊢
    have counted : (Except.ok 0 : Except (Halt DrainError) Nat).map (· + log.entries.length) =
        .ok log.entries.length := congrArg Except.ok (Nat.zero_add _)
    rw [counted]
    exact .complete clear (Log.complete_iff.mp ending) accepted
  | hangs =>
    rw [ending] at ran
    cases ran
    have clear := clear_of_unbroken midway.clear (by simp [ending])
    have accepted := midway.accepted
    rw [(listed_of_clear clear).1] at accepted
    exact .waiting clear (Log.hangs_iff.mp ending) accepted

namespace Midway

variable {before : List α} {entry : α} {handed : Handed} {run middle : Run (Noted η)}

/-- At an entry that cannot be read the drain stops. -/
theorem unread {e : DrainError} (midway : Midway log read handler site before run)
    (begins : before ++ [entry] <+: log.listing.entries) (fails : read entry = .error e) :
    Outcome log read handler site (.error (.failed e)) run.site.handings := by
  have earlier := (Log.listed_snoc begins).2.2
  have first : FirstFault log read handler site before.length e [] :=
    ⟨(fault_snoc_iff begins).mpr (.inl ⟨fails, rfl⟩), midway.clear⟩
  have stopped := Outcome.stopped first (earlier.symm ▸ midway.accepted)
  rwa [List.append_nil] at stopped

/-- At an entry that the handler rejects it stops as well, once that was handed over. -/
theorem rejected {rejection : Projection.Error} (midway : Midway log read handler site before run)
    (begins : before ++ [entry] <+: log.listing.entries) (reads : read entry = .ok handed)
    (rejects : ((handler.hand handed).run run.site.site).1 = .error rejection) :
    Outcome log read handler site (.error (.failed (.handler rejection)))
      (run.site.handings ++ [(handed, .error rejection)]) := by
  have earlier := (Log.listed_snoc begins).2.2
  rw [midway.site] at rejects
  have first : FirstFault log read handler site before.length (.handler rejection)
      [(handed, .error rejection)] :=
    ⟨(fault_snoc_iff begins).mpr (.inr ⟨handed, rejection, reads, rejects, rfl, rfl⟩), midway.clear⟩
  exact .stopped first (earlier.symm ▸ midway.accepted)

/-- Behind an entry that the handler accepts it is midway again. -/
theorem further {next : η} (midway : Midway log read handler site before run)
    (begins : before ++ [entry] <+: log.listing.entries) (reads : read entry = .ok handed)
    (accepts : (handler.hand handed).run run.site.site = (.ok (), next))
    (noting : middle.site = ⟨next, run.site.handings ++ [(handed, .ok ())]⟩) :
    Midway log read handler site (before ++ [entry]) middle := by
  rw [midway.site] at accepts
  have clear : Clear log read handler site before.length :=
    (clear_snoc_iff begins).mpr ⟨handed, reads, by rw [accepts]⟩
  refine ⟨?_, ?_, ?_⟩
  · rw [List.length_append, List.length_singleton]
    exact Nat.forall_lt_succ_right.mpr ⟨midway.clear, clear⟩
  · rw [noting, siteAfter_snoc reads, accepts]
  · rw [noting]
    exact List.rel_append midway.accepted (.cons ⟨reads, rfl⟩ .nil)

end Midway

/-- One more entry was applied before those that a drain went on to count. -/
private theorem counted_snoc (counted : Except (Halt DrainError) Nat) (before : List α) (entry : α) :
    (counted.map (· + 1)).map (· + before.length) =
      counted.map (· + (before ++ [entry]).length) := by
  cases counted with
  | error halt => rfl
  | ok count =>
    have total : count + 1 + before.length = count + (before ++ [entry]).length := by
      rw [List.length_append, List.length_singleton]
      omega
    exact congrArg Except.ok total

/-- A drain that got midway comes to its outcome. -/
theorem outcome_of_midway (applies : Applies read handler noted plain) {before rest : List α}
    {run after : Run (Noted η)} (split : log.listing.entries = before ++ rest)
    (midway : Midway log read handler site before run)
    (ran : (drainEntries noted log.listing.ending rest).run run = (result, after))
    (uncancelled : after.token.cancelled = false) :
    Outcome log read handler site (result.map (· + before.length)) after.site.handings := by
  induction rest generalizing before run result with
  | nil =>
    obtain rfl : log.listing.entries = before := split.trans (List.append_nil before)
    exact outcome_of_end midway ran uncancelled
  | cons entry rest ih =>
    have split' : log.listing.entries = (before ++ [entry]) ++ rest := by
      rw [split, List.append_assoc, List.singleton_append]
    have begins : before ++ [entry] <+: log.listing.entries := ⟨rest, split'.symm⟩
    rw [Forwarding.drainEntries_cons_run (uncancelled_before ran uncancelled)] at ran
    cases reads : read entry with
    | error e =>
      rw [applies.unread reads] at ran
      cases ran
      exact midway.unread begins reads
    | ok handed =>
      cases said : (handler.hand handed).run run.site.site with
      | mk answer next =>
        obtain ⟨middle, applied, noting⟩ := applies.handed reads run answer next said
        rw [applied] at ran
        cases answer with
        | error rejection =>
          cases ran
          rw [noting]
          exact midway.rejected begins reads (congrArg Prod.fst said)
        | ok _ =>
          cases drained : (drainEntries noted log.listing.ending rest).run middle with
          | mk outcome last =>
            have ended : (outcome.map (· + 1), last) = (result, after) := by
              rw [← ran]
              exact congrArg (fun ended => (ended.1.map (· + 1), ended.2)) drained.symm
            cases ended
            rw [counted_snoc]
            exact ih split' (midway.further begins reads said noting) drained

/-! ### What an outcome says -/

/-- Entries that were accepted are as many as were handed over. -/
private theorem length_accepted {position : Nat} {e : DrainError} {attempts accepted : List Handing}
    (first : FirstFault log read handler site position e attempts)
    (before : List.Forall₂ (Accepted read) (log.entries.take position) accepted) :
    accepted.length = position := by
  have prefixed : log.listing.entries <+: log.entries := ⟨_, log.listing_entries_prefix⟩
  rw [← before.length_eq]
  exact List.length_take_of_le (Nat.le_trans first.le_length prefixed.length_le)

namespace Outcome

variable (outcome : Outcome log read handler site result handings)
include outcome

theorem of_first {position : Nat} {e : DrainError} {attempts : List Handing}
    (first : FirstFault log read handler site position e attempts) :
    result = .error (.failed e) ∧ ∃ accepted,
      List.Forall₂ (Accepted read) (log.entries.take position) accepted ∧
        handings = accepted ++ attempts := by
  cases outcome with
  | stopped other before =>
    obtain ⟨rfl, rfl, rfl⟩ := first.unique other
    exact ⟨rfl, _, before, rfl⟩
  | complete clear | waiting clear => exact absurd first.fault (clear _ _ _)

theorem ok_iff (applied : Nat) : result = .ok applied ↔
    log.logEnd = .complete ∧ applied = log.entries.length ∧
      ∀ position, Clear log read handler site position := by
  cases outcome with
  | stopped first => exact ⟨nofun, fun ⟨_, _, clear⟩ => absurd first.fault (clear _ _ _)⟩
  | complete clear ends =>
    constructor
    · intro same
      cases same
      exact ⟨ends, rfl, clear⟩
    · rintro ⟨_, rfl, _⟩
      rfl
  | waiting _ ends =>
    refine ⟨nofun, fun ⟨ended, _⟩ => ?_⟩
    rw [ends] at ended
    cases ended

theorem of_clear (clear : ∀ position, Clear log read handler site position) :
    List.Forall₂ (Accepted read) log.entries handings ∧
      (log.logEnd = .hang → result = .error .waiting) := by
  cases outcome with
  | stopped first => exact absurd first.fault (clear _ _ _)
  | complete _ ends all =>
    refine ⟨all, fun hangs => ?_⟩
    rw [ends] at hangs
    cases hangs
  | waiting _ _ all => exact ⟨all, fun _ => rfl⟩

open Forwarding

/-- A forwarded drain that nobody cancels and that returns has the same result and has handed over
as many entries. -/
theorem of_forwarded {drain : Forwarding α} {returned : Except DrainError Nat}
    (reachable : Reachable (.ofHandler read handler site) (.ofListing log.listing) drain)
    (uncancelled : drain.cancelled = false) (finished : drain.reader = .finished returned) :
    result = returned.mapError .failed ∧ drain.handed = log.entries.take handings.length := by
  have keeps := reachable.keeps
  have begins := Source.beginsWith_iff.mp keeps.begins
  have handed : drain.handed = log.entries.take drain.handed.length :=
    List.prefix_iff_eq_take.mp (begins.trans ⟨_, log.listing_entries_prefix⟩)
  cases returned with
  | ok count =>
    obtain ⟨ends, rfl, _, applies, _⟩ := keeps.complete finished
    obtain ⟨whole, complete⟩ := (Source.endsAfter_iff begins).mp ends
    have clear : ∀ position, Clear log read handler site position := by
      refine clear_of_unbroken ?_ (by simp [complete])
      rw [whole]
      exact (applies_iff_clear begins).mp applies
    have entries := whole.symm.trans (listed_of_clear clear).1
    have ok := (outcome.ok_iff _).mpr
      ⟨Log.complete_iff.mp complete, congrArg List.length entries, clear⟩
    refine ⟨ok, ?_⟩
    rw [← (outcome.of_clear clear).1.length_eq, List.take_length, entries]
  | error e =>
    have cause := reachable.cause (by rw [finished]; rfl) uncancelled
    obtain ⟨position, attempts, first, length⟩ := first_of_cause begins cause
    obtain ⟨same, accepted, before, rfl⟩ := outcome.of_first first
    refine ⟨same, ?_⟩
    rw [List.length_append, length_accepted first before, ← length]
    exact handed

/-- And a forwarded drain can return the result. -/
theorem forwarded {returned : Except DrainError Nat} (same : result = returned.mapError .failed) :
    ∃ drain, Reachable (.ofHandler read handler site) (.ofListing log.listing) drain ∧
      drain.cancelled = false ∧ drain.reader = .finished returned := by
  cases outcome with
  | stopped first =>
    obtain ⟨_, begins, cause⟩ := cause_of_first first
    cases returned with
    | ok count => cases same
    | error e =>
      cases same
      exact can_fail (Source.beginsWith_iff.mpr begins) cause
  | complete clear ends =>
    have whole := (listed_of_clear clear).1
    have ended := (Source.endsAfter_iff List.prefix_rfl).mpr ⟨rfl, Log.complete_iff.mpr ends⟩
    cases returned with
    | error e => cases same
    | ok count =>
      cases same
      rw [← whole]
      exact can_complete (Source.beginsWith_iff.mpr List.prefix_rfl)
        ((applies_iff_clear List.prefix_rfl).mpr fun position _ => clear position) ended
  | waiting => cases returned <;> cases same

end Outcome

end Draining

/-! ### Drains of a group's logs -/

/-- How a drain of a log comes out that nobody cancels, with what it has handed over. -/
structure ComesOut (log : Log α) (read : α → Except DrainError Handed) (handler : Handler η)
    (site : η) (result : Except (Halt DrainError) Nat) (handings : List Handing) : Prop where
  /-- The first fault ends it, once what comes before was accepted. -/
  stops : ∀ position e attempts, FirstFault log read handler site position e attempts →
    result = .error (.failed e) ∧ ∃ accepted,
      List.Forall₂ (Accepted read) (log.entries.take position) accepted ∧
        handings = accepted ++ attempts
  succeeds : ∀ applied, result = .ok applied ↔
    log.logEnd = .complete ∧ applied = log.entries.length ∧
      ∀ position, Clear log read handler site position
  clear : (∀ position, Clear log read handler site position) →
    List.Forall₂ (Accepted read) log.entries handings ∧
      (log.logEnd = .hang → result = .error .waiting)
  /-- Forwarded drains return the same result, and hand the same entries over. -/
  forwarded : ∀ returned, result = returned.mapError .failed ↔
    ∃ drain, Forwarding.Reachable (.ofHandler read handler site) (.ofListing log.listing) drain ∧
      drain.cancelled = false ∧ drain.reader = .finished returned
  handed : ∀ drain returned,
    Forwarding.Reachable (.ofHandler read handler site) (.ofListing log.listing) drain →
      drain.cancelled = false → drain.reader = .finished returned →
        drain.handed = log.entries.take handings.length

theorem Outcome.comesOut {log : Log α} {read : α → Except DrainError Handed} {handler : Handler η}
    {site : η} {result : Except (Halt DrainError) Nat} {handings : List Handing}
    (outcome : Outcome log read handler site result handings) :
    ComesOut log read handler site result handings where
  stops _ _ _ first := outcome.of_first first
  succeeds := outcome.ok_iff
  clear := outcome.of_clear
  forwarded _ := ⟨outcome.forwarded, fun ⟨_, reachable, uncancelled, finished⟩ =>
    (outcome.of_forwarded reachable uncancelled finished).1⟩
  handed _ _ reachable uncancelled finished :=
    (outcome.of_forwarded reachable uncancelled finished).2

/-- Any drain that could open its listing and was not cancelled. -/
theorem drain_comes_out {log : Log α} {read : α → Except DrainError Handed} {handler : Handler η}
    {noted : α → Action (Run (Noted η)) DrainError Unit}
    {plain : α → Action (Run η) DrainError Unit} (applies : Applies read handler noted plain)
    {openNoted : Action (Run (Noted η)) Service.Error (Listing α)}
    {openPlain : Action (Run η) Service.Error (Listing α)} {run : Run η}
    {opened after : Run (Noted η)} {result : Except (Halt DrainError) Nat}
    (opens : openNoted.run run.unnoted = (.ok log.listing, opened))
    (opensPlain : openPlain.run run = (.ok log.listing, opened.forget))
    (site : opened.site = ⟨run.site, []⟩)
    (ran : (drain openNoted noted).run run.unnoted = (result, after))
    (uncancelled : after.token.cancelled = false) :
    (drain openPlain plain).run run = (result, after.forget) ∧
      ComesOut log read handler run.site result after.site.handings := by
  have entries : (drain openNoted noted).run run.unnoted =
      (drainEntries noted log.listing.ending log.listing.entries).run opened.listed := by
    simp only [drain, Action.run_bind, Action.mapError, opens]
    rfl
  have entriesPlain : (drain openPlain plain).run run =
      (drainEntries plain log.listing.ending log.listing.entries).run opened.listed.forget := by
    simp only [drain, Action.run_bind, Action.mapError, opensPlain]
    rfl
  rw [entries] at ran
  refine ⟨?_, ?_⟩
  · rw [entriesPlain, Unnoticed.drainEntries applies.unnoticed _ _ opened.listed, ran]
  · have start : Midway log read handler run.site [] opened.listed := by
      refine ⟨fun _ less => absurd less (Nat.not_lt_zero _), ?_, ?_⟩
      · rw [Run.listed_site, site]
        rfl
      · rw [Run.listed_site, site]
        exact .nil
    have outcome := outcome_of_midway applies rfl start ran uncancelled
    have counted : result.map (· + ([] : List α).length) = result := by cases result <;> rfl
    rw [counted] at outcome
    exact outcome.comesOut

/-- A drain of an active group's log that nobody cancels hands over all before the first fault and
ends with that fault, or else hands over the whole log; for messages, under the text of that group's
key, whatever the entries themselves say. -/
theorem drain_outcome (handler : Handler η) (group : Bytes) {run : Run η}
    (direct : run.link = .direct) (active : group ∈ run.service.active) :
    (group ∉ run.service.failsMetadata → ∀ result after,
        (drainMetadata (noting handler) group).run run.unnoted = (result, after) →
          after.token.cancelled = false →
            (drainMetadata handler group).run run = (result, after.forget) ∧
              ComesOut (run.service.logsOf group).metadata readMetadata handler run.site result
                after.site.handings) ∧
      (group ∉ run.service.failsMessages → ∀ result after,
        (drainMessages (noting handler) group).run run.unnoted = (result, after) →
          after.token.cancelled = false →
            (drainMessages handler group).run run = (result, after.forget) ∧
              ComesOut (run.service.logsOf group).messages (readMessage group) handler run.site
                result after.site.handings) := by
  have noted : run.unnoted.link = .direct := direct
  constructor
  · intro readable result after ran uncancelled
    have listed : run.service.listMetadata group =
        .ok (run.service.logsOf group).metadata.listing :=
      listMetadata_eq_ok_iff.mpr ⟨readable, active, rfl⟩
    have opens := Client.listMetadata_run noted group
    have opensPlain := Client.listMetadata_run direct group
    rw [listed] at opensPlain
    have served : run.unnoted.service.listMetadata group = _ := listed
    rw [served] at opens
    exact drain_comes_out (metadata_applies handler) opens opensPlain rfl ran uncancelled
  · intro readable result after ran uncancelled
    have listed : run.service.listMessages group =
        .ok (run.service.logsOf group).messages.listing :=
      listMessages_eq_ok_iff.mpr ⟨readable, active, rfl⟩
    have opens := Client.listMessages_run noted group
    have opensPlain := Client.listMessages_run direct group
    rw [listed] at opensPlain
    have served : run.unnoted.service.listMessages group = _ := listed
    rw [served] at opens
    exact drain_comes_out (messages_apply handler group) opens opensPlain rfl ran uncancelled

/-- A metadata log that breaks off behind an event without context, which is handed over and rejected
before that; and a message log that breaks off right where a message cannot be decoded, behind one
whose context names another group. -/
theorem coinciding_faults_outcome :
    let message : AppMessage := { type := AppMessageType.setUserInfo.number, payload := [7] }
    let stored : MessageEvent := .of [2] [5] [9] message
    let logs : GroupLogs :=
      { metadata := { entries := [{}], logEnd := .failAfter 1 }
        messages := { entries := [stored, .carrying [1] [6] [9] [0xff]], logEnd := .failAfter 1 } }
    let handler : Handler (Desk Store.AnyStore) := toStoreSilently [1]
    let run : Run (Desk Store.AnyStore) :=
      { service := { home := [1], logs := [([1], logs)] }, site := { store := .inMemory {} } }
    let metadata := (drainMetadata (noting handler) [1]).run run.unnoted
    let messages := (drainMessages (noting handler) [1]).run run.unnoted
    (metadata.1 = .error (.failed (.handler (.invalid .noContext))) ∧
        metadata.2.site.handings = [(.metadata {}, .error (.invalid .noContext))] ∧
          ComesOut logs.metadata readMetadata handler run.site metadata.1
            metadata.2.site.handings) ∧
      messages.1 = .error (.failed (.listing (.status logUnavailable))) ∧
        messages.2.site.handings = [(.message ⟨Key.encode [1], stored, message⟩, .ok ())] ∧
          ComesOut logs.messages (readMessage [1]) handler run.site messages.1
            messages.2.site.handings := by
  intro message stored logs handler run metadata messages
  obtain ⟨metadataComes, messagesCome⟩ := drain_outcome handler [1] (show run.link = .direct from rfl)
    (show [1] ∈ run.service.active by decide)
  have first := metadataComes (by decide) _ _ (Prod.eta metadata).symm (by decide +kernel)
  have second := messagesCome (by decide) _ _ (Prod.eta messages).symm (by decide +kernel)
  exact ⟨⟨by decide +kernel, by decide +kernel, first.2⟩, by decide +kernel, by decide +kernel,
    second.2⟩

end Replay

end GroupReplay
