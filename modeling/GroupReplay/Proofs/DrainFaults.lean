import GroupReplay.Proofs.NotedReplay
import GroupReplay.Proofs.SequentialDrain

/-!
Where a drain stops that nobody cancels.  Three things can be wrong at a position of a log: the log
breaks off there, its entry cannot be read, or the handler rejects what was read, and this is also the
order in which they are met.  A position has one fault at most; the first that has one is as far as any
drain gets, and a forwarded drain, however its pump and its reader take turns, stops there for that
fault and has handed over the entries before it, and the one at it if that was rejected.
-/

namespace GroupReplay

open Wire Service Projection

variable {α η : Type}

/-! ### What can be wrong at a position -/

namespace Service.Log

variable {log : Log α} {position : Nat}

/-- A log breaks off at a position: after so many entries, or after all of them if there are fewer. -/
def BreaksAt (log : Log α) (position : Nat) : Prop :=
  ∃ count, log.logEnd = .failAfter count ∧ position = min count log.entries.length

theorem BreaksAt.eq_length (breaks : log.BreaksAt position) :
    position = log.listing.entries.length := by
  obtain ⟨count, ended, rfl⟩ := breaks
  rw [listing, ended, List.length_take]

theorem BreaksAt.ending (breaks : log.BreaksAt position) :
    log.listing.ending = .fails logUnavailable := by
  obtain ⟨count, ended, _⟩ := breaks
  rw [listing_ending, ended, LogEnd.ending]

/-- A listing that ends in a failure is of a log that breaks off behind its entries. -/
theorem breaksAt_of_fails {status : Status} (fails : log.listing.ending = .fails status) :
    log.BreaksAt log.listing.entries.length ∧ status = logUnavailable := by
  rw [listing_ending] at fails
  cases ended : log.logEnd with
  | complete | hang =>
    rw [ended] at fails
    cases fails
  | failAfter count =>
    rw [ended] at fails
    cases fails
    refine ⟨⟨count, ended, ?_⟩, rfl⟩
    rw [listing, ended, List.length_take]

theorem complete_iff : log.listing.ending = .complete ↔ log.logEnd = .complete := by
  rw [listing_ending]
  cases log.logEnd <;> simp [LogEnd.ending]

theorem hangs_iff : log.listing.ending = .hangs ↔ log.logEnd = .hang := by
  rw [listing_ending]
  cases log.logEnd <;> simp [LogEnd.ending]

/-- A log that breaks off nowhere is listed as a whole. -/
theorem entries_of_unbroken (unbroken : ∀ position, ¬ log.BreaksAt position) :
    log.listing.entries = log.entries :=
  listing_entries_of_whole fun count ended => unbroken _ ⟨count, ended, rfl⟩

/-- Nothing comes behind the last entry that is listed but the place where the log breaks off. -/
theorem none_of_unbroken (goesOn : ¬ log.BreaksAt log.listing.entries.length) :
    log.entries[log.listing.entries.length]? = none := by
  have unbroken : ∀ position, ¬ log.BreaksAt position := fun _ breaks =>
    goesOn (breaks.eq_length ▸ breaks)
  rw [entries_of_unbroken unbroken]
  exact List.getElem?_eq_none (Nat.le_refl _)

theorem take_listing (log : Log α) : log.entries.take log.listing.entries.length =
    log.listing.entries := by
  have split := log.listing_entries_prefix
  rw [← split]
  exact List.take_left

/-- An entry that is listed, and the entries before it. -/
theorem listed_snoc {before : List α} {entry : α}
    (begins : before ++ [entry] <+: log.listing.entries) :
    ¬ log.BreaksAt before.length ∧ log.entries[before.length]? = some entry ∧
      log.entries.take before.length = before := by
  have short : before.length < log.listing.entries.length := by
    have le := begins.length_le
    rw [List.length_append, List.length_singleton] at le
    omega
  obtain ⟨rest, whole⟩ := begins.trans ⟨_, log.listing_entries_prefix⟩
  refine ⟨fun breaks => Nat.ne_of_lt short breaks.eq_length, ?_, ?_⟩
  · rw [← whole, List.append_assoc, List.getElem?_append_right (Nat.le_refl _), Nat.sub_self]
    rfl
  · rw [← whole, List.append_assoc, List.take_left]

end Service.Log

/-- Hands something to a handler. -/
def Projection.Handler.hand (handler : Handler η) : Handed → Action η Projection.Error Unit
  | .metadata event => handler.applyMetadata event
  | .message delivery =>
    handler.applyMessage delivery.conversation delivery.event delivery.message

namespace Replay

/-- A metadata event is handed over as it is. -/
def readMetadata (event : MetadataEvent) : Except DrainError Handed := .ok (.metadata event)

/-- A message of a group's log is handed over decoded, under the text of that group's key. -/
def readMessage (group : Bytes) (event : MessageEvent) : Except DrainError Handed :=
  match Message.decode event.message with
  | .error e => .error (.envelope e)
  | .ok message => .ok (.message ⟨Key.encode group, event, message⟩)

section Faults

variable (log : Log α) (read : α → Except DrainError Handed) (handler : Handler η) (site : η)

/-- The local side of a handler after entries were handed to it one after the other. -/
def siteAfter (entries : List α) : η :=
  entries.foldl (fun site entry =>
    match read entry with
    | .ok handed => ((handler.hand handed).run site).2
    | .error _ => site) site

/-- What is wrong at a position, with what has been handed over in vain. -/
inductive Fault (position : Nat) : DrainError → List Handing → Prop where
  /-- The log breaks off. -/
  | broken (breaks : log.BreaksAt position) :
      Fault position (.listing (.status logUnavailable)) []
  /-- The entry cannot be read. -/
  | unread {entry : α} {e : DrainError} (goesOn : ¬ log.BreaksAt position)
      (here : log.entries[position]? = some entry) (fails : read entry = .error e) :
      Fault position e []
  /-- The handler rejects what was read, once it was handed all that comes before. -/
  | rejected {entry : α} {handed : Handed} {e : Projection.Error}
      (goesOn : ¬ log.BreaksAt position) (here : log.entries[position]? = some entry)
      (reads : read entry = .ok handed)
      (rejects : ((handler.hand handed).run
        (siteAfter read handler site (log.entries.take position))).1 = .error e) :
      Fault position (.handler e) [(handed, .error e)]

/-- Nothing is wrong at a position. -/
def Clear (position : Nat) : Prop := ∀ e attempts, ¬ Fault log read handler site position e attempts

/-- The first position at which something is wrong. -/
structure FirstFault (position : Nat) (e : DrainError) (attempts : List Handing) : Prop where
  fault : Fault log read handler site position e attempts
  clear : ∀ earlier < position, Clear log read handler site earlier

end Faults

section Positions

variable {log : Log α} {read : α → Except DrainError Handed} {handler : Handler η} {site : η}
  {position : Nat} {e : DrainError} {attempts : List Handing}

theorem Fault.unique {e' : DrainError} {attempts' : List Handing}
    (fault : Fault log read handler site position e attempts)
    (other : Fault log read handler site position e' attempts') : e = e' ∧ attempts = attempts' := by
  cases fault with
  | broken breaks =>
    cases other with
    | broken => exact ⟨rfl, rfl⟩
    | unread goesOn | rejected goesOn => exact absurd breaks goesOn
  | unread goesOn here fails =>
    cases other with
    | broken breaks => exact absurd breaks goesOn
    | unread _ here' fails' =>
      cases here.symm.trans here'
      cases fails.symm.trans fails'
      exact ⟨rfl, rfl⟩
    | rejected _ here' reads =>
      cases here.symm.trans here'
      cases fails.symm.trans reads
  | rejected goesOn here reads rejects =>
    cases other with
    | broken breaks => exact absurd breaks goesOn
    | unread _ here' fails =>
      cases here.symm.trans here'
      cases reads.symm.trans fails
    | rejected _ here' reads' rejects' =>
      cases here.symm.trans here'
      cases reads.symm.trans reads'
      cases rejects.symm.trans rejects'
      exact ⟨rfl, rfl⟩

theorem FirstFault.unique {position' : Nat} {e' : DrainError} {attempts' : List Handing}
    (first : FirstFault log read handler site position e attempts)
    (other : FirstFault log read handler site position' e' attempts') :
    position = position' ∧ e = e' ∧ attempts = attempts' := by
  obtain before | rfl | behind := Nat.lt_trichotomy position position'
  · exact absurd first.fault (other.clear _ before _ _)
  · exact ⟨rfl, first.fault.unique other.fault⟩
  · exact absurd other.fault (first.clear _ behind _ _)

/-- What is wrong at an entry that is listed. -/
theorem fault_snoc_iff {before : List α} {entry : α}
    (begins : before ++ [entry] <+: log.listing.entries) :
    Fault log read handler site before.length e attempts ↔
      (read entry = .error e ∧ attempts = []) ∨
        ∃ handed rejection, read entry = .ok handed ∧
          ((handler.hand handed).run (siteAfter read handler site before)).1 = .error rejection ∧
            e = .handler rejection ∧ attempts = [(handed, .error rejection)] := by
  obtain ⟨goesOn, here, earlier⟩ := Log.listed_snoc begins
  constructor
  · intro fault
    cases fault with
    | broken breaks => exact absurd breaks goesOn
    | unread _ found fails =>
      cases found.symm.trans here
      exact .inl ⟨fails, rfl⟩
    | rejected _ found reads rejects =>
      cases found.symm.trans here
      rw [earlier] at rejects
      exact .inr ⟨_, _, reads, rejects, rfl, rfl⟩
  · rintro (⟨fails, rfl⟩ | ⟨handed, rejection, reads, rejects, rfl, rfl⟩)
    · exact .unread goesOn here fails
    · exact .rejected goesOn here reads (earlier.symm ▸ rejects)

/-- Nothing is wrong at an entry that is listed if the handler accepts what is read of it. -/
theorem clear_snoc_iff {before : List α} {entry : α}
    (begins : before ++ [entry] <+: log.listing.entries) :
    Clear log read handler site before.length ↔
      ∃ handed, read entry = .ok handed ∧
        ((handler.hand handed).run (siteAfter read handler site before)).1 = .ok () := by
  constructor
  · intro clear
    cases reads : read entry with
    | error e => exact absurd ((fault_snoc_iff begins).mpr (.inl ⟨reads, rfl⟩)) (clear _ _)
    | ok handed =>
      refine ⟨handed, rfl, ?_⟩
      cases answer : ((handler.hand handed).run (siteAfter read handler site before)).1 with
      | ok _ => rfl
      | error rejection =>
        exact absurd ((fault_snoc_iff begins).mpr
          (.inr ⟨handed, rejection, reads, answer, rfl, rfl⟩)) (clear _ _)
  · rintro ⟨handed, reads, answer⟩ e attempts fault
    obtain ⟨fails, _⟩ | ⟨_, _, reads', rejects, _⟩ := (fault_snoc_iff begins).mp fault
    · cases reads.symm.trans fails
    · cases reads.symm.trans reads'
      cases answer.symm.trans rejects

/-- Behind the entries that are listed nothing can be wrong but that the log breaks off. -/
theorem fault_end_iff : Fault log read handler site log.listing.entries.length e attempts ↔
    log.BreaksAt log.listing.entries.length ∧ e = .listing (.status logUnavailable) ∧
      attempts = [] := by
  constructor
  · intro fault
    cases fault with
    | broken breaks => exact ⟨breaks, rfl, rfl⟩
    | unread goesOn here | rejected goesOn here =>
      cases here.symm.trans (Log.none_of_unbroken goesOn)
  · rintro ⟨breaks, rfl, rfl⟩
    exact .broken breaks

/-- A log at which nothing is wrong is listed as a whole. -/
theorem listed_of_clear (clear : ∀ position, Clear log read handler site position) :
    log.listing.entries = log.entries ∧ ∀ status, log.listing.ending ≠ .fails status := by
  have unbroken : ∀ position, ¬ log.BreaksAt position := fun position breaks =>
    clear position _ _ (.broken breaks)
  exact ⟨Log.entries_of_unbroken unbroken, fun _ fails => unbroken _ (Log.breaksAt_of_fails fails).1⟩

/-- If nothing is wrong at the entries that are listed, nor behind them, then nothing is anywhere. -/
theorem clear_of_unbroken (clear : ∀ earlier < log.listing.entries.length,
      Clear log read handler site earlier)
    (unbroken : ∀ status, log.listing.ending ≠ .fails status) (position : Nat) :
    Clear log read handler site position := by
  have goesOn : ∀ position, ¬ log.BreaksAt position := fun _ breaks => unbroken _ breaks.ending
  obtain within | beyond := Nat.lt_or_ge position log.listing.entries.length
  · exact clear position within
  · intro e attempts fault
    have none : log.entries[position]? = none := by
      rw [Log.entries_of_unbroken goesOn] at beyond
      exact List.getElem?_eq_none beyond
    cases fault with
    | broken breaks => exact goesOn _ breaks
    | unread _ here | rejected _ here => cases here.symm.trans none

/-- The first fault is at an entry that is listed, or right behind the last. -/
theorem FirstFault.le_length (first : FirstFault log read handler site position e attempts) :
    position ≤ log.listing.entries.length := by
  refine Nat.le_of_not_lt fun beyond => ?_
  have clear := first.clear _ beyond
  have goesOn : ¬ log.BreaksAt log.listing.entries.length := fun breaks =>
    clear _ _ (.broken breaks)
  have none : log.entries[position]? = none :=
    List.getElem?_eq_none (Nat.le_trans (List.getElem?_eq_none_iff.mp (Log.none_of_unbroken goesOn))
      (Nat.le_of_lt beyond))
  cases first.fault with
  | broken breaks => exact absurd breaks.eq_length (Nat.ne_of_gt beyond)
  | unread _ here | rejected _ here => cases here.symm.trans none

end Positions

end Replay

/-! ### Forwarded drains -/

namespace Forwarding

open Replay

/-- A reader of a forwarded drain that reads entries and hands them to a handler. -/
def Handling.ofHandler (read : α → Except DrainError Handed) (handler : Handler η) (site : η) :
    Handling α where
  refusal? entry :=
    match read entry with
    | .error e => some e
    | .ok _ => none
  answer entries :=
    match entries.getLast? with
    | none => .ok ()
    | some entry =>
      match read entry with
      | .error e => .error e
      | .ok handed =>
        ((handler.hand handed).run (siteAfter read handler site entries.dropLast)).1.mapError
          .handler

variable {log : Log α} {read : α → Except DrainError Handed} {handler : Handler η} {site : η}
  {e : DrainError} {drain : Forwarding α}

theorem Handling.refusal_eq_some_iff {entry : α} :
    (ofHandler read handler site).refusal? entry = some e ↔ read entry = .error e := by
  simp only [ofHandler]
  cases read entry <;> simp

theorem Handling.refusal_eq_none_iff {entry : α} :
    (ofHandler read handler site).refusal? entry = none ↔
      ∃ handed, read entry = .ok handed := by
  simp only [ofHandler]
  cases read entry <;> simp

theorem Handling.answer_read {before : List α} {entry : α} {handed : Handed}
    (reads : read entry = .ok handed) :
    (ofHandler read handler site).answer (before ++ [entry]) =
      ((handler.hand handed).run (siteAfter read handler site before)).1.mapError .handler := by
  simp [ofHandler, reads]

/-- The entries that are applied are those at which nothing is wrong. -/
theorem applies_iff_clear {entries : List α} (begins : entries <+: log.listing.entries) :
    (Handling.ofHandler read handler site).Applies entries ↔
      ∀ position < entries.length, Clear log read handler site position := by
  induction entries using List.reverseRecOn with
  | nil => exact ⟨fun _ => nofun, fun _ => .nil⟩
  | append_singleton before entry ih =>
    have earlier := ih ((List.prefix_append _ _).trans begins)
    rw [List.length_append, List.length_singleton, Nat.forall_lt_succ_right, ← earlier,
      clear_snoc_iff begins]
    constructor
    · intro applies
      obtain ⟨first, accepted, answer⟩ := applies.of_snoc
      obtain ⟨handed, reads⟩ := Handling.refusal_eq_none_iff.mp accepted
      rw [Handling.answer_read reads] at answer
      exact ⟨first, handed, reads, Action.mapError_eq_ok_iff.mp answer⟩
    · rintro ⟨first, handed, reads, answer⟩
      refine first.snoc (Handling.refusal_eq_none_iff.mpr ⟨handed, reads⟩) ?_
      rw [Handling.answer_read reads, answer]
      rfl

/-- What makes a forwarded drain fail is the first fault, and it has handed over what comes before
it, and what was handed over in vain. -/
theorem first_of_cause {handed : List α} (begins : handed <+: log.listing.entries)
    (cause : Cause (.ofHandler read handler site) (.ofListing log.listing) handed e) :
    ∃ position attempts, FirstFault log read handler site position e attempts ∧
      handed.length = position + attempts.length := by
  cases cause with
  | broken applies next =>
    obtain ⟨whole, status, fails, rfl⟩ := Source.item_eq_error_iff.mp next
    obtain ⟨breaks, rfl⟩ := Log.breaksAt_of_fails fails
    rw [← whole] at breaks
    exact ⟨handed.length, [], ⟨.broken breaks, (applies_iff_clear begins).mp applies⟩, rfl⟩
  | @refused _ entry _ applies next refusal =>
    have listed : handed ++ [entry] <+: log.listing.entries :=
      Source.beginsWith_iff.mp ((Source.beginsWith_iff.mpr begins).snoc next)
    have fault : Fault log read handler site handed.length e [] :=
      (fault_snoc_iff listed).mpr (.inl ⟨Handling.refusal_eq_some_iff.mp refusal, rfl⟩)
    exact ⟨handed.length, [], ⟨fault, (applies_iff_clear begins).mp applies⟩, rfl⟩
  | @failed earlier entry _ applies accepted answer =>
    obtain ⟨handed, reads⟩ := Handling.refusal_eq_none_iff.mp accepted
    rw [Handling.answer_read reads] at answer
    cases said : ((handler.hand handed).run (siteAfter read handler site earlier)).1 with
    | ok _ =>
      rw [said] at answer
      cases answer
    | error rejection =>
      rw [said] at answer
      cases answer
      have fault := (fault_snoc_iff begins).mpr (.inr ⟨handed, rejection, reads, said, rfl, rfl⟩)
      have clear := (applies_iff_clear ((List.prefix_append _ _).trans begins)).mp applies
      exact ⟨earlier.length, _, ⟨fault, clear⟩, List.length_append⟩

/-- And the first fault makes a forwarded drain fail. -/
theorem cause_of_first {position : Nat} {attempts : List Handing}
    (first : FirstFault log read handler site position e attempts) :
    ∃ handed, handed <+: log.listing.entries ∧
      Cause (.ofHandler read handler site) (.ofListing log.listing) handed e := by
  obtain within | rfl := Nat.lt_or_eq_of_le first.le_length
  · obtain ⟨before, behind, split, length⟩ : ∃ before behind,
        log.listing.entries = before ++ behind ∧ before.length = position :=
      ⟨_, _, (List.take_append_drop position _).symm, List.length_take_of_le (Nat.le_of_lt within)⟩
    subst length
    cases behind with
    | nil =>
      rw [split, List.append_nil] at within
      exact absurd within (Nat.lt_irrefl _)
    | cons entry rest =>
      have begins : before ++ [entry] <+: log.listing.entries :=
        ⟨rest, by rw [split, List.append_assoc, List.singleton_append]⟩
      have earlier : before <+: log.listing.entries := (List.prefix_append _ _).trans begins
      have applies : (Handling.ofHandler read handler site).Applies before :=
        (applies_iff_clear earlier).mpr first.clear
      obtain ⟨fails, _⟩ | ⟨handed, rejection, reads, rejects, rfl, _⟩ :=
        (fault_snoc_iff begins).mp first.fault
      · have next := ((Source.beginsWith_iff.mpr begins).of_snoc).2
        exact ⟨before, earlier,
          .refused applies next (Handling.refusal_eq_some_iff.mpr fails)⟩
      · refine ⟨before ++ [entry], begins,
          .failed applies (Handling.refusal_eq_none_iff.mpr ⟨handed, reads⟩) ?_⟩
        rw [Handling.answer_read reads, rejects]
        rfl
  · obtain ⟨breaks, rfl, _⟩ := fault_end_iff.mp first.fault
    exact ⟨log.listing.entries, List.prefix_rfl,
      .broken ((applies_iff_clear List.prefix_rfl).mpr first.clear)
        (Source.item_eq_error_iff.mpr ⟨rfl, _, breaks.ending, rfl⟩)⟩

end Forwarding

end GroupReplay
