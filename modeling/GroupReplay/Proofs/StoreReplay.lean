import GroupReplay.Proofs.Holding
import GroupReplay.Proofs.Plan
import GroupReplay.Proofs.ProjectionWrites

/-!
Replays into a store.  Every task comes to a list of writes that is known beforehand; one that is
carried out makes them all, and one that fails has at most begun them.  So whatever becomes of a
replay, it has at most begun its writes.  Tasks that were carried out once can be carried out again
from any state whose store refuses the same.
-/

namespace GroupReplay

open Wire Service Projection

namespace Replay

/-- A run on a store of either kind. -/
abbrev StoreRun := Run (Desk Store.AnyStore)

/-- The writes that a task comes to. -/
def Task.writes (home : Bytes) : Task → List Store.Write
  | account own => [.account (Key.encode own) ""]
  | applyMetadata _ event => writesOf (metadataWrites home event)
  | applyMessage group event =>
    match Message.decode (α := AppMessage) event.message with
    | .error _ => []
    | .ok message => writesOf (messageWrites (Key.encode group) event message)
  | _ => []

/-- The writes that the opening tasks of a replay come to. -/
def openingWrites (service : Service) : List Store.Write :=
  (openingTasks service).flatMap (Task.writes service.home)

/-- The writes that a replay of certain conversations comes to. -/
def replayWrites (service : Service) (listed : List Store.Conversation) : List Store.Write :=
  (tasks service listed).flatMap (Task.writes service.home)

/-- The conversations that are listed once the opening writes were made. -/
def listedFrom (service : Service) (records : Store.Records) : List Store.Conversation :=
  (Store.Records.carryAll (openingWrites service) records).conversations

variable {task : Task} {home : Bytes} {result : Except (Halt Error) Unit}

/-! ### What tasks write -/

section Writing

variable {σ : Type} [Store.LocalStore σ] {held : σ → Store.AnyStore} {run after : Run (Desk σ)}

private theorem applied_began {action : Action (Desk σ) Projection.Error Unit}
    {writes : Except Projection.Error (List Noticed)} {desk : Desk σ} (backed : Store.Backed held)
    (comes : action = .ofExcept writes >>= writeAll false) (sound : (held desk.store).Sound) :
    (held desk.store).Began (writesOf writes) (held (action.run desk).2.store) ∧
      ((action.run desk).1 = .ok () →
        (held desk.store).Wrote (writesOf writes) (held (action.run desk).2.store)) := by
  subst comes
  cases writes with
  | error e => exact ⟨.none sound [], fun _ => .refl sound⟩
  | ok writes => exact writeAll_began backed sound (Prod.eta _).symm

/-- An operation on a desk is one on its store. -/
theorem desk_performed {α : Type} {op : Store.Op α} {desk : Desk σ}
    {answer : Except Store.Error α} {store : σ}
    (performed : Store.LocalStore.perform op desk.store = (answer, store)) :
    Store.LocalStore.perform op desk = (answer, { desk with store }) := by
  simp only [Store.LocalStore.perform, performed]

/-- What backs a store backs it on a desk. -/
theorem backed_desk (backed : Store.Backed held) :
    Store.Backed fun desk : Desk σ => held desk.store where
  ok performed := by
    rw [desk_performed (Prod.eta _).symm] at performed
    obtain ⟨answered, rfl⟩ := Prod.mk.inj performed
    exact backed.ok (Prod.ext answered rfl)
  error sound performed := by
    rw [desk_performed (Prod.eta _).symm] at performed
    obtain ⟨failed, rfl⟩ := Prod.mk.inj performed
    exact backed.error sound (Prod.ext failed rfl)

/-- What a task does to the store begins its writes, and makes all of them if it succeeds. -/
private theorem on_site_began {site later : Desk σ} {outcome : Except Error Unit}
    (backed : Store.Backed held) (sound : (held site.store).Sound)
    (ran : (task.onSite (toStoreSilently home)).run site = (outcome, later)) :
    (held site.store).Began (task.writes home) (held later.store) ∧
      (outcome = .ok () → (held site.store).Wrote (task.writes home) (held later.store)) := by
  cases task with
  | account own =>
    cases performed : Store.LocalStore.perform (.ensureAccount (Key.encode own) "") site.store with
    | mk answer store =>
      simp only [Task.onSite, Action.run_bind, Action.mapError, Store.perform,
        desk_performed performed] at ran
      cases answer with
      | error e =>
        cases ran
        have broken : Store.Broken (Store.Write.account (Key.encode own) "").op
          (held site.store) (held store) := backed.error sound performed
        exact ⟨broken.began sound, fun succeeded => by cases succeeded⟩
      | ok created =>
        cases ran
        have wrote : (held site.store).Wrote [.account (Key.encode own) ""] (held store) :=
          Store.AnyStore.wrote_of_ok sound (backed.ok performed)
        exact ⟨wrote.began, fun _ => wrote⟩
  | conversations =>
    cases performed : Store.LocalStore.perform .conversations site.store with
    | mk answer store =>
      simp only [Task.onSite, Action.run_bind, Action.mapError, Store.perform,
        desk_performed performed] at ran
      have unchanged : held store = held site.store := by
        have kept := backed.listing_unchanged sound
        rwa [performed] at kept
      have left : later.store = store := by cases answer <;> cases ran <;> rfl
      rw [left, unchanged]
      exact ⟨.none sound [], fun _ => .refl sound⟩
  | applyMetadata group event =>
    rw [Task.onSite, Action.run_mapError] at ran
    cases ran
    obtain ⟨began, ended⟩ := applied_began backed (applyMetadata_writes home false event) sound
    exact ⟨began, fun succeeded => ended (Action.mapError_eq_ok_iff.mp succeeded)⟩
  | applyMessage group event =>
    rw [Task.onSite] at ran
    rw [Task.writes]
    cases decoded : Message.decode (α := AppMessage) event.message with
    | error e =>
      rw [decoded] at ran
      cases ran
      exact ⟨.none sound [], fun succeeded => by cases succeeded⟩
    | ok message =>
      simp only [decoded, Action.run_mapError] at ran
      cases ran
      obtain ⟨began, ended⟩ :=
        applied_began backed (applyMessage_writes false (Key.encode group) event message) sound
      exact ⟨began, fun succeeded => ended (Action.mapError_eq_ok_iff.mp succeeded)⟩
  | _ =>
    cases ran
    exact ⟨.none sound [], fun _ => .refl sound⟩

/-- A task begins its writes, and makes all of them if it is carried out. -/
theorem performed_began (backed : Store.Backed held) (sound : (held run.site.store).Sound)
    (direct : run.link = .direct)
    (ran : (task.perform (toStoreSilently home)).run run = (result, after)) :
    (held run.site.store).Began (task.writes home) (held after.site.store) ∧
      (result = .ok () →
        (held run.site.store).Wrote (task.writes home) (held after.site.store)) := by
  obtain ⟨did, stopped⟩ := performed_site direct ran
  cases result with
  | ok value =>
    have wrote := (on_site_began backed sound (did rfl)).2 rfl
    exact ⟨wrote.began, fun _ => wrote⟩
  | error halt =>
    refine ⟨?_, nofun⟩
    obtain same | ⟨e, failed⟩ := stopped halt rfl
    · rw [same]
      exact .none sound _
    · exact (on_site_began backed sound failed).1

/-- Tasks that are carried out make all of their writes. -/
theorem Passed.wrote_held {done : List Task} (passed : Passed (toStoreSilently home) run done after)
    (backed : Store.Backed held) (sound : (held run.site.store).Sound)
    (direct : run.link = .direct) :
    (held run.site.store).Wrote (done.flatMap (·.writes home)) (held after.site.store) := by
  induction passed with
  | nil => exact .refl sound
  | cons performed _ ih =>
    have wrote := (performed_began backed sound direct performed).2 rfl
    exact wrote.append (ih wrote.later.sound (performed_link direct performed))

/-- What is listed is what the store holds. -/
theorem listed_of_performed {listed : List Store.Conversation} {site : Desk σ}
    (backed : Store.Backed held) (sound : (held run.site.store).Sound)
    (performed : Store.LocalStore.perform .conversations run.site = (.ok listed, site)) :
    listed = (held run.site.store).records.conversations := by
  rw [desk_performed (Prod.eta _).symm] at performed
  obtain ⟨answered, _⟩ := Prod.mk.inj performed
  exact (Store.AnyStore.carried_of_ok sound (backed.ok (Prod.ext answered rfl))).2.1

/-- What is listed once the opening tasks are done is what their writes lead to. -/
theorem lists_from (backed : Store.Backed held) (sound : (held run.site.store).Sound)
    (direct : run.link = .direct) :
    Lists (toStoreSilently run.service.home) run
      (listedFrom run.service (held run.site.store).records) := by
  intro middle answer site opening performed
  have wrote := opening.wrote_held backed sound direct
  rw [listed_of_performed backed wrote.later.sound performed, wrote.records]
  rfl

/-- Whatever becomes of a replay, its writes were begun. -/
theorem replay_began {outcome : Except (Halt Error) Summary} (backed : Store.Backed held)
    (sound : (held run.site.store).Sound) (direct : run.link = .direct)
    (ran : replayToStore.run run = (outcome, after)) :
    (held run.site.store).Began
      (replayWrites run.service (listedFrom run.service (held run.site.store).records))
      (held after.site.store) := by
  obtain ⟨_, passed⟩ | ⟨done, task, rest, middle, halt, stopped, split, passed, failed, _, last⟩ :=
    replay_cases direct (lists_from backed sound direct) ran
  · exact (passed.wrote_held backed sound direct).began
  · have wrote := passed.wrote_held backed sound direct
    have began := (performed_began backed wrote.later.sound (passed.link direct) failed).1
    rw [last, stoppedAt_site, replayWrites, split, List.flatMap_append, List.flatMap_cons]
    exact wrote.then_began (began.append _)

end Writing

variable {first middle now run after once : StoreRun}

/-- A task that is carried out makes its writes. -/
theorem performed_wrote (sound : run.site.store.Sound) (direct : run.link = .direct)
    (ran : (task.perform (toStoreSilently home)).run run = (.ok (), after)) :
    run.site.store.Wrote (task.writes home) after.site.store :=
  (performed_began Store.backed_id (by exact sound) direct ran).2 rfl

theorem Passed.wrote {done : List Task} (passed : Passed (toStoreSilently home) run done after)
    (sound : run.site.store.Sound) (direct : run.link = .direct) :
    run.site.store.Wrote (done.flatMap (·.writes home)) after.site.store :=
  passed.wrote_held Store.backed_id sound direct

/-- A replay into a store succeeds exactly if all tasks are carried out, those of the conversations
that the opening writes lead to included. -/
theorem succeeded_iff {summary : Summary} (direct : run.link = .direct)
    (sound : run.site.store.Sound) :
    replayToStore.run run = (.ok summary, once) ↔
      Passed (toStoreSilently run.service.home) run
        (tasks run.service (listedFrom run.service run.site.store.records)) once ∧
      summary = totals run.service (listedFrom run.service run.site.store.records) := by
  have lists := lists_from Store.backed_id sound direct
  simp only [id_eq] at lists
  constructor
  · intro succeeded
    obtain ⟨counted, passed⟩ | ⟨_, _, _, _, _, _, _, _, _, failed, _⟩ :=
      replay_cases direct lists succeeded
    · exact ⟨passed, Except.ok.inj counted⟩
    · cases failed
  · rintro ⟨passed, rfl⟩
    rw [replayToStore, replay_carries_out direct lists, Action.run_bind,
      carryOut_of_passed direct none passed]
    rfl

/-- A replay into a store that succeeded carried its opening tasks out, listed the conversations that
the store held then, and carried out theirs. -/
theorem succeeded_passed {summary : Summary} (direct : run.link = .direct)
    (sound : run.site.store.Sound) (succeeded : replayToStore.run run = (.ok summary, once)) :
    ∃ opened listed, Passed (toStoreSilently run.service.home) run (openingTasks run.service) opened ∧
      listed = opened.site.store.records.conversations ∧
      Passed (toStoreSilently run.service.home) opened
        (.conversations :: conversationTasks run.service listed) once ∧
      summary = totals run.service listed := by
  obtain ⟨passed, counted⟩ := (succeeded_iff direct sound).mp succeeded
  obtain ⟨opened, opening, more⟩ := passed_append_iff.mp passed
  have listing := congrArg Store.Records.conversations (opening.wrote sound direct).records
  exact ⟨opened, _, opening, listing.symm, more, counted⟩

/-! ### Tasks that are carried out from another state -/

/-- A run that can do what another one did: nobody cancels, the service differs at most in what is
active, and the store refuses the same. -/
structure Ready (first now : StoreRun) : Prop where
  direct : now.link = .direct
  quiet : now.token.Quiet
  alike : now.service.Alike first.service
  sound : now.site.store.Sound
  refusal : ∀ {α : Type} (op : Store.Op α),
    now.site.store.refusal? op = first.site.store.refusal? op

private theorem applied_anew {action : Action (Desk Store.AnyStore) Projection.Error Unit}
    {writes : Except Projection.Error (List Noticed)} {desk other : Desk Store.AnyStore}
    (comes : action = .ofExcept writes >>= writeAll false) (sound : desk.store.Sound)
    (applied : (action.run desk).1 = .ok ()) (otherSound : other.store.Sound)
    (refusal : ∀ {α : Type} (op : Store.Op α), other.store.refusal? op = desk.store.refusal? op) :
    ∃ after, action.run other = (.ok (), after) := by
  subst comes
  cases writes with
  | error e => cases applied
  | ok writes =>
    have accepted := accepted_of_writeAll sound (Prod.ext applied rfl)
    exact writeAll_accepted otherSound fun each member =>
      (refusal each.1.op).trans (accepted each member)

/-- A task that was carried out is carried out from a state that is ready for it. -/
theorem performed_anew (direct : first.link = .direct) (sound : first.site.store.Sound)
    (ran : (task.perform (toStoreSilently home)).run first = (.ok (), middle))
    (ready : Ready first now)
    (opens : ∀ group, task = .openMetadata group ∨ task = .openMessages group →
      group ∈ now.service.active) :
    ∃ after, (task.perform (toStoreSilently home)).run now = (.ok (), after) := by
  cases task with
  | configuration =>
    rw [Task.configuration_run direct] at ran
    have configured : now.service.configuration = first.service.configuration := by
      rw [ready.alike]
      rfl
    obtain ⟨answered, _⟩ := Prod.mk.inj ran
    rw [Task.configuration_run ready.direct, configured, answered]
    exact ⟨_, rfl⟩
  | account own =>
    cases performed : first.site.store.perform (.ensureAccount (Key.encode own) "") with
    | mk answer store =>
      rw [Task.account_run (desk_performed performed)] at ran
      obtain ⟨succeeded, rfl⟩ := Prod.mk.inj ran
      cases answer with
      | error e => cases succeeded
      | ok created =>
        obtain ⟨accepted, _⟩ := Store.AnyStore.carried_of_ok sound performed
        rw [← ready.refusal] at accepted
        obtain ⟨later, performedNow, _⟩ := Store.AnyStore.perform_carried ready.sound accepted
        rw [Task.account_run (desk_performed performedNow)]
        exact ⟨_, rfl⟩
  | conversations =>
    cases performed : first.site.store.perform .conversations with
    | mk answer store =>
      rw [Task.conversations_run (desk_performed performed)] at ran
      obtain ⟨succeeded, rfl⟩ := Prod.mk.inj ran
      cases answer with
      | error e => cases succeeded
      | ok listed =>
        obtain ⟨accepted, _⟩ := Store.AnyStore.carried_of_ok sound performed
        rw [← ready.refusal] at accepted
        obtain ⟨later, performedNow, _⟩ := Store.AnyStore.perform_carried ready.sound accepted
        rw [Task.conversations_run (desk_performed performedNow)]
        exact ⟨_, rfl⟩
  | unreadable key e => cases ran
  | activate group =>
    have accepted := activate_passed direct ran
    rw [← ready.alike.failsActivate] at accepted
    rw [Task.activate_run ready.direct, Service.activate, if_neg accepted]
    split <;> exact ⟨_, rfl⟩
  | openMetadata group =>
    rw [Task.openMetadata_run direct] at ran
    split at ran
    · next listing listed =>
      have accepted := (Service.listMetadata_eq_ok_iff.mp listed).1
      have reopened : now.service.listMetadata group =
          .ok (now.service.logsOf group).metadata.listing :=
        Service.listMetadata_eq_ok_iff.mpr
          ⟨by rwa [ready.alike], opens group (.inl rfl), rfl⟩
      rw [Task.openMetadata_run ready.direct, reopened]
      exact ⟨_, rfl⟩
    · cases ran
  | applyMetadata group event =>
    rw [Task.applyMetadata_run (Prod.eta _).symm] at ran
    split at ran
    · cases ran
    · obtain ⟨succeeded, rfl⟩ := Prod.mk.inj ran
      obtain ⟨after, applied⟩ := applied_anew (applyMetadata_writes home false event) sound
        (Action.mapError_eq_ok_iff.mp succeeded) ready.sound ready.refusal
      rw [Task.applyMetadata_run applied, ready.quiet.clear]
      exact ⟨_, rfl⟩
  | closeMetadata group logEnd =>
    rw [Task.closeMetadata_run] at ran
    rw [Task.closeMetadata_run, ready.quiet.clear]
    cases logEnd <;> split at ran <;> cases ran
    exact ⟨_, rfl⟩
  | openMessages group =>
    rw [Task.openMessages_run direct] at ran
    split at ran
    · next listing listed =>
      have accepted := (Service.listMessages_eq_ok_iff.mp listed).1
      have reopened : now.service.listMessages group =
          .ok (now.service.logsOf group).messages.listing :=
        Service.listMessages_eq_ok_iff.mpr
          ⟨by rwa [ready.alike], opens group (.inr rfl), rfl⟩
      rw [Task.openMessages_run ready.direct, reopened]
      exact ⟨_, rfl⟩
    · cases ran
  | applyMessage group event =>
    cases decoded : Message.decode (α := AppMessage) event.message with
    | error e =>
      rw [Task.applyMessage_undecodable decoded] at ran
      split at ran <;> cases ran
    | ok message =>
      rw [Task.applyMessage_run decoded (Prod.eta _).symm] at ran
      split at ran
      · cases ran
      · obtain ⟨succeeded, rfl⟩ := Prod.mk.inj ran
        obtain ⟨after, applied⟩ :=
          applied_anew (applyMessage_writes false (Key.encode group) event message) sound
            (Action.mapError_eq_ok_iff.mp succeeded) ready.sound ready.refusal
        rw [Task.applyMessage_run decoded applied, ready.quiet.clear]
        exact ⟨_, rfl⟩
  | closeMessages group logEnd =>
    rw [Task.closeMessages_run] at ran
    rw [Task.closeMessages_run, ready.quiet.clear]
    cases logEnd <;> split at ran <;> cases ran
    exact ⟨_, rfl⟩
  | deactivate group =>
    have accepted := deactivate_passed direct ran
    rw [← ready.alike.failsDeactivate] at accepted
    rw [Task.deactivate_run ready.direct, Service.deactivate, if_neg accepted]
    split <;> exact ⟨_, rfl⟩

theorem Ready.step (ready : Ready first now) (direct : first.link = .direct)
    (sound : first.site.store.Sound)
    (ran : (task.perform (toStoreSilently home)).run first = (.ok (), middle))
    (ranNow : (task.perform (toStoreSilently home)).run now = (.ok (), after)) :
    Ready middle after := by
  have alike := performed_alike direct (.refl first.service) ran
  have wrote := performed_wrote sound direct ran
  have wroteNow := performed_wrote ready.sound ready.direct ranNow
  refine ⟨performed_link ready.direct ranNow, performed_quiet ready.direct ready.quiet ranNow,
    (performed_alike ready.direct ready.alike ranNow).trans alike.symm, wroteNow.later.sound, ?_⟩
  intro α op
  calc after.site.store.refusal? op
    _ = now.site.store.refusal? op := wroteNow.later.refusal op
    _ = first.site.store.refusal? op := ready.refusal op
    _ = middle.site.store.refusal? op := (wrote.later.refusal op).symm

/-- Tasks that were carried out are carried out from a state that is ready for them. -/
theorem Passed.anew {start : Service} {held : Option Bytes} {done : List Task} {last : StoreRun}
    (passed : Passed (toStoreSilently home) first done last) (direct : first.link = .direct)
    (sound : first.site.store.Sound) (ready : Ready first now)
    (keeps : Keeps start held now.service) (orderly : Orderly start.home held done) :
    ∃ after, Passed (toStoreSilently home) now done after := by
  induction passed generalizing now held with
  | nil => exact ⟨now, .nil now⟩
  | cons performed _ ih =>
    obtain ⟨next, performedNow⟩ :=
      performed_anew direct sound performed ready (keeps.opens_active orderly.1)
    have wrote := performed_wrote sound direct performed
    obtain ⟨after, passedNow⟩ := ih (performed_link direct performed) wrote.later.sound
      (ready.step direct sound performed performedNow)
      (keeps.step ready.direct orderly.1 performedNow) orderly.2
    exact ⟨after, .cons performedNow passedNow⟩

/-! ### Accounts that only their own log speaks of -/

/-- Only the home group's metadata log holds events that concern the account. -/
def AccountAtHome (service : Service) : Prop :=
  ∀ group ≠ service.home, ∀ event ∈ (service.logsOf group).metadata.entries,
    ¬ OfAccount service.home event

/-- It is so if the metadata logs of all other groups are empty. -/
theorem accountAtHome_of_empty {service : Service} (empty : ∀ named ∈ service.logs,
    named.1 ≠ service.home → named.2.metadata.entries = []) : AccountAtHome service := by
  intro group foreign event member
  cases found : service.logs.lookup group with
  | none => simp [Service.logsOf, found] at member
  | some logs =>
    obtain ⟨before, behind, split, _⟩ := List.lookup_eq_some_iff.mp found
    have among : (group, logs) ∈ service.logs := by simp [split]
    have nothing : logs.metadata.entries = [] := empty _ among foreign
    rw [Service.logsOf, found, Option.getD_some, nothing] at member
    cases member

/-- The logs of conversations add no conversation then. -/
theorem conversationTasks_add_none {service : Service} (atHome : AccountAtHome service)
    (listed : List Store.Conversation) :
    ∀ task ∈ conversationTasks service listed, ∀ write ∈ task.writes service.home,
      AddsNone write := by
  have nothing : ∀ write ∈ ([] : List Store.Write), AddsNone write := List.forall_mem_nil _
  refine forall_conversationTasks (fun _ _ => nothing) (fun group => ?_) listed
  refine forall_groupTasks nothing (fun foreign => ?_) ?_ nothing
  · refine forall_metadataTasks nothing (fun event member => ?_) nothing
    exact metadataWrites_add_none (atHome group foreign event member)
  · refine forall_messageTasks nothing (fun event _ => ?_) nothing
    rw [Task.writes]
    split
    · exact nothing
    · exact messageWrites_add_none _ event _

/-- All writes of a replay lead to the conversations that its opening writes lead to. -/
theorem conversations_of_replayWrites {service : Service} (atHome : AccountAtHome service)
    (listed : List Store.Conversation) (records : Store.Records) :
    (Store.Records.carryAll (replayWrites service listed) records).conversations =
      listedFrom service records := by
  have others : ∀ write ∈ (Task.conversations :: conversationTasks service listed).flatMap
      (Task.writes service.home), AddsNone write := by
    intro write member
    obtain ⟨task, among, writes⟩ := List.mem_flatMap.mp member
    obtain rfl | among := List.mem_cons.mp among
    · cases writes
    · exact conversationTasks_add_none atHome listed task among write writes
  rw [replayWrites, tasks, List.flatMap_append, Store.Records.carryAll_append,
    Store.Records.carryAll_conversations others]
  rfl

end Replay

end GroupReplay
