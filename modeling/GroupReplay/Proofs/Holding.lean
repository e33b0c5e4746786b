import GroupReplay.Proofs.Flattening

/-!
Which group is held while a replay's tasks are carried out.  The tasks are in order: a group is
taken only while none is held, only the held group is given back, and only the logs of the held
group, or of home while none is held, are listed.  Along tasks in order the service keeps every
group active that a task needs, and none that nobody needs.
-/

namespace GroupReplay

open Wire Service Projection

namespace Replay

/-- A task that can be carried out while a group is held, or none is. -/
def Task.Fits (home : Bytes) (held : Option Bytes) : Task → Prop
  | activate group => held = none ∧ group ≠ home
  | deactivate group => held = some group
  | openMetadata group | openMessages group => held = some group ∨ held = none ∧ group = home
  | _ => True

/-- Every task fits what is held when it is its turn. -/
def Orderly (home : Bytes) : Option Bytes → List Task → Prop
  | _, [] => True
  | held, task :: rest => task.Fits home held ∧ Orderly home (task.holding held) rest

theorem orderly_append_iff {home : Bytes} {held : Option Bytes} {first second : List Task} :
    Orderly home held (first ++ second) ↔
      Orderly home held first ∧ Orderly home (heldAfter held first) second := by
  induction first generalizing held with
  | nil => simp [Orderly, heldAfter]
  | cons task rest ih => simp only [List.cons_append, Orderly, ih, and_assoc]; rfl

private theorem orderly_of_stays {home : Bytes} {held : Option Bytes} {block : List Task}
    (stay : ∀ task ∈ block, task.Stays) (fit : ∀ task ∈ block, task.Fits home held) :
    Orderly home held block := by
  induction block with
  | nil => trivial
  | cons task rest ih =>
    refine ⟨fit task (by simp), ?_⟩
    rw [(stay task (by simp)).holding]
    exact ih (fun task member => stay task (by simp [member]))
      fun task member => fit task (by simp [member])

/-- The logs of a group can be listed while it is held, those of home while none is. -/
def Listable (home : Bytes) (held : Option Bytes) (group : Bytes) : Prop :=
  held = some group ∨ held = none ∧ group = home

variable {service : Service} {held : Option Bytes} {group : Bytes}

theorem orderly_metadataTasks (listable : Listable service.home held group) :
    Orderly service.home held (metadataTasks service group) := by
  exact orderly_of_stays (metadataTasks_stay service group)
    (forall_metadataTasks listable (fun _ _ => trivial) trivial)

theorem orderly_messageTasks (listable : Listable service.home held group) :
    Orderly service.home held (messageTasks service group) := by
  exact orderly_of_stays (messageTasks_stay service group)
    (forall_messageTasks listable (fun _ _ => trivial) trivial)

theorem orderly_groupTasks (service : Service) (group : Bytes) :
    Orderly service.home none (groupTasks service group) := by
  rw [groupTasks]
  split
  · next home => exact orderly_messageTasks (.inr ⟨rfl, home⟩)
  · next foreign =>
    refine ⟨⟨rfl, foreign⟩, orderly_append_iff.mpr ⟨?_, ?_⟩⟩
    · refine orderly_append_iff.mpr ⟨orderly_metadataTasks (.inl rfl), ?_⟩
      rw [heldAfter_of_stays (metadataTasks_stay service group)]
      exact orderly_messageTasks (.inl rfl)
    · rw [heldAfter_of_stays (bothTasks_stay service group)]
      exact ⟨rfl, trivial⟩

theorem orderly_conversationTasks (service : Service) (listed : List Store.Conversation) :
    Orderly service.home none (conversationTasks service listed) := by
  induction listed with
  | nil => trivial
  | cons next rest ih =>
    rw [conversationTasks]
    cases Key.decode next.key with
    | error e => exact ⟨trivial, trivial⟩
    | ok group =>
      refine orderly_append_iff.mpr ⟨orderly_groupTasks service group, ?_⟩
      rw [heldAfter_groupTasks]
      exact ih

theorem orderly_openingTasks (service : Service) :
    Orderly service.home none (openingTasks service) :=
  ⟨trivial, trivial, orderly_metadataTasks (.inr ⟨rfl, rfl⟩)⟩

/-- The tasks of a replay are in order. -/
theorem orderly_tasks (service : Service) (listed : List Store.Conversation) :
    Orderly service.home none (tasks service listed) := by
  refine orderly_append_iff.mpr ⟨orderly_openingTasks service, ?_⟩
  rw [heldAfter_openingTasks]
  exact ⟨trivial, orderly_conversationTasks service listed⟩

theorem heldAfter_append (held : Option Bytes) (first second : List Task) :
    heldAfter held (first ++ second) = heldAfter (heldAfter held first) second :=
  List.foldl_append

/-- All tasks of a replay done, nothing is held. -/
theorem heldAfter_tasks (service : Service) (listed : List Store.Conversation) :
    heldAfter none (tasks service listed) = none := by
  have conversations : heldAfter none (conversationTasks service listed) = none := by
    induction listed with
    | nil => rfl
    | cons next rest ih =>
      rw [conversationTasks]
      cases Key.decode next.key with
      | error e => rfl
      | ok group => rw [heldAfter_append, heldAfter_groupTasks, ih]
  rw [tasks, heldAfter_append, heldAfter_openingTasks]
  exact conversations

/-! ### The service along tasks in order -/

/-- A service that refuses a group is left as it was. -/
theorem activate_refused (refuses : group ∈ service.failsActivate) :
    (service.activate group).2 = service := by
  rw [Service.activate, if_pos refuses]

theorem deactivate_rejected (rejects : group ∈ service.failsDeactivate) :
    (service.deactivate group).2 = service := by
  rw [Service.deactivate, if_pos rejects]

/-- What is active after a group was activated. -/
theorem active_activate {other : Bytes} (accepted : group ∉ service.failsActivate) :
    other ∈ (service.activate group).2.active ↔ other ∈ service.active ∨ other = group := by
  simp only [Service.activate, accepted, ↓reduceIte]
  split
  · next already =>
    exact ⟨.inl, fun either => either.elim id fun same => same ▸ already⟩
  · simp

/-- What is active after a group other than home was deactivated. -/
theorem active_deactivate {other : Bytes} (accepted : group ∉ service.failsDeactivate)
    (foreign : group ≠ service.home) :
    other ∈ (service.deactivate group).2.active ↔ other ∈ service.active ∧ other ≠ group := by
  simp [Service.deactivate, accepted, foreign]

/-- The service, as `start` became it, keeps active what is needed while a group is held, and no
more. -/
structure Keeps (start : Service) (held : Option Bytes) (now : Service) : Prop where
  alike : now.Alike start
  home : start.home ∈ now.active
  heldActive : ∀ group, held = some group → group ∈ now.active
  heldForeign : ∀ group, held = some group → group ≠ start.home
  others : ∀ group ∈ now.active, group ∈ start.active ∨ held = some group

variable {start now : Service}

theorem Keeps.initial (homeActive : start.home ∈ start.active) : Keeps start none start where
  alike := .refl start
  home := homeActive
  heldActive _ held := nomatch held
  heldForeign _ held := nomatch held
  others _ active := .inl active

theorem Keeps.listable_active (keeps : Keeps start held now)
    (listable : Listable start.home held group) : group ∈ now.active := by
  obtain holds | ⟨_, rfl⟩ := listable
  · exact keeps.heldActive group holds
  · exact keeps.home

theorem Keeps.opens_active {task : Task} (keeps : Keeps start held now)
    (fits : task.Fits start.home held) :
    ∀ group, task = .openMetadata group ∨ task = .openMessages group → group ∈ now.active := by
  rintro group (rfl | rfl) <;> exact keeps.listable_active fits

theorem Keeps.activated (keeps : Keeps start none now) (foreign : group ≠ start.home)
    (accepted : group ∉ now.failsActivate) : Keeps start (some group) (now.activate group).2 := by
  refine ⟨keeps.alike.activate group, (active_activate accepted).mpr (.inl keeps.home), ?_, ?_, ?_⟩
  · rintro _ ⟨⟩
    exact (active_activate accepted).mpr (.inr rfl)
  · rintro _ ⟨⟩
    exact foreign
  · intro other isActive
    obtain before | rfl := (active_activate accepted).mp isActive
    · exact .inl ((keeps.others other before).resolve_right nofun)
    · exact .inr rfl

theorem Keeps.deactivated (keeps : Keeps start (some group) now)
    (accepted : group ∉ now.failsDeactivate) : Keeps start none (now.deactivate group).2 := by
  have foreign := keeps.heldForeign group rfl
  have active (other : Bytes) : other ∈ (now.deactivate group).2.active ↔ _ :=
    active_deactivate accepted (by rwa [keeps.alike.home])
  refine ⟨keeps.alike.deactivate group, (active _).mpr ⟨keeps.home, foreign.symm⟩, nofun, nofun, ?_⟩
  intro other isActive
  obtain ⟨wasActive, differs⟩ := (active other).mp isActive
  obtain before | same := keeps.others other wasActive
  · exact .inl before
  · exact absurd (Option.some.inj same).symm differs

section Steps

variable {η : Type} [Store.LocalStore η] {handler : Handler η} {run after : Run η} {task : Task}

theorem activate_passed (direct : run.link = .direct)
    (ran : ((Task.activate group).perform handler).run run = (.ok (), after)) :
    group ∉ run.service.failsActivate := by
  rw [Task.activate_run direct] at ran
  intro fails
  simp [Service.activate, fails] at ran

theorem deactivate_passed (direct : run.link = .direct)
    (ran : ((Task.deactivate group).perform handler).run run = (.ok (), after)) :
    group ∉ run.service.failsDeactivate := by
  rw [Task.deactivate_run direct] at ran
  intro fails
  simp [Service.deactivate, fails] at ran

theorem activate_failed {halt : Halt Error} (direct : run.link = .direct)
    (ran : ((Task.activate group).perform handler).run run = (.error halt, after)) :
    group ∈ run.service.failsActivate := by
  rw [Task.activate_run direct] at ran
  refine Decidable.byContradiction fun accepts => ?_
  simp only [Service.activate, accepts, ↓reduceIte] at ran
  split at ran <;> cases ran

theorem deactivate_failed {halt : Halt Error} (direct : run.link = .direct)
    (ran : ((Task.deactivate group).perform handler).run run = (.error halt, after)) :
    group ∈ run.service.failsDeactivate := by
  rw [Task.deactivate_run direct] at ran
  refine Decidable.byContradiction fun accepts => ?_
  simp only [Service.deactivate, accepts, ↓reduceIte] at ran
  split at ran <;> cases ran

/-- A task that fits and is carried out leaves the service as the next task needs it. -/
theorem Keeps.step (keeps : Keeps start held run.service) (direct : run.link = .direct)
    (fits : task.Fits start.home held)
    (ran : (task.perform handler).run run = (.ok (), after)) :
    Keeps start (task.holding held) after.service := by
  rw [performed_service direct ran]
  cases task with
  | activate group =>
    obtain ⟨rfl, foreign⟩ := fits
    exact keeps.activated foreign (activate_passed direct ran)
  | deactivate group =>
    obtain rfl : held = some group := fits
    exact keeps.deactivated (deactivate_passed direct ran)
  | _ => exact keeps

theorem Passed.keeps {done : List Task} (passed : Passed handler run done after)
    (direct : run.link = .direct) (keeps : Keeps start held run.service)
    (orderly : Orderly start.home held done) :
    Keeps start (heldAfter held done) after.service := by
  induction passed generalizing held with
  | nil => exact keeps
  | cons passed _ ih =>
    exact ih (performed_link direct passed) (keeps.step direct orderly.1 passed) orderly.2

/-- The opening tasks are carried out only if home is active. -/
theorem home_active_of_opened (direct : run.link = .direct)
    (opening : Passed handler run (openingTasks run.service) after) :
    run.service.home ∈ run.service.active := by
  obtain _ | ⟨configured, _ | ⟨ensured, _ | ⟨opened, _⟩⟩⟩ := opening
  have configuredDirect := performed_link direct configured
  have service := (performed_service configuredDirect ensured).trans
    (performed_service direct configured)
  rw [Task.openMetadata_run (performed_link configuredDirect ensured), service] at opened
  split at opened
  · next listed => exact (Service.listMetadata_eq_ok_iff.mp listed).2.1
  · cases opened

end Steps

end Replay

end GroupReplay
