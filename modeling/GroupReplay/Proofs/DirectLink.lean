import GroupReplay.Service.Client

/-!
Calls of the protocol service over a direct link: the call is observed, and the service answers.
Nothing else of the run changes, and of the service at most which groups are active.
-/

namespace GroupReplay

open Wire

namespace Run

variable {η : Type}

/-- The run after a call of the service was observed and answered. -/
def answered (call : Call) (service : Service) (run : Run η) : Run η :=
  { run.observe call with service }

@[simp] theorem answered_service (call : Call) (service : Service) (run : Run η) :
    (run.answered call service).service = service := rfl

@[simp] theorem answered_calls (call : Call) (service : Service) (run : Run η) :
    (run.answered call service).calls = run.calls ++ [call] := rfl

@[simp] theorem answered_link (call : Call) (service : Service) (run : Run η) :
    (run.answered call service).link = run.link := rfl

@[simp] theorem answered_token (call : Call) (service : Service) (run : Run η) :
    (run.answered call service).token = run.token := rfl

@[simp] theorem answered_site (call : Call) (service : Service) (run : Run η) :
    (run.answered call service).site = run.site := rfl

end Run

namespace Service.Client

variable {η : Type} {run : Run η}

/-- A status that the service reports, as an error. -/
abbrev reported {α : Type} (answer : Except Status α) : Except Service.Error α :=
  answer.mapError .status

theorem ok_of_reported {α : Type} {answer : Except Status α} {value : α}
    (ok : reported answer = .ok value) : answer = .ok value := by
  cases answer with
  | error status => cases ok
  | ok value => cases ok; rfl

private theorem served {α : Type} (direct : run.link = .direct) (call : Call)
    (answer : Service → Except Status α × Service) (remote : Action (Run η) Status α) :
    (byLink (do .modify (·.observe call); Run.atService answer) remote).run run =
      (reported (answer run.service).1, run.answered call (answer run.service).2) := by
  have observed : (run.observe call).service = run.service := rfl
  simp only [byLink, Action.mapError, direct]
  simp only [Action.run_bind, Action.run_modify, Run.atService, observed]
  cases answer run.service with
  | mk result service => cases result <;> rfl

theorem configuration_run (direct : run.link = .direct) :
    configuration.run run =
      (reported run.service.configuration, run.answered .configuration run.service) :=
  served direct _ _ _

theorem activate_run (direct : run.link = .direct) (group : Bytes) (localOnly : Bool) :
    (activate group localOnly).run run =
      (reported (run.service.activate group).1,
        run.answered (.activate (Key.encode group) localOnly) (run.service.activate group).2) :=
  served direct _ _ _

theorem deactivate_run (direct : run.link = .direct) (group : Bytes) :
    (deactivate group).run run =
      (reported (run.service.deactivate group).1,
        run.answered (.deactivate (Key.encode group)) (run.service.deactivate group).2) :=
  served direct _ _ _

theorem listMetadata_run (direct : run.link = .direct) (group : Bytes) :
    (listMetadata group).run run =
      (reported (run.service.listMetadata group),
        run.answered (.listMetadata (Key.encode group)) run.service) :=
  served direct _ _ _

theorem listMessages_run (direct : run.link = .direct) (group : Bytes) :
    (listMessages group).run run =
      (reported (run.service.listMessages group),
        run.answered (.listMessages (Key.encode group)) run.service) :=
  served direct _ _ _

end Service.Client

end GroupReplay
