import GroupReplay.Proofs.Holding
import GroupReplay.Proofs.KeyText

/-!
The courses that the calls of a replay can take with regard to the groups that are taken and given
back.  `Course` says what can have been called so far, step by step, and `Stop` what can have been
called when a replay stops; from either follows which groups are active then.
-/

namespace GroupReplay

open Wire Service Projection

/-- A call that neither opens a log nor takes a group nor gives one back. -/
def Call.Neutral : Call → Prop
  | configuration | ensureAccount _ | conversations | applyMetadata _ _ | applyMessage _ _ => True
  | activate _ _ | deactivate _ | listMetadata _ | listMessages _ => False

/-- A call that can be made while a group is held, or none is: a group is taken only while none is
held, only the held group is given back, and only its logs, or those of home, are opened. -/
structure Call.Fits (home : Bytes) (held : Option Bytes) (call : Call) : Prop where
  takes : ∀ group localOnly, call = .activate (Key.encode group) localOnly →
    held = none ∧ group ≠ home
  givesBack : ∀ group, call = .deactivate (Key.encode group) → held = some group
  opens : ∀ group, call = .listMetadata (Key.encode group) ∨
    call = .listMessages (Key.encode group) → held = some group ∨ held = none ∧ group = home

namespace Call.Fits

variable {home group : Bytes} {held : Option Bytes} {call : Call}

theorem of_neutral (neutral : call.Neutral) : call.Fits home held := by
  refine ⟨?_, ?_, ?_⟩
  · rintro group localOnly rfl
    exact neutral.elim
  · rintro group rfl
    exact neutral.elim
  · rintro group (rfl | rfl) <;> exact neutral.elim

theorem of_activate (foreign : group ≠ home) :
    (Call.activate (Key.encode group) true).Fits home none := by
  refine ⟨?_, nofun, fun _ opens => nomatch opens⟩
  intro other _ same
  obtain rfl := Key.encode_injective (Call.activate.inj same).1
  exact ⟨rfl, foreign⟩

theorem of_deactivate (group : Bytes) :
    (Call.deactivate (Key.encode group)).Fits home (some group) := by
  refine ⟨nofun, ?_, fun _ opens => nomatch opens⟩
  intro other same
  exact congrArg some (Key.encode_injective (Call.deactivate.inj same))

theorem of_opens (listable : held = some group ∨ held = none ∧ group = home)
    (opens : call = .listMetadata (Key.encode group) ∨ call = .listMessages (Key.encode group)) :
    call.Fits home held := by
  obtain rfl | rfl := opens
  · refine ⟨nofun, nofun, ?_⟩
    rintro other (same | same)
    · obtain rfl := Key.encode_injective (Call.listMetadata.inj same)
      exact listable
    · cases same
  · refine ⟨nofun, nofun, ?_⟩
    rintro other (same | same)
    · cases same
    · obtain rfl := Key.encode_injective (Call.listMessages.inj same)
      exact listable

end Call.Fits

namespace Service

/-- The service after a call. -/
def heed (service : Service) : Call → Service
  | .activate text _ =>
    match Key.decode text with
    | .ok group => (service.activate group).2
    | .error _ => service
  | .deactivate text =>
    match Key.decode text with
    | .ok group => (service.deactivate group).2
    | .error _ => service
  | _ => service

@[simp] theorem heed_activate (service : Service) (group : Bytes) (localOnly : Bool) :
    service.heed (.activate (Key.encode group) localOnly) = (service.activate group).2 := by
  simp [heed, Key.decode_encode]

@[simp] theorem heed_deactivate (service : Service) (group : Bytes) :
    service.heed (.deactivate (Key.encode group)) = (service.deactivate group).2 := by
  simp [heed, Key.decode_encode]

theorem heed_neutral (service : Service) {call : Call} (neutral : call.Neutral) :
    service.heed call = service := by
  cases call <;> first | rfl | exact neutral.elim

end Service

namespace Replay

/-- Calls that open at most logs of one group. -/
def Within (group : Bytes) (calls : List Call) : Prop :=
  ∀ call ∈ calls, call.Neutral ∨ call = .listMetadata (Key.encode group) ∨
    call = .listMessages (Key.encode group)

/-- A group was taken, and since then no group was given back or taken, and no log of another group
opened. -/
def Held (start : Service) (calls : List Call) (group : Bytes) : Prop :=
  ∃ before inside, calls = before ++ .activate (Key.encode group) true :: inside ∧
    group ∉ start.failsActivate ∧ Within group inside

/-- A group was taken. -/
def Taken (start : Service) (calls : List Call) (group : Bytes) : Prop :=
  .activate (Key.encode group) true ∈ calls ∧ group ∉ start.failsActivate

/-- At a moment: home is active, what is active was so before or was taken, and at most one group
that was taken is active. -/
structure Exclusive (start : Service) (calls : List Call) : Prop where
  home : start.home ∈ (calls.foldl Service.heed start).active
  others : ∀ group ∈ (calls.foldl Service.heed start).active,
    group ∈ start.active ∨ Taken start calls group
  one : ∀ a b, Taken start calls a → Taken start calls b →
    a ∈ (calls.foldl Service.heed start).active →
      b ∈ (calls.foldl Service.heed start).active → a = b

/-- What a replay can have called so far, with the group that is held then and the service as it is
then. -/
inductive Course (start : Service) : List Call → Option Bytes → Service → Prop where
  | begin : Course start [] none start
  | idle {calls : List Call} {held : Option Bytes} {now : Service} {call : Call}
      (course : Course start calls held now) (neutral : call.Neutral) :
      Course start (calls ++ [call]) held now
  | openLog {calls : List Call} {held : Option Bytes} {now : Service} {call : Call} {group : Bytes}
      (course : Course start calls held now) (listable : Listable start.home held group)
      (opens : call = .listMetadata (Key.encode group) ∨ call = .listMessages (Key.encode group)) :
      Course start (calls ++ [call]) held now
  | take {calls : List Call} {now : Service} {group : Bytes} (course : Course start calls none now)
      (foreign : group ≠ start.home) (accepted : group ∉ start.failsActivate) :
      Course start (calls ++ [.activate (Key.encode group) true]) (some group)
        (now.activate group).2
  | refused {calls : List Call} {now : Service} {group : Bytes}
      (course : Course start calls none now) (foreign : group ≠ start.home)
      (refuses : group ∈ start.failsActivate) :
      Course start (calls ++ [.activate (Key.encode group) true]) none now
  | giveBack {calls : List Call} {now : Service} {group : Bytes}
      (course : Course start calls (some group) now) (accepted : group ∉ start.failsDeactivate) :
      Course start (calls ++ [.deactivate (Key.encode group)]) none (now.deactivate group).2

private theorem split_last {calls before rest : List Call} {call last : Call}
    (position : calls ++ [last] = before ++ call :: rest) :
    (before = calls ∧ call = last ∧ rest = []) ∨
      ∃ more, rest = more ++ [last] ∧ calls = before ++ call :: more := by
  obtain rfl | ⟨more, final, rfl⟩ := List.eq_nil_or_concat rest
  · obtain ⟨rfl, same⟩ := List.append_inj' position rfl
    exact .inl ⟨rfl, (List.cons.inj same).1.symm, rfl⟩
  · rw [List.concat_eq_append, ← List.cons_append, ← List.append_assoc] at position
    obtain ⟨rfl, same⟩ := List.append_inj' position rfl
    obtain rfl := (List.cons.inj same).1
    exact .inr ⟨more, by simp, by simp⟩

namespace Course

variable {start now : Service} {calls : List Call} {held : Option Bytes} {group : Bytes}

theorem keeps (course : Course start calls held now) (homeActive : start.home ∈ start.active) :
    Keeps start held now := by
  induction course with
  | begin => exact .initial homeActive
  | idle _ _ ih => exact ih
  | openLog _ _ _ ih => exact ih
  | take _ foreign accepted ih =>
    refine ih.activated foreign ?_
    rwa [ih.alike.failsActivate]
  | refused _ _ _ ih => exact ih
  | giveBack _ accepted ih =>
    refine ih.deactivated ?_
    rwa [ih.alike.failsDeactivate]

theorem heeded (course : Course start calls held now) (homeActive : start.home ∈ start.active) :
    calls.foldl Service.heed start = now := by
  induction course with
  | begin => rfl
  | idle _ neutral ih => simp [ih, Service.heed_neutral _ neutral]
  | openLog _ _ opens ih =>
    obtain rfl | rfl := opens <;> rw [List.foldl_append, ih] <;> rfl
  | take _ _ _ ih => simp [ih]
  | refused course _ refuses ih =>
    rw [List.foldl_append, ih, List.foldl_cons, Service.heed_activate]
    refine activate_refused ?_
    rwa [(course.keeps homeActive).alike.failsActivate]
  | giveBack _ _ ih => simp [ih]

/-- Every call of a course fits what is held when it is its turn. -/
theorem fits {before rest : List Call} {call : Call} (course : Course start calls held now)
    (position : calls = before ++ call :: rest) :
    ∃ heldThen nowThen, Course start before heldThen nowThen ∧
      call.Fits start.home heldThen := by
  induction course generalizing before call rest with
  | begin => simp at position
  | idle course neutral ih =>
    obtain ⟨rfl, rfl, rfl⟩ | ⟨more, rfl, earlier⟩ := split_last position
    · exact ⟨_, _, course, .of_neutral neutral⟩
    · exact ih earlier
  | openLog course listable opens ih =>
    obtain ⟨rfl, rfl, rfl⟩ | ⟨more, rfl, earlier⟩ := split_last position
    · exact ⟨_, _, course, .of_opens listable opens⟩
    · exact ih earlier
  | take course foreign accepted ih =>
    obtain ⟨rfl, rfl, rfl⟩ | ⟨more, rfl, earlier⟩ := split_last position
    · exact ⟨_, _, course, .of_activate foreign⟩
    · exact ih earlier
  | refused course foreign refuses ih =>
    obtain ⟨rfl, rfl, rfl⟩ | ⟨more, rfl, earlier⟩ := split_last position
    · exact ⟨_, _, course, .of_activate foreign⟩
    · exact ih earlier
  | giveBack course accepted ih =>
    obtain ⟨rfl, rfl, rfl⟩ | ⟨more, rfl, earlier⟩ := split_last position
    · exact ⟨_, _, course, .of_deactivate _⟩
    · exact ih earlier

/-- What is held was taken, and since then nothing else was done than opening its logs. -/
theorem held_of_some (course : Course start calls held now) (holds : held = some group) :
    Held start calls group := by
  have extend {calls : List Call} {call : Call} (inside : Held start calls group)
      (within : Within group [call]) : Held start (calls ++ [call]) group := by
    obtain ⟨before, inside, rfl, accepted, among⟩ := inside
    refine ⟨before, inside ++ [call], by simp, accepted, ?_⟩
    exact List.forall_mem_append.mpr ⟨among, within⟩
  induction course with
  | begin => cases holds
  | idle _ neutral ih =>
    exact extend (ih holds) (List.forall_mem_singleton.mpr (.inl neutral))
  | openLog _ listable opens ih =>
    subst holds
    obtain same | ⟨none, _⟩ := listable
    · cases same
      exact extend (ih rfl) (List.forall_mem_singleton.mpr (.inr opens))
    · cases none
  | take _ _ accepted _ =>
    cases holds
    exact ⟨_, [], rfl, accepted, nofun⟩
  | refused => cases holds
  | giveBack => cases holds

/-- A group that was taken and is active still is the one that is held. -/
theorem held_of_taken (course : Course start calls held now)
    (homeActive : start.home ∈ start.active) (taken : Taken start calls group)
    (active : group ∈ now.active) : held = some group := by
  obtain ⟨member, accepted⟩ := taken
  induction course with
  | begin => simp at member
  | idle _ neutral ih =>
    obtain before | last := List.mem_append.mp member
    · exact ih active before
    · obtain rfl := List.mem_singleton.mp last
      exact neutral.elim
  | openLog _ _ opens ih =>
    obtain before | last := List.mem_append.mp member
    · exact ih active before
    · obtain rfl := List.mem_singleton.mp last
      simp at opens
  | take course _ acceptedNow ih =>
    have alike := (course.keeps homeActive).alike
    obtain wasActive | rfl := (active_activate (by rwa [alike.failsActivate])).mp active
    · obtain before | last := List.mem_append.mp member
      · exact nomatch ih wasActive before
      · have same := List.mem_singleton.mp last
        exact congrArg some (Key.encode_injective (Call.activate.inj same).1).symm
    · rfl
  | refused course _ refuses ih =>
    obtain before | last := List.mem_append.mp member
    · exact ih active before
    · obtain same := List.mem_singleton.mp last
      obtain rfl := Key.encode_injective (Call.activate.inj same).1
      exact absurd refuses accepted
  | giveBack course acceptedNow ih =>
    have keeps := course.keeps homeActive
    have foreign := keeps.heldForeign _ rfl
    rw [← keeps.alike.home] at foreign
    obtain ⟨wasActive, differs⟩ :=
      (active_deactivate (by rwa [keeps.alike.failsDeactivate]) foreign).mp active
    obtain before | last := List.mem_append.mp member
    · exact absurd (Option.some.inj (ih wasActive before)).symm differs
    · cases List.mem_singleton.mp last

/-- A group that was taken is given back, or is held still. -/
theorem given_back {before rest : List Call} {localOnly : Bool}
    (course : Course start calls held now)
    (position : calls = before ++ .activate (Key.encode group) localOnly :: rest)
    (accepted : group ∉ start.failsActivate) :
    (∃ inside after, rest = inside ++ .deactivate (Key.encode group) :: after ∧
      Within group inside) ∨ held = some group ∧ Within group rest := by
  have longer {more : List Call} {last : Call} (closed : ∃ inside after,
      more = inside ++ .deactivate (Key.encode group) :: after ∧ Within group inside) :
      ∃ inside after, more ++ [last] = inside ++ .deactivate (Key.encode group) :: after ∧
        Within group inside := by
    obtain ⟨inside, after, rfl, within⟩ := closed
    exact ⟨inside, after ++ [last], by simp, within⟩
  induction course generalizing rest with
  | begin => simp at position
  | idle _ neutral ih =>
    obtain ⟨_, rfl, _⟩ | ⟨more, rfl, earlier⟩ := split_last position
    · exact neutral.elim
    · obtain closed | ⟨holds, within⟩ := ih earlier
      · exact .inl (longer closed)
      · exact .inr ⟨holds, List.forall_mem_append.mpr
          ⟨within, List.forall_mem_singleton.mpr (.inl neutral)⟩⟩
  | openLog _ listable opens ih =>
    obtain ⟨_, rfl, _⟩ | ⟨more, rfl, earlier⟩ := split_last position
    · simp at opens
    · obtain closed | ⟨holds, within⟩ := ih earlier
      · exact .inl (longer closed)
      · subst holds
        obtain same | ⟨none, _⟩ := listable
        · cases same
          exact .inr ⟨rfl, List.forall_mem_append.mpr
            ⟨within, List.forall_mem_singleton.mpr (.inr opens)⟩⟩
        · cases none
  | take _ _ _ ih =>
    obtain ⟨_, same, rfl⟩ | ⟨more, rfl, earlier⟩ := split_last position
    · obtain rfl := Key.encode_injective (Call.activate.inj same).1
      exact .inr ⟨rfl, nofun⟩
    · obtain closed | ⟨holds, _⟩ := ih earlier
      · exact .inl (longer closed)
      · cases holds
  | refused _ _ refuses ih =>
    obtain ⟨_, same, _⟩ | ⟨more, rfl, earlier⟩ := split_last position
    · obtain rfl := Key.encode_injective (Call.activate.inj same).1
      exact absurd refuses accepted
    · obtain closed | ⟨holds, _⟩ := ih earlier
      · exact .inl (longer closed)
      · cases holds
  | giveBack _ _ ih =>
    obtain ⟨_, same, _⟩ | ⟨more, rfl, earlier⟩ := split_last position
    · cases same
    · obtain closed | ⟨holds, within⟩ := ih earlier
      · exact .inl (longer closed)
      · cases holds
        exact .inl ⟨more, [], rfl, within⟩

theorem idles {more : List Call} (course : Course start calls held now)
    (neutral : ∀ call ∈ more, call.Neutral) : Course start (calls ++ more) held now := by
  induction more generalizing calls with
  | nil => simpa using course
  | cons call rest ih =>
    obtain ⟨first, later⟩ := List.forall_mem_cons.mp neutral
    simpa using ih (course.idle first) later

theorem exclusive (course : Course start calls held now)
    (homeActive : start.home ∈ start.active) : Exclusive start calls := by
  have keeps := course.keeps homeActive
  have heeded := course.heeded homeActive
  refine ⟨heeded ▸ keeps.home, ?_, ?_⟩
  · rw [heeded]
    intro group active
    obtain before | holds := keeps.others group active
    · exact .inl before
    · obtain ⟨first, inside, rfl, accepted, _⟩ := course.held_of_some holds
      exact .inr ⟨by simp, accepted⟩
  · rw [heeded]
    intro a b takenA takenB activeA activeB
    have heldA := course.held_of_taken homeActive takenA activeA
    have heldB := course.held_of_taken homeActive takenB activeB
    exact Option.some.inj (heldA.symm.trans heldB)

end Course

/-- What a replay has called when it stops: a course, or one after which the held group was to be
given back and the service did not let go of it. -/
inductive Stop (start : Service) : List Call → Option Bytes → Service → Prop where
  | plain {calls : List Call} {held : Option Bytes} {now : Service}
      (course : Course start calls held now) : Stop start calls held now
  | rejected {calls : List Call} {now : Service} {group : Bytes}
      (course : Course start calls (some group) now) (rejects : group ∈ start.failsDeactivate) :
      Stop start (calls ++ [.deactivate (Key.encode group)]) none now

namespace Stop

variable {start now : Service} {calls : List Call} {held : Option Bytes} {group : Bytes}

theorem heeded (stop : Stop start calls held now) (homeActive : start.home ∈ start.active) :
    calls.foldl Service.heed start = now := by
  cases stop with
  | plain course => exact course.heeded homeActive
  | rejected course rejects =>
    rw [List.foldl_append, course.heeded homeActive, List.foldl_cons, Service.heed_deactivate]
    refine deactivate_rejected ?_
    rwa [(course.keeps homeActive).alike.failsDeactivate]

theorem fits {before rest : List Call} {call : Call} (stop : Stop start calls held now)
    (position : calls = before ++ call :: rest) :
    ∃ heldThen nowThen, Course start before heldThen nowThen ∧
      call.Fits start.home heldThen := by
  cases stop with
  | plain course => exact course.fits position
  | rejected course _ =>
    obtain ⟨rfl, rfl, rfl⟩ | ⟨more, rfl, earlier⟩ := split_last position
    · exact ⟨_, _, course, .of_deactivate _⟩
    · exact course.fits earlier

theorem exclusive {before : List Call} (stop : Stop start calls held now)
    (homeActive : start.home ∈ start.active) (part : before <+: calls) :
    Exclusive start before := by
  obtain ⟨rest, rfl⟩ := part
  cases rest with
  | cons call rest =>
    obtain ⟨_, _, course, _⟩ := stop.fits rfl
    exact course.exclusive homeActive
  | nil =>
    rw [List.append_nil] at stop
    have heeded := stop.heeded homeActive
    cases stop with
    | plain course => exact course.exclusive homeActive
    | @rejected calls _ group course _ =>
      have taken (other : Bytes) :
          Taken start (calls ++ [.deactivate (Key.encode group)]) other ↔
            Taken start calls other := by simp [Taken]
      obtain ⟨home, others, one⟩ := course.exclusive homeActive
      rw [course.heeded homeActive, ← heeded] at home others one
      exact ⟨home, fun other active => (others other active).imp_right (taken other).mpr,
        fun a b takenA takenB => one a b ((taken a).mp takenA) ((taken b).mp takenB)⟩

end Stop

/-- The calls of a replay with regard to the groups that are taken: home is not, logs of other groups
are opened only while they are held, a group is given back only while it is, and at every moment at
most one group that was taken is active. -/
structure Disciplined (start : Service) (trace : List Call) : Prop where
  homeUntouched : ∀ localOnly, .activate (Key.encode start.home) localOnly ∉ trace ∧
    .deactivate (Key.encode start.home) ∉ trace
  opensHeld : ∀ group before call rest, group ≠ start.home →
    call = .listMetadata (Key.encode group) ∨ call = .listMessages (Key.encode group) →
      trace = before ++ call :: rest → Held start before group
  givesBackHeld : ∀ group before rest,
    trace = before ++ .deactivate (Key.encode group) :: rest → Held start before group
  exclusive : ∀ before, before <+: trace → Exclusive start before

/-- Every group that was taken is given back, and until then only its logs are opened. -/
def Released (start : Service) (trace : List Call) : Prop :=
  ∀ group localOnly before rest,
    trace = before ++ .activate (Key.encode group) localOnly :: rest →
      group ∉ start.failsActivate →
        ∃ inside after, rest = inside ++ .deactivate (Key.encode group) :: after ∧
          Within group inside

section Discipline

variable {start now : Service} {trace : List Call} {held : Option Bytes}

theorem Stop.disciplined (stop : Stop start trace held now)
    (homeActive : start.home ∈ start.active) : Disciplined start trace where
  homeUntouched localOnly := by
    constructor <;> intro member <;> obtain ⟨before, rest, position⟩ := List.append_of_mem member
    · obtain ⟨_, _, _, fits⟩ := stop.fits position
      exact (fits.takes _ _ rfl).2 rfl
    · obtain ⟨_, _, course, fits⟩ := stop.fits position
      exact (course.keeps homeActive).heldForeign _ (fits.givesBack _ rfl) rfl
  opensHeld group before call rest foreign opens position := by
    obtain ⟨_, _, course, fits⟩ := stop.fits position
    obtain holds | ⟨_, home⟩ := fits.opens group opens
    · exact course.held_of_some holds
    · exact absurd home foreign
  givesBackHeld group before rest position := by
    obtain ⟨_, _, course, fits⟩ := stop.fits position
    exact course.held_of_some (fits.givesBack group rfl)
  exclusive before part := stop.exclusive homeActive part

theorem Stop.released (stop : Stop start trace none now) : Released start trace := by
  intro group localOnly before rest position accepted
  cases stop with
  | plain course =>
    obtain closed | ⟨holds, _⟩ := course.given_back position accepted
    · exact closed
    · cases holds
  | rejected course _ =>
    obtain ⟨_, same, _⟩ | ⟨more, rfl, earlier⟩ := split_last position
    · cases same
    · obtain ⟨inside, after, rfl, within⟩ | ⟨holds, within⟩ := course.given_back earlier accepted
      · exact ⟨inside, _, List.append_assoc inside _ _, within⟩
      · cases holds
        exact ⟨more, [], rfl, within⟩

/-- What is active after a replay that ended. -/
theorem Stop.active (stop : Stop start trace none now) (homeActive : start.home ∈ start.active) :
    start.home ∈ now.active ∧ ∀ group ∈ now.active, group ∈ start.active ∨
      group ∈ start.failsDeactivate ∧ .deactivate (Key.encode group) ∈ trace := by
  cases stop with
  | plain course =>
    have keeps := course.keeps homeActive
    exact ⟨keeps.home, fun group active => (keeps.others group active).imp_right nofun⟩
  | rejected course rejects =>
    have keeps := course.keeps homeActive
    refine ⟨keeps.home, fun group active => (keeps.others group active).imp_right fun holds => ?_⟩
    cases holds
    exact ⟨rejects, by simp⟩

end Discipline

end Replay

end GroupReplay
