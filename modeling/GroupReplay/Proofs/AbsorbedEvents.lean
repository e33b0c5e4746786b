import GroupReplay.Proofs.Handing

/-!
Events that were applied are absorbed for ever.  The records of an event's writes are held once it
was applied, and nothing that is done to the store takes them away; so applying the event again
changes no record and leaves nothing to announce.
-/

namespace GroupReplay.Projection

open Wire Store

/-- What becomes of a desk: handlers of any account apply events to it, operations are performed on
its store, and the store is told what to reject. -/
inductive Followed (start : Desk AnyStore) : Desk AnyStore → Prop where
  | refl : Followed start start
  | applied {desk : Desk AnyStore} (followed : Followed start desk) (account : Bytes)
      (announcing : Bool) (handed : Handed) :
      Followed start ((handed.apply account announcing).run desk).2
  | performed {desk : Desk AnyStore} (followed : Followed start desk) {α : Type} (op : Op α) :
      Followed start { desk with store := (desk.store.perform op).2 }
  | told {desk : Desk AnyStore} (followed : Followed start desk)
      (rejectsWrites rejectsLists : Bool) :
      Followed start { desk with store := desk.store.told rejectsWrites rejectsLists }

variable {account : Bytes} {first again : Bool} {handed : Handed} {desk applied later : Desk AnyStore}

/-- One step takes nothing away, and so a sequence of them takes nothing away. -/
theorem Followed.outlasts (sound : desk.store.Sound) (followed : Followed desk later) :
    desk.store.Outlasts later.store := by
  induction followed with
  | refl => exact .refl sound
  | applied _ account announcing handed ih =>
    exact ih.trans (Handed.apply_later ih.sound account announcing handed).outlasts
  | performed _ op ih => exact ih.trans (AnyStore.later_perform ih.sound op).outlasts
  | told _ rejectsWrites rejectsLists ih =>
    exact ih.trans (AnyStore.outlasts_told ih.sound rejectsWrites rejectsLists)

/-- An event whose writes are all settled is applied without changing anything. -/
theorem Handed.apply_settled {writes : List Noticed} (comes : handed.writes account = .ok writes)
    (sound : desk.store.Sound) (settled : ∀ each ∈ writes, Settled desk.store each.1) :
    (handed.apply account again).run desk = (.ok (), desk) := by
  rw [Handed.apply_writes, comes]
  exact writeAll_settled sound settled

/-- An event that was applied once is absorbed ever after, while the store accepts writes: it is
applied without an error, the desk with all that the store holds stays what it was, and nothing is
announced. -/
theorem applied_absorbed (reachable : Reachable desk.store)
    (succeeded : (handed.apply account first).run desk = (.ok (), applied))
    (followed : Followed applied later) (accepts : later.store.AcceptsWrites) :
    (handed.apply account again).run later = (.ok (), later) := by
  have sound := reachable.sound
  have wrote := Handed.apply_wrote sound succeeded
  obtain ⟨writes, comes, accepted⟩ := (Handed.apply_ok_iff _ sound).mp ⟨applied, succeeded⟩
  rw [comes] at wrote
  have outlasts := followed.outlasts wrote.later.sound
  refine Handed.apply_settled comes outlasts.sound fun each member => ⟨?_, ?_⟩
  · have among : each.1 ∈ writesOf (.ok writes) := List.mem_map_of_mem member
    have held := Records.holds_carryAll sound.records each.1 among
    rw [← wrote.records] at held
    exact held.grows outlasts.grows
  · have taken : applied.store.refusal? each.1.op = none :=
      (wrote.later.refusal _).trans (accepted each member)
    exact outlasts.takes each.1 (fun _ => taken) accepts

/-- A message that becomes an interaction, of the content id that is written "Cw". -/
def titled : Handed := .message (.posted [2] [11] { type := AppMessageType.setGroupInfo.number })

/-- An acknowledgement of that content id. -/
def titleAcknowledged : Handed :=
  .message (.posted [2] [12] { type := AppMessageType.acknowledge.number, target := "Cw" })

/-- An acknowledgement that is applied ahead of the message it is for, and again when that message
was stored and writes were rejected for a while. -/
theorem early_acknowledgement_absorbed :
    let start : Desk AnyStore := { store := .inMemory {} }
    let applied := ((titleAcknowledged.apply [1] true).run start).2
    let stored := ((titled.apply [7] true).run applied).2
    let later := { stored with store := (stored.store.told true false).told false false }
    later.notices = [.interactionAdded "Ag" "Cw"] ∧
      later.store.records.interactions.map (fun i => (i.cid, i.acknowledged)) = [("Cw", true)] ∧
      (titleAcknowledged.apply [1] true).run later = (.ok (), later) := by
  intro start applied stored later
  have succeeded : ((titleAcknowledged.apply [1] true).run start).1 = .ok () := by decide +kernel
  have followed : Followed applied later :=
    .told (.told (.applied .refl [7] true titled) true false) false false
  exact ⟨by decide +kernel, by decide +kernel,
    applied_absorbed (.memory false) (Prod.ext succeeded rfl) followed rfl⟩

end GroupReplay.Projection
