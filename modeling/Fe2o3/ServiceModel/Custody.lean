import Fe2o3.ServiceModel.Histories

/-!
# Reuse of slots and leases that are not forgotten

A slot should be reclaimed only after the completion of the task that was in it is
visible, and a live lease should be held by its task.  The validator checks some of the
links this needs in one direction only: a `Completed` slot names a completion record,
but nothing says that it is the record of its own task; a task names its lease, but a
lease may name a task that does not hold it; a task may fail without a record.
`custody_lost` is an accepted history in which all of this happens.  Where a step keeps
these links (`LinksKept`), custody is kept over whole histories.
-/

namespace Fe2o3.ServiceModel

open Lib

variable {id : TaskId} {task : TaskRecord} {recordId : CompletionRecordId} {generation : Nat}

namespace ServiceState

/-- A completed slot names the completion record of its task. -/
def CompletedLinked (state : ServiceState) : Prop :=
  ∀ slot ∈ state.slots, ∀ generation id outcome recordId,
    slot.state = .completed generation id outcome recordId →
    ∀ task, state.task id = some task → task.state.recordId = some recordId

/-- The links between records that the validator does not check. -/
structure LinksKept (state next : ServiceState) : Prop where
  record : next.CompletedLinked
  /-- A lease is issued for the acquisition of its task. -/
  issued : ∀ lease ∈ next.leases, state.lease lease.leaseId = none →
    ∃ task, next.task lease.state.key.taskId = some task ∧
      task.state = .acquired lease.state.key.slot lease.leaseId
  /-- A task that has ended leaves no live lease. -/
  ended : ∀ lease ∈ next.leases, lease.state.isLive = true →
    ∀ task, next.task lease.state.key.taskId = some task → task.state.isTerminal = false

/-- The completion of the task that was in a slot is visible, and no live lease names the
slot in that generation. -/
structure Discharged (state : ServiceState) (slot : SlotId) (generation : Nat) (task : TaskId) :
    Prop where
  visible : ∃ completion ∈ state.completionRecords, completion.taskId = task ∧
    completion.slot = state.config.slotKey slot generation ∧ completion.visible = true
  unleased : ∀ lease ∈ state.leases, lease.state.isLive = true →
    lease.state.key.slot ≠ state.config.slotKey slot generation

/-- What a state of a history in which the links are kept satisfies beyond `Valid`. -/
structure Linked (state : ServiceState) : Prop where
  slotKey : ∀ task ∈ state.tasks, ∃ key, task.state.slotKey = some key
  ended : ∀ task ∈ state.tasks, task.state.isTerminal = true →
    ∃ recordId, task.state.recordId = some recordId
  record : ∀ slot ∈ state.slots, ∀ generation id outcome recordId,
    slot.state = .reclaimable generation id outcome recordId →
    ∀ task, state.task id = some task → task.state.recordId = some recordId
  lease : ∀ lease ∈ state.leases, lease.state.isLive = true →
    ∃ task, state.task lease.state.key.taskId = some task ∧
      task.state.liveLease = some lease.leaseId ∧ task.state.slotKey = some lease.state.key.slot

variable {state next : ServiceState}

/-- The record a task names, with what the validator knows about it. -/
theorem Valid.exists_completion (h : state.Valid) (htask : state.task id = some task)
    (hrecord : task.state.recordId = some recordId) :
    ∃ completion ∈ state.completionRecords, completion.recordId = recordId ∧
      completion.taskId = id ∧ task.state.slotKey = some completion.slot := by
  obtain ⟨completion, hmem, hid, htaskId⟩ := h.taskRecord task (lookup_mem htask) recordId hrecord
  rw [lookup_key htask] at htaskId
  obtain ⟨found, hfound, hmatches⟩ := h.completionTask completion hmem
  rw [htaskId, htask] at hfound
  refine ⟨completion, hmem, hid, htaskId, ?_⟩
  unfold CompletionRecord.matchesTask at hmatches
  split at hmatches <;>
    simp_all [TaskState.slotKey]

/-- A slot that a task held before the step and that has not let it go holds it after. -/
theorem Step.ended_slot (h : state.Step next) {old : TaskRecord} {key : SlotKey}
    (hold : state.task id = some old) (htask : next.task id = some task)
    (hkey : old.state.slotKey = some key) (hlive : old.state.isTerminal = false)
    (hend : task.state.isTerminal = true) :
    ∃ slot generation outcome recordId, next.slot key.slotId = some slot ∧
      slot.state = .completed generation id outcome recordId := by
  obtain ⟨before, hbefore, hid, -, hphase⟩ := h.before.held hold hkey hlive
  have hheld := QueueSlotState.isEnded_of_matches hphase
  rw [hlive] at hheld
  obtain ⟨slot, hslot, hlegal⟩ := h.slots key.slotId before hbefore
  have hedge := Step.slotEdge hlegal
  have hid' : slot.state.taskId = some id := by
    obtain ⟨-, -, htaskId⟩ | ⟨hreclaimable, -⟩ := QueueSlotState.edge_cases hedge
    · exact htaskId id hid
    · cases hstate : before.state with
      | reclaimable => rw [hstate] at hheld; nomatch hheld
      | _ => rw [hstate] at hreclaimable; nomatch hreclaimable
  obtain ⟨found, hfound, -, hphase'⟩ := h.after.slotTask slot (lookup_mem hslot) id hid'
  rw [htask] at hfound
  cases hfound
  have hended := QueueSlotState.isEnded_of_matches hphase'
  rw [hend] at hended
  cases hstate : slot.state with
  | completed generation occupant outcome recordId =>
    rw [hstate] at hid'
    cases hid'
    exact ⟨slot, generation, outcome, recordId, hslot, hstate⟩
  | reclaimable generation occupant outcome recordId =>
    rw [hstate] at hedge
    obtain hsame | hsame := QueueSlotState.reclaimable_cases hedge
    · rw [hsame] at hheld; nomatch hheld
    · rw [hsame] at hheld; nomatch hheld
  | _ => rw [hstate] at hended; nomatch hended

theorem Linked.step (h : state.Step next) (hlinks : state.LinksKept next) (hlinked : state.Linked)
    (hbefore : state.CompletedLinked) : next.Linked where
  slotKey := by
    intro task hmem
    have htask := lookup_of_mem h.after.tasks hmem
    obtain ⟨-, key, hreserved⟩ | ⟨old, hold, hlegal⟩ := h.task_cases htask
    · exact ⟨key, by rw [hreserved]; rfl⟩
    · obtain ⟨key, hkey⟩ := hlinked.slotKey old (lookup_mem hold)
      exact ⟨key, (TaskRecord.edge hlegal).slotKey_kept hkey⟩
  ended := by
    intro task hmem hend
    have htask := lookup_of_mem h.after.tasks hmem
    obtain ⟨-, key, hreserved⟩ | ⟨old, hold, hlegal⟩ := h.task_cases htask
    · rw [hreserved] at hend
      nomatch hend
    · cases hlive : old.state.isTerminal with
      | true =>
        rw [(TaskRecord.edge hlegal).eq_of_terminal hlive]
        exact hlinked.ended old (lookup_mem hold) hlive
      | false =>
        obtain ⟨key, hkey⟩ := hlinked.slotKey old (lookup_mem hold)
        obtain ⟨slot, generation, outcome, recordId, hslot, hstate⟩ :=
          h.ended_slot hold htask hkey hlive hend
        exact ⟨recordId, hlinks.record slot (lookup_mem hslot) _ _ _ _ hstate task htask⟩
  record := by
    intro slot hmem generation id outcome recordId hstate task htask
    obtain ⟨before, hslot, hlegal⟩ := h.oldSlot (lookup_of_mem h.after.slots hmem)
    have hedge := Step.slotEdge hlegal
    rw [hstate] at hedge
    -- the task had ended, and its slot named its record, before the step
    have hnamed : before.state.taskId = some id ∧ before.state.isEnded = true ∧
        ∀ old, state.task id = some old → old.state.recordId = some recordId := by
      obtain hsame | hsame := QueueSlotState.reclaimable_cases hedge
      · exact ⟨by rw [hsame]; rfl, by rw [hsame]; rfl,
          hlinked.record before (lookup_mem hslot) _ _ _ _ hsame⟩
      · exact ⟨by rw [hsame]; rfl, by rw [hsame]; rfl,
          hbefore before (lookup_mem hslot) _ _ _ _ hsame⟩
    obtain ⟨hid, hend, hrecord⟩ := hnamed
    obtain ⟨old, hold, -, hphase⟩ := h.before.slotTask before (lookup_mem hslot) id hid
    rw [QueueSlotState.isEnded_of_matches hphase] at hend
    rw [(h.follows.tasks.related hold htask).terminal hend, hrecord old hold]
  lease := by
    intro lease hmem hlive
    cases hold : state.lease lease.leaseId with
    | none =>
      obtain ⟨task, htask, hacquired⟩ := hlinks.issued lease hmem hold
      exact ⟨task, htask, by rw [hacquired]; rfl, by rw [hacquired]; rfl⟩
    | some old =>
      have hedge := h.leases.related hold (lookup_of_mem h.after.leases hmem)
      obtain ⟨before, hbefore, hheld, hkey⟩ := hlinked.lease old (lookup_mem hold)
        (LeaseState.live_of_live hedge hlive)
      rw [← LeaseState.key_kept hedge] at hbefore hkey
      obtain ⟨task, htask, hmoved⟩ := h.follows.tasks _ before hbefore
      have hid : old.leaseId = lease.leaseId := lookup_key hold
      refine ⟨task, htask, ?_, hmoved.slotKey _ hkey⟩
      rw [hid] at hheld
      refine (hmoved.liveLease _ hheld).resolve_right fun hend => ?_
      rw [hlinks.ended lease hmem hlive task htask] at hend
      nomatch hend

/-- In a linked state, no live lease names a generation whose slot is not held in it. -/
theorem Linked.unleased (h : state.Linked) (hvalid : state.Valid) {id : SlotId}
    (hfree : ∀ slot, state.slot id = some slot → slot.state.generation = generation →
      ∀ task, slot.state.taskId = some task → slot.state.isEnded = true) :
    ∀ lease ∈ state.leases, lease.state.isLive = true →
      lease.state.key.slot ≠ state.config.slotKey id generation := by
  intro lease hmem hlive heq
  obtain ⟨task, htask, hheld, hkey⟩ := h.lease lease hmem hlive
  rw [heq] at hkey
  have hterminal := TaskState.isTerminal_of_liveLease hheld
  obtain ⟨slot, hslot, hid, hgeneration, hphase⟩ := hvalid.held htask hkey hterminal
  have hended := QueueSlotState.isEnded_of_matches hphase
  rw [hterminal, hfree slot hslot hgeneration _ hid] at hended
  nomatch hended

theorem Linked.discharged (h : state.Linked) (hvalid : state.Valid) {id : SlotId}
    {slot : QueueSlotRecord} (hslot : state.slot id = some slot) {task : TaskId}
    {outcome : TaskOutcome} (hstate : slot.state = .reclaimable generation task outcome recordId) :
    state.Discharged id generation task where
  visible := by
    obtain ⟨record, hrecord, hkey, -⟩ := hvalid.slotTask slot (lookup_mem hslot) task
      (by rw [hstate]; rfl)
    rw [hstate, lookup_key hslot] at hkey
    obtain ⟨completion, hmem, hid, htask, hnamed⟩ := hvalid.exists_completion hrecord
      (h.record slot (lookup_mem hslot) _ _ _ _ hstate record hrecord)
    obtain ⟨shown, hshown, hid', hvisible⟩ :=
      hvalid.reclaimable slot (lookup_mem hslot) _ _ _ _ hstate
    rw [eq_of_same_key hvalid.completionRecords hshown hmem (hid'.trans hid.symm)] at hvisible
    rw [hkey] at hnamed
    exact ⟨completion, hmem, htask, (Option.some.inj hnamed).symm, hvisible⟩
  unleased := by
    refine h.unleased hvalid fun found hfound _ _ _ => ?_
    rw [hslot] at hfound
    cases hfound
    rw [hstate]
    rfl

end ServiceState

namespace History

open ServiceState

variable {history : History} {i j : Nat} {state next later : ServiceState}

/-- Every step of the history keeps the links between the records. -/
def KeepsLinks (history : History) : Prop :=
  history.states.IsChain LinksKept

theorem linked (hlinks : history.KeepsLinks) (hstate : history.At i state) :
    state.Linked ∧ state.CompletedLinked := by
  refine history.induction (P := fun _ state => state.Linked ∧ state.CompletedLinked)
    ⟨⟨?_, ?_, ?_, ?_⟩, ?_⟩ (fun i state next hat hat' hstep ih => ?_) hstate
  · intro task hmem
    rw [history.fresh.tasks] at hmem
    nomatch hmem
  · intro task hmem
    rw [history.fresh.tasks] at hmem
    nomatch hmem
  · intro slot hmem generation id outcome recordId hstate
    have hempty := history.fresh.slots slot hmem
    rw [hstate] at hempty
    nomatch hempty
  · intro lease hmem
    rw [history.fresh.leases] at hmem
    nomatch hmem
  · intro slot hmem generation id outcome recordId hstate
    have hempty := history.fresh.slots slot hmem
    rw [hstate] at hempty
    nomatch hempty
  · have hkept := isChain_step hlinks hat hat'
    exact ⟨ih.1.step hstep hkept ih.2, hkept.record⟩

/-- Slots are reused after their own completion is visible, and no lease is forgotten. -/
structure CustodyKept (history : History) : Prop where
  reclaimable : ∀ i state id slot generation task outcome recordId, history.At i state →
    state.slot id = some slot → slot.state = .reclaimable generation task outcome recordId →
    state.Discharged id generation task
  reused : ∀ i state next id slot later, history.At i state → history.At (i + 1) next →
    state.slot id = some slot → next.slot id = some later →
    later.state.generation = slot.state.generation + 1 →
    ∃ task, slot.state.taskId = some task ∧
      state.Discharged id slot.state.generation task ∧ next.Discharged id slot.state.generation task
  held : ∀ i state lease, history.At i state → lease ∈ state.leases → lease.state.isLive = true →
    ∃ task, state.task lease.state.key.taskId = some task ∧
      task.state.liveLease = some lease.leaseId ∧ task.state.slotKey = some lease.state.key.slot
  stopped : ∀ i j state later id task, i ≤ j → history.At i state → history.At j later →
    later.lifecycle = .stopped → state.task id = some task →
    ∃ completion ∈ later.completionRecords, completion.taskId = id ∧ completion.visible = true ∧
      ∀ other ∈ later.completionRecords, other.taskId = id → other = completion

theorem custody_kept (history : History) (hlinks : history.KeepsLinks) : history.CustodyKept where
  reclaimable := fun _ _ _ _ _ _ _ _ hstate hslot hreclaimable =>
    (linked hlinks hstate).1.discharged (valid hstate) hslot hreclaimable
  reused := by
    intro i state next id slot later hstate hnext hslot hlater hgeneration
    have hlegal := (step hstate hnext).slots.related hslot hlater
    obtain ⟨-, hkept, -⟩ | ⟨hreclaimable, -, -⟩ :=
      QueueSlotState.edge_cases (ServiceState.Step.slotEdge hlegal)
    · omega
    · cases hkind : slot.state with
      | reclaimable generation task outcome recordId =>
        rw [hkind] at hgeneration
        have hbefore := (linked hlinks hstate).1.discharged (valid hstate) hslot hkind
        refine ⟨task, rfl, hbefore, ⟨?_, ?_⟩⟩
        · obtain ⟨completion, hmem, htask, hkey, hvisible⟩ := hbefore.visible
          obtain ⟨kept, hkept, hmoved⟩ := completion_later (Nat.le_succ i) hstate hnext hmem
          rw [(step hstate hnext).config]
          obtain rfl | rfl := hmoved
          · exact ⟨_, hkept, htask, hkey, hvisible⟩
          · exact ⟨_, hkept, htask, hkey, rfl⟩
        · refine (linked hlinks hnext).1.unleased (valid hnext) fun other hother hsame => ?_
          rw [hlater] at hother
          cases hother
          simp only [QueueSlotState.generation] at hgeneration hsame
          omega
      | _ => rw [hkind] at hreclaimable; cases hreclaimable
  held := fun _ _ lease hstate hmem hlive => (linked hlinks hstate).1.lease lease hmem hlive
  stopped := by
    intro i j state later id task hij hstate hlater hstopped htask
    obtain ⟨found, hfound, -⟩ := (follows hij hstate hlater).tasks id task htask
    have hvalid := valid hlater
    have hquiet := hvalid.quiescent hstopped
    simp only [isQuiescent, Bool.and_eq_true, List.all_eq_true] at hquiet
    obtain ⟨recordId, hrecord⟩ := (linked hlinks hlater).1.ended found (lookup_mem hfound)
      (hquiet.1.1.1.2 found (lookup_mem hfound))
    obtain ⟨completion, hmem, -, hid, -⟩ := hvalid.exists_completion hfound hrecord
    refine ⟨completion, hmem, hid, hquiet.2 completion hmem, fun other hother hsame => ?_⟩
    exact eq_of_same_key hvalid.completionTasks hother hmem (hsame.trans hid.symm)

/-- A task runs under a lease, its slot is reused and the service stops; every link is kept. -/
theorem custody_kept_reused : let k := sampleKey 0
    let lease : LeaseKey := ⟨k, 1, 0, 0⟩
    let running (slot : QueueSlotState) (task : TaskState) (leases : List LeaseRecord) :=
      sampleState .running [slot, .empty 0] [task] [] leases [] []
    let ended (lifecycle : LifecycleState) (slot : QueueSlotState) :=
      sampleState lifecycle [slot, .empty 0] [.completed k 10] []
        [⟨50, .consumed lease .succeeded 10⟩] [] [⟨10, 1, k, .succeeded, true⟩]
    let states := [
      sampleState .running [.empty 0, .empty 0] [] [] [] [] [],
      running (.reserved 0 1) (.reserved k) [],
      running (.initialized 0 1) (.initialized k) [],
      running (.published 0 1) (.published k) [],
      running (.acquired 0 1 50) (.acquired k 50) [⟨50, .issued lease⟩],
      running (.executing 0 1 50) (.executing k 50 0) [⟨50, .executing lease⟩],
      running (.executing 0 1 50) (.completionPending k 50 .succeeded) [⟨50, .executing lease⟩],
      ended .running (.completed 0 1 .succeeded 10),
      ended .running (.reclaimable 0 1 .succeeded 10),
      ended .running (.empty 1), ended .stopping (.empty 1), ended .stopped (.empty 1)]
    ∃ history : History, history.states = states ∧ history.KeepsLinks ∧ history.CustodyKept := by
  intro k lease running ended states
  have hchain : states.IsChain LinksKept := by
    simp only [states, List.isChain_cons_cons, List.isChain_singleton, and_true]
    refine ⟨?_, ?_, ?_, ?_, ?_, ?_, ?_, ?_, ?_, ?_, ?_⟩ <;>
      constructor <;>
        simp +contextual [running, ended, lease, sampleState, sampleSlot, CompletedLinked,
          ServiceState.task, ServiceState.lease, lookup, TaskState.recordId, TaskState.isTerminal,
          LeaseState.isLive, LeaseState.key]
  let history : History := ⟨_, states.tail, ⟨by decide +kernel, rfl, rfl, rfl, by decide⟩,
    (by decide +kernel : states.IsChain fun state next => state.validateTransitionTo next = .ok ())⟩
  exact ⟨history, rfl, hchain, custody_kept history hchain⟩

/-- An accepted history in which custody is lost: lease 50 is issued for task 1 while the task
is only reserved and is still live when its slot is reclaimed; task 2 fails without a record, and
its slot is reclaimed under the record of task 1. -/
theorem custody_lost : let k := sampleKey 0
    let k' := sampleKey 1
    let tasks : List TaskState := [.cancelled k .reserved 10, .failed (some k') none]
    let key : LeaseKey := ⟨k, 1, 0, 0⟩
    let completion : CompletionRecord := ⟨10, 1, k, .cancelled, true⟩
    let reclaimed :=
      sampleState .running [.reclaimable 0 1 .cancelled 10, .reclaimable 0 2 .failed 10] tasks []
        [⟨50, .issued key⟩] [] [completion]
    let ended (lifecycle : LifecycleState) :=
      sampleState lifecycle [.empty 1, .empty 1] tasks [] [⟨50, .consumed key .cancelled 10⟩] []
        [completion]
    ∃ history : History, history.states = [
        sampleState .running [.empty 0, .empty 0] [] [] [] [] [],
        sampleState .running [.reserved 0 1, .reserved 0 2] [.reserved k, .reserved k'] []
          [⟨50, .issued key⟩] [] [],
        sampleState .running [.completed 0 1 .cancelled 10, .completed 0 2 .failed 10] tasks []
          [⟨50, .issued key⟩] [] [completion],
        reclaimed, ended .running, ended .stopping, ended .stopped] ∧
      ¬reclaimed.Discharged 0 0 1 ∧ ¬reclaimed.Discharged 1 0 2 ∧
      ∀ record ∈ (ended .stopped).completionRecords, record.taskId ≠ 2 := by
  intro k k' tasks key completion reclaimed ended
  refine ⟨⟨_, _, ⟨by decide +kernel, rfl, rfl, rfl, by decide⟩, by decide +kernel⟩, rfl, ?_, ?_, ?_⟩
  · intro h
    exact h.unleased ⟨50, .issued key⟩ (List.mem_singleton.mpr rfl) rfl rfl
  · intro h
    obtain ⟨record, hmem, htask, -⟩ := h.visible
    cases List.mem_singleton.mp hmem
    nomatch htask
  · decide

end History

end Fe2o3.ServiceModel
