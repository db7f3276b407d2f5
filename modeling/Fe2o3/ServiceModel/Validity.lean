import Fe2o3.ServiceModel.State

/-!
**What the two validators accept**, said once: `Valid` for the checks of one state and
`Step` for those of a pair.  Every later result about service histories starts from
these two structures and looks at no check again.
-/

namespace Fe2o3.ServiceModel

open Lib
open List hiding lookup

/-! ### Reports and collected violations -/

theorem pushViolation_ne_nil (violations : List InvariantViolation)
    (violation : InvariantViolation) : pushViolation violations violation ≠ [] := by
  unfold pushViolation
  split
  · simp
  · rename_i hfull
    have hne : violations ≠ [] := by
      rintro rfl
      exact hfull (by decide)
    split
    · simpa using hne
    · exact hne

theorem foldl_pushViolation_eq_nil {found violations : List InvariantViolation}
    (h : found.foldl pushViolation violations = []) : found = [] ∧ violations = [] := by
  induction found generalizing violations with
  | nil => exact ⟨rfl, h⟩
  | cons violation found ih => exact absurd (ih h).2 (pushViolation_ne_nil _ _)

section Unique

variable {ρ : Type} {clashes : ρ → ρ → Bool} {records : List ρ}

/-- No record clashes with one before it. -/
theorem pairwise_of_zipIdx
    (h : ∀ row ∈ records.zipIdx, (records.take row.2).any (clashes row.1) = false) :
    records.Pairwise fun earlier later => clashes later earlier = false := by
  rw [pairwise_iff_getElem]
  intro i j hi hj hij
  have hrow : (records[j], j) ∈ records.zipIdx := by
    rw [mk_mem_zipIdx_iff_getElem?]
    exact getElem?_eq_getElem hj
  have hnone := any_eq_false.mp (h _ hrow) records[i] (by
    rw [mem_take_iff_getElem]
    exact ⟨i, by omega, rfl⟩)
  exact Bool.eq_false_iff.mpr hnone

theorem pairwise_of_checkUnique {violation : ρ → InvariantViolation}
    (h : checkUnique clashes violation records = []) :
    records.Pairwise fun earlier later => clashes later earlier = false := by
  refine pairwise_of_zipIdx fun row hrow => ?_
  exact flag_eq_nil.mp (flatMap_eq_nil_iff.mp h row hrow)

theorem distinctKeys_of_pairwise {κ : Type} [DecidableEq κ] {key : ρ → κ}
    (h : records.Pairwise fun earlier later => (key later == key earlier) = false) :
    DistinctKeys key records :=
  h.imp fun hne heq => by simp [heq] at hne

end Unique

namespace ServiceState

/-- What the checks of one state say. -/
structure Valid (state : ServiceState) : Prop where
  slots : DistinctKeys QueueSlotRecord.slotId state.slots
  tasks : DistinctKeys TaskRecord.taskId state.tasks
  leases : DistinctKeys LeaseRecord.leaseId state.leases
  workers : DistinctKeys WorkerRecord.workerId state.workers
  dependencies : DistinctKeys DependencyRecord.epoch state.dependencies
  completionRecords : DistinctKeys CompletionRecord.recordId state.completionRecords
  completionTasks : DistinctKeys CompletionRecord.taskId state.completionRecords
  generation : ∀ slot ∈ state.slots, slot.state.generation = slot.generation.counter.logical
  slotTask : ∀ slot ∈ state.slots, ∀ id, slot.state.taskId = some id →
    ∃ task, state.task id = some task ∧
      task.state.slotKey = some (state.config.slotKey slot.slotId slot.state.generation) ∧
      slot.state.taskPhaseMatches task.state = true
  brand : ∀ task ∈ state.tasks, ∀ key, task.state.slotKey = some key →
    key = state.config.slotKey key.slotId key.logicalGeneration
  taskSlot : ∀ task ∈ state.tasks, ∀ key, task.state.slotKey = some key →
    task.state.isTerminal = false →
    ∃ slot, state.slot key.slotId = some slot ∧ slot.state.taskId = some task.taskId ∧
      slot.state.generation = key.logicalGeneration
  satisfied : ∀ task ∈ state.tasks, task.state.liveLease.isSome = true →
    ∀ epoch ∈ task.dependencies, ∃ dependency producer,
      state.dependency epoch = some dependency ∧ dependency.state = .visibleSatisfied producer
  runningWorker : ∀ worker ∈ state.workers, ∀ taskId leaseId phaseId,
    worker.state = .running taskId leaseId phaseId →
    (∃ lease key, state.lease leaseId = some lease ∧ lease.state = .executing key ∧
      key.workerId = worker.workerId) ∧
    ∃ task, state.task taskId = some task ∧ task.state.liveLease = some leaseId
  completionTask : ∀ completion ∈ state.completionRecords,
    ∃ task, state.task completion.taskId = some task ∧ completion.matchesTask task.state = true
  taskRecord : ∀ task ∈ state.tasks, ∀ recordId, task.state.recordId = some recordId →
    ∃ record ∈ state.completionRecords, record.recordId = recordId ∧ record.taskId = task.taskId
  reclaimable : ∀ slot ∈ state.slots, ∀ generation taskId outcome recordId,
    slot.state = .reclaimable generation taskId outcome recordId →
    ∃ record ∈ state.completionRecords, record.recordId = recordId ∧ record.visible = true
  quiescent : state.lifecycle = .stopped → state.isQuiescent = true

variable {state next : ServiceState}

theorem foundViolations_eq_nil (h : state.validateGlobalInvariants = .ok ()) :
    state.foundViolations = [] := by
  unfold validateGlobalInvariants at h
  simp only [List.isEmpty_iff] at h
  split at h
  · rename_i hnil
    exact (foldl_pushViolation_eq_nil hnil).1
  · nomatch h

theorem checkSlotTask_eq_nil {slot : QueueSlotRecord} {id : TaskId}
    (h : state.checkSlotTask slot id = []) :
    ∃ task, state.task id = some task ∧
      task.state.slotKey = some (state.config.slotKey slot.slotId slot.state.generation) ∧
      slot.state.taskPhaseMatches task.state = true := by
  unfold checkSlotTask at h
  split at h
  · nomatch h
  · rename_i task htask
    have hmatch := flag_eq_nil.mp (append_eq_nil_iff.mp h).1
    simp only [Bool.or_eq_false_iff, bne_eq_false_iff_eq, Bool.not_eq_false'] at hmatch
    exact ⟨task, htask, hmatch⟩

theorem slotViolations_eq_nil {slot : QueueSlotRecord} {index : Nat}
    (h : state.slotViolations slot index = []) :
    (state.slots.take index).any (·.slotId == slot.slotId) = false ∧
      slot.state.generation = slot.generation.counter.logical ∧
      ∀ id, slot.state.taskId = some id → state.checkSlotTask slot id = [] := by
  unfold slotViolations at h
  simp only [append_eq_nil_iff, flag_eq_nil, bne_eq_false_iff_eq] at h
  obtain ⟨⟨⟨⟨⟨⟨hdup, -⟩, -⟩, hgeneration⟩, -⟩, -⟩, htask⟩ := h
  refine ⟨hdup, hgeneration, fun id hid => ?_⟩
  rw [hid] at htask
  exact htask

theorem brand_of_validSlotBrand {key : SlotKey} (h : state.validSlotBrand key = true) :
    key = state.config.slotKey key.slotId key.logicalGeneration := by
  simp only [validSlotBrand, Bool.and_eq_true, beq_iff_eq] at h
  obtain ⟨⟨⟨hrun, hepoch⟩, hqueue⟩, -⟩ := h
  rw [ServiceModelConfig.slotKey, ← hrun, ← hepoch, ← hqueue]

theorem taskViolations_eq_nil {task : TaskRecord} (h : state.taskViolations task = []) :
    (∀ key, task.state.slotKey = some key →
      key = state.config.slotKey key.slotId key.logicalGeneration ∧
      (task.state.isTerminal = false → ∃ slot, state.slot key.slotId = some slot ∧
        slot.state.taskId = some task.taskId ∧ slot.state.generation = key.logicalGeneration)) ∧
    (task.state.liveLease.isSome = true → ∀ epoch ∈ task.dependencies, ∃ dependency producer,
      state.dependency epoch = some dependency ∧
        dependency.state = .visibleSatisfied producer) := by
  unfold taskViolations at h
  simp only [append_eq_nil_iff] at h
  obtain ⟨⟨⟨-, hslot⟩, hdependencies⟩, -⟩ := h
  constructor
  · intro key hkey
    rw [hkey] at hslot
    obtain ⟨hbrand, hheld⟩ := append_eq_nil_iff.mp hslot
    refine ⟨brand_of_validSlotBrand (by simpa using hbrand), fun hlive => ?_⟩
    simp only [flag_eq_nil, hlive, Bool.not_false, Bool.true_and, Bool.not_eq_false',
      Option.any_eq_true, Bool.and_eq_true, beq_iff_eq] at hheld
    exact hheld
  · intro hlease epoch hepoch
    rw [if_pos hlease] at hdependencies
    have hflag := flatMap_eq_nil_iff.mp hdependencies epoch hepoch
    simp only [flag_eq_nil, Bool.not_eq_false', Option.any_eq_true] at hflag
    obtain ⟨dependency, hfound, hvisible⟩ := hflag
    cases hstate : dependency.state with
    | visibleSatisfied producer => exact ⟨dependency, producer, hfound, hstate⟩
    | _ => rw [hstate] at hvisible; cases hvisible

theorem workerViolations_eq_nil {worker : WorkerRecord} (h : state.workerViolations worker = [])
    {taskId : TaskId} {leaseId : LeaseId} {phaseId : PhaseId}
    (hrunning : worker.state = .running taskId leaseId phaseId) :
    (∃ lease key, state.lease leaseId = some lease ∧ lease.state = .executing key ∧
      key.workerId = worker.workerId) ∧
    ∃ task, state.task taskId = some task ∧ task.state.liveLease = some leaseId := by
  unfold workerViolations at h
  rw [hrunning] at h
  have hmatch := flag_eq_nil.mp (append_eq_nil_iff.mp h).1
  simp only [Bool.or_eq_false_iff, Bool.not_eq_false', Option.any_eq_true] at hmatch
  obtain ⟨⟨lease, hlease, hkey⟩, task, htask, hheld⟩ := hmatch
  constructor
  · split at hkey
    · rename_i key hstate
      rw [Bool.and_eq_true, beq_iff_eq] at hkey
      exact ⟨lease, key, hlease, hstate, hkey.1⟩
    · nomatch hkey
  · refine ⟨task, htask, ?_⟩
    split at hheld
    · rename_i hstate
      rw [Bool.and_eq_true, beq_iff_eq] at hheld
      rw [hstate, ← hheld.1]
      rfl
    · rename_i hstate
      rw [beq_iff_eq] at hheld
      rw [hstate, ← hheld]
      rfl
    · nomatch hheld

theorem valid_of_validate (h : state.validateGlobalInvariants = .ok ()) : state.Valid := by
  have hnil := foundViolations_eq_nil h
  unfold foundViolations at hnil
  simp only [append_eq_nil_iff, flatMap_eq_nil_iff] at hnil
  obtain ⟨⟨⟨⟨⟨⟨⟨⟨⟨⟨⟨-, hslots⟩, hunique⟩, htasks⟩, hleases⟩, hworkers⟩, -⟩, hcompletions⟩,
    hrecords⟩, hreclaimable⟩, -⟩, hlifecycle⟩ := hnil
  have hslot : ∀ slot ∈ state.slots, ∃ index, state.slotViolations slot index = [] := by
    intro slot hslot
    obtain ⟨index, hget⟩ := mem_iff_getElem?.mp hslot
    exact ⟨index, hslots (slot, index) (mk_mem_zipIdx_iff_getElem?.mpr hget)⟩
  simp only [checkUniqueRecords, append_eq_nil_iff] at hunique
  obtain ⟨⟨⟨⟨⟨hut, hul⟩, huw⟩, hud⟩, -⟩, huc⟩ := hunique
  have hcompletion := pairwise_of_checkUnique huc
  exact {
    slots := by
      refine distinctKeys_of_pairwise (pairwise_of_zipIdx fun row hrow => ?_)
      rw [← (slotViolations_eq_nil (hslots row hrow)).1]
      simp only [Bool.beq_comm]
    tasks := distinctKeys_of_pairwise (pairwise_of_checkUnique hut)
    leases := distinctKeys_of_pairwise (pairwise_of_checkUnique hul)
    workers := distinctKeys_of_pairwise (pairwise_of_checkUnique huw)
    dependencies := distinctKeys_of_pairwise (pairwise_of_checkUnique hud)
    completionRecords := hcompletion.imp fun hclash heq => by simp [heq] at hclash
    completionTasks := hcompletion.imp fun hclash heq => by simp [heq] at hclash
    generation := fun slot hmem => by
      obtain ⟨index, hnil⟩ := hslot slot hmem
      exact (slotViolations_eq_nil hnil).2.1
    slotTask := fun slot hmem id hid => by
      obtain ⟨index, hnil⟩ := hslot slot hmem
      exact checkSlotTask_eq_nil ((slotViolations_eq_nil hnil).2.2 id hid)
    brand := fun task hmem key hkey => ((taskViolations_eq_nil (htasks task hmem)).1 key hkey).1
    taskSlot := fun task hmem key hkey hlive =>
      ((taskViolations_eq_nil (htasks task hmem)).1 key hkey).2 hlive
    satisfied := fun task hmem => (taskViolations_eq_nil (htasks task hmem)).2
    runningWorker := fun worker hmem _ _ _ hrunning =>
      workerViolations_eq_nil (hworkers worker hmem) hrunning
    completionTask := fun completion hmem => by
      have hmatch := hcompletions completion hmem
      simp only [completionViolations, flag_eq_nil, Bool.or_eq_false_iff, Bool.not_eq_false',
        Option.any_eq_true] at hmatch
      exact hmatch.1
    taskRecord := fun task hmem recordId hrecord => by
      have hflag := hrecords task hmem
      rw [taskRecordViolations, hrecord] at hflag
      simpa using hflag
    reclaimable := fun slot hmem generation taskId outcome recordId hstate => by
      have hflag := hreclaimable slot hmem
      rw [slotRecordViolations, hstate] at hflag
      simpa using hflag
    quiescent := fun hstopped => by
      have hflag := (append_eq_nil_iff.mp hlifecycle).2
      simpa [hstopped] using hflag }

/-! ### Transitions -/

/-- What the checks of a pair of states say. -/
structure Step (state next : ServiceState) : Prop where
  before : state.Valid
  after : next.Valid
  config : next.config = state.config
  lifecycle : state.lifecycle.canTransitionTo next.lifecycle = true
  slots : Evolves QueueSlotRecord.slotId
    (fun slot later => state.legalSlotChange next slot later = true) state.slots next.slots
  slotCount : state.slots.length = next.slots.length
  tasks : Evolves TaskRecord.taskId (fun task later => task.legalChange later = true)
    state.tasks next.tasks
  addedTask : ∀ task ∈ next.tasks, state.task task.taskId = none → ∃ key, task.state = .reserved key
  leases : Evolves LeaseRecord.leaseId
    (fun lease later => lease.state.canTransitionTo later.state = true) state.leases next.leases
  addedLease : ∀ lease ∈ next.leases, state.lease lease.leaseId = none →
    lease.state.isIssued = true
  workers : Evolves WorkerRecord.workerId
    (fun worker later => worker.state.canTransitionTo later.state = true) state.workers next.workers
  workerCount : state.workers.length = next.workers.length
  dependencies : Evolves DependencyRecord.epoch
    (fun dependency later => dependency.state.canTransitionTo later.state = true)
    state.dependencies next.dependencies
  addedDependency : ∀ dependency ∈ next.dependencies, state.dependency dependency.epoch = none →
    dependency.state = .pending
  completions : Evolves CompletionRecord.recordId
    (fun completion later => completion.legalChange later = true)
    state.completionRecords next.completionRecords

section Families

variable {ρ κ : Type} [DecidableEq κ] {key : ρ → κ} {before after : List ρ}

theorem evolves_of_checkEach {missing illegal : κ → TransitionError} {legal : ρ → ρ → Bool}
    (h : checkEach key missing illegal legal before after = .ok ()) :
    Evolves key (fun record later => legal record later = true) before after := by
  intro k record hfound
  obtain ⟨later, hlater, hlegal⟩ := bind_eq_ok.mp (forM_eq_ok.mp h record (lookup_mem hfound))
  rw [okOr_eq_ok, lookup_key hfound] at hlater
  rw [failIf_eq_ok, Bool.not_eq_false'] at hlegal
  exact ⟨later, hlater, hlegal⟩

theorem initial_of_checkAdded {illegal : κ → TransitionError} {initial : ρ → Bool}
    (h : checkAdded key illegal initial before after = .ok ()) {record : ρ} (hmem : record ∈ after)
    (hnew : lookup key (key record) before = none) : initial record = true := by
  have hcheck := failIf_eq_ok.mp (forM_eq_ok.mp h record hmem)
  rw [hnew] at hcheck
  simpa using hcheck

end Families

theorem step_of_validate (h : state.validateTransitionTo next = .ok ()) : state.Step next := by
  unfold validateTransitionTo at h
  simp only [seq_eq_ok, mapError_eq_ok, failIf_eq_ok, bne_eq_false_iff_eq,
    Bool.not_eq_false'] at h
  obtain ⟨hbefore, hafter, hconfig, hlifecycle, hslots, htasks, haddedTask, hleases, haddedLease,
    hworkers, hdependencies, haddedDependency, -, hslotCount, hcount, -, hcompletions⟩ := h
  exact {
    before := valid_of_validate hbefore
    after := valid_of_validate hafter
    config := hconfig.symm
    lifecycle := hlifecycle
    slots := evolves_of_checkEach hslots
    slotCount := hslotCount
    tasks := evolves_of_checkEach htasks
    addedTask := fun task hmem hnew => by
      have hreserved := initial_of_checkAdded haddedTask hmem hnew
      cases hstate : task.state with
      | reserved key => exact ⟨key, rfl⟩
      | _ => rw [hstate] at hreserved; cases hreserved
    leases := evolves_of_checkEach hleases
    addedLease := fun lease hmem hnew => initial_of_checkAdded haddedLease hmem hnew
    workers := evolves_of_checkEach hworkers
    workerCount := hcount
    dependencies := evolves_of_checkEach hdependencies
    addedDependency := fun dependency hmem hnew =>
      beq_iff_eq.mp (initial_of_checkAdded haddedDependency hmem hnew)
    completions := evolves_of_checkEach hcompletions }

end ServiceState

end Fe2o3.ServiceModel
