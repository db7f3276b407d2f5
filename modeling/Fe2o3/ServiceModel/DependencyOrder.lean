import Fe2o3.ServiceModel.Histories

/-!
# The order of acquisitions and the producers of dependencies

A task is acquired only when all its dependency epochs are `VisibleSatisfied`, and a
satisfied epoch names a producer for good.  But the validator compares a dependency
record with nothing else: an epoch can be satisfied in the name of any task, even of one
that waits for it (`dependency_satisfied_early`).  Where an epoch is satisfied only for
a producer whose successful completion is visible (`Produced`), producers are acquired
before their consumers, and there is no cycle of producers.
-/

namespace Fe2o3.ServiceModel

open Lib
open List hiding lookup

namespace ServiceState

/-- A task has completed successfully, and its completion record is visible. -/
def Succeeded (state : ServiceState) (id : TaskId) : Prop :=
  ∃ task slot recordId, state.task id = some task ∧ task.state = .completed slot recordId ∧
    ∃ completion ∈ state.completionRecords, completion.taskId = id ∧ completion.visible = true

/-- An epoch that becomes satisfied in the step names a producer that has succeeded. -/
def Produced (state next : ServiceState) : Prop :=
  ∀ dependency ∈ next.dependencies, ∀ producer, dependency.state = .visibleSatisfied producer →
    state.dependency dependency.epoch ≠ some dependency → next.Succeeded producer

/-- A dependency of `task` is satisfied by `producer`. -/
def SatisfiedBy (state : ServiceState) (task : TaskRecord) (producer : TaskId) : Prop :=
  ∃ epoch ∈ task.dependencies, ∃ dependency, state.dependency epoch = some dependency ∧
    dependency.state = .visibleSatisfied producer

end ServiceState

variable {id producer : TaskId}

namespace History

open ServiceState

variable {history : History} {i j : Nat} {state next later : ServiceState}

theorem succeeded_kept (hij : i ≤ j) (hstate : history.At i state) (hlater : history.At j later)
    (h : state.Succeeded id) : later.Succeeded id := by
  obtain ⟨task, slot, recordId, htask, hcompleted, completion, hmem, hid, hvisible⟩ := h
  obtain ⟨found, hfound, hmoved⟩ := (follows hij hstate hlater).tasks id task htask
  obtain rfl := hmoved.terminal (by rw [hcompleted]; rfl)
  refine ⟨found, slot, recordId, hfound, hcompleted, ?_⟩
  obtain ⟨kept, hkept, rfl | rfl⟩ := completion_later hij hstate hlater hmem
  · exact ⟨_, hkept, hid, hvisible⟩
  · exact ⟨_, hkept, hid, rfl⟩

/-- Every step satisfies epochs only for producers that have succeeded. -/
def KeepsProducers (history : History) : Prop := history.states.IsChain Produced

/-- The producer of every satisfied epoch has succeeded. -/
theorem producer_succeeded (hstart : history.first.dependencies = [])
    (hproduced : history.KeepsProducers) (hstate : history.At i state) :
    ∀ dependency ∈ state.dependencies, ∀ producer,
      dependency.state = .visibleSatisfied producer → state.Succeeded producer := by
  refine history.induction (P := fun _ state => ∀ dependency ∈ state.dependencies, ∀ producer,
      dependency.state = .visibleSatisfied producer → state.Succeeded producer)
    (fun dependency hmem => ?_) (fun i state next hat hat' hstep ih => ?_) hstate
  · rw [hstart] at hmem
    nomatch hmem
  · intro dependency hmem producer hsatisfied
    by_cases hold : state.dependency dependency.epoch = some dependency
    · exact succeeded_kept (Nat.le_succ i) hat hat'
        (ih dependency (lookup_mem hold) producer hsatisfied)
    · exact isChain_step hproduced hat hat' dependency hmem producer hsatisfied hold

/-- A task that has begun was acquired in an earlier step. -/
theorem acquired_before {task : TaskRecord} (hstate : history.At i state)
    (htask : state.task id = some task) (hbegun : task.state.Begun) :
    ∃ k before after lease, k < i ∧ history.At k before ∧ history.At (k + 1) after ∧
      Acquires before after id lease := by
  revert htask hbegun task
  refine history.induction (P := fun i state => ∀ {task : TaskRecord}, state.task id = some task →
      task.state.Begun → ∃ k before after lease, k < i ∧ history.At k before ∧
        history.At (k + 1) after ∧ Acquires before after id lease)
    (fun htask _ => ?_) (fun i state next hat hat' hstep ih => ?_) hstate
  · rw [ServiceState.task, history.fresh.tasks] at htask
    cases htask
  · intro task htask hbegun
    obtain ⟨-, key, hreserved⟩ | ⟨old, hold, hlegal⟩ := hstep.task_cases htask
    · obtain hlease | ⟨slot, recordId, hcompleted⟩ := hbegun
      · rw [hreserved] at hlease
        cases hlease
      · cases hreserved.symm.trans hcompleted
    · obtain hbegun' | ⟨slot, lease, hpublished, hacquired⟩ :=
        (TaskRecord.edge hlegal).begun_cases hbegun
      · obtain ⟨k, before, after, lease, hk, hrest⟩ := ih hold hbegun'
        exact ⟨k, before, after, lease, Nat.lt_succ_of_lt hk, hrest⟩
      · refine ⟨i, state, next, lease, Nat.lt_succ_self i, hat, hat',
          ⟨task, slot, htask, hacquired⟩, fun record slot' lease' hrecord hsame => ?_⟩
        rw [hold] at hrecord
        cases hrecord
        cases hpublished.symm.trans hsame

/-- A task has `producer` as the producer of one of its dependencies, in some state. -/
def DependsOn (history : History) (id producer : TaskId) : Prop :=
  ∃ i state task, history.At i state ∧ state.task id = some task ∧ state.SatisfiedBy task producer

/-- A step of the history acquires the task. -/
def AcquiredAt (history : History) (i : Nat) (id : TaskId) : Prop :=
  ∃ state next lease, history.At i state ∧ history.At (i + 1) next ∧ Acquires state next id lease

/-- An epoch has one producer in the whole history. -/
theorem producer_unique {epoch : DependencyEpoch} {dependency dependency' : DependencyRecord}
    {producer' : TaskId} (hij : i ≤ j) (hstate : history.At i state) (hlater : history.At j later)
    (h : state.dependency epoch = some dependency)
    (hsatisfied : dependency.state = .visibleSatisfied producer)
    (h' : later.dependency epoch = some dependency')
    (hsatisfied' : dependency'.state = .visibleSatisfied producer') : producer = producer' := by
  rw [(follows hij hstate hlater).dependencies.related h h' producer hsatisfied] at hsatisfied'
  exact DependencyState.visibleSatisfied.inj hsatisfied'

section

variable (hstart : history.first.dependencies = []) (hproduced : history.KeepsProducers)
include hstart hproduced

/-- A producer is acquired before its consumer. -/
theorem acquired_first (hdepends : history.DependsOn id producer)
    (hacquired : history.AcquiredAt i id) : ∃ k < i, history.AcquiredAt k producer := by
  obtain ⟨j, state, task, hstate, htask, epoch, hepoch, dependency, hfound, hsatisfied⟩ := hdepends
  obtain ⟨before, after, lease, hbefore, hafter, hacquires⟩ := hacquired
  obtain ⟨-, record, slot, -, -, hrecord, hkind⟩ := (step hbefore hafter).acquires_cases hacquires
  -- the consumer has the same dependencies in both states
  have hsame : record.dependencies = task.dependencies := by
    obtain hle | hle := Nat.le_total j (i + 1)
    · exact ((follows hle hstate hafter).tasks.related htask hrecord).dependencies
    · exact ((follows hle hafter hstate).tasks.related hrecord htask).dependencies.symm
  obtain ⟨dependency', producer', hfound', hsatisfied'⟩ :=
    (valid hafter).satisfied record (lookup_mem hrecord) (by rw [hkind]; rfl) epoch (hsame ▸ hepoch)
  have heq : producer = producer' := by
    obtain hle | hle := Nat.le_total j (i + 1)
    · exact producer_unique hle hstate hafter hfound hsatisfied hfound' hsatisfied'
    · exact (producer_unique hle hafter hstate hfound' hsatisfied' hfound hsatisfied).symm
  subst heq
  obtain ⟨found, slot', recordId, hproducer, hcompleted, -⟩ :=
    producer_succeeded hstart hproduced hafter dependency' (lookup_mem hfound') producer hsatisfied'
  obtain ⟨k, first, second, lease', hk, hfirst, hsecond, hacquires'⟩ :=
    acquired_before hafter hproducer (Or.inr ⟨slot', recordId, hcompleted⟩)
  refine ⟨k, Nat.lt_of_le_of_ne (Nat.lt_succ_iff.mp hk) fun hki => ?_,
    first, second, lease', hfirst, hsecond, hacquires'⟩
  -- a task that completes in a step is not acquired in it
  subst hki
  rw [At, show history.states[k + 1]? = some after from hafter] at hsecond
  cases hsecond
  obtain ⟨⟨found', slot'', hfound'', hnot⟩, -⟩ := hacquires'
  rw [hproducer] at hfound''
  cases hfound''
  nomatch hcompleted.symm.trans hnot

theorem acquired_first_of_chain (hdepends : Relation.TransGen history.DependsOn id producer)
    (hacquired : history.AcquiredAt i id) : ∃ k < i, history.AcquiredAt k producer := by
  induction hdepends with
  | single hedge => exact acquired_first hstart hproduced hedge hacquired
  | tail _ hedge ih =>
    obtain ⟨k, hk, hmiddle⟩ := ih
    obtain ⟨k', hk', hlast⟩ := acquired_first hstart hproduced hedge hmiddle
    exact ⟨k', hk'.trans hk, hlast⟩

/-- Every producer was acquired at some time. -/
theorem producer_acquired (hdepends : history.DependsOn id producer) :
    ∃ k, history.AcquiredAt k producer := by
  obtain ⟨j, state, task, hstate, -, epoch, -, dependency, hfound, hsatisfied⟩ := hdepends
  obtain ⟨found, slot, recordId, hproducer, hcompleted, -⟩ :=
    producer_succeeded hstart hproduced hstate dependency (lookup_mem hfound) producer hsatisfied
  obtain ⟨k, before, after, lease, -, hacquired⟩ :=
    acquired_before hstate hproducer (Or.inr ⟨slot, recordId, hcompleted⟩)
  exact ⟨k, before, after, lease, hacquired⟩

end

/-- Leased tasks have satisfied dependencies, producers form no cycle, and acquisitions follow
the producers. -/
structure DependencyOrdered (history : History) : Prop where
  satisfied : ∀ i state id task, history.At i state → state.task id = some task →
    task.state.liveLease.isSome = true → ∀ epoch ∈ task.dependencies,
      ∃ dependency producer, state.dependency epoch = some dependency ∧
        dependency.state = .visibleSatisfied producer ∧ state.Succeeded producer
  acyclic : ∀ id, ¬Relation.TransGen history.DependsOn id id
  topological : ∀ i id producer, history.DependsOn id producer → history.AcquiredAt i id →
    ∃ k < i, history.AcquiredAt k producer

theorem dependency_ordered (history : History) (hstart : history.first.dependencies = [])
    (hproduced : history.KeepsProducers) : history.DependencyOrdered where
  satisfied := by
    intro i state id task hstate htask hlease epoch hepoch
    obtain ⟨dependency, producer, hfound, hsatisfied⟩ :=
      (valid hstate).satisfied task (lookup_mem htask) hlease epoch hepoch
    exact ⟨dependency, producer, hfound, hsatisfied,
      producer_succeeded hstart hproduced hstate dependency (lookup_mem hfound) producer hsatisfied⟩
  acyclic := by
    intro id hcycle
    -- the last edge of the cycle makes the task a producer, so it was acquired
    have hacquired : ∃ k, history.AcquiredAt k id := by
      cases hcycle with
      | single hedge | tail _ hedge => exact producer_acquired hstart hproduced hedge
    obtain ⟨k, state, next, lease, hstate, hnext, hacquires⟩ := hacquired
    obtain ⟨k', hk', state', next', lease', hstate', hnext', hacquires'⟩ :=
      acquired_first_of_chain hstart hproduced hcycle ⟨state, next, lease, hstate, hnext, hacquires⟩
    have hle := acquires_order hstate' hnext' hacquires' hstate hnext hacquires
    omega
  topological := fun _ _ _ => acquired_first hstart hproduced

/-- Task 2 waits for the epoch that task 1 produces, and is acquired after it. -/
theorem dependency_ordered_producer : let k := sampleKey 0
    let k' := sampleKey 1
    let lease : LeaseKey := ⟨k, 1, 0, 0⟩
    let lease' : LeaseKey := ⟨k', 2, 1, 0⟩
    let waiting (slot : QueueSlotState) (task : TaskState) (leases : List LeaseRecord) :=
      sampleState .running [slot, .published 0 2] [task, .published k'] [[], [9]] leases
        [⟨9, .pending⟩] []
    let completed (slot' : QueueSlotState) (task' : TaskState) (leases : List LeaseRecord)
        (dependency : DependencyState) :=
      sampleState .running [.completed 0 1 .succeeded 10, slot'] [.completed k 10, task'] [[], [9]]
        (⟨50, .consumed lease .succeeded 10⟩ :: leases) [⟨9, dependency⟩]
        [⟨10, 1, k, .succeeded, true⟩]
    let states := [
      sampleState .running [.empty 0, .empty 0] [] [] [] [] [],
      sampleState .running [.reserved 0 1, .reserved 0 2] [.reserved k, .reserved k'] [[], [9]] []
        [⟨9, .pending⟩] [],
      sampleState .running [.initialized 0 1, .initialized 0 2] [.initialized k, .initialized k']
        [[], [9]] [] [⟨9, .pending⟩] [],
      waiting (.published 0 1) (.published k) [],
      waiting (.acquired 0 1 50) (.acquired k 50) [⟨50, .issued lease⟩],
      waiting (.executing 0 1 50) (.executing k 50 0) [⟨50, .executing lease⟩],
      waiting (.executing 0 1 50) (.completionPending k 50 .succeeded) [⟨50, .executing lease⟩],
      completed (.published 0 2) (.published k') [] (.completionPublished 1),
      completed (.published 0 2) (.published k') [] (.visibleSatisfied 1),
      completed (.acquired 0 2 51) (.acquired k' 51) [⟨51, .issued lease'⟩] (.visibleSatisfied 1)]
    ∃ history : History, history.states = states ∧ history.first.dependencies = [] ∧
      history.KeepsProducers ∧ history.DependencyOrdered := by
  intro k k' lease lease' waiting completed states
  have hquiet : ∀ {state next : ServiceState},
      next.dependencies.all (!·.state.isVisibleSatisfied) = true → Produced state next := by
    intro state next hall dependency hmem producer hsatisfied
    have hnot := all_eq_true.mp hall dependency hmem
    rw [hsatisfied] at hnot
    nomatch hnot
  have hchain : states.IsChain Produced := by
    refine .cons_cons (hquiet rfl) (.cons_cons (hquiet rfl) (.cons_cons (hquiet rfl)
      (.cons_cons (hquiet rfl) (.cons_cons (hquiet rfl) (.cons_cons (hquiet rfl)
      (.cons_cons (hquiet rfl) (.cons_cons ?_ (.cons_cons ?_ (.singleton _)))))))))
    · intro dependency hmem producer hsatisfied _
      cases mem_singleton.mp hmem
      cases hsatisfied
      exact ⟨_, k, 10, rfl, rfl, _, mem_singleton.mpr rfl, rfl, rfl⟩
    · intro dependency hmem producer _ hnew
      cases mem_singleton.mp hmem
      exact absurd rfl hnew
  let history : History := ⟨_, states.tail, ⟨by decide +kernel, rfl, rfl, rfl, by decide⟩,
    (by decide +kernel : states.IsChain fun state next => state.validateTransitionTo next = .ok ())⟩
  exact ⟨history, rfl, rfl, hchain, dependency_ordered history rfl hchain⟩

/-- An accepted history in which a task is acquired on an epoch that it produces itself. -/
theorem dependency_satisfied_early : let k := sampleKey 0
    let acquired :=
      sampleState .running [.acquired 0 1 50, .empty 0] [.acquired k 50] [[9]]
        [⟨50, .issued ⟨k, 1, 0, 0⟩⟩] [⟨9, .visibleSatisfied 1⟩] []
    ∃ history : History, history.states = [
        sampleState .running [.empty 0, .empty 0] [] [[9]] [] [] [],
        sampleState .running [.reserved 0 1, .empty 0] [.reserved k] [[9]] [] [⟨9, .pending⟩] [],
        sampleState .running [.initialized 0 1, .empty 0] [.initialized k] [[9]] []
          [⟨9, .completionPublished 1⟩] [],
        sampleState .running [.published 0 1, .empty 0] [.published k] [[9]] []
          [⟨9, .visibleSatisfied 1⟩] [],
        acquired] ∧
      history.first.dependencies = [] ∧ history.DependsOn 1 1 ∧ ¬acquired.Succeeded 1 := by
  intro k acquired
  refine ⟨⟨_, _, ⟨by decide +kernel, rfl, rfl, rfl, by decide⟩, by decide +kernel⟩, rfl, rfl,
    ⟨4, acquired, _, rfl, rfl, 9, mem_singleton.mpr rfl, _, rfl, rfl⟩, ?_⟩
  rintro ⟨task, slot, recordId, htask, hcompleted, -⟩
  cases htask
  nomatch hcompleted

end History

end Fe2o3.ServiceModel
