import Fe2o3.Lib.Chains
import Fe2o3.ServiceModel.Validity

/-!
# Service histories are well accounted

A history is a list of states that starts without tasks, leases and completion records
and in which the validator accepts every adjacent pair.  The validator only sees one
pair at a time; what holds between two states that are any number of steps apart is
collected in `Follows`, which is reflexive, survives a step and therefore relates every
state of a history to every later one.
-/

namespace Fe2o3.ServiceModel

open Lib

namespace ServiceState

/-- A valid state with no tasks, leases or completion records and all slots empty. -/
structure Fresh (state : ServiceState) : Prop where
  valid : state.validateGlobalInvariants = .ok ()
  tasks : state.tasks = []
  leases : state.leases = []
  completionRecords : state.completionRecords = []
  slots : ∀ slot ∈ state.slots, slot.state.isEmpty = true

end ServiceState

structure History where
  first : ServiceState
  rest : List ServiceState
  fresh : first.Fresh
  accepted : (first :: rest).IsChain fun state next => state.validateTransitionTo next = .ok ()

namespace History

def states (history : History) : List ServiceState := history.first :: history.rest

/-- The state at a position. -/
def At (history : History) (i : Nat) (state : ServiceState) : Prop :=
  history.states[i]? = some state

end History

/-! ### A service with two slots -/

def sampleSlot (id : SlotId) (state : QueueSlotState) : QueueSlotRecord :=
  ⟨id, .current ⟨state.generation, state.generation % 4⟩, .«protected» none, state⟩

/-- A state of a service with two slots and one worker that is gone; tasks are numbered from
one, and `epochs` lists the dependencies of each. -/
def sampleState (lifecycle : LifecycleState) (slots : List QueueSlotState) (tasks : List TaskState)
    (epochs : List (List DependencyEpoch)) (leases : List LeaseRecord)
    (dependencies : List DependencyRecord) (completionRecords : List CompletionRecord) :
    ServiceState where
  config := ⟨1, 1, 2, 3, 4, [7], 2, 4, 1, .exactlyOnce, 5⟩
  lifecycle := lifecycle
  admissionCutoff := if lifecycle = .running then none else some 9
  slots := slots.mapIdx sampleSlot
  tasks := tasks.mapIdx fun index state => ⟨index + 1, 7, 0, index, epochs.getD index [], state⟩
  leases := leases
  workers := [⟨0, .failed⟩]
  dependencies := dependencies
  phaseRegions := []
  completionRecords := completionRecords
  failure := none

/-- The key of a slot of the sample service in its first generation. -/
def sampleKey (slot : SlotId) : SlotKey := ⟨1, 1, 2, slot, 0⟩

/-! ### Records over many steps -/

/-- How a task looks any number of steps later. -/
structure TaskRecord.Later (task later : TaskRecord) : Prop where
  dependencies : later.dependencies = task.dependencies
  terminal : task.state.isTerminal = true → later = task
  slotKey : ∀ key, task.state.slotKey = some key → later.state.slotKey = some key
  liveLease : ∀ lease, task.state.liveLease = some lease →
    later.state.liveLease = some lease ∨ later.state.isTerminal = true

theorem TaskRecord.Later.refl (task : TaskRecord) : task.Later task :=
  ⟨rfl, fun _ => rfl, fun _ hkey => hkey, fun _ hlease => Or.inl hlease⟩

variable {later task : TaskRecord} {slot : QueueSlotRecord} {completion : CompletionRecord}
  {lease : LeaseId} {generation : Nat}

theorem TaskRecord.Later.trans {middle : TaskRecord} (h : task.Later middle)
    (h' : middle.Later later) : task.Later later where
  dependencies := h'.dependencies.trans h.dependencies
  terminal := by
    intro hend
    obtain rfl := h.terminal hend
    exact h'.terminal hend
  slotKey := fun key hkey => h'.slotKey key (h.slotKey key hkey)
  liveLease := by
    intro lease hlease
    obtain hmiddle | hend := h.liveLease lease hlease
    · exact h'.liveLease lease hmiddle
    · exact Or.inr ((h'.terminal hend).symm ▸ hend)

theorem TaskRecord.edge (h : task.legalChange later = true) :
    TaskState.Edge task.state later.state := by
  simp only [legalChange, Bool.and_eq_true] at h
  exact TaskState.edge_of_canTransitionTo h.2

theorem TaskRecord.later_of_legalChange (h : task.legalChange later = true) : task.Later later := by
  have hedge := edge h
  simp only [legalChange, Bool.and_eq_true, beq_iff_eq] at h
  obtain ⟨⟨⟨⟨⟨hid, htag⟩, hpayload⟩, hsequence⟩, hdependencies⟩, -⟩ := h
  refine ⟨hdependencies.symm, fun hend => ?_, fun _ => hedge.slotKey_kept,
    fun _ => hedge.liveLease_kept⟩
  have hstate := hedge.eq_of_terminal hend
  cases task
  cases later
  simp_all

/-- A slot has left its generation, or is still in it with the task it had. -/
def QueueSlotRecord.Later (slot later : QueueSlotRecord) : Prop :=
  slot.state.generation < later.state.generation ∨
    (later.state.generation = slot.state.generation ∧
      ∀ task, slot.state.taskId = some task → later.state.taskId = some task)

theorem QueueSlotRecord.Later.trans {middle later : QueueSlotRecord} (h : slot.Later middle)
    (h' : middle.Later later) : slot.Later later := by
  obtain h | ⟨hgeneration, htask⟩ := h
  · obtain h' | ⟨h', -⟩ := h'
    · exact Or.inl (h.trans h')
    · exact Or.inl (h' ▸ h)
  · obtain h' | ⟨hgeneration', htask'⟩ := h'
    · exact Or.inl (hgeneration ▸ h')
    · exact Or.inr ⟨hgeneration'.trans hgeneration, fun task hold => htask' task (htask task hold)⟩

/-- A completion record may have become visible. -/
def CompletionRecord.Later (completion later : CompletionRecord) : Prop :=
  later = completion ∨ later = { completion with visible := true }

theorem CompletionRecord.Later.trans {middle later : CompletionRecord} (h : completion.Later middle)
    (h' : middle.Later later) : completion.Later later := by
  obtain rfl | rfl := h
  · exact h'
  · exact Or.inr (h'.elim id id)

theorem CompletionRecord.later_of_legalChange {later : CompletionRecord}
    (h : completion.legalChange later = true) : completion.Later later := by
  obtain ⟨recordId, taskId, slot, outcome, visible⟩ := completion
  obtain ⟨recordId', taskId', slot', outcome', visible'⟩ := later
  simp only [legalChange, Bool.and_eq_true, beq_iff_eq] at h
  cases visible <;> cases visible' <;> simp_all [Later]

/-! ### States over many steps -/

namespace ServiceState

variable {state next later : ServiceState}

/-- Nothing but the order of the records and the oldest live generations has changed. -/
structure Frozen (state later : ServiceState) : Prop where
  lifecycle : later.lifecycle = state.lifecycle
  task : ∀ id, later.task id = state.task id
  lease : ∀ id, later.lease id = state.lease id
  worker : ∀ id, later.worker id = state.worker id
  slot : ∀ id, (later.slot id).map (·.state) = (state.slot id).map (·.state)

/-- What holds between a state and any later one. -/
structure Follows (state later : ServiceState) : Prop where
  config : later.config = state.config
  slots : Evolves QueueSlotRecord.slotId QueueSlotRecord.Later state.slots later.slots
  tasks : Evolves TaskRecord.taskId TaskRecord.Later state.tasks later.tasks
  leases : Evolves LeaseRecord.leaseId (fun lease later => later.state.key = lease.state.key)
    state.leases later.leases
  completions : Evolves CompletionRecord.recordId CompletionRecord.Later state.completionRecords
    later.completionRecords
  dependencies : Evolves DependencyRecord.epoch (fun dependency later => ∀ producer,
    dependency.state = .visibleSatisfied producer → later.state = .visibleSatisfied producer)
    state.dependencies later.dependencies
  stopped : state.lifecycle = .stopped → Frozen state later

theorem Follows.refl (state : ServiceState) : Follows state state where
  config := rfl
  slots := Evolves.refl (R := QueueSlotRecord.Later) (fun _ => Or.inr ⟨rfl, fun _ h => h⟩) _
  tasks := Evolves.refl TaskRecord.Later.refl _
  leases := fun _ lease hfound => ⟨lease, hfound, rfl⟩
  completions := Evolves.refl (R := CompletionRecord.Later) (fun _ => Or.inl rfl) _
  dependencies := Evolves.refl (fun _ _ h => h) _
  stopped := fun _ => ⟨rfl, fun _ => rfl, fun _ => rfl, fun _ => rfl, fun _ => rfl⟩

theorem Follows.trans (h : Follows state next) (h' : Follows next later) : Follows state later where
  config := h'.config.trans h.config
  slots := Evolves.trans (fun _ _ _ => QueueSlotRecord.Later.trans) h.slots h'.slots
  tasks := Evolves.trans (fun _ _ _ => TaskRecord.Later.trans) h.tasks h'.tasks
  leases := Evolves.trans (fun _ _ _ hab hbc => hbc.trans hab) h.leases h'.leases
  completions := Evolves.trans (fun _ _ _ => CompletionRecord.Later.trans) h.completions
    h'.completions
  dependencies := Evolves.trans (fun _ _ _ hab hbc producer ha => hbc producer (hab producer ha))
    h.dependencies h'.dependencies
  stopped := fun hstopped => by
    have hfirst := h.stopped hstopped
    have hsecond := h'.stopped (hfirst.lifecycle.trans hstopped)
    exact ⟨hsecond.lifecycle.trans hfirst.lifecycle,
      fun id => (hsecond.task id).trans (hfirst.task id),
      fun id => (hsecond.lease id).trans (hfirst.lease id),
      fun id => (hsecond.worker id).trans (hfirst.worker id),
      fun id => (hsecond.slot id).trans (hfirst.slot id)⟩

/-! ### What one step does -/

variable {id : TaskId}

/-- The slot that holds a task, in the phase of the task. -/
theorem Valid.held (h : state.Valid) (htask : state.task id = some task) {key : SlotKey}
    (hkey : task.state.slotKey = some key) (hlive : task.state.isTerminal = false) :
    ∃ slot, state.slot key.slotId = some slot ∧ slot.state.taskId = some id ∧
      slot.state.generation = key.logicalGeneration ∧
      slot.state.taskPhaseMatches task.state = true := by
  obtain ⟨slot, hslot, hid, hgeneration⟩ := h.taskSlot task (lookup_mem htask) key hkey hlive
  rw [lookup_key htask] at hid
  obtain ⟨found, hfound, -, hphase⟩ := h.slotTask slot (lookup_mem hslot) id hid
  rw [htask] at hfound
  cases hfound
  exact ⟨slot, hslot, hid, hgeneration, hphase⟩

namespace Step

variable (h : state.Step next)

include h

/-- No slot is new. -/
theorem oldSlot {id : SlotId} (hslot : next.slot id = some slot) :
    ∃ old, state.slot id = some old ∧ state.legalSlotChange next old slot = true :=
  exists_lookup_of_length_eq h.slots h.before.slots h.slotCount hslot

omit h in
theorem slotEdge {old : QueueSlotRecord} (hlegal : state.legalSlotChange next old slot = true) :
    old.state.canTransitionTo slot.state = true := by
  simp only [legalSlotChange, Bool.and_eq_true] at hlegal
  exact hlegal.1.1.1.1

/-- A task is new, or it has made a legal step. -/
theorem task_cases (htask : next.task id = some task) :
    (state.task id = none ∧ ∃ key, task.state = .reserved key) ∨
      ∃ old, state.task id = some old ∧ old.legalChange task = true := by
  cases hold : state.task id with
  | none =>
    have hnew := h.addedTask task (lookup_mem htask)
    rw [lookup_key htask] at hnew
    exact Or.inl ⟨rfl, hnew hold⟩
  | some old =>
    exact Or.inr ⟨old, rfl, h.tasks.related hold htask⟩

/-- A new task enters an empty slot of a service that is running and goes on running. -/
theorem running_of_added (htask : next.task id = some task) (hnew : state.task id = none) :
    state.lifecycle = .running ∧ next.lifecycle = .running := by
  obtain ⟨-, key, hreserved⟩ | ⟨old, hold, -⟩ := h.task_cases htask
  · obtain ⟨slot, hslot, hid, hgeneration, hphase⟩ :=
      h.after.held htask (show _ = some key by rw [hreserved]; rfl) (by rw [hreserved]; rfl)
    rw [hreserved] at hphase
    have hentered := QueueSlotState.isReserved_of_matches hphase
    obtain ⟨before, hbefore, hlegal⟩ := h.oldSlot hslot
    have hedge := slotEdge hlegal
    simp only [legalSlotChange, Bool.and_eq_true] at hlegal
    have hadmission := hlegal.1.2
    cases hstate : slot.state with
    | reserved generation occupant =>
      rw [hstate] at hid hedge hadmission
      cases hid
      obtain hsame | hempty := QueueSlotState.reserved_cases hedge
      · -- the slot was not held by a task that is new
        obtain ⟨known, hknown, -⟩ :=
          h.before.slotTask before (lookup_mem hbefore) id (by rw [hsame]; rfl)
        cases hnew.symm.trans hknown
      · rw [hempty] at hadmission
        simpa [QueueSlotState.isEmpty, QueueSlotState.isReserved] using hadmission
    | _ => rw [hstate] at hentered; cases hentered
  · cases hnew.symm.trans hold

/-- A slot keeps its generation, or is reclaimed and enters the next one. -/
theorem generation_cases {id : SlotId} (hslot : state.slot id = some slot) :
    ∃ later, next.slot id = some later ∧ slot.Later later ∧
      (later.generation = slot.generation ∨
        slot.state.isReclaimable = true ∧ later.state.isEmpty = true ∧
          later.generation.counter.logical = slot.generation.counter.logical + 1) := by
  obtain ⟨later, hlater, hlegal⟩ := h.slots id slot hslot
  have hedge := slotEdge hlegal
  simp only [legalSlotChange, Bool.and_eq_true] at hlegal
  have hgeneration := hlegal.1.1.1.2
  have hold := h.before.generation slot (lookup_mem hslot)
  have hnew := h.after.generation later (lookup_mem hlater)
  refine ⟨later, hlater, ?_⟩
  obtain ⟨hstay, hkept, htask⟩ | ⟨hreclaimable, hempty, hnext⟩ := QueueSlotState.edge_cases hedge
  · refine ⟨Or.inr ⟨hkept, htask⟩, Or.inl ?_⟩
    simp only [generationTransitionValid, GenerationState.canTransitionTo, hstay,
      Bool.not_false, if_true] at hgeneration
    split at hgeneration
    · nomatch hgeneration
    · exact (beq_iff_eq.mp hgeneration).symm
  · exact ⟨Or.inl (by omega), Or.inr ⟨hreclaimable, hempty, by omega⟩⟩

/-- A step of a stopped service changes nothing: both states are quiescent, and no edge
leads from one quiescent record to another. -/
theorem frozen (hstopped : state.lifecycle = .stopped) : Frozen state next := by
  have hlifecycle : next.lifecycle = state.lifecycle := by
    have hedge := h.lifecycle
    rw [hstopped] at hedge ⊢
    exact LifecycleState.eq_of_stopped hedge
  have hbefore := h.before.quiescent hstopped
  have hafter := h.after.quiescent (hlifecycle.trans hstopped)
  simp only [isQuiescent, Bool.and_eq_true, List.all_eq_true, Bool.not_eq_true'] at hbefore hafter
  obtain ⟨⟨⟨⟨hslots, htasks⟩, hleases⟩, hworkers⟩, -⟩ := hbefore
  obtain ⟨⟨⟨⟨hslots', htasks'⟩, hleases'⟩, -⟩, -⟩ := hafter
  refine ⟨hlifecycle, fun id => ?_, fun id => ?_, fun id => ?_, fun id => ?_⟩
  · refine lookup_of_fixed h.tasks (fun task hmem later _ hlegal => ?_) (fun task hmem => ?_) id
    · exact (TaskRecord.later_of_legalChange hlegal).terminal (htasks task hmem)
    · refine Option.ne_none_iff_exists'.mp fun hnew => ?_
      obtain ⟨key, hreserved⟩ := h.addedTask task hmem hnew
      have hend := htasks' task hmem
      rw [hreserved] at hend
      nomatch hend
  · refine lookup_of_fixed h.leases (fun lease hmem later hid hlegal => ?_)
      (fun lease hmem => ?_) id
    · have hstate := LeaseState.eq_of_not_live hlegal (hleases lease hmem)
      cases later
      simp_all
    · refine Option.ne_none_iff_exists'.mp fun hnew => ?_
      have hissued := h.addedLease lease hmem hnew
      have hend := hleases' lease hmem
      cases hstate : lease.state <;> rw [hstate] at hissued hend
      · nomatch hend
      · nomatch hend
      · nomatch hissued
  · refine lookup_of_fixed h.workers (fun worker hmem later hid hlegal => ?_)
      (fun worker hmem => ?_) id
    · have hstate := WorkerState.eq_of_gone hlegal (hworkers worker hmem)
      cases later
      simp_all
    · obtain ⟨old, hold, -⟩ := exists_lookup_of_length_eq h.workers h.before.workers h.workerCount
        (lookup_of_mem h.after.workers hmem)
      exact ⟨old, hold⟩
  · cases hslot : state.slot id with
    | some slot =>
      obtain ⟨later, hlater, hlegal⟩ := h.slots id slot hslot
      rw [show next.slot id = some later from hlater, Option.map_some, Option.map_some,
        QueueSlotState.eq_of_empty (slotEdge hlegal) (hslots slot (lookup_mem hslot))
          (hslots' later (lookup_mem hlater))]
    | none =>
      cases hnew : next.slot id with
      | none => rfl
      | some slot =>
        obtain ⟨old, hold, -⟩ := h.oldSlot hnew
        nomatch hslot.symm.trans hold

theorem follows : Follows state next where
  config := h.config
  slots := fun id slot hslot => by
    obtain ⟨later, hlater, hkept, -⟩ := h.generation_cases hslot
    exact ⟨later, hlater, hkept⟩
  tasks := h.tasks.mono fun _ _ => TaskRecord.later_of_legalChange
  leases := h.leases.mono fun _ _ => LeaseState.key_kept
  completions := h.completions.mono fun _ _ => CompletionRecord.later_of_legalChange
  dependencies := h.dependencies.mono fun _ _ hlegal _ => DependencyState.satisfied_kept hlegal
  stopped := h.frozen

end Step

/-! ### Acquisitions -/

/-- The step from `state` to `next` acquires a task under a lease. -/
def Acquires (state next : ServiceState) (task : TaskId) (lease : LeaseId) : Prop :=
  (∃ record slot, next.task task = some record ∧ record.state = .acquired slot lease) ∧
    ∀ record slot lease', state.task task = some record → record.state ≠ .acquired slot lease'

theorem Step.acquires_cases (h : state.Step next) (hacquires : Acquires state next id lease) :
    ∃ old record slot, state.task id = some old ∧ old.state = .published slot ∧
      next.task id = some record ∧ record.state = .acquired slot lease := by
  obtain ⟨⟨record, slot, hrecord, hacquired⟩, hnot⟩ := hacquires
  obtain ⟨-, key, hreserved⟩ | ⟨old, hold, hlegal⟩ := h.task_cases hrecord
  · nomatch hacquired.symm.trans hreserved
  · have hedge := TaskRecord.edge hlegal
    rw [hacquired] at hedge
    obtain hsame | hpublished := hedge.acquired_cases
    · exact absurd hsame (hnot old slot lease hold)
    · exact ⟨old, record, slot, hold, hpublished, hrecord, hacquired⟩

/-- An acquisition takes the slot from published to acquired, which the lifecycle must allow. -/
theorem Step.lifecycle_of_acquires (h : state.Step next)
    (hacquires : Acquires state next id lease) : state.lifecycle = .running ∨
    state.lifecycle = .draining := by
  obtain ⟨old, record, key, hold, hpublished, hrecord, hacquired⟩ := h.acquires_cases hacquires
  obtain ⟨slot, hslot, -, -, hphase⟩ :=
    h.before.held hold (show _ = some key by rw [hpublished]; rfl) (by rw [hpublished]; rfl)
  obtain ⟨later, hlater, -, -, hphase'⟩ :=
    h.after.held hrecord (show _ = some key by rw [hacquired]; rfl) (by rw [hacquired]; rfl)
  rw [hpublished] at hphase
  rw [hacquired] at hphase'
  have hlegal := h.slots.related hslot hlater
  simp only [legalSlotChange, Bool.and_eq_true] at hlegal
  simpa [QueueSlotState.isPublished_of_matches hphase, QueueSlotState.isAcquired_of_matches hphase']
    using hlegal.2

end ServiceState

/-! ### Whole histories -/

namespace History

open ServiceState

variable {history : History} {i j : Nat} {state next later : ServiceState}

theorem step (hstate : history.At i state) (hnext : history.At (i + 1) next) : state.Step next :=
  step_of_validate (isChain_step
    (R := fun state next => state.validateTransitionTo next = .ok ()) history.accepted hstate hnext)

/-- Induction on the position of a state. -/
theorem induction {P : Nat → ServiceState → Prop} (hfirst : P 0 history.first)
    (hstep : ∀ i state next, history.At i state → history.At (i + 1) next → state.Step next →
      P i state → P (i + 1) next) (hstate : history.At i state) : P i state := by
  refine isChain_induction history.accepted (fun first hat => ?_)
    (fun i a b ha hb hab => hstep i a b ha hb (step_of_validate hab)) hstate
  cases hat
  exact hfirst

theorem follows (hij : i ≤ j) (hstate : history.At i state) (hlater : history.At j later) :
    state.Follows later :=
  isChain_later history.accepted Follows.refl
    (fun _ _ _ hab hbc => hab.trans (step_of_validate hbc).follows) hij hstate hlater

theorem valid (hstate : history.At i state) : state.Valid :=
  history.induction (P := fun _ state => state.Valid) (valid_of_validate history.fresh.valid)
    (fun _ _ _ _ _ hstep _ => hstep.after) hstate

/-- A slot key that a task has, or a slot that holds a task, in some state. -/
def Owns (state : ServiceState) (slot : SlotId) (generation : Nat) (task : TaskId) : Prop :=
  (∃ record, state.slot slot = some record ∧ record.state.generation = generation ∧
      record.state.taskId = some task) ∨
    ∃ record, state.task task = some record ∧
      record.state.slotKey = some (state.config.slotKey slot generation)

/-- Whoever owns a generation of a slot was held by the slot in it. -/
theorem held_of_owns {slot : SlotId} {task : TaskId} (hstate : history.At i state)
    (howns : Owns state slot generation task) :
    ∃ k earlier record, history.At k earlier ∧ earlier.slot slot = some record ∧
      record.state.generation = generation ∧ record.state.taskId = some task := by
  obtain ⟨record, hheld⟩ | howns := howns
  · exact ⟨i, state, record, hstate, hheld⟩
  · revert howns
    refine history.induction (P := fun i state => (∃ record, state.task task = some record ∧
        record.state.slotKey = some (state.config.slotKey slot generation)) → _)
      ?_ (fun i state next hat hat' hstep ih => ?_) hstate
    · rintro ⟨record, hrecord, -⟩
      rw [ServiceState.task, history.fresh.tasks] at hrecord
      nomatch hrecord
    · rintro ⟨record, hrecord, hkey⟩
      cases hlive : record.state.isTerminal with
      | false =>
        obtain ⟨found, hfound, hid, hgeneration, -⟩ := hstep.after.held hrecord hkey hlive
        exact ⟨i + 1, next, found, hat', hfound, hgeneration, hid⟩
      | true =>
        obtain ⟨-, key, hreserved⟩ | ⟨old, hold, hlegal⟩ := hstep.task_cases hrecord
        · rw [hreserved] at hlive
          nomatch hlive
        · refine ih ⟨old, hold, ?_⟩
          rw [← (TaskRecord.edge hlegal).slotKey_of_terminal hlive, hkey, hstep.config]

theorem owner_unique {slot : SlotId} {task other : TaskId} (hstate : history.At i state)
    (howns : Owns state slot generation task) (hlater : history.At j later)
    (howns' : Owns later slot generation other) : task = other := by
  obtain ⟨k, first, record, hfirst, hrecord, hgeneration, htask⟩ := held_of_owns hstate howns
  obtain ⟨k', second, record', hsecond, hrecord', hgeneration', htask'⟩ :=
    held_of_owns hlater howns'
  -- of two states, the later one still holds what the earlier one held
  have hlast : ∀ {k k' : Nat} {first second : ServiceState} {record record' : QueueSlotRecord}
      {task other : TaskId}, k ≤ k' → history.At k first → history.At k' second →
      first.slot slot = some record → second.slot slot = some record' →
      record.state.generation = generation → record'.state.generation = generation →
      record.state.taskId = some task → record'.state.taskId = some other → task = other := by
    intro k k' first second record record' task other hle hfirst hsecond hrecord hrecord'
      hg hg' ht ht'
    obtain hlt | ⟨-, hkept⟩ := (follows hle hfirst hsecond).slots.related hrecord hrecord'
    · omega
    · rw [hkept task ht] at ht'
      exact Option.some.inj ht'
  obtain hle | hle := Nat.le_total k k'
  · exact hlast hle hfirst hsecond hrecord hrecord' hgeneration hgeneration' htask htask'
  · exact (hlast hle hsecond hfirst hrecord' hrecord hgeneration' hgeneration htask' htask).symm

/-- A task that holds a lease later holds it unchanged, or has ended. -/
theorem lease_kept {task : TaskId} {record record' : TaskRecord} (hij : i ≤ j)
    (hstate : history.At i state) (hlater : history.At j later)
    (hrecord : state.task task = some record) (hrecord' : later.task task = some record')
    (hlease : record.state.liveLease = some lease) :
    record'.state.liveLease = some lease ∨ record'.state.isTerminal = true :=
  ((follows hij hstate hlater).tasks.related hrecord hrecord').liveLease lease hlease

/-- At different times a task is held under one lease. -/
theorem lease_unique {task : TaskId} {record record' : TaskRecord} {lease' : LeaseId}
    (hstate : history.At i state) (hlater : history.At j later)
    (hrecord : state.task task = some record) (hrecord' : later.task task = some record')
    (hlease : record.state.liveLease = some lease)
    (hlease' : record'.state.liveLease = some lease') : lease = lease' := by
  have hlive := Bool.eq_false_iff.mp (TaskState.isTerminal_of_liveLease hlease)
  have hlive' := Bool.eq_false_iff.mp (TaskState.isTerminal_of_liveLease hlease')
  rcases Nat.le_total i j with hle | hle
  · have hkept := (lease_kept hle hstate hlater hrecord hrecord' hlease).resolve_right hlive'
    exact Option.mem_unique hkept hlease'
  · have hkept := (lease_kept hle hlater hstate hrecord' hrecord hlease').resolve_right hlive
    exact Option.mem_unique hlease hkept

/-- The lease was issued to one worker. -/
theorem lease_worker {held held' : LeaseRecord} (hstate : history.At i state)
    (hlater : history.At j later) (hheld : state.lease lease = some held)
    (hheld' : later.lease lease = some held') : held.state.key = held'.state.key := by
  rcases Nat.le_total i j with hle | hle
  · exact ((follows hle hstate hlater).leases.related hheld hheld').symm
  · exact (follows hle hlater hstate).leases.related hheld' hheld

theorem acquires_order {state' next' : ServiceState} {task : TaskId} {lease' : LeaseId}
    (hstate : history.At i state) (hnext : history.At (i + 1) next)
    (hacquires : Acquires state next task lease) (hstate' : history.At j state')
    (hnext' : history.At (j + 1) next') (hacquires' : Acquires state' next' task lease') :
    j ≤ i := by
  by_contra hlt
  obtain ⟨-, record, slot, -, -, hrecord, hacquired⟩ := (step hstate hnext).acquires_cases hacquires
  obtain ⟨old, -, slot', hold, hpublished, -, -⟩ := (step hstate' hnext').acquires_cases hacquires'
  obtain hheld | hend := lease_kept (by omega) hnext hstate' hrecord hold (by rw [hacquired]; rfl)
  · rw [hpublished] at hheld
    nomatch hheld
  · rw [hpublished] at hend
    nomatch hend

/-- The accounts of a history: owners of slots, acquisitions and ends of tasks, completion
records, workers, and the stop. -/
structure WellAccounted (history : History) : Prop where
  owner : ∀ i j state later slot generation task other, history.At i state → history.At j later →
    Owns state slot generation task → Owns later slot generation other → task = other
  counter : ∀ i state slot, history.At i state → slot ∈ state.slots →
    slot.state.generation = slot.generation.counter.logical
  generation : ∀ i state next id slot, history.At i state → history.At (i + 1) next →
    state.slot id = some slot → ∃ later, next.slot id = some later ∧
      (later.generation = slot.generation ∨
        slot.state.isReclaimable = true ∧ later.state.isEmpty = true ∧
          later.generation.counter.logical = slot.generation.counter.logical + 1)
  appears : ∀ i state next id task, history.At i state → history.At (i + 1) next →
    next.task id = some task → state.task id = none →
    state.lifecycle = .running ∧ next.lifecycle = .running
  acquiredOnce : ∀ i j state next state' next' task lease lease', history.At i state →
    history.At (i + 1) next → Acquires state next task lease → history.At j state' →
    history.At (j + 1) next' → Acquires state' next' task lease' → i = j
  acquiredFrom : ∀ i state next task lease, history.At i state → history.At (i + 1) next →
    Acquires state next task lease → state.lifecycle = .running ∨ state.lifecycle = .draining
  oneLease : ∀ i j state later task record record' lease lease', history.At i state →
    history.At j later → state.task task = some record → later.task task = some record' →
    record.state.liveLease = some lease → record'.state.liveLease = some lease' → lease = lease'
  terminal : ∀ i j state later task record, i ≤ j → history.At i state → history.At j later →
    state.task task = some record → record.state.isTerminal = true →
    later.task task = some record
  oneCompletion : ∀ i j state later completion completion', i ≤ j → history.At i state →
    history.At j later → completion ∈ state.completionRecords →
    completion' ∈ later.completionRecords → completion'.taskId = completion.taskId →
    completion.Later completion'
  completionKept : ∀ i j state later completion, i ≤ j → history.At i state →
    history.At j later → completion ∈ state.completionRecords →
    completion ∈ later.completionRecords ∨
      { completion with visible := true } ∈ later.completionRecords
  oneWorker : ∀ i j state later worker worker' task lease lease' phase phase',
    history.At i state → history.At j later → worker ∈ state.workers → worker' ∈ later.workers →
    worker.state = .running task lease phase → worker'.state = .running task lease' phase' →
    worker.workerId = worker'.workerId ∧ (i = j → worker = worker')
  stopped : ∀ i j state later, i ≤ j → history.At i state → history.At j later →
    state.lifecycle = .stopped → Frozen state later

theorem completion_later (hij : i ≤ j) (hstate : history.At i state) (hlater : history.At j later)
    (hmem : completion ∈ state.completionRecords) :
    ∃ found ∈ later.completionRecords, completion.Later found := by
  obtain ⟨found, hfound, hmoved⟩ := (follows hij hstate hlater).completions completion.recordId
    completion (lookup_of_mem (valid hstate).completionRecords hmem)
  exact ⟨found, lookup_mem hfound, hmoved⟩

theorem histories_well_accounted (history : History) : history.WellAccounted where
  owner := fun _ _ _ _ _ _ _ _ hstate hlater howns howns' =>
    owner_unique hstate howns hlater howns'
  counter := fun _ _ slot hstate hmem => (valid hstate).generation slot hmem
  generation := fun _ _ _ _ _ hstate hnext hslot => by
    obtain ⟨later, hlater, -, hcases⟩ := (step hstate hnext).generation_cases hslot
    exact ⟨later, hlater, hcases⟩
  appears := fun _ _ _ _ _ hstate hnext htask hnew =>
    (step hstate hnext).running_of_added htask hnew
  acquiredOnce := fun _ _ _ _ _ _ _ _ _ hstate hnext hacquires hstate' hnext' hacquires' =>
    Nat.le_antisymm (acquires_order hstate' hnext' hacquires' hstate hnext hacquires)
      (acquires_order hstate hnext hacquires hstate' hnext' hacquires')
  acquiredFrom := fun _ _ _ _ _ hstate hnext hacquires =>
    (step hstate hnext).lifecycle_of_acquires hacquires
  oneLease := fun _ _ _ _ _ _ _ _ _ hstate hlater hrecord hrecord' =>
    lease_unique hstate hlater hrecord hrecord'
  terminal := by
    intro i j state later task record hij hstate hlater hrecord hend
    obtain ⟨found, hfound, hmoved⟩ := (follows hij hstate hlater).tasks task record hrecord
    rw [← hmoved.terminal hend]
    exact hfound
  oneCompletion := by
    intro i j state later completion completion' hij hstate hlater hmem hmem' htask
    obtain ⟨found, hfound, hmoved⟩ := completion_later hij hstate hlater hmem
    have hsame : found.taskId = completion.taskId := by
      obtain rfl | rfl := hmoved <;> rfl
    rwa [eq_of_same_key (valid hlater).completionTasks hmem' hfound (htask.trans hsame.symm)]
  completionKept := by
    intro i j state later completion hij hstate hlater hmem
    obtain ⟨found, hfound, rfl | rfl⟩ := completion_later hij hstate hlater hmem
    · exact Or.inl hfound
    · exact Or.inr hfound
  oneWorker := by
    intro i j state later worker worker' task lease lease' phase phase' hstate hlater hmem hmem'
      hrunning hrunning'
    rcases (valid hstate).runningWorker worker hmem task lease phase hrunning with
      ⟨⟨held, key, hheld, hkey, hworker⟩, record, hrecord, hlease⟩
    rcases (valid hlater).runningWorker worker' hmem' task lease' phase' hrunning' with
      ⟨⟨held', key', hheld', hkey', hworker'⟩, record', hrecord', hlease'⟩
    cases lease_unique hstate hlater hrecord hrecord' hlease hlease'
    have hkeys := lease_worker hstate hlater hheld hheld'
    rw [hkey, hkey'] at hkeys
    have hid : worker.workerId = worker'.workerId := by
      rw [← hworker, ← hworker', show key = key' from hkeys]
    refine ⟨hid, ?_⟩
    rintro rfl
    cases hstate.symm.trans hlater
    exact eq_of_same_key (valid hstate).workers hmem hmem' hid
  stopped := fun _ _ _ _ hij hstate hlater => (follows hij hstate hlater).stopped

end History

end Fe2o3.ServiceModel
