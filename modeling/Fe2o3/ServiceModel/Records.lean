import Mathlib

/-!
**Records of the service model and their edges** (`fe2o3-service-model/src/state.rs`).

A service state is made of seven families of records: queue slots, tasks, leases,
workers, dependency epochs, phase regions and completion records.  Each family has
its own `canTransitionTo`, which looks at one record before and after a step.

Identifiers and counters are natural numbers, and a digest is the number its bytes
spell: the source only compares them, apart from the two `checked_add`s, whose
64-bit limit is kept.
-/

namespace Fe2o3.ServiceModel

abbrev SlotId := Nat
abbrev TaskId := Nat
abbrev LeaseId := Nat
abbrev WorkerId := Nat
abbrev WorkgroupId := Nat
abbrev RegionId := Nat
abbrev PhaseId := Nat
abbrev DependencyEpoch := Nat
abbrev AcquisitionEventId := Nat
abbrev CompletionRecordId := Nat
abbrev IdentityDigest := Nat

/-- The successor of a 64-bit counter (`checked_add(1)`). -/
def checkedSucc (counter : Nat) : Option Nat :=
  if counter + 1 < 2 ^ 64 then some (counter + 1) else none

theorem eq_of_checkedSucc {counter next : Nat} (h : checkedSucc counter = some next) :
    next = counter + 1 := by
  unfold checkedSucc at h
  split at h
  · exact (Option.some.inj h).symm
  · nomatch h

structure SlotKey where
  runId : IdentityDigest
  serviceEpoch : Nat
  queueIdentity : IdentityDigest
  slotId : SlotId
  logicalGeneration : Nat
deriving DecidableEq

inductive FailureDisposition where
  | deviceMayStillAccess
  | deviceQuiesced
deriving DecidableEq

/-! ### The life of the service -/

inductive LifecycleState where
  | starting
  | running
  | draining
  | stopping
  | stopped
  | failed (disposition : FailureDisposition)
deriving DecidableEq

namespace LifecycleState

def canTransitionTo (self next : LifecycleState) : Bool :=
  self == next ||
    match self, next with
    | starting, running
    | starting, failed _
    | running, draining
    | running, stopping
    | running, failed _
    | draining, stopping
    | draining, failed _
    | stopping, stopped
    | stopping, failed _
    | failed .deviceMayStillAccess, failed .deviceQuiesced => true
    | _, _ => false

theorem eq_of_stopped {next : LifecycleState} (h : stopped.canTransitionTo next = true) :
    next = stopped := by
  cases next <;> simp [canTransitionTo] at h ⊢

end LifecycleState

inductive TaskOutcome where
  | succeeded
  | cancelled
  | failed
deriving DecidableEq

inductive CancellationStage where
  | reserved
  | initialized
  | published
  | acquired
  | executing
  | completionPending
deriving DecidableEq

/-! ### Tasks -/

inductive TaskState where
  | accepted
  | reserved (slot : SlotKey)
  | initialized (slot : SlotKey)
  | published (slot : SlotKey)
  | acquired (slot : SlotKey) (leaseId : LeaseId)
  | executing (slot : SlotKey) (leaseId : LeaseId) (phaseId : PhaseId)
  | completionPending (slot : SlotKey) (leaseId : LeaseId) (outcome : TaskOutcome)
  | completed (slot : SlotKey) (recordId : CompletionRecordId)
  | cancelled (slot : SlotKey) (stage : CancellationStage) (recordId : CompletionRecordId)
  | failed (slot : Option SlotKey) (recordId : Option CompletionRecordId)
deriving DecidableEq

variable {lease : LeaseId}

namespace TaskState

def slotKey : TaskState → Option SlotKey
  | accepted => none
  | reserved slot | initialized slot | published slot | acquired slot _ | executing slot _ _
  | completionPending slot _ _ | completed slot _ | cancelled slot _ _ => some slot
  | failed slot _ => slot

def isTerminal : TaskState → Bool
  | completed .. | cancelled .. | failed .. => true
  | _ => false

def liveLease : TaskState → Option LeaseId
  | acquired _ leaseId | executing _ leaseId _ | completionPending _ leaseId _ => some leaseId
  | _ => none

def cancellationStage : TaskState → Option CancellationStage
  | reserved _ => some .reserved
  | initialized _ => some .initialized
  | published _ => some .published
  | acquired .. => some .acquired
  | executing .. => some .executing
  | completionPending .. => some .completionPending
  | _ => none

/-- The completion record a state names (`referenced`, and the record of the arms that
compare it). -/
def recordId : TaskState → Option CompletionRecordId
  | completed _ recordId | cancelled _ _ recordId => some recordId
  | failed _ recordId => recordId
  | _ => none

def canTransitionTo (self next : TaskState) : Bool :=
  self == next ||
    match self, next with
    | accepted, reserved _ => true
    | accepted, failed none _ => true
    | reserved left, initialized right => left == right
    | initialized left, published right => left == right
    | published left, acquired right _ => left == right
    | acquired left leftLease, executing right rightLease _ =>
      left == right && leftLease == rightLease
    | executing left leftLease _, completionPending right rightLease _ =>
      left == right && leftLease == rightLease
    | completionPending left _ .succeeded, completed right _ => left == right
    | current, cancelled slot stage _ =>
      current.slotKey == some slot && current.cancellationStage == some stage
    | current, failed slot _ => !current.isTerminal && slot == current.slotKey
    | _, _ => false

/-- The task has been acquired and has not failed or been cancelled since. -/
def Begun (state : TaskState) : Prop :=
  state.liveLease.isSome = true ∨ ∃ slot record, state = completed slot record

variable {before after : TaskState}

/-- What an accepted change of a task's state can be. -/
inductive Edge : TaskState → TaskState → Prop
  | same (state : TaskState) : Edge state state
  | reserve (slot : SlotKey) : Edge accepted (reserved slot)
  | prepare (slot : SlotKey) : Edge (reserved slot) (initialized slot)
  | publish (slot : SlotKey) : Edge (initialized slot) (published slot)
  | acquire (slot : SlotKey) (lease : LeaseId) : Edge (published slot) (acquired slot lease)
  | execute (slot : SlotKey) (lease : LeaseId) (phase : PhaseId) :
      Edge (acquired slot lease) (executing slot lease phase)
  | finish (slot : SlotKey) (lease : LeaseId) (phase : PhaseId) (outcome : TaskOutcome) :
      Edge (executing slot lease phase) (completionPending slot lease outcome)
  | complete (slot : SlotKey) (lease : LeaseId) (record : CompletionRecordId) :
      Edge (completionPending slot lease .succeeded) (completed slot record)
  | cancel {current : TaskState} {slot : SlotKey} (stage : CancellationStage)
      (record : CompletionRecordId) (hslot : current.slotKey = some slot)
      (hstage : current.cancellationStage = some stage) :
      Edge current (cancelled slot stage record)
  | fail {current : TaskState} (record : Option CompletionRecordId)
      (hlive : current.isTerminal = false) : Edge current (failed current.slotKey record)

theorem isTerminal_of_liveLease (h : before.liveLease = some lease) :
    before.isTerminal = false := by
  cases before <;> first | rfl | nomatch h

theorem edge_of_canTransitionTo (h : before.canTransitionTo after = true) : Edge before after := by
  unfold canTransitionTo at h
  obtain h | h := Bool.or_eq_true_iff.mp h
  · rw [beq_iff_eq] at h
    exact h ▸ .same before
  · split at h <;>
      simp only [Bool.and_eq_true, beq_iff_eq, Bool.not_eq_true', Bool.false_eq_true] at h
    · exact .reserve _
    · exact .fail _ rfl
    · exact h ▸ .prepare _
    · exact h ▸ .publish _
    · exact h ▸ .acquire _ _
    · exact h.1 ▸ h.2 ▸ .execute _ _ _
    · exact h.1 ▸ h.2 ▸ .finish _ _ _ _
    · exact h ▸ .complete _ _ _
    · exact .cancel _ _ h.1 h.2
    · exact h.2 ▸ .fail _ h.1

namespace Edge

theorem eq_of_terminal (h : Edge before after) (hend : before.isTerminal = true) :
    after = before := by
  cases h with
  | same => rfl
  | cancel stage record hslot hstage =>
    cases before <;> simp_all [isTerminal, cancellationStage]
  | fail record hlive => rw [hlive] at hend; nomatch hend
  | _ => nomatch hend

theorem slotKey_kept (h : Edge before after) {key : SlotKey} (hkey : before.slotKey = some key) :
    after.slotKey = some key := by
  cases h with
  | reserve => nomatch hkey
  | cancel stage record hslot hstage => rw [← hkey, hslot]; rfl
  | _ => exact hkey

theorem slotKey_of_terminal (h : Edge before after) (hend : after.isTerminal = true) :
    after.slotKey = before.slotKey := by
  cases h with
  | cancel stage record hslot hstage => rw [hslot]; rfl
  | reserve => nomatch hend
  | _ => rfl

theorem liveLease_kept (h : Edge before after) (hlease : before.liveLease = some lease) :
    after.liveLease = some lease ∨ after.isTerminal = true := by
  cases h with
  | same | execute | finish => exact Or.inl hlease
  | complete | cancel | fail => exact Or.inr rfl
  | _ => nomatch hlease

/-- The only edges into `acquired`. -/
theorem acquired_cases {slot : SlotKey} (h : Edge before (acquired slot lease)) :
    before = acquired slot lease ∨ before = published slot := by
  cases h with
  | same => exact Or.inl rfl
  | acquire => exact Or.inr rfl

/-- A task that has begun was acquired before, or just now. -/
theorem begun_cases (h : Edge before after) (hbegun : after.Begun) :
    before.Begun ∨ ∃ slot lease, before = published slot ∧ after = acquired slot lease := by
  cases h with
  | same => exact Or.inl hbegun
  | acquire slot lease => exact Or.inr ⟨slot, lease, rfl, rfl⟩
  | execute | finish | complete => exact Or.inl (Or.inl rfl)
  | _ =>
    obtain hlease | ⟨slot, record, hcompleted⟩ := hbegun
    · nomatch hlease
    · nomatch hcompleted

end Edge

end TaskState

/-! ### Queue slots -/

inductive QueueSlotState where
  | empty (generation : Nat)
  | reserved (generation : Nat) (taskId : TaskId)
  | initialized (generation : Nat) (taskId : TaskId)
  | published (generation : Nat) (taskId : TaskId)
  | acquired (generation : Nat) (taskId : TaskId) (leaseId : LeaseId)
  | executing (generation : Nat) (taskId : TaskId) (leaseId : LeaseId)
  | completed (generation : Nat) (taskId : TaskId) (outcome : TaskOutcome)
      (recordId : CompletionRecordId)
  | reclaimable (generation : Nat) (taskId : TaskId) (outcome : TaskOutcome)
      (recordId : CompletionRecordId)
deriving DecidableEq

variable {task : TaskId}

namespace QueueSlotState

def generation : QueueSlotState → Nat
  | empty generation | reserved generation _ | initialized generation _ | published generation _
  | acquired generation _ _ | executing generation _ _ | completed generation _ _ _
  | reclaimable generation _ _ _ => generation

def taskId : QueueSlotState → Option TaskId
  | empty _ => none
  | reserved _ taskId | initialized _ taskId | published _ taskId | acquired _ taskId _
  | executing _ taskId _ | completed _ taskId _ _ | reclaimable _ taskId _ _ => some taskId

def liveLease : QueueSlotState → Option LeaseId
  | acquired _ _ leaseId | executing _ _ leaseId => some leaseId
  | _ => none

def isEmpty : QueueSlotState → Bool
  | empty _ => true
  | _ => false

def isReserved : QueueSlotState → Bool
  | reserved .. => true
  | _ => false

def isPublished : QueueSlotState → Bool
  | published .. => true
  | _ => false

def isAcquired : QueueSlotState → Bool
  | acquired .. => true
  | _ => false

def isReclaimable : QueueSlotState → Bool
  | reclaimable .. => true
  | _ => false

/-- A task that has not ended is in the slot. -/
def isHeld : QueueSlotState → Bool
  | reserved .. | initialized .. | published .. | acquired .. | executing .. => true
  | _ => false

def canTransitionTo (self next : QueueSlotState) : Bool :=
  self == next ||
    match self, next with
    | empty left, reserved right _ => left == right
    | reserved left leftTask, initialized right rightTask
    | initialized left leftTask, published right rightTask =>
      left == right && leftTask == rightTask
    | published left leftTask, acquired right rightTask _ => left == right && leftTask == rightTask
    | acquired left leftTask leftLease, executing right rightTask rightLease =>
      left == right && leftTask == rightTask && leftLease == rightLease
    | executing left leftTask _, completed right rightTask _ _ =>
      left == right && leftTask == rightTask
    | completed left leftTask leftOutcome leftRecord,
        reclaimable right rightTask rightOutcome rightRecord =>
      left == right && leftTask == rightTask && leftOutcome == rightOutcome &&
        leftRecord == rightRecord
    | reclaimable left _ _ _, empty right => checkedSucc left == some right
    -- a task that ended early
    | current, completed generation taskId outcome _ =>
      current.generation == generation && current.taskId == some taskId &&
        outcome != .succeeded && current.isHeld
    | _, _ => false

variable {before after : QueueSlotState}

/-- A slot stays with its generation and its task, or is reclaimed. -/
theorem edge_cases (h : before.canTransitionTo after = true) :
    ((before.isReclaimable && after.isEmpty) = false ∧ after.generation = before.generation ∧
        ∀ task, before.taskId = some task → after.taskId = some task) ∨
      (before.isReclaimable = true ∧ after.isEmpty = true ∧
        after.generation = before.generation + 1) := by
  cases hreclaim : before.isReclaimable && after.isEmpty with
  | true =>
    rw [Bool.and_eq_true] at hreclaim
    refine Or.inr ⟨hreclaim.1, hreclaim.2, ?_⟩
    cases before <;> cases after <;> simp_all [isReclaimable, isEmpty, canTransitionTo, generation]
    exact eq_of_checkedSucc h
  | false =>
    refine Or.inl ⟨rfl, ?_⟩
    cases before <;> cases after <;>
      simp_all [isReclaimable, isEmpty, canTransitionTo, generation, taskId, isHeld]

theorem eq_of_empty (h : before.canTransitionTo after = true) (hbefore : before.isEmpty = true)
    (hafter : after.isEmpty = true) : after = before := by
  cases before <;> cases after <;> simp_all [isEmpty, canTransitionTo]

theorem reserved_cases {generation : Nat}
    (h : before.canTransitionTo (reserved generation task) = true) :
    before = reserved generation task ∨ before = empty generation := by
  cases before <;> simp_all [canTransitionTo]

theorem reclaimable_cases {generation : Nat} {outcome : TaskOutcome} {record : CompletionRecordId}
    (h : before.canTransitionTo (reclaimable generation task outcome record) = true) :
    before = reclaimable generation task outcome record ∨
      before = completed generation task outcome record := by
  cases before <;> simp_all [canTransitionTo]

/-- The task of the slot has ended. -/
def isEnded : QueueSlotState → Bool
  | completed .. | reclaimable .. => true
  | _ => false

/-- A slot holds its task in the phase the task is in. -/
def taskPhaseMatches : QueueSlotState → TaskState → Bool
  | reserved .., .reserved _
  | initialized .., .initialized _
  | published .., .published _
  | acquired .., .acquired ..
  | executing .., .executing ..
  | executing .., .completionPending ..
  | completed _ _ .succeeded _, .completed ..
  | completed _ _ .cancelled _, .cancelled ..
  | completed _ _ .failed _, .failed ..
  | reclaimable _ _ .succeeded _, .completed ..
  | reclaimable _ _ .cancelled _, .cancelled ..
  | reclaimable _ _ .failed _, .failed .. => true
  | _, _ => false

section Phases

variable {slot : QueueSlotState} {key : SlotKey}

theorem isReserved_of_matches (h : slot.taskPhaseMatches (.reserved key) = true) :
    slot.isReserved = true := by
  unfold taskPhaseMatches at h
  split at h <;> simp_all [isReserved]

theorem isPublished_of_matches (h : slot.taskPhaseMatches (.published key) = true) :
    slot.isPublished = true := by
  unfold taskPhaseMatches at h
  split at h <;> simp_all [isPublished]

theorem isAcquired_of_matches (h : slot.taskPhaseMatches (.acquired key lease) = true) :
    slot.isAcquired = true := by
  unfold taskPhaseMatches at h
  split at h <;> simp_all [isAcquired]

theorem isEnded_of_matches {task : TaskState} (h : slot.taskPhaseMatches task = true) :
    slot.isEnded = task.isTerminal := by
  unfold taskPhaseMatches at h
  split at h <;> simp_all [isEnded, TaskState.isTerminal]

end Phases

end QueueSlotState

/-! ### Leases -/

structure LeaseKey where
  slot : SlotKey
  taskId : TaskId
  acquisitionEvent : AcquisitionEventId
  workerId : WorkerId
deriving DecidableEq

inductive LeaseState where
  | issued (key : LeaseKey)
  | executing (key : LeaseKey)
  | consumed (key : LeaseKey) (outcome : TaskOutcome) (recordId : CompletionRecordId)
deriving DecidableEq

namespace LeaseState

def key : LeaseState → LeaseKey
  | issued key | executing key | consumed key _ _ => key

def isLive : LeaseState → Bool
  | consumed .. => false
  | _ => true

def isIssued : LeaseState → Bool
  | issued _ => true
  | _ => false

def canTransitionTo (self next : LeaseState) : Bool :=
  self == next ||
    match self, next with
    | issued left, executing right => left == right
    | issued left, consumed right _ _
    | executing left, consumed right _ _ => left == right
    | _, _ => false

variable {before after : LeaseState}

section

variable (h : before.canTransitionTo after = true)
include h

theorem key_kept : after.key = before.key := by
  cases before <;> cases after <;> simp_all [canTransitionTo, key]

theorem eq_of_not_live (hlive : before.isLive = false) : after = before := by
  cases before <;> cases after <;> simp_all [canTransitionTo, isLive]

theorem live_of_live (hlive : after.isLive = true) : before.isLive = true := by
  cases hbefore : before.isLive with
  | true => rfl
  | false => rw [← eq_of_not_live h hbefore, hlive] at hbefore; nomatch hbefore

end

end LeaseState

/-! ### Generations and the oldest live generation of a slot -/

structure GenerationCounter where
  logical : Nat
  encoded : Nat
deriving DecidableEq

inductive GenerationState where
  | current (counter : GenerationCounter)
  | exhausted (counter : GenerationCounter)
deriving DecidableEq

namespace GenerationState

def counter : GenerationState → GenerationCounter
  | current counter | exhausted counter => counter

def isExhausted : GenerationState → Bool
  | exhausted _ => true
  | current _ => false

def canTransitionTo (self next : GenerationState) (reclaim : Bool) (generationModulus : Nat) :
    Bool :=
  if generationModulus < 2 then false
  else if !reclaim then self == next
  else
    match self, next with
    | current left, current right =>
      checkedSucc left.logical == some right.logical &&
        right.encoded == right.logical % generationModulus
    | _, _ => false

end GenerationState

inductive AbaState where
  | «protected» (oldestLiveGeneration : Option Nat)
  | wrapRisk (oldestLiveGeneration : Nat)
deriving DecidableEq

namespace AbaState

def isAdmissible (self : AbaState) (logicalGeneration maximumLiveSpan : Nat) : Bool :=
  match self with
  | .«protected» none => true
  | .«protected» (some oldest) =>
    oldest ≤ logicalGeneration && logicalGeneration - oldest ≤ maximumLiveSpan
  | .wrapRisk _ => false

def canTransitionTo (self next : AbaState) (logicalGeneration maximumLiveSpan : Nat) : Bool :=
  next.isAdmissible logicalGeneration maximumLiveSpan &&
    match self, next with
    | .wrapRisk _, _ => false
    | .«protected» (some left), .«protected» (some right) => left ≤ right
    | .«protected» _, .«protected» _ => true
    | _, .wrapRisk _ => false

end AbaState

/-! ### Workers, dependencies and phase regions -/

inductive WorkerState where
  | starting
  | idle
  | acquiring
  | running (taskId : TaskId) (leaseId : LeaseId) (phaseId : PhaseId)
  | publishing (taskId : TaskId) (leaseId : LeaseId)
  | exiting
  | exited
  | failed
deriving DecidableEq

namespace WorkerState

def isRunning : WorkerState → Bool
  | running .. => true
  | _ => false

/-- The worker is done (`Exited | Failed`). -/
def isGone : WorkerState → Bool
  | exited | failed => true
  | _ => false

def canTransitionTo (self next : WorkerState) : Bool :=
  self == next ||
    match self, next with
    | starting, idle
    | idle, acquiring
    | acquiring, idle
    | acquiring, running ..
    | publishing .., acquiring
    | publishing .., idle
    | idle, exiting
    | acquiring, exiting
    | exiting, exited
    | starting, failed
    | idle, failed
    | acquiring, failed
    | running .., failed
    | publishing .., failed
    | exiting, failed => true
    | running leftTask leftLease _, publishing rightTask rightLease =>
      leftTask == rightTask && leftLease == rightLease
    | _, _ => false

theorem eq_of_gone {before after : WorkerState} (h : before.canTransitionTo after = true)
    (hgone : before.isGone = true) : after = before := by
  cases before <;> simp only [isGone, Bool.false_eq_true] at hgone <;>
    cases after <;> simp_all [canTransitionTo]

end WorkerState

inductive DependencyState where
  | pending
  | completionPublished (producerTask : TaskId)
  | visibleSatisfied (producerTask : TaskId)
  | failed (producerTask : TaskId)
deriving DecidableEq

namespace DependencyState

def isVisibleSatisfied : DependencyState → Bool
  | visibleSatisfied _ => true
  | _ => false

def canTransitionTo (self next : DependencyState) : Bool :=
  self == next ||
    match self, next with
    | pending, completionPublished _
    | pending, failed _ => true
    | completionPublished left, visibleSatisfied right => left == right
    | _, _ => false

theorem satisfied_kept {before after : DependencyState} (h : before.canTransitionTo after = true)
    {producer : TaskId} (hsatisfied : before = visibleSatisfied producer) :
    after = visibleSatisfied producer := by
  subst hsatisfied
  cases after <;> simp_all [canTransitionTo]

end DependencyState

inductive PhaseOwner where
  | worker (worker : WorkerId)
  | workgroup (workgroup : WorkgroupId)
deriving DecidableEq

inductive PhaseState where
  | inactive (epoch : Nat)
  | active (epoch : Nat) (phaseId : PhaseId) (owner : PhaseOwner)
  | completed (epoch : Nat) (phaseId : PhaseId) (owner : PhaseOwner)
  | retired (epoch : Nat)
deriving DecidableEq

namespace PhaseState

def canTransitionTo (self next : PhaseState) : Bool :=
  self == next ||
    match self, next with
    | inactive left, active right _ _ => left == right
    | active left leftPhase leftOwner, completed right rightPhase rightOwner =>
      left == right && leftPhase == rightPhase && leftOwner == rightOwner
    | completed left _ _, inactive right => checkedSucc left == some right
    | inactive left, retired right => left == right
    | _, _ => false

end PhaseState

/-! ### Records -/

structure QueueSlotRecord where
  slotId : SlotId
  generation : GenerationState
  aba : AbaState
  state : QueueSlotState
deriving DecidableEq

structure TaskRecord where
  taskId : TaskId
  canonicalTag : Nat
  payloadIdentity : IdentityDigest
  submissionSequence : Nat
  dependencies : List DependencyEpoch
  state : TaskState
deriving DecidableEq

structure LeaseRecord where
  leaseId : LeaseId
  state : LeaseState
deriving DecidableEq

structure WorkerRecord where
  workerId : WorkerId
  state : WorkerState
deriving DecidableEq

structure DependencyRecord where
  epoch : DependencyEpoch
  state : DependencyState
deriving DecidableEq

structure PhaseRegionRecord where
  regionId : RegionId
  state : PhaseState
deriving DecidableEq

structure CompletionRecord where
  recordId : CompletionRecordId
  taskId : TaskId
  slot : SlotKey
  outcome : TaskOutcome
  visible : Bool
deriving DecidableEq

structure FailureRecord where
  failureModelId : IdentityDigest
  failureEventId : IdentityDigest
  disposition : FailureDisposition
deriving DecidableEq

/-- Whether a slot is reclaimed between two observations decides which edge of its
generation counter is legal. -/
def generationTransitionValid (current next : QueueSlotRecord) (generationModulus : Nat) : Bool :=
  let reclaim := current.state.isReclaimable && next.state.isEmpty
  current.generation.canTransitionTo next.generation reclaim generationModulus

end Fe2o3.ServiceModel
