import Mathlib

/-!
**Ownership of the resources of asynchronous operations** (`lifecycle.rs`): the
lifecycle of one operation, the bounded quarantine, and what happens to the resources
when either of them is dropped.

A resource set is moved, never copied.  A function that panics where the source
has an `expect` returns `none`; `System.step_change` in the next module shows
that this never happens.
-/

namespace Fe2o3.Completion

def maxQuarantinedOperations : Nat := 4096

structure QuarantineTicket where
  get : UInt64
deriving DecidableEq

inductive LeakReason where
  | quarantineFull
  | quarantineAllocationFailed
  | quarantineTicketExhausted
deriving DecidableEq

inductive RetentionOutcome where
  | quarantined (ticket : QuarantineTicket)
  | leaked (reason : LeakReason)
deriving DecidableEq

inductive TerminalState where
  | completed
  | failed
  | streamQuiesced
  | quarantined
  | leaked
deriving DecidableEq

structure TransitionError where
  terminal : TerminalState
deriving DecidableEq

inductive CancelRequestError (C : Type) where
  | request (error : C)
  | terminal (state : TerminalState)

inductive ReclaimError where
  | notQuiescent
  | quarantined (ticket : QuarantineTicket)
  | leaked (reason : LeakReason)
  | alreadyReclaimed
deriving DecidableEq

structure QuarantineCapacityError where
  requested : Nat
  maximum : Nat

/-! ### Operation states -/

inductive OperationState (E : Type) where
  | submitted
  | cancelRequested
  | completed
  | failed (error : E)
  | streamQuiesced
  | quarantined (ticket : QuarantineTicket)
  | leaked (reason : LeakReason)

namespace OperationState

variable {E : Type}

def isQuiescent : OperationState E → Bool
  | completed | failed _ | streamQuiesced => true
  | _ => false

def terminalState : OperationState E → Option TerminalState
  | submitted | cancelRequested => none
  | completed => some .completed
  | failed _ => some .failed
  | streamQuiesced => some .streamQuiesced
  | quarantined _ => some .quarantined
  | leaked _ => some .leaked

end OperationState

/-! ### Retained resources and the bounded quarantine -/

/-- Resources that are forgotten, not destroyed, when their holder is dropped. -/
abbrev Retained (R : Type) := Option R

structure BoundedQuarantine (R : Type) where
  entries : List (Retained R)
  capacity : Nat
  nextTicket : UInt64

namespace BoundedQuarantine

variable {R : Type}

def new (capacity : Nat) : Except QuarantineCapacityError (BoundedQuarantine R) :=
  if capacity > maxQuarantinedOperations then
    .error { requested := capacity, maximum := maxQuarantinedOperations }
  else .ok { entries := [], capacity, nextTicket := 0 }

/-- Drains the quarantine; `none` when an entry has no resources to take. -/
def releaseAfterStreamQuiescence (quarantine : BoundedQuarantine R) :
    Option (List R × BoundedQuarantine R) :=
  (quarantine.entries.mapM fun retained => retained).map
    fun resources => (resources, { quarantine with entries := [] })

/-- `allocated` is the outcome of `try_reserve(1)`. -/
def reserveTicket (quarantine : BoundedQuarantine R) (allocated : Bool) :
    Except LeakReason (QuarantineTicket × BoundedQuarantine R) :=
  if quarantine.entries.length ≥ quarantine.capacity then .error .quarantineFull
  else if quarantine.nextTicket.toNat + 1 ≥ 2 ^ 64 then .error .quarantineTicketExhausted
  else if allocated = false then .error .quarantineAllocationFailed
  else .ok (⟨quarantine.nextTicket⟩,
    { quarantine with nextTicket := quarantine.nextTicket + 1 })

def insertReserved (quarantine : BoundedQuarantine R) (resources : R) : BoundedQuarantine R :=
  { quarantine with entries := quarantine.entries ++ [some resources] }

end BoundedQuarantine

/-! ### The lifecycle of one operation -/

structure OperationLifecycle (R E : Type) where
  resources : Retained R
  state : OperationState E

namespace OperationLifecycle

variable {R E C : Type}

def submitted (resources : R) : OperationLifecycle R E :=
  { resources := some resources, state := .submitted }

variable (lifecycle : OperationLifecycle R E)

/-- `request` is what the backend callback returns if it is called. -/
def requestCancelWith (request : Except C Unit) :
    Except (CancelRequestError C) Bool × OperationLifecycle R E :=
  match lifecycle.state.terminalState with
  | some terminal => (.error (.terminal terminal), lifecycle)
  | none =>
    match lifecycle.state with
    | .cancelRequested => (.ok false, lifecycle)
    | _ =>
      match request with
      | .error error => (.error (.request error), lifecycle)
      | .ok () => (.ok true, { lifecycle with state := .cancelRequested })

def transitionTo (next : OperationState E) : Except TransitionError Unit × OperationLifecycle R E :=
  match lifecycle.state.terminalState with
  | some terminal => (.error { terminal }, lifecycle)
  | none => (.ok (), { lifecycle with state := next })

def complete : Except TransitionError Unit × OperationLifecycle R E :=
  lifecycle.transitionTo .completed

def fail (error : E) : Except TransitionError Unit × OperationLifecycle R E :=
  lifecycle.transitionTo (.failed error)

def markStreamQuiesced : Except TransitionError Unit × OperationLifecycle R E :=
  lifecycle.transitionTo .streamQuiesced

/-- `none` when a lifecycle that is not terminal has no resources. -/
def abandonToQuarantine (quarantine : BoundedQuarantine R)
    (allocated : Bool) :
    Option (Except TransitionError RetentionOutcome × OperationLifecycle R E ×
      BoundedQuarantine R) :=
  match lifecycle.state.terminalState with
  | some terminal => some (.error { terminal }, lifecycle, quarantine)
  | none =>
    match quarantine.reserveTicket allocated with
    | .ok (ticket, quarantine) =>
      match lifecycle.resources with
      | some resources =>
        some (.ok (.quarantined ticket), { resources := none, state := .quarantined ticket },
          quarantine.insertReserved resources)
      | none => none
    | .error reason =>
      some (.ok (.leaked reason), { lifecycle with state := .leaked reason }, quarantine)

def reclaim : Except ReclaimError R × OperationLifecycle R E :=
  match lifecycle.state with
  | .submitted | .cancelRequested => (.error .notQuiescent, lifecycle)
  | .quarantined ticket => (.error (.quarantined ticket), lifecycle)
  | .leaked reason => (.error (.leaked reason), lifecycle)
  | .completed | .failed _ | .streamQuiesced =>
    match lifecycle.resources with
    | some resources => (.ok resources, { lifecycle with resources := none })
    | none => (.error .alreadyReclaimed, lifecycle)

/-- What dropping a lifecycle does to the resources it still has: destroyed after
    quiescence, forgotten otherwise. -/
inductive Dropped (R : Type) where
  | nothing
  | destroyed (resources : R)
  | forgotten (resources : R)

def drop : Dropped R :=
  match lifecycle.resources with
  | none => .nothing
  | some resources =>
    if lifecycle.state.isQuiescent then .destroyed resources else .forgotten resources

end OperationLifecycle

/-! ### Many operations sharing quarantines -/

/-- All lifecycles and quarantines ever created, by creation index, with what left
    them.  A resource set is named by the index of the lifecycle it was submitted
    with. -/
structure System (E : Type) where
  lifecycles : List (Option (OperationLifecycle Nat E)) := []
  quarantines : List (Option (BoundedQuarantine Nat)) := []
  /-- Handed to a caller by `reclaim`. -/
  reclaimed : List Nat := []
  /-- Handed to a caller by `release_after_stream_quiescence`. -/
  released : List Nat := []
  /-- Destroyed with a lifecycle that was dropped after quiescence. -/
  destroyed : List Nat := []
  /-- Forgotten with a lifecycle or a quarantine that was dropped. -/
  forgotten : List Nat := []
  /-- The quarantine, the operation and the ticket of every successful transfer. -/
  issued : List (Nat × Nat × QuarantineTicket) := []

/-- One step of a program that uses lifecycles and quarantines.  The outcomes that
    the code does not control are part of the step. -/
inductive SystemCall (E : Type) where
  | submit
  | newQuarantine (capacity : Nat)
  | requestCancelWith (operation : Nat) (request : Except Unit Unit)
  | complete (operation : Nat)
  | fail (operation : Nat) (error : E)
  | markStreamQuiesced (operation : Nat)
  | abandonToQuarantine (operation quarantine : Nat) (allocated : Bool)
  | reclaim (operation : Nat)
  | releaseAfterStreamQuiescence (quarantine : Nat)
  | dropLifecycle (operation : Nat)
  | dropQuarantine (quarantine : Nat)

namespace System

variable {E : Type}

variable (system : System E)

def lifecycle (operation : Nat) : Option (OperationLifecycle Nat E) :=
  (system.lifecycles[operation]?).join

def quarantine (index : Nat) : Option (BoundedQuarantine Nat) :=
  (system.quarantines[index]?).join

def setLifecycle (operation : Nat) (lifecycle : Option (OperationLifecycle Nat E)) : System E :=
  { system with lifecycles := system.lifecycles.set operation lifecycle }

def setQuarantine (index : Nat) (quarantine : Option (BoundedQuarantine Nat)) : System E :=
  { system with quarantines := system.quarantines.set index quarantine }

/-- Applies a method that changes one lifecycle.  A dropped lifecycle has no
    methods, so nothing happens. -/
def onLifecycle {A : Type} (system : System E) (operation : Nat)
    (method : OperationLifecycle Nat E → A × OperationLifecycle Nat E) : System E :=
  match system.lifecycle operation with
  | some lifecycle => system.setLifecycle operation (some (method lifecycle).2)
  | none => system

def abandon (operation index : Nat) (allocated : Bool) : Option (System E) :=
  match system.lifecycle operation, system.quarantine index with
  | some lifecycle, some quarantine =>
    (lifecycle.abandonToQuarantine quarantine allocated).map fun (result, lifecycle, quarantine) =>
      let system := (system.setLifecycle operation (some lifecycle)).setQuarantine index
        (some quarantine)
      match result with
      | .ok (.quarantined ticket) =>
        { system with issued := system.issued ++ [(index, operation, ticket)] }
      | _ => system
  | _, _ => some system

def reclaim (operation : Nat) : System E :=
  match system.lifecycle operation with
  | some lifecycle =>
    let system' := system.setLifecycle operation (some lifecycle.reclaim.2)
    match lifecycle.reclaim.1 with
    | .ok resources => { system' with reclaimed := system.reclaimed ++ [resources] }
    | .error _ => system'
  | none => system

def release (index : Nat) : Option (System E) :=
  match system.quarantine index with
  | some quarantine =>
    quarantine.releaseAfterStreamQuiescence.map fun (resources, quarantine) =>
      { system.setQuarantine index (some quarantine) with
        released := system.released ++ resources }
  | none => some system

def dropLifecycle (operation : Nat) : System E :=
  match system.lifecycle operation with
  | some lifecycle =>
    let system' := system.setLifecycle operation none
    match lifecycle.drop with
    | .nothing => system'
    | .destroyed resources => { system' with destroyed := system.destroyed ++ [resources] }
    | .forgotten resources => { system' with forgotten := system.forgotten ++ [resources] }
  | none => system

def dropQuarantine (index : Nat) : System E :=
  match system.quarantine index with
  | some quarantine =>
    { system.setQuarantine index none with
      forgotten := system.forgotten ++ quarantine.entries.filterMap (fun retained => retained) }
  | none => system

/-- One step; `none` when an `expect` of the source would panic. -/
def step : SystemCall E → Option (System E)
  | .submit => some { system with
      lifecycles := system.lifecycles ++ [some (.submitted system.lifecycles.length)] }
  | .newQuarantine capacity =>
    match BoundedQuarantine.new capacity with
    | .ok quarantine => some { system with quarantines := system.quarantines ++ [some quarantine] }
    | .error _ => some system
  | .requestCancelWith operation request =>
    some (system.onLifecycle operation (·.requestCancelWith request))
  | .complete operation => some (system.onLifecycle operation (·.complete))
  | .fail operation error => some (system.onLifecycle operation (·.fail error))
  | .markStreamQuiesced operation => some (system.onLifecycle operation (·.markStreamQuiesced))
  | .abandonToQuarantine operation index allocated => system.abandon operation index allocated
  | .reclaim operation => some (system.reclaim operation)
  | .releaseAfterStreamQuiescence index => system.release index
  | .dropLifecycle operation => some (system.dropLifecycle operation)
  | .dropQuarantine index => some (system.dropQuarantine index)

/-- The system after a sequence of steps from the empty one. -/
def run (calls : List (SystemCall E)) : Option (System E) :=
  calls.foldlM step {}

end System

end Fe2o3.Completion
