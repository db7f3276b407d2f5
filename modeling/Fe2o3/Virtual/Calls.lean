import Fe2o3.Virtual.State

/-!
# Runs of the virtual runtime

The public calls with their arguments, what they return, and the states that sequences
of calls lead to.
-/

namespace Fe2o3.Virtual

open Lib RuntimeModel Command

/-- A public call; the environment is what the call meets outside. -/
inductive Call where
  | allocateBuffer (environment : Environment) (byteLen : Nat) (access : VirtualBufferAccess)
  | copyFromHost (handle : VirtualBufferHandle) (offset : Nat) (source : List UInt8)
  | copyFromHostWithInitialization (handle : VirtualBufferHandle) (offset : Nat)
      (source : List UInt8) (initialized : List Bool)
  | copyToHost (handle : VirtualBufferHandle) (offset length : Nat)
  | bufferSnapshot (handle : VirtualBufferHandle)
  | releaseBuffer (handle : VirtualBufferHandle)
  | registerModule (module : AdmittedModule)
  | releaseModule (handle : VirtualModuleHandle)
  | createQueue (capacity : Nat)
  | submit (environment : Environment) (queue : VirtualQueueHandle) (module : VirtualModuleHandle)
      (request : VirtualDispatchRequest)
  | submitWithDynamicWorkgroupMemory (environment : Environment) (queue : VirtualQueueHandle)
      (module : VirtualModuleHandle) (request : VirtualDispatchRequest)
      (dynamic : DynamicWorkgroupMemoryRequest)
  | releaseQueue (handle : VirtualQueueHandle)
  | runNext (environment : Environment)
  | completionState (completion : VirtualCompletionHandle)
  | completionSummary (completion : VirtualCompletionHandle)
  | completionAmbiguity (completion : VirtualCompletionHandle)
  | resetGeneration (environment : Environment) (replacementRuntimeIdentity : IdentityDigest)
  | cancelCompletion (completion : VirtualCompletionHandle)
  | markCompletionAmbiguous (environment : Environment) (completion : VirtualCompletionHandle)
  | observeCompletionTimeout (environment : Environment) (completion : VirtualCompletionHandle)
  | quiesceQueue (queue : VirtualQueueHandle)
  | settleAmbiguousCompletion (completion : VirtualCompletionHandle)

/-- What a call returns. -/
inductive Reply where
  | unit
  | buffer (handle : VirtualBufferHandle)
  | module (handle : VirtualModuleHandle)
  | queue (handle : VirtualQueueHandle)
  | completion (handle : VirtualCompletionHandle)
  | bytes (bytes : List UInt8)
  | snapshot (bytes : List UInt8) (initialized : List Bool)
  | progress (progress : VirtualRunProgress)
  | state (state : VirtualCompletionState)
  | summary (summary : Option VirtualSimulationSummary)
  | ambiguity (ambiguity : Option VirtualCompletionAmbiguity)
  | reset (summary : VirtualResetSummary)
  deriving DecidableEq

namespace VirtualRuntime

def perform : Call → Action Reply
  | .allocateBuffer environment byteLen access =>
    Reply.buffer <$> allocateBuffer environment byteLen access
  | .copyFromHost handle offset source =>
    (fun _ => Reply.unit) <$> copyFromHost handle offset source
  | .copyFromHostWithInitialization handle offset source initialized =>
    (fun _ => Reply.unit) <$> copyFromHostWithInitialization handle offset source initialized
  | .copyToHost handle offset length => Reply.bytes <$> copyToHost handle offset length
  | .bufferSnapshot handle =>
    (fun snapshot => Reply.snapshot snapshot.1 snapshot.2) <$> bufferSnapshot handle
  | .releaseBuffer handle => (fun _ => Reply.unit) <$> releaseBuffer handle
  | .registerModule module => Reply.module <$> registerModule module
  | .releaseModule handle => (fun _ => Reply.unit) <$> releaseModule handle
  | .createQueue capacity => Reply.queue <$> createQueue capacity
  | .submit environment queue module request =>
    Reply.completion <$> submit environment queue module request
  | .submitWithDynamicWorkgroupMemory environment queue module request dynamic =>
    Reply.completion <$> submitWithDynamicWorkgroupMemory environment queue module request dynamic
  | .releaseQueue handle => (fun _ => Reply.unit) <$> releaseQueue handle
  | .runNext environment => Reply.progress <$> runNext environment
  | .completionState completion => Reply.state <$> completionState completion
  | .completionSummary completion => Reply.summary <$> completionSummary completion
  | .completionAmbiguity completion => Reply.ambiguity <$> completionAmbiguity completion
  | .resetGeneration environment identity => Reply.reset <$> resetGeneration environment identity
  | .cancelCompletion completion => (fun _ => Reply.unit) <$> cancelCompletion completion
  | .markCompletionAmbiguous environment completion =>
    (fun _ => Reply.unit) <$> markCompletionAmbiguous environment completion
  | .observeCompletionTimeout environment completion =>
    (fun _ => Reply.unit) <$> observeCompletionTimeout environment completion
  | .quiesceQueue queue => (fun _ => Reply.unit) <$> quiesceQueue queue
  | .settleAmbiguousCompletion completion =>
    (fun _ => Reply.unit) <$> settleAmbiguousCompletion completion

/-- The state after a sequence of calls, accepted or rejected, if none panicked. -/
def run (runtime : VirtualRuntime) : List Call → Option VirtualRuntime
  | [] => some runtime
  | call :: calls => (perform call runtime).state?.bind fun next => next.run calls

/-- The states that calls lead to from a new runtime. -/
inductive Reachable : VirtualRuntime → Prop
  | new {config : VirtualRuntimeConfig} {runtime : VirtualRuntime} :
      new config = .ok runtime → Reachable runtime
  | call {runtime next : VirtualRuntime} {call : Call} :
      Reachable runtime → (perform call runtime).state? = some next → Reachable next

theorem Reachable.run {runtime next : VirtualRuntime} {calls : List Call}
    (h : Reachable runtime) (hrun : runtime.run calls = some next) : Reachable next := by
  induction calls generalizing runtime with
  | nil =>
    cases hrun
    exact h
  | cons call calls ih =>
    obtain ⟨middle, hcall, hrest⟩ := Option.bind_eq_some_iff.mp hrun
    exact ih (.call h hcall) hrest

end VirtualRuntime

end Fe2o3.Virtual
