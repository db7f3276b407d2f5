import Fe2o3.Virtual.Progress

/-!
# A reset is always possible

The transitions of a reset are those of the public calls that would end everything one
by one: abort what is prepared, bring each queue to rest, settle what is ambiguous on it
and release it, then release modules and buffers.  Coherence is followed through these
changes, so that the model accepts each of them; at the end nothing is left on the VM
and the device.
-/

namespace Fe2o3.Virtual

open Lib KernelIr RuntimeModel RuntimeState Command
open List hiding lookup lookup_cons

/-- The model accepts the transitions for one record after the other, when each leaves the
    invariant and takes its record out of the filter. -/
theorem accepts_each {ρ : Type} (p : ρ → Bool) (transitions : ρ → List RuntimeTransition)
    (I : RuntimeState → List ρ → Prop)
    (hstep : ∀ model table i record, I model table → table[i]? = some record → p record = true →
      ∃ next f, Accepts model (transitions record) next ∧ p (f record) = false ∧
        I next (table.modify i f)) (todo : List ρ) :
    ∀ {model : RuntimeState} {table : List ρ}, I model table → table.filter p = todo →
      ∃ next later, Accepts model (todo.flatMap transitions) next ∧ I next later ∧
        later.filter p = [] := by
  induction todo with
  | nil => exact fun {model table} h hnone => ⟨model, table, accepts_nil.mpr rfl, h, hnone⟩
  | cons record todo ih =>
    intro model table h htodo
    obtain ⟨i, hrecord, hfits, hmodify⟩ := filter_eq_cons htodo
    obtain ⟨middle, f, hfirst, hdone, hmiddle⟩ := hstep model table i record h hrecord hfits
    obtain ⟨next, later, hrest, hnext, hnone⟩ := ih hmiddle (hmodify f hdone)
    refine ⟨next, later, ?_, hnext, hnone⟩
    exact accepts_append.mpr ⟨middle, hfirst, hrest⟩

/-- The dispatches that a reset aborts. -/
abbrev preparedIn (dispatches : List DispatchRecordLocal) : List DispatchRecordLocal :=
  dispatches.filter fun dispatch => dispatch.state == .prepared

/-- The dispatches of a queue that a reset settles. -/
abbrev ambiguousIn (handle : VirtualQueueHandle) (dispatches : List DispatchRecordLocal) :
    List DispatchRecordLocal :=
  dispatches.filter fun dispatch => dispatch.queue == handle && dispatch.state == .ambiguous

theorem released_of_filter_nil {ρ : Type} {released : ρ → Bool} {table : List ρ}
    (h : table.filter (fun record => !released record) = []) :
    ∀ record ∈ table, released record = true := by
  simpa using h

variable {queue : QueueRecord}

section

variable {config : VirtualRuntimeConfig} {model next : RuntimeState} {vm : VmKey}
  {nextOrdinal nextAllocationId total : Nat} {buffers : List Outline}
  {modules : List ModuleRecord} {queues : List QueueRecord}
  {dispatches : List DispatchRecordLocal} {dispatch : DispatchRecordLocal}

namespace Coherent

variable (h : Coherent config model vm nextOrdinal nextAllocationId total buffers modules queues
  dispatches)
include h

/-! ### Dispatches -/

/-- Dispatches that fit a filter are moved to a state outside of it, one after the other;
    filters that see neither keep what they select. -/
theorem retireAll (p : DispatchRecordLocal → Bool) (state : VirtualCompletionState)
    (transition : CompletionKey → RuntimeTransition) (hstate : state ≠ .prepared)
    (hp : ∀ dispatch : DispatchRecordLocal, p { dispatch with state := state } = false)
    (haccepted : ∀ model dispatches dispatch, Coherent config model vm nextOrdinal nextAllocationId
      total buffers modules queues dispatches → dispatch ∈ dispatches → p dispatch = true →
      ∃ next, Accepts model [transition dispatch.modelCompletion] next ∧
        Moves model dispatch.modelCompletion state.modelState next) :
    ∃ next later, Accepts model
        ((dispatches.filter p).map fun dispatch => transition dispatch.modelCompletion) next ∧
      Coherent config next vm nextOrdinal nextAllocationId total buffers modules queues later ∧
      later.filter p = [] ∧
      ∀ q : DispatchRecordLocal → Bool, (∀ dispatch, p dispatch = true → q dispatch = false) →
        (∀ dispatch : DispatchRecordLocal, q { dispatch with state := state } = false) →
        later.filter q = dispatches.filter q := by
  obtain ⟨last, later, hlast, ⟨hcoherent, hothers⟩, hnone⟩ := accepts_each p
    (fun dispatch : DispatchRecordLocal => [transition dispatch.modelCompletion])
    (fun model table => Coherent config model vm nextOrdinal nextAllocationId total buffers
      modules queues table ∧ ∀ q : DispatchRecordLocal → Bool,
        (∀ dispatch, p dispatch = true → q dispatch = false) →
        (∀ dispatch : DispatchRecordLocal, q { dispatch with state := state } = false) →
        table.filter q = dispatches.filter q)
    (fun model table i dispatch hI hdispatch hfits => by
      obtain ⟨hcoherent, hothers⟩ := hI
      obtain ⟨next, hnext, hmoves⟩ :=
        haccepted model table dispatch hcoherent (mem_of_getElem? hdispatch) hfits
      refine ⟨next, fun dispatch => { dispatch with state := state }, hnext, hp dispatch,
        hcoherent.moveDispatch hdispatch (fun _ => rfl) hstate hmoves, fun q hq hq' => ?_⟩
      rw [filter_modify hdispatch (hq dispatch hfits) (hq' dispatch)]
      exact hothers q hq hq')
    (dispatches.filter p) ⟨h, fun _ _ _ => rfl⟩ rfl
  rw [← map_eq_flatMap] at hlast
  exact ⟨last, later, hlast, hcoherent, hnone, hothers⟩

/-- All prepared dispatches can be aborted; the ambiguous ones stay. -/
theorem abortAll :
    ∃ next later, Accepts model ((preparedIn dispatches).map fun dispatch =>
        .abortPrepared dispatch.modelCompletion) next ∧
      Coherent config next vm nextOrdinal nextAllocationId total buffers modules queues later ∧
      preparedIn later = [] ∧
      ∀ handle, ambiguousIn handle later = ambiguousIn handle dispatches := by
  obtain ⟨next, later, hnext, hcoherent, hnone, hothers⟩ := h.retireAll
    (fun dispatch => dispatch.state == .prepared) .cancelled (fun key => .abortPrepared key)
    (by decide) (fun _ => rfl) (fun model dispatches dispatch hcoherent hmem hprepared => by
      obtain ⟨next, hnext⟩ := hcoherent.accepts_abort hmem (eq_of_beq hprepared)
      exact ⟨next, hnext, Virtual.accepts_abort hcoherent.valid hnext⟩)
  refine ⟨next, later, hnext, hcoherent, hnone, fun handle => hothers _ (fun dispatch hfits => ?_)
    fun dispatch => ?_⟩
  · rw [eq_of_beq hfits]
    exact Bool.and_false _
  · exact Bool.and_false _

/-- All ambiguous dispatches of a quiescent queue can be settled. -/
theorem settleAll (hqueue : queue ∈ queues) (hquiescent : queue.quiescent = true)
    (hidle : preparedIn dispatches = []) :
    ∃ next later, Accepts model ((ambiguousIn queue.handle dispatches).map
        fun dispatch => .settleAfterQuiescence dispatch.modelCompletion) next ∧
      Coherent config next vm nextOrdinal nextAllocationId total buffers modules queues later ∧
      preparedIn later = [] ∧ ambiguousIn queue.handle later = [] ∧
      ∀ handle, handle ≠ queue.handle →
        ambiguousIn handle later = ambiguousIn handle dispatches := by
  obtain ⟨next, later, hnext, hcoherent, hnone, hothers⟩ := h.retireAll
    (fun dispatch => dispatch.queue == queue.handle && dispatch.state == .ambiguous)
    .failedQuiescent (fun key => .settleAfterQuiescence key) (by decide)
    (fun _ => Bool.and_false _) (fun model dispatches dispatch hcoherent hmem hfits => by
      obtain ⟨hsame, hambiguous⟩ := Bool.and_eq_true_iff.mp hfits
      obtain ⟨next, hnext⟩ := hcoherent.accepts_settle hmem (eq_of_beq hambiguous) hqueue
        (eq_of_beq hsame).symm hquiescent
      exact ⟨next, hnext, Virtual.accepts_settle hcoherent.valid hnext⟩)
  refine ⟨next, later, hnext, hcoherent, ?_, hnone, fun handle hne =>
    hothers _ (fun dispatch hfits => ?_) fun dispatch => Bool.and_false _⟩
  · rw [← hidle]
    refine hothers _ (fun dispatch hfits => ?_) fun _ => rfl
    rw [eq_of_beq (Bool.and_eq_true_iff.mp hfits).2]
    rfl
  · have hsame := eq_of_beq (Bool.and_eq_true_iff.mp hfits).1
    rw [hsame, beq_eq_false_iff_ne.mpr (Ne.symm hne)]
    rfl

omit h in
theorem ne_prepared (h : preparedIn dispatches = []) :
    ∀ dispatch ∈ dispatches, dispatch.state ≠ .prepared := by
  simpa using h

/-! ### Queues -/

/-- What a reset does with one queue. -/
theorem resetQueue {i : Nat} (hqueue : queues[i]? = some queue) (hlive : queue.released = false)
    (hidle : preparedIn dispatches = []) :
    ∃ next later, ∃ f : QueueRecord → QueueRecord,
      Accepts model
        ((if queue.quiescent then [] else
            [.beginQueueFailure queue.queue, .establishQueueQuiescence queue.queue]) ++
          (ambiguousIn queue.handle dispatches).map
            (fun dispatch => .settleAfterQuiescence dispatch.modelCompletion) ++
          [.releaseQueue queue.queue, .unmap queue.mapping,
            .releaseAllocation queue.allocation]) next ∧
      (f queue).released = true ∧
      Coherent config next vm nextOrdinal nextAllocationId total buffers modules
        (queues.modify i f) later ∧
      preparedIn later = [] ∧
      ∀ handle, handle ≠ queue.handle →
        ambiguousIn handle later = ambiguousIn handle dispatches := by
  have hnever : ∀ dispatch ∈ dispatches, dispatch.queue = queue.handle →
      dispatch.state ≠ .prepared :=
    fun dispatch hmem _ => ne_prepared hidle dispatch hmem
  -- First the queue is brought to rest, if it was not.
  obtain ⟨rested, g, hrested, hg, hcoherent⟩ : ∃ rested, ∃ g : QueueRecord → QueueRecord,
      Accepts model (if queue.quiescent then [] else
        [.beginQueueFailure queue.queue, .establishQueueQuiescence queue.queue]) rested ∧
      g queue = { queue with quiescent := true } ∧
      Coherent config rested vm nextOrdinal nextAllocationId total buffers modules
        (queues.modify i g) dispatches := by
    cases hquiescent : queue.quiescent with
    | true =>
      refine ⟨model, id, accepts_nil.mpr rfl, ?_, ?_⟩
      · cases queue
        cases hquiescent
        rfl
      · rw [modify_id]
        exact h
    | false =>
      obtain ⟨rested, hrested⟩ :=
        h.accepts_quiesceQueue (mem_of_getElem? hqueue) hlive hquiescent
      exact ⟨_, _, hrested, rfl, h.quiesceQueue hqueue hlive hnever (hrested.valid h.valid)
        (Virtual.accepts_quiesceQueue hrested)⟩
  have hmodified : (queues.modify i g)[i]? = some { queue with quiescent := true } := by
    rw [getElem?_modify_self hqueue, hg]
  have hmem := mem_of_getElem? hmodified
  -- Then nothing is left unresolved on it.
  obtain ⟨settled, later, hsettled, hcoherent, hprepared, hambiguous, hothers⟩ :=
    hcoherent.settleAll hmem rfl hidle
  obtain ⟨next, hnext⟩ := hcoherent.accepts_releaseQueue hmem hlive fun dispatch hdispatch
      hunresolved hsame => by
    cases hstate : dispatch.state with
    | prepared => exact ne_prepared hprepared dispatch hdispatch hstate
    | ambiguous =>
      refine filter_eq_nil_iff.mp hambiguous dispatch hdispatch ?_
      exact Bool.and_eq_true_iff.mpr ⟨beq_iff_eq.mpr hsame, beq_iff_eq.mpr hstate⟩
    | cancelled | completed | abortedDependency | abortedSimulation | failedQuiescent =>
      rw [hstate] at hunresolved
      nomatch hunresolved
  have hreleased := hcoherent.releaseQueue hmodified
    (fun dispatch hdispatch _ => ne_prepared hprepared dispatch hdispatch)
    (hnext.valid hcoherent.valid) (Virtual.accepts_releaseQueue hnext).2
  rw [modify_modify_eq] at hreleased
  exact ⟨_, later, _, accepts_append.mpr ⟨settled, accepts_append.mpr ⟨rested, hrested, hsettled⟩,
    hnext⟩, rfl, hreleased, hprepared, hothers⟩

/-- The queues are released one after the other, each with what is ambiguous on it. -/
theorem releaseQueues (runtime : VirtualRuntime)
    (hidle : preparedIn dispatches = []) (hambiguous : ∀ queue ∈ queues,
      ambiguousIn queue.handle dispatches = runtime.ambiguousOn queue) :
    ∃ next later queues', Accepts model
        ((queues.filter fun queue => !queue.released).flatMap runtime.resetQueue) next ∧
      Coherent config next vm nextOrdinal nextAllocationId total buffers modules queues' later ∧
      queues'.filter (fun queue => !queue.released) = [] := by
  obtain ⟨next, queues', hnext, ⟨later, hcoherent, -, -⟩, hnone⟩ := accepts_each
    (fun queue : QueueRecord => !queue.released) runtime.resetQueue
    (fun model table => ∃ dispatches, Coherent config model vm nextOrdinal nextAllocationId total
      buffers modules table dispatches ∧
      preparedIn dispatches = [] ∧
      ∀ queue ∈ table, queue.released = false → ambiguousIn queue.handle dispatches =
          runtime.ambiguousOn queue)
    (fun model table i queue hI hqueue hlive => by
      obtain ⟨dispatches, hcoherent, hidle, hambiguous⟩ := hI
      have hreleased : queue.released = false := by simpa using hlive
      obtain ⟨next, later, f, hnext, hf, hlater, hprepared, hothers⟩ :=
        hcoherent.resetQueue hqueue hreleased hidle
      rw [hambiguous queue (mem_of_getElem? hqueue) hreleased] at hnext
      refine ⟨next, f, hnext, by rw [hf]; rfl, later, hlater, hprepared,
        fun other hother hotherLive => ?_⟩
      obtain ⟨hother, hne⟩ | rfl :=
        mem_modify hcoherent.handles.queues.distinct hqueue hother
      · rw [hothers other.handle hne]
        exact hambiguous other hother hotherLive
      · rw [hf] at hotherLive
        nomatch hotherLive)
    _ ⟨dispatches, h, hidle, fun queue hmem _ => hambiguous queue hmem⟩ rfl
  exact ⟨next, later, queues', hnext, hcoherent, hnone⟩

/-! ### Modules and buffers -/

/-- No dispatch holds anything. -/
def Resolved (dispatches : List DispatchRecordLocal) : Prop :=
  ∀ dispatch ∈ dispatches, dispatch.state.unresolved = false

/-- When all queues are released and nothing is prepared, every dispatch is resolved. -/
theorem resolved_of_released (hqueues : queues.filter (fun queue => !queue.released) = []) :
    Resolved dispatches := by
  intro dispatch hmem
  cases hunresolved : dispatch.state.unresolved with
  | false => rfl
  | true =>
    obtain ⟨queue, hqueue, -, -, hlive⟩ := h.queue_live hmem hunresolved
    nomatch hlive.symm.trans (released_of_filter_nil hqueues queue hqueue)

theorem releaseModules (hresolved : Resolved dispatches) :
    ∃ next later, Accepts model ((modules.filter fun module => !module.released).flatMap
        VirtualRuntime.resetModule) next ∧
      Coherent config next vm nextOrdinal nextAllocationId total buffers later queues dispatches ∧
      later.filter (fun module => !module.released) = [] := by
  refine accepts_each (fun module : ModuleRecord => !module.released) VirtualRuntime.resetModule
    (fun model table => Coherent config model vm nextOrdinal nextAllocationId total buffers table
      queues dispatches) (fun model table i module hcoherent hmodule hlive => ?_) _ h rfl
  have hreleased : module.released = false := by simpa using hlive
  obtain ⟨next, hnext⟩ := hcoherent.accepts_releaseModule (mem_of_getElem? hmodule) hreleased
    fun dispatch hmem hunresolved => by
      rw [hresolved dispatch hmem] at hunresolved
      nomatch hunresolved
  exact ⟨_, _, hnext, rfl, hcoherent.releaseModule hmodule (hnext.valid hcoherent.valid)
    (Virtual.accepts_releaseModule hnext)⟩

/-- What a reset does with one buffer. -/
def resetOutline (buffer : Outline) : List RuntimeTransition :=
  [.unmap buffer.mapping, .releaseAllocation buffer.allocation]

theorem releaseBuffers (hresolved : Resolved dispatches) :
    ∃ next later total', Accepts model
        ((buffers.filter fun buffer => !buffer.released).flatMap resetOutline) next ∧
      Coherent config next vm nextOrdinal nextAllocationId total' later modules queues dispatches ∧
      later.filter (fun buffer => !buffer.released) = [] := by
  obtain ⟨next, later, hnext, ⟨total', hcoherent⟩, hnone⟩ := accepts_each
    (fun buffer : Outline => !buffer.released) resetOutline
    (fun model table => ∃ total, Coherent config model vm nextOrdinal nextAllocationId total table
      modules queues dispatches) (fun model table i buffer hI hbuffer hlive => by
      obtain ⟨total, hcoherent⟩ := hI
      have hreleased : buffer.released = false := by simpa using hlive
      obtain ⟨next, hnext⟩ := hcoherent.accepts_releaseBuffer hbuffer hreleased
        fun dispatch hmem hunresolved => by
          rw [hresolved dispatch hmem] at hunresolved
          nomatch hunresolved
      exact ⟨_, _, hnext, rfl, _, hcoherent.releaseBuffer hbuffer (hnext.valid hcoherent.valid)
        (Virtual.accepts_releaseBuffer hnext)⟩) _ ⟨total, h⟩ rfl
  exact ⟨next, later, total', hnext, hcoherent, hnone⟩

/-! ### VM and device -/

/-- When nothing live is left, the VM and the device go. -/
theorem accepts_retirement (hbuffers : buffers.filter (fun buffer => !buffer.released) = [])
    (hmodules : modules.filter (fun module => !module.released) = [])
    (hqueues : queues.filter (fun queue => !queue.released) = []) :
    ∃ next, Accepts model [.beginVmFailure vm, .establishVmQuiescence vm, .releaseVm vm,
      .beginDeviceFailure vm.device, .establishDeviceQuiescence vm.device,
      .releaseDevice vm.device] next := by
  have hbuffersDone := released_of_filter_nil hbuffers
  have hmodulesDone := released_of_filter_nil hmodules
  have hqueuesDone := released_of_filter_nil hqueues
  have hholdings : ∀ holding ∈ holdingsOf buffers modules queues, holding.state = .released := by
    intro holding hholding
    simp only [holdingsOf, mem_append, mem_map] at hholding
    obtain (⟨buffer, hmem, rfl⟩ | ⟨module, hmem, rfl⟩) | ⟨queue, hmem, rfl⟩ := hholding
    · simp [Outline.holding, resourceState, hbuffersDone buffer hmem]
    · simp [ModuleRecord.holding, resourceState, hmodulesDone module hmem]
    · simp [QueueRecord.holding, resourceState, hqueuesDone queue hmem]
  have hallocations : ∀ record ∈ model.allocations, record.state = .released := by
    intro record hrecord
    obtain ⟨holding, hholding, -, hstate⟩ :=
      h.holdings.allocated.fits h.valid.allocationKeys hrecord
    rw [hstate]
    exact hholdings holding hholding
  have hcode : ∀ record ∈ model.loadedCode, record.state = .released := by
    intro record hrecord
    obtain ⟨module, hmodule, -, hfits⟩ := h.modulesFit.fits h.valid.codeKeys hrecord
    simp [hfits.state, resourceState, hmodulesDone module hmodule]
  have hqueueStates : ∀ record ∈ model.queues, record.state = .released := by
    intro record hrecord
    obtain ⟨queue, hqueue, -, hfits⟩ := h.queuesFit.fits h.valid.queueKeys hrecord
    simp [hfits.state, QueueRecord.modelState, hqueuesDone queue hqueue]
  -- The tables of VMs and devices have one record each, whose state is all that changes.
  refine ⟨_, accepts_cons.mpr ⟨_, moveVm_eq_ok.mpr ⟨?_, rfl⟩,
    accepts_cons.mpr ⟨_, moveVm_eq_ok.mpr ⟨?_, rfl⟩,
    accepts_cons.mpr ⟨_, releaseVm_eq_ok.mpr ⟨?_,
      fun record hrecord _ => hallocations record hrecord,
      fun record hrecord _ => hcode record hrecord,
      fun record hrecord _ => hqueueStates record hrecord, rfl⟩,
    accepts_cons.mpr ⟨_, moveDevice_eq_ok.mpr ⟨?_, rfl⟩,
    accepts_cons.mpr ⟨_, moveDevice_eq_ok.mpr ⟨?_, rfl⟩,
    accepts_one.mpr (releaseDevice_eq_ok.mpr ⟨?_, ?_, rfl⟩)⟩⟩⟩⟩⟩⟩
  all_goals simp [setVm, setDevice, amend, lookup, h.vms, h.devices]

end Coherent

end

namespace VirtualRuntime

variable {runtime : VirtualRuntime}

/-! ### The whole list -/

/-- The model accepts the transitions of a reset from start to end. -/
theorem Inv.accepts_reset (h : runtime.Inv) :
    ∃ next, Accepts runtime.model runtime.resetTransitions next := by
  obtain ⟨aborted, dispatches, haborted, hcoherent, hidle, hambiguous⟩ := h.coherent.abortAll
  obtain ⟨unqueued, resolved, queues, hunqueued, hcoherent, hqueues⟩ :=
    hcoherent.releaseQueues runtime hidle fun queue _ => hambiguous queue.handle
  have hresolved := hcoherent.resolved_of_released hqueues
  obtain ⟨unloaded, modules, hunloaded, hcoherent, hmodules⟩ := hcoherent.releaseModules hresolved
  obtain ⟨freed, buffers, total, hfreed, hcoherent, hbuffers⟩ := hcoherent.releaseBuffers hresolved
  obtain ⟨next, hnext⟩ := hcoherent.accepts_retirement hbuffers hmodules hqueues
  rw [outlines, filter_map, flatMap_map] at hfreed
  refine ⟨next, accepts_append.mpr ⟨freed, accepts_append.mpr ⟨unloaded, accepts_append.mpr
    ⟨unqueued, accepts_append.mpr ⟨aborted, haborted, hunqueued⟩, hunloaded⟩, hfreed⟩, hnext⟩⟩

/-! ### Counts -/

/-- Every ambiguous dispatch is on a queue that is not released. -/
theorem Inv.settled_count (h : runtime.Inv) :
    (runtime.liveQueues.flatMap runtime.ambiguousOn).length =
      runtime.dispatches.countP fun dispatch => dispatch.state == .ambiguous := by
  have hkeys : (runtime.liveQueues.map QueueRecord.handle).Nodup := by
    rw [← distinctKeys_iff_map_nodup]
    exact h.coherent.handles.queues.distinct.sublist filter_sublist
  have hgrouped := length_flatMap_filter DispatchRecordLocal.queue _ hkeys
    (runtime.dispatches.filter fun dispatch => dispatch.state == .ambiguous) fun dispatch hmem => by
      obtain ⟨hmem, hambiguous⟩ := mem_filter.mp hmem
      have hunresolved : dispatch.state.unresolved = true := by
        rw [eq_of_beq hambiguous]
        rfl
      obtain ⟨queue, hqueue, hhandle, -, hlive⟩ := h.coherent.queue_live hmem hunresolved
      rw [← hhandle]
      exact mem_map_of_mem (mem_filter.mpr ⟨hqueue, by rw [hlive]; rfl⟩)
  rw [countP_eq_length_filter, ← hgrouped, flatMap_map]
  refine congrArg List.length (flatMap_congr fun queue _ => ?_)
  rw [filter_filter]
  rfl

/-- The transitions for some queues. -/
theorem length_resetQueues (runtime : VirtualRuntime) (queues : List QueueRecord) :
    (queues.flatMap runtime.resetQueue).length ≤
      5 * queues.length + (queues.flatMap runtime.ambiguousOn).length := by
  induction queues with
  | nil => exact Nat.le_refl _
  | cons queue queues ih =>
    have hone : (runtime.resetQueue queue).length ≤ 5 + (runtime.ambiguousOn queue).length := by
      unfold resetQueue
      cases queue.quiescent <;> simp <;> omega
    rw [flatMap_cons, flatMap_cons, length_append, length_append,
      length_cons]
    omega

theorem length_resetModules (modules : List ModuleRecord) :
    (modules.flatMap resetModule).length = 3 * modules.length := by
  simp [length_flatMap, resetModule, Nat.mul_comm]

theorem length_resetBuffers (buffers : List BufferRecord) :
    (buffers.flatMap resetBuffer).length = 2 * buffers.length := by
  simp [length_flatMap, resetBuffer, Nat.mul_comm]

/-- The records of the tables, counted by their allocations. -/
theorem Inv.few_records (h : runtime.Inv) :
    runtime.buffers.length + runtime.modules.length + runtime.queues.length ≤ maxAllocations := by
  have hnodup : ((holdingsOf runtime.outlines runtime.modules runtime.queues).map
      Holding.allocation).Nodup := distinctKeys_iff_map_nodup.mp h.coherent.holdings.distinct
  have hsubset : (holdingsOf runtime.outlines runtime.modules runtime.queues).map
      Holding.allocation ⊆ runtime.model.allocations.map AllocationRecord.key := by
    intro key hkey
    obtain ⟨holding, hholding, rfl⟩ := mem_map.mp hkey
    obtain ⟨record, hfound, -⟩ := h.coherent.holdings.allocated.found holding hholding
    rw [← lookup_key hfound]
    exact mem_map_of_mem (lookup_mem hfound)
  have hlength := (subperm_of_subset hnodup hsubset).length_le
  have hbound := h.coherent.valid.bounded.allocations
  simp only [holdingsOf, outlines, length_map, length_append] at hlength
  omega

/-- The reserved room is enough. -/
theorem Inv.reset_fits (h : runtime.Inv) :
    ∃ capacity, runtime.transitionCapacity = some capacity ∧
      runtime.resetTransitions.length ≤ capacity := by
  have hrecords := h.few_records
  have hdispatches := h.coherent.fewDispatches
  simp only [maxAllocations] at hrecords
  simp only [maxDispatches] at hdispatches
  refine ⟨2 * runtime.dispatches.length + 5 * runtime.queues.length + 3 * runtime.modules.length +
    2 * runtime.buffers.length + 6, ?_, ?_⟩
  · have hmul : ∀ {a b : Nat}, a * b < 2 ^ 64 → checkedMul a b = some (a * b) := by
      intro a b hlt
      unfold checkedMul
      rw [if_pos hlt]
    have hadd : ∀ {a b : Nat}, a + b < 2 ^ 64 → checkedAdd a b = some (a + b) :=
      fun hlt => checkedAdd_eq_some.mpr ⟨rfl, hlt⟩
    unfold transitionCapacity
    rw [hmul (by omega), Option.bind_some, hmul (by omega), Option.bind_some, hadd (by omega),
      Option.bind_some, hmul (by omega), Option.bind_some, hadd (by omega), Option.bind_some,
      hmul (by omega), Option.bind_some, hadd (by omega), Option.bind_some, hadd (by omega)]
    refine congrArg some ?_
    omega
  · have hprepared : runtime.preparedDispatches.length ≤ runtime.dispatches.length :=
      length_filter_le _ _
    have hqueues : runtime.liveQueues.length ≤ runtime.queues.length := length_filter_le _ _
    have hmodules : runtime.liveModules.length ≤ runtime.modules.length :=
      length_filter_le _ _
    have hbuffers : runtime.liveBuffers.length ≤ runtime.buffers.length :=
      length_filter_le _ _
    have hambiguous : runtime.dispatches.countP (fun dispatch => dispatch.state == .ambiguous) ≤
        runtime.dispatches.length := countP_le_length
    have hsettled := h.settled_count
    have hreset := length_resetQueues runtime runtime.liveQueues
    unfold resetTransitions
    simp only [length_append, length_map, length_resetModules, length_resetBuffers,
      length_cons, length_nil]
    omega

/-- A reset to another nonzero identity succeeds in every reachable state, within the room
    it reserves, and counts what it ends. -/
theorem reset_always_possible (h : Reachable runtime) (identity : IdentityDigest)
    (hzero : identity ≠ 0) (hother : identity ≠ runtime.config.runtimeIdentity) :
    (∃ next, runtime.model.nextAll runtime.resetTransitions = .ok next) ∧
    (∃ capacity, runtime.transitionCapacity = some capacity ∧
      runtime.resetTransitions.length ≤ capacity) ∧
    ∀ environment : Environment, environment.reserves .resetTransitions = true →
      resetGeneration environment identity runtime = .done {
          previousRuntimeIdentity := runtime.config.runtimeIdentity
          replacementRuntimeIdentity := identity
          cancelledPreparedDispatches :=
            runtime.dispatches.countP fun dispatch => dispatch.state == .prepared
          settledAmbiguousDispatches :=
            runtime.dispatches.countP fun dispatch => dispatch.state == .ambiguous
          releasedBuffers := runtime.buffers.countP fun buffer => !buffer.released
          releasedModules := runtime.modules.countP fun module => !module.released
          releasedQueues := runtime.queues.countP fun queue => !queue.released }
        (fresh { runtime.config with runtimeIdentity := identity }) := by
  obtain ⟨next, hnext⟩ := h.inv.accepts_reset
  have hmodel : runtime.model.nextAll runtime.resetTransitions = .ok next := by
    rw [h.inv.coherent.valid.nextAll_eq_foldlM]
    exact hnext
  obtain ⟨capacity, hcapacity, hfits⟩ := h.inv.reset_fits
  refine ⟨⟨next, hmodel⟩, ⟨capacity, hcapacity, hfits⟩, fun environment hreserves => ?_⟩
  have hconfig := h.inv.coherent.configFits
  have hnew : new { runtime.config with runtimeIdentity := identity } =
      .ok (fresh { runtime.config with runtimeIdentity := identity }) :=
    new_eq_ok.mpr ⟨⟨hzero, hconfig.runtimeLimits, hconfig.simulationLimits⟩, rfl⟩
  have hresult : ∃ summary last, resetGeneration environment identity runtime = .done summary last ∧
      summary.settledAmbiguousDispatches =
        (runtime.liveQueues.flatMap runtime.ambiguousOn).length ∧
      summary = {
        previousRuntimeIdentity := runtime.config.runtimeIdentity
        replacementRuntimeIdentity := identity
        cancelledPreparedDispatches := runtime.preparedDispatches.length
        settledAmbiguousDispatches := summary.settledAmbiguousDispatches
        releasedBuffers := runtime.liveBuffers.length
        releasedModules := runtime.liveModules.length
        releasedQueues := runtime.liveQueues.length } ∧
      last = fresh { runtime.config with runtimeIdentity := identity } := by
    apply Meets.exists_done
    unfold resetGeneration
    refine meets_bind_refuse (fun hsame => absurd (eq_of_beq hsame) hother) fun _ => ?_
    rw [meets_bind, hnew, meets_lift_ok, meets_bind, hcapacity]
    refine meets_lift_ok.mpr ?_
    rw [meets_bind, hreserves, meets_refuse]
    refine ⟨nofun, fun _ => ?_⟩
    rw [meets_bind, fromModel_eq_ok.mpr hmodel, meets_lift_ok, meets_bind, meets_update]
    exact ⟨rfl, rfl, rfl⟩
  obtain ⟨summary, last, hdone, hsettled, hsummary, rfl⟩ := hresult
  rw [hdone, hsummary, hsettled, h.inv.settled_count]
  simp only [countP_eq_length_filter]
  rfl

theorem reset_always_possible_chained :
    (∃ next, chained.model.nextAll chained.resetTransitions = .ok next) ∧
      chained.resetTransitions.length = 16 ∧
      (resetGeneration bareEnvironment 2 chained).state? = some (fresh (sampleConfig 2)) := by
  have hpossible := reset_always_possible chained_reachable 2 (by decide) (by decide +kernel)
  refine ⟨hpossible.1, by decide +kernel, ?_⟩
  rw [hpossible.2.2 bareEnvironment rfl]
  have hconfig : chained.config = sampleConfig 1 := by decide +kernel
  rw [hconfig]
  rfl

end VirtualRuntime

end Fe2o3.Virtual
