import Fe2o3.Virtual.Progress

/-!
# Handles of earlier generations

A handle is bound to its generation by the identity of the runtime, and every call
checks the identity of every handle it is given.  So the handles of a generation are
rejected for good as long as its identity does not come back.  A reset only compares the
new identity with the current one: two resets can bring an identity back, and its
handles with it.
-/

namespace Fe2o3.Virtual

open Lib KernelIr RuntimeModel Command List

/-- The handles that a submission names. -/
def submissionHandles (queue : VirtualQueueHandle) (module : VirtualModuleHandle)
    (request : VirtualDispatchRequest) : List (Sigma Handle) :=
  ⟨.queue, queue⟩ :: ⟨.module, module⟩ ::
    (request.dependencies.map (fun dependency => (⟨.completion, dependency⟩ : Sigma Handle)) ++
      (request.arguments.filterMap VirtualArgument.view?).map fun view => ⟨.buffer, view.buffer⟩)

/-- The handles that a call is given. -/
def Call.handles : Call → List (Sigma Handle)
  | allocateBuffer .. => []
  | copyFromHost handle _ _ => [⟨.buffer, handle⟩]
  | copyFromHostWithInitialization handle _ _ _ => [⟨.buffer, handle⟩]
  | copyToHost handle _ _ => [⟨.buffer, handle⟩]
  | bufferSnapshot handle => [⟨.buffer, handle⟩]
  | releaseBuffer handle => [⟨.buffer, handle⟩]
  | registerModule _ => []
  | releaseModule handle => [⟨.module, handle⟩]
  | createQueue _ => []
  | submit _ queue module request => submissionHandles queue module request
  | submitWithDynamicWorkgroupMemory _ queue module request _ =>
    submissionHandles queue module request
  | releaseQueue handle => [⟨.queue, handle⟩]
  | runNext _ => []
  | completionState completion => [⟨.completion, completion⟩]
  | completionSummary completion => [⟨.completion, completion⟩]
  | completionAmbiguity completion => [⟨.completion, completion⟩]
  | resetGeneration .. => []
  | cancelCompletion completion => [⟨.completion, completion⟩]
  | markCompletionAmbiguous _ completion => [⟨.completion, completion⟩]
  | observeCompletionTimeout _ completion => [⟨.completion, completion⟩]
  | quiesceQueue queue => [⟨.queue, queue⟩]
  | settleAmbiguousCompletion completion => [⟨.completion, completion⟩]

/-- The handle that a reply issues. -/
def Reply.handle? : Reply → Option (Sigma Handle)
  | buffer handle => some ⟨.buffer, handle⟩
  | module handle => some ⟨.module, handle⟩
  | queue handle => some ⟨.queue, handle⟩
  | completion handle => some ⟨.completion, handle⟩
  | _ => none

variable {call : Call} {calls : List Call} {kind : HandleKind} {reply : Reply}
  {last : VirtualRuntime}

namespace VirtualRuntime

variable {α : Type} {runtime next : VirtualRuntime}

/-! ### Rejection -/

/-- The handle belongs to another generation. -/
def Foreign {kind : HandleKind} (runtime : VirtualRuntime) (handle : Handle kind) : Prop :=
  handle.runtimeIdentity ≠ runtime.config.runtimeIdentity

/-- A call that looks a handle up before anything else. -/
theorem Foreign.rejects {handle : Handle kind} (h : runtime.Foreign handle)
    {handles : VirtualRuntime → List (Handle kind)} {f : VirtualRuntime → Nat → Action α} :
    Rejects (do
      let runtime ← read
      let index ← lift (runtime.indexOf (handles runtime) handle)
      f runtime index) runtime := by
  refine ⟨.foreignHandle kind, ?_⟩
  show ((lift (runtime.indexOf (handles runtime) handle) : Action Nat) >>= f runtime) runtime = _
  unfold Foreign at h
  unfold VirtualRuntime.indexOf validateHandle
  rw [if_pos h]
  rfl

theorem Foreign.hostAccess {handle : VirtualBufferHandle} (h : runtime.Foreign handle) :
    Rejects (hostAccessibleBufferIndex handle) runtime := h.rejects

theorem Foreign.dispatch {completion : VirtualCompletionHandle} (h : runtime.Foreign completion) :
    Rejects (dispatch completion) runtime := h.rejects

/-- A view of a buffer of another generation does not fit. -/
theorem Foreign.not_viewFits (h : runtime.Inv) {view : BufferView}
    (hforeign : runtime.Foreign view.buffer) : ¬ ViewFits runtime.outlines view := by
  rintro ⟨index, buffer, _, _, hbuffer, hhandle, -⟩
  have hissued := h.coherent.handles.buffers.issued buffer (mem_of_getElem? hbuffer)
  exact hforeign (hhandle ▸ hissued.1)

variable {handle : Sigma Handle}

/-- A submission checks the queue, the module, the dependencies and the buffers before it
    takes an ordinal. -/
theorem rejects_submitConfigured (h : runtime.Inv) (environment : Environment)
    {queue : VirtualQueueHandle} {module : VirtualModuleHandle} {request : VirtualDispatchRequest}
    (dynamic : Option DynamicWorkgroupMemoryRequest)
    (hmem : handle ∈ submissionHandles queue module request) (hforeign : runtime.Foreign handle.2) :
    Rejects (submitConfigured environment queue module request dynamic) runtime := by
  apply rejects_of_meets
  unfold submitConfigured
  refine meets_bind_refuse (fun _ => rfl) fun _ => ?_
  refine meets_bind_lift (fun queueIndex hqueueIndex => ?_) fun _ _ => rfl
  obtain ⟨queueRecord, hqueue, -⟩ := record_of_indexOf hqueueIndex
  refine meets_bind_lift (fun moduleIndex hmoduleIndex => ?_) fun _ _ => rfl
  obtain ⟨moduleRecord, hmodule, -⟩ := record_of_indexOf hmoduleIndex
  unfold requireLiveQueue requireLiveModule
  rw [meets_bind, meets_bind, meets_recordAt hqueue, meets_refuse]
  refine ⟨fun _ => rfl, fun _ => ?_⟩
  rw [meets_bind, meets_bind, meets_recordAt hmodule, meets_refuse]
  refine ⟨fun _ => rfl, fun _ => ?_⟩
  refine meets_bind_refuse (fun _ => rfl) fun _ => ?_
  refine meets_bind_refuse (fun _ => rfl) fun _ => ?_
  dsimp only
  cases firstDuplicate
    (request.dependencies.insertionSort fun left right => left.atMost right) with
  | some duplicate => exact rfl
  | none =>
    refine meets_bind_lift (fun _ hchecked => ?_) fun _ _ => rfl
    refine (meets_validateAndCollectResources h request.arguments).bind ?_
    rintro ⟨resources, retained⟩ next ⟨-, hcollected⟩
    -- Everything the request names has passed a check of its identity by now.
    refine absurd ?_ hforeign
    obtain rfl | hmem := mem_cons.mp hmem
    · exact (indexOf_eq_ok.mp hqueueIndex).1
    obtain rfl | hmem := mem_cons.mp hmem
    · exact (indexOf_eq_ok.mp hmoduleIndex).1
    obtain hmem | hmem := mem_append.mp hmem
    · obtain ⟨dependency, hdependency, rfl⟩ := mem_map.mp hmem
      have hsorted := (perm_insertionSort (fun left right => left.atMost right)
        request.dependencies).mem_iff.mpr hdependency
      exact (checkDependency_eq_ok (forM_eq_ok.mp hchecked dependency hsorted)).1
    · obtain ⟨view, hview, rfl⟩ := mem_map.mp hmem
      by_contra hother
      exact Foreign.not_viewFits h hother (hcollected.views view (mem_views.mp hview))

/-- A call that is given a handle of another generation is rejected. -/
theorem rejects_foreign (h : runtime.Inv) (hmem : handle ∈ call.handles)
    (hforeign : runtime.Foreign handle.2) : Rejects (perform call) runtime := by
  cases call with
  | allocateBuffer | registerModule | createQueue | runNext | resetGeneration =>
    nomatch hmem
  | copyFromHostWithInitialization found offset source initialized =>
    obtain rfl := mem_singleton.mp hmem
    have hwrite : Rejects (writeFromHost found offset source initialized) runtime :=
      hforeign.hostAccess.bind
    exact hwrite.refuse.map
  | copyFromHost | copyToHost | bufferSnapshot =>
    obtain rfl := mem_singleton.mp hmem
    exact hforeign.hostAccess.bind.map
  | submit environment queue module request =>
    exact (rejects_submitConfigured h environment none hmem hforeign).map
  | submitWithDynamicWorkgroupMemory environment queue module request dynamic =>
    exact (rejects_submitConfigured h environment (some dynamic) hmem hforeign).map
  | completionState | completionSummary | completionAmbiguity =>
    obtain rfl := mem_singleton.mp hmem
    exact hforeign.dispatch.bind.map
  | releaseBuffer | releaseModule | releaseQueue | cancelCompletion | quiesceQueue
  | markCompletionAmbiguous | observeCompletionTimeout | settleAmbiguousCompletion =>
    obtain rfl := mem_singleton.mp hmem
    refine Rejects.map ?_
    exact hforeign.rejects

/-! ### Issue -/

theorem Issues.identity {call : Action (Handle kind)} {toReply : Handle kind → Reply}
    (h : Issues call runtime) (hreply : ∀ issued, (toReply issued).handle? = some ⟨kind, issued⟩)
    (hdone : (toReply <$> call) runtime = .done reply next)
    (hhandle : reply.handle? = some handle) :
    handle.2.runtimeIdentity = runtime.config.runtimeIdentity := by
  obtain ⟨issued, hcall, rfl⟩ := exists_of_map_done hdone
  rw [hreply] at hhandle
  cases hhandle
  exact (Meets.of_done h hcall).1

/-- A call binds the handle it issues to the current generation. -/
theorem identity_of_reply (h : runtime.Inv) (hdone : perform call runtime = .done reply next)
    (hhandle : reply.handle? = some handle) :
    handle.2.runtimeIdentity = runtime.config.runtimeIdentity := by
  have hsilent : ∀ {α : Type} {x : Action α} {f : α → Reply},
      (∀ a, (f a).handle? = none) → (f <$> x) runtime = .done reply next → False := by
    intro α x f hreply hmap
    obtain ⟨a, -, rfl⟩ := exists_of_map_done hmap
    nomatch (hreply a).symm.trans hhandle
  cases call with
  | allocateBuffer environment byteLen access =>
    exact (allocateBuffer_issues h environment byteLen access).identity (fun _ => rfl) hdone hhandle
  | registerModule module =>
    exact (registerModule_issues h module).identity (fun _ => rfl) hdone hhandle
  | createQueue capacity =>
    exact (createQueue_issues h capacity).identity (fun _ => rfl) hdone hhandle
  | submit environment queue module request =>
    exact (submitConfigured_issues h environment queue module request none).identity
      (fun _ => rfl) hdone hhandle
  | submitWithDynamicWorkgroupMemory environment queue module request dynamic =>
    exact (submitConfigured_issues h environment queue module request (some dynamic)).identity
      (fun _ => rfl) hdone hhandle
  | _ => exact (hsilent (fun _ => rfl) hdone).elim

/-! ### Runs -/

/-- The handles that the calls issue. -/
def issued (runtime : VirtualRuntime) : List Call → List (Sigma Handle)
  | [] => []
  | call :: calls =>
    match perform call runtime with
    | .done reply next => reply.handle?.toList ++ next.issued calls
    | .failed _ next => next.issued calls
    | .panicked => []

/-- Every generation that the calls start has an identity that no earlier one had; `used`
    are the identities so far. -/
def freshResets (runtime : VirtualRuntime) (used : List IdentityDigest) : List Call → Bool
  | [] => true
  | call :: calls =>
    match (perform call runtime).state? with
    | none => true
    | some next =>
      (next.config.runtimeIdentity == runtime.config.runtimeIdentity ||
        !used.contains next.config.runtimeIdentity) &&
      next.freshResets (next.config.runtimeIdentity :: used) calls

variable {used : List IdentityDigest}

theorem freshResets_cons (h : runtime.freshResets used (call :: calls) = true)
    (hcall : (perform call runtime).state? = some next) :
    (next.config.runtimeIdentity = runtime.config.runtimeIdentity ∨
      next.config.runtimeIdentity ∉ used) ∧
    next.freshResets (next.config.runtimeIdentity :: used) calls = true := by
  rw [freshResets, hcall] at h
  simpa using h

/-- A handle is issued by the first call, bound to the current generation, or by a later
    one. -/
theorem mem_issued_cons (h : runtime.Inv) (hmem : handle ∈ runtime.issued (call :: calls))
    (hcall : (perform call runtime).state? = some next) :
    handle.2.runtimeIdentity = runtime.config.runtimeIdentity ∨ handle ∈ next.issued calls := by
  rw [issued] at hmem
  cases houtcome : perform call runtime with
  | done reply state =>
    rw [houtcome] at hmem hcall
    cases hcall
    obtain hhere | hlater := mem_append.mp hmem
    · exact .inl (identity_of_reply h houtcome (Option.mem_toList.mp hhere))
    · exact .inr hlater
  | failed error state =>
    rw [houtcome] at hmem hcall
    cases hcall
    exact .inr hmem
  | panicked =>
    rw [houtcome] at hcall
    nomatch hcall

/-- An identity that is not the current one does not come back. -/
theorem run_identity_ne {past : IdentityDigest} (h : runtime.freshResets used calls = true)
    (hused : past ∈ used) (hne : past ≠ runtime.config.runtimeIdentity)
    (hrun : runtime.run calls = some last) : past ≠ last.config.runtimeIdentity := by
  induction calls generalizing runtime used with
  | nil =>
    cases hrun
    exact hne
  | cons call calls ih =>
    obtain ⟨next, hcall, hrest⟩ := Option.bind_eq_some_iff.mp hrun
    obtain ⟨hnext, hcalls⟩ := freshResets_cons h hcall
    refine ih hcalls (mem_cons_of_mem _ hused) ?_ hrest
    obtain hsame | hnew := hnext
    · rw [hsame]
      exact hne
    · exact fun heq => hnew (heq ▸ hused)

/-- What is left of the condition after some of the calls: all identities they met are
    used, in particular the one of a handle they issued. -/
theorem freshResets_append {earlier later : List Call} (hinv : runtime.Inv)
    (h : runtime.freshResets used (earlier ++ later) = true)
    (hused : runtime.config.runtimeIdentity ∈ used)
    (hissued : handle.2.runtimeIdentity ∈ used ∨ handle ∈ runtime.issued earlier)
    (hrun : runtime.run earlier = some last) :
    ∃ seen, last.freshResets seen later = true ∧ last.config.runtimeIdentity ∈ seen ∧
      handle.2.runtimeIdentity ∈ seen := by
  induction earlier generalizing runtime used with
  | nil =>
    cases hrun
    obtain hmem | hnone := hissued
    · exact ⟨used, h, hused, hmem⟩
    · nomatch hnone
  | cons call calls ih =>
    obtain ⟨next, hcall, hrest⟩ := Option.bind_eq_some_iff.mp hrun
    refine ih (state_of_meets (perform_inv hinv call) hcall) (freshResets_cons h hcall).2
      (mem_cons_self ..) ?_ hrest
    obtain hmem | hissued := hissued
    · exact .inl (mem_cons_of_mem _ hmem)
    · obtain hidentity | hlater := mem_issued_cons hinv hissued hcall
      · exact .inl (mem_cons_of_mem _ (hidentity ▸ hused))
      · exact .inr hlater

/-- A handle issued before a reset is rejected by every call after it, and by the capture of
    evidence, in all generations, if no generation takes up the identity of an earlier one. -/
theorem stale_handles_rejected {config : VirtualRuntimeConfig}
    {start old renewed : VirtualRuntime} {earlier later : List Call} {environment : Environment}
    {identity : IdentityDigest} {reply : Reply} {handle : Sigma Handle}
    (hstart : new config = .ok start)
    (hearlier : start.run earlier = some old) (hissued : handle ∈ start.issued earlier)
    (hreset : perform (.resetGeneration environment identity) old = .done reply renewed)
    (hlater : renewed.run later = some runtime)
    (hfresh : start.freshResets [config.runtimeIdentity]
      (earlier ++ .resetGeneration environment identity :: later) = true) :
    (∀ call : Call, handle ∈ call.handles → Rejects (perform call) runtime) ∧
      ∀ buffer, handle = ⟨.buffer, buffer⟩ →
        runtime.captureHostLifetimeEvidence buffer = .error .foreignBuffer := by
  have hreachable : Reachable start := .new hstart
  have hcurrent : start.config.runtimeIdentity ∈ [config.runtimeIdentity] := by
    obtain ⟨-, rfl⟩ := new_eq_ok.mp hstart
    exact mem_singleton.mpr rfl
  obtain ⟨seen, hseen, -, hhandle⟩ :=
    freshResets_append hreachable.inv hfresh hcurrent (.inr hissued) hearlier
  have hstate : (perform (.resetGeneration environment identity) old).state? = some renewed := by
    rw [hreset]
    rfl
  obtain ⟨hrenewed, hcalls⟩ := freshResets_cons hseen hstate
  obtain ⟨_, hdone, -⟩ := exists_of_map_done hreset
  obtain ⟨hother, hmade⟩ := (meets_resetGeneration environment identity).of_done hdone
  obtain ⟨-, rfl⟩ := new_eq_ok.mp hmade
  have hnew := hrenewed.resolve_left hother
  have hgone : handle.2.runtimeIdentity ≠ runtime.config.runtimeIdentity :=
    run_identity_ne hcalls (mem_cons_of_mem _ hhandle) (fun heq => hnew (heq ▸ hhandle)) hlater
  have hafter := (hreachable.run hearlier).call hstate
  refine ⟨fun call hcall => rejects_foreign (hafter.run hlater).inv hcall hgone, ?_⟩
  rintro buffer rfl
  rw [captureHostLifetimeEvidence, if_pos hgone]
  rfl

/-- A buffer of one byte. -/
def oneByte : Call := .allocateBuffer bareEnvironment 1 .readWrite

/-- Two generations later the handle is still rejected. -/
theorem stale_handles_rejected_buffer :
    let later := [oneByte, .resetGeneration bareEnvironment 3, oneByte]
    ∃ reply renewed runtime,
      perform (.resetGeneration bareEnvironment 2) (after (sampleConfig 1) [oneByte]) =
        .done reply renewed ∧
      renewed.run later = some runtime ∧ runtime.config.runtimeIdentity = 3 ∧
      Rejects (perform (.copyFromHost ⟨1, 1⟩ 0 [7])) runtime ∧
      runtime.captureHostLifetimeEvidence ⟨1, 1⟩ = .error .foreignBuffer := by
  intro later
  have hreset : (perform (.resetGeneration bareEnvironment 2)
      (after (sampleConfig 1) [oneByte])).succeeded = true := by
    decide +kernel
  have hthird : (perform (.resetGeneration bareEnvironment 2)
      (after (sampleConfig 1) [oneByte])).state?.bind (fun renewed =>
        (renewed.run later).map fun runtime => runtime.config.runtimeIdentity) = some 3 := by
    decide +kernel
  rcases Outcome.exists_done hreset with ⟨reply, renewed, hreset⟩
  rw [hreset] at hthird
  rcases Option.map_eq_some_iff.mp hthird with ⟨runtime, hlater, hthird⟩
  have hissued : (⟨.buffer, ⟨1, 1⟩⟩ : Sigma Handle) ∈ (fresh (sampleConfig 1)).issued
    [oneByte] := by
    decide +kernel
  rcases stale_handles_rejected (new_eq_ok.mpr ⟨⟨by decide, rfl, rfl⟩, rfl⟩)
    (run_eq_after (by decide +kernel)) hissued hreset hlater (by decide +kernel) with
    ⟨hrejects, hcapture⟩
  exact ⟨reply, renewed, runtime, hreset, hlater, hthird,
    hrejects _ (mem_singleton.mpr rfl), hcapture _ rfl⟩

/-- An identity comes back after two resets, and with it a handle of the generation that
    had it first: the host writes to a buffer of the third generation through it. -/
theorem returning_identity_revives_handle :
    new (sampleConfig 1) = .ok (fresh (sampleConfig 1)) ∧
      (⟨.buffer, ⟨1, 1⟩⟩ : Sigma Handle) ∈ (fresh (sampleConfig 1)).issued [oneByte] ∧
      (perform (.resetGeneration bareEnvironment 2)
        (after (sampleConfig 1) [oneByte])).succeeded = true ∧
      (perform (.resetGeneration bareEnvironment 1)
        (after (sampleConfig 1) [oneByte, .resetGeneration bareEnvironment 2])).succeeded = true ∧
      (perform (.copyFromHost ⟨1, 1⟩ 0 [7])
        (after (sampleConfig 1) [oneByte, .resetGeneration bareEnvironment 2,
          .resetGeneration bareEnvironment 1, oneByte])).succeeded = true :=
  ⟨new_eq_ok.mpr ⟨⟨by decide, rfl, rfl⟩, rfl⟩, by decide +kernel, by decide +kernel,
    by decide +kernel, by decide +kernel⟩

end VirtualRuntime

end Fe2o3.Virtual
