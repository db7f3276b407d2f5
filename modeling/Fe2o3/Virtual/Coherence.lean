import Fe2o3.Virtual.Invariant

/-!
# Coherence is kept

One lemma for each way in which the tables of the runtime and of the model change
together.
-/

namespace Fe2o3.Virtual

open Lib KernelIr RuntimeModel RuntimeState List

variable {buffer : Outline} {dispatch : DispatchRecordLocal} {identity : IdentityDigest}
  {index m n : Nat} {kind : HandleKind} {module : ModuleRecord} {provided : RuntimeState}
  {α β : Type}

section

variable {config : VirtualRuntimeConfig} {model next : RuntimeState} {vm : VmKey}
  {nextOrdinal nextAllocationId total : Nat} {buffers : List Outline}
  {modules : List ModuleRecord} {queues : List QueueRecord}
  {dispatches : List DispatchRecordLocal}

/-! ### What coherence says about single records -/

theorem Issued.mono {handle : Handle kind} (h : Issued identity n handle) (hle : n ≤ m) :
    Issued identity m handle :=
  ⟨h.1, Nat.lt_of_lt_of_le h.2 hle⟩

/-- A new handle is none of those issued before. -/
theorem Issued.ne_next {handle : Handle kind} (h : Issued identity n handle) :
    handle ≠ ⟨identity, n⟩ := by
  rintro rfl
  exact Nat.lt_irrefl _ h.2

/-- Handles of one generation differ in their ordinals. -/
theorem Issued.ordinal_ne {handle other : Handle kind} (h : Issued identity n handle)
    (h' : Issued identity m other) (hne : handle ≠ other) : handle.ordinal ≠ other.ordinal := by
  intro hordinal
  cases handle
  cases other
  simp only [Issued] at h h'
  simp_all

theorem Registered.mono {handle : α → Handle kind} {table : List α}
    (h : Registered identity n handle table) (hle : n ≤ m) : Registered identity m handle table :=
  ⟨fun record hmem => (h.issued record hmem).mono hle, h.distinct⟩

/-- The ordinal of the next handle leaves the tables as they are. -/
theorem HandlesFit.advance (h : HandlesFit identity n buffers modules queues dispatches) :
    HandlesFit identity (n + 1) buffers modules queues dispatches :=
  ⟨h.buffers.mono (Nat.le_succ n), h.modules.mono (Nat.le_succ n), h.queues.mono (Nat.le_succ n),
    h.dispatches.mono (Nat.le_succ n)⟩

/-! ### Tables with handles -/

namespace Registered

variable {κ : Type} {handle : α → Handle kind} {table : List α} {f : α → α} {i : Nat}
  (h : Registered identity n handle table)
include h

/-- A record with the next handle. -/
theorem append {new : α} (hnew : handle new = ⟨identity, n⟩) :
    Registered identity (n + 1) handle (table ++ [new]) where
  issued := by
    refine forall_mem_append_new (h.mono (Nat.le_succ n)).issued ?_
    rw [hnew]
    exact ⟨rfl, Nat.lt_succ_self n⟩
  distinct := by
    refine distinctKeys_append h.distinct fun record hmem => ?_
    rw [hnew]
    exact (h.issued record hmem).ne_next

theorem modify (hf : ∀ record, handle (f record) = handle record) :
    Registered identity n handle (table.modify i f) where
  issued := by
    intro record hmem
    have hsame := mem_map_of_mem (f := handle) hmem
    rw [map_modify_of_eq hf] at hsame
    obtain ⟨old, hold, hhandle⟩ := mem_map.mp hsame
    rw [← hhandle]
    exact h.issued old hold
  distinct := distinctKeys_modify hf h.distinct

/-- Keys that carry the ordinals of the handles are different. -/
theorem distinctKeys {key : α → κ} (ordinal : κ → Nat)
    (hordinal : ∀ record ∈ table, ordinal (key record) = (handle record).ordinal) :
    DistinctKeys key table := by
  refine h.distinct.imp_of_mem fun {first second} hfirst hsecond hne hsame => ?_
  refine Issued.ordinal_ne (h.issued first hfirst) (h.issued second hsecond) hne ?_
  rw [← hordinal first hfirst, ← hordinal second hsecond, hsame]

end Registered

/-- The model moves one dispatch to a state; its completion follows. -/
def Moves (before : RuntimeState) (completion : CompletionKey) (state : DispatchState)
    (after : RuntimeState) : Prop :=
  after.Valid ∧ ∃ completions,
    after = { before.setDispatch completion.dispatch state with completions := completions }

namespace Coherent

variable (h : Coherent config model vm nextOrdinal nextAllocationId total buffers modules queues
  dispatches)
include h

theorem codes_distinct : DistinctKeys ModuleRecord.code modules :=
  h.handles.modules.distinctKeys LoadedCodeKey.id fun module hmem => by
    obtain ⟨record, -, hfits⟩ := h.modulesFit.found module hmem
    rw [hfits.key]

theorem queues_distinct : DistinctKeys QueueRecord.queue queues :=
  h.handles.queues.distinctKeys QueueKey.id fun queue hmem => by
    obtain ⟨record, -, hfits⟩ := h.queuesFit.found queue hmem
    rw [hfits.key]

theorem dispatches_distinct : DistinctKeys DispatchRecordLocal.key dispatches :=
  h.handles.dispatches.distinctKeys DispatchKey.id fun dispatch hmem => by
    obtain ⟨record, -, hfits⟩ := h.dispatchesFit.found dispatch hmem
    exact hfits.ordinal

/-- The completion of a dispatch is in the state that matches it. -/
theorem awaits (hmem : dispatch ∈ dispatches) :
    ∃ completion, completionMatches dispatch.state.modelState completion = true ∧
      model.Awaits dispatch.modelCompletion dispatch.state.modelState completion := by
  obtain ⟨record, hfound, hfits⟩ := h.dispatchesFit.found dispatch hmem
  obtain ⟨queue, code, completion, hvalid⟩ := h.valid.dispatches record (lookup_mem hfound)
  refine ⟨completion.state, ?_, ⟨record, hfound, hfits.completion, hfits.state⟩,
    completion, ?_, rfl⟩
  · rw [← hfits.state]
    exact hvalid.agrees
  · rw [← hfits.completion]
    exact hvalid.completionFound

/-! ### Dispatches -/

variable {i : Nat} {dispatch : DispatchRecordLocal} {state : VirtualCompletionState}
  {f : DispatchRecordLocal → DispatchRecordLocal}

/-- One dispatch changes its state, in both tables. -/
theorem moveDispatch (hdispatch : dispatches[i]? = some dispatch)
    (hf : ∀ d, f d = { d with
      state := state, ambiguity := (f d).ambiguity, summary := (f d).summary })
    (hstate : state ≠ .prepared)
    (hmodel : Moves model dispatch.modelCompletion state.modelState next) :
    Coherent config next vm nextOrdinal nextAllocationId total buffers modules queues
      (dispatches.modify i f) := by
  obtain ⟨hvalid, completions, rfl⟩ := hmodel
  have hmem := mem_of_getElem? hdispatch
  have hcompletion : ∀ d, (f d).completion = d.completion := fun d => by rw [hf]
  have hcases : ∀ other ∈ dispatches.modify i f,
      other ∈ dispatches ∧ other.completion ≠ dispatch.completion ∨ other = f dispatch :=
    fun other hother => mem_modify h.handles.dispatches.distinct hdispatch hother
  exact { h with
    valid := hvalid
    handles := { h.handles with dispatches := h.handles.dispatches.modify hcompletion }
    dispatchesFit := by
      refine h.dispatchesFit.modify h.dispatches_distinct hdispatch (by rw [hf]) fun _ hfits => ?_
      rw [hf]
      exact { hfits with state := rfl }
    ready := by
      intro other hother hprepared
      obtain ⟨hother, -⟩ | rfl := hcases other hother
      · exact h.ready other hother hprepared
      · rw [hf] at hprepared
        exact absurd hprepared hstate
    arguments := by
      intro other hother
      obtain ⟨hother, -⟩ | rfl := hcases other hother
      · exact h.arguments other hother
      · rw [hf]
        exact { h.arguments dispatch hmem with }
    dependencies := by
      intro other hother
      have hsame : (dispatches.modify i f).map DispatchRecordLocal.completion =
          dispatches.map DispatchRecordLocal.completion := map_modify_of_eq hcompletion
      obtain ⟨hother, -⟩ | rfl := hcases other hother
      · obtain ⟨hearlier, hascending⟩ := h.dependencies other hother
        exact ⟨hsame ▸ hearlier, hascending⟩
      · obtain ⟨hearlier, hascending⟩ := h.dependencies dispatch hmem
        rw [hf]
        exact ⟨hsame ▸ hearlier, hascending⟩
    fewDispatches := by
      rw [length_modify]
      exact h.fewDispatches }

end Coherent

/-! ### A table grows or changes under the dispatches -/

variable {dispatch : DispatchRecordLocal} {record : DispatchRecord} {i : Nat}

theorem getElem?_append_of_some {table extra : List α} {a : α} (h : table[index]? = some a) :
    (table ++ extra)[index]? = some a := by
  obtain ⟨hlt, -⟩ := List.getElem?_eq_some_iff.mp h
  rw [getElem?_append_left hlt]
  exact h

/-- Buffers that keep their mappings. -/
theorem DispatchFits.buffersKept {after : List Outline}
    (h : DispatchFits buffers modules queues dispatch record)
    (hkept : ∀ (index : Nat) (buffer : Outline), buffers[index]? = some buffer →
      ∃ image : Outline, after[index]? = some image ∧ image.mapping = buffer.mapping) :
    DispatchFits after modules queues dispatch record :=
  { h with
    resources := by
      intro resource hresource
      obtain ⟨index, hindex, buffer, hbuffer, hmapping⟩ := h.resources resource hresource
      obtain ⟨image, himage, hsame⟩ := hkept index buffer hbuffer
      exact ⟨index, hindex, image, himage, hsame.trans hmapping⟩
    retained := by
      intro index hindex
      obtain ⟨buffer, hbuffer, resource, hresource, hmapping⟩ := h.retained index hindex
      obtain ⟨image, himage, hsame⟩ := hkept index buffer hbuffer
      exact ⟨image, himage, resource, hresource, hmapping.trans hsame.symm⟩ }

theorem ViewFits.appendBuffer {view : BufferView} (h : ViewFits buffers view)
    (extra : List Outline) : ViewFits (buffers ++ extra) view := by
  obtain ⟨index, buffer, elementBytes, stop, hbuffer, hrest⟩ := h
  exact ⟨index, buffer, elementBytes, stop, getElem?_append_of_some hbuffer, hrest⟩

/-- A buffer that nothing names is added. -/
theorem ArgumentsFit.appendBuffer {new : Outline} (h : ArgumentsFit buffers dispatch)
    (hindex : ∀ index ∈ dispatch.retainedBuffers, index < buffers.length)
    (hnew : ¬ dispatch.Names new.handle) : ArgumentsFit (buffers ++ [new]) dispatch where
  nodup := h.nodup
  named := by
    intro index buffer hbuffer
    by_cases hlt : index < buffers.length
    · rw [getElem?_append_left hlt] at hbuffer
      exact h.named index buffer hbuffer
    · rw [getElem?_append_right (Nat.le_of_not_lt hlt)] at hbuffer
      obtain rfl := mem_singleton.mp (mem_of_getElem? hbuffer)
      exact iff_of_false (fun hmem => hlt (hindex index hmem)) hnew
  views := fun view hview => (h.views view hview).appendBuffer [new]

/-- A buffer keeps its handle, and its length unless it is released. -/
theorem ArgumentsFit.modifyBuffer {f : Outline → Outline} (h : ArgumentsFit buffers dispatch)
    (hhandle : ∀ buffer, (f buffer).handle = buffer.handle)
    (hlength : ∀ buffer, (f buffer).released = false →
      buffer.released = false ∧ (f buffer).byteLen = buffer.byteLen) :
    ArgumentsFit (buffers.modify i f) dispatch where
  nodup := h.nodup
  named := by
    intro index buffer hbuffer
    obtain ⟨old, hold, rfl | ⟨-, rfl⟩⟩ := getElem?_modify_cases hbuffer
    · exact h.named index buffer hold
    · rw [hhandle]
      exact h.named index old hold
  views := by
    intro view hview
    obtain ⟨index, buffer, elementBytes, stop, hbuffer, hsame, hbytes, hend, hrange⟩ :=
      h.views view hview
    obtain ⟨image, himage, rfl | ⟨-, rfl⟩⟩ := exists_getElem?_modify (f := f) hbuffer i
    · exact ⟨index, image, elementBytes, stop, himage, hsame, hbytes, hend, hrange⟩
    · refine ⟨index, f buffer, elementBytes, stop, himage, (hhandle buffer).trans hsame,
        hbytes, hend, fun hreleased => ?_⟩
      obtain ⟨hlive, hsize⟩ := hlength buffer hreleased
      rw [hsize]
      exact hrange hlive

/-! ### Holdings of changed tables -/

theorem perm_map_append (before after : List β) (f : α → β) (table : List α) (new : α) :
    (before ++ (table ++ [new]).map f ++ after).Perm
      (before ++ table.map f ++ after ++ [f new]) := by
  simp only [map_append, append_assoc]
  exact (perm_append_comm.append_left _).append_left _

/-- The image of a record in front, before and after a change of the record. -/
theorem perm_map_modify {table : List α} {record : α} (before after : List β) (f : α → β)
    (h : table[i]? = some record) :
    ∃ rest, (before ++ table.map f ++ after).Perm (f record :: rest) ∧
      ∀ g, (before ++ (table.modify i g).map f ++ after).Perm (f (g record) :: rest) := by
  obtain ⟨front, back, hsplit, hmodify⟩ := modify_split h
  have hmiddle (x : α) : (before ++ (front ++ x :: back).map f ++ after).Perm
      (f x :: ((before ++ front.map f) ++ (back.map f ++ after))) := by
    rw [map_append, ← append_assoc, append_assoc _ _ after]
    exact perm_middle
  refine ⟨(before ++ front.map f) ++ (back.map f ++ after), ?_, fun g => ?_⟩
  · rw [hsplit]
    exact hmiddle record
  · rw [hmodify]
    exact hmiddle (g record)

/-! ### New records -/

/-- The model gains one allocation with one mapping. -/
def Provisions (model : RuntimeState) (vm : VmKey) (id : Nat) (next : RuntimeState) : Prop :=
  (∀ record ∈ model.allocations, record.key ≠ ⟨vm, id⟩) ∧
  (∀ record ∈ model.mappings, record.key ≠ ⟨⟨vm, id⟩, id⟩) ∧
  ∃ byteLen gpuVa access, next = { model with
    allocations := model.allocations ++ [⟨⟨vm, id⟩, byteLen, .live⟩]
    mappings := model.mappings ++ [⟨⟨⟨vm, id⟩, id⟩, 0, gpuVa, byteLen, access, .live⟩] }

/-- A new dispatch for a queue and a module of the tables. -/
structure Admitted (identity : IdentityDigest) (nextOrdinal : Nat) (modules : List ModuleRecord)
    (queues : List QueueRecord) (dispatches : List DispatchRecordLocal) (queue : QueueRecord)
    (module : ModuleRecord) (new : DispatchRecordLocal) : Prop where
  completion : new.completion = ⟨identity, nextOrdinal⟩
  modelCompletion : new.modelCompletion = ⟨⟨queue.queue, nextOrdinal⟩, nextOrdinal⟩
  state : new.state = .prepared
  onQueue : queue ∈ queues ∧ queue.handle = new.queue
  live : queue.released = false ∧ queue.quiescent = false
  ofModule : module ∈ modules ∧ module.handle = new.module
  dependencies : ∀ dependency ∈ new.request.dependencies, dependency.ordinal < nextOrdinal ∧
    dependency ∈ dispatches.map DispatchRecordLocal.completion
  ascending : new.request.dependencies.Pairwise fun left right => left.ordinal ≤ right.ordinal
  few : dispatches.length < maxDispatches

/-- A released buffer has no bytes. -/
def Outline.release (buffer : Outline) : Outline :=
  { buffer with released := true, byteLen := 0, initializedLen := 0 }

namespace Coherent

variable (h : Coherent config model vm nextOrdinal nextAllocationId total buffers modules queues
  dispatches)
include h

theorem retained_lt (hmem : dispatch ∈ dispatches) :
    ∀ index ∈ dispatch.retainedBuffers, index < buffers.length := by
  intro index hindex
  obtain ⟨record, -, hfits⟩ := h.dispatchesFit.found dispatch hmem
  obtain ⟨buffer, hbuffer, -⟩ := hfits.retained index hindex
  exact (List.getElem?_eq_some_iff.mp hbuffer).1

/-- An unresolved dispatch keeps its buffers from being released. -/
theorem retained_live (hmem : dispatch ∈ dispatches)
    (hunresolved : dispatch.state.unresolved = true) (hindex : index ∈ dispatch.retainedBuffers) :
    ∃ buffer, buffers[index]? = some buffer ∧ buffer.released = false := by
  obtain ⟨record, hfound, hfits⟩ := h.dispatchesFit.found dispatch hmem
  obtain ⟨buffer, hbuffer, resource, hresource, hmapping⟩ := hfits.retained index hindex
  refine ⟨buffer, hbuffer, ?_⟩
  have hretains : record.state.retainsResources = true := by
    rw [hfits.state, retainsResources_modelState]
    exact hunresolved
  obtain ⟨queue, code, completion, hmodel⟩ :=
    h.valid.dispatches record (lookup_mem hfound)
  obtain ⟨mapping, hresourceFits⟩ := hmodel.resourcesKept hretains resource hresource
  have hholding : buffer.holding ∈ holdingsOf buffers modules queues :=
    mem_append_left _ (mem_append_left _
      (mem_map_of_mem (mem_of_getElem? hbuffer)))
  obtain ⟨other, hother, hstate⟩ := h.holdings.mapped.found buffer.holding hholding
  have hsame : mapping = other := by
    apply Option.some.inj
    rw [← hresourceFits.found, ← hother, hmapping]
    rfl
  rw [← hsame, hresourceFits.live] at hstate
  cases hreleased : buffer.released with
  | false => rfl
  | true =>
    rw [Outline.holding, hreleased] at hstate
    nomatch hstate

theorem names_issued (hmem : dispatch ∈ dispatches) {handle : VirtualBufferHandle}
    (hnames : dispatch.Names handle) : Issued config.runtimeIdentity nextOrdinal handle := by
  obtain ⟨view, hview, rfl⟩ := hnames
  obtain ⟨index, buffer, -, -, hbuffer, hhandle, -⟩ := (h.arguments dispatch hmem).views view hview
  rw [← hhandle]
  exact h.handles.buffers.issued buffer (mem_of_getElem? hbuffer)

theorem addBuffer (hprovisions : Provisions model vm nextAllocationId next)
    (hvalid : next.Valid) (n : Nat) :
    Coherent config next vm (nextOrdinal + 1) (nextAllocationId + 1) (total + n)
      (buffers ++ [⟨⟨config.runtimeIdentity, nextOrdinal⟩, ⟨vm, nextAllocationId⟩,
        ⟨⟨vm, nextAllocationId⟩, nextAllocationId⟩, false, n, n⟩]) modules queues dispatches := by
  obtain ⟨hallocation, hmapping, byteLen, gpuVa, access, rfl⟩ := hprovisions
  exact { h with
    valid := hvalid
    handles := { h.handles.advance with buffers := h.handles.buffers.append rfl }
    holdings := by
      apply (h.holdings.provision hallocation hmapping).perm
      apply List.Perm.symm
      simp only [holdingsOf, append_assoc _ _ (queues.map _)]
      exact perm_map_append [] _ Outline.holding buffers _
    contents := by
      refine forall_mem_append_new h.contents ?_
      exact ⟨rfl, nofun⟩
    total := by
      rw [map_append, sum_append, h.total]
      rfl
    dispatchesFit := h.dispatchesFit.mono fun _ _ hfits =>
      hfits.buffersKept fun _ buffer hbuffer => ⟨buffer, getElem?_append_of_some hbuffer, rfl⟩
    arguments := by
      intro dispatch hmem
      refine (h.arguments dispatch hmem).appendBuffer (h.retained_lt hmem) fun hnames => ?_
      exact (h.names_issued hmem hnames).ne_next rfl }

theorem addModule {loadPlanId artifactId : IdentityDigest} {new : ModuleRecord}
    (hprovisions : Provisions model vm nextAllocationId provided)
    (hloaded : provided.loadCode ⟨vm, nextOrdinal⟩ loadPlanId artifactId
      ⟨⟨vm, nextAllocationId⟩, nextAllocationId⟩ 0 = .ok next)
    (hvalid : next.Valid)
    (hnew : new = ⟨⟨config.runtimeIdentity, nextOrdinal⟩, ⟨vm, nextAllocationId⟩,
      ⟨⟨vm, nextAllocationId⟩, nextAllocationId⟩, ⟨vm, nextOrdinal⟩, new.module, false⟩) :
    Coherent config next vm (nextOrdinal + 1) (nextAllocationId + 1) total buffers
    (modules ++ [new])
      queues dispatches := by
  obtain ⟨hallocation, hmapping, byteLen, gpuVa, access, rfl⟩ := hprovisions
  obtain ⟨-, hcode, -, -, -, rfl⟩ := loadCode_eq_ok.mp hloaded
  exact { h with
    valid := hvalid
    handles := { h.handles.advance with modules := h.handles.modules.append (by rw [hnew]) }
    holdings := by
      apply (h.holdings.provision hallocation hmapping).perm
      apply List.Perm.symm
      rw [hnew]
      exact perm_map_append _ _ ModuleRecord.holding modules _
    modulesFit := by
      rw [hnew]
      exact h.modulesFit.append hcode rfl ⟨rfl, rfl, rfl⟩
    dispatchesFit := h.dispatchesFit.mono fun _ _ hfits => { hfits with
      module := hfits.module.imp fun _ => .imp_left (mem_append_left _) } }

theorem addQueue {planId : IdentityDigest} {capacity : Nat} {new : QueueRecord}
    (hprovisions : Provisions model vm nextAllocationId provided)
    (hcreated : provided.createQueue ⟨vm, nextOrdinal, 1⟩ planId
      ⟨⟨vm, nextAllocationId⟩, nextAllocationId⟩ capacity = .ok next)
    (hvalid : next.Valid)
    (hnew : new = ⟨⟨config.runtimeIdentity, nextOrdinal⟩, ⟨vm, nextAllocationId⟩,
      ⟨⟨vm, nextAllocationId⟩, nextAllocationId⟩, ⟨vm, nextOrdinal, 1⟩, false, false⟩) :
    Coherent config next vm (nextOrdinal + 1) (nextAllocationId + 1) total buffers modules
      (queues ++ [new]) dispatches := by
  obtain ⟨hallocation, hmapping, byteLen, gpuVa, access, rfl⟩ := hprovisions
  obtain ⟨-, hqueue, -, -, -, -, -, rfl⟩ := createQueue_eq_ok.mp hcreated
  exact { h with
    valid := hvalid
    handles := { h.handles.advance with queues := h.handles.queues.append (by rw [hnew]) }
    holdings := by
      apply (h.holdings.provision hallocation hmapping).perm
      apply List.Perm.symm
      have hperm := perm_map_append (buffers.map Outline.holding ++
        modules.map ModuleRecord.holding) [] QueueRecord.holding queues new
      rw [append_nil, append_nil, hnew] at hperm
      rw [hnew]
      exact hperm
    queuesFit := by
      rw [hnew]
      exact h.queuesFit.append hqueue rfl ⟨rfl, rfl, rfl⟩
    dispatchesFit := h.dispatchesFit.mono fun _ _ hfits => { hfits with
      queue := hfits.queue.imp fun _ => .imp_left (mem_append_left _) }
    ready := by
      intro dispatch hmem hprepared queue hqueue hsame
      obtain hqueue | hqueue := mem_append.mp hqueue
      · exact h.ready dispatch hmem hprepared queue hqueue hsame
      · obtain rfl := mem_singleton.mp hqueue
        rw [hnew]
        exact ⟨rfl, rfl⟩ }

/-- A dispatch is submitted to a queue that accepts it. -/
theorem submit {new : DispatchRecordLocal} {queue : QueueRecord} {resources : List DispatchResource}
    (hprepared : model.prepareDispatch ⟨queue.queue, nextOrdinal⟩ module.code
      ⟨⟨queue.queue, nextOrdinal⟩, nextOrdinal⟩ resources = .ok next)
    (hvalid : next.Valid)
    (hnew : Admitted config.runtimeIdentity nextOrdinal modules queues dispatches queue module new)
    (hresources : ∀ resource ∈ resources, ∃ index ∈ new.retainedBuffers, ∃ buffer,
      buffers[index]? = some buffer ∧ buffer.mapping = resource.mapping)
    (hretained : ∀ index ∈ new.retainedBuffers, ∃ buffer, buffers[index]? = some buffer ∧
      ∃ resource ∈ resources, resource.mapping = buffer.mapping)
    (harguments : ArgumentsFit buffers new) :
    Coherent config next vm (nextOrdinal + 1) nextAllocationId total buffers modules queues
      (dispatches ++ [new]) := by
  obtain ⟨-, -, hfresh, -, -, -, -, -, -, -, -, -, rfl⟩ := prepareDispatch_eq_ok.mp hprepared
  exact { h with
    valid := hvalid
    handles := { h.handles.advance with dispatches := h.handles.dispatches.append hnew.completion }
    dispatchesFit := by
      have hkey : new.key = _ := congrArg CompletionKey.dispatch hnew.modelCompletion
      exact h.dispatchesFit.append (by rwa [hkey]) hkey.symm ⟨hnew.modelCompletion.symm,
        by rw [hnew.state]; rfl, by rw [hkey, hnew.completion],
        ⟨queue, hnew.onQueue.1, hnew.onQueue.2, by rw [hkey]⟩,
        ⟨module, hnew.ofModule.1, hnew.ofModule.2, rfl⟩, hresources, hretained⟩
    ready := by
      intro dispatch hmem hstate other hother hhandle
      obtain hmem | hmem := mem_append.mp hmem
      · exact h.ready dispatch hmem hstate other hother hhandle
      · obtain rfl := mem_singleton.mp hmem
        rw [eq_of_same_key h.handles.queues.distinct hother hnew.onQueue.1
          (hhandle.trans hnew.onQueue.2.symm)]
        exact hnew.live
    arguments := by
      refine forall_mem_append_new h.arguments ?_
      exact harguments
    dependencies := by
      intro dispatch hmem
      have hmono : ∀ handle ∈ dispatches.map DispatchRecordLocal.completion,
          handle ∈ (dispatches ++ [new]).map DispatchRecordLocal.completion := by
        intro handle hhandle
        rw [map_append]
        exact mem_append_left _ hhandle
      obtain hmem | hmem := mem_append.mp hmem
      · obtain ⟨hearlier, hsorted⟩ := h.dependencies dispatch hmem
        refine ⟨fun dependency hdependency => ?_, hsorted⟩
        exact (hearlier dependency hdependency).imp_right (hmono dependency)
      · obtain rfl := mem_singleton.mp hmem
        refine ⟨fun dependency hdependency => ?_, hnew.ascending⟩
        rw [hnew.completion]
        exact (hnew.dependencies dependency hdependency).imp_right (hmono dependency)
    fewDispatches := length_append_le hnew.few }

/-! ### Released records -/

theorem releaseBuffer (hbuffer : buffers[i]? = some buffer) (hvalid : next.Valid)
    (hnext : next =
      (model.setMapping buffer.mapping .released).setAllocation buffer.allocation .released) :
    Coherent config next vm nextOrdinal nextAllocationId (total - buffer.byteLen)
      (buffers.modify i Outline.release) modules queues dispatches := by
  subst hnext
  obtain ⟨rest, hperm, hchanged⟩ := perm_map_modify [] (modules.map ModuleRecord.holding ++
    queues.map QueueRecord.holding) Outline.holding hbuffer
  simp only [nil_append, ← append_assoc] at hperm hchanged
  exact { h with
    valid := hvalid
    handles := { h.handles with buffers := h.handles.buffers.modify fun _ => rfl }
    holdings := (h.holdings.perm hperm).release.perm (hchanged Outline.release).symm
    contents := by
      intro other hother
      obtain ⟨hother, -⟩ | rfl := mem_modify h.handles.buffers.distinct hbuffer hother
      · exact h.contents other hother
      · exact ⟨rfl, fun _ => rfl⟩
    total := by
      have hsum : ((buffers.modify i Outline.release).map Outline.byteLen).sum + buffer.byteLen =
        (buffers.map Outline.byteLen).sum + 0 := sum_map_modify hbuffer
      rw [h.total]
      omega
    dispatchesFit := by
      refine h.dispatchesFit.mono fun dispatch record hfits => ?_
      refine hfits.buffersKept fun _ _ hbuffer => ?_
      obtain ⟨image, himage, rfl | ⟨-, rfl⟩⟩ := exists_getElem?_modify hbuffer i
      · exact ⟨_, himage, rfl⟩
      · exact ⟨_, himage, rfl⟩
    arguments := by
      intro dispatch hdispatch
      exact (h.arguments dispatch hdispatch).modifyBuffer (fun _ => rfl) fun _ hlive =>
        nomatch hlive }

theorem releaseModule (hmodule : modules[i]? = some module) (hvalid : next.Valid)
    (hnext : next = ((model.setCode module.code .released).setMapping module.mapping
      .released).setAllocation module.allocation .released) :
    Coherent config next vm nextOrdinal nextAllocationId total buffers
      (modules.modify i fun module => { module with released := true }) queues dispatches := by
  subst hnext
  obtain ⟨rest, hperm, hchanged⟩ := perm_map_modify (buffers.map Outline.holding)
    (queues.map QueueRecord.holding) ModuleRecord.holding hmodule
  exact { h with
    valid := hvalid
    handles := { h.handles with modules := h.handles.modules.modify fun _ => rfl }
    holdings := (h.holdings.perm hperm).release.perm
      (hchanged fun module => { module with released := true }).symm
    modulesFit := h.modulesFit.modify h.codes_distinct hmodule rfl fun _ hfits =>
      { hfits with state := rfl }
    dispatchesFit := by
      refine h.dispatchesFit.mono fun dispatch record hfits => ?_
      obtain ⟨module, hmem, hmodule⟩ := hfits.module
      obtain ⟨image, himage, rfl | rfl⟩ := exists_mem_modify hmem i
      · exact { hfits with module := ⟨_, himage, hmodule⟩ }
      · exact { hfits with module := ⟨_, himage, hmodule⟩ } }

variable {queue : QueueRecord}

/-- A queue without prepared dispatches changes its state, in both tables. -/
theorem moveQueue {f : QueueRecord → QueueRecord} (hqueue : queues[i]? = some queue)
    (hf : ∀ queue, f queue = { queue with
      quiescent := (f queue).quiescent, released := (f queue).released })
    (hidle : ∀ dispatch ∈ dispatches, dispatch.queue = queue.handle → dispatch.state ≠ .prepared)
    (hvalid : next.Valid)
    (hnext : next = { model.setQueue queue.queue (f queue).modelState with
      allocations := next.allocations, mappings := next.mappings })
    (hholdings : HoldingsFit vm nextAllocationId next.allocations next.mappings
      (holdingsOf buffers modules (queues.modify i f))) :
    Coherent config next vm nextOrdinal nextAllocationId total buffers modules (queues.modify i f)
      dispatches := by
  have hhandle : ∀ queue, (f queue).handle = queue.handle := fun queue => by rw [hf]
  have hkey : ∀ queue, (f queue).queue = queue.queue := fun queue => by rw [hf]
  generalize next.allocations = allocations at *
  generalize next.mappings = mappings at *
  subst hnext
  exact { h with
    valid := hvalid
    handles := { h.handles with queues := h.handles.queues.modify hhandle }
    holdings := hholdings
    queuesFit := by
      refine h.queuesFit.modify h.queues_distinct hqueue (hkey queue) fun record hfits =>
        ⟨?_, ?_, rfl⟩
      · rw [hkey, hhandle]
        exact hfits.key
      · rw [hf]
        exact hfits.mapping
    dispatchesFit := by
      refine h.dispatchesFit.mono fun dispatch record hfits => ?_
      obtain ⟨queue, hmem, hsame, hqueue⟩ := hfits.queue
      obtain ⟨image, himage, rfl | rfl⟩ := exists_mem_modify (f := f) hmem i
      · exact { hfits with queue := ⟨_, himage, hsame, hqueue⟩ }
      · exact { hfits with
          queue := ⟨_, himage, (hhandle _).trans hsame, (hkey _).trans hqueue⟩ }
    ready := by
      intro dispatch hdispatch hprepared other hother hsame
      obtain ⟨hother, -⟩ | rfl := mem_modify h.handles.queues.distinct hqueue hother
      · exact h.ready dispatch hdispatch hprepared other hother hsame
      · rw [hhandle] at hsame
        exact absurd hprepared (hidle dispatch hdispatch hsame.symm) }

theorem quiesceQueue (hqueue : queues[i]? = some queue) (hlive : queue.released = false)
    (hidle : ∀ dispatch ∈ dispatches, dispatch.queue = queue.handle → dispatch.state ≠ .prepared)
    (hvalid : next.Valid) (hnext : next = model.setQueue queue.queue .quiescent) :
    Coherent config next vm nextOrdinal nextAllocationId total buffers modules
      (queues.modify i fun queue => { queue with quiescent := true }) dispatches := by
  subst hnext
  have hsame : holdingsOf buffers modules (queues.modify i fun queue =>
      { queue with quiescent := true }) = holdingsOf buffers modules queues := by
    unfold holdingsOf
    congr 1
    exact map_modify_of_eq fun _ => rfl
  have hstate : QueueRecord.modelState { queue with quiescent := true } = .quiescent := by
    simp [QueueRecord.modelState, hlive]
  refine h.moveQueue hqueue (fun _ => rfl) hidle hvalid (by rw [hstate]) ?_
  rw [hsame]
  exact h.holdings

theorem releaseQueue (hqueue : queues[i]? = some queue)
    (hidle : ∀ dispatch ∈ dispatches, dispatch.queue = queue.handle → dispatch.state ≠ .prepared)
    (hvalid : next.Valid)
    (hnext : next = ((model.setQueue queue.queue .released).setMapping queue.mapping
      .released).setAllocation queue.allocation .released) :
    Coherent config next vm nextOrdinal nextAllocationId total buffers modules
      (queues.modify i fun queue => { queue with released := true }) dispatches := by
  subst hnext
  obtain ⟨rest, hperm, hchanged⟩ := perm_map_modify
    (buffers.map Outline.holding ++ modules.map ModuleRecord.holding) [] QueueRecord.holding hqueue
  simp only [append_nil] at hperm hchanged
  refine h.moveQueue hqueue (fun _ => rfl) hidle hvalid rfl ?_
  exact (h.holdings.perm hperm).release.perm
    (hchanged fun queue => { queue with released := true }).symm

end Coherent

end

end Fe2o3.Virtual
