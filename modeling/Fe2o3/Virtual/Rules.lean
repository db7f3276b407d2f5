import Fe2o3.Virtual.Acceptance

/-!
# Rules for the parts of the calls

Indices, handles, transitions of the model, provisions and retentions, each as it is
used under the invariant.
-/

namespace Fe2o3.Virtual

open Lib KernelIr RuntimeModel Command List

variable {kind : HandleKind} {Q : Unit → VirtualRuntime → Prop} {provision : Provision}
  {offset : Nat}

namespace VirtualRuntime

variable {α : Type} {runtime : VirtualRuntime} {i : Nat}
  {E : VirtualRuntimeError → VirtualRuntime → Prop} {P : Prop}

/-! ### Rejection -/

/-- The call fails and changes nothing. -/
def Rejects (call : Action α) (runtime : VirtualRuntime) : Prop :=
  ∃ error, call runtime = .failed error runtime

theorem Rejects.bind {β : Type} {x : Action α} {f : α → Action β} (h : Rejects x runtime) :
    Rejects (x >>= f) runtime := by
  obtain ⟨error, hx⟩ := h
  exact ⟨error, bind_of_failed hx⟩

theorem Rejects.map {β : Type} {x : Action α} {f : α → β} (h : Rejects x runtime) :
    Rejects (f <$> x) runtime :=
  h.bind

theorem Rejects.refuse {f : Unit → Action α} {condition : Bool} {error : VirtualRuntimeError}
    (h : Rejects (f ()) runtime) : Rejects (Command.refuse condition error >>= f) runtime := by
  cases condition with
  | true => exact ⟨error, rfl⟩
  | false => exact h

/-- A call that can neither succeed nor change anything. -/
theorem rejects_of_meets {x : Action α}
    (h : Meets x (fun _ _ => False) (fun _ next => next = runtime) False runtime) :
    Rejects x runtime := by
  obtain ⟨_, _, _, hfalse⟩ | ⟨error, next, hx, rfl⟩ | ⟨_, hfalse⟩ := h.outcomes
  · exact hfalse.elim
  · exact ⟨error, hx⟩
  · exact hfalse.elim

/-! ### Indices -/

theorem indexOf_eq_ok {handles : List (Handle kind)} {handle : Handle kind} :
    runtime.indexOf handles handle = .ok i ↔
      handle.runtimeIdentity = runtime.config.runtimeIdentity ∧
        handles.findIdx? (· == handle) = some i := by
  unfold indexOf validateHandle
  by_cases hidentity : handle.runtimeIdentity = runtime.config.runtimeIdentity
  · exact (seq_eq_ok.trans (by simp [hidentity]))
  · rw [if_pos hidentity]
    constructor
    · intro h
      nomatch h
    · intro h
      exact absurd h.1 hidentity

/-- A handle of the table is found. -/
theorem exists_indexOf {handles : List (Handle kind)} {handle : Handle kind}
    (hidentity : handle.runtimeIdentity = runtime.config.runtimeIdentity)
    (hmem : handle ∈ handles) : ∃ i, runtime.indexOf handles handle = .ok i := by
  cases hfound : handles.findIdx? (· == handle) with
  | none =>
    have hnone := findIdx?_eq_none_iff.mp hfound handle hmem
    exact absurd hnone (by simp)
  | some i => exact ⟨i, indexOf_eq_ok.mpr ⟨hidentity, hfound⟩⟩

theorem record_of_indexOf {ρ : Type} {table : List ρ} {handleOf : ρ → Handle kind}
    {handle : Handle kind} (h : runtime.indexOf (table.map handleOf) handle = .ok i) :
    ∃ record, table[i]? = some record ∧ handleOf record = handle := by
  obtain ⟨-, hfound⟩ := indexOf_eq_ok.mp h
  obtain ⟨hlt, hbeq, -⟩ := findIdx?_eq_some_iff_getElem.mp hfound
  rw [← Option.map_eq_some_iff, ← getElem?_map, getElem?_eq_getElem hlt, eq_of_beq hbeq]

/-! ### Records -/

section

variable {ρ : Type} {table : VirtualRuntime → List ρ} {record : ρ}

theorem meets_recordAt {Q : ρ → VirtualRuntime → Prop} (h : (table runtime)[i]? = some record) :
    Meets (recordAt table i) Q E P runtime ↔ Q record runtime := by
  unfold recordAt
  rw [meets_bind, meets_read, meets_expect, h]
  simp

/-- A handle finds a record of its table, or the call fails. -/
theorem meets_bind_recordAt {α : Type} {handleOf : ρ → Handle kind} {handle : Handle kind}
    {f : Nat → ρ → Action α} {Q : α → VirtualRuntime → Prop}
    (hfound : ∀ i record, (table runtime)[i]? = some record → handleOf record = handle →
      Meets (f i record) Q E P runtime)
    (hfail : ∀ error, E error runtime) :
    Meets (lift (runtime.indexOf ((table runtime).map handleOf) handle) >>= fun index =>
      recordAt table index >>= f index) Q E P runtime := by
  refine meets_bind_lift (fun i hindex => ?_) fun error _ => hfail error
  obtain ⟨record, hrecord, hhandle⟩ := record_of_indexOf hindex
  rw [meets_bind, meets_recordAt hrecord]
  exact hfound i record hrecord hhandle

end

/-- The host reaches a buffer that is not released and not held. -/
theorem meets_hostAccessibleBufferIndex {handle : VirtualBufferHandle}
    {Q : Nat → VirtualRuntime → Prop}
    (hdone : ∀ i buffer, runtime.buffers[i]? = some buffer → buffer.handle = handle →
      buffer.released = false → buffer.retainedDispatches = 0 → Q i runtime)
    (hfail : ∀ error, E error runtime) :
    Meets (hostAccessibleBufferIndex handle) Q E P runtime := by
  unfold hostAccessibleBufferIndex
  refine meets_bind_recordAt (fun i buffer hbuffer hhandle => ?_) fun error => hfail error
  refine meets_bind_refuse (fun _ => hfail _) fun hreleased => ?_
  refine meets_bind_refuse (fun _ => hfail _) fun hretained => ?_
  exact hdone i buffer hbuffer hhandle hreleased (by simpa using hretained)

/-! ### Handles -/

/-- A handle takes the next ordinal; the ordinals can run out. -/
theorem meets_newHandle {Q : Handle kind → VirtualRuntime → Prop}
    (hdone : runtime.nextOrdinal + 1 < 2 ^ 64 →
      Q ⟨runtime.config.runtimeIdentity, runtime.nextOrdinal⟩
        { runtime with nextOrdinal := runtime.nextOrdinal + 1 })
    (hpanic : 2 ^ 64 ≤ runtime.nextOrdinal + 1 → P) : Meets (newHandle kind) Q E P runtime := by
  unfold newHandle takeOrdinal
  rw [meets_bind, meets_bind, meets_read, meets_bind, meets_expect]
  refine ⟨fun next hnext => ?_, fun hnone => hpanic (checkedAdd_eq_none.mp hnone)⟩
  obtain ⟨rfl, hlt⟩ := checkedAdd_eq_some.mp hnext
  exact hdone hlt

/-! ### The model -/

theorem meets_advanceModel {transitions : List RuntimeTransition} (hvalid : runtime.model.Valid)
    (hdone : ∀ next, Accepts runtime.model transitions next →
      Q () { runtime with model := next })
    (hfail : (∀ next, ¬ Accepts runtime.model transitions next) → ∀ error, E error runtime) :
    Meets (advanceModel transitions) Q E P runtime := by
  unfold advanceModel
  rw [meets_bind, meets_read, meets_bind, meets_lift, nextEach_eq_foldlM hvalid]
  refine ⟨fun next hnext => hdone next (fromModel_eq_ok.mp hnext), fun error herror => ?_⟩
  refine hfail (fun next haccepts => ?_) error
  rw [fromModel_eq_ok.mpr haccepts] at herror
  nomatch herror

/-- Provisioning a mapping for the next allocation id. -/
theorem provisionMapping_eq_ok {byteLen : Nat} {access : MemoryAccess}
    (hvalid : runtime.model.Valid) (h : runtime.provisionMapping byteLen access i = .ok provision) :
    provision.allocation = ⟨runtime.vm, i⟩ ∧ provision.mapping = ⟨⟨runtime.vm, i⟩, i⟩ ∧
      Provisions runtime.model runtime.vm i provision.model ∧ provision.model.Valid := by
  simp only [provisionMapping, bind_eq_ok, nextEach_eq_foldlM hvalid, fromModel_eq_ok,
    pure_eq_ok] at h
  obtain ⟨stop, -, nextVa, -, next, hnext, rfl⟩ := h
  obtain ⟨middle, hallocate, hmap⟩ := accepts_cons.mp hnext
  obtain ⟨-, hallocation, -, -, rfl⟩ := RuntimeState.allocate_eq_ok.mp hallocate
  obtain ⟨-, hmapping, -, -, -, hmodel⟩ := RuntimeState.map_eq_ok.mp (accepts_one.mp hmap)
  exact ⟨rfl, rfl, ⟨hallocation, hmapping, byteLen, _, access, hmodel.symm⟩,
    Accepts.valid hnext hvalid⟩

/-- The ids of allocations do not run out. -/
theorem meets_commitProvision {model : RuntimeState} (hid : runtime.nextAllocationId + 1 < 2 ^ 64)
    (hdone : Q () { runtime with
      model := model
      nextVa := provision.nextVa
      nextAllocationId := runtime.nextAllocationId + 1 }) :
    Meets (commitProvision provision model) Q E P runtime := by
  unfold commitProvision
  rw [meets_bind, meets_read, meets_bind, meets_expect]
  refine ⟨fun next hnext => ?_, fun hnone => ?_⟩
  · obtain ⟨rfl, -⟩ := checkedAdd_eq_some.mp hnext
    exact hdone
  · exact absurd (checkedAdd_eq_none.mp hnone) (Nat.not_le.mpr hid)

theorem Inv.nextAllocationId_lt (h : runtime.Inv) : runtime.nextAllocationId + 1 < 2 ^ 64 := by
  have hbound := h.coherent.valid.bounded.allocations
  have hids := h.coherent.holdings.ids
  simp only [maxAllocations] at hbound
  simp only [firstUserAllocationId] at hids
  omega

/-! ### Overwriting -/

theorem length_overwrite {new old : List α} : (overwrite offset new old).length = old.length := by
  unfold overwrite
  rw [length_mapIdx]

theorem getElem?_overwrite {p : Nat} {new old : List α} {a : α}
    (h : (overwrite offset new old)[p]? = some a) :
    old[p]? = some a ∨ offset ≤ p ∧ new[p - offset]? = some a := by
  unfold overwrite at h
  rw [getElem?_mapIdx, Option.map_eq_some_iff] at h
  obtain ⟨x, hx, ha⟩ := h
  by_cases hle : offset ≤ p
  · rw [if_pos hle] at ha
    cases hnew : new[p - offset]? with
    | none =>
      rw [hnew] at ha
      exact .inl (hx.trans (congrArg some ha))
    | some b =>
      rw [hnew] at ha
      exact .inr ⟨hle, congrArg some ha⟩
  · rw [if_neg hle] at ha
    exact .inl (hx.trans (congrArg some ha))

end VirtualRuntime

end Fe2o3.Virtual
