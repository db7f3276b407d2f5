import Fe2o3.RuntimeModel.Validity
import Fe2o3.RuntimeModel.Guards

/-!
# Every accepted transition leads to a valid state

A transition either appends a record or assigns a lifecycle state.  For each table there
is one lemma about an assignment: it says which later records must already be released
or finished, and these are the guards of the source.  The checks that `nextAll` makes on
every state of a batch therefore never fail.
-/

namespace Fe2o3.RuntimeModel

open Lib
open List hiding lookup

variable {byteLen : Nat} {condition : Bool} {error : TransitionError} {α : Type}

namespace RuntimeState

variable {state next : RuntimeState}

section

variable (h : state.Valid)
include h

/-! ### Assignments of a lifecycle state -/

theorem Valid.setDevice {key : DeviceKey} {value : DeviceState} {record : DeviceRecord}
    (hfound : lookup DeviceRecord.key key state.devices = some record)
    (hkeep : record.state = .released → value = .released)
    (hvms : value = .released → ∀ vm ∈ state.vms, vm.key.device = key → vm.state = .released) :
    (state.setDevice key value).Valid :=
  { h with
    bounded := { h.bounded with devices := length_amend.trans_le h.bounded.devices }
    deviceKeys := distinctKeys_amend (fun _ => rfl) h.deviceKeys
    devices := by
      intro device hdevice other hother hphysical hlt
      obtain ⟨old, hold, hkey⟩ := exists_old_of_mem_amend hdevice (fun _ => rfl)
      obtain ⟨hother, -⟩ | ⟨found, hlookup, rfl⟩ := mem_amend h.deviceKeys hother
      · exact h.devices old hold other hother (hkey ▸ hphysical) (hkey ▸ hlt)
      · cases hfound.symm.trans hlookup
        exact hkeep (h.devices old hold record (lookup_mem hlookup) (hkey ▸ hphysical) (hkey ▸ hlt))
    vms := by
      intro vm hvm
      obtain ⟨device, hdevice, hout⟩ := h.vms vm hvm
      exact found_amend hdevice (fun hsame => ⟨device, hsame, hout⟩)
        fun hkey hnew => ⟨_, hnew, fun hvalue => hvms hvalue vm hvm hkey⟩ }

theorem Valid.setVm {key : VmKey} {value : VmState} {record : VmRecord}
    (hfound : lookup VmRecord.key key state.vms = some record)
    (hkeep : record.state = .released → value = .released)
    (hallocations : value = .released → ∀ allocation ∈ state.allocations,
      allocation.key.vm = key → allocation.state = .released) :
    (state.setVm key value).Valid :=
  { h with
    bounded := { h.bounded with vms := length_amend.trans_le h.bounded.vms }
    vmKeys := distinctKeys_amend (fun _ => rfl) h.vmKeys
    vms := by
      refine forall_mem_amend h.vms fun old hold ⟨device, hdevice, hout⟩ => ?_
      cases hfound.symm.trans hold
      exact ⟨device, hdevice, fun hreleased => hkeep (hout hreleased)⟩
    allocations := by
      intro allocation hallocation
      obtain ⟨vm, hvm, hlen, hout⟩ := h.allocations allocation hallocation
      exact found_amend hvm (fun hsame => ⟨vm, hsame, hlen, hout⟩)
        fun hkey hnew => ⟨_, hnew, hlen, fun hvalue => hallocations hvalue allocation
          hallocation hkey⟩ }

theorem Valid.releaseAllocation {key : AllocationKey}
    (hmappings : ∀ mapping ∈ state.mappings, mapping.key.allocation = key →
      mapping.state = .released) : (state.setAllocation key .released).Valid :=
  { h with
    bounded := { h.bounded with allocations := length_amend.trans_le h.bounded.allocations }
    allocationKeys := distinctKeys_amend (fun _ => rfl) h.allocationKeys
    allocations := forall_mem_amend h.allocations fun _ _ ⟨vm, hvm, hlen, _⟩ =>
      ⟨vm, hvm, hlen, fun _ => rfl⟩
    mappings := by
      intro mapping hmapping
      obtain ⟨allocation, hallocation, hrange, hout⟩ := h.mappings mapping hmapping
      exact found_amend hallocation (fun hsame => ⟨allocation, hsame, hrange, hout⟩)
        fun hkey hnew => ⟨_, hnew, hrange, fun _ => hmappings mapping hmapping hkey⟩ }

/-- A mapping is only ever released, and only when nothing that is live uses it. -/
theorem Valid.releaseMapping {key : MappingKey}
    (hcode : ∀ code ∈ state.loadedCode, code.executableMapping = key → code.state ≠ .live)
    (hqueues : ∀ queue ∈ state.queues, queue.ringMapping = key → queue.state = .released)
    (hdispatches : ∀ dispatch ∈ state.dispatches, dispatch.state.retainsResources = true →
      ∀ resource ∈ dispatch.resources, resource.mapping ≠ key) :
    (state.setMapping key .released).Valid :=
  { h with
    bounded := { h.bounded with mappings := length_amend.trans_le h.bounded.mappings }
    mappingKeys := distinctKeys_amend (fun _ => rfl) h.mappingKeys
    mappings := by
      refine forall_mem_amend h.mappings fun old _ ⟨allocation, hallocation, hrange, _⟩ => ?_
      exact ⟨allocation, hallocation, hrange, fun _ => rfl⟩
    apart := by
      apply pairwise_amend h.apart
      · intro old other _ _ _ hreleased
        nomatch hreleased
      · intro old other _ _ hreleased
        nomatch hreleased
    loadedCode := by
      intro code hmem
      obtain ⟨mapping, hmapping, hbound, hentry, hlive⟩ := h.loadedCode code hmem
      exact found_amend hmapping (fun hsame => ⟨mapping, hsame, hbound, hentry, hlive⟩)
        fun hkey hnew => ⟨_, hnew, hbound, hentry,
          fun hstate => absurd hstate (hcode code hmem hkey)⟩
    queues := by
      intro queue hmem
      obtain ⟨mapping, hmapping, hbound, hcapacity, hring, hlive⟩ := h.queues queue hmem
      exact found_amend hmapping (fun hsame => ⟨mapping, hsame, hbound, hcapacity, hring, hlive⟩)
        fun hkey hnew => ⟨_, hnew, hbound, hcapacity, hring,
          fun hstate => absurd (hqueues queue hmem hkey) hstate⟩
    dispatches := by
      intro dispatch hmem
      obtain ⟨queue, code, completion, hfits⟩ := h.dispatches dispatch hmem
      refine ⟨queue, code, completion,
        { hfits with resourcesKept := fun hretains resource hres => ?_ }⟩
      obtain ⟨mapping, hmapping, hbound, hlive, hpermits⟩ :=
        hfits.resourcesKept hretains resource hres
      exact found_amend hmapping (fun hsame => ⟨mapping, hsame, hbound, hlive, hpermits⟩)
        fun hkey _ => absurd hkey (hdispatches dispatch hmem hretains resource hres) }

theorem Valid.releaseCode {key : LoadedCodeKey}
    (hdispatches : ∀ dispatch ∈ state.dispatches, dispatch.code = key →
      dispatch.state.retainsResources = false) :
    (state.setCode key .released).Valid :=
  { h with
    bounded := { h.bounded with loadedCode := length_amend.trans_le h.bounded.loadedCode }
    codeKeys := distinctKeys_amend (fun _ => rfl) h.codeKeys
    loadedCode := by
      refine forall_mem_amend h.loadedCode fun old _ ⟨mapping, hmapping, hbound, hentry, _⟩ => ?_
      exact ⟨mapping, hmapping, hbound, hentry, fun hstate => by nomatch hstate⟩
    dispatches := by
      intro dispatch hmem
      obtain ⟨queue, code, completion, hfits⟩ := h.dispatches dispatch hmem
      refine found_amend hfits.codeFound
        (fun hsame => ⟨queue, code, completion, { hfits with codeFound := hsame }⟩)
        fun hkey hnew => ⟨queue, _, completion,
          { hfits with codeFound := hnew, codeKept := fun hretains => ?_ }⟩
      rw [hdispatches dispatch hmem hkey] at hretains
      nomatch hretains }

variable {key : QueueKey}

theorem Valid.setQueue {value : QueueState} {record : QueueRecord}
    (hfound : lookup QueueRecord.key key state.queues = some record)
    (hkeep : record.state = .released → value = .released)
    (hdispatches : value = .released → ∀ dispatch ∈ state.dispatches, dispatch.key.queue = key →
      dispatch.state.retainsResources = false) :
    (state.setQueue key value).Valid :=
  { h with
    bounded := { h.bounded with queues := length_amend.trans_le h.bounded.queues }
    queueKeys := distinctKeys_amend (fun _ => rfl) h.queueKeys
    queues := by
      refine forall_mem_amend h.queues fun old hold ⟨mapping, hfits⟩ => ?_
      cases hfound.symm.trans hold
      exact ⟨mapping, { hfits with
        writable := fun hstate => hfits.writable fun hreleased => hstate (hkeep hreleased) }⟩
    dispatches := by
      intro dispatch hmem
      obtain ⟨queue, code, completion, hfits⟩ := h.dispatches dispatch hmem
      refine found_amend hfits.queueFound
        (fun hsame => ⟨queue, code, completion, { hfits with queueFound := hsame }⟩)
        fun hkey hnew => ⟨_, code, completion,
          { hfits with queueFound := hnew, queueKept := fun hretains hvalue => ?_ }⟩
      rw [hdispatches hvalue dispatch hmem hkey] at hretains
      nomatch hretains
    subscribed := forall_mem_amend h.subscribed fun _ _ hactive => hactive }

variable {completion : CompletionKey}

/-- A dispatch and its completion move together to states that agree. -/
theorem Valid.moveDispatch {fromDispatch toDispatch : DispatchState}
    {fromCompletion toCompletion : CompletionState}
    (hawaits : state.Awaits completion fromDispatch fromCompletion)
    (hretains : toDispatch.retainsResources = true → fromDispatch.retainsResources = true)
    (hagrees : completionMatches toDispatch toCompletion = true) :
    ((state.setDispatch completion.dispatch toDispatch).setCompletion completion
      toCompletion).Valid := by
  obtain ⟨⟨moved, hmoved, hcompletion, hfrom⟩, record, hrecord, -⟩ := hawaits
  exact { h with
    bounded := { h.bounded with
      dispatches := length_amend.trans_le h.bounded.dispatches
      completions := length_amend.trans_le h.bounded.completions }
    dispatchKeys := distinctKeys_amend (fun _ => rfl) h.dispatchKeys
    dispatches := by
      intro dispatch hmem
      obtain ⟨hmem, hother⟩ | ⟨old, hold, rfl⟩ := mem_amend h.dispatchKeys hmem
      · obtain ⟨queue, code, settled, hfits⟩ := h.dispatches dispatch hmem
        obtain ⟨-, hsame⟩ | ⟨hkey, -⟩ := lookup_amend_cases (k := completion)
          (f := fun r => { r with state := toCompletion }) (fun _ => rfl) hfits.completionFound
        · exact ⟨queue, code, settled, { hfits with completionFound := hsame }⟩
        · exact absurd (hfits.owner.symm.trans (congrArg CompletionKey.dispatch hkey)) hother
      · cases hmoved.symm.trans hold
        obtain ⟨queue, code, settled, hfits⟩ := h.dispatches moved (lookup_mem hmoved)
        have hkept : toDispatch.retainsResources = true → moved.state.retainsResources = true :=
          fun hto => hfrom ▸ hretains hto
        refine ⟨queue, code, { record with state := toCompletion }, ⟨hfits.queueFound,
          hfits.codeFound, ?_, hfits.bound, hfits.owner, hagrees, hfits.fewResources, hfits.ordered,
          fun hto => hfits.queueKept (hkept hto), fun hto => hfits.codeKept (hkept hto),
          fun hto resource hresource => ?_⟩⟩
        · rw [hcompletion]
          exact lookup_amend_self (fun _ => rfl) hrecord
        · obtain ⟨mapping, hfit⟩ := hfits.resourcesKept (hkept hto) resource hresource
          exact ⟨mapping, ⟨hfit.found, hfit.bound, hfit.live, hfit.permits⟩⟩
    completionKeys := distinctKeys_amend (fun _ => rfl) h.completionKeys
    completions := by
      intro settled hmem
      obtain ⟨old, hold, hkey⟩ := exists_old_of_mem_amend hmem (fun _ => rfl)
      obtain ⟨dispatch, hdispatch, howner, hcompletes⟩ := h.completions old hold
      have himage : ∃ found ∈ (state.setDispatch completion.dispatch toDispatch).dispatches,
          found = dispatch ∨ found = { dispatch with state := toDispatch } :=
        mem_amend_of_mem hdispatch
      obtain ⟨found, hfound, rfl | rfl⟩ := himage
      · exact ⟨found, hfound, hkey ▸ howner, hkey ▸ hcompletes⟩
      · exact ⟨_, hfound, hkey ▸ howner, hkey ▸ hcompletes⟩
    subscribed := by
      intro queue hmem
      refine le_trans (length_filter_amend_le fun dispatch hdispatch hactive => ?_)
        (h.subscribed queue hmem)
      cases hmoved.symm.trans hdispatch
      simp only [Bool.and_eq_true] at hactive ⊢
      exact ⟨hactive.1, hfrom ▸ hretains hactive.2⟩ }

/-! ### New records -/

theorem Valid.addDevice {key : DeviceKey}
    (haccepted : state.addDevice key = .ok next) : next.Valid := by
  obtain ⟨hroom, hfresh, hgenerations, rfl⟩ := addDevice_eq_ok.mp haccepted
  exact { h with
    bounded := { h.bounded with devices := length_append_le hroom }
    deviceKeys := distinctKeys_append h.deviceKeys hfresh
    devices := by
      intro device hdevice other hother hphysical hlt
      obtain hdevice | hdevice := mem_append.mp hdevice
      · obtain hother | hother := mem_append.mp hother
        · exact h.devices device hdevice other hother hphysical hlt
        · obtain rfl := mem_singleton.mp hother
          have hnewer := (hgenerations device hdevice hphysical.symm).2
          exact absurd hlt (Nat.lt_asymm hnewer)
      · obtain rfl := mem_singleton.mp hdevice
        obtain hother | hother := mem_append.mp hother
        · exact (hgenerations other hother hphysical).1
        · obtain rfl := mem_singleton.mp hother
          exact absurd hlt (Nat.lt_irrefl _)
    vms := by
      intro vm hvm
      obtain ⟨device, hfound, hout⟩ := h.vms vm hvm
      exact ⟨device, lookup_append_of_some hfound, hout⟩ }

theorem Valid.createVm {key : VmKey} (haccepted : state.createVm key = .ok next) : next.Valid := by
  obtain ⟨hroom, hfresh, ⟨device, hdevice, hready⟩, rfl⟩ := createVm_eq_ok.mp haccepted
  exact { h with
    bounded := { h.bounded with vms := length_append_le hroom }
    vmKeys := distinctKeys_append h.vmKeys hfresh
    vms := by
      refine forall_mem_append_new h.vms ?_
      refine ⟨device, hdevice, fun hreleased => ?_⟩
      nomatch hready.symm.trans hreleased
    allocations := by
      intro allocation hallocation
      obtain ⟨vm, hfound, hlen, hout⟩ := h.allocations allocation hallocation
      exact ⟨vm, lookup_append_of_some hfound, hlen, hout⟩ }

theorem Valid.allocate {key : AllocationKey} (haccepted : state.allocate key byteLen = .ok next) :
    next.Valid := by
  obtain ⟨hroom, hfresh, hlen, ⟨⟨vm, hvm, hactive⟩, -⟩, rfl⟩ := allocate_eq_ok.mp haccepted
  exact { h with
    bounded := { h.bounded with allocations := length_append_le hroom }
    allocationKeys := distinctKeys_append h.allocationKeys hfresh
    allocations := by
      refine forall_mem_append_new h.allocations ?_
      refine ⟨vm, hvm, hlen, fun hreleased => ?_⟩
      nomatch hactive.symm.trans hreleased
    mappings := by
      intro mapping hmapping
      obtain ⟨allocation, hfound, hrange, hout⟩ := h.mappings mapping hmapping
      exact ⟨allocation, lookup_append_of_some hfound, hrange, hout⟩ }

/-- A new mapping is found beside the old ones. -/
theorem Valid.map {key : MappingKey} {allocationOffset gpuVa : Nat} {access : MemoryAccess}
    (haccepted : state.map key allocationOffset gpuVa byteLen access = .ok next) : next.Valid := by
  obtain ⟨hroom, hfresh, -, ⟨allocation, hallocation, hlive, hrange⟩, hapart, rfl⟩ :=
    map_eq_ok.mp haccepted
  exact { h with
    bounded := { h.bounded with mappings := length_append_le hroom }
    mappingKeys := distinctKeys_append h.mappingKeys hfresh
    mappings := by
      refine forall_mem_append_new h.mappings ⟨allocation, hallocation, hrange, fun hreleased => ?_⟩
      nomatch hlive.symm.trans hreleased
    apart := by
      apply pairwise_append.mpr
      refine ⟨h.apart, pairwise_singleton .., fun record hrecord other hother => ?_⟩
      obtain rfl := mem_singleton.mp hother
      exact fun _ hstate hvm => hapart record hrecord hstate hvm
    loadedCode := by
      intro code hcode
      obtain ⟨mapping, hfits⟩ := h.loadedCode code hcode
      exact ⟨mapping, { hfits with found := lookup_append_of_some hfits.found }⟩
    queues := by
      intro queue hqueue
      obtain ⟨mapping, hfits⟩ := h.queues queue hqueue
      exact ⟨mapping, { hfits with found := lookup_append_of_some hfits.found }⟩
    dispatches := by
      intro dispatch hdispatch
      obtain ⟨queue, code, completion, hfits⟩ := h.dispatches dispatch hdispatch
      refine ⟨queue, code, completion,
        { hfits with resourcesKept := fun hretains resource hres => ?_ }⟩
      obtain ⟨mapping, hfit⟩ := hfits.resourcesKept hretains resource hres
      exact ⟨mapping, { hfit with found := lookup_append_of_some hfit.found }⟩ }

theorem Valid.loadCode {key : LoadedCodeKey} {loadPlanId artifactId : IdentityDigest}
    {executableMapping : MappingKey} {entryOffset : Nat}
    (haccepted : state.loadCode key loadPlanId artifactId executableMapping entryOffset =
      .ok next) :
    next.Valid := by
  obtain ⟨hroom, hfresh, -, ⟨mapping, hmapping, hlive, haccess, hentry⟩, hbound, rfl⟩ :=
    loadCode_eq_ok.mp haccepted
  exact { h with
    bounded := { h.bounded with loadedCode := length_append_le hroom }
    codeKeys := distinctKeys_append h.codeKeys hfresh
    loadedCode := by
      refine forall_mem_append_new h.loadedCode ?_
      exact ⟨mapping, hmapping, hbound, hentry, fun _ => ⟨hlive, haccess⟩⟩
    dispatches := by
      intro dispatch hdispatch
      obtain ⟨queue, code, completion, hfits⟩ := h.dispatches dispatch hdispatch
      exact ⟨queue, code, completion,
        { hfits with codeFound := lookup_append_of_some hfits.codeFound }⟩ }

/-- No dispatch belongs to a queue that is not in the table. -/
theorem Valid.active_eq_zero
    (hfresh : ∀ record ∈ state.queues, record.key ≠ key) : state.active key = 0 := by
  rw [active, length_eq_zero_iff, filter_eq_nil_iff]
  intro dispatch hdispatch hactive
  obtain ⟨queue, _, _, hfits⟩ := h.dispatches dispatch hdispatch
  have hkey : dispatch.key.queue = key := by
    simp only [Bool.and_eq_true, beq_iff_eq] at hactive
    exact hactive.1
  apply hfresh queue (lookup_mem hfits.queueFound)
  rw [lookup_key hfits.queueFound, hkey]

theorem Valid.createQueue {planId : IdentityDigest} {ringMapping : MappingKey} {capacity : Nat}
    (haccepted : state.createQueue key planId ringMapping capacity = .ok next) : next.Valid := by
  obtain ⟨hroom, hfresh, -, hcapacity, ⟨mapping, required, hmapping, hrequired, hlive, haccess,
    hring⟩, hbound, -, rfl⟩ := createQueue_eq_ok.mp haccepted
  exact { h with
    bounded := { h.bounded with queues := length_append_le hroom }
    queueKeys := distinctKeys_append h.queueKeys hfresh
    queues := by
      refine forall_mem_append_new h.queues ?_
      exact ⟨mapping, hmapping, hbound, hcapacity, ⟨required, hrequired, hring⟩,
        fun _ => ⟨hlive, haccess⟩⟩
    dispatches := by
      intro dispatch hdispatch
      obtain ⟨queue, code, completion, hfits⟩ := h.dispatches dispatch hdispatch
      exact ⟨queue, code, completion,
        { hfits with queueFound := lookup_append_of_some hfits.queueFound }⟩
    subscribed := by
      refine forall_mem_append_new h.subscribed ?_
      exact (Nat.le_of_eq (h.active_eq_zero hfresh)).trans (Nat.zero_le _) }

theorem Valid.prepareDispatch {key : DispatchKey} {code : LoadedCodeKey}
    {resources : List DispatchResource}
    (haccepted : state.prepareDispatch key code completion resources = .ok next) : next.Valid := by
  obtain ⟨hroom, hcompletionRoom, hfresh, hcompletionFresh, howner, hfew, hordered, -,
    ⟨queue, hqueue, hready, hfull⟩, ⟨loaded, hloaded, hlive⟩, hbound, hresources, rfl⟩ :=
    prepareDispatch_eq_ok.mp haccepted
  exact { h with
    bounded := { h.bounded with
      dispatches := length_append_le hroom
      completions := length_append_le hcompletionRoom }
    dispatchKeys := distinctKeys_append h.dispatchKeys hfresh
    dispatches := by
      refine forall_mem_append_new (fun dispatch hdispatch => ?_) ?_
      · obtain ⟨queue, code, settled, hfits⟩ := h.dispatches dispatch hdispatch
        exact ⟨queue, code, settled,
          { hfits with completionFound := lookup_append_of_some hfits.completionFound }⟩
      · refine ⟨queue, loaded, ⟨completion, .armed⟩, ⟨hqueue, hloaded,
          lookup_append_new hcompletionFresh rfl, hbound, howner, rfl, hfew, hordered, fun _ => ?_,
          fun _ => hlive, fun _ resource hresource => ?_⟩⟩
        · rw [hready]
          decide
        · obtain ⟨mapping, hfound, hvm, hstate, hpermits⟩ := hresources resource hresource
          exact ⟨mapping, hfound, hvm, hstate, hpermits⟩
    completionKeys := distinctKeys_append h.completionKeys hcompletionFresh
    completions := by
      refine forall_mem_append_new (fun settled hsettled => ?_) ?_
      · obtain ⟨dispatch, hdispatch, hfits⟩ := h.completions settled hsettled
        exact ⟨dispatch, mem_append_left _ hdispatch, hfits⟩
      · exact ⟨_, mem_append_right _ (mem_singleton_self _), howner.symm, rfl⟩
    subscribed := by
      intro other hother
      have hold := h.subscribed other hother
      rw [active, filter_append, length_append]
      by_cases hkey : key.queue = other.key
      · have hsame : other = queue := by
          have hfound := lookup_of_mem h.queueKeys hother
          rw [← hkey, hqueue] at hfound
          exact (Option.some.inj hfound).symm
        subst hsame
        rw [hkey] at hfull
        have hone : (List.filter (fun record : DispatchRecord => record.key.queue == other.key &&
            record.state.retainsResources) [⟨key, code, completion, resources, .prepared⟩]).length
            ≤ 1 := length_filter_le ..
        exact le_trans (Nat.add_le_add_left hone _) hfull
      · rw [filter_cons_of_neg (by simp [hkey]), filter_nil]
        exact hold }

/-! ### Transitions -/

theorem Valid.publishDispatch
    (haccepted : state.publishDispatch completion = .ok next) : next.Valid := by
  obtain ⟨hawaits, -, rfl⟩ := publishDispatch_eq_ok.mp haccepted
  have hvalid : ((state.setDispatch completion.dispatch .published).setCompletion completion
      .armed).Valid := h.moveDispatch hawaits (fun _ => rfl) rfl
  -- The completion stays armed, so the assignment to it changes nothing.
  obtain ⟨-, record, hrecord, harmed⟩ := hawaits
  have hsame : (state.setDispatch completion.dispatch .published).setCompletion completion .armed =
      state.setDispatch completion.dispatch .published := by
    have hkept := amend_eq_self (f := fun r : CompletionRecord => { r with state := .armed })
      hrecord
      (by cases record; cases harmed; rfl)
    unfold setCompletion setDispatch
    simp only [hkept]
  rwa [hsame] at hvalid

variable {transition : RuntimeTransition}

theorem Valid.apply (haccepted : state.apply transition = .ok next) : next.Valid := by
  cases transition with
  | addDevice key => exact h.addDevice haccepted
  | beginDeviceFailure key | establishDeviceQuiescence key =>
    obtain ⟨⟨record, hfound, hstate⟩, rfl⟩ := moveDevice_eq_ok.mp haccepted
    exact h.setDevice hfound (by simp [hstate]) (by simp)
  | releaseDevice key =>
    obtain ⟨⟨record, hfound, -⟩, hvms, rfl⟩ := releaseDevice_eq_ok.mp haccepted
    exact h.setDevice hfound (fun _ => rfl) (fun _ => hvms)
  | createVm key => exact h.createVm haccepted
  | beginVmFailure key | establishVmQuiescence key =>
    obtain ⟨⟨record, hfound, hstate⟩, rfl⟩ := moveVm_eq_ok.mp haccepted
    exact h.setVm hfound (by simp [hstate]) (by simp)
  | releaseVm key =>
    obtain ⟨⟨record, hfound, -⟩, hallocations, -, -, rfl⟩ := releaseVm_eq_ok.mp haccepted
    exact h.setVm hfound (fun _ => rfl) (fun _ => hallocations)
  | allocate key byteLen => exact h.allocate haccepted
  | releaseAllocation key =>
    obtain ⟨-, hmappings, rfl⟩ := releaseAllocation_eq_ok.mp haccepted
    refine h.releaseAllocation fun mapping hmapping hkey => ?_
    cases hstate : mapping.state with
    | live => exact absurd hstate (hmappings mapping hmapping hkey)
    | released => rfl
  | map key allocationOffset gpuVa byteLen access => exact h.map haccepted
  | unmap key =>
    obtain ⟨-, hcode, hqueues, hdispatches, rfl⟩ := unmap_eq_ok.mp haccepted
    exact h.releaseMapping hcode hqueues hdispatches
  | loadCode key loadPlanId artifactId executableMapping entryOffset =>
    exact h.loadCode haccepted
  | unloadCode key =>
    obtain ⟨-, hdispatches, rfl⟩ := unloadCode_eq_ok.mp haccepted
    exact h.releaseCode hdispatches
  | createQueue key planId ringMapping capacity => exact h.createQueue haccepted
  | beginQueueFailure key | establishQueueQuiescence key =>
    obtain ⟨⟨record, hfound, hstate⟩, rfl⟩ := moveQueue_eq_ok.mp haccepted
    exact h.setQueue hfound (by simp [hstate]) (by simp)
  | releaseQueue key =>
    obtain ⟨⟨record, hfound, -⟩, hdispatches, rfl⟩ := releaseQueue_eq_ok.mp haccepted
    exact h.setQueue hfound (fun _ => rfl) (fun _ => hdispatches)
  | prepareDispatch key code completion resources => exact h.prepareDispatch haccepted
  | abortPrepared completion =>
    obtain ⟨hawaits, rfl⟩ := transitionDispatch_eq_ok.mp haccepted
    exact h.moveDispatch hawaits (fun hretains => by nomatch hretains) rfl
  | publishDispatch completion => exact h.publishDispatch haccepted
  | markDispatchAmbiguous completion =>
    obtain ⟨hawaits, rfl⟩ := transitionDispatch_eq_ok.mp haccepted
    exact h.moveDispatch hawaits (fun _ => rfl) rfl
  | observeCompletion completion =>
    obtain ⟨hawaits, -, rfl⟩ := observeCompletion_eq_ok.mp haccepted
    exact h.moveDispatch hawaits (fun hretains => by nomatch hretains) rfl
  | settleAfterQuiescence completion =>
    obtain ⟨hawaits, -, rfl⟩ := settleAfterQuiescence_eq_ok.mp haccepted
    exact h.moveDispatch hawaits (fun hretains => by nomatch hretains) rfl

/-! ### Batches -/

/-- From a valid state the check of the next state does nothing. -/
theorem Valid.advance_eq_apply : state.advance transition = state.apply transition := by
  unfold advance
  cases happly : state.apply transition with
  | error error => rfl
  | ok next =>
    have hnext := validateGlobalInvariants_eq_ok.mpr (h.apply happly)
    show ((next.validateGlobalInvariants.mapError TransitionError.nextInvariant) >>=
      fun _ => pure next) = _
    rw [mapError_eq_ok.mpr hnext]
    rfl

variable {transitions : List RuntimeTransition}

/-- From a valid state a batch is the sequence of its transitions. -/
theorem Valid.nextAll_eq_foldlM :
    state.nextAll transitions = transitions.foldlM RuntimeState.apply state := by
  have hsource : state.nextAll transitions = transitions.foldlM advance state := by
    unfold nextAll
    rw [mapError_eq_ok.mpr (validateGlobalInvariants_eq_ok.mpr h)]
    rfl
  rw [hsource]
  clear hsource
  induction transitions generalizing state with
  | nil => rfl
  | cons transition transitions ih =>
    rw [foldlM_cons, foldlM_cons, h.advance_eq_apply]
    cases happly : state.apply transition with
    | error error => rfl
    | ok next => exact ih (h.apply happly)

theorem Valid.next_eq_apply : state.next transition = state.apply transition := by
  rw [RuntimeState.next, h.nextAll_eq_foldlM, foldlM_cons]
  cases state.apply transition with
  | error error => rfl
  | ok next => rfl

theorem Valid.foldlM_apply
    (hrun : transitions.foldlM RuntimeState.apply state = .ok next) : next.Valid := by
  refine foldlM_ok_preserves (fun transition _ before after hbefore hstep => ?_) h hrun
  exact Valid.apply hbefore hstep

end

/-- The states that batches lead to from the empty state. -/
inductive Reachable : RuntimeState → Prop
  | new : Reachable new
  | batch {state next : RuntimeState} {transitions : List RuntimeTransition} :
      Reachable state → state.nextAll transitions = .ok next → Reachable next

theorem Reachable.valid (h : Reachable state) : state.Valid := by
  induction h with
  | new => exact new_valid
  | batch _ hbatch ih =>
    rw [ih.nextAll_eq_foldlM] at hbatch
    exact ih.foldlM_apply hbatch

/-! ### The guards reject before the checks do -/

/-- The error does not report a broken invariant. -/
def Ordinary : TransitionError → Prop
  | .sourceInvariant _ | .nextInvariant _ => False
  | _ => True

/-- The computation fails for a reason of its own, or its result satisfies `Q`. -/
abbrev Orderly {α : Type} (x : Except TransitionError α) (Q : α → Prop) : Prop :=
  Ensures Ordinary x Q

variable {Q : Unit → Prop}

theorem orderly_requireState {record : RecordRef} :
    Orderly (requireState condition record) Q ↔ (condition = true → Q ()) := by
  cases condition <;> simp [requireState, Ordinary]

theorem orderly_ensureRoom {actual maximum : Nat} {kind : RecordKind} :
    Orderly (ensureRoom actual maximum kind) Q ↔ (actual < maximum → Q ()) := by
  by_cases h : actual < maximum <;> simp [ensureRoom, Ordinary, h]

theorem orderly_queueIsEffectivelyQuiescent {Q : Bool → Prop} (h : ∀ quiescent, Q quiescent) :
    Orderly (state.queueIsEffectivelyQuiescent key) Q := by
  refine (ensures_bind ..).mpr (ensures_okOr.mpr ⟨fun _ => trivial, fun queue _ => ?_⟩)
  split
  · exact h true
  · refine (ensures_bind ..).mpr (ensures_okOr.mpr ⟨fun _ => trivial, fun vm _ => ?_⟩)
    split
    · exact h true
    · exact (ensures_bind ..).mpr (ensures_okOr.mpr ⟨fun _ => trivial, fun device _ => h _⟩)

theorem orderly_requireRest {current : QueueState} (h : Q ()) :
    Orderly (state.requireRest key current) Q := by
  unfold requireRest
  split
  · refine (ensures_bind ..).mpr (orderly_queueIsEffectivelyQuiescent fun quiescent => ?_)
    exact ensures_failIf.mpr ⟨fun _ => trivial, fun _ => h⟩
  · exact h

/-- A transition is rejected for a reason of its own. -/
theorem apply_orderly (transition : RuntimeTransition) :
    Orderly (state.apply transition) fun _ => True := by
  cases transition <;>
    simp only [RuntimeState.apply, addDevice, moveDevice, releaseDevice, createVm,
      moveVm, releaseVm, allocate, releaseAllocation, map, unmap, loadCode, unloadCode,
        createQueue, moveQueue,
      releaseQueue, prepareDispatch, transitionDispatch, publishDispatch, observeCompletion,
      settleAfterQuiescence, requireDispatch, requireVmActive, device, vm, allocation,
        mapping, code,
      queue, dispatch, completion, Ordinary, ensures_bind, ensures_pure, orderly_requireState,
      orderly_ensureRoom, ensures_failIf, ensures_okOr, ensures_forM,
      orderly_queueIsEffectivelyQuiescent, orderly_requireRest, implies_true, and_self]

theorem nextAll_orderly (h : state.Valid) : Orderly (state.nextAll transitions) fun _ => True := by
  rw [h.nextAll_eq_foldlM]
  exact ensures_foldlM (fun transition _ state _ => state.apply_orderly transition) trivial

theorem Orderly.not_invariant {x : Except TransitionError α} {Q : α → Prop} (h : Orderly x Q)
    (violation : InvariantViolation) :
    x ≠ .error (.sourceInvariant violation) ∧ x ≠ .error (.nextInvariant violation) := by
  constructor
  · rintro rfl
    exact h
  · rintro rfl
    exact h

/-- **The guards of the transitions suffice.**  Reachable states are valid, an accepted
    transition of a valid state leads to a valid state, and so neither a single
    transition nor a batch is ever rejected for a broken invariant. -/
theorem transition_guards_suffice :
    (∀ state, Reachable state → state.validateGlobalInvariants = .ok ()) ∧
    ∀ state : RuntimeState, state.validateGlobalInvariants = .ok () →
      (∀ transition next, state.apply transition = .ok next →
        next.validateGlobalInvariants = .ok ()) ∧
      (∀ transition violation, state.next transition ≠ .error (.sourceInvariant violation) ∧
        state.next transition ≠ .error (.nextInvariant violation)) ∧
      ∀ transitions violation, state.nextAll transitions ≠ .error (.sourceInvariant violation) ∧
        state.nextAll transitions ≠ .error (.nextInvariant violation) := by
  refine ⟨fun state h => validateGlobalInvariants_eq_ok.mpr h.valid, fun state h => ?_⟩
  have hvalid := validateGlobalInvariants_eq_ok.mp h
  refine ⟨fun transition next haccepted => ?_, fun transition violation => ?_,
    fun transitions violation => ?_⟩
  · exact validateGlobalInvariants_eq_ok.mpr (hvalid.apply haccepted)
  · exact (nextAll_orderly hvalid).not_invariant violation
  · exact (nextAll_orderly hvalid).not_invariant violation

/-- One VM with a ring of two packets, a code object and a dispatch that is prepared. -/
def launch : List RuntimeTransition :=
  let vm : VmKey := ⟨⟨7, 1⟩, 10⟩
  let ring : MappingKey := ⟨⟨vm, 0⟩, 0⟩
  let text : MappingKey := ⟨⟨vm, 1⟩, 0⟩
  let dispatch : DispatchKey := ⟨⟨vm, 3, 1⟩, 0⟩
  [.addDevice vm.device, .createVm vm, .allocate ring.allocation 4096,
    .allocate text.allocation 4096, .map ring 0 0x1000 4096 .readWrite,
      .map text 0 0x2000 4096 .readExecute,
    .loadCode ⟨vm, 5⟩ 1 1 text 0, .createQueue dispatch.queue 1 ring 2,
    .prepareDispatch dispatch ⟨vm, 5⟩ ⟨dispatch, 9⟩ []]

theorem transition_guards_suffice_launch :
    ∃ state ∈ (new.nextAll launch).toOption, state.dispatches ≠ [] ∧
      state.validateGlobalInvariants = .ok () ∧
      ∀ transition next, state.apply transition = .ok next →
        next.validateGlobalInvariants = .ok () := by
  have hvalid : ∃ state ∈ (new.nextAll launch).toOption, state.dispatches ≠ [] ∧
      state.validateGlobalInvariants = .ok () := by
    decide +kernel
  rcases hvalid with ⟨state, hstate, hdispatches, hvalid⟩
  exact ⟨state, hstate, hdispatches, hvalid, (transition_guards_suffice.2 state hvalid).1⟩

end RuntimeState

end Fe2o3.RuntimeModel
