import Fe2o3.Lib.Positions
import Fe2o3.RuntimeModel.Preservation
import Fe2o3.Virtual.Types

/-!
# Who holds which memory of the model

Buffers, modules and queues each own one allocation with one mapping.  A list of
holdings fits the model when every holding is there in its state and nothing else is.
The order of the holdings does not matter, so a release changes the one in front.
-/

namespace Fe2o3.Virtual

open Lib RuntimeModel
open List hiding lookup

/-- An allocation, its mapping, and whether both are live. -/
structure Holding where
  allocation : AllocationKey
  mapping : MappingKey
  state : ResourceState

/-- The model state of a record with a released flag. -/
def resourceState (released : Bool) : ResourceState :=
  if released then .released else .live

structure HoldingsFit (vm : VmKey) (nextId : Nat) (allocations : List AllocationRecord)
    (mappings : List MappingRecord) (holdings : List Holding) : Prop where
  ids : nextId = firstUserAllocationId + allocations.length
  distinct : DistinctKeys Holding.allocation holdings
  shape : ∀ holding ∈ holdings, holding.allocation.vm = vm ∧ holding.allocation.id < nextId ∧
    holding.mapping = ⟨holding.allocation, holding.allocation.id⟩
  allocated : Paired Holding.allocation AllocationRecord.key
    (fun holding record => record.state = holding.state) holdings allocations
  mapped : Paired Holding.mapping MappingRecord.key
    (fun holding record => record.state = holding.state) holdings mappings

variable {vm : VmKey} {nextId : Nat} {allocations : List AllocationRecord}
  {mappings : List MappingRecord} {holdings : List Holding} {holding : Holding}

namespace HoldingsFit

section

variable (h : HoldingsFit vm nextId allocations mappings holdings)
include h

theorem perm {others : List Holding} (hperm : holdings.Perm others) :
    HoldingsFit vm nextId allocations mappings others where
  ids := h.ids
  distinct := (hperm.pairwise_iff fun hne => Ne.symm hne).mp h.distinct
  shape := fun holding hmem => h.shape holding (hperm.mem_iff.mpr hmem)
  allocated := h.allocated.perm hperm
  mapped := h.mapped.perm hperm

/-- A holding determines its mapping, and the other way around. -/
theorem eq_of_mapping {other : Holding} (hmem : holding ∈ holdings) (hother : other ∈ holdings)
    (hmapping : holding.mapping = other.mapping) : holding = other := by
  apply eq_of_same_key h.distinct hmem hother
  have hkey := congrArg MappingKey.allocation hmapping
  rw [(h.shape holding hmem).2.2, (h.shape other hother).2.2] at hkey
  exact hkey

/-- The allocation of a live mapping is the holding of that mapping. -/
theorem mapping_of_allocation
    (hmem : holding ∈ holdings) {record : MappingRecord} (hrecord : record ∈ mappings)
    (hallocation : record.key.allocation = holding.allocation) : record.key = holding.mapping := by
  obtain ⟨other, hother, hkey⟩ := h.mapped.owner record hrecord
  rw [← hkey] at hallocation ⊢
  rw [(h.shape other hother).2.2] at hallocation
  rw [eq_of_same_key h.distinct hother hmem hallocation]

/-- A new allocation with its mapping. -/
theorem provision {byteLen gpuVa offset : Nat} {access : MemoryAccess}
    (hallocation : ∀ record ∈ allocations, record.key ≠ ⟨vm, nextId⟩)
    (hmapping : ∀ record ∈ mappings, record.key ≠ ⟨⟨vm, nextId⟩, nextId⟩) :
    HoldingsFit vm (nextId + 1) (allocations ++ [⟨⟨vm, nextId⟩, byteLen, .live⟩])
      (mappings ++ [⟨⟨⟨vm, nextId⟩, nextId⟩, offset, gpuVa, byteLen, access, .live⟩])
      (holdings ++ [⟨⟨vm, nextId⟩, ⟨⟨vm, nextId⟩, nextId⟩, .live⟩]) where
  ids := by
    rw [length_append, h.ids]
    rfl
  distinct := by
    refine distinctKeys_append h.distinct fun other hother hkey => ?_
    have hlt := (h.shape other hother).2.1
    rw [hkey] at hlt
    exact Nat.lt_irrefl _ hlt
  shape := by
    refine forall_mem_append_new (fun holding hmem => ?_) ⟨rfl, Nat.lt_succ_self _, rfl⟩
    obtain ⟨hvm, hlt, hshape⟩ := h.shape holding hmem
    exact ⟨hvm, Nat.lt_succ_of_lt hlt, hshape⟩
  allocated := h.allocated.append hallocation rfl rfl
  mapped := h.mapped.append hmapping rfl rfl

end

/-- The allocation and the mapping of the first holding are released. -/
theorem release (h : HoldingsFit vm nextId allocations mappings (holding :: holdings)) :
    HoldingsFit vm nextId
      (amend AllocationRecord.key holding.allocation
        (fun record => { record with state := .released }) allocations)
      (amend MappingRecord.key holding.mapping (fun record => { record with state := .released })
        mappings)
      ({ holding with state := .released } :: holdings) := by
  obtain ⟨hfirst, hrest⟩ := pairwise_cons.mp h.distinct
  have hself := mem_cons_self (a := holding) (l := holdings)
  have hothers : ∀ other ∈ holdings, other.allocation ≠ holding.allocation ∧
      other.mapping ≠ holding.mapping := by
    intro other hother
    refine ⟨(hfirst other hother).symm, fun hmapping => ?_⟩
    have hsame := h.eq_of_mapping (mem_cons_of_mem _ hother) hself hmapping
    exact hfirst other hother (by rw [hsame])
  exact {
    ids := by rw [length_amend, h.ids]
    distinct := pairwise_cons.mpr ⟨hfirst, hrest⟩
    shape := forall_mem_cons.mpr (forall_mem_cons.mp h.shape)
    allocated := h.allocated.amend (fun other hother => (hothers other hother).1) rfl fun _ _ => rfl
    mapped := h.mapped.amend (fun other hother => (hothers other hother).2) rfl fun _ _ => rfl }

end HoldingsFit

end Fe2o3.Virtual
