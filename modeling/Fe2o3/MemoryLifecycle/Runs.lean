import Fe2o3.MemoryLifecycle.Contract

/-!
# Runs of the memory lifecycle keep its global invariants

The effect of a transition that is allowed keeps the tables lawful, so every call that
succeeds on a valid state leads to a valid one, and none panics.  The checks that
`checkpointReleased` makes before and after it removes records therefore never fail, in
any state that a sequence of calls reaches from an empty one.
-/

namespace Fe2o3.MemoryLifecycle

open Lib
open List hiding lookup
open Lib.Command
open RuntimeModel (DeviceKey VmKey QueueKey MemoryAccess IdentityDigest)

/-! ### Mapped ranges -/

variable {mapping : MemoryMappingRecord} {progress : PartialProgressObservation}

namespace MemoryTables

theorem reportedMap_range (progress : PartialProgressObservation) (h : MappedRange mapping)
    (hstate : mapping.state = .mapPending) : MappedRange (reportedMap progress mapping) := by
  have hvalid := h.valid
  simp only [MemoryMappingRecord.rangeIsValid, hstate, Bool.and_eq_true, beq_iff_eq] at hvalid
  unfold reportedMap
  dsimp only
  split
  · refine ⟨?_, Nat.le_refl _, by simp [MemoryMappingRecord.rangeIsValid, hvalid.1]⟩
    show mapping.mappedStart ≤ _
    omega
  · split
    · next hle =>
      refine ⟨?_, hle.2, by simp [MemoryMappingRecord.rangeIsValid, hvalid.1]⟩
      show mapping.mappedStart ≤ _
      omega
    · exact ⟨Nat.zero_le _, Nat.le_refl _, rfl⟩

theorem reportedUnmap_range (progress : PartialProgressObservation) (h : MappedRange mapping) :
    MappedRange (reportedUnmap progress mapping) := by
  unfold reportedUnmap
  split
  · exact ⟨Nat.le_refl _, h.inside, by simp [MemoryMappingRecord.rangeIsValid]⟩
  · split
    · next hbetween => exact ⟨Nat.le_of_lt hbetween.2.2, h.inside, rfl⟩
    · exact ⟨h.ordered, h.inside, rfl⟩

variable {tables : MemoryTables}

/-! ### New records -/

section

variable (h : tables.Lawful)
include h

theorem Lawful.addVm {new : MemoryVmRecord} (hroom : tables.vms.length < maxMemoryVms)
    (hadmits : tables.AdmitsVm new) : (tables.addVm new).Lawful where
  toFitting := { h.toFitting with
    bounded := { h.bounded with vms := length_append_le hroom }
    vmKeys := distinctKeys_append h.vmKeys hadmits.fresh
    vms := forall_mem_append_new h.vms hadmits.fits
    unshared := pairwise_append_new h.unshared fun record hmem hactive _ =>
      hadmits.unshared record hmem hactive
    reservations := by
      intro reservation hmem
      obtain ⟨vm, hfits⟩ := h.reservations reservation hmem
      exact ⟨vm, { hfits with found := lookup_append_of_some hfits.found }⟩
    allocations := by
      intro allocation hmem
      obtain ⟨vm, reservation, hfits⟩ := h.allocations allocation hmem
      exact ⟨vm, reservation, { hfits with vmFound := lookup_append_of_some hfits.vmFound }⟩
    mappings := by
      intro mapping hmem
      obtain ⟨allocation, vm, hfits⟩ := h.mappings mapping hmem
      exact ⟨allocation, vm, { hfits with vmFound := lookup_append_of_some hfits.vmFound }⟩ }
  toMarked := h.toMarked.mono rfl rfl
    (scopes_mono (subset_append_left ..) (List.Subset.refl _) (List.Subset.refl _))
    (List.Subset.refl _)

theorem Lawful.addReservation {new : VaReservationRecord}
    (hroom : tables.reservations.length < maxVaReservations)
    (hadmits : tables.AdmitsReservation new) : (tables.addReservation new).Lawful := by
  obtain ⟨vm, hfits⟩ := hadmits.fits
  refine h.toMarked.issue { h.toFitting with
    bounded := { h.bounded with reservations := length_append_le hroom }
    reservationKeys := distinctKeys_append h.reservationKeys hadmits.fresh
    reservations := forall_mem_append_new h.reservations ⟨vm, hfits⟩
    apart := pairwise_append_new h.apart hadmits.apart
    allocations := fun allocation hmem => ?_ } hfits.identity hadmits.unissued
  obtain ⟨vm, reservation, hfits⟩ := h.allocations allocation hmem
  exact ⟨vm, reservation, { hfits with found := lookup_append_of_some hfits.found }⟩

theorem Lawful.addAllocation {new : MemoryAllocationRecord}
    (hroom : tables.allocations.length < maxMemoryAllocations)
    (hadmits : tables.AdmitsAllocation new) : (tables.addAllocation new).Lawful := by
  obtain ⟨vm, reservation, hfits⟩ := hadmits.fits
  refine h.toMarked.issue { h.toFitting with
    bounded := { h.bounded with allocations := length_append_le hroom }
    allocationKeys := distinctKeys_append h.allocationKeys hadmits.fresh
    allocations := forall_mem_append_new h.allocations ⟨vm, reservation, hfits⟩
    succeeds := pairwise_append_new h.succeeds hadmits.succeeds
    exclusive := pairwise_append_new h.exclusive hadmits.exclusive
    mappings := fun mapping hmem => ?_ } hfits.identity hadmits.unissued
    (scopes_mono (List.Subset.refl _) (subset_append_left ..) (List.Subset.refl _))
  obtain ⟨allocation, vm, hfits⟩ := h.mappings mapping hmem
  exact ⟨allocation, vm, { hfits with found := lookup_append_of_some hfits.found }⟩

theorem Lawful.addMapping {new : MemoryMappingRecord}
    (hroom : tables.mappings.length < maxMemoryMappings) (hadmits : tables.AdmitsMapping new) :
    (tables.addMapping new).Lawful := by
  obtain ⟨allocation, vm, hfits, -⟩ := hadmits.fits
  refine h.toMarked.issue { h.toFitting with
    bounded := { h.bounded with mappings := length_append_le hroom }
    mappingKeys := distinctKeys_append h.mappingKeys hadmits.fresh
    mappings := forall_mem_append_new h.mappings ⟨allocation, vm, hfits⟩
    publications := fun publication hmem => ?_ } hfits.identity hadmits.unissued
    (scopes_mono (List.Subset.refl _) (List.Subset.refl _) (subset_append_left ..))
  obtain ⟨mapping, hfits⟩ := h.publications publication hmem
  exact ⟨mapping, { hfits with found := lookup_append_of_some hfits.found }⟩

theorem Lawful.addPublication {new : MemoryPublicationRecord}
    (hroom : tables.publications.length < maxMemoryPublications)
    (hadmits : tables.AdmitsPublication new) : (tables.addPublication new).Lawful := by
  obtain ⟨mapping, hfits⟩ := hadmits.fits
  exact h.toMarked.issue { h.toFitting with
    bounded := { h.bounded with publications := length_append_le hroom }
    publicationKeys := distinctKeys_append h.publicationKeys hadmits.fresh
    publications := forall_mem_append_new h.publications ⟨mapping, hfits⟩ } hfits.identity
    hadmits.unissued

/-! ### Releases -/

/-- A VM is retired once everything in it is released. -/
theorem Lawful.retireVm {vm : VmKey} (hretired : tables.Retired vm) :
    (tables.effect (.retireVm vm)).Lawful where
  toFitting := { h.toFitting with
    bounded := { h.bounded with vms := length_amend.trans_le h.bounded.vms }
    vmKeys := distinctKeys_amend (fun _ => rfl) h.vmKeys
    vms := forall_mem_amend h.vms fun _ _ hfits => { hfits with }
    unshared := by
      apply pairwise_amend h.unshared
      · intro old other _ _ hactive
        nomatch hactive
      · intro old other _ _ _ hactive
        nomatch hactive
    reservations := by
      intro reservation hmem
      obtain ⟨vm, hfits⟩ := h.reservations reservation hmem
      refine found_amend hfits.found (fun hsame => ⟨vm, { hfits with found := hsame }⟩)
        fun hkey hnew => ⟨_, { hfits with found := hnew, active := fun hreserved => ?_ }⟩
      rw [hretired.reservations reservation hmem hkey] at hreserved
      nomatch hreserved
    allocations := by
      intro allocation hmem
      obtain ⟨vm, reservation, hfits⟩ := h.allocations allocation hmem
      refine found_amend hfits.vmFound
        (fun hsame => ⟨vm, reservation, { hfits with vmFound := hsame }⟩)
        fun hkey hnew => ⟨_, reservation, { hfits with vmFound := hnew, active := fun hlive => ?_ }⟩
      rw [hretired.allocations allocation hmem hkey] at hlive
      nomatch hlive
    mappings := by
      intro mapping hmem
      obtain ⟨allocation, vm, hfits⟩ := h.mappings mapping hmem
      exact found_amend hfits.vmFound
        (fun hsame => ⟨allocation, vm, { hfits with vmFound := hsame }⟩)
        fun _ hnew => ⟨allocation, _, { hfits with vmFound := hnew }⟩ }
  toMarked := h.toMarked.of_keys rfl rfl (map_amend_of_eq fun _ => rfl) rfl rfl rfl rfl

/-- A reservation is released once every allocation on it is. -/
theorem Lawful.releaseReservation {reservation : VaReservationKey}
    (hallocations : ∀ record ∈ tables.allocations, record.reservation = reservation →
      record.state = .released) : (tables.effect (.releaseVaReservation reservation)).Lawful where
  toFitting := { h.toFitting with
    bounded := { h.bounded with reservations := length_amend.trans_le h.bounded.reservations }
    reservationKeys := distinctKeys_amend (fun _ => rfl) h.reservationKeys
    reservations := by
      refine forall_mem_amend h.reservations fun _ _ ⟨vm, hfits⟩ => ?_
      exact ⟨vm, { hfits with active := nofun }⟩
    apart := by
      apply pairwise_amend h.apart
      · intro old other _ _ _ hreserved
        nomatch hreserved
      · intro old other _ _ _ _ hreserved
        nomatch hreserved
    allocations := by
      intro allocation hmem
      obtain ⟨vm, reservation, hfits⟩ := h.allocations allocation hmem
      refine found_amend hfits.found (fun hsame => ⟨vm, reservation, { hfits with found := hsame }⟩)
        fun hkey hnew => ⟨vm, _, { hfits with found := hnew, reserved := fun hlive => ?_ }⟩
      rw [hallocations allocation hmem hkey] at hlive
      nomatch hlive }
  toMarked := h.toMarked.of_keys rfl rfl rfl (map_amend_of_eq fun _ => rfl) rfl rfl rfl

/-- An allocation is released once every mapping of it is. -/
theorem Lawful.releaseAllocation {allocation : MemoryAllocationKey}
    (hmappings : ∀ record ∈ tables.mappings, record.key.allocation = allocation →
      record.state = .released) : (tables.effect (.releaseAllocation allocation)).Lawful where
  toFitting := { h.toFitting with
    bounded := { h.bounded with allocations := length_amend.trans_le h.bounded.allocations }
    allocationKeys := distinctKeys_amend (fun _ => rfl) h.allocationKeys
    allocations := by
      refine forall_mem_amend h.allocations fun _ _ ⟨vm, reservation, hfits⟩ => ?_
      exact ⟨vm, reservation, { hfits with
        active := nofun
        reserved := nofun }⟩
    succeeds := by
      apply pairwise_amend h.succeeds
      · intro old other _ hsucceeds hvm hid
        exact ⟨(hsucceeds hvm hid).1, rfl⟩
      · intro old other _ hsucceeds hvm hid
        exact hsucceeds hvm hid
    exclusive := by
      apply pairwise_amend h.exclusive
      · intro old other _ _ hlive
        nomatch hlive
      · intro old other _ _ _ hlive
        nomatch hlive
    mappings := by
      intro mapping hmem
      obtain ⟨allocation, vm, hfits⟩ := h.mappings mapping hmem
      exact found_amend hfits.found (fun hsame => ⟨allocation, vm, { hfits with found := hsame }⟩)
        fun hkey hnew => ⟨_, vm, { hfits with
          found := hnew, live := fun hstate => absurd (hmappings mapping hmem hkey) hstate }⟩ }
  toMarked := h.toMarked.of_keys rfl rfl rfl rfl (map_amend_of_eq fun _ => rfl) rfl rfl

theorem Lawful.releasePublication (publication : MemoryPublicationKey) :
    (tables.releasePublication publication).Lawful where
  toFitting := { h.toFitting with
    bounded := { h.bounded with publications := length_amend.trans_le h.bounded.publications }
    publicationKeys := distinctKeys_amend (fun _ => rfl) h.publicationKeys
    publications := forall_mem_amend h.publications fun _ _ ⟨mapping, hfits⟩ =>
      ⟨mapping, { hfits with mapped := nofun }⟩ }
  toMarked := h.toMarked.of_keys rfl rfl rfl rfl rfl rfl (map_amend_of_eq fun _ => rfl)

end

/-! ### Steps of a mapping -/

variable {key : MemoryMappingKey} {record : MemoryMappingRecord}

theorem Fitting.mappedRange (h : tables.Fitting)
    (hfound : lookup MemoryMappingRecord.key key tables.mappings = some record) :
    MappedRange record := by
  obtain ⟨allocation, vm, hfits⟩ := h.mappings record (lookup_mem hfound)
  exact hfits.range

/-- Only a mapping in the mapped state has live publications. -/
theorem Fitting.unpublished (h : tables.Fitting)
    (hfound : lookup MemoryMappingRecord.key key tables.mappings = some record)
    (hstate : record.state ≠ .mapped) : tables.Unpublished key := by
  intro publication hmem hkey
  rw [h.publication_released hmem (lookup_mem hfound) (hkey.trans (lookup_key hfound).symm) hstate]
  decide

section

variable (h : tables.Lawful)
include h

/-- A mapping that is not released and has no live publication moves to any state that suits its
    range. -/
theorem Lawful.moveMapping {f : MemoryMappingRecord → MemoryMappingRecord} (hstep : MappingStep f)
    (hfound : lookup MemoryMappingRecord.key key tables.mappings = some record)
    (hstate : record.state ≠ .released) (hrange : MappedRange (f record))
    (hunpublished : tables.Unpublished key) : (tables.moveMapping key f).Lawful where
  toFitting := { h.toFitting with
    bounded := { h.bounded with mappings := length_amend.trans_le h.bounded.mappings }
    mappingKeys := distinctKeys_amend hstep.key h.mappingKeys
    mappings := by
      refine forall_mem_amend h.mappings fun old hold ⟨allocation, vm, hfits⟩ => ?_
      cases hfound.symm.trans hold
      refine ⟨allocation, vm, ?_, ?_, ?_, ?_, hrange, fun _ => hfits.live hstate⟩
      · rw [hstep.key]
        exact hfits.found
      · rw [hstep.key]
        exact hfits.vmFound
      · rw [hstep.key]
        exact hfits.identity
      · rw [hstep.targetDevices]
        exact hfits.devices
    publications := by
      intro publication hmem
      obtain ⟨mapping, hfits⟩ := h.publications publication hmem
      exact found_amend hfits.found (fun hsame => ⟨mapping, { hfits with found := hsame }⟩)
        (fun hkey hnew => ⟨_, { hfits with
          found := hnew
          mapped := fun hlive => absurd hlive (hunpublished publication hmem hkey) }⟩) hstep.key }
  toMarked := h.toMarked.of_keys rfl rfl rfl rfl rfl (map_amend_of_eq hstep.key) rfl

theorem Lawful.observeMap (hallowed : tables.Allows (.observeMap key progress)) :
    (tables.effect (.observeMap key progress)).Lawful := by
  obtain ⟨record, hfound, hstate⟩ := hallowed
  apply h.moveMapping (reportedMap_step progress) hfound
  · rw [hstate]
    decide
  · exact reportedMap_range progress (h.mappedRange hfound) hstate
  · apply h.unpublished hfound
    rw [hstate]
    decide

theorem Lawful.beginUnmap (hallowed : tables.Allows (.beginUnmap key)) :
    (tables.effect (.beginUnmap key)).Lawful := by
  obtain ⟨hunpublished, record, hfound, hstate, hrange⟩ := hallowed
  have hbefore := h.mappedRange hfound
  apply h.moveMapping (MemoryLifecycleState.enter_step _) hfound _ _ hunpublished
  · obtain hstate | hstate | hstate := hstate <;> rw [hstate] <;> decide
  · refine ⟨hbefore.ordered, hbefore.inside, ?_⟩
    exact decide_eq_true (Nat.lt_of_le_of_ne hbefore.ordered hrange)

theorem Lawful.observeUnmap (hallowed : tables.Allows (.observeUnmap key progress)) :
    (tables.effect (.observeUnmap key progress)).Lawful := by
  obtain ⟨record, hfound, hstate⟩ := hallowed
  apply h.moveMapping (reportedUnmap_step progress) hfound
  · rw [hstate]
    decide
  · exact reportedUnmap_range progress (h.mappedRange hfound)
  · apply h.unpublished hfound
    rw [hstate]
    decide

theorem Lawful.releaseMapping (hallowed : tables.Allows (.releaseMapping key)) :
    (tables.effect (.releaseMapping key)).Lawful := by
  obtain ⟨hunpublished, record, hfound, hstate, hrange⟩ := hallowed
  have hbefore := h.mappedRange hfound
  apply h.moveMapping (MemoryLifecycleState.enter_step _) hfound _ _ hunpublished
  · obtain hstate | hstate | hstate := hstate <;> rw [hstate] <;> decide
  · exact ⟨hbefore.ordered, hbefore.inside, beq_iff_eq.mpr hrange⟩

/-- What a transition leaves is lawful when it was allowed. -/
theorem Lawful.effect {transition : MemoryTransition} (hroom : tables.HasRoom transition)
    (hallowed : tables.Allows transition) : (tables.effect transition).Lawful := by
  cases transition with
  | acquireVm admission mappingDevices handle aperture => exact h.addVm hroom hallowed
  | retireVm key => exact h.retireVm hallowed.2
  | reserveVa key range alignment => exact h.addReservation hroom hallowed
  | releaseVaReservation key => exact h.releaseReservation hallowed.2
  | allocate key reservation handle spec => exact h.addAllocation hroom hallowed
  | releaseAllocation key => exact h.releaseAllocation hallowed.2.1
  | beginMap key targetDevices access => exact h.addMapping hroom hallowed
  | observeMap key progress => exact h.observeMap hallowed
  | beginUnmap key => exact h.beginUnmap hallowed
  | observeUnmap key progress => exact h.observeUnmap hallowed
  | releaseMapping key => exact h.releaseMapping hallowed
  | publishMapping key => exact h.addPublication hroom hallowed
  | releasePublication key => exact h.releasePublication key

end

end MemoryTables

/-! ### Calls, on the tables -/

namespace MemoryTables

def Publishes (owner : MemoryPublicationOwner) (key : MemoryPublicationKey)
    (before after : MemoryTables) : Prop :=
  before.publications.length < maxMemoryPublications ∧
    before.AdmitsPublication ⟨key, owner, .live⟩ ∧ after = before.addPublication ⟨key, owner, .live⟩

def Withdraws (owner : MemoryPublicationOwner) (key : MemoryPublicationKey)
    (before after : MemoryTables) : Prop :=
  Holds MemoryPublicationRecord.key key before.publications (HeldBy owner) ∧
    after = before.releasePublication key

/-- What a call that succeeds has done. -/
def Performs (before : MemoryTables) : MemoryCall → MemoryTables → Prop
  | .next transition, after =>
    before.HasRoom transition ∧ before.Allows transition ∧ after = before.effect transition
  | .publishComputeAqlQueueMappings keys queue, after =>
    Through (Publishes (.computeAqlQueue queue)) keys before after
  | .releaseComputeAqlQueuePublications keys queue, after =>
    Through (Withdraws (.computeAqlQueue queue)) keys before after
  | .publishPeerTransferMapping key binding, after =>
    Publishes (.peerTransfer binding.publicationOwner) key before after
  | .releasePeerTransferPublication key binding, after =>
    Withdraws (.peerTransfer binding.publicationOwner) key before after
  | .checkpointReleased, after => after = before.compacted

end MemoryTables

namespace MemoryLifecycleState

variable {state : MemoryLifecycleState}

/-- An action that meets its contract leads to a valid state, and has its effect. -/
theorem Fulfils.secures {action : Action Unit} {room allowed : Prop} {after : MemoryTables}
    (h : Fulfils action room allowed after state) (hlawful : room → allowed → after.Lawful) :
    Secures action (fun _ next => next.Valid ∧ room ∧ allowed ∧ next.tables = after) state := by
  apply Meets.mono h
  · rintro _ next ⟨hcoherent, hroom, hallowed, htables⟩
    refine ⟨⟨hcoherent, ?_⟩, hroom, hallowed, htables⟩
    rw [htables]
    exact hlawful hroom hallowed
  · exact fun _ _ _ => trivial
  · exact id

/-- A binding that retains a publication identifies its transfer. -/
theorem namedOwner_of_retains {binding : PeerTransferBinding} {key : MemoryPublicationKey}
    (h : binding.retainsPublication key = true) :
    NamedOwner (.peerTransfer binding.publicationOwner) := by
  intro peer hpeer
  obtain rfl := MemoryPublicationOwner.peerTransfer.inj hpeer
  simp only [PeerTransferBinding.retainsPublication, Bool.and_eq_true] at h
  obtain ⟨⟨⟨⟨-, htransfer⟩, hregistry⟩, htopology⟩, hcompletion⟩ := h
  simp only [PeerTransferPublicationOwner.hasValidIdentity, Bool.and_eq_true]
  exact ⟨⟨⟨htransfer, hregistry⟩, htopology⟩, hcompletion⟩

section

variable (h : state.Valid)
include h

theorem Valid.apply (transition : MemoryTransition) :
    Secures (apply transition) (fun _ next => next.Valid ∧ state.tables.HasRoom transition ∧
      state.tables.Allows transition ∧ next.tables = state.tables.effect transition) state :=
  Fulfils.secures (h.follows transition) h.lawful.effect

theorem Valid.publishMapping (key : MemoryPublicationKey)
    {owner : MemoryPublicationOwner} (howner : NamedOwner owner) :
    Secures (publishMapping key owner) (fun _ next => next.Valid ∧
      MemoryTables.Publishes owner key state.tables next.tables) state :=
  Fulfils.secures (h.publishMapping_fulfils key howner) h.lawful.addPublication

theorem Valid.releaseOwned (owner : MemoryPublicationOwner) (key : MemoryPublicationKey) :
    Secures (releaseOwned owner key) (fun _ next => next.Valid ∧
      MemoryTables.Withdraws owner key state.tables next.tables) state :=
  (Fulfils.secures (h.releaseOwned_fulfils owner key) fun _ _ =>
    h.lawful.releasePublication key).mono
    fun _ _ hnext => ⟨hnext.1, hnext.2.2⟩

/-! ### Checkpoints -/

/-- What a checkpoint keeps, as lists. -/
theorem Valid.compacted_eq : state.tables.compacted =
      { state.tables with
        publications := state.publications.records.filter fun record =>
          !state.compactPublications.contains record.key
        mappings := state.mappings.records.filter fun record =>
          !state.compactMappings.contains record.key
        allocations := state.allocations.records.filter fun record =>
          !state.compactAllocations.contains record.key
        reservations := state.reservations.records.filter fun record =>
          !state.compactReservations.contains record.key
        watermarks := state.issuedIdHighWatermarks.filter (keepsWatermark
          ((state.allocations.records.filter fun record =>
            !state.compactAllocations.contains record.key).map MemoryAllocationRecord.key)
          ((state.mappings.records.filter fun record =>
            !state.compactMappings.contains record.key).map MemoryMappingRecord.key)) } := by
  have hallocationKeys : DistinctKeys MemoryAllocationRecord.key state.allocations.records :=
    h.lawful.allocationKeys
  have hreservationKeys : DistinctKeys VaReservationRecord.key state.reservations.records :=
    h.lawful.reservationKeys
  have hmappingKeys : DistinctKeys MemoryMappingRecord.key state.mappings.records :=
    h.lawful.mappingKeys
  have hpublicationKeys : DistinctKeys MemoryPublicationRecord.key state.publications.records :=
    h.lawful.publicationKeys
  have hreservations : state.compactReservations =
      (state.reservations.records.filter fun record =>
        record.state == .released && state.allocations.records.all fun allocation =>
          allocation.reservation != record.key || allocation.state == .released).map
        VaReservationRecord.key := by
    unfold compactReservations compactAllocations
    congr 1
    apply filter_congr
    intro record _
    congr 1
    rw [Bool.eq_iff_iff, all_eq_true, all_eq_true]
    apply forall₂_congr
    intro allocation hmem
    rw [contains_key_filter hallocationKeys hmem]
  rw [hreservations, filter_not_contains_key hreservationKeys]
  unfold compactPublications compactMappings compactAllocations
  rw [filter_not_contains_key hpublicationKeys, filter_not_contains_key hmappingKeys,
    filter_not_contains_key hallocationKeys]
  rfl

/-- Removing the released records neither fails nor panics. -/
theorem Valid.compact :
    Meets (compact state.compactPublications state.compactMappings state.compactAllocations
      state.compactReservations) (fun _ next => next.Valid ∧ next.tables = state.tables.compacted)
      (fun _ _ => False) False state := by
  obtain ⟨publications, hpublications, hpublicationIndex, hpublicationRecords⟩ :=
    h.coherent.publications.retain fun record => !state.compactPublications.contains record.key
  obtain ⟨mappings, hmappings, hmappingIndex, hmappingRecords⟩ :=
    h.coherent.mappings.retain fun record => !state.compactMappings.contains record.key
  obtain ⟨allocations, hallocations, hallocationIndex, hallocationRecords⟩ :=
    h.coherent.allocations.retain fun record => !state.compactAllocations.contains record.key
  obtain ⟨reservations, hreservations, hreservationIndex, hreservationRecords⟩ :=
    h.coherent.reservations.retain fun record => !state.compactReservations.contains record.key
  simp only [MemoryLifecycleState.compact, meets_bind, meets_read, meets_expect, meets_update,
    hpublications, hmappings, hallocations, hreservations, Option.some.injEq, forall_eq',
    reduceCtorEq, false_implies, and_true]
  have htables := h.compacted_eq
  rw [← hpublicationRecords, ← hmappingRecords, ← hallocationRecords,
    ← hreservationRecords] at htables
  have hlawful := h.lawful.compacted
  rw [htables] at hlawful
  exact ⟨⟨⟨h.coherent.vms, hreservationIndex, hallocationIndex, hmappingIndex, hpublicationIndex⟩,
    hlawful⟩, htables.symm⟩

/-- Without anything to remove, compaction changes nothing. -/
theorem Valid.compacted_of_isEmpty (hmonotonic : state.identityDiscipline = .monotonicNonReusable)
    (hallocations : state.compactAllocations = []) (hmappings : state.compactMappings = [])
    (hpublications : state.compactPublications = [])
    (hreservations : state.compactReservations = []) : state.tables.compacted = state.tables := by
  have hkept : ∀ watermark ∈ state.issuedIdHighWatermarks,
      keepsWatermark (state.allocations.records.map MemoryAllocationRecord.key)
        (state.mappings.records.map MemoryMappingRecord.key) watermark = true := by
    intro watermark hmem
    have hscope := (h.lawful.monotonic hmonotonic).parents watermark hmem
    simp only [MemoryTables.scopes, mem_append, mem_map] at hscope
    unfold keepsWatermark
    obtain ((⟨_, _, heq⟩ | ⟨_, _, heq⟩) | ⟨record, hrecord, heq⟩) | ⟨record, hrecord, heq⟩ := hscope
    · rw [← heq]
    · rw [← heq]
    · rw [← heq]
      exact contains_iff_mem.mpr (mem_map_of_mem hrecord)
    · rw [← heq]
      exact contains_iff_mem.mpr (mem_map_of_mem hrecord)
  rw [h.compacted_eq, hallocations, hmappings, hpublications, hreservations]
  simp only [contains_nil, Bool.not_false, filter_true, filter_eq_self.mpr hkept]
  rfl

/-- A checkpoint removes what is released. -/
theorem Valid.checkpointReleased : Meets checkpointReleased
      (fun _ next => next.Valid ∧ next.tables = state.tables.compacted)
      (fun error _ => error = .checkpointRequiresMonotonicIdentities ∧
        state.identityDiscipline ≠ .monotonicNonReusable) False state := by
  have haccepted : ∀ {next : MemoryLifecycleState} {wrap : MemoryInvariantViolation →
      MemoryTransitionError}, next.Valid → next.validateGlobalInvariants.mapError wrap =
        .ok () := by
    intro next wrap hnext
    exact mapError_eq_ok.mpr hnext.validateGlobalInvariants
  unfold MemoryLifecycleState.checkpointReleased
  rw [meets_bind, meets_read, meets_bind, haccepted h, meets_lift_ok, meets_bind, meets_refuse]
  refine ⟨fun hdiscipline => ⟨rfl, bne_iff_ne.mp hdiscipline⟩, fun hdiscipline => ?_⟩
  rw [bne_eq_false_iff_eq] at hdiscipline
  split
  · next hempty =>
    simp only [Bool.and_eq_true, List.isEmpty_iff] at hempty
    obtain ⟨⟨⟨hallocations, hmappings⟩, hpublications⟩, hreservations⟩ := hempty
    exact ⟨h, (h.compacted_of_isEmpty hdiscipline hallocations hmappings hpublications
      hreservations).symm⟩
  · rw [meets_bind]
    refine h.compact.mono (fun _ next hnext => ?_) (fun _ _ hfalse => hfalse.elim) id
    rw [meets_bind, meets_read, haccepted hnext.1, meets_lift_ok]
    exact hnext

/-! ### Runs -/

/-- What a call that succeeds on a valid state does. -/
theorem Valid.perform (call : MemoryCall) :
    Secures (perform call) (fun _ next => next.Valid ∧ state.tables.Performs call next.tables)
      state := by
  cases call with
  | next transition => exact h.apply transition
  | publishComputeAqlQueueMappings keys queue =>
    exact secures_forM_through (fun key _ ht => ht.publishMapping key (namedOwner_queue queue)) keys
      h
  | releaseComputeAqlQueuePublications keys queue =>
    exact secures_forM_through (fun key _ ht => ht.releaseOwned (.computeAqlQueue queue) key) keys h
  | publishPeerTransferMapping key binding =>
    simp only [MemoryLifecycleState.perform, publishPeerTransferMapping, secures_bind,
      secures_refuse, Bool.not_eq_false']
    intro hretains
    exact h.publishMapping key (namedOwner_of_retains hretains)
  | releasePeerTransferPublication key binding =>
    simp only [MemoryLifecycleState.perform, releasePeerTransferPublication, secures_bind,
      secures_refuse]
    intro _
    exact h.releaseOwned (.peerTransfer binding.publicationOwner) key
  | checkpointReleased =>
    exact h.checkpointReleased.mono (fun _ _ hnext => hnext) (fun _ _ _ => trivial) id

end

theorem empty_valid (domainId : IdentityDigest) (discipline : MemoryIdentityDiscipline) :
    (empty domainId discipline).Valid := by
  have hissued : Issued (empty domainId discipline).tables.scopes
      (empty domainId discipline).tables.identities [] :=
    ⟨.nil, by simp, by simp, fun entry hentry => (nomatch hentry)⟩
  refine ⟨⟨IndexedJournal.new_coherent, IndexedJournal.new_coherent, IndexedJournal.new_coherent,
    IndexedJournal.new_coherent, IndexedJournal.new_coherent⟩, ?_⟩
  exact
    { bounded := ⟨Nat.zero_le _, Nat.zero_le _, Nat.zero_le _, Nat.zero_le _, Nat.zero_le _⟩
      vmKeys := .nil
      vms := fun vm hvm => (nomatch hvm)
      unshared := .nil
      reservationKeys := .nil
      reservations := fun reservation hmem => (nomatch hmem)
      apart := .nil
      allocationKeys := .nil
      allocations := fun allocation hmem => (nomatch hmem)
      succeeds := .nil
      exclusive := .nil
      mappingKeys := .nil
      mappings := fun mapping hmem => (nomatch hmem)
      publicationKeys := .nil
      publications := fun publication hmem => (nomatch hmem)
      reusable := fun _ => rfl
      monotonic := fun _ => hissued }

/-- A run leads to a valid state, with what every call keeps of the tables. -/
theorem Valid.run_keeps {P : MemoryTables → Prop} (h : state.Valid) (hstart : P state.tables)
    (hkeeps : ∀ before call after, MemoryTables.Performs before call after → P before → P after)
    (calls : List MemoryCall) :
    ∃ last, state.run calls = some last ∧ last.Valid ∧ P last.tables := by
  induction calls generalizing state with
  | nil => exact ⟨state, rfl, h, hstart⟩
  | cons call calls ih =>
    unfold MemoryLifecycleState.run
    obtain ⟨_, next, hdone, hnext⟩ | ⟨_, _, hfailed, -⟩ | ⟨-, hfalse⟩ := (h.perform call).outcomes
    · rw [hdone]
      exact ih hnext.1 (hkeeps _ call _ hnext.2 hstart)
    · rw [hfailed]
      exact ih h hstart
    · exact hfalse.elim

theorem Valid.run (h : state.Valid) (calls : List MemoryCall) :
    ∃ last, state.run calls = some last ∧ last.Valid := by
  obtain ⟨last, hrun, hvalid, -⟩ :=
    h.run_keeps (P := fun _ => True) trivial (fun _ _ _ _ h => h) calls
  exact ⟨last, hrun, hvalid⟩

/-- Under either identity discipline, every state that calls reach from an empty one passes all
    global checks, and a checkpoint of it is never refused for a broken invariant. -/
theorem global_invariants_kept (domainId : IdentityDigest) (discipline : MemoryIdentityDiscipline)
    (calls : List MemoryCall) :
    ∃ last, (empty domainId discipline).run calls = some last ∧
      last.validateGlobalInvariants = .ok () ∧
      ∀ violation state, checkpointReleased last ≠ .failed (.sourceInvariant violation) state ∧
        checkpointReleased last ≠ .failed (.nextInvariant violation) state := by
  obtain ⟨last, hrun, hvalid⟩ := (empty_valid domainId discipline).run calls
  refine ⟨last, hrun, hvalid.validateGlobalInvariants, fun violation state => ⟨?_, ?_⟩⟩
  · intro hfailed
    nomatch (hvalid.checkpointReleased.of_failed hfailed).1
  · intro hfailed
    nomatch (hvalid.checkpointReleased.of_failed hfailed).1

/-- The checks and journal writes of a transition against the contract on plain tables. -/
theorem transitions_exact (domainId : IdentityDigest) (discipline : MemoryIdentityDiscipline)
    (calls : List MemoryCall) :
    ∃ state, (empty domainId discipline).run calls = some state ∧
      ∀ transition,
        (state.tables.HasRoom transition ∧ state.tables.Allows transition →
          ∃ next, apply transition state = .done () next ∧
            next.tables = state.tables.effect transition) ∧
        (¬ (state.tables.HasRoom transition ∧ state.tables.Allows transition) →
          ∃ error next, apply transition state = .failed error next ∧
            Declines (state.tables.HasRoom transition) (state.tables.Allows transition) error) := by
  rcases (empty_valid domainId discipline).run calls with ⟨state, hrun, hvalid⟩
  refine ⟨state, hrun, ?_⟩
  intro transition
  rcases (hvalid.follows transition).outcomes with
    ⟨_, next, hdone, _, hroom, hallowed, htables⟩ | ⟨error, next, hfailed, hdeclines⟩ | ⟨_, hfalse⟩
  · constructor
    · intro _
      exact ⟨next, hdone, htables⟩
    · intro hnot
      exact absurd ⟨hroom, hallowed⟩ hnot
  · constructor
    · intro hboth
      -- an error denies the room or the permission
      cases error <;> first | exact absurd hboth.1 hdeclines | exact absurd hboth.2 hdeclines
    · intro _
      exact ⟨error, next, hfailed, hdeclines⟩
  · exact hfalse.elim

end MemoryLifecycleState

end Fe2o3.MemoryLifecycle
