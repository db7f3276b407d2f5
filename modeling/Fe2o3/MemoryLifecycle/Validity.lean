import Fe2o3.MemoryLifecycle.Validation

/-!
**What a valid memory state is**, without indexes and without the order of the checks.

`MemoryTables` is a state as six lists.  A record fits when its parents are there and
are in the states it needs; `Lawful` asks this of every record, together with the
relations between two records of one table and the watermarks.  The release order
that the source checks separately follows.  A state is `Valid` when its journals are
coherent and its tables are lawful, and then all checks pass.
-/

namespace Fe2o3.MemoryLifecycle

open Lib
open List hiding lookup
open RuntimeModel (IdentityDigest)
open MemoryLifecycleState (raise reached)

structure MemoryTables where
  domainId : IdentityDigest
  identityDiscipline : MemoryIdentityDiscipline
  vms : List MemoryVmRecord
  reservations : List VaReservationRecord
  allocations : List MemoryAllocationRecord
  mappings : List MemoryMappingRecord
  publications : List MemoryPublicationRecord
  watermarks : List MemoryIssuedIdHighWatermark

/-! ### Records that fit their tables -/

structure VmFits (domainId : IdentityDigest) (vm : MemoryVmRecord) : Prop where
  domain : vm.admission.domainId = domainId
  deviceDomains : ∀ device ∈ vm.mappingDevices, device.domainId = domainId
  identity : vm.key.id ≠ 0
  handle : vm.handle ≠ 0
  devices : validMappingAdmissions vm.mappingDevices vm.key.device = true
  aperture : validPageRange vm.aperture = true

/-- Two active VMs have different handles. -/
def Unshared (earlier later : MemoryVmRecord) : Prop :=
  earlier.state = .active → later.state = .active → earlier.handle ≠ later.handle

structure ReservationFits (vms : List MemoryVmRecord) (reservation : VaReservationRecord)
    (vm : MemoryVmRecord) : Prop where
  found : lookup MemoryVmRecord.key reservation.key.vm vms = some vm
  identity : reservation.key.id ≠ 0
  alignment : validAlignment reservation.alignment = true
  aligned : isMultipleOf reservation.range.base reservation.alignment = true
  pages : validPageRange reservation.range = true
  within : rangeWithin reservation.range vm.aperture = true
  active : reservation.state = .reserved → vm.state = .active

/-- Two reservations of one VM that are in force do not overlap. -/
def Apart (earlier later : VaReservationRecord) : Prop :=
  earlier.key.vm = later.key.vm → earlier.state = .reserved → later.state = .reserved →
    rangesOverlap earlier.range later.range = false

structure AllocationFits (vms : List MemoryVmRecord) (reservations : List VaReservationRecord)
    (allocation : MemoryAllocationRecord) (vm : MemoryVmRecord)
    (reservation : VaReservationRecord) : Prop where
  vmFound : lookup MemoryVmRecord.key allocation.key.vm vms = some vm
  found : lookup VaReservationRecord.key allocation.reservation reservations = some reservation
  bound : allocation.key.vm = allocation.reservation.vm
  identity : allocation.key.id ≠ 0
  generation : allocation.key.generation ≠ 0
  handle : allocation.handle ≠ 0
  spec : validAllocationSpec allocation.spec reservation = true
  active : allocation.state = .live → vm.state = .active
  reserved : allocation.state = .live → reservation.state = .reserved

/-- A later allocation with the same identity is of a later generation, and the earlier one is
    released. -/
def Succeeds (earlier later : MemoryAllocationRecord) : Prop :=
  earlier.key.vm = later.key.vm → earlier.key.id = later.key.id →
    earlier.key.generation < later.key.generation ∧ earlier.state = .released

/-- Two live allocations share neither their handle nor their reservation. -/
def Exclusive (earlier later : MemoryAllocationRecord) : Prop :=
  earlier.state = .live → later.state = .live →
    earlier.handle ≠ later.handle ∧ earlier.reservation ≠ later.reservation

/-- The mapped devices are a part of the target devices, as the state of the mapping wants it. -/
structure MappedRange (mapping : MemoryMappingRecord) : Prop where
  ordered : mapping.mappedStart ≤ mapping.mappedEnd
  inside : mapping.mappedEnd ≤ mapping.targetDevices.length
  valid : mapping.rangeIsValid = true

structure MappingFits (vms : List MemoryVmRecord) (allocations : List MemoryAllocationRecord)
    (mapping : MemoryMappingRecord) (allocation : MemoryAllocationRecord) (vm : MemoryVmRecord) :
    Prop where
  found : lookup MemoryAllocationRecord.key mapping.key.allocation allocations = some allocation
  vmFound : lookup MemoryVmRecord.key mapping.key.allocation.vm vms = some vm
  identity : mapping.key.id ≠ 0
  devices : deviceKeysEqualAdmissions mapping.targetDevices vm.mappingDevices = true
  range : MappedRange mapping
  live : mapping.state ≠ .released → allocation.state = .live

structure PublicationFits (mappings : List MemoryMappingRecord)
    (publication : MemoryPublicationRecord) (mapping : MemoryMappingRecord) : Prop where
  found : lookup MemoryMappingRecord.key publication.key.mapping mappings = some mapping
  identity : publication.key.id ≠ 0
  owner : MemoryLifecycleState.invalidOwner publication = false
  mapped : publication.state = .live → mapping.state = .mapped

/-! ### Watermarks -/

/-- The watermark of the scope has reached the identity. -/
def Covered (watermarks : List MemoryIssuedIdHighWatermark) (scope : MemoryIssuedIdScope)
    (id : Nat) : Prop :=
  ∃ watermark ∈ watermarks, watermark.scope = scope ∧ id ≤ watermark.lastId

/-- The watermarks are in the order of their scopes, belong to records that are there, and cover
    every identity. -/
structure Issued (scopes : List MemoryIssuedIdScope) (identities : List (MemoryIssuedIdScope × Nat))
    (watermarks : List MemoryIssuedIdHighWatermark) : Prop where
  ascending : watermarks.Pairwise fun earlier later =>
    Keyed.orderKey earlier.scope < Keyed.orderKey later.scope
  positive : ∀ watermark ∈ watermarks, watermark.lastId ≠ 0
  parents : ∀ watermark ∈ watermarks, watermark.scope ∈ scopes
  covered : ∀ entry ∈ identities, Covered watermarks entry.1 entry.2

section Watermarks

variable {scopes : List MemoryIssuedIdScope} {identities : List (MemoryIssuedIdScope × Nat)}
  {watermarks : List MemoryIssuedIdHighWatermark} {scope : MemoryIssuedIdScope} {id : Nat}

section

variable (h : Issued scopes identities watermarks)
include h

theorem Issued.distinct : DistinctKeys MemoryIssuedIdHighWatermark.scope watermarks := by
  apply h.ascending.imp
  intro earlier later hlt heq
  rw [heq] at hlt
  exact lt_irrefl _ hlt

/-- Where the search for a scope ends. -/
theorem Issued.ends (scope : MemoryIssuedIdScope) :
    Ends (fun watermark => compareKeys watermark.scope scope) watermarks
      (binarySearchBy (fun watermark => compareKeys watermark.scope scope) watermarks) :=
  ends_binarySearchBy (splits_of_ascending h.ascending)

theorem Issued.reached_eq_true :
    reached watermarks scope id = true ↔ Covered watermarks scope id := by
  have hends := h.ends scope
  unfold reached
  cases hsought : binarySearchBy (fun watermark => compareKeys watermark.scope scope)
    watermarks with
  | found index =>
    rw [hsought] at hends
    obtain ⟨watermark, hindex, hscope⟩ := hends
    rw [compareKeys_eq_eq] at hscope
    simp only [Sought.found?, Option.bind_some, hindex, Option.any_some, decide_eq_true_eq]
    constructor
    · intro hle
      exact ⟨watermark, mem_of_getElem? hindex, hscope, hle⟩
    · rintro ⟨other, hother, hotherScope, hle⟩
      rwa [eq_of_same_key h.distinct (mem_of_getElem? hindex) hother
        (hscope.trans hotherScope.symm)]
  | missing index =>
    rw [hsought] at hends
    simp only [Sought.found?, Option.bind_none, Option.any_none, Bool.false_eq_true, false_iff]
    rintro ⟨other, hother, hscope, -⟩
    exact hends.ne_of_missing hother (compareKeys_eq_eq.mpr hscope)

/-- After an identity was issued, one watermark is new or raised and the others stay. -/
theorem Issued.raised (scope : MemoryIssuedIdScope) (id : Nat) :
    (raise watermarks scope id).Pairwise
      (fun earlier later => Keyed.orderKey earlier.scope < Keyed.orderKey later.scope) ∧
    ∀ watermark, watermark ∈ raise watermarks scope id ↔
      watermark ∈ watermarks ∧ watermark.scope ≠ scope ∨ watermark = ⟨scope, id⟩ := by
  have hends := h.ends scope
  unfold raise
  cases hsought : binarySearchBy (fun watermark => compareKeys watermark.scope scope)
    watermarks with
  | found index =>
    rw [hsought] at hends
    obtain ⟨found, hindex, hscope⟩ := hends
    rw [compareKeys_eq_eq] at hscope
    refine ⟨?_, fun watermark => ⟨fun hwatermark => ?_, fun hwatermark => ?_⟩⟩
    · have hkeys := pairwise_map.mpr h.ascending
      rw [← map_modify_of_eq (f := fun watermark => { watermark with lastId := id })] at hkeys
      · exact pairwise_map.mp hkeys
      · exact fun _ => rfl
    · obtain ⟨hold, hne⟩ | rfl := mem_modify h.distinct hindex hwatermark
      · exact .inl ⟨hold, hscope ▸ hne⟩
      · exact .inr (by rw [hscope])
    · obtain ⟨hold, hne⟩ | rfl := hwatermark
      · obtain ⟨j, hj⟩ := getElem?_of_mem hold
        have hij : index ≠ j := by
          rintro rfl
          rw [hindex] at hj
          exact hne (Option.some.inj hj ▸ hscope)
        exact mem_of_getElem? ((getElem?_modify_of_ne hij).trans hj)
      · have hself := mem_modify_self (f := fun watermark => { watermark with lastId := id }) hindex
        rwa [hscope] at hself
  | missing index =>
    rw [hsought] at hends
    have hnone := fun watermark => hends.ne_of_missing (x := watermark)
    obtain ⟨hle, hbelow, habove⟩ := hends
    refine ⟨pairwise_insertIdx h.ascending hle ?_ ?_, fun watermark => ?_⟩
    · exact fun j watermark hlt hj => compareKeys_eq_lt.mp (hbelow j watermark hlt hj)
    · exact fun j watermark hge hj => compareKeys_eq_gt.mp (habove j watermark hge hj)
    · rw [mem_insertIdx hle]
      constructor
      · rintro (rfl | hold)
        · exact .inr rfl
        · exact .inl ⟨hold, fun hscope => hnone watermark hold (compareKeys_eq_eq.mpr hscope)⟩
      · rintro (⟨hold, -⟩ | rfl)
        · exact .inr hold
        · exact .inl rfl

/-- The watermarks after an identity was issued. -/
theorem Issued.raise (hid : id ≠ 0)
    (hparent : scope ∈ scopes) (hnext : ¬ Covered watermarks scope id) :
    Issued scopes ((scope, id) :: identities) (raise watermarks scope id) := by
  obtain ⟨hascending, hmem⟩ := h.raised scope id
  refine ⟨hascending, fun watermark hwatermark => ?_, fun watermark hwatermark => ?_,
    fun entry hentry => ?_⟩
  · obtain ⟨hold, -⟩ | rfl := (hmem watermark).mp hwatermark
    · exact h.positive watermark hold
    · exact hid
  · obtain ⟨hold, -⟩ | rfl := (hmem watermark).mp hwatermark
    · exact h.parents watermark hold
    · exact hparent
  · obtain rfl | hentry := mem_cons.mp hentry
    · exact ⟨⟨scope, id⟩, (hmem _).mpr (.inr rfl), rfl, Nat.le_refl id⟩
    · obtain ⟨watermark, hold, hscope, hle⟩ := h.covered entry hentry
      by_cases hsame : watermark.scope = scope
      · refine ⟨⟨scope, id⟩, (hmem _).mpr (.inr rfl), hsame.symm.trans hscope, ?_⟩
        have hlt : ¬ id ≤ watermark.lastId := fun hle => hnext ⟨watermark, hold, hsame, hle⟩
        show entry.2 ≤ id
        omega
      · exact ⟨watermark, (hmem _).mpr (.inl ⟨hold, hsame⟩), hscope, hle⟩

end

end Watermarks

variable {mapping : MemoryMappingRecord} {publication : MemoryPublicationRecord}
  {allocation : MemoryAllocationRecord}

variable {reservation : VaReservationRecord} {vm : MemoryVmRecord}

namespace MemoryTables

/-- The scopes of the records that are there. -/
def scopes (tables : MemoryTables) : List MemoryIssuedIdScope :=
  tables.vms.map (fun vm => .vaReservation vm.key) ++
    tables.vms.map (fun vm => .allocation vm.key) ++
    tables.allocations.map (fun allocation => .mapping allocation.key) ++
    tables.mappings.map (fun mapping => .publication mapping.key)

/-- The identities of the records that are there, with their scopes. -/
def identities (tables : MemoryTables) : List (MemoryIssuedIdScope × Nat) :=
  tables.reservations.map (fun record => (.vaReservation record.key.vm, record.key.id)) ++
    tables.allocations.map (fun record => (.allocation record.key.vm, record.key.id)) ++
    tables.mappings.map (fun record => (.mapping record.key.allocation, record.key.id)) ++
    tables.publications.map (fun record => (.publication record.key.mapping, record.key.id))

structure Bounded (tables : MemoryTables) : Prop where
  vms : tables.vms.length ≤ maxMemoryVms
  reservations : tables.reservations.length ≤ maxVaReservations
  allocations : tables.allocations.length ≤ maxMemoryAllocations
  mappings : tables.mappings.length ≤ maxMemoryMappings
  publications : tables.publications.length ≤ maxMemoryPublications

/-- Every record fits, and any two records of one table go together. -/
structure Fitting (tables : MemoryTables) : Prop where
  bounded : tables.Bounded
  vmKeys : DistinctKeys MemoryVmRecord.key tables.vms
  vms : ∀ vm ∈ tables.vms, VmFits tables.domainId vm
  unshared : tables.vms.Pairwise Unshared
  reservationKeys : DistinctKeys VaReservationRecord.key tables.reservations
  reservations : ∀ reservation ∈ tables.reservations, ∃ vm,
    ReservationFits tables.vms reservation vm
  apart : tables.reservations.Pairwise Apart
  allocationKeys : DistinctKeys MemoryAllocationRecord.key tables.allocations
  allocations : ∀ allocation ∈ tables.allocations, ∃ vm reservation,
    AllocationFits tables.vms tables.reservations allocation vm reservation
  succeeds : tables.allocations.Pairwise Succeeds
  exclusive : tables.allocations.Pairwise Exclusive
  mappingKeys : DistinctKeys MemoryMappingRecord.key tables.mappings
  mappings : ∀ mapping ∈ tables.mappings, ∃ allocation vm,
    MappingFits tables.vms tables.allocations mapping allocation vm
  publicationKeys : DistinctKeys MemoryPublicationRecord.key tables.publications
  publications : ∀ publication ∈ tables.publications, ∃ mapping,
    PublicationFits tables.mappings publication mapping

/-- The watermarks are those of the identity discipline. -/
structure Marked (tables : MemoryTables) : Prop where
  reusable : tables.identityDiscipline = .reusableGenerations → tables.watermarks = []
  monotonic : tables.identityDiscipline = .monotonicNonReusable →
    Issued tables.scopes tables.identities tables.watermarks

structure Lawful (tables : MemoryTables) : Prop extends tables.Fitting, tables.Marked

variable {tables : MemoryTables}

/-! ### The order of releases -/

section

variable (h : tables.Fitting)
include h

/-- A mapping of a released allocation is released. -/
theorem Fitting.mapping_released (hmapping : mapping ∈ tables.mappings)
    (hallocation : allocation ∈ tables.allocations) (hkey : mapping.key.allocation = allocation.key)
    (hreleased : allocation.state = .released) : mapping.state = .released := by
  obtain ⟨parent, vm, hfits⟩ := h.mappings mapping hmapping
  obtain rfl := eq_of_lookup h.allocationKeys hallocation hkey hfits.found
  by_contra hstate
  nomatch hreleased.symm.trans (hfits.live hstate)

/-- A publication on a released mapping is released. -/
theorem Fitting.publication_released (hpublication : publication ∈ tables.publications)
    (hmapping : mapping ∈ tables.mappings) (hkey : publication.key.mapping = mapping.key)
    (hstate : mapping.state ≠ .mapped) : publication.state = .released := by
  obtain ⟨parent, hfits⟩ := h.publications publication hpublication
  obtain rfl := eq_of_lookup h.mappingKeys hmapping hkey hfits.found
  cases hlive : publication.state with
  | released => rfl
  | live => exact absurd (hfits.mapped hlive) hstate

/-- The mapping of a publication is there. -/
theorem Fitting.exists_mapping (hpublication : publication ∈ tables.publications) :
    ∃ mapping ∈ tables.mappings, publication.key.mapping = mapping.key := by
  obtain ⟨mapping, hfits⟩ := h.publications publication hpublication
  exact ⟨mapping, lookup_mem hfits.found, (lookup_key hfits.found).symm⟩

/-- The allocation of a mapping is there. -/
theorem Fitting.exists_allocation (hmapping : mapping ∈ tables.mappings) :
    ∃ allocation ∈ tables.allocations, mapping.key.allocation = allocation.key := by
  obtain ⟨allocation, vm, hfits⟩ := h.mappings mapping hmapping
  exact ⟨allocation, lookup_mem hfits.found, (lookup_key hfits.found).symm⟩

theorem Fitting.allocation_released (hallocation : allocation ∈ tables.allocations)
    (hreservation : reservation ∈ tables.reservations)
    (hkey : allocation.reservation = reservation.key) (hreleased : reservation.state = .released) :
    allocation.state = .released := by
  obtain ⟨vm, parent, hfits⟩ := h.allocations allocation hallocation
  obtain rfl := eq_of_lookup h.reservationKeys hreservation hkey hfits.found
  cases hlive : allocation.state with
  | released => rfl
  | live =>
    nomatch hreleased.symm.trans (hfits.reserved hlive)

/-- Everything of a retired VM is released. -/
structure Retired (tables : MemoryTables) (key : RuntimeModel.VmKey) : Prop where
  reservations : ∀ record ∈ tables.reservations, record.key.vm = key → record.state = .released
  allocations : ∀ record ∈ tables.allocations, record.key.vm = key → record.state = .released
  mappings : ∀ record ∈ tables.mappings, record.key.allocation.vm = key → record.state = .released
  publications : ∀ record ∈ tables.publications, record.key.mapping.allocation.vm = key →
    record.state = .released

theorem Fitting.retired (hvm : vm ∈ tables.vms) (hretired : vm.state = .retired) :
    tables.Retired vm.key := by
  have hallocations : ∀ record ∈ tables.allocations, record.key.vm = vm.key →
      record.state = .released := by
    intro record hrecord hkey
    obtain ⟨parent, reservation, hfits⟩ := h.allocations record hrecord
    obtain rfl := eq_of_lookup h.vmKeys hvm hkey hfits.vmFound
    cases hlive : record.state with
    | released => rfl
    | live =>
      nomatch hretired.symm.trans (hfits.active hlive)
  have hmappings : ∀ record ∈ tables.mappings, record.key.allocation.vm = vm.key →
      record.state = .released := by
    intro record hrecord hkey
    obtain ⟨allocation, hallocation, hparent⟩ := h.exists_allocation hrecord
    rw [hparent] at hkey
    exact h.mapping_released hrecord hallocation hparent (hallocations allocation hallocation hkey)
  refine ⟨fun record hrecord hkey => ?_, hallocations, hmappings, fun record hrecord hkey => ?_⟩
  · obtain ⟨parent, hfits⟩ := h.reservations record hrecord
    obtain rfl := eq_of_lookup h.vmKeys hvm hkey hfits.found
    cases hreserved : record.state with
    | released => rfl
    | reserved =>
      nomatch hretired.symm.trans (hfits.active hreserved)
  · obtain ⟨mapping, hmapping, hparent⟩ := h.exists_mapping hrecord
    rw [hparent] at hkey
    apply h.publication_released hrecord hmapping hparent
    rw [hmappings mapping hmapping hkey]
    decide

end

/-! ### The number of watermarks -/

/-- There are no more watermarks than scopes. -/
theorem Lawful.length_watermarks (h : tables.Lawful) :
    tables.watermarks.length ≤ maxMemoryIssuedIdHighWatermarks := by
  cases hdiscipline : tables.identityDiscipline with
  | reusableGenerations =>
    rw [h.reusable hdiscipline]
    exact Nat.zero_le _
  | monotonicNonReusable =>
    have hissued := h.monotonic hdiscipline
    have hnodup := distinctKeys_iff_map_nodup.mp hissued.distinct
    have hsubset : (tables.watermarks.map (·.scope)) ⊆ tables.scopes := by
      intro scope hscope
      obtain ⟨watermark, hwatermark, rfl⟩ := mem_map.mp hscope
      exact hissued.parents watermark hwatermark
    have hlength := (subperm_of_subset hnodup hsubset).length_le
    have hvms := h.bounded.vms
    have hallocations := h.bounded.allocations
    have hmappings := h.bounded.mappings
    simp only [scopes, length_append, length_map] at hlength
    unfold maxMemoryIssuedIdHighWatermarks
    omega

end MemoryTables

/-! ### Valid states pass all checks -/

namespace MemoryLifecycleState

def tables (state : MemoryLifecycleState) : MemoryTables :=
  ⟨state.domainId, state.identityDiscipline, state.vms.records, state.reservations.records,
    state.allocations.records, state.mappings.records, state.publications.records,
    state.issuedIdHighWatermarks⟩

structure Coherent (state : MemoryLifecycleState) : Prop where
  vms : state.vms.Coherent
  reservations : state.reservations.Coherent
  allocations : state.allocations.Coherent
  mappings : state.mappings.Coherent
  publications : state.publications.Coherent

structure Valid (state : MemoryLifecycleState) : Prop where
  coherent : state.Coherent
  lawful : state.tables.Lawful

variable {state : MemoryLifecycleState}

theorem validateVm_ok {earlier : List MemoryVmRecord} (hfits : VmFits state.domainId vm)
    (hearlier : ∀ old ∈ earlier, old.key ≠ vm.key ∧ Unshared old vm) :
    state.validateVm earlier vm = .ok () := by
  simp only [validateVm, seq_eq_ok, failIf_eq_ok, forM_eq_ok]
  refine ⟨?_, by simp [hfits.identity, hfits.handle], by simp [hfits.devices],
    by simp [hfits.aperture], fun old hold => ⟨?_, ?_⟩⟩
  · simpa [hfits.domain] using hfits.deviceDomains
  · simpa using (hearlier old hold).1
  · simpa using fun hvm hold' => (hearlier old hold).2 hold' hvm

theorem vmInUse_eq_false {key : RuntimeModel.VmKey} :
    state.vmInUse key = false ↔ state.tables.Retired key := by
  simp only [vmInUse, Bool.or_eq_false_iff, any_eq_false, Bool.and_eq_true, beq_iff_eq,
    bne_iff_ne, not_and, not_not, ne_eq]
  constructor
  · rintro ⟨⟨⟨hreservations, hallocations⟩, hmappings⟩, hpublications⟩
    exact ⟨hreservations, hallocations, hmappings, hpublications⟩
  · rintro ⟨hreservations, hallocations, hmappings, hpublications⟩
    exact ⟨⟨⟨hreservations, hallocations⟩, hmappings⟩, hpublications⟩

section

variable (h : state.Valid)
include h

theorem Valid.validateJournalIndexes : state.validateJournalIndexes = .ok () := by
  simp only [MemoryLifecycleState.validateJournalIndexes, forM_eq_ok, failIf_eq_ok,
    forall_mem_cons, Bool.not_eq_false']
  exact ⟨h.coherent.vms.indexIsCoherent, h.coherent.reservations.indexIsCoherent,
    h.coherent.allocations.indexIsCoherent, h.coherent.mappings.indexIsCoherent,
    h.coherent.publications.indexIsCoherent, by simp⟩

theorem Valid.validateCapacities : state.validateCapacities = .ok () := by
  have hbounded := h.lawful.bounded
  simp only [MemoryLifecycleState.validateCapacities, forM_eq_ok, failIf_eq_ok,
    forall_mem_cons, decide_eq_false_iff_not, Nat.not_lt]
  exact ⟨hbounded.vms, hbounded.reservations, hbounded.allocations, hbounded.mappings,
    hbounded.publications, h.lawful.length_watermarks, by simp⟩

theorem Valid.validateReservation_ok {earlier : List VaReservationRecord}
    (hfits : ∃ vm, ReservationFits state.vms.records reservation vm)
    (hearlier : ∀ old ∈ earlier, old.key ≠ reservation.key ∧ Apart old reservation) :
    state.validateReservation earlier reservation = .ok () := by
  obtain ⟨vm, hfits⟩ := hfits
  simp only [validateReservation, bind_eq_ok, exists_const, failIf_eq_ok, okOr_eq_ok, forM_eq_ok,
    h.coherent.vms.get_eq]
  refine ⟨vm, hfits.found, by simp [hfits.identity], by simp [hfits.alignment, hfits.aligned],
    by simp [hfits.pages, hfits.within], by simpa using hfits.active, fun old hold => ⟨?_, ?_⟩⟩
  · simpa using (hearlier old hold).1
  · have hapart := (hearlier old hold).2
    unfold Apart at hapart
    simpa using hapart

theorem Valid.validateAllocation_ok {earlier : List MemoryAllocationRecord}
    (hfits : ∃ vm reservation, AllocationFits state.vms.records state.reservations.records
      allocation vm reservation)
    (hearlier : ∀ old ∈ earlier, old.key ≠ allocation.key ∧ Succeeds old allocation ∧
      Exclusive old allocation) :
    state.validateAllocation earlier allocation = .ok () := by
  obtain ⟨vm, reservation, hfits⟩ := hfits
  simp only [validateAllocation, bind_eq_ok, exists_const, failIf_eq_ok, okOr_eq_ok, forM_eq_ok,
    h.coherent.vms.get_eq, h.coherent.reservations.get_eq]
  refine ⟨vm, hfits.vmFound, reservation, hfits.found, by simp [hfits.bound],
    by simp [hfits.identity, hfits.generation, hfits.handle], by simp [hfits.spec], ?_,
    fun old hold => ?_⟩
  · by_cases hlive : allocation.state = .live
    · simp [hfits.active hlive, hfits.reserved hlive]
    · simp [hlive]
  · obtain ⟨hkey, hsucceeds, hexclusive⟩ := hearlier old hold
    refine ⟨by simpa using hkey, ?_⟩
    have hlast : (allocation.state == .live && old.state == .live &&
        (old.handle == allocation.handle || old.reservation == allocation.reservation)) =
          false := by
      simpa using fun hlive hold => hexclusive hold hlive
    split
    · next hsame =>
      obtain ⟨hlt, hreleased⟩ := hsucceeds hsame.1 hsame.2
      simp only [seq_eq_ok, failIf_eq_ok]
      exact ⟨by simpa using hlt, by simp [hreleased], hlast⟩
    · rw [failIf_eq_ok]
      exact hlast

theorem Valid.validateMapping_ok {earlier : List MemoryMappingRecord}
    (hfits : ∃ allocation vm, MappingFits state.vms.records state.allocations.records mapping
      allocation vm)
    (hearlier : ∀ old ∈ earlier, old.key ≠ mapping.key) :
    state.validateMapping earlier mapping = .ok () := by
  obtain ⟨allocation, vm, hfits⟩ := hfits
  simp only [validateMapping, bind_eq_ok, exists_const, failIf_eq_ok, okOr_eq_ok,
    h.coherent.vms.get_eq, h.coherent.allocations.get_eq]
  refine ⟨allocation, hfits.found, vm, hfits.vmFound, by simp [hfits.identity],
    by simp [hfits.devices], by simp [hfits.range.ordered, hfits.range.inside],
    by simp [hfits.range.valid], by simpa using hfits.live, by simpa using hearlier⟩

theorem Valid.validatePublication_ok {earlier : List MemoryPublicationRecord}
    (hfits : ∃ mapping, PublicationFits state.mappings.records publication mapping)
    (hearlier : ∀ old ∈ earlier, old.key ≠ publication.key) :
    state.validatePublication earlier publication = .ok () := by
  obtain ⟨mapping, hfits⟩ := hfits
  simp only [validatePublication, bind_eq_ok, exists_const, failIf_eq_ok, okOr_eq_ok,
    h.coherent.mappings.get_eq]
  refine ⟨mapping, hfits.found, by simp [hfits.identity], hfits.owner, by simpa using hfits.mapped,
    by simpa using hearlier⟩

theorem Valid.validateReleaseOrder : state.validateReleaseOrder = .ok () := by
  simp only [MemoryLifecycleState.validateReleaseOrder, seq_eq_ok, failIf_eq_ok, forM_eq_ok]
  refine ⟨fun allocation hallocation => ?_, fun reservation hreservation => ?_, fun vm hvm => ?_⟩
  · have hmappings : ∀ mapping ∈ state.mappings.records, mapping.key.allocation = allocation.key →
        allocation.state = .released → mapping.state = .released :=
      fun mapping hmapping hkey => h.lawful.mapping_released hmapping hallocation hkey
    have hpublications : ∀ publication ∈ state.publications.records,
        publication.key.mapping.allocation = allocation.key → allocation.state = .released →
        publication.state = .released := by
      intro publication hpublication hkey hreleased
      obtain ⟨mapping, hmapping, hparent⟩ := h.lawful.exists_mapping hpublication
      rw [hparent] at hkey
      apply h.lawful.publication_released hpublication hmapping hparent
      rw [hmappings mapping hmapping hkey hreleased]
      decide
    by_cases hreleased : allocation.state = .released
    · simpa [hreleased] using ⟨
        fun mapping hmapping hkey => hmappings mapping hmapping hkey hreleased,
        fun publication hpublication hkey =>
          hpublications publication hpublication hkey hreleased⟩
    · simp [hreleased]
  · by_cases hreleased : reservation.state = .released
    · have hallocations : ∀ allocation ∈ state.allocations.records,
          allocation.reservation = reservation.key → allocation.state = .released :=
        fun allocation hallocation hkey =>
          h.lawful.allocation_released hallocation hreservation hkey hreleased
      simpa [hreleased] using hallocations
    · simp [hreleased]
  · by_cases hretired : vm.state = .retired
    · rw [vmInUse_eq_false.mpr (h.lawful.retired hvm hretired), Bool.and_false]
    · simp [hretired]

theorem Valid.exists_parent {scope : MemoryIssuedIdScope}
    (hscope : scope ∈ state.tables.scopes) : state.parentExists scope = true := by
  simp only [MemoryTables.scopes, tables, mem_append, mem_map] at hscope
  obtain ((⟨vm, hvm, rfl⟩ | ⟨vm, hvm, rfl⟩) | ⟨allocation, hallocation, rfl⟩) |
    ⟨mapping, hmapping, rfl⟩ := hscope
  · rw [parentExists, h.coherent.vms.get_eq]
    exact isSome_lookup_of_mem hvm
  · rw [parentExists, h.coherent.vms.get_eq]
    exact isSome_lookup_of_mem hvm
  · rw [parentExists, h.coherent.allocations.get_eq]
    exact isSome_lookup_of_mem hallocation
  · rw [parentExists, h.coherent.mappings.get_eq]
    exact isSome_lookup_of_mem hmapping

theorem Valid.validateIssuedIdHighWatermarks : state.validateIssuedIdHighWatermarks = .ok () := by
  unfold MemoryLifecycleState.validateIssuedIdHighWatermarks
  cases hdiscipline : state.identityDiscipline with
  | reusableGenerations =>
    have hnone : state.issuedIdHighWatermarks = [] := h.lawful.reusable hdiscipline
    rw [hnone]
  | monotonicNonReusable =>
    have hissued := h.lawful.monotonic hdiscipline
    have hcovered : ∀ scope id, (scope, id) ∈ state.tables.identities →
        state.validateIssuedId scope id = .ok () := by
      intro scope id hentry
      have hreached : reached state.issuedIdHighWatermarks scope id = true :=
        hissued.reached_eq_true.mpr (hissued.covered _ hentry)
      rw [validateIssuedId, failIf_eq_ok, hreached]
      rfl
    simp only [seq_eq_ok, forM_eq_ok]
    simp only [MemoryTables.identities, tables, mem_append, mem_map] at hcovered
    refine ⟨?_, fun record hrecord => ?_, fun record hrecord => ?_, fun record hrecord => ?_,
      fun record hrecord => ?_⟩
    · apply checkRows_ok _ (fun _ hwatermark => hwatermark) hissued.ascending
      intro earlier watermark hwatermark hearlier
      rw [validateWatermark, seq_eq_ok, failIf_eq_ok, failIf_eq_ok,
        h.exists_parent (hissued.parents watermark hwatermark)]
      simpa [hissued.positive watermark hwatermark, compareKeys_eq_lt] using hearlier
    · exact hcovered _ _ (.inl (.inl (.inl ⟨record, hrecord, rfl⟩)))
    · exact hcovered _ _ (.inl (.inl (.inr ⟨record, hrecord, rfl⟩)))
    · exact hcovered _ _ (.inl (.inr ⟨record, hrecord, rfl⟩))
    · exact hcovered _ _ (.inr ⟨record, hrecord, rfl⟩)

theorem Valid.validateGlobalInvariants : state.validateGlobalInvariants = .ok () := by
  have hlawful := h.lawful
  simp only [MemoryLifecycleState.validateGlobalInvariants, seq_eq_ok]
  refine ⟨h.validateJournalIndexes, h.validateCapacities, ?_, ?_, ?_, ?_, ?_,
    h.validateReleaseOrder, h.validateIssuedIdHighWatermarks⟩
  · exact checkRows_ok (fun _ _ => validateVm_ok) hlawful.vms
      (hlawful.vmKeys.and hlawful.unshared)
  · exact checkRows_ok (fun _ _ => h.validateReservation_ok) hlawful.reservations
      (hlawful.reservationKeys.and hlawful.apart)
  · exact checkRows_ok (fun _ _ => h.validateAllocation_ok) hlawful.allocations
      (hlawful.allocationKeys.and (hlawful.succeeds.and hlawful.exclusive))
  · exact checkRows_ok (fun _ _ => h.validateMapping_ok) hlawful.mappings hlawful.mappingKeys
  · exact checkRows_ok (fun _ _ => h.validatePublication_ok) hlawful.publications
      hlawful.publicationKeys

end

end MemoryLifecycleState

end Fe2o3.MemoryLifecycle
