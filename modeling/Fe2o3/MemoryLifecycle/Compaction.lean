import Fe2o3.MemoryLifecycle.Runs

/-!
# Tables without released records

`Trims full trimmed` says that `trimmed` may lack released records of `full` and the
watermarks whose scopes went with them.  Under the monotonic discipline such tables
allow the same transitions: a guard that saw a released record is answered by the
watermark of its scope, or by the parent that is no longer in force.  Allowed
transitions and further compactions keep the relation.
-/

namespace Fe2o3.MemoryLifecycle

open Lib
open List hiding lookup
open Lib.Command
open RuntimeModel (VmKey)

/-! ### Records in force -/

def VaReservationRecord.inForce (record : VaReservationRecord) : Bool := record.state != .released

def MemoryAllocationRecord.inForce (record : MemoryAllocationRecord) : Bool :=
  record.state != .released

def MemoryMappingRecord.inForce (record : MemoryMappingRecord) : Bool := record.state != .released

def MemoryPublicationRecord.inForce (record : MemoryPublicationRecord) : Bool :=
  record.state != .released

/-- The scope of a VM, which no compaction removes. -/
def MemoryIssuedIdScope.isOfVm : MemoryIssuedIdScope → Bool
  | .vaReservation _ | .allocation _ => true
  | .mapping _ | .publication _ => false

def allocationEntry (key : MemoryAllocationKey) : MemoryIssuedIdScope × Nat :=
  (.allocation key.vm, key.id)

def mappingEntry (key : MemoryMappingKey) : MemoryIssuedIdScope × Nat :=
  (.mapping key.allocation, key.id)

def publicationEntry (key : MemoryPublicationKey) : MemoryIssuedIdScope × Nat :=
  (.publication key.mapping, key.id)

variable {id : Nat} {new : VaReservationRecord} {tables : MemoryTables}
  {transition : MemoryTransition} {vm : VmKey} {ρ : Type}

namespace MemoryTables

/-- The VMs, the unreleased records and the watermarks of VMs. -/
def inForce (tables : MemoryTables) : MemoryTables :=
  { tables with
    reservations := tables.reservations.filter VaReservationRecord.inForce
    allocations := tables.allocations.filter MemoryAllocationRecord.inForce
    mappings := tables.mappings.filter MemoryMappingRecord.inForce
    publications := tables.publications.filter MemoryPublicationRecord.inForce
    watermarks := tables.watermarks.filter fun watermark => watermark.scope.isOfVm }

/-! ### Scopes and watermarks -/

variable {key : MemoryMappingKey} {scope : MemoryIssuedIdScope}

variable {record : MemoryPublicationRecord}

section Scopes

variable {tables : MemoryTables}

@[simp]
theorem vaReservation_mem_scopes : MemoryIssuedIdScope.vaReservation vm ∈ tables.scopes ↔
    ∃ record ∈ tables.vms, record.key = vm := by
  simp [scopes]

@[simp]
theorem allocation_mem_scopes :
    MemoryIssuedIdScope.allocation vm ∈ tables.scopes ↔ ∃ record ∈ tables.vms, record.key = vm := by
  simp [scopes]

@[simp]
theorem mapping_mem_scopes {key : MemoryAllocationKey} :
    MemoryIssuedIdScope.mapping key ∈ tables.scopes ↔
      ∃ record ∈ tables.allocations, record.key = key := by
  simp [scopes]

@[simp]
theorem publication_mem_scopes :
    MemoryIssuedIdScope.publication key ∈ tables.scopes ↔
      ∃ record ∈ tables.mappings, record.key = key := by
  simp [scopes]

theorem mem_identities_reservation {record : VaReservationRecord}
    (hmem : record ∈ tables.reservations) :
    (.vaReservation record.key.vm, record.key.id) ∈ tables.identities := by
  simp only [identities, mem_append, mem_map]
  exact .inl (.inl (.inl ⟨record, hmem, rfl⟩))

theorem mem_identities_allocation {record : MemoryAllocationRecord}
    (hmem : record ∈ tables.allocations) : allocationEntry record.key ∈ tables.identities := by
  simp only [identities, mem_append, mem_map]
  exact .inl (.inl (.inr ⟨record, hmem, rfl⟩))

theorem mem_identities_mapping {record : MemoryMappingRecord} (hmem : record ∈ tables.mappings) :
    mappingEntry record.key ∈ tables.identities := by
  simp only [identities, mem_append, mem_map]
  exact .inl (.inr ⟨record, hmem, rfl⟩)

theorem mem_identities_publication (hmem : record ∈ tables.publications) :
    publicationEntry record.key ∈ tables.identities := by
  simp only [identities, mem_append, mem_map]
  exact .inr ⟨record, hmem, rfl⟩

/-- A record with an identity that was not issued is not there. -/
theorem Lawful.not_mem_of_unissued (h : tables.Lawful)
    (hmonotonic : tables.identityDiscipline = .monotonicNonReusable)
    (hunissued : tables.Unissued scope id) : (scope, id) ∉ tables.identities :=
  fun hentry => hunissued hmonotonic ((h.monotonic hmonotonic).covered _ hentry)

end Scopes

/-! ### The same transitions are allowed -/

/-- Two lawful tables with the same records in force, which agree on the identities issued in the
    scopes of both. -/
structure Mirrors (left right : MemoryTables) : Prop where
  monotonic : left.identityDiscipline = .monotonicNonReusable
  monotonic' : right.identityDiscipline = .monotonicNonReusable
  lawful : left.Lawful
  lawful' : right.Lawful
  domainId : left.domainId = right.domainId
  vms : left.vms = right.vms
  reservations : left.reservations.filter VaReservationRecord.inForce =
    right.reservations.filter VaReservationRecord.inForce
  allocations : left.allocations.filter MemoryAllocationRecord.inForce =
    right.allocations.filter MemoryAllocationRecord.inForce
  mappings : left.mappings.filter MemoryMappingRecord.inForce =
    right.mappings.filter MemoryMappingRecord.inForce
  publications : left.publications.filter MemoryPublicationRecord.inForce =
    right.publications.filter MemoryPublicationRecord.inForce
  covered : ∀ scope, scope ∈ left.scopes → scope ∈ right.scopes → ∀ id,
    Covered left.watermarks scope id ↔ Covered right.watermarks scope id

section Verdicts

variable {left right : MemoryTables}

section

variable (h : Mirrors left right)
include h

theorem Mirrors.symm : Mirrors right left :=
  ⟨h.monotonic', h.monotonic, h.lawful', h.lawful, h.domainId.symm, h.vms.symm, h.reservations.symm,
    h.allocations.symm, h.mappings.symm, h.publications.symm,
    fun scope hright hleft id => (h.covered scope hleft hright id).symm⟩

theorem Mirrors.unissued (hleft : scope ∈ left.scopes) (hright : scope ∈ right.scopes)
    (hunissued : left.Unissued scope id) : right.Unissued scope id :=
  fun _ hcovered => hunissued h.monotonic ((h.covered scope hleft hright id).mpr hcovered)

theorem Mirrors.findReservation {key : VaReservationKey} {record : VaReservationRecord}
    (hfound : lookup VaReservationRecord.key key left.reservations = some record)
    (hstate : record.state = .reserved) : lookup VaReservationRecord.key key right.reservations =
    some record :=
  lookup_of_filter_eq h.reservations h.lawful'.reservationKeys hfound
    (by simp [VaReservationRecord.inForce, hstate])

theorem Mirrors.findAllocation {key : MemoryAllocationKey} {record : MemoryAllocationRecord}
    (hfound : lookup MemoryAllocationRecord.key key left.allocations = some record)
    (hstate : record.state = .live) : lookup MemoryAllocationRecord.key key right.allocations =
    some record :=
  lookup_of_filter_eq h.allocations h.lawful'.allocationKeys hfound
    (by simp [MemoryAllocationRecord.inForce, hstate])

theorem Mirrors.findMapping {record : MemoryMappingRecord}
    (hfound : lookup MemoryMappingRecord.key key left.mappings = some record)
    (hstate : record.state ≠ .released) :
    lookup MemoryMappingRecord.key key right.mappings = some record :=
  lookup_of_filter_eq h.mappings h.lawful'.mappingKeys hfound
    (by simp [MemoryMappingRecord.inForce, hstate])

theorem Mirrors.findPublication {key : MemoryPublicationKey}
    (hfound : lookup MemoryPublicationRecord.key key left.publications = some record)
    (hstate : record.state = .live) :
    lookup MemoryPublicationRecord.key key right.publications = some record :=
  lookup_of_filter_eq h.publications h.lawful'.publicationKeys hfound
    (by simp [MemoryPublicationRecord.inForce, hstate])

theorem Mirrors.admitsReservation (hadmits : left.AdmitsReservation new) :
    right.AdmitsReservation new := by
  obtain ⟨vm, hfits⟩ := hadmits.fits
  have hscope : ∃ record ∈ left.vms, record.key = new.key.vm :=
    exists_of_lookup hfits.found
  have hunissued := h.unissued (vaReservation_mem_scopes.mpr hscope)
    (vaReservation_mem_scopes.mpr (h.vms ▸ hscope)) hadmits.unissued
  refine ⟨⟨vm, h.vms ▸ hfits⟩, fun record hmem hkey => ?_, hunissued, ?_⟩
  · apply h.lawful'.not_mem_of_unissued h.monotonic' hunissued
    exact hkey ▸ mem_identities_reservation hmem
  · apply (forall_mem_iff_of_filter_eq h.reservations _).mp hadmits.apart
    intro record hgone _ hreserved
    simp [VaReservationRecord.inForce, hreserved] at hgone

theorem Mirrors.admitsAllocation {new : MemoryAllocationRecord} (hnew : new.state = .live)
    (hadmits : left.AdmitsAllocation new) : right.AdmitsAllocation new := by
  obtain ⟨vm, reservation, hfits⟩ := hadmits.fits
  have hscope : ∃ record ∈ left.vms, record.key = new.key.vm :=
    exists_of_lookup hfits.vmFound
  have hunissued := h.unissued (allocation_mem_scopes.mpr hscope)
    (allocation_mem_scopes.mpr (h.vms ▸ hscope)) hadmits.unissued
  -- no record has the identity, so none can be an older generation of it
  have hidentity : ∀ record ∈ right.allocations, record.key.vm = new.key.vm →
      record.key.id ≠ new.key.id := by
    intro record hmem hvm hid
    apply h.lawful'.not_mem_of_unissued h.monotonic' hunissued
    rw [← hvm, ← hid]
    exact mem_identities_allocation hmem
  refine ⟨⟨vm, reservation, ?_⟩, fun record hmem hkey => ?_, hunissued,
    fun record hmem hvm hid => ?_, ?_⟩
  · exact { hfits with
      vmFound := h.vms ▸ hfits.vmFound
      found := h.findReservation hfits.found (hfits.reserved hnew) }
  · exact hidentity record hmem (by rw [hkey]) (by rw [hkey])
  · exact absurd hid (hidentity record hmem hvm)
  · apply (forall_mem_iff_of_filter_eq h.allocations _).mp hadmits.exclusive
    intro record hgone hlive
    simp [MemoryAllocationRecord.inForce, hlive] at hgone

theorem Mirrors.admitsMapping {new : MemoryMappingRecord} (hnew : new.state ≠ .released)
    (hadmits : left.AdmitsMapping new) : right.AdmitsMapping new := by
  obtain ⟨allocation, vm, hfits, hactive⟩ := hadmits.fits
  have hfound := h.findAllocation hfits.found (hfits.live hnew)
  have hunissued := h.unissued
    (mapping_mem_scopes.mpr (exists_of_lookup hfits.found))
    (mapping_mem_scopes.mpr (exists_of_lookup hfound)) hadmits.unissued
  refine ⟨⟨allocation, vm, ?_, hactive⟩, fun record hmem hkey => ?_, hunissued⟩
  · exact { hfits with found := hfound, vmFound := h.vms ▸ hfits.vmFound }
  · apply h.lawful'.not_mem_of_unissued h.monotonic' hunissued
    exact hkey ▸ mem_identities_mapping hmem

theorem Mirrors.admitsPublication {new : MemoryPublicationRecord} (hnew : new.state = .live)
    (hadmits : left.AdmitsPublication new) : right.AdmitsPublication new := by
  obtain ⟨mapping, hfits⟩ := hadmits.fits
  have hfound := h.findMapping hfits.found (by simp [hfits.mapped hnew])
  have hunissued := h.unissued
    (publication_mem_scopes.mpr (exists_of_lookup hfits.found))
    (publication_mem_scopes.mpr (exists_of_lookup hfound)) hadmits.unissued
  refine ⟨⟨mapping, { hfits with found := hfound }⟩, fun record hmem hkey => ?_, hunissued⟩
  apply h.lawful'.not_mem_of_unissued h.monotonic' hunissued
  exact hkey ▸ mem_identities_publication hmem

theorem Mirrors.unpublished (hunpublished : left.Unpublished key) : right.Unpublished key := by
  apply (forall_mem_iff_of_filter_eq h.publications _).mp hunpublished
  intro record hgone _ hlive
  simp [MemoryPublicationRecord.inForce, hlive] at hgone

/-- What holds of every released record of a table. -/
theorem Mirrors.retired {key : VmKey} (hretired : left.Retired key) : right.Retired key := by
  constructor
  · apply (forall_mem_iff_of_filter_eq h.reservations _).mp hretired.reservations
    exact fun record hgone _ => by simpa [VaReservationRecord.inForce] using hgone
  · apply (forall_mem_iff_of_filter_eq h.allocations _).mp hretired.allocations
    exact fun record hgone _ => by simpa [MemoryAllocationRecord.inForce] using hgone
  · apply (forall_mem_iff_of_filter_eq h.mappings _).mp hretired.mappings
    exact fun record hgone _ => by simpa [MemoryMappingRecord.inForce] using hgone
  · apply (forall_mem_iff_of_filter_eq h.publications _).mp hretired.publications
    exact fun record hgone _ => by simpa [MemoryPublicationRecord.inForce] using hgone

theorem Mirrors.allows (hallowed : left.Allows transition) : right.Allows transition := by
  cases transition with
  | acquireVm admission mappingDevices handle aperture =>
    have hadmits : left.AdmitsVm ⟨admission, mappingDevices, handle, aperture, .active⟩ := hallowed
    exact ⟨h.domainId ▸ hadmits.fits, h.vms ▸ hadmits.fresh, h.vms ▸ hadmits.unshared⟩
  | retireVm key => exact ⟨h.vms ▸ hallowed.1, h.retired hallowed.2⟩
  | reserveVa key range alignment => exact h.admitsReservation hallowed
  | releaseVaReservation key =>
    obtain ⟨⟨record, hfound, hstate⟩, hidle⟩ := hallowed
    refine ⟨⟨record, h.findReservation hfound hstate, hstate⟩, ?_⟩
    apply (forall_mem_iff_of_filter_eq h.allocations _).mp hidle
    exact fun record hgone _ => by simpa [MemoryAllocationRecord.inForce] using hgone
  | allocate key reservation handle spec => exact h.admitsAllocation rfl hallowed
  | releaseAllocation key =>
    obtain ⟨⟨record, hfound, hstate⟩, hmappings, hpublications⟩ := hallowed
    refine ⟨⟨record, h.findAllocation hfound hstate, hstate⟩, ?_, ?_⟩
    · apply (forall_mem_iff_of_filter_eq h.mappings _).mp hmappings
      exact fun record hgone _ => by simpa [MemoryMappingRecord.inForce] using hgone
    · apply (forall_mem_iff_of_filter_eq h.publications _).mp hpublications
      exact fun record hgone _ => by simpa [MemoryPublicationRecord.inForce] using hgone
  | beginMap key targetDevices access => exact h.admitsMapping (by simp) hallowed
  | observeMap key progress | observeUnmap key progress =>
    obtain ⟨record, hfound, hstate⟩ := hallowed
    exact ⟨record, h.findMapping hfound (by simp [hstate]), hstate⟩
  | beginUnmap key | releaseMapping key =>
    obtain ⟨hunpublished, record, hfound, hstate⟩ := hallowed
    refine ⟨h.unpublished hunpublished, record, h.findMapping hfound ?_, hstate⟩
    obtain ⟨hstate | hstate | hstate, -⟩ := hstate <;> simp [hstate]
  | publishMapping key => exact h.admitsPublication rfl hallowed
  | releasePublication key =>
    obtain ⟨record, hfound, hheld⟩ := hallowed
    exact ⟨record, h.findPublication hfound hheld.2, hheld⟩

end

end Verdicts

/-! ### Effects keep the relation -/

/-- The trimmed tables may lack released records, and the watermarks whose scopes are gone. -/
structure Trims (full trimmed : MemoryTables) : Prop where
  domainId : full.domainId = trimmed.domainId
  identityDiscipline : full.identityDiscipline = trimmed.identityDiscipline
  vms : full.vms = trimmed.vms
  reservations : full.reservations.filter VaReservationRecord.inForce =
    trimmed.reservations.filter VaReservationRecord.inForce
  allocations : full.allocations.filter MemoryAllocationRecord.inForce =
    trimmed.allocations.filter MemoryAllocationRecord.inForce
  mappings : full.mappings.filter MemoryMappingRecord.inForce =
    trimmed.mappings.filter MemoryMappingRecord.inForce
  publications : full.publications.filter MemoryPublicationRecord.inForce =
    trimmed.publications.filter MemoryPublicationRecord.inForce
  fewerReservations : trimmed.reservations.length ≤ full.reservations.length
  fewerAllocations : trimmed.allocations.length ≤ full.allocations.length
  fewerMappings : trimmed.mappings.length ≤ full.mappings.length
  fewerPublications : trimmed.publications.length ≤ full.publications.length
  watermarks : ∀ watermark, watermark ∈ trimmed.watermarks ↔
    watermark ∈ full.watermarks ∧ watermark.scope ∈ trimmed.scopes

section Trims

variable {full trimmed : MemoryTables}

theorem Trims.mirrors (h : Trims full trimmed) (hfull : full.Lawful) (htrimmed : trimmed.Lawful)
    (hmonotonic : full.identityDiscipline = .monotonicNonReusable) : Mirrors full trimmed := by
  refine ⟨hmonotonic, h.identityDiscipline ▸ hmonotonic, hfull, htrimmed, h.domainId, h.vms,
    h.reservations, h.allocations, h.mappings, h.publications, fun scope _ hscope id => ?_⟩
  constructor
  · rintro ⟨watermark, hmem, rfl, hle⟩
    exact ⟨watermark, (h.watermarks watermark).mpr ⟨hmem, hscope⟩, rfl, hle⟩
  · rintro ⟨watermark, hmem, hsame, hle⟩
    exact ⟨watermark, ((h.watermarks watermark).mp hmem).1, hsame, hle⟩

theorem Trims.issue (h : Trims full trimmed) {scopes scopes' : List MemoryIssuedIdScope}
    {identities identities' : List (MemoryIssuedIdScope × Nat)}
    (hfull : Issued scopes identities full.watermarks)
    (htrimmed : Issued scopes' identities' trimmed.watermarks) (hscope : scope ∈ trimmed.scopes) :
    Trims (full.issue scope id) (trimmed.issue scope id) := by
  unfold MemoryTables.issue
  by_cases hdiscipline : full.identityDiscipline ≠ .monotonicNonReusable
  · rwa [if_pos hdiscipline, if_pos (h.identityDiscipline ▸ hdiscipline)]
  · rw [if_neg hdiscipline, if_neg (h.identityDiscipline ▸ hdiscipline)]
    refine { h with watermarks := fun watermark => ?_ }
    rw [(hfull.raised scope id).2, (htrimmed.raised scope id).2, h.watermarks]
    constructor
    · rintro (⟨⟨hmem, hkept⟩, hne⟩ | rfl)
      · exact ⟨.inl ⟨hmem, hne⟩, hkept⟩
      · exact ⟨.inr rfl, hscope⟩
    · rintro ⟨⟨hmem, hne⟩ | rfl, hkept⟩
      · exact .inl ⟨⟨hmem, hkept⟩, hne⟩
      · exact .inr rfl

/-- New records bring no watermark of the full tables back. -/
theorem Trims.grow (h : Trims full trimmed)
    (hfull : Issued full.scopes full.identities full.watermarks) {grown : MemoryTables}
    (new : List MemoryIssuedIdScope)
    (hscopes : ∀ scope, scope ∈ grown.scopes ↔ scope ∈ trimmed.scopes ∨ scope ∈ new)
    (hfresh : ∀ scope ∈ new, scope ∉ full.scopes) (watermark : MemoryIssuedIdHighWatermark) :
    watermark ∈ trimmed.watermarks ↔
      watermark ∈ full.watermarks ∧ watermark.scope ∈ grown.scopes := by
  rw [h.watermarks, hscopes]
  refine and_congr_right fun hmem => (or_iff_left fun hnew => ?_).symm
  exact hfresh _ hnew (hfull.parents watermark hmem)

/-- The tables are lawful and keep apart all identities ever issued. -/
structure Compacts (full trimmed : MemoryTables) : Prop where
  mirrors : Mirrors full trimmed
  trims : Trims full trimmed

section

variable (h : Compacts full trimmed)
include h

theorem Compacts.issued : Issued full.scopes full.identities full.watermarks :=
  h.mirrors.lawful.monotonic h.mirrors.monotonic

theorem Compacts.issued' : Issued trimmed.scopes trimmed.identities trimmed.watermarks :=
  h.mirrors.lawful'.monotonic h.mirrors.monotonic'

theorem Compacts.addVm {new : MemoryVmRecord} (hadmits : full.AdmitsVm new) :
    Trims (full.addVm new) (trimmed.addVm new) := by
  refine { h.trims with vms := congrArg (· ++ [new]) h.trims.vms, watermarks := ?_ }
  have hnew : ¬∃ record ∈ full.vms, record.key = new.key := fun ⟨record, hmem, hkey⟩ =>
    hadmits.fresh record hmem hkey
  refine h.trims.grow h.issued [.vaReservation new.key, .allocation new.key] ?_ ?_
  · simp [scopes, MemoryTables.addVm, or_comm, or_left_comm, or_assoc]
  · simp [hnew]

theorem Compacts.addReservation (hadmits : full.AdmitsReservation new) :
    Trims (full.addReservation new) (trimmed.addReservation new) := by
  have hadded : Trims { full with reservations := full.reservations ++ [new] }
      { trimmed with reservations := trimmed.reservations ++ [new] } := by
    refine { h.trims with reservations := ?_, fewerReservations := ?_ }
    · simp only [filter_append, h.trims.reservations]
    · simpa using h.trims.fewerReservations
  apply hadded.issue h.issued h.issued'
  obtain ⟨vm, hfits⟩ := hadmits.fits
  rw [h.trims.vms] at hfits
  exact vaReservation_mem_scopes.mpr (exists_of_lookup hfits.found)

theorem Compacts.addAllocation {new : MemoryAllocationRecord}
    (hadmits : full.AdmitsAllocation new) :
    Trims (full.addAllocation new) (trimmed.addAllocation new) := by
  have hadded : Trims { full with allocations := full.allocations ++ [new] }
      { trimmed with allocations := trimmed.allocations ++ [new] } := by
    refine { h.trims with allocations := ?_, fewerAllocations := ?_, watermarks := ?_ }
    · simp only [filter_append, h.trims.allocations]
    · simpa using h.trims.fewerAllocations
    · refine h.trims.grow h.issued [.mapping new.key] ?_ ?_
      · simp [scopes, or_comm, or_left_comm, or_assoc]
      · simpa using fun record hmem => hadmits.fresh record hmem
  apply hadded.issue h.issued h.issued'
  obtain ⟨vm, reservation, hfits⟩ := hadmits.fits
  have hfound := hfits.vmFound
  rw [h.trims.vms] at hfound
  exact allocation_mem_scopes.mpr (exists_of_lookup hfound)

theorem Compacts.addMapping {new : MemoryMappingRecord} (hnew : new.state ≠ .released)
    (hadmits : full.AdmitsMapping new) : Trims (full.addMapping new) (trimmed.addMapping new) := by
  have hadded : Trims { full with mappings := full.mappings ++ [new] }
      { trimmed with mappings := trimmed.mappings ++ [new] } := by
    refine { h.trims with mappings := ?_, fewerMappings := ?_, watermarks := ?_ }
    · simp only [filter_append, h.trims.mappings]
    · simpa using h.trims.fewerMappings
    · refine h.trims.grow h.issued [.publication new.key] ?_ ?_
      · simp [scopes, or_assoc]
      · simpa using fun record hmem => hadmits.fresh record hmem
  apply hadded.issue h.issued h.issued'
  obtain ⟨allocation, vm, hfits, -⟩ := hadmits.fits
  have hfound := h.mirrors.findAllocation hfits.found (hfits.live hnew)
  exact mapping_mem_scopes.mpr (exists_of_lookup hfound)

theorem Compacts.addPublication {new : MemoryPublicationRecord}
    (hnew : new.state = .live) (hadmits : full.AdmitsPublication new) :
    Trims (full.addPublication new) (trimmed.addPublication new) := by
  have hadded : Trims { full with publications := full.publications ++ [new] }
      { trimmed with publications := trimmed.publications ++ [new] } := by
    refine { h.trims with publications := ?_, fewerPublications := ?_ }
    · simp only [filter_append, h.trims.publications]
    · simpa using h.trims.fewerPublications
  apply hadded.issue h.issued h.issued'
  obtain ⟨mapping, hfits⟩ := hadmits.fits
  have hfound := h.mirrors.findMapping hfits.found (by simp [hfits.mapped hnew])
  exact publication_mem_scopes.mpr (exists_of_lookup hfound)

end

/-- An assignment to a record in force leaves the same records in force. -/
theorem filter_amend_congr {κ : Type} [DecidableEq κ] {key : ρ → κ} {k : κ} {f : ρ → ρ}
    {table other : List ρ} {p : ρ → Bool} {record : ρ} (h : table.filter p = other.filter p)
    (hfound : lookup key k table = some record) (hfound' : lookup key k other = some record)
    (hp : p record = true) : (amend key k f table).filter p = (amend key k f other).filter p := by
  rw [filter_amend hfound hp, filter_amend hfound' hp, h]

theorem Compacts.moveMapping (h : Compacts full trimmed)
    {f : MemoryMappingRecord → MemoryMappingRecord} {record : MemoryMappingRecord}
    (hstep : MappingStep f)
    (hfound : lookup MemoryMappingRecord.key key full.mappings = some record)
    (hstate : record.state ≠ .released) :
    Trims (full.moveMapping key f) (trimmed.moveMapping key f) := by
  have hscopes : (trimmed.moveMapping key f).scopes = trimmed.scopes := by
    simp only [scopes, MemoryTables.moveMapping]
    rw [map_of_map_eq (map_amend_of_eq hstep.key)]
  refine { h.trims with mappings := ?_, fewerMappings := ?_, watermarks := ?_ }
  · exact filter_amend_congr h.trims.mappings hfound (h.mirrors.findMapping hfound hstate)
      (by simp [MemoryMappingRecord.inForce, hstate])
  · simpa only [MemoryTables.moveMapping, length_amend] using h.trims.fewerMappings
  · rw [hscopes]
    exact h.trims.watermarks

theorem Compacts.releasePublication (h : Compacts full trimmed) {key : MemoryPublicationKey}
    (hfound : lookup MemoryPublicationRecord.key key full.publications = some record)
    (hstate : record.state = .live) :
    Trims (full.releasePublication key) (trimmed.releasePublication key) := by
  refine { h.trims with publications := ?_, fewerPublications := ?_ }
  · exact filter_amend_congr h.trims.publications hfound (h.mirrors.findPublication hfound hstate)
      (by simp [MemoryPublicationRecord.inForce, hstate])
  · simpa only [MemoryTables.releasePublication, length_amend] using h.trims.fewerPublications

/-- Tables whose records have the same keys have the same scopes. -/
theorem scopes_of_keys {next : MemoryTables} (hvms : next.vms.map (·.key) = tables.vms.map (·.key))
    (hallocations : next.allocations.map (·.key) = tables.allocations.map (·.key))
    (hmappings : next.mappings.map (·.key) = tables.mappings.map (·.key)) :
    next.scopes = tables.scopes := by
  simp only [scopes]
  rw [map_of_map_eq hvms, map_of_map_eq hvms, map_of_map_eq hallocations, map_of_map_eq hmappings]

theorem Compacts.effect (h : Compacts full trimmed) (hallowed : full.Allows transition) :
    Trims (full.effect transition) (trimmed.effect transition) := by
  cases transition with
  | acquireVm admission mappingDevices handle aperture => exact h.addVm hallowed
  | retireVm key =>
    refine { h.trims with vms := ?_, watermarks := ?_ }
    · show amend _ key _ full.vms = amend _ key _ trimmed.vms
      rw [h.trims.vms]
    · have hscopes : (trimmed.effect (.retireVm key)).scopes = trimmed.scopes :=
        scopes_of_keys (map_amend_of_eq fun _ => rfl) rfl rfl
      rw [hscopes]
      exact h.trims.watermarks
  | reserveVa key range alignment => exact h.addReservation hallowed
  | releaseVaReservation key =>
    obtain ⟨⟨record, hfound, hstate⟩, -⟩ := hallowed
    refine { h.trims with reservations := ?_, fewerReservations := ?_ }
    · exact filter_amend_congr h.trims.reservations hfound (h.mirrors.findReservation hfound hstate)
        (by simp [VaReservationRecord.inForce, hstate])
    · simpa only [MemoryTables.effect, length_amend] using h.trims.fewerReservations
  | allocate key reservation handle spec => exact h.addAllocation hallowed
  | releaseAllocation key =>
    obtain ⟨⟨record, hfound, hstate⟩, -⟩ := hallowed
    refine { h.trims with allocations := ?_, fewerAllocations := ?_, watermarks := ?_ }
    · exact filter_amend_congr h.trims.allocations hfound (h.mirrors.findAllocation hfound hstate)
        (by simp [MemoryAllocationRecord.inForce, hstate])
    · simpa only [MemoryTables.effect, length_amend] using h.trims.fewerAllocations
    · have hscopes : (trimmed.effect (.releaseAllocation key)).scopes = trimmed.scopes :=
        scopes_of_keys rfl (map_amend_of_eq fun _ => rfl) rfl
      rw [hscopes]
      exact h.trims.watermarks
  | beginMap key targetDevices access => exact h.addMapping (by simp) hallowed
  | observeMap key progress =>
    obtain ⟨record, hfound, hstate⟩ := hallowed
    exact h.moveMapping (reportedMap_step progress) hfound (by simp [hstate])
  | beginUnmap key | releaseMapping key =>
    obtain ⟨-, record, hfound, hstate⟩ := hallowed
    apply h.moveMapping (MemoryLifecycleState.enter_step _) hfound
    obtain ⟨hstate | hstate | hstate, -⟩ := hstate <;> simp [hstate]
  | observeUnmap key progress =>
    obtain ⟨record, hfound, hstate⟩ := hallowed
    exact h.moveMapping (reportedUnmap_step progress) hfound (by simp [hstate])
  | publishMapping key => exact h.addPublication rfl hallowed
  | releasePublication key =>
    obtain ⟨record, hfound, hheld⟩ := hallowed
    exact h.releasePublication hfound hheld.2

/-! ### Compactions keep the relation -/

/-- Of lawful tables a compaction keeps exactly the reservations in force. -/
theorem Lawful.compacted_reservations (h : tables.Lawful) :
    tables.compacted.reservations = tables.reservations.filter VaReservationRecord.inForce := by
  apply filter_congr
  intro record hmem
  cases hstate : record.state with
  | reserved =>
    rw [VaReservationRecord.inForce, hstate]
    rfl
  | released =>
    have hall : (tables.allocations.all fun allocation =>
        allocation.reservation != record.key || allocation.state == .released) = true := by
      rw [all_eq_true]
      intro allocation hallocation
      by_cases hkey : allocation.reservation = record.key
      · simp [h.allocation_released hallocation hmem hkey hstate]
      · simp [hkey]
    simp [VaReservationRecord.inForce, hstate, hall]

/-- A compaction keeps the watermarks whose scopes it keeps. -/
theorem Lawful.mem_compacted_watermarks (h : tables.Lawful)
    (hmonotonic : tables.identityDiscipline = .monotonicNonReusable)
    (watermark : MemoryIssuedIdHighWatermark) :
    watermark ∈ tables.compacted.watermarks ↔
      watermark ∈ tables.watermarks ∧ watermark.scope ∈ tables.compacted.scopes := by
  have hfilter : watermark ∈ tables.compacted.watermarks ↔ watermark ∈ tables.watermarks ∧
      MemoryLifecycleState.keepsWatermark
        (tables.compacted.allocations.map MemoryAllocationRecord.key)
        (tables.compacted.mappings.map MemoryMappingRecord.key) watermark = true :=
    mem_filter
  rw [hfilter]
  exact and_congr_right fun hmem =>
    keepsWatermark_iff ((h.monotonic hmonotonic).parents watermark hmem)

theorem filter_filter_self {p : ρ → Bool} {table : List ρ} :
    (table.filter p).filter p = table.filter p := by
  rw [filter_filter]
  simp only [Bool.and_self]

/-- A compaction trims. -/
theorem Lawful.trims_compacted (h : tables.Lawful)
    (hmonotonic : tables.identityDiscipline = .monotonicNonReusable) :
    Trims tables tables.compacted :=
  { domainId := rfl
    identityDiscipline := rfl
    vms := rfl
    reservations := by rw [h.compacted_reservations, filter_filter_self]
    allocations := filter_filter_self.symm
    mappings := filter_filter_self.symm
    publications := filter_filter_self.symm
    fewerReservations := length_filter_le ..
    fewerAllocations := length_filter_le ..
    fewerMappings := length_filter_le ..
    fewerPublications := length_filter_le ..
    watermarks := h.mem_compacted_watermarks hmonotonic }

/-- What a compaction keeps was there before. -/
theorem scopes_compacted : tables.compacted.scopes ⊆ tables.scopes := by
  intro scope hscope
  simp only [scopes, mem_append, mem_map] at hscope ⊢
  obtain ((⟨record, hmem, heq⟩ | ⟨record, hmem, heq⟩) | ⟨record, hmem, heq⟩) |
    ⟨record, hmem, heq⟩ :=
    hscope
  · exact .inl (.inl (.inl ⟨record, hmem, heq⟩))
  · exact .inl (.inl (.inr ⟨record, hmem, heq⟩))
  · exact .inl (.inr ⟨record, (mem_filter.mp hmem).1, heq⟩)
  · exact .inr ⟨record, (mem_filter.mp hmem).1, heq⟩

/-- Compactions of both tables keep the relation. -/
theorem Compacts.compacted (h : Compacts full trimmed) :
    Trims full.compacted trimmed.compacted := by
  have hallocations : full.compacted.allocations = trimmed.compacted.allocations :=
    h.trims.allocations
  have hmappings : full.compacted.mappings = trimmed.compacted.mappings := h.trims.mappings
  have hreservations : full.compacted.reservations = trimmed.compacted.reservations := by
    rw [h.mirrors.lawful.compacted_reservations, h.mirrors.lawful'.compacted_reservations]
    exact h.trims.reservations
  have hpublications : full.compacted.publications = trimmed.compacted.publications :=
    h.trims.publications
  have hscopes : full.compacted.scopes = trimmed.compacted.scopes := by
    have hvms : full.compacted.vms = trimmed.compacted.vms := h.trims.vms
    rw [scopes, scopes, hvms, hallocations, hmappings]
  refine ⟨h.trims.domainId, h.trims.identityDiscipline, h.trims.vms, ?_, ?_, ?_, ?_, ?_, ?_, ?_, ?_,
    fun watermark => ?_⟩
  iterate 2
    · rw [hreservations]
    · rw [hallocations]
    · rw [hmappings]
    · rw [hpublications]
  · rw [h.mirrors.lawful.mem_compacted_watermarks h.mirrors.monotonic,
      h.mirrors.lawful'.mem_compacted_watermarks h.mirrors.monotonic', hscopes, h.trims.watermarks]
    constructor
    · rintro ⟨⟨hmem, -⟩, hscope⟩
      exact ⟨⟨hmem, hscope⟩, hscope⟩
    · rintro ⟨⟨hmem, hscope⟩, -⟩
      exact ⟨⟨hmem, scopes_compacted hscope⟩, hscope⟩

end Trims

end MemoryTables

end Fe2o3.MemoryLifecycle
