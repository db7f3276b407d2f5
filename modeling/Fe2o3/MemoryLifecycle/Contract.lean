import Fe2o3.MemoryLifecycle.Preservation

/-!
**What each transition asks and does**, on the tables of a memory state.

`Allows` collects the guards of a transition, `HasRoom` is its bound on the number of
records, and `effect` is the tables it leaves.  For a valid state the contract is
exact: a transition succeeds when there is room and it is allowed, and then has its
effect; it reports a full table only when there is no room, and any other error only
when it is not allowed.
-/

namespace Fe2o3.MemoryLifecycle

open Lib
open Lib.Command
open RuntimeModel (DeviceKey VmKey QueueKey MemoryAccess IdentityDigest)

/-! ### Requirements -/

/-- The table has a record under the key, and the record satisfies a condition. -/
def Holds {ρ κ : Type} [DecidableEq κ] (key : ρ → κ) (k : κ) (table : List ρ) (P : ρ → Prop) :
    Prop :=
  ∃ record, lookup key k table = some record ∧ P record

namespace MemoryTables

variable (tables : MemoryTables)

/-- Under the monotonic discipline, an identity beyond those issued in its scope. -/
def Unissued (scope : MemoryIssuedIdScope) (id : Nat) : Prop :=
  tables.identityDiscipline = .monotonicNonReusable → ¬ Covered tables.watermarks scope id

/-- No live publication holds the mapping. -/
def Unpublished (key : MemoryMappingKey) : Prop :=
  ∀ publication ∈ tables.publications, publication.key.mapping = key → publication.state ≠ .live

structure AdmitsVm (tables : MemoryTables) (new : MemoryVmRecord) : Prop where
  fits : VmFits tables.domainId new
  fresh : ∀ record ∈ tables.vms, record.key ≠ new.key
  unshared : ∀ record ∈ tables.vms, record.state = .active → record.handle ≠ new.handle

structure AdmitsReservation (tables : MemoryTables) (new : VaReservationRecord) : Prop where
  fits : ∃ vm, ReservationFits tables.vms new vm
  fresh : ∀ record ∈ tables.reservations, record.key ≠ new.key
  unissued : tables.Unissued (.vaReservation new.key.vm) new.key.id
  apart : ∀ record ∈ tables.reservations, Apart record new

structure AdmitsAllocation (tables : MemoryTables) (new : MemoryAllocationRecord) : Prop where
  fits : ∃ vm reservation, AllocationFits tables.vms tables.reservations new vm reservation
  fresh : ∀ record ∈ tables.allocations, record.key ≠ new.key
  unissued : tables.Unissued (.allocation new.key.vm) new.key.id
  succeeds : ∀ record ∈ tables.allocations, Succeeds record new
  exclusive : ∀ record ∈ tables.allocations, Exclusive record new

structure AdmitsMapping (tables : MemoryTables) (new : MemoryMappingRecord) : Prop where
  fits : ∃ allocation vm, MappingFits tables.vms tables.allocations new allocation vm ∧
    vm.state = .active
  fresh : ∀ record ∈ tables.mappings, record.key ≠ new.key
  unissued : tables.Unissued (.mapping new.key.allocation) new.key.id

structure AdmitsPublication (tables : MemoryTables) (new : MemoryPublicationRecord) : Prop where
  fits : ∃ mapping, PublicationFits tables.mappings new mapping
  fresh : ∀ record ∈ tables.publications, record.key ≠ new.key
  unissued : tables.Unissued (.publication new.key.mapping) new.key.id

/-- A mapping whose devices can be unmapped. -/
def Unmappable (mapping : MemoryMappingRecord) : Prop :=
  (mapping.state = .mapped ∨ mapping.state = .mapFailed ∨ mapping.state = .unmapFailed) ∧
    mapping.mappedStart ≠ mapping.mappedEnd

/-- A mapping that no device can hold any more. -/
def Releasable (mapping : MemoryMappingRecord) : Prop :=
  (mapping.state = .mapFailed ∨ mapping.state = .unmapFailed ∨ mapping.state = .unmapped) ∧
    mapping.mappedStart = mapping.mappedEnd

/-- The publication is live and held by the owner. -/
def HeldBy (owner : MemoryPublicationOwner) (publication : MemoryPublicationRecord) : Prop :=
  publication.owner = owner ∧ publication.state = .live

def Allows : MemoryTransition → Prop
  | .acquireVm admission mappingDevices handle aperture =>
    tables.AdmitsVm ⟨admission, mappingDevices, handle, aperture, .active⟩
  | .retireVm key =>
    Holds MemoryVmRecord.key key tables.vms (fun vm => vm.state = .active) ∧ tables.Retired key
  | .reserveVa key range alignment => tables.AdmitsReservation ⟨key, range, alignment, .reserved⟩
  | .releaseVaReservation key =>
    Holds VaReservationRecord.key key tables.reservations (fun record => record.state = .reserved) ∧
      ∀ record ∈ tables.allocations, record.reservation = key → record.state = .released
  | .allocate key reservation handle spec =>
    tables.AdmitsAllocation ⟨key, reservation, handle, spec, .live⟩
  | .releaseAllocation key =>
    Holds MemoryAllocationRecord.key key tables.allocations (fun record => record.state = .live) ∧
      (∀ record ∈ tables.mappings, record.key.allocation = key → record.state = .released) ∧
      ∀ record ∈ tables.publications, record.key.mapping.allocation = key → record.state = .released
  | .beginMap key targetDevices access =>
    tables.AdmitsMapping ⟨key, targetDevices, access, 0, 0, .mapPending⟩
  | .observeMap key _ =>
    Holds MemoryMappingRecord.key key tables.mappings fun record => record.state = .mapPending
  | .beginUnmap key =>
    tables.Unpublished key ∧ Holds MemoryMappingRecord.key key tables.mappings Unmappable
  | .observeUnmap key _ =>
    Holds MemoryMappingRecord.key key tables.mappings fun record => record.state = .unmapPending
  | .releaseMapping key =>
    tables.Unpublished key ∧ Holds MemoryMappingRecord.key key tables.mappings Releasable
  | .publishMapping key => tables.AdmitsPublication ⟨key, .generic, .live⟩
  | .releasePublication key =>
    Holds MemoryPublicationRecord.key key tables.publications (HeldBy .generic)

def HasRoom : MemoryTransition → Prop
  | .acquireVm .. => tables.vms.length < maxMemoryVms
  | .reserveVa .. => tables.reservations.length < maxVaReservations
  | .allocate .. => tables.allocations.length < maxMemoryAllocations
  | .beginMap .. => tables.mappings.length < maxMemoryMappings
  | .publishMapping .. => tables.publications.length < maxMemoryPublications
  | _ => True

/-! ### Effects -/

def addVm (new : MemoryVmRecord) : MemoryTables :=
  { tables with vms := tables.vms ++ [new] }

def addReservation (new : VaReservationRecord) : MemoryTables :=
  ({ tables with reservations := tables.reservations ++ [new] } : MemoryTables).issue
    (.vaReservation new.key.vm) new.key.id

def addAllocation (new : MemoryAllocationRecord) : MemoryTables :=
  ({ tables with allocations := tables.allocations ++ [new] } : MemoryTables).issue
    (.allocation new.key.vm) new.key.id

def addMapping (new : MemoryMappingRecord) : MemoryTables :=
  ({ tables with mappings := tables.mappings ++ [new] } : MemoryTables).issue
    (.mapping new.key.allocation) new.key.id

def addPublication (new : MemoryPublicationRecord) : MemoryTables :=
  ({ tables with publications := tables.publications ++ [new] } : MemoryTables).issue
    (.publication new.key.mapping) new.key.id

/-- A step of a mapping that keeps its key and devices. -/
structure MappingStep (f : MemoryMappingRecord → MemoryMappingRecord) : Prop where
  key : ∀ mapping, (f mapping).key = mapping.key
  targetDevices : ∀ mapping, (f mapping).targetDevices = mapping.targetDevices

def moveMapping (key : MemoryMappingKey)
    (f : MemoryMappingRecord → MemoryMappingRecord) : MemoryTables :=
  { tables with mappings := amend MemoryMappingRecord.key key f tables.mappings }

def releasePublication (key : MemoryPublicationKey) : MemoryTables :=
  { tables with
    publications := amend MemoryPublicationRecord.key key
      (fun record => { record with state := .released }) tables.publications }

/-- The mapping after a report on a map call: all devices are mapped, or the first of them, and
    a report that says neither leaves all of them in doubt. -/
def reportedMap (progress : PartialProgressObservation) (mapping : MemoryMappingRecord) :
    MemoryMappingRecord :=
  let count := mapping.targetDevices.length
  if progress = ⟨count, .succeeded⟩ then { mapping with mappedEnd := count, state := .mapped }
  else if progress.status = .failed ∧ progress.nSuccess ≤ count then
    { mapping with mappedEnd := progress.nSuccess, state := .mapFailed }
  else { mapping with mappedStart := 0, mappedEnd := count, state := .ambiguous }

/-- The mapping after a report on an unmap call: nothing of its range is left, or what is behind
    the devices passed by the call, or all of it in doubt. -/
def reportedUnmap (progress : PartialProgressObservation) (mapping : MemoryMappingRecord) :
    MemoryMappingRecord :=
  if progress = ⟨mapping.mappedEnd, .succeeded⟩ then
    { mapping with mappedStart := mapping.mappedEnd, state := .unmapped }
  else if progress.status = .failed ∧ mapping.mappedStart ≤ progress.nSuccess ∧
      progress.nSuccess < mapping.mappedEnd then
    { mapping with mappedStart := progress.nSuccess, state := .unmapFailed }
  else { mapping with state := .ambiguous }

def effect : MemoryTransition → MemoryTables
  | .acquireVm admission mappingDevices handle aperture =>
    tables.addVm ⟨admission, mappingDevices, handle, aperture, .active⟩
  | .retireVm key =>
    { tables with
      vms := amend MemoryVmRecord.key key (fun vm => { vm with state := .retired }) tables.vms }
  | .reserveVa key range alignment => tables.addReservation ⟨key, range, alignment, .reserved⟩
  | .releaseVaReservation key =>
    { tables with
      reservations := amend VaReservationRecord.key key
        (fun record => { record with state := .released }) tables.reservations }
  | .allocate key reservation handle spec =>
    tables.addAllocation ⟨key, reservation, handle, spec, .live⟩
  | .releaseAllocation key =>
    { tables with
      allocations := amend MemoryAllocationRecord.key key
        (fun record => { record with state := .released }) tables.allocations }
  | .beginMap key targetDevices access =>
    tables.addMapping ⟨key, targetDevices, access, 0, 0, .mapPending⟩
  | .observeMap key progress => tables.moveMapping key (reportedMap progress)
  | .beginUnmap key => tables.moveMapping key fun mapping => { mapping with state := .unmapPending }
  | .observeUnmap key progress => tables.moveMapping key (reportedUnmap progress)
  | .releaseMapping key => tables.moveMapping key fun mapping => { mapping with state := .released }
  | .publishMapping key => tables.addPublication ⟨key, .generic, .live⟩
  | .releasePublication key => tables.releasePublication key

theorem reportedMap_step (progress : PartialProgressObservation) :
    MappingStep (reportedMap progress) := by
  constructor <;>
  · intro mapping
    unfold reportedMap
    grind

theorem reportedUnmap_step (progress : PartialProgressObservation) :
    MappingStep (reportedUnmap progress) := by
  constructor <;>
  · intro mapping
    unfold reportedUnmap
    grind

end MemoryTables

/-- What an error says of a transition: a full table that there is no room, any other error that
    the transition is not allowed. -/
def Declines (room allowed : Prop) : MemoryTransitionError → Prop
  | .capacityExceeded _ _ => ¬ room
  | _ => ¬ allowed

variable {allowed : Prop} {id : Nat} {key : MemoryMappingKey} {owner : MemoryPublicationOwner}
  {reference : MemoryRecordRef} {scope : MemoryIssuedIdScope}

namespace MemoryLifecycleState

variable {state : MemoryLifecycleState} {Q : Unit → MemoryLifecycleState → Prop}
  {E : MemoryTransitionError → MemoryLifecycleState → Prop} {P : Prop}

/-- An action that meets its contract: it needs room and permission, and replaces the tables. -/
def Fulfils (action : Action Unit) (room allowed : Prop) (after : MemoryTables)
    (state : MemoryLifecycleState) : Prop :=
  Meets action
    (fun _ next => next.Coherent ∧ room ∧ allowed ∧ next.tables = after)
    (fun error _ => Declines room allowed error) False state

/-! ### Writes to the journals -/

section Journal

variable {ρ κ : Type} {key : ρ → κ} [LinearKey κ] [DecidableEq κ] (field : JournalField key)

omit [DecidableEq κ] in
theorem meets_push (h : (field.get state).Coherent) {record : ρ}
    (hnew : ∀ old ∈ (field.get state).records, key old ≠ key record)
    (hQ : ∀ index, (⟨(field.get state).records ++ [record], index⟩ : IndexedJournal key).Coherent →
      Q () (field.set state ⟨(field.get state).records ++ [record], index⟩)) :
    Meets (field.push record) Q E P state := by
  obtain ⟨⟨_, index⟩, hpush, hcoherent, rfl⟩ := h.push hnew
  simp only [JournalField.push, meets_bind, meets_read, meets_expect, meets_update, hpush,
    Option.some.injEq, forall_eq', reduceCtorEq, false_implies, and_true]
  exact hQ index hcoherent

theorem meets_assign (h : (field.get state).Coherent) {k : κ} {f : ρ → ρ} {record : ρ}
    (hkey : ∀ record, key (f record) = key record)
    (hfound : lookup key k (field.get state).records = some record)
    (hQ : ∀ index,
      (⟨amend key k f (field.get state).records, index⟩ : IndexedJournal key).Coherent →
      Q () (field.set state ⟨amend key k f (field.get state).records, index⟩)) :
    Meets (field.assign reference k f) Q E P state := by
  obtain ⟨⟨_, index⟩, hassign, hcoherent, rfl⟩ :=
    h.getMut ((hkey record).trans (lookup_key hfound)) hfound
  simp only [JournalField.assign, meets_bind, meets_read, hassign]
  exact hQ index hcoherent

end Journal

/-! ### Guards -/

theorem meets_ensureMemoryRoom {actual maximum : Nat} {kind : MemoryRecordKind}
    (hE : ¬ actual < maximum → E (.capacityExceeded kind maximum) state)
    (hQ : actual < maximum → Q () state) :
    Meets (lift (ensureMemoryRoom actual maximum kind)) Q E P state := by
  unfold ensureMemoryRoom
  split
  · next hfull => exact hE (Nat.not_lt.mpr hfull)
  · next hroom => exact hQ (Nat.not_le.mp hroom)

/-- The VM is there and active; otherwise one of two errors is raised. -/
theorem Coherent.meets_requireVmActive (h : state.Coherent) {key : VmKey} {room : Prop}
    (hneeds : allowed → Holds MemoryVmRecord.key key state.vms.records fun vm => vm.state = .active)
    (hQ : ∀ vm, lookup MemoryVmRecord.key key state.vms.records = some vm → vm.state = .active →
      Q () state) :
    Meets (lift (state.requireVmActive key)) Q (fun error _ => Declines room allowed error)
    P state := by
  unfold requireVmActive vm
  rw [h.vms.get_eq]
  cases hfound : lookup MemoryVmRecord.key key state.vms.records with
  | none =>
    intro hallowed
    obtain ⟨vm, hvm, -⟩ := hneeds hallowed
    nomatch hfound.symm.trans hvm
  | some vm =>
    show Meets (lift (if vm.state ≠ .active then
      .error (MemoryTransitionError.illegalState (.vm key)) else .ok ())) _ _ _ _
    split
    · next hstate =>
      intro hallowed
      obtain ⟨other, hother, hactive⟩ := hneeds hallowed
      cases hfound.symm.trans hother
      exact hstate hactive
    · next hstate => exact hQ vm hfound (not_not.mp hstate)

theorem Valid.meets_requireNextIssuedId (h : state.Valid)
    (hE : ¬ state.tables.Unissued scope id → E (.nonMonotonicIdentity reference) state)
    (hQ : state.tables.Unissued scope id → Q () state) :
    Meets (lift (state.requireNextIssuedId scope id reference)) Q E P state := by
  unfold requireNextIssuedId
  split
  · next hreached =>
    apply hE
    intro hunissued
    exact hunissued hreached.1 ((h.lawful.monotonic hreached.1).reached_eq_true.mp hreached.2)
  · next hnext =>
    apply hQ
    intro hmonotonic hcovered
    exact hnext ⟨hmonotonic, (h.lawful.monotonic hmonotonic).reached_eq_true.mpr hcovered⟩

/-- A record that must be there and satisfy a condition. -/
theorem meets_holds {ρ κ : Type} [DecidableEq κ] {key : ρ → κ} {k : κ} {table : List ρ}
    {R : ρ → Prop} {condition : ρ → Bool} {missing illegal : MemoryTransitionError}
    {Q : ρ → Unit → MemoryLifecycleState → Prop}
    (hcondition : ∀ record, condition record = false ↔ R record)
    (hmissing : ¬ Holds key k table R → E missing state)
    (hillegal : ¬ Holds key k table R → E illegal state)
    (hQ : ∀ record, lookup key k table = some record → R record → Q record () state) :
    Meets (lift (okOr missing (lookup key k table)))
      (fun record next => Meets (refuse (condition record) illegal) (Q record) E P next)
        E P state := by
  apply meets_lift_okOr
  · intro hnone
    apply hmissing
    rintro ⟨record, hfound, -⟩
    nomatch hnone.symm.trans hfound
  · intro record hfound
    apply meets_refuse_unless (R record) (hcondition record)
    · intro hnot
      apply hillegal
      rintro ⟨other, hother, hR⟩
      cases hfound.symm.trans hother
      exact hnot hR
    · exact hQ record hfound

/-- Recording an identity, seen from the tables. -/
theorem Coherent.meets_recordIssuedId (h : state.Coherent)
    (hQ : ∀ next : MemoryLifecycleState, next.Coherent → next.tables = state.tables.issue scope id →
      Q () next) :
    Meets (recordIssuedId scope id) Q E P state := by
  rw [recordIssuedId, meets_update]
  apply hQ
  · split
    · exact h
    · exact { h with }
  · unfold MemoryTables.issue
    split
    · next hdiscipline => exact (if_pos hdiscipline).symm
    · next hdiscipline => exact (if_neg hdiscipline).symm

theorem meets_requireLaterGeneration {key : MemoryAllocationKey} {new : MemoryAllocationRecord}
    (hnew : new.key = key)
    (hinUse : ∀ old, ¬ (∀ record ∈ state.allocations.records, Succeeds record new) →
      E (.resourceInUse (.allocation old)) state)
    (hstale : ¬ (∀ record ∈ state.allocations.records, Succeeds record new) →
      E (.staleGeneration key) state)
    (hQ : (∀ record ∈ state.allocations.records, Succeeds record new) → Q () state) :
    Meets (lift (state.requireLaterGeneration key)) Q E P state := by
  subst hnew
  have hmem : ∀ record, record ∈ (state.allocations.records.filter fun record =>
      record.key.vm == new.key.vm && record.key.id == new.key.id) ↔
      record ∈ state.allocations.records ∧ record.key.vm = new.key.vm ∧
        record.key.id = new.key.id := by
    simp
  rw [meets_lift]
  refine ⟨fun _ hok => hQ fun record hrecord hvm hid => ?_, fun error herror => ?_⟩
  · have hold := forM_eq_ok.mp hok record ((hmem record).mpr ⟨hrecord, hvm, hid⟩)
    rw [check_eq_ok, check_eq_ok, not_not, Nat.not_le] at hold
    exact ⟨hold.2.1, hold.1⟩
  · have hraised : Ensures (fun error => E error state) (state.requireLaterGeneration new.key)
        fun _ => True := by
      refine ensures_forM (fun old hold => ?_) trivial
      obtain ⟨hrecord, hvm, hid⟩ := (hmem old).mp hold
      split
      · next hstate => exact hinUse old.key fun hall => hstate (hall old hrecord hvm hid).2
      · split
        · next hle => exact hstale fun hall => Nat.not_lt.mpr hle (hall old hrecord hvm hid).1
        · trivial
    rw [herror] at hraised
    exact hraised

theorem enter_step (state : MemoryMappingState) :
    MemoryTables.MappingStep (MemoryMappingRecord.enter state) :=
  ⟨fun _ => rfl, fun _ => rfl⟩

theorem mapObserved_eq (progress : PartialProgressObservation) :
    mapObserved progress = MemoryTables.reportedMap progress := by
  funext mapping
  rcases progress with ⟨nSuccess, status⟩
  cases status <;> simp [mapObserved, MemoryTables.reportedMap]

theorem unmapObserved_eq (progress : PartialProgressObservation) :
    unmapObserved progress = MemoryTables.reportedUnmap progress := by
  funext mapping
  rcases progress with ⟨nSuccess, status⟩
  cases status <;> simp [unmapObserved, MemoryTables.reportedUnmap]

theorem published_eq_false : state.published key = false ↔ state.tables.Unpublished key := by
  simp [published, MemoryTables.Unpublished, tables]

/-- The owner of a new publication can be told from its identity alone. -/
def NamedOwner (owner : MemoryPublicationOwner) : Prop :=
  ∀ peer, owner = .peerTransfer peer → peer.hasValidIdentity = true

theorem namedOwner_generic : NamedOwner .generic := nofun

theorem namedOwner_queue (queue : QueueKey) : NamedOwner (.computeAqlQueue queue) :=
  nofun

/-- The contract of a transition. -/
def Follows (transition : MemoryTransition) (state : MemoryLifecycleState) : Prop :=
  Fulfils (apply transition) (state.tables.HasRoom transition) (state.tables.Allows transition)
    (state.tables.effect transition) state

section

variable (h : state.Valid)
include h

/-! ### Virtual machines and address reservations -/

theorem Valid.acquireVm_follows (admission : ModelVmAdmission)
    (mappingDevices : List ModelDeviceAdmission) (handle : Nat) (aperture : GpuVaRange) :
    Follows (.acquireVm admission mappingDevices handle aperture) state := by
  simp only [Follows, Fulfils, apply, acquireVm, meets_bind, meets_read]
  apply meets_ensureMemoryRoom id
  intro hroom
  apply meets_refuse_unless (admission.domainId = state.domainId ∧
    ∀ device ∈ mappingDevices, device.domainId = state.domainId) (by simp)
    (mt fun hallowed => ⟨hallowed.fits.domain, hallowed.fits.deviceDomains⟩)
  intro hdomain
  apply meets_refuse_unless (admission.modelKey.id ≠ 0 ∧ handle ≠ 0) (by simp)
    (mt fun hallowed => ⟨hallowed.fits.identity, hallowed.fits.handle⟩)
  intro hidentity
  apply meets_refuse_unless (∀ record ∈ state.vms.records, record.key ≠ admission.modelKey)
    (by simp)
    (mt (·.fresh))
  intro hkey
  apply meets_refuse_unless (∀ record ∈ state.vms.records, record.state = .active →
    record.handle ≠ handle) (by simp) (mt (·.unshared))
  intro hhandle
  apply meets_refuse_unless (validMappingAdmissions mappingDevices admission.modelKey.device = true)
    (by simp) (mt (·.fits.devices))
  intro hdevices
  apply meets_refuse_unless (validPageRange aperture = true) (by simp) (mt (·.fits.aperture))
  intro haperture
  refine meets_push vmsField h.coherent.vms hkey ?_
  intro index hcoherent
  refine ⟨{ h.coherent with vms := hcoherent }, hroom, ⟨?_, hkey, hhandle⟩, rfl⟩
  exact ⟨hdomain.1, hdomain.2, hidentity.1, hidentity.2, hdevices, haperture⟩

theorem Valid.retireVm_follows (key : VmKey) : Follows (.retireVm key) state := by
  simp only [Follows, Fulfils, apply, retireVm, meets_bind, meets_read, vm, h.coherent.vms.get_eq]
  apply meets_holds (R := fun vm => vm.state = .active) (by simp) (mt And.left) (mt And.left)
  intro vm hfound hstate
  apply meets_refuse_unless (state.tables.Retired key) vmInUse_eq_false (mt And.right)
  intro hidle
  refine meets_assign vmsField h.coherent.vms (fun _ => rfl) hfound ?_
  intro index hcoherent
  exact ⟨{ h.coherent with vms := hcoherent }, trivial, ⟨⟨vm, hfound, hstate⟩, hidle⟩, rfl⟩

theorem Valid.reserveVa_follows (key : VaReservationKey) (range : GpuVaRange)
    (alignment : Nat) : Follows (.reserveVa key range alignment) state := by
  simp only [Follows, Fulfils, apply, reserveVa, meets_bind, meets_read, vm, h.coherent.vms.get_eq]
  apply meets_ensureMemoryRoom id
  intro hroom
  apply h.coherent.meets_requireVmActive
  · rintro ⟨⟨vm, hfits⟩, -⟩
    exact ⟨vm, hfits.found, hfits.active rfl⟩
  intro vm hvm hactive
  have hsame : ∀ {other}, ReservationFits state.vms.records
    ⟨key, range, alignment, .reserved⟩ other →
      ReservationFits state.vms.records ⟨key, range, alignment, .reserved⟩ vm := by
    intro other hfits
    rwa [Option.mem_unique hvm hfits.found]
  apply meets_refuse_unless (key.id ≠ 0) (by simp) (mt (·.fits.choose_spec.identity))
  intro hid
  apply meets_refuse_unless (∀ record ∈ state.reservations.records, record.key ≠ key) (by simp)
    (mt (·.fresh))
  intro hkey
  apply h.meets_requireNextIssuedId (mt (·.unissued))
  intro hunissued
  apply meets_refuse_unless (validAlignment alignment = true ∧
    isMultipleOf range.base alignment = true)
    (by simp)
    (mt fun hallowed => ⟨hallowed.fits.choose_spec.alignment, hallowed.fits.choose_spec.aligned⟩)
  intro halignment
  apply meets_lift_okOr
  · intro hmissing
    cases hmissing.symm.trans hvm
  intro other hother
  cases hvm.symm.trans hother
  apply meets_refuse_unless (validPageRange range = true ∧ rangeWithin range vm.aperture = true)
    (by simp)
    (mt fun hallowed => ⟨hallowed.fits.choose_spec.pages, (hsame hallowed.fits.choose_spec).within⟩)
  intro hrange
  apply meets_refuse_unless
    (∀ record ∈ state.reservations.records, Apart record ⟨key, range, alignment, .reserved⟩)
    (by simp [Apart]) (mt (·.apart))
  intro hapart
  refine meets_push reservationsField h.coherent.reservations hkey ?_
  intro index hcoherent
  apply Coherent.meets_recordIssuedId
  · exact { h.coherent with reservations := hcoherent }
  intro next hnext htables
  refine ⟨hnext, hroom, ⟨⟨vm, ?_⟩, hkey, hunissued, hapart⟩, htables⟩
  exact ⟨hvm, hid, halignment.1, halignment.2, hrange.1, hrange.2, fun _ => hactive⟩

theorem Valid.releaseReservation_follows (key : VaReservationKey) :
    Follows (.releaseVaReservation key) state := by
  simp only [Follows, Fulfils, apply, releaseReservation, meets_bind, meets_read, reservation,
    h.coherent.reservations.get_eq]
  apply meets_holds (R := fun record => record.state = .reserved) (by simp)
    (mt And.left) (mt And.left)
  intro reservation hfound hstate
  apply meets_refuse_unless (∀ record ∈ state.allocations.records, record.reservation = key →
    record.state = .released) (by simp) (mt And.right)
  intro hidle
  refine meets_assign reservationsField h.coherent.reservations (fun _ => rfl) hfound ?_
  intro index hcoherent
  exact ⟨{ h.coherent with reservations := hcoherent }, trivial,
    ⟨⟨reservation, hfound, hstate⟩, hidle⟩, rfl⟩

/-! ### Allocations -/

theorem Valid.allocate_follows (key : MemoryAllocationKey)
    (reservationKey : VaReservationKey) (handle : Nat) (spec : MemoryAllocationSpec) :
    Follows (.allocate key reservationKey handle spec) state := by
  simp only [Follows, Fulfils, apply, allocate, meets_bind, meets_read, reservation,
    h.coherent.reservations.get_eq]
  apply meets_ensureMemoryRoom id
  intro hroom
  apply h.coherent.meets_requireVmActive
  · rintro ⟨⟨vm, reservation, hfits⟩, -⟩
    exact ⟨vm, hfits.vmFound, hfits.active rfl⟩
  intro vm hvm hactive
  apply meets_refuse_unless (key.vm = reservationKey.vm) (by simp)
    (mt (·.fits.choose_spec.choose_spec.bound))
  intro hbound
  apply meets_refuse_unless ((key.id ≠ 0 ∧ key.generation ≠ 0) ∧ handle ≠ 0) (by simp)
  · rintro hbad ⟨⟨_, _, hfits⟩, -⟩
    exact hbad ⟨⟨hfits.identity, hfits.generation⟩, hfits.handle⟩
  intro hidentity
  apply meets_refuse_unless (∀ record ∈ state.allocations.records, record.key ≠ key) (by simp)
    (mt (·.fresh))
  intro hkey
  apply h.meets_requireNextIssuedId (mt (·.unissued))
  intro hunissued
  have hneeds : state.tables.Allows (.allocate key reservationKey handle spec) →
      Holds VaReservationRecord.key reservationKey state.reservations.records
        fun record => record.state = .reserved := by
    rintro ⟨⟨_, reservation, hfits⟩, -⟩
    exact ⟨reservation, hfits.found, hfits.reserved rfl⟩
  apply meets_holds (by simp) (mt hneeds) (mt hneeds)
  intro reservation hfound hreserved
  have hspec : state.tables.Allows (.allocate key reservationKey handle spec) →
      validAllocationSpec spec reservation = true := by
    rintro ⟨⟨_, other, hfits⟩, -⟩
    obtain rfl := Option.mem_unique hfound hfits.found
    exact hfits.spec
  apply meets_refuse_unless ((validAlignment spec.alignment = true ∧
      isMultipleOf reservation.range.base spec.alignment = true) ∧
      spec.alignment ≤ reservation.alignment) (by simp)
  · intro hbad hallowed
    have hvalid := hspec hallowed
    simp only [validAllocationSpec, Bool.and_eq_true, decide_eq_true_eq] at hvalid
    exact hbad ⟨⟨hvalid.1.1.2, hvalid.1.2⟩, hvalid.2⟩
  intro _
  apply meets_refuse_unless (validAllocationSpec spec reservation = true) (by simp) (mt hspec)
  intro hspec
  apply meets_requireLaterGeneration
    (show (⟨key, reservationKey, handle, spec, .live⟩ : MemoryAllocationRecord).key = key from rfl)
    (fun _ => mt fun hallowed => hallowed.succeeds) (mt (·.succeeds))
  intro hsucceeds
  apply meets_refuse_unless (∀ record ∈ state.allocations.records,
    Exclusive record ⟨key, reservationKey, handle, spec, .live⟩) _
    (mt (·.exclusive))
  · intro hexclusive
    refine meets_push allocationsField h.coherent.allocations hkey ?_
    intro index hcoherent
    apply Coherent.meets_recordIssuedId
    · exact { h.coherent with allocations := hcoherent }
    intro next hnext htables
    refine ⟨hnext, hroom, ⟨⟨vm, reservation, ?_⟩, hkey, hunissued, hsucceeds, hexclusive⟩, htables⟩
    exact ⟨hvm, hfound, hbound, hidentity.1.1, hidentity.1.2, hidentity.2, hspec, fun _ => hactive,
        fun _ => hreserved⟩
  · simp only [List.any_eq_false, Bool.and_eq_true, Bool.or_eq_true, beq_iff_eq, not_and, not_or,
      Exclusive, forall_const, ne_eq]
    exact forall₃_congr fun _ _ _ => and_comm

theorem Valid.releaseAllocation_follows (key : MemoryAllocationKey) :
    Follows (.releaseAllocation key) state := by
  simp only [Follows, Fulfils, apply, releaseAllocation, meets_bind, meets_read, allocation,
    h.coherent.allocations.get_eq]
  apply meets_holds (R := fun record => record.state = .live) (by simp) (mt And.left) (mt And.left)
  intro allocation hfound hstate
  apply meets_refuse_unless
    ((∀ record ∈ state.mappings.records, record.key.allocation = key → record.state = .released) ∧
      ∀ record ∈ state.publications.records, record.key.mapping.allocation = key →
        record.state = .released) (by simp) (mt And.right)
  intro hidle
  refine meets_assign allocationsField h.coherent.allocations (fun _ => rfl) hfound ?_
  intro index hcoherent
  exact ⟨{ h.coherent with allocations := hcoherent }, trivial,
    ⟨⟨allocation, hfound, hstate⟩, hidle⟩, rfl⟩

/-! ### Mappings -/

theorem Valid.beginMap_follows (key : MemoryMappingKey) (targetDevices : List DeviceKey)
    (access : MemoryAccess) : Follows (.beginMap key targetDevices access) state := by
  simp only [Follows, Fulfils, apply, beginMap, meets_bind, meets_read, vm, allocation,
    h.coherent.vms.get_eq, h.coherent.allocations.get_eq]
  apply meets_ensureMemoryRoom id
  intro hroom
  apply h.coherent.meets_requireVmActive
  · rintro ⟨⟨allocation, vm, hfits, hactive⟩, -⟩
    exact ⟨vm, hfits.vmFound, hactive⟩
  intro vm hvm hactive
  apply meets_refuse_unless (key.id ≠ 0) (by simp) (mt (·.fits.choose_spec.choose_spec.1.identity))
  intro hid
  apply meets_refuse_unless (∀ record ∈ state.mappings.records, record.key ≠ key) (by simp)
    (mt (·.fresh))
  intro hkey
  apply h.meets_requireNextIssuedId (mt (·.unissued))
  intro hunissued
  have hneeds : state.tables.Allows (.beginMap key targetDevices access) →
      Holds MemoryAllocationRecord.key key.allocation state.allocations.records
        fun record => record.state = .live := by
    rintro ⟨⟨allocation, _, hfits, -⟩, -⟩
    exact ⟨allocation, hfits.found, hfits.live (by simp)⟩
  apply meets_holds (by simp) (mt hneeds) (mt hneeds)
  intro allocation hallocation hlive
  apply meets_lift_okOr
  · intro hmissing
    cases hmissing.symm.trans hvm
  intro other hother
  cases hvm.symm.trans hother
  apply meets_refuse_unless (deviceKeysEqualAdmissions targetDevices vm.mappingDevices = true)
    (by simp)
  · rintro hbad ⟨⟨_, other, hfits, -⟩, -⟩
    obtain rfl := Option.mem_unique hvm hfits.vmFound
    exact hbad hfits.devices
  intro hdevices
  refine meets_push mappingsField h.coherent.mappings hkey ?_
  intro index hcoherent
  apply Coherent.meets_recordIssuedId
  · exact { h.coherent with mappings := hcoherent }
  intro next hnext htables
  refine ⟨hnext, hroom, ⟨⟨allocation, vm, ?_, hactive⟩, hkey, hunissued⟩, htables⟩
  exact ⟨hallocation, hvm, hid, hdevices, ⟨Nat.le_refl 0, Nat.zero_le _, rfl⟩, fun _ => hlive⟩

/-- Every step of a mapping ends in the same assignment. -/
theorem Valid.moveMapping_meets {f : MemoryMappingRecord → MemoryMappingRecord}
    {record : MemoryMappingRecord} (hstep : MemoryTables.MappingStep f)
    (hfound : lookup MemoryMappingRecord.key key state.mappings.records = some record)
    (hallowed : allowed) : Meets (mappingMut key f)
      (fun _ next => next.Coherent ∧ True ∧ allowed ∧ next.tables = state.tables.moveMapping key f)
      E P state := by
  refine meets_assign mappingsField h.coherent.mappings hstep.key hfound ?_
  intro index hcoherent
  exact ⟨{ h.coherent with mappings := hcoherent }, trivial, hallowed, rfl⟩

theorem Valid.observeMap_follows (key : MemoryMappingKey)
    (progress : PartialProgressObservation) : Follows (.observeMap key progress) state := by
  simp only [Follows, Fulfils, apply, observeMap, meets_bind, meets_read, mapping,
    h.coherent.mappings.get_eq]
  apply meets_holds (R := fun record => record.state = .mapPending) (by simp) id id
  intro mapping hfound hstate
  rw [mapObserved_eq]
  exact h.moveMapping_meets (MemoryTables.reportedMap_step progress) hfound
    ⟨mapping, hfound, hstate⟩

theorem Valid.beginUnmap_follows (key : MemoryMappingKey) : Follows (.beginUnmap key) state := by
  simp only [Follows, Fulfils, apply, beginUnmap, meets_bind, meets_read, mapping,
    h.coherent.mappings.get_eq]
  apply meets_refuse_unless (state.tables.Unpublished key) published_eq_false (mt And.left)
  intro hpublications
  apply meets_holds (R := MemoryTables.Unmappable)
    (by simp only [MemoryTables.Unmappable, Bool.or_eq_false_iff, Bool.not_eq_false',
      Bool.or_eq_true, beq_iff_eq, beq_eq_false_iff_ne, or_assoc, implies_true])
    (mt And.right) (mt And.right)
  intro mapping hfound hstate
  exact h.moveMapping_meets (enter_step _) hfound ⟨hpublications, mapping, hfound, hstate⟩

theorem Valid.observeUnmap_follows (key : MemoryMappingKey)
    (progress : PartialProgressObservation) : Follows (.observeUnmap key progress) state := by
  simp only [Follows, Fulfils, apply, observeUnmap, meets_bind, meets_read, mapping,
    h.coherent.mappings.get_eq]
  apply meets_holds (R := fun record => record.state = .unmapPending) (by simp) id id
  intro mapping hfound hstate
  rw [unmapObserved_eq]
  exact h.moveMapping_meets (MemoryTables.reportedUnmap_step progress) hfound
    ⟨mapping, hfound, hstate⟩

theorem Valid.releaseMapping_follows (key : MemoryMappingKey) :
    Follows (.releaseMapping key) state := by
  simp only [Follows, Fulfils, apply, releaseMapping, meets_bind, meets_read, mapping,
    h.coherent.mappings.get_eq]
  apply meets_refuse_unless (state.tables.Unpublished key) published_eq_false (mt And.left)
  intro hpublications
  apply meets_holds (R := MemoryTables.Releasable)
    (by simp only [MemoryTables.Releasable, Bool.or_eq_false_iff, Bool.not_eq_false',
      Bool.or_eq_true, beq_iff_eq, bne_eq_false_iff_eq, or_assoc, implies_true])
    (mt And.right) (mt And.right)
  intro mapping hfound hstate
  exact h.moveMapping_meets (enter_step _) hfound ⟨hpublications, mapping, hfound, hstate⟩

/-! ### Publications -/

/-- A publication under any owner. -/
theorem Valid.publishMapping_fulfils (key : MemoryPublicationKey) (howner : NamedOwner owner) :
    Fulfils (publishMapping key owner) (state.publications.records.length < maxMemoryPublications)
      (state.tables.AdmitsPublication ⟨key, owner, .live⟩)
      (state.tables.addPublication ⟨key, owner, .live⟩) state := by
  unfold publishMapping
  simp only [Fulfils, meets_bind, meets_read, mapping, h.coherent.mappings.get_eq]
  apply meets_ensureMemoryRoom id
  intro hroom
  apply meets_refuse_unless (key.id ≠ 0) (by simp) (mt (·.fits.choose_spec.identity))
  intro hid
  apply meets_refuse_unless (∀ record ∈ state.publications.records, record.key ≠ key) (by simp)
    (mt (·.fresh))
  intro hkey
  apply h.meets_requireNextIssuedId (mt (·.unissued))
  intro hunissued
  have hneeds : state.tables.AdmitsPublication ⟨key, owner, .live⟩ →
      Holds MemoryMappingRecord.key key.mapping state.mappings.records
        fun record => record.state = .mapped := by
    rintro ⟨⟨mapping, hfits⟩, -⟩
    exact ⟨mapping, hfits.found, hfits.mapped rfl⟩
  apply meets_holds (by simp) (mt hneeds) (mt hneeds)
  intro mapping hfound hmapped
  have hpublish : invalidOwner ⟨key, owner, .live⟩ = false →
      Meets (do
        publicationsField.push ⟨key, owner, .live⟩
        recordIssuedId (.publication key.mapping) key.id)
        (fun _ next => next.Coherent ∧ state.publications.records.length < maxMemoryPublications ∧
          state.tables.AdmitsPublication ⟨key, owner, .live⟩ ∧
          next.tables = state.tables.addPublication ⟨key, owner, .live⟩)
        (fun error _ => Declines (state.publications.records.length < maxMemoryPublications)
          (state.tables.AdmitsPublication ⟨key, owner, .live⟩) error) False state := by
    intro hvalid
    rw [meets_bind]
    refine meets_push publicationsField h.coherent.publications hkey ?_
    intro index hcoherent
    apply Coherent.meets_recordIssuedId
    · exact { h.coherent with publications := hcoherent }
    intro next hnext htables
    exact ⟨hnext, hroom, ⟨⟨mapping, hfound, hid, hvalid, fun _ => hmapped⟩, hkey, hunissued⟩,
      htables⟩
  cases owner with
  | generic => exact hpublish rfl
  | computeAqlQueue queue =>
    rw [meets_bind]
    apply meets_refuse_unless (invalidOwner ⟨key, .computeAqlQueue queue, .live⟩ = false) Iff.rfl
      (mt (·.fits.choose_spec.owner))
    exact hpublish
  | peerTransfer peer =>
    apply hpublish
    show (!peer.hasValidIdentity) = false
    rw [howner peer rfl]
    rfl

/-- The two refusals before a release, in the order the source makes them. -/
theorem Valid.meets_heldBy {key : MemoryPublicationKey} {foreign : MemoryTransitionError}
    (hforeign : ¬ Holds MemoryPublicationRecord.key key state.publications.records
      (MemoryTables.HeldBy owner) → Declines True (Holds MemoryPublicationRecord.key key
        state.publications.records (MemoryTables.HeldBy owner)) foreign) :
    Fulfils (do
        let publication ← lift ((← read).publication key)
        refuse (publication.owner != owner) foreign
        refuse (publication.state != .live) (.illegalState (.publication key))
        publicationMut key MemoryPublicationRecord.release) True
      (Holds MemoryPublicationRecord.key key state.publications.records (MemoryTables.HeldBy owner))
      (state.tables.releasePublication key) state := by
  simp only [Fulfils, meets_bind, meets_read, publication, h.coherent.publications.get_eq]
  apply meets_lift_okOr
  · rintro hmissing ⟨record, hfound, -⟩
    cases hmissing.symm.trans hfound
  intro record hfound
  have hsame : Holds MemoryPublicationRecord.key key state.publications.records
      (MemoryTables.HeldBy owner) → MemoryTables.HeldBy owner record := by
    rintro ⟨other, hother, hheld⟩
    rwa [Option.mem_unique hfound hother]
  apply meets_refuse_unless (record.owner = owner) (by simp)
  · exact fun howner => hforeign fun hallowed => howner (hsame hallowed).1
  intro howner
  apply meets_refuse_unless (record.state = .live) (by simp) (mt fun hallowed => (hsame hallowed).2)
  intro hlive
  refine meets_assign publicationsField h.coherent.publications (fun _ => rfl) hfound ?_
  intro index hcoherent
  exact ⟨{ h.coherent with publications := hcoherent }, trivial,
    ⟨record, hfound, howner, hlive⟩, rfl⟩

theorem Valid.releaseOwned_fulfils (owner : MemoryPublicationOwner) (key : MemoryPublicationKey) :
    Fulfils (releaseOwned owner key) True
      (Holds MemoryPublicationRecord.key key state.publications.records (MemoryTables.HeldBy owner))
      (state.tables.releasePublication key) state :=
  h.meets_heldBy id

/-! ### Transitions -/

/-- Every transition meets its contract. -/
theorem Valid.follows (transition : MemoryTransition) : Follows transition state := by
  cases transition with
  | acquireVm admission mappingDevices handle aperture =>
    exact h.acquireVm_follows admission mappingDevices handle aperture
  | retireVm key => exact h.retireVm_follows key
  | reserveVa key range alignment => exact h.reserveVa_follows key range alignment
  | releaseVaReservation key => exact h.releaseReservation_follows key
  | allocate key reservation handle spec => exact h.allocate_follows key reservation handle spec
  | releaseAllocation key => exact h.releaseAllocation_follows key
  | beginMap key targetDevices access => exact h.beginMap_follows key targetDevices access
  | observeMap key progress => exact h.observeMap_follows key progress
  | beginUnmap key => exact h.beginUnmap_follows key
  | observeUnmap key progress => exact h.observeUnmap_follows key progress
  | releaseMapping key => exact h.releaseMapping_follows key
  | publishMapping key =>
    -- the contract spelled out, so that the match over transitions is not unfolded to compare it
    show Fulfils (publishMapping key .generic)
      (state.publications.records.length < maxMemoryPublications)
      (state.tables.AdmitsPublication ⟨key, .generic, .live⟩)
      (state.tables.addPublication ⟨key, .generic, .live⟩) state
    exact h.publishMapping_fulfils key namedOwner_generic
  | releasePublication key => exact h.meets_heldBy id

end

end MemoryLifecycleState

end Fe2o3.MemoryLifecycle
