import Fe2o3.MemoryLifecycle.Compaction

/-!
# Checkpoints are invisible, and free no identity

A state and its checkpoint accept the same calls, as long as no table of the state is
full, and keep the same records in force.  A key that a call was accepted with is never
accepted again: its identity stays below a watermark, or its parent is gone and cannot
come back.
-/

namespace Fe2o3.MemoryLifecycle

open Lib List
open Lib.Command
open RuntimeModel (VmKey QueueKey IdentityDigest)

def MemoryTransitionError.isCapacity : MemoryTransitionError → Bool
  | .capacityExceeded _ _ => true
  | _ => false

/-! ### What is left in force -/

variable {transition : MemoryTransition}

namespace MemoryTables

variable {full trimmed : MemoryTables}

theorem Compacts.watermarks_inForce (h : Compacts full trimmed) :
    full.watermarks.filter (fun watermark => watermark.scope.isOfVm) =
      trimmed.watermarks.filter fun watermark => watermark.scope.isOfVm := by
  apply List.Pairwise.eq_of_mem_iff (h.issued.ascending.sublist filter_sublist)
    (h.issued'.ascending.sublist filter_sublist)
  intro watermark
  simp only [mem_filter]
  apply and_congr_left
  intro hvm
  rw [h.trims.watermarks]
  refine ⟨fun hmem => ⟨hmem, ?_⟩, fun hmem => hmem.1⟩
  have hscope := h.issued.parents watermark hmem
  cases hcase : watermark.scope with
  | vaReservation vm =>
    rw [hcase, vaReservation_mem_scopes, h.trims.vms] at hscope
    exact vaReservation_mem_scopes.mpr hscope
  | allocation vm =>
    rw [hcase, allocation_mem_scopes, h.trims.vms] at hscope
    exact allocation_mem_scopes.mpr hscope
  | mapping key | publication key =>
    rw [hcase] at hvm
    nomatch hvm

theorem Compacts.inForce_eq (h : Compacts full trimmed) : full.inForce = trimmed.inForce := by
  unfold inForce
  rw [h.watermarks_inForce, h.trims.domainId, h.trims.identityDiscipline, h.trims.vms,
    h.trims.reservations, h.trims.allocations, h.trims.mappings, h.trims.publications]

theorem Trims.hasRoom (h : Trims full trimmed) (hroom : full.HasRoom transition) :
    trimmed.HasRoom transition := by
  cases transition with
  | acquireVm =>
    show trimmed.vms.length < maxMemoryVms
    rw [← h.vms]
    exact hroom
  | reserveVa => exact Nat.lt_of_le_of_lt h.fewerReservations hroom
  | allocate => exact Nat.lt_of_le_of_lt h.fewerAllocations hroom
  | beginMap => exact Nat.lt_of_le_of_lt h.fewerMappings hroom
  | publishMapping => exact Nat.lt_of_le_of_lt h.fewerPublications hroom
  | _ => trivial

theorem identityDiscipline_effect {tables : MemoryTables} (transition : MemoryTransition) :
    (tables.effect transition).identityDiscipline = tables.identityDiscipline := by
  cases transition with
  | reserveVa | allocate | beginMap | publishMapping => exact identityDiscipline_issue
  | _ => rfl

end MemoryTables

/-! ### The same calls are accepted -/

variable {owner : MemoryPublicationOwner}

namespace MemoryLifecycleState

/-- The calls of a sequence get the same verdict in two states, and after each step the same records
    are in force.  Where a table of the first state is full, nothing more is said. -/
def SameVerdicts (state other : MemoryLifecycleState) : List MemoryCall → Prop
  | [] => state.tables.inForce = other.tables.inForce
  | call :: calls =>
    state.tables.inForce = other.tables.inForce ∧
      match perform call state, perform call other with
      | .done _ next, .done _ next' => next.SameVerdicts next' calls
      | .failed _ _, .failed _ _ => state.SameVerdicts other calls
      | .failed error _, .done _ _ => error.isCapacity = true
      | _, _ => False

structure Checkpointed (state trimmed : MemoryLifecycleState) : Prop where
  valid : state.Valid
  valid' : trimmed.Valid
  compacts : state.tables.Compacts trimmed.tables

section Verdicts

variable {state trimmed : MemoryLifecycleState}

/-- The action has the same outcome in both states, unless a table of the first is full. -/
abbrev Alike (action : Action Unit) (state trimmed : MemoryLifecycleState) : Prop :=
  Agrees Checkpointed (fun error => error.isCapacity = true) action state trimmed

/-- An action that meets its contract in both states. -/
theorem Fulfils.agrees {action : Action Unit} {room room' allowed allowed' : Prop}
    {after after' : MemoryTables} (h : Fulfils action room allowed after state)
    (h' : Fulfils action room' allowed' after' trimmed) (hroom : room → room')
    (hallowed : allowed ↔ allowed') (hlawful : room → allowed → after.Lawful)
    (hlawful' : room' → allowed' → after'.Lawful)
    (htrims : allowed → MemoryTables.Trims after after')
    (hmonotonic : after.identityDiscipline = .monotonicNonReusable) :
    Alike action state trimmed := by
  unfold Alike Agrees
  obtain ⟨_, next, hdone, hcoherent, hhas, hmay, htables⟩ |
    ⟨error, _, hfailed, hdeclines⟩ | ⟨_, hfalse⟩ :=
    Meets.outcomes h
  · rw [hdone]
    obtain ⟨_, next', hdone', hcoherent', hhas', hmay', htables'⟩ | ⟨error, _, hfailed, hdeclines⟩ |
      ⟨_, hfalse⟩ := Meets.outcomes h'
    · have hvalid : next.Valid := ⟨hcoherent, htables ▸ hlawful hhas hmay⟩
      have hvalid' : next'.Valid := ⟨hcoherent', htables' ▸ hlawful' hhas' hmay'⟩
      have htrimmed : MemoryTables.Trims next.tables next'.tables := by
        rw [htables, htables']
        exact htrims hmay
      refine ⟨next', hdone', hvalid, hvalid', htrimmed.mirrors hvalid.lawful hvalid'.lawful ?_,
        htrimmed⟩
      rw [htables]
      exact hmonotonic
    · -- the second state has the room and the permission of the first
      cases error with
      | capacityExceeded => exact absurd (hroom hhas) hdeclines
      | _ => exact absurd (hallowed.mp hmay) hdeclines
    · exact hfalse.elim
  · rw [hfailed]
    obtain ⟨_, next', hdone', -, -, hmay', -⟩ | ⟨error', other, hfailed', -⟩ | ⟨_, hfalse⟩ :=
      Meets.outcomes h'
    · cases error with
      | capacityExceeded => exact .inl rfl
      | _ => exact absurd (hallowed.mpr hmay') hdeclines
    · exact .inr ⟨error', other, hfailed'⟩
    · exact hfalse.elim
  · exact hfalse.elim

section

variable (h : Checkpointed state trimmed)
include h

theorem Checkpointed.monotonic : state.tables.identityDiscipline = .monotonicNonReusable :=
  h.compacts.mirrors.monotonic

theorem Checkpointed.apply (transition : MemoryTransition) :
    Alike (apply transition) state trimmed := by
  apply Fulfils.agrees (h.valid.follows transition) (h.valid'.follows transition)
    h.compacts.trims.hasRoom
    ⟨h.compacts.mirrors.allows, h.compacts.mirrors.symm.allows⟩ h.valid.lawful.effect
    h.valid'.lawful.effect h.compacts.effect
  rw [MemoryTables.identityDiscipline_effect]
  exact h.monotonic

theorem Checkpointed.publishMapping (key : MemoryPublicationKey) (howner : NamedOwner owner) :
    Alike (publishMapping key owner) state trimmed := by
  apply Fulfils.agrees (h.valid.publishMapping_fulfils key howner)
    (h.valid'.publishMapping_fulfils key howner)
    (Nat.lt_of_le_of_lt h.compacts.trims.fewerPublications)
    ⟨h.compacts.mirrors.admitsPublication rfl, h.compacts.mirrors.symm.admitsPublication rfl⟩
    h.valid.lawful.addPublication h.valid'.lawful.addPublication (h.compacts.addPublication rfl)
  exact MemoryTables.identityDiscipline_issue.trans h.monotonic

theorem Checkpointed.releaseOwned (owner : MemoryPublicationOwner) (key : MemoryPublicationKey) :
    Alike (releaseOwned owner key) state trimmed := by
  have hheld : ∀ {left right : MemoryTables}, left.Mirrors right →
      Holds MemoryPublicationRecord.key key left.publications (MemoryTables.HeldBy owner) →
      Holds MemoryPublicationRecord.key key right.publications (MemoryTables.HeldBy owner) := by
    rintro left right hmirrors ⟨record, hfound, hheld⟩
    exact ⟨record, hmirrors.findPublication hfound hheld.2, hheld⟩
  apply Fulfils.agrees (h.valid.releaseOwned_fulfils owner key)
    (h.valid'.releaseOwned_fulfils owner key)
    id ⟨hheld h.compacts.mirrors, hheld h.compacts.mirrors.symm⟩
    (fun _ _ => h.valid.lawful.releasePublication key)
      (fun _ _ => h.valid'.lawful.releasePublication key)
  · rintro ⟨record, hfound, hheld⟩
    exact h.compacts.releasePublication hfound hheld.2
  · exact h.monotonic

end

/-- A checkpoint of a state that keeps identities apart succeeds. -/
theorem Valid.exists_checkpoint (h : state.Valid)
    (hmonotonic : state.identityDiscipline = .monotonicNonReusable) :
    ∃ next, MemoryLifecycleState.checkpointReleased state = .done () next ∧ next.Valid ∧
      next.tables = state.tables.compacted := by
  obtain ⟨_, next, hdone, hnext⟩ | ⟨_, _, _, -, hdiscipline⟩ | ⟨_, hfalse⟩ :=
    h.checkpointReleased.outcomes
  · exact ⟨next, hdone, hnext⟩
  · exact absurd hmonotonic hdiscipline
  · exact hfalse.elim

theorem Checkpointed.checkpointReleased (h : Checkpointed state trimmed) :
    Alike MemoryLifecycleState.checkpointReleased state trimmed := by
  obtain ⟨next, hdone, hvalid, htables⟩ := h.valid.exists_checkpoint h.monotonic
  obtain ⟨next', hdone', hvalid', htables'⟩ :=
    h.valid'.exists_checkpoint h.compacts.mirrors.monotonic'
  have htrims : MemoryTables.Trims next.tables next'.tables := by
    rw [htables, htables']
    exact h.compacts.compacted
  unfold Alike Agrees
  rw [hdone]
  refine ⟨next', hdone', hvalid, hvalid', htrims.mirrors hvalid.lawful hvalid'.lawful ?_, htrims⟩
  rw [htables]
  exact h.monotonic

theorem Checkpointed.perform (h : Checkpointed state trimmed) (call : MemoryCall) :
    Alike (perform call) state trimmed := by
  cases call with
  | next transition => exact h.apply transition
  | publishComputeAqlQueueMappings keys queue =>
    exact agrees_forM (fun key _ _ ht => ht.publishMapping key (namedOwner_queue queue)) keys h
  | releaseComputeAqlQueuePublications keys queue =>
    exact agrees_forM (fun key _ _ ht => ht.releaseOwned (.computeAqlQueue queue) key) keys h
  | publishPeerTransferMapping key binding =>
    by_cases hretains : binding.retainsPublication key = true
    · exact (agrees_refuse h).bind fun _ _ ht => ht.publishMapping key
        (namedOwner_of_retains hretains)
    · simp only [MemoryLifecycleState.perform, publishPeerTransferMapping, Bool.not_eq_true] at *
      rw [hretains]
      exact .inr ⟨_, _, rfl⟩
  | releasePeerTransferPublication key binding =>
    exact (agrees_refuse h).bind fun _ _ ht =>
      ht.releaseOwned (.peerTransfer binding.publicationOwner) key
  | checkpointReleased => exact h.checkpointReleased

theorem Checkpointed.sameVerdicts (h : Checkpointed state trimmed) (calls : List MemoryCall) :
    SameVerdicts state trimmed calls := by
  induction calls generalizing state trimmed with
  | nil => exact h.compacts.inForce_eq
  | cons call calls ih =>
    refine ⟨h.compacts.inForce_eq, ?_⟩
    have hagrees := h.perform call
    have hsafe := (h.valid'.perform call).not_panicked id
    unfold Alike Agrees at hagrees
    cases hstate : MemoryLifecycleState.perform call state with
    | done _ next =>
      rw [hstate] at hagrees
      obtain ⟨next', hdone, hnext⟩ := hagrees
      rw [hdone]
      exact ih hnext
    | failed error =>
      rw [hstate] at hagrees
      cases htrimmed : MemoryLifecycleState.perform call trimmed with
      | done _ next' =>
        obtain hcapacity | ⟨_, _, hfailed⟩ := hagrees
        · exact hcapacity
        · nomatch htrimmed.symm.trans hfailed
      | failed => exact ih h
      | panicked => exact absurd htrimmed hsafe
    | panicked =>
      rw [hstate] at hagrees
      exact hagrees.elim

end Verdicts

end MemoryLifecycleState

/-! ### Identities that are used up -/

/-- The keys that a call creates records with, VMs apart. -/
def MemoryCall.creates : MemoryCall → List MemoryRecordRef
  | .next (.reserveVa key _ _) => [.vaReservation key]
  | .next (.allocate key _ _ _) => [.allocation key]
  | .next (.beginMap key _ _) => [.mapping key]
  | .next (.publishMapping key) => [.publication key]
  | .publishComputeAqlQueueMappings keys _ => keys.map .publication
  | .publishPeerTransferMapping key _ => [.publication key]
  | _ => []

variable {call : MemoryCall} {id : Nat} {key : MemoryPublicationKey} {scope : MemoryIssuedIdScope}

namespace MemoryTables

/-- The identity is issued, unless its scope is gone. -/
def UsedUp (tables : MemoryTables) (entry : MemoryIssuedIdScope × Nat) : Prop :=
  entry.1 ∈ tables.scopes → Covered tables.watermarks entry.1 entry.2

/-- No record can be created with the key: the identity is issued, or that of a parent is and the
    parent is gone. -/
def Spent (tables : MemoryTables) : MemoryRecordRef → Prop
  | .vm key => ∃ record ∈ tables.vms, record.key = key
  | .vaReservation key => Covered tables.watermarks (.vaReservation key.vm) key.id
  | .allocation key => Covered tables.watermarks (.allocation key.vm) key.id
  | .mapping key =>
    Covered tables.watermarks (.allocation key.allocation.vm) key.allocation.id ∧
      tables.UsedUp (mappingEntry key)
  | .publication key =>
    Covered tables.watermarks (.allocation key.mapping.allocation.vm) key.mapping.allocation.id ∧
      tables.UsedUp (mappingEntry key.mapping) ∧ tables.UsedUp (publicationEntry key)

/-- What every call does to scopes and watermarks: a watermark is lowered only when its scope goes,
    VMs stay, and a new scope belongs to a record whose own identity is new. -/
structure Advances (before after : MemoryTables) : Prop where
  vms : ∀ record ∈ before.vms, ∃ later ∈ after.vms, later.key = record.key
  covered : ∀ scope ∈ after.scopes, ∀ id, Covered before.watermarks scope id →
    Covered after.watermarks scope id
  newMapping : ∀ key : MemoryAllocationKey, .mapping key ∈ after.scopes →
    MemoryIssuedIdScope.mapping key ∈ before.scopes ∨
      ¬ Covered before.watermarks (.allocation key.vm) key.id
  newPublication : ∀ key : MemoryMappingKey, .publication key ∈ after.scopes →
    MemoryIssuedIdScope.publication key ∈ before.scopes ∨ ¬ before.UsedUp (mappingEntry key)

section Spent

variable {tables before after : MemoryTables}

section

variable (h : Advances before after)
include h

/-- A watermark of a VM stays. -/
theorem Advances.covered_vm (hissued : Issued before.scopes before.identities before.watermarks)
    {vm : VmKey}
    (hscopes : ∀ {tables : MemoryTables}, scope ∈ tables.scopes ↔ ∃ record ∈ tables.vms,
    record.key = vm)
    (hcovered : Covered before.watermarks scope id) : Covered after.watermarks scope id := by
  obtain ⟨watermark, hmem, hscope, hle⟩ := hcovered
  have hparent := hissued.parents watermark hmem
  rw [hscope, hscopes] at hparent
  obtain ⟨record, hrecord, hkey⟩ := hparent
  obtain ⟨later, hlater, hsame⟩ := h.vms record hrecord
  exact h.covered _ (hscopes.mpr ⟨later, hlater, hsame.trans hkey⟩) _ ⟨watermark, hmem, hscope, hle⟩

theorem Advances.usedUp_mapping {key : MemoryMappingKey}
    (hparent : Covered before.watermarks (.allocation key.allocation.vm) key.allocation.id)
    (hused : before.UsedUp (mappingEntry key)) : after.UsedUp (mappingEntry key) := by
  intro hscope
  obtain hold | hnew := h.newMapping key.allocation hscope
  · exact h.covered _ hscope _ (hused hold)
  · exact absurd hparent hnew

theorem Advances.usedUp_publication (hparent : before.UsedUp (mappingEntry key.mapping))
    (hused : before.UsedUp (publicationEntry key)) : after.UsedUp (publicationEntry key) := by
  intro hscope
  obtain hold | hnew := h.newPublication key.mapping hscope
  · exact h.covered _ hscope _ (hused hold)
  · exact absurd hparent hnew

variable {reference : MemoryRecordRef}

/-- A key that is used up stays so. -/
theorem Advances.spent (hissued : Issued before.scopes before.identities before.watermarks)
    (hspent : before.Spent reference) : after.Spent reference := by
  cases reference with
  | vm key =>
    obtain ⟨record, hrecord, rfl⟩ := hspent
    exact h.vms record hrecord
  | vaReservation key => exact h.covered_vm hissued vaReservation_mem_scopes hspent
  | allocation key => exact h.covered_vm hissued allocation_mem_scopes hspent
  | mapping key =>
    obtain ⟨hallocation, hmapping⟩ := hspent
    exact ⟨h.covered_vm hissued allocation_mem_scopes hallocation,
      h.usedUp_mapping hallocation hmapping⟩
  | publication key =>
    obtain ⟨hallocation, hmapping, hpublication⟩ := hspent
    exact ⟨h.covered_vm hissued allocation_mem_scopes hallocation,
      h.usedUp_mapping hallocation hmapping, h.usedUp_publication hmapping hpublication⟩

end

/-! ### Tables that advance -/

/-- Without new scopes, and with watermarks that only rise. -/
theorem Advances.of_subset (hvms : ∀ record ∈ before.vms, ∃ later ∈ after.vms,
    later.key = record.key) (hscopes : after.scopes ⊆ before.scopes)
    (hcovered : ∀ scope ∈ after.scopes, ∀ id, Covered before.watermarks scope id →
      Covered after.watermarks scope id) : Advances before after :=
  ⟨hvms, hcovered, fun _ hscope => .inl (hscopes hscope), fun _ hscope => .inl (hscopes hscope)⟩

/-- Issuing an identity lowers no watermark. -/
theorem covered_issue (tables : MemoryTables) {scopes : List MemoryIssuedIdScope}
    {identities : List (MemoryIssuedIdScope × Nat)}
    (hissued : Issued scopes identities tables.watermarks) {other : MemoryIssuedIdScope}
    {lower : Nat} (hunissued : tables.Unissued scope id)
    (hcovered : Covered tables.watermarks other lower) :
    Covered (tables.issue scope id).watermarks other lower := by
  unfold MemoryTables.issue
  split
  · exact hcovered
  · next hdiscipline =>
    have hnext := hunissued (not_not.mp hdiscipline)
    obtain ⟨watermark, hmem, rfl, hle⟩ := hcovered
    by_cases hsame : watermark.scope = scope
    · refine ⟨⟨scope, id⟩, ((hissued.raised scope id).2 _).mpr (.inr rfl), hsame.symm, ?_⟩
      have hlt : ¬ id ≤ watermark.lastId := fun hle => hnext ⟨watermark, hmem, hsame, hle⟩
      show lower ≤ id
      omega
    · exact ⟨watermark, ((hissued.raised scope id).2 _).mpr (.inl ⟨hmem, hsame⟩), rfl, hle⟩

/-- Assignments to records leave their keys. -/
theorem Advances.of_keys (hvms : after.vms.map (·.key) = before.vms.map (·.key))
    (hallocations : after.allocations.map (·.key) = before.allocations.map (·.key))
    (hmappings : after.mappings.map (·.key) = before.mappings.map (·.key))
    (hwatermarks : after.watermarks = before.watermarks) : Advances before after := by
  apply Advances.of_subset
  · intro record hmem
    have hkey : record.key ∈ after.vms.map (·.key) := by
      rw [hvms]
      exact mem_map_of_mem hmem
    obtain ⟨later, hlater, hsame⟩ := mem_map.mp hkey
    exact ⟨later, hlater, hsame⟩
  · rw [scopes_of_keys hvms hallocations hmappings]
    exact List.Subset.refl _
  · intro scope _ id hcovered
    rwa [hwatermarks]

variable {new : MemoryPublicationRecord}

/-- The identity of a mapping that is admitted was not used up. -/
theorem AdmitsMapping.not_usedUp {new : MemoryMappingRecord} (hadmits : tables.AdmitsMapping new)
    (hmonotonic : tables.identityDiscipline = .monotonicNonReusable) :
    ¬ tables.UsedUp (mappingEntry new.key) := by
  intro hused
  obtain ⟨allocation, vm, hfits, -⟩ := hadmits.fits
  exact hadmits.unissued hmonotonic (hused (mapping_mem_scopes.mpr (exists_of_lookup hfits.found)))

theorem AdmitsPublication.not_usedUp (hadmits : tables.AdmitsPublication new)
    (hmonotonic : tables.identityDiscipline = .monotonicNonReusable) :
    ¬ tables.UsedUp (publicationEntry new.key) := by
  intro hused
  obtain ⟨mapping, hfits⟩ := hadmits.fits
  exact hadmits.unissued hmonotonic
    (hused (publication_mem_scopes.mpr (exists_of_lookup hfits.found)))

section

variable (h : tables.Lawful)
  (hmonotonic : tables.identityDiscipline = .monotonicNonReusable)
include h hmonotonic

/-! ### The keys of records are used up -/

theorem Lawful.spent_mapping {record : MemoryMappingRecord}
    (hmem : record ∈ tables.mappings) : tables.Spent (.mapping record.key) := by
  have hissued := h.monotonic hmonotonic
  obtain ⟨allocation, hallocation, hkey⟩ := h.exists_allocation hmem
  have hparent := hissued.covered _ (mem_identities_allocation hallocation)
  rw [← hkey] at hparent
  exact ⟨hparent, fun _ => hissued.covered _ (mem_identities_mapping hmem)⟩

theorem Lawful.spent_publication {record : MemoryPublicationRecord}
    (hmem : record ∈ tables.publications) : tables.Spent (.publication record.key) := by
  obtain ⟨mapping, hmapping, hkey⟩ := h.exists_mapping hmem
  obtain ⟨hallocation, hused⟩ := h.spent_mapping hmonotonic hmapping
  rw [← hkey] at hallocation hused
  exact ⟨hallocation, hused,
    fun _ => (h.monotonic hmonotonic).covered _ (mem_identities_publication hmem)⟩

/-! ### Every call advances -/

/-- A new record, whose identity is issued. -/
theorem Lawful.advances_issue {grown : MemoryTables} (hvms : grown.vms = tables.vms)
    (hwatermarks : grown.watermarks = tables.watermarks)
    (hdiscipline : grown.identityDiscipline = tables.identityDiscipline)
    (hunissued : tables.Unissued scope id)
    (hmapping : ∀ key : MemoryAllocationKey, .mapping key ∈ grown.scopes →
      MemoryIssuedIdScope.mapping key ∈ tables.scopes ∨
        ¬ Covered tables.watermarks (.allocation key.vm) key.id)
    (hpublication : ∀ key : MemoryMappingKey, .publication key ∈ grown.scopes →
      MemoryIssuedIdScope.publication key ∈ tables.scopes ∨ ¬ tables.UsedUp (mappingEntry key)) :
    Advances tables (grown.issue scope id) := by
  have hissued := h.monotonic hmonotonic
  rw [← hwatermarks] at hissued
  have hgrown : grown.Unissued scope id := by
    intro hdisciplined hcovered
    rw [hwatermarks] at hcovered
    exact hunissued (hdiscipline.symm.trans hdisciplined) hcovered
  refine ⟨fun record hmem => ⟨record, ?_, rfl⟩, fun other _ lower hcovered => ?_, ?_, ?_⟩
  · rw [vms_issue, hvms]
    exact hmem
  · rw [← hwatermarks] at hcovered
    exact covered_issue grown hissued hgrown hcovered
  · rwa [scopes_issue]
  · rwa [scopes_issue]

theorem Lawful.advances_addPublication
    (hadmits : tables.AdmitsPublication new) : Advances tables (tables.addPublication new) :=
  h.advances_issue hmonotonic rfl rfl rfl hadmits.unissued (fun _ hscope => .inl hscope)
    fun _ hscope => .inl hscope

theorem Lawful.advances_addReservation {new : VaReservationRecord}
    (hadmits : tables.AdmitsReservation new) : Advances tables (tables.addReservation new) :=
  h.advances_issue hmonotonic rfl rfl rfl hadmits.unissued (fun _ hscope => .inl hscope)
    fun _ hscope => .inl hscope

theorem Lawful.advances_addAllocation {new : MemoryAllocationRecord}
    (hadmits : tables.AdmitsAllocation new) : Advances tables (tables.addAllocation new) := by
  refine h.advances_issue hmonotonic rfl rfl rfl hadmits.unissued (fun key hscope => ?_)
    fun key hscope => .inl ?_
  · obtain ⟨record, hmem, rfl⟩ := mapping_mem_scopes.mp hscope
    obtain hold | hnew := mem_append.mp hmem
    · exact .inl (mapping_mem_scopes.mpr ⟨record, hold, rfl⟩)
    · obtain rfl := mem_singleton.mp hnew
      exact .inr (hadmits.unissued hmonotonic)
  · rw [publication_mem_scopes] at hscope
    exact publication_mem_scopes.mpr hscope

theorem Lawful.advances_addMapping {new : MemoryMappingRecord}
    (hadmits : tables.AdmitsMapping new) : Advances tables (tables.addMapping new) := by
  refine h.advances_issue hmonotonic rfl rfl rfl hadmits.unissued (fun _ hscope => .inl ?_)
    fun key hscope => ?_
  · rw [mapping_mem_scopes] at hscope
    exact mapping_mem_scopes.mpr hscope
  · obtain ⟨record, hmem, rfl⟩ := publication_mem_scopes.mp hscope
    obtain hold | hnew := mem_append.mp hmem
    · exact .inl (publication_mem_scopes.mpr ⟨record, hold, rfl⟩)
    · obtain rfl := mem_singleton.mp hnew
      exact .inr (hadmits.not_usedUp hmonotonic)

theorem Lawful.advances_effect
    (hallowed : tables.Allows transition) : Advances tables (tables.effect transition) := by
  cases transition with
  | acquireVm admission mappingDevices handle aperture =>
    refine ⟨fun record hmem => ⟨record, mem_append_left _ hmem, rfl⟩, fun _ _ _ => id, ?_, ?_⟩
    · intro key hscope
      rw [mapping_mem_scopes] at hscope
      exact .inl (mapping_mem_scopes.mpr hscope)
    · intro key hscope
      rw [publication_mem_scopes] at hscope
      exact .inl (publication_mem_scopes.mpr hscope)
  | retireVm key => exact .of_keys (map_amend_of_eq fun _ => rfl) rfl rfl rfl
  | reserveVa key range alignment => exact h.advances_addReservation hmonotonic hallowed
  | releaseVaReservation key => exact .of_keys rfl rfl rfl rfl
  | allocate key reservation handle spec => exact h.advances_addAllocation hmonotonic hallowed
  | releaseAllocation key => exact .of_keys rfl (map_amend_of_eq fun _ => rfl) rfl rfl
  | beginMap key targetDevices access => exact h.advances_addMapping hmonotonic hallowed
  | observeMap key progress =>
    exact .of_keys rfl rfl (map_amend_of_eq (reportedMap_step progress).key)
      rfl
  | beginUnmap key | releaseMapping key =>
    exact .of_keys rfl rfl (map_amend_of_eq (MemoryLifecycleState.enter_step _).key) rfl
  | observeUnmap key progress =>
    exact .of_keys rfl rfl (map_amend_of_eq (reportedUnmap_step progress).key)
      rfl
  | publishMapping key => exact h.advances_addPublication hmonotonic hallowed
  | releasePublication key => exact .of_keys rfl rfl rfl rfl

theorem Lawful.advances_compacted : Advances tables tables.compacted := by
  apply Advances.of_subset
  · exact fun record hmem => ⟨record, hmem, rfl⟩
  · exact scopes_compacted
  · rintro scope hscope id ⟨watermark, hmem, rfl, hle⟩
    exact ⟨watermark, (h.mem_compacted_watermarks hmonotonic watermark).mpr ⟨hmem, hscope⟩, rfl,
      hle⟩

end

/-! ### What a call creates -/

/-- The keys are fresh before the call and used up after it, and each is created once. -/
structure Creates (before after : MemoryTables) (references : List MemoryRecordRef) : Prop where
  fresh : ∀ reference ∈ references, ¬ before.Spent reference
  spent : ∀ reference ∈ references, after.Spent reference
  kept : ∀ reference, before.Spent reference → after.Spent reference
  nodup : references.Nodup

theorem creates_nil (hkept : ∀ reference, before.Spent reference → after.Spent reference) :
    Creates before after [] :=
  ⟨nofun, nofun, hkept, nodup_nil⟩

theorem creates_one (hfresh : ¬ before.Spent reference) (hspent : after.Spent reference)
    (hkept : ∀ reference, before.Spent reference → after.Spent reference) :
    Creates before after [reference] := by
  refine ⟨fun other hmem => ?_, fun other hmem => ?_, hkept, nodup_singleton _⟩
  · rwa [mem_singleton.mp hmem]
  · rwa [mem_singleton.mp hmem]

theorem Creates.append {middle : MemoryTables} {first second : List MemoryRecordRef}
    (h : Creates before middle first) (h' : Creates middle after second) :
    Creates before after (first ++ second) := by
  constructor
  · intro reference hmem
    obtain hmem | hmem := mem_append.mp hmem
    · exact h.fresh reference hmem
    · exact fun hspent => h'.fresh reference hmem (h.kept reference hspent)
  · intro reference hmem
    obtain hmem | hmem := mem_append.mp hmem
    · exact h'.kept reference (h.spent reference hmem)
    · exact h'.spent reference hmem
  · exact fun reference hspent => h'.kept reference (h.kept reference hspent)
  · apply nodup_append'.mpr
    refine ⟨h.nodup, h'.nodup, fun reference hfirst hsecond => ?_⟩
    exact h'.fresh reference hsecond (h.spent reference hfirst)

/-- Lawful tables that never reuse an identity. -/
structure Monotonic (tables : MemoryTables) : Prop where
  lawful : tables.Lawful
  monotonic : tables.identityDiscipline = .monotonicNonReusable

section

variable (h : tables.Monotonic)
include h

theorem Monotonic.issued : Issued tables.scopes tables.identities tables.watermarks :=
  h.lawful.monotonic h.monotonic

theorem Monotonic.addPublication (hroom : tables.publications.length < maxMemoryPublications)
    (hadmits : tables.AdmitsPublication new) : (tables.addPublication new).Monotonic :=
  ⟨h.lawful.addPublication hroom hadmits, identityDiscipline_issue.trans h.monotonic⟩

theorem Monotonic.creates_publication (hroom : tables.publications.length < maxMemoryPublications)
    (hadmits : tables.AdmitsPublication new) : Creates tables (tables.addPublication new)
    [.publication new.key] := by
  have hafter := h.addPublication hroom hadmits
  have hmem : new ∈ (tables.addPublication new).publications := by
    rw [MemoryTables.addPublication, publications_issue]
    exact mem_append_right _ (mem_singleton_self new)
  exact creates_one (fun hspent => hadmits.not_usedUp h.monotonic hspent.2.2)
    (hafter.lawful.spent_publication hafter.monotonic hmem)
    fun _ => (h.lawful.advances_addPublication h.monotonic hadmits).spent h.issued

theorem Monotonic.creates_reservation {new : VaReservationRecord}
    (hroom : tables.reservations.length < maxVaReservations)
    (hadmits : tables.AdmitsReservation new) :
    Creates tables (tables.addReservation new) [.vaReservation new.key] := by
  have hissued := (h.lawful.addReservation hroom hadmits).monotonic
    (identityDiscipline_issue.trans h.monotonic)
  have hmem : new ∈ (tables.addReservation new).reservations := by
    rw [MemoryTables.addReservation, reservations_issue]
    exact mem_append_right _ (mem_singleton_self new)
  have hfresh : ¬ tables.Spent (.vaReservation new.key) := hadmits.unissued h.monotonic
  exact creates_one hfresh (hissued.covered _ (mem_identities_reservation hmem))
    fun _ => (h.lawful.advances_addReservation h.monotonic hadmits).spent h.issued

theorem Monotonic.creates_allocation {new : MemoryAllocationRecord}
    (hroom : tables.allocations.length < maxMemoryAllocations)
    (hadmits : tables.AdmitsAllocation new) :
    Creates tables (tables.addAllocation new) [.allocation new.key] := by
  have hissued := (h.lawful.addAllocation hroom hadmits).monotonic
    (identityDiscipline_issue.trans h.monotonic)
  have hmem : new ∈ (tables.addAllocation new).allocations := by
    rw [MemoryTables.addAllocation, allocations_issue]
    exact mem_append_right _ (mem_singleton_self new)
  have hfresh : ¬ tables.Spent (.allocation new.key) := hadmits.unissued h.monotonic
  exact creates_one hfresh (hissued.covered _ (mem_identities_allocation hmem))
    fun _ => (h.lawful.advances_addAllocation h.monotonic hadmits).spent h.issued

theorem Monotonic.creates_mapping {new : MemoryMappingRecord}
    (hroom : tables.mappings.length < maxMemoryMappings) (hadmits : tables.AdmitsMapping new) :
    Creates tables (tables.addMapping new) [.mapping new.key] := by
  have hafter := h.lawful.addMapping hroom hadmits
  have hmem : new ∈ (tables.addMapping new).mappings := by
    rw [MemoryTables.addMapping, mappings_issue]
    exact mem_append_right _ (mem_singleton_self new)
  exact creates_one (fun hspent => hadmits.not_usedUp h.monotonic hspent.2)
    (hafter.spent_mapping (identityDiscipline_issue.trans h.monotonic) hmem)
    fun _ => (h.lawful.advances_addMapping h.monotonic hadmits).spent h.issued

end

theorem Monotonic.creates_publications (h : before.Monotonic) {keys : List MemoryPublicationKey}
    (hthrough : Through (Publishes owner) keys before after) :
    Creates before after (keys.map .publication) := by
  induction hthrough with
  | nil => exact creates_nil fun _ => id
  | cons first _ ih =>
    obtain ⟨hroom, hadmits, rfl⟩ := first
    exact (h.creates_publication hroom hadmits).append (ih (h.addPublication hroom hadmits))

theorem Withdraws.spent (h : Withdraws owner key before after) (hspent : before.Spent reference) :
    after.Spent reference := by
  rw [h.2]
  exact hspent

theorem Monotonic.creates_effect (h : tables.Monotonic) (hroom : tables.HasRoom transition)
    (hallowed : tables.Allows transition) :
    Creates tables (tables.effect transition) (MemoryCall.creates (.next transition)) := by
  cases transition with
  | reserveVa key range alignment => exact h.creates_reservation hroom hallowed
  | allocate key reservation handle spec => exact h.creates_allocation hroom hallowed
  | beginMap key targetDevices access => exact h.creates_mapping hroom hallowed
  | publishMapping key => exact h.creates_publication hroom hallowed
  | _ => exact creates_nil fun _ => (h.lawful.advances_effect h.monotonic hallowed).spent h.issued

/-- What every call that succeeds creates. -/
theorem Monotonic.creates (h : before.Monotonic) (hperforms : before.Performs call after) :
    Creates before after call.creates := by
  cases call with
  | next transition =>
    obtain ⟨hroom, hallowed, rfl⟩ := hperforms
    exact h.creates_effect hroom hallowed
  | publishComputeAqlQueueMappings keys queue => exact h.creates_publications hperforms
  | releaseComputeAqlQueuePublications keys queue =>
    apply creates_nil
    intro reference
    exact hperforms.keeps fun _ _ _ hwithdraws => hwithdraws.spent
  | publishPeerTransferMapping key binding =>
    obtain ⟨hroom, hadmits, rfl⟩ := hperforms
    exact h.creates_publication hroom hadmits
  | releasePeerTransferPublication key binding =>
    exact creates_nil fun _ => Withdraws.spent hperforms
  | checkpointReleased =>
    obtain rfl : after = before.compacted := hperforms
    exact creates_nil fun _ => (h.lawful.advances_compacted h.monotonic).spent h.issued

theorem Performs.identityDiscipline (h : before.Performs call after) :
    after.identityDiscipline = before.identityDiscipline := by
  cases call with
  | next transition =>
    rw [h.2.2]
    exact identityDiscipline_effect transition
  | publishComputeAqlQueueMappings keys queue =>
    apply Through.keeps h (I := fun tables => tables.identityDiscipline = before.identityDiscipline)
      _ rfl
    rintro key middle last ⟨-, -, rfl⟩ hsame
    exact identityDiscipline_issue.trans hsame
  | releaseComputeAqlQueuePublications keys queue =>
    apply Through.keeps h (I := fun tables => tables.identityDiscipline = before.identityDiscipline)
      _ rfl
    rintro key middle last ⟨-, rfl⟩ hsame
    exact hsame
  | publishPeerTransferMapping key binding =>
    rw [h.2.2]
    exact identityDiscipline_issue
  | releasePeerTransferPublication key binding =>
    rw [h.2]
    rfl
  | checkpointReleased =>
    obtain rfl : after = before.compacted := h
    rfl

end Spent

end MemoryTables

/-! ### Runs -/

namespace MemoryLifecycleState

variable {state : MemoryLifecycleState}

/-- The keys that the calls of a sequence create records with, in the order they are accepted. -/
def accepted (state : MemoryLifecycleState) : List MemoryCall → List MemoryRecordRef
  | [] => []
  | call :: calls =>
    match perform call state with
    | .done _ next => call.creates ++ next.accepted calls
    | .failed _ _ => state.accepted calls
    | .panicked => []

theorem Valid.nodup_accepted (h : state.Valid)
    (hmonotonic : state.identityDiscipline = .monotonicNonReusable) (calls : List MemoryCall) :
    (state.accepted calls).Nodup ∧
      ∀ reference ∈ state.accepted calls, ¬ state.tables.Spent reference := by
  induction calls generalizing state with
  | nil => exact ⟨nodup_nil, nofun⟩
  | cons call calls ih =>
    unfold accepted
    cases hcall : MemoryLifecycleState.perform call state with
    | done _ next =>
      obtain ⟨hnext, hperforms⟩ := (h.perform call).of_done hcall
      have htables : state.tables.Monotonic := ⟨h.lawful, hmonotonic⟩
      have hcreates := htables.creates hperforms
      obtain ⟨hnodup, hfresh⟩ := ih hnext (hperforms.identityDiscipline.trans hmonotonic)
      constructor
      · apply nodup_append'.mpr
        refine ⟨hcreates.nodup, hnodup, fun reference hnow hlater => ?_⟩
        exact hfresh reference hlater (hcreates.spent reference hnow)
      · intro reference hmem
        obtain hmem | hmem := mem_append.mp hmem
        · exact hcreates.fresh reference hmem
        · exact fun hspent => hfresh reference hmem (hcreates.kept reference hspent)
    | failed => exact ih h hmonotonic
    | panicked => exact absurd hcall ((h.perform call).not_panicked id)

theorem Valid.run_monotonic (h : state.Valid)
    (hmonotonic : state.identityDiscipline = .monotonicNonReusable) (calls : List MemoryCall) :
    ∃ last, state.run calls = some last ∧ last.Valid ∧
      last.identityDiscipline = .monotonicNonReusable := by
  apply h.run_keeps (P := fun tables => tables.identityDiscipline = .monotonicNonReusable)
    hmonotonic
  intro before call after hperforms hbefore
  exact hperforms.identityDiscipline.trans hbefore

/-- Under the monotonic discipline, every state that calls reach has a checkpoint, from which every
    sequence of calls gets the same verdicts and keeps the same records in force; and no key is
    accepted twice, whatever checkpoints the calls contain. -/
theorem checkpoint_invisible (domainId : IdentityDigest) (calls : List MemoryCall) :
    (∃ state checkpoint, (newMonotonicNonReusable domainId).run calls = some state ∧
      checkpointReleased state = .done () checkpoint ∧
      ∀ later, SameVerdicts state checkpoint later) ∧
    ((newMonotonicNonReusable domainId).accepted calls).Nodup := by
  have hempty := empty_valid domainId .monotonicNonReusable
  refine ⟨?_, (hempty.nodup_accepted rfl calls).1⟩
  obtain ⟨state, hrun, hvalid, hmonotonic⟩ := hempty.run_monotonic rfl calls
  obtain ⟨checkpoint, hdone, hvalid', htables⟩ := hvalid.exists_checkpoint hmonotonic
  have htrims : state.tables.Trims checkpoint.tables := by
    rw [htables]
    exact hvalid.lawful.trims_compacted hmonotonic
  have hrelated : Checkpointed state checkpoint :=
    ⟨hvalid, hvalid', htrims.mirrors hvalid.lawful hvalid'.lawful hmonotonic, htrims⟩
  exact ⟨state, checkpoint, hrun, hdone, hrelated.sameVerdicts⟩

end MemoryLifecycleState

end Fe2o3.MemoryLifecycle
