import Fe2o3.MemoryLifecycle.Runs
import Fe2o3.QueueLifecycle.Invariants

/-!
# Queues keep the memory they use

A live publication keeps its mapping mapped and its allocation live, and only its owner
can withdraw it.  The publications of a queue are withdrawn by the queue alone, once it
retains nothing.  Over any sequence of calls on the two states, the queues that may
exist therefore find all their resources in place.
-/

namespace Fe2o3.MemoryLifecycle

open Lib
open List hiding lookup
open Lib.Command
open RuntimeModel (QueueKey)

/-! ### Publications that are held -/

namespace MemoryTables

/-- The publication is there, live and held by the owner. -/
def Holding (tables : MemoryTables) (owner : MemoryPublicationOwner) (key : MemoryPublicationKey) :
    Prop :=
  Holds MemoryPublicationRecord.key key tables.publications (HeldBy owner)

variable {tables before after : MemoryTables} {owner other : MemoryPublicationOwner}
  {key released : MemoryPublicationKey}

section

variable (h : tables.Holding owner key)
include h

theorem Holding.addPublication (new : MemoryPublicationRecord) :
    (tables.addPublication new).Holding owner key := by
  obtain ⟨record, hfound, hheld⟩ := h
  refine ⟨record, ?_, hheld⟩
  rw [MemoryTables.addPublication, publications_issue]
  exact lookup_append_of_some hfound

/-- Another owner withdraws a publication of its own. -/
theorem Holding.releasePublication (hreleased : tables.Holding other released)
    (hne : other ≠ owner) : (tables.releasePublication released).Holding owner key := by
  obtain ⟨record, hfound, hheld⟩ := h
  obtain ⟨withdrawn, hwithdrawn, hother⟩ := hreleased
  have hkey : key ≠ released := by
    rintro rfl
    cases hfound.symm.trans hwithdrawn
    exact hne (hother.1.symm.trans hheld.1)
  refine ⟨record, ?_, hheld⟩
  rw [← hfound]
  exact lookup_amend_of_ne (fun _ => rfl) hkey

/-- Transitions of the memory withdraw generic publications only. -/
theorem Holding.effect {transition : MemoryTransition} (hallowed : tables.Allows transition)
    (howner : owner ≠ .generic) : (tables.effect transition).Holding owner key := by
  cases transition with
  | publishMapping new => exact h.addPublication _
  | releasePublication other => exact h.releasePublication hallowed howner.symm
  | acquireVm | retireVm | releaseVaReservation | releaseAllocation | observeMap | beginUnmap
  | observeUnmap | releaseMapping => exact h
  | reserveVa | allocate | beginMap =>
    unfold Holding
    simp only [MemoryTables.effect, addReservation, addAllocation, addMapping, publications_issue]
    exact h

theorem Holding.compacted (hlawful : tables.Lawful) : tables.compacted.Holding owner key := by
  obtain ⟨record, hfound, hheld⟩ := h
  refine ⟨record, lookup_filter hlawful.publicationKeys hfound ?_, hheld⟩
  rw [hheld.2]
  rfl

end

theorem Holding.withdraws (h : before.Holding owner key)
    (hwithdraws : Withdraws other released before after) (hne : other ≠ owner) :
    after.Holding owner key := by
  obtain ⟨hreleased, rfl⟩ := hwithdraws
  exact h.releasePublication hreleased hne

theorem Holding.publishes (h : before.Holding owner key)
    (hpublishes : Publishes other released before after) : after.Holding owner key := by
  obtain ⟨-, -, rfl⟩ := hpublishes
  exact h.addPublication _

/-- A publication of a queue stays, unless this queue withdraws it. -/
theorem Holding.performs {queue : QueueKey} {call : MemoryCall}
    (h : before.Holding (.computeAqlQueue queue) key) (hlawful : before.Lawful)
    (hperforms : before.Performs call after)
    (hcall : ∀ keys, call ≠ .releaseComputeAqlQueuePublications keys queue) :
    after.Holding (.computeAqlQueue queue) key := by
  cases call with
  | next transition =>
    obtain ⟨-, hallowed, rfl⟩ := hperforms
    exact h.effect hallowed nofun
  | publishComputeAqlQueueMappings keys queue' =>
    exact Through.keeps (I := fun tables =>
      MemoryTables.Holding tables (.computeAqlQueue queue) key)
      hperforms
      (fun _ _ _ hstep hheld => hheld.publishes hstep) h
  | releaseComputeAqlQueuePublications keys queue' =>
    have hne : MemoryPublicationOwner.computeAqlQueue queue' ≠ .computeAqlQueue queue := by
      intro heq
      obtain rfl := MemoryPublicationOwner.computeAqlQueue.inj heq
      exact hcall keys rfl
    exact Through.keeps (I := fun tables =>
      MemoryTables.Holding tables (.computeAqlQueue queue) key)
      hperforms
      (fun _ _ _ hstep hheld => hheld.withdraws hstep hne) h
  | publishPeerTransferMapping new binding => exact h.publishes hperforms
  | releasePeerTransferPublication released binding =>
    exact h.withdraws hperforms nofun
  | checkpointReleased =>
    obtain rfl : after = before.compacted := hperforms
    exact h.compacted hlawful

/-- What was published is held. -/
theorem holding_of_publishes {keys : List MemoryPublicationKey}
    (h : Through (Publishes owner) keys before after) : ∀ key ∈ keys, after.Holding owner key := by
  induction h with
  | nil => exact nofun
  | cons first rest ih =>
    intro key hmem
    obtain rfl | hmem := mem_cons.mp hmem
    · apply rest.keeps (I := fun tables => tables.Holding owner key)
      · exact fun _ _ _ hstep hheld => hheld.publishes hstep
      · obtain ⟨-, hadmits, rfl⟩ := first
        refine ⟨⟨key, owner, .live⟩, ?_, rfl, rfl⟩
        rw [MemoryTables.addPublication, publications_issue]
        exact lookup_append_new hadmits.fresh rfl
    · exact ih key hmem

/-- A publication that is held keeps its mapping mapped and its allocation live. -/
theorem Holding.mapped (h : tables.Holding owner key) (hlawful : tables.Lawful) :
    Holds MemoryMappingRecord.key key.mapping tables.mappings
    (fun record => record.state = .mapped) ∧
      Holds MemoryAllocationRecord.key key.mapping.allocation tables.allocations
        fun record => record.state = .live := by
  obtain ⟨publication, hfound, hheld⟩ := h
  have hkey : publication.key = key := lookup_key hfound
  obtain ⟨mapping, hmapping⟩ := hlawful.publications publication (lookup_mem hfound)
  have hmapped := hmapping.mapped hheld.2
  obtain ⟨allocation, vm, hallocation⟩ := hlawful.mappings mapping (lookup_mem hmapping.found)
  have hlive := hallocation.live (by rw [hmapped]; decide)
  have hmappingKey : mapping.key = key.mapping := hkey ▸ lookup_key hmapping.found
  refine ⟨⟨mapping, hkey ▸ hmapping.found, hmapped⟩, allocation, ?_, hlive⟩
  rw [← hmappingKey]
  exact hallocation.found

end MemoryTables

end Fe2o3.MemoryLifecycle

namespace Fe2o3.QueueLifecycle

open Lib
open List hiding lookup
open Lib.Command
open MemoryLifecycle
open RuntimeModel (DeviceKey VmKey QueueKey IdentityDigest)

/-! ### Custody -/

/-- The publications of a queue that may exist are held by it. -/
def Custody (tables : MemoryTables) (record : ComputeAqlQueueRecord) : Prop :=
  record.phase.retainsResources = true → ∀ key ∈ record.plan.resources.publications,
    tables.Holding (.computeAqlQueue record.plan.queue) key

structure QueueSystem.Secure (system : QueueSystem) : Prop where
  queues : system.queues.Sound
  memory : system.memory.Valid
  custody : ∀ record ∈ system.queues.queues.records, Custody system.memory.tables record

variable {record : ComputeAqlQueueRecord} {role : ComputeAqlResourceRole}
  {resource : ComputeAqlResourceBinding}

namespace QueueSystem

variable {system : QueueSystem}

theorem secures_onMemory (h : system.memory.Valid) (call : MemoryCall) :
    Secures (onMemory call) (fun _ next => next.queues = system.queues ∧ next.memory.Valid ∧
      system.memory.tables.Performs call next.memory.tables) system := by
  unfold Secures Meets onMemory
  obtain ⟨_, next, hdone, hnext⟩ | ⟨_, _, hfailed, -⟩ | ⟨-, hfalse⟩ := (h.perform call).outcomes
  · rw [hdone]
    exact ⟨rfl, hnext⟩
  · rw [hfailed]
    trivial
  · exact hfalse.elim

/-- A call on the memory that is not the release of a queue's publications. -/
theorem Secure.onMemory (h : system.Secure) {call : MemoryCall}
    (hcall : ∀ keys queue, call ≠ .releaseComputeAqlQueuePublications keys queue) :
    Secures (onMemory call) (fun _ next => next.Secure) system := by
  apply (secures_onMemory h.memory call).mono
  rintro _ next ⟨hqueues, hmemory, hperforms⟩
  refine ⟨hqueues ▸ h.queues, hmemory, ?_⟩
  rw [hqueues]
  intro record hmem hretains key hkey
  exact (h.custody record hmem hretains key hkey).performs h.memory.lawful hperforms
    fun keys => hcall keys _

theorem ensureQueueRoom_eq_ok {actual maximum : Nat} {kind : QueueRecordKind} {u : Unit} :
    ensureQueueRoom actual maximum kind = .ok u ↔ actual < maximum := by
  unfold ensureQueueRoom
  rw [failIf_eq_ok, decide_eq_false_iff_not, Nat.not_le]

/-- The queues and the history that a call leaves. -/
theorem secures_pushHistory {event : QueueHistoryEventKind} {phase : ComputeAqlQueuePhase}
    {Q : Unit → QueueSystem → Prop} (h : system.queues.history.length < maxQueueHistoryEntries →
      Q () ⟨system.queues.recorded system.queues.queues
        (system.queues.entryFor record.plan.queue event phase record.toQueueStatus),
        system.memory⟩) :
    Secures (pushHistory record event phase) Q system := by
  simp only [pushHistory, secures_bind, secures_read, secures_lift, ensureHistoryRoom,
    ensureQueueRoom_eq_ok, secures_update]
  exact fun _ hroom => h hroom

section

variable (h : system.Secure)
include h

theorem Secure.apply (transition : QueueTransition) :
    Secures (apply transition) (fun _ next => next.Secure) system := by
  simp only [QueueSystem.apply, secures_bind, secures_read, secures_lift, secures_expect, setQueues,
    secures_update, QueueLifecycleState.queue, okOr_eq_ok, h.queues.coherent.get_eq]
  intro before hfound
  rintro ⟨after, event⟩ hadvance
  have hmem := lookup_mem hfound
  have hadvances := QueueLifecycleState.advance_advances (h.queues.phases before hmem) hadvance
  have hkey : before.key = transition.queue := lookup_key hfound
  obtain ⟨queues, hqueues, hcoherent, hrecords⟩ :=
    h.queues.coherent.getMut (f := .become after) hkey hfound
  refine ⟨queues, hqueues, secures_pushHistory fun hroom => ?_⟩
  rw [← hkey] at hfound hadvances hrecords
  refine ⟨h.queues.advance hfound hadvances hroom hcoherent hrecords, h.memory, ?_⟩
  intro record hrecord hretains
  change record ∈ queues.records at hrecord
  rw [hrecords] at hrecord
  obtain ⟨hold, -⟩ | ⟨old, hold, rfl⟩ := mem_amend h.queues.distinctKeys hrecord
  · exact h.custody record hold hretains
  · cases hfound.symm.trans hold
    exact h.custody before hmem hadvances.retained

theorem Secure.next (identity : DeviceIdentityState) (transition : QueueTransition) :
    Secures (next identity transition) (fun _ next => next.Secure) system := by
  simp only [QueueSystem.next, secures_bind, secures_read, secures_lift]
  intro _ _ _ _
  exact h.apply transition

theorem Secure.quarantineCurrentnessLoss (queue : QueueKey) :
    Secures (quarantineCurrentnessLoss queue) (fun _ next => next.Secure) system := by
  simp only [QueueSystem.quarantineCurrentnessLoss, secures_bind, secures_read, secures_lift]
  intro _ _
  exact h.apply (.observeCurrentnessLost queue)

/-- Another queue than the one that releases keeps its publications, and the one that releases
    needs none. -/
theorem Secure.releaseResourcePublications (queue : QueueKey) :
    Secures (releaseResourcePublications queue) (fun _ next => next.Secure) system := by
  simp only [QueueSystem.releaseResourcePublications, secures_bind, secures_read, secures_lift,
    QueueLifecycleState.queue, okOr_eq_ok, h.queues.coherent.get_eq, failIf_eq_ok]
  intro released hfound _ hreleased
  apply (secures_onMemory h.memory _).mono
  rintro _ next ⟨hqueues, hmemory, hperforms⟩
  refine ⟨hqueues ▸ h.queues, hmemory, ?_⟩
  rw [hqueues]
  intro record hmem hretains key hkey
  apply (h.custody record hmem hretains key hkey).performs h.memory.lawful hperforms
  intro keys heq
  injection heq with _ hqueue
  have hsame := lookup_of_mem h.queues.distinctKeys hmem
  rw [hqueue] at hfound
  cases hfound.symm.trans hsame
  cases hreleased.symm.trans hretains

/-- A plan that is admitted publishes what it needs. -/
theorem Secure.admitComputeAqlPlan (identity : DeviceIdentityState) (plan : ComputeAqlQueuePlan) :
    Secures (admitComputeAqlPlan identity plan) (fun _ next => next.Secure) system := by
  simp only [QueueSystem.admitComputeAqlPlan, secures_bind, secures_read, secures_lift,
    ensureQueueRoom_eq_ok, mapError_eq_ok, secures_expect, setQueues, secures_update]
  intro _ _ _ hqueues _ _ _ haccepted
  apply (secures_onMemory h.memory _).mono
  rintro _ next ⟨hsame, hmemory, hperforms⟩
  have hnew : ∀ record ∈ system.queues.queues.records,
      record.key ≠ (ComputeAqlQueueRecord.planned plan).key :=
    fun record hmem => (h.queues.beside_planned haccepted hmem).distinct
  obtain ⟨queues, hpush, hcoherent, hrecords⟩ := h.queues.coherent.push hnew
  refine ⟨queues, hpush, secures_pushHistory fun hroom => ?_⟩
  rw [hsame] at hroom ⊢
  refine ⟨h.queues.admits haccepted hqueues hroom hcoherent hrecords, hmemory, ?_⟩
  intro record hrecord hretains
  change record ∈ queues.records at hrecord
  rw [hrecords, mem_append, mem_singleton] at hrecord
  obtain hold | rfl := hrecord
  · intro key hkey
    exact (h.custody record hold hretains key hkey).performs h.memory.lawful hperforms
      fun keys heq => by cases heq
  · exact MemoryTables.holding_of_publishes hperforms

/-! ### Runs -/

theorem Secure.perform (call : QueueSystemCall) :
    Secures (perform call) (fun _ next => next.Secure) system := by
  cases call with
  | memoryNext transition | checkpointReleased | publishPeerTransferMapping key binding =>
    exact h.onMemory nofun
  | releasePeerTransferPublication key binding => exact h.onMemory nofun
  | admitComputeAqlPlan identity plan => exact h.admitComputeAqlPlan identity plan
  | next identity transition => exact h.next identity transition
  | quarantineCurrentnessLoss queue => exact h.quarantineCurrentnessLoss queue
  | releaseResourcePublications queue => exact h.releaseResourcePublications queue

theorem Secure.run (calls : List QueueSystemCall) :
    ∃ last, system.run calls = some last ∧ last.Secure := by
  induction calls generalizing system with
  | nil => exact ⟨system, rfl, h⟩
  | cons call calls ih =>
    unfold QueueSystem.run
    obtain ⟨_, next, hdone, hnext⟩ | ⟨_, _, hfailed, -⟩ | ⟨-, hfalse⟩ := (h.perform call).outcomes
    · rw [hdone]
      exact ih hnext
    · rw [hfailed]
      exact ih h
    · exact hfalse.elim

end

/-! ### What a queue finds -/

/-- The resource of a queue is in place: mapped, allocated, and published for the queue. -/
structure InPlace (memory : MemoryLifecycleState) (queue : QueueKey)
    (resource : ComputeAqlResourceBinding) : Prop where
  mapping : ∃ record, memory.mapping resource.mapping = .ok record ∧ record.state = .mapped
  allocation : ∃ record, memory.allocation resource.mapping.allocation = .ok record ∧
    record.state = .live
  publication : ∃ record, memory.publication resource.publication = .ok record ∧
    record.state = .live ∧ record.owner = .computeAqlQueue queue

/-- The publication of a resource is of its mapping. -/
theorem publication_mapping {domainId : IdentityDigest} {plan : ComputeAqlQueuePlan}
    (hshape : QueueLifecycleState.validatePlanShape domainId plan = .ok ())
    (hmem : (role, resource) ∈ plan.resources.ordered) :
    resource.publication.mapping = resource.mapping := by
  simp only [QueueLifecycleState.validatePlanShape, seq_eq_ok, forM_eq_ok, failIf_eq_ok] at hshape
  obtain ⟨-, -, -, hbindings, -⟩ := hshape
  have hbinding := hbindings _ hmem
  simp only [QueueLifecycleState.foreignBinding, Bool.or_eq_false_iff,
    bne_eq_false_iff_eq] at hbinding
  exact hbinding.1.2

theorem Secure.inPlace (h : system.Secure) (hmem : record ∈ system.queues.queues.records)
    (hretains : record.phase.retainsResources = true)
    (hresource : (role, resource) ∈ record.plan.resources.ordered) :
    InPlace system.memory record.plan.queue resource := by
  have hkey : resource.publication ∈ record.plan.resources.publications :=
    mem_map_of_mem hresource
  have hholding := h.custody record hmem hretains _ hkey
  have hmapping := publication_mapping (h.queues.shapes record hmem) hresource
  obtain ⟨⟨mapping, hfound, hmapped⟩, allocation, hallocation, hlive⟩ :=
    hholding.mapped h.memory.lawful
  obtain ⟨publication, hpublication, howner, hstate⟩ := hholding
  rw [hmapping] at hfound hallocation
  refine ⟨⟨mapping, ?_, hmapped⟩, ⟨allocation, ?_, hlive⟩, publication, ?_, hstate, howner⟩
  · rw [MemoryLifecycleState.mapping, okOr_eq_ok, h.memory.coherent.mappings.get_eq]
    exact hfound
  · rw [MemoryLifecycleState.allocation, okOr_eq_ok, h.memory.coherent.allocations.get_eq]
    exact hallocation
  · rw [MemoryLifecycleState.publication, okOr_eq_ok, h.memory.coherent.publications.get_eq]
    exact hpublication

/-- Two queues share neither an allocation nor a native identifier. -/
structure Separate (left right : ComputeAqlQueueRecord) : Prop where
  allocations : ∀ first ∈ left.plan.resources.ordered, ∀ second ∈ right.plan.resources.ordered,
    first.2.mapping.allocation ≠ second.2.mapping.allocation
  queueIds : ∀ id, left.queueId = some id → right.queueId ≠ some id

theorem Secure.separate (h : system.Secure) :
    system.queues.queues.records.Pairwise fun left right =>
      left.phase.retainsResources = true → right.phase.retainsResources = true →
        Separate left right := by
  apply h.queues.beside.imp_of_mem
  intro left right hleft hright hbeside hretains hretains'
  constructor
  · intro first hfirst second hsecond heq
    have hshares := hbeside.unaliased hretains hretains'
    simp only [ComputeAqlQueueResources.sharesMappingWith, any_eq_false] at hshares
    apply hshares first hfirst
    rw [any_eq_true]
    exact ⟨second, hsecond, by simp [heq]⟩
  · intro id hid hid'
    have hfree := hbeside.distinctIds id
      (QueueLifecycleState.reserves_of_queueId (h.queues.phases left hleft) hretains hid)
    have hreserves :=
      QueueLifecycleState.reserves_of_queueId (h.queues.phases right hright) hretains' hid'
    nomatch hfree.symm.trans hreserves

theorem start_secure (queueDomain memoryDomain : IdentityDigest)
    (discipline : MemoryIdentityDiscipline) :
    (QueueSystem.mk (.new queueDomain) (.empty memoryDomain discipline)).Secure :=
  ⟨QueueLifecycleState.new_sound queueDomain,
    MemoryLifecycleState.empty_valid memoryDomain discipline, fun _ hmem => (nomatch hmem)⟩

/-- Calls on the memory and on the queues, in any order and with any arguments, keep the internal
    invariants of the queues; a queue that may exist has its resources in place and shares none
    of them, and at most one queue is being created. -/
theorem queue_memory_custody_kept (queueDomain memoryDomain : IdentityDigest)
    (discipline : MemoryIdentityDiscipline) (calls : List QueueSystemCall) :
    ∃ last, (QueueSystem.mk (.new queueDomain) (.empty memoryDomain discipline)).run calls =
        some last ∧
      last.queues.validateInternalInvariants = .ok () ∧
      (∀ record ∈ last.queues.queues.records, record.phase.retainsResources = true →
        ∀ role resource, (role, resource) ∈ record.plan.resources.ordered →
          InPlace last.memory record.plan.queue resource) ∧
      (last.queues.queues.records.Pairwise fun left right =>
        left.phase.retainsResources = true → right.phase.retainsResources = true →
          Separate left right) ∧
      last.queues.queues.records.Pairwise fun left right =>
        left.phase = .createPending → right.phase ≠ .createPending := by
  obtain ⟨last, hrun, hsecure⟩ := (start_secure queueDomain memoryDomain discipline).run calls
  refine ⟨last, hrun, hsecure.queues.validateInternalInvariants, ?_, hsecure.separate,
    hsecure.queues.beside.imp fun hbeside => hbeside.oneCreating⟩
  intro record hmem hretains role resource hresource
  exact hsecure.inPlace hmem hretains hresource

end QueueSystem

/-! ### Final phases -/

/-- A phase that no edge of the history leaves. -/
def ComputeAqlQueuePhase.IsFinal (phase : ComputeAqlQueuePhase) : Prop :=
  phase = .cancelledBeforeCreate ∨ phase = .destroyed ∨ phase = .ambiguous

theorem after_eq_of_isFinal {entry : QueueHistoryEntry} (hedge : historyEdgeIsValid entry = true)
    (hfinal : entry.before.IsFinal) : entry.after = entry.before := by
  rcases entry with ⟨sequence, queue, event, before, after, queueId, configuration⟩
  rcases hfinal with rfl | rfl | rfl <;> unfold historyEdgeIsValid at hedge <;> split at hedge <;>
    simp_all [ComputeAqlQueuePhase.retainsResources]

namespace QueueLifecycleState

variable {earlier rest : List QueueHistoryEntry} {queue : QueueKey} {last entry : QueueHistoryEntry}

/-- What follows in a valid history keeps a final phase. -/
theorem lastEntry_of_isFinal (h : checkRows validateHistoryEntry earlier rest = .ok ())
    (hlast : lastEntry earlier queue = some last) (hfinal : last.after.IsFinal) :
    ∃ later, lastEntry (earlier ++ rest) queue = some later ∧ later.after = last.after := by
  induction rest generalizing earlier last with
  | nil => exact ⟨last, by rwa [append_nil], rfl⟩
  | cons entry rest ih =>
    rw [checkRows, seq_eq_ok, validateHistoryEntry, seq_eq_ok, failIf_eq_ok, failIf_eq_ok] at h
    rcases h with ⟨⟨hentry, hlinked⟩, hrest⟩
    rw [append_cons]
    by_cases hqueue : entry.queue = queue
    · -- the entry goes on from the last one, and no edge leaves its phase
      rw [hqueue, hlast] at hlinked
      have hbefore : last.after = entry.before := by simp_all [linked]
      have hafter := after_eq_of_isFinal (by simp_all) (hbefore ▸ hfinal)
      rcases ih hrest (by rw [lastEntry_append, if_pos hqueue]) (hafter ▸ hbefore ▸ hfinal) with
        ⟨later, hlater, hsame⟩
      exact ⟨later, hlater, hsame.trans (hafter.trans hbefore.symm)⟩
    · exact ih hrest (by rw [lastEntry_append, if_neg hqueue, hlast]) hfinal

theorem lastEntry_of_mem (h : checkRows validateHistoryEntry earlier rest = .ok ())
    (hmem : entry ∈ rest) (hfinal : entry.after.IsFinal) :
    ∃ later, lastEntry (earlier ++ rest) entry.queue = some later ∧ later.after = entry.after := by
  induction rest generalizing earlier with
  | nil => simp at hmem
  | cons first rest ih =>
    rw [checkRows, seq_eq_ok] at h
    rw [append_cons]
    rcases mem_cons.mp hmem with rfl | hmem
    · exact lastEntry_of_isFinal h.2 (by rw [lastEntry_append, if_pos rfl]) hfinal
    · exact ih h.2 hmem

end QueueLifecycleState

/-- In every reachable state, a queue whose history shows it cancelled, destroyed or ambiguous
    is in that phase, and all resources of a queue that was ever ambiguous are in place. -/
theorem QueueSystem.final_phases_kept (queueDomain memoryDomain : IdentityDigest)
    (discipline : MemoryIdentityDiscipline) (calls : List QueueSystemCall) :
    ∃ last, (QueueSystem.mk (.new queueDomain) (.empty memoryDomain discipline)).run calls =
        some last ∧
      ∀ entry ∈ last.queues.history, entry.after.IsFinal →
        ∃ record ∈ last.queues.queues.records, record.plan.queue = entry.queue ∧
          record.phase = entry.after ∧
          (entry.after = .ambiguous → ∀ role resource,
            (role, resource) ∈ record.plan.resources.ordered →
              InPlace last.memory entry.queue resource) := by
  rcases (start_secure queueDomain memoryDomain discipline).run calls with ⟨last, hrun, hsecure⟩
  refine ⟨last, hrun, ?_⟩
  intro entry hmem hfinal
  rcases hsecure.queues.traced.known entry hmem with ⟨record, hrecord, hqueue⟩
  rcases hsecure.queues.traced.current record hrecord with ⟨current, hcurrent, hphase, _⟩
  rcases QueueLifecycleState.lastEntry_of_mem hsecure.queues.traced.entries hmem hfinal with
    ⟨later, hlater, hsame⟩
  rw [nil_append, ← hqueue, hcurrent] at hlater
  cases hlater
  have hrecordPhase : record.phase = entry.after := hphase.symm.trans hsame
  refine ⟨record, hrecord, hqueue, hrecordPhase, ?_⟩
  intro hambiguous role resource hresource
  rw [← hqueue]
  refine hsecure.inPlace hrecord ?_ hresource
  rw [hrecordPhase, hambiguous]
  rfl

end Fe2o3.QueueLifecycle
