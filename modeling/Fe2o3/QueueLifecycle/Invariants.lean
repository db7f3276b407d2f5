import Fe2o3.QueueLifecycle.State

/-!
# The internal invariants of the queue lifecycle are inductive

`Sound` states them without the order of the checks.  `Advances` says what a transition
can do to the status of a queue; that the records and the history stay sound follows
from it alone, once for all transitions.
-/

namespace Fe2o3.QueueLifecycle

open Lib
open List hiding lookup
open MemoryLifecycle
open RuntimeModel (QueueKey IdentityDigest)

/-! ### Two records -/

/-- What is asked of a record and a later one. -/
structure Beside (earlier later : ComputeAqlQueueRecord) : Prop where
  distinct : earlier.plan.queue ≠ later.plan.queue
  superseded : earlier.plan.queue.vm = later.plan.queue.vm →
    earlier.plan.queue.id = later.plan.queue.id →
    earlier.plan.queue.generation < later.plan.queue.generation ∧
      earlier.phase.retainsResources = false
  unaliased : earlier.phase.retainsResources = true → later.phase.retainsResources = true →
    earlier.plan.resources.sharesMappingWith later.plan.resources = false
  oneCreating : earlier.phase = .createPending → later.phase ≠ .createPending
  distinctIds : ∀ id, earlier.reservesKnownQueueId id = true →
    later.reservesKnownQueueId id = false

/-! ### Histories -/

variable {history : List QueueHistoryEntry} {entry : QueueHistoryEntry}

variable {queue : QueueKey}

namespace QueueLifecycleState

theorem lastEntry_append :
    lastEntry (history ++ [entry]) queue =
      if entry.queue = queue then some entry else lastEntry history queue := by
  unfold lastEntry
  rw [filter_append]
  split
  · next heq =>
    rw [filter_cons_of_pos (by simpa using heq), filter_nil, getLast?_concat]
  · next hne =>
    rw [filter_cons_of_neg (by simpa using hne), filter_nil, append_nil]

theorem lastEntry_eq_none (h : ∀ entry ∈ history, entry.queue ≠ queue) :
    lastEntry history queue = none := by
  unfold lastEntry
  rw [getLast?_eq_none_iff, filter_eq_nil_iff]
  intro entry hmem
  simpa using h entry hmem

end QueueLifecycleState

/-- An entry reports the status of a queue. -/
def Reports (status : QueueStatus) (entry : QueueHistoryEntry) : Prop :=
  entry.after = status.phase ∧ entry.queueId = status.queueId ∧
    entry.configuration = status.configuration

/-- The history is well formed, is about the queues that are there, and ends with the status of
    each. -/
structure Traced (records : List ComputeAqlQueueRecord) (history : List QueueHistoryEntry) :
    Prop where
  entries : checkRows QueueLifecycleState.validateHistoryEntry [] history = .ok ()
  current : ∀ record ∈ records, ∃ last,
    QueueLifecycleState.lastEntry history record.plan.queue = some last ∧
      Reports record.toQueueStatus last
  known : ∀ entry ∈ history, ∃ record ∈ records, record.plan.queue = entry.queue

/-- One more entry, which reports the new status of its queue; the other records are old ones. -/
theorem Traced.extend {records next : List ComputeAqlQueueRecord} (h : Traced records history)
    (hentry : QueueLifecycleState.validateHistoryEntry history entry = .ok ())
    (hnew : ∀ record ∈ next, record.plan.queue = entry.queue → Reports record.toQueueStatus entry)
    (hold : ∀ record ∈ next, record.plan.queue ≠ entry.queue → record ∈ records)
    (hkept : ∀ record ∈ records, ∃ later ∈ next, later.plan.queue = record.plan.queue)
    (hknown : ∃ record ∈ next, record.plan.queue = entry.queue) :
    Traced next (history ++ [entry]) where
  entries := checkRows_append h.entries hentry
  current := by
    intro record hmem
    rw [QueueLifecycleState.lastEntry_append]
    split
    · next heq => exact ⟨entry, rfl, hnew record hmem heq.symm⟩
    · next hne => exact h.current record (hold record hmem fun heq => hne heq.symm)
  known := by
    refine forall_mem_append_new (fun old hmem => ?_) ?_
    · obtain ⟨record, hrecord, hqueue⟩ := h.known old hmem
      obtain ⟨later, hlater, hsame⟩ := hkept record hrecord
      exact ⟨later, hlater, hsame.trans hqueue⟩
    · exact hknown

/-! ### Sound states -/

structure QueueLifecycleState.Sound (state : QueueLifecycleState) : Prop where
  coherent : state.queues.Coherent
  queueBound : state.queues.records.length ≤ maxComputeAqlQueues
  historyBound : state.history.length ≤ maxQueueHistoryEntries
  shapes : ∀ record ∈ state.queues.records,
    validatePlanShape state.domainId record.plan = .ok ()
  phases : ∀ record ∈ state.queues.records, validPhase record.toQueueStatus = true
  beside : state.queues.records.Pairwise Beside
  traced : Traced state.queues.records state.history

variable {earlier : List ComputeAqlQueueRecord} {id : Nat} {old : ComputeAqlQueueRecord}
  {identity : DeviceIdentityState} {memory : MemoryLifecycleState} {plan : ComputeAqlQueuePlan}

namespace QueueLifecycleState

variable {state : QueueLifecycleState}

theorem Sound.distinctKeys (h : state.Sound) :
    DistinctKeys ComputeAqlQueueRecord.key state.queues.records :=
  h.beside.imp fun hbeside => hbeside.distinct

variable {record : ComputeAqlQueueRecord}

theorem collides_eq_false (h : ∀ other ∈ earlier, Beside other record) :
    collides earlier record = false := by
  unfold collides
  split
  · next queueId hid =>
    rw [Bool.and_eq_false_imp]
    intro hreserving
    rw [any_eq_false]
    intro other hother hreserves
    have hfalse := (h other hother).distinctIds queueId hreserves
    have htrue : record.reservesKnownQueueId queueId = true := by
      unfold QueueStatus.reservesKnownQueueId
      rw [hreserving, hid]
      exact beq_self_eq_true _
    nomatch hfalse.symm.trans htrue
  · rfl

theorem validateQueue_eq_ok (hshape : validatePlanShape state.domainId record.plan = .ok ())
    (hphase : validPhase record.toQueueStatus = true)
    (hbeside : ∀ other ∈ earlier, Beside other record) :
    state.validateQueue earlier record = .ok () := by
  simp only [validateQueue, seq_eq_ok, failIf_eq_ok, forM_eq_ok]
  refine ⟨hshape, ?_, ?_, by rw [hphase]; rfl, ?_, ?_, collides_eq_false hbeside⟩
  · rw [any_eq_false]
    intro other hother hsame
    exact (hbeside other hother).distinct (beq_iff_eq.mp hsame)
  · intro older holder
    rw [Bool.and_eq_false_imp, Bool.and_eq_true, beq_iff_eq, beq_iff_eq]
    rintro ⟨hvm, hid⟩
    obtain ⟨hlt, hretains⟩ := (hbeside older holder).superseded hvm hid
    rw [hretains, Bool.or_false]
    exact decide_eq_false (Nat.not_le.mpr hlt)
  · rw [Bool.and_eq_false_imp]
    intro hretains
    rw [any_eq_false]
    intro other hother halias
    rw [Bool.and_eq_true] at halias
    cases ((hbeside other hother).unaliased halias.1 hretains).symm.trans halias.2
  · rw [Bool.and_eq_false_imp]
    intro hcreating
    rw [any_eq_false]
    intro other hother hother'
    exact (hbeside other hother).oneCreating (beq_iff_eq.mp hother') (beq_iff_eq.mp hcreating)

theorem Sound.validateHistory (h : state.Sound) : state.validateHistory = .ok () := by
  simp only [QueueLifecycleState.validateHistory, seq_eq_ok, forM_eq_ok]
  refine ⟨h.traced.entries, fun record hmem => ?_⟩
  obtain ⟨last, hlast, hphase, hid, hconfiguration⟩ := h.traced.current record hmem
  rw [bind_eq_ok]
  refine ⟨last, okOr_eq_ok.mpr hlast, ?_⟩
  rw [failIf_eq_ok, hphase, hid, hconfiguration]
  simp

/-- The checks of the source pass on a sound state. -/
theorem Sound.validateInternalInvariants (h : state.Sound) :
    state.validateInternalInvariants = .ok () := by
  simp only [QueueLifecycleState.validateInternalInvariants, seq_eq_ok, failIf_eq_ok]
  refine ⟨decide_eq_false (Nat.not_lt.mpr h.queueBound),
    decide_eq_false (Nat.not_lt.mpr h.historyBound), ?_, h.validateHistory⟩
  apply checkRows_ok (P := fun record => validatePlanShape state.domainId record.plan = .ok () ∧
    validPhase record.toQueueStatus = true)
  · intro earlier record hrecord hbeside
    exact validateQueue_eq_ok hrecord.1 hrecord.2 hbeside
  · intro record hmem
    exact ⟨h.shapes record hmem, h.phases record hmem⟩
  · exact h.beside

theorem new_sound (domainId : IdentityDigest) : (new domainId).Sound where
  coherent := IndexedJournal.new_coherent
  queueBound := Nat.zero_le _
  historyBound := Nat.zero_le _
  shapes := fun _ hmem => (nomatch hmem)
  phases := fun _ hmem => (nomatch hmem)
  beside := .nil
  traced := ⟨rfl, fun _ hmem => (nomatch hmem), fun _ hmem => (nomatch hmem)⟩

/-! ### What a transition does to a status -/

structure Advances (state : QueueLifecycleState) (key : QueueKey) (before after : QueueStatus)
    (event : QueueHistoryEventKind) : Prop where
  retained : before.phase.retainsResources = true
  phase : validPhase after = true
  edge : ∀ sequence queueId configuration, historyEdgeIsValid
    ⟨sequence, key, event, before.phase, after.phase, queueId, configuration⟩ = true
  proper : event ≠ .planAdmitted
  creating : after.phase = .createPending → state.unresolvedOther key = false
  reserving : ∀ id, after.reservesKnownQueueId id = true →
    before.reservesKnownQueueId id = true ∨ state.collision key (some id) = false

theorem requireQueuePhase_eq_ok {key : QueueKey} {before : QueueStatus}
    {allowed : List ComputeAqlQueuePhase} {u : Unit} :
    requireQueuePhase key before allowed = .ok u ↔ before.phase ∈ allowed := by
  unfold requireQueuePhase
  rw [failIf_eq_ok, Bool.not_eq_false', contains_iff_mem]

variable {key : QueueKey} {before after : QueueStatus} {event : QueueHistoryEventKind}

/-- A queue that may exist reserves the native identifier that it has. -/
theorem reserves_of_queueId (hvalid : validPhase before = true)
    (hretained : before.phase.retainsResources = true) (hid : before.queueId = some id) :
    before.reservesKnownQueueId id = true := by
  obtain ⟨phase, queueId, configuration, pending, resume⟩ := before
  obtain rfl : queueId = some id := hid
  unfold QueueStatus.reservesKnownQueueId
  cases phase <;> simp_all [validPhase, ComputeAqlQueuePhase.hasExclusiveNativeQueueId,
    ComputeAqlQueuePhase.retainsResources]

section

variable (hvalid : validPhase before = true)
include hvalid

/-- A transition that keeps the native identifier and does not begin a creation. -/
theorem advances_of_queueId_eq
    (hretained : before.phase.retainsResources = true) (hid : after.queueId = before.queueId)
    (hphase : validPhase after = true := by simp_all [validPhase])
    (hedge : ∀ sequence queueId configuration, historyEdgeIsValid
      ⟨sequence, key, event, before.phase, after.phase, queueId, configuration⟩ = true := by
        intros; rfl)
    (hproper : event ≠ .planAdmitted := by simp)
    (hcreating : after.phase ≠ .createPending := by simp) :
    Advances state key before after event where
  retained := hretained
  phase := hphase
  edge := hedge
  proper := hproper
  creating := fun h => absurd h hcreating
  reserving := by
    intro id hreserves
    left
    apply reserves_of_queueId hvalid hretained
    rw [← hid]
    unfold QueueStatus.reservesKnownQueueId at hreserves
    exact beq_iff_eq.mp (Bool.and_eq_true_iff.mp hreserves).2

theorem observeCreate_advances
    (hbefore : before.phase = .createPending) (observation : QueueCreateObservation) :
    Advances state key before (state.observeCreate key before observation).1
      (state.observeCreate key before observation).2 := by
  obtain ⟨phase, queueId, configuration, pending, resume⟩ := before
  obtain rfl : phase = .createPending := hbefore
  unfold observeCreate
  dsimp only
  split
  · next hcreated =>
    obtain ⟨-, hsome, hcollision, -⟩ := hcreated
    refine ⟨rfl, ?_, fun _ _ _ => rfl, nofun, nofun,
      fun id hreserves => ?_⟩
    · simp_all [validPhase]
    · right
      rw [← hcollision]
      simp only [QueueStatus.reservesKnownQueueId, Bool.and_eq_true, beq_iff_eq] at hreserves
      rw [hreserves.2]
  · split
    · exact advances_of_queueId_eq hvalid rfl rfl (by simpa [validPhase] using hvalid)
    · refine ⟨rfl, rfl, fun _ _ _ => rfl, nofun, nofun,
        fun id hreserves => ?_⟩
      right
      simp only [QueueStatus.reservesKnownQueueId, Bool.and_eq_true, beq_iff_eq] at hreserves
      obtain ⟨-, hid⟩ := hreserves
      split at hid
      · nomatch hid
      · next hclear =>
        rw [Bool.or_eq_true, not_or, Bool.not_eq_true] at hclear
        rw [← hid]
        exact hclear.1

/-- A call that failed without effect takes a valid queue back to where it came from. -/
theorem resumed_cases {resumed : ComputeAqlQueuePhase} (hresume : before.resumePhase = some resumed)
    (hpending : before.phase = .updatePending ∨ before.phase = .destroyPending) :
    resumed = .active ∨ resumed = .disabled := by
  rcases hpending with hphase | hphase <;> simp_all [validPhase]

end

/-- What every transition that is accepted does. -/
theorem advance_advances {transition : QueueTransition} (hvalid : validPhase before = true)
    (h : state.advance before transition = .ok (after, event)) :
    Advances state transition.queue before after event := by
  obtain ⟨phase, queueId, configuration, pending, resume⟩ := before
  cases transition with
  | cancelPlan queue | beginDisable queue =>
    simp only [advance, seq_eq_ok, requireQueuePhase_eq_ok, mem_singleton, pure_eq_ok,
      Prod.mk.injEq] at h
    obtain ⟨rfl, rfl, rfl⟩ := h
    exact advances_of_queueId_eq hvalid rfl rfl
  | beginCreate queue =>
    simp only [advance, seq_eq_ok, requireQueuePhase_eq_ok, mem_singleton, failIf_eq_ok, pure_eq_ok,
      Prod.mk.injEq] at h
    obtain ⟨rfl, hclear, rfl, rfl⟩ := h
    refine ⟨rfl, hvalid, fun _ _ _ => rfl, by simp, fun _ => hclear, fun id hreserves => ?_⟩
    cases hreserves
  | observeCreate queue observation =>
    simp only [advance, seq_eq_ok, requireQueuePhase_eq_ok, mem_singleton, pure_eq_ok] at h
    obtain ⟨rfl, hobserved⟩ := h
    have hadvances : Advances state queue _ _ _ := observeCreate_advances hvalid rfl observation
    rw [hobserved] at hadvances
    exact hadvances
  | beginUpdate queue configuration =>
    simp only [advance, seq_eq_ok, requireQueuePhase_eq_ok, mem_pair, failIf_eq_ok, pure_eq_ok,
      Prod.mk.injEq] at h
    obtain ⟨rfl | rfl, hconfiguration, rfl, rfl⟩ := h
    · exact advances_of_queueId_eq hvalid rfl rfl
    · exact advances_of_queueId_eq hvalid rfl rfl
  | beginDestroy queue =>
    simp only [advance, seq_eq_ok, requireQueuePhase_eq_ok, mem_pair, pure_eq_ok,
      Prod.mk.injEq] at h
    obtain ⟨rfl | rfl, rfl, rfl⟩ := h
    · exact advances_of_queueId_eq hvalid rfl rfl
    · exact advances_of_queueId_eq hvalid rfl rfl
  | observeDisable queue status =>
    cases status with
    | succeeded | failedNoEffect | indeterminate =>
      simp only [advance, seq_eq_ok, requireQueuePhase_eq_ok, mem_singleton, pure_eq_ok,
        Prod.mk.injEq] at h
      obtain ⟨rfl, rfl, rfl⟩ := h
      exact advances_of_queueId_eq hvalid rfl rfl
  | observeUpdate queue status | observeDestroy queue status =>
    cases status with
    | succeeded | indeterminate =>
      simp only [advance, requireQueuePhase_eq_ok, mem_singleton, bind_eq_ok, pure_eq_ok,
        Prod.mk.injEq] at h
      first
      | obtain ⟨_, rfl, rfl, rfl⟩ := h
        exact advances_of_queueId_eq hvalid rfl rfl
      | obtain ⟨_, rfl, next, -, rfl, rfl⟩ := h
        exact advances_of_queueId_eq hvalid rfl rfl
    | failedNoEffect =>
      simp only [advance, requireQueuePhase_eq_ok, mem_singleton, bind_eq_ok,
        okOr_eq_ok, pure_eq_ok, Prod.mk.injEq] at h
      obtain ⟨_, rfl, resumed, hresume, rfl, rfl⟩ := h
      obtain rfl | rfl := resumed_cases hvalid hresume (by simp)
      · exact advances_of_queueId_eq hvalid rfl rfl
      · exact advances_of_queueId_eq hvalid rfl rfl
  | observeCurrentnessLost queue =>
    simp only [advance, seq_eq_ok, failIf_eq_ok, Bool.not_eq_false', pure_eq_ok, Prod.mk.injEq] at h
    obtain ⟨hretained, rfl, rfl⟩ := h
    exact advances_of_queueId_eq hvalid hretained rfl rfl fun _ _ _ => hretained

/-! ### Histories that grow -/

/-- The entry about a queue that comes to a status. -/
def entryFor (state : QueueLifecycleState) (key : QueueKey) (event : QueueHistoryEventKind)
    (before : ComputeAqlQueuePhase) (after : QueueStatus) : QueueHistoryEntry :=
  ⟨state.history.length + 1, key, event, before, after.phase, after.queueId, after.configuration⟩

/-- The queues are replaced and the history has one more entry. -/
def recorded (state : QueueLifecycleState) (queues : IndexedJournal ComputeAqlQueueRecord.key)
    (entry : QueueHistoryEntry) : QueueLifecycleState :=
  { state with queues := queues, history := state.history ++ [entry] }

theorem validateHistoryEntry_eq_ok (hsequence : entry.sequence = history.length + 1)
    (hedge : historyEdgeIsValid entry = true)
    (hlinked : linked entry (lastEntry history entry.queue) = true) :
    validateHistoryEntry history entry = .ok () := by
  simp only [validateHistoryEntry, seq_eq_ok, failIf_eq_ok, hsequence, hedge, hlinked]
  simp

variable {queues : IndexedJournal ComputeAqlQueueRecord.key}

theorem unresolvedOther_eq_false (h : state.unresolvedOther key = false)
    (hmem : record ∈ state.queues.records) (hkey : record.plan.queue ≠ key)
    (hvalid : validPhase record.toQueueStatus = true) : record.phase ≠ .createPending := by
  intro hcreating
  unfold unresolvedOther at h
  rw [any_eq_false] at h
  apply h record hmem
  have hnone : record.queueId = none := by
    unfold validPhase at hvalid
    rw [hcreating] at hvalid
    simpa using (Bool.and_eq_true_iff.mp (Bool.and_eq_true_iff.mp hvalid).1).1
  simp [hkey, QueueStatus.hasUnresolvedPossiblyNativeIdentity, hcreating, hnone]

theorem collision_eq_false (h : state.collision key (some id) = false)
    (hmem : record ∈ state.queues.records) (hkey : record.plan.queue ≠ key) :
    record.reservesKnownQueueId id = false := by
  unfold collision at h
  rw [any_eq_false] at h
  simpa [hkey] using h record hmem

section

variable (h : state.Sound)
include h

/-- The records are those of before except for one, which the new entry reports. -/
theorem Sound.recorded (new : ComputeAqlQueueRecord)
    (hcoherent : queues.Coherent) (hbound : queues.records.length ≤ maxComputeAqlQueues)
    (hroom : state.history.length < maxQueueHistoryEntries) (hmem : new ∈ queues.records)
    (hrecords : ∀ record ∈ queues.records, record ∈ state.queues.records ∧
      record.plan.queue ≠ new.plan.queue ∨ record = new)
    (hkept : ∀ record ∈ state.queues.records, record.plan.queue ≠ new.plan.queue →
      record ∈ queues.records)
    (hshape : validatePlanShape state.domainId new.plan = .ok ())
    (hphase : validPhase new.toQueueStatus = true) (hbeside : queues.records.Pairwise Beside)
    (hentry : validateHistoryEntry state.history entry = .ok ())
    (hqueue : entry.queue = new.plan.queue) (hreports : Reports new.toQueueStatus entry) :
    (state.recorded queues entry).Sound := by
  refine ⟨hcoherent, hbound, length_append_le hroom, ?_, ?_, hbeside, ?_⟩
  · intro record hrecord
    obtain ⟨hold, -⟩ | rfl := hrecords record hrecord
    · exact h.shapes record hold
    · exact hshape
  · intro record hrecord
    obtain ⟨hold, -⟩ | rfl := hrecords record hrecord
    · exact h.phases record hold
    · exact hphase
  · refine h.traced.extend hentry ?_ ?_ ?_ ⟨new, hmem, hqueue.symm⟩
    · intro record hrecord hsame
      obtain ⟨-, hne⟩ | rfl := hrecords record hrecord
      · exact absurd (hsame.trans hqueue) hne
      · exact hreports
    · intro record hrecord hne
      obtain ⟨hold, -⟩ | rfl := hrecords record hrecord
      · exact hold
      · exact absurd hqueue.symm hne
    · intro record hrecord
      by_cases hsame : record.plan.queue = new.plan.queue
      · exact ⟨new, hmem, hsame.symm⟩
      · exact ⟨record, hkept record hrecord hsame, rfl⟩

/-! ### Transitions keep a state sound -/

/-- The relation of the advanced record to another one, on either side. -/
theorem Sound.beside_advanced {other : ComputeAqlQueueRecord}
    (hadvances : Advances state old.plan.queue old.toQueueStatus after event)
    (hother : other ∈ state.queues.records) : (Beside old other → Beside (old.become after) other) ∧
      (Beside other old → Beside other (old.become after)) := by
  constructor
  · intro hbeside
    have hkey : other.plan.queue ≠ old.plan.queue := fun heq => hbeside.distinct heq.symm
    refine ⟨hbeside.distinct, fun hvm hid => ?_, fun _ => hbeside.unaliased hadvances.retained,
      fun hcreating => ?_, fun id hreserves => ?_⟩
    · -- a record with a later generation does not retain anything
      nomatch (hbeside.superseded hvm hid).2.symm.trans hadvances.retained
    · exact unresolvedOther_eq_false (hadvances.creating hcreating) hother hkey
        (h.phases other hother)
    · obtain hbefore | hclear := hadvances.reserving id hreserves
      · exact hbeside.distinctIds id hbefore
      · exact collision_eq_false hclear hother hkey
  · intro hbeside
    refine ⟨hbeside.distinct, hbeside.superseded,
      fun hretains _ => hbeside.unaliased hretains hadvances.retained, fun hother' hcreating => ?_,
      fun id hreserves => ?_⟩
    · exact unresolvedOther_eq_false (hadvances.creating hcreating) hother hbeside.distinct
        (h.phases other hother) hother'
    · cases hafter : (old.become after).reservesKnownQueueId id with
      | false => rfl
      | true =>
        obtain hbefore | hclear := hadvances.reserving id hafter
        · exact absurd (hbeside.distinctIds id hreserves) (by rw [hbefore]; decide)
        · exact absurd (collision_eq_false hclear hother hbeside.distinct)
            (by rw [hreserves]; decide)

/-- A queue that advances. -/
theorem Sound.advance
    (hfound : lookup ComputeAqlQueueRecord.key key state.queues.records = some old)
    (hadvances : Advances state key old.toQueueStatus after event)
    (hroom : state.history.length < maxQueueHistoryEntries) (hcoherent : queues.Coherent)
    (hrecords : queues.records = amend ComputeAqlQueueRecord.key key (.become after)
      state.queues.records) :
    (state.recorded queues (state.entryFor key event old.phase after)).Sound := by
  have hkey : old.key = key := lookup_key hfound
  change old.plan.queue = key at hkey
  refine h.recorded (old.become after) hcoherent ?_ hroom ?_ ?_ ?_
    (h.shapes old (lookup_mem hfound)) hadvances.phase ?_ ?_ hkey.symm ⟨rfl, rfl, rfl⟩
  · rw [hrecords, length_amend]
    exact h.queueBound
  · rw [hrecords]
    exact lookup_mem (lookup_amend_self (fun _ => rfl) hfound)
  · intro record hmem
    rw [hrecords] at hmem
    obtain ⟨hmem, hne⟩ | ⟨other, hother, rfl⟩ := mem_amend h.distinctKeys hmem
    · exact .inl ⟨hmem, fun hsame => hne (hsame.trans hkey)⟩
    · cases hfound.symm.trans hother
      exact .inr rfl
  · intro record hrecord hne
    have hne' : record.key ≠ key := fun hsame => hne (hsame.trans hkey.symm)
    have hlookup := lookup_of_mem h.distinctKeys hrecord
    rw [← lookup_amend_of_ne (f := ComputeAqlQueueRecord.become after) (fun _ => rfl) hne',
      ← hrecords] at hlookup
    exact lookup_mem hlookup
  · rw [hrecords]
    rw [← hkey] at hadvances
    apply pairwise_amend_of_mem h.beside
    · intro other later hother hlater
      cases hfound.symm.trans hother
      exact (h.beside_advanced hadvances hlater).1
    · intro other earlier hother hearlier
      cases hfound.symm.trans hother
      exact (h.beside_advanced hadvances hearlier).2
  · obtain ⟨last, hlast, hphase, -⟩ := h.traced.current old (lookup_mem hfound)
    rw [hkey] at hlast
    refine validateHistoryEntry_eq_ok rfl (hadvances.edge _ _ _) ?_
    show linked _ (lastEntry state.history key) = true
    rw [hlast]
    simp [linked, entryFor, hadvances.proper, hphase]

/-! ### Admission keeps a state sound -/

/-- The newest generation of a queue bounds the others, and only it can retain resources. -/
theorem Sound.newest {newest : ComputeAqlQueueRecord} (hnewest : state.newest key = some newest)
    (hmem : record ∈ state.generations key) :
    record.plan.queue.generation ≤ newest.plan.queue.generation ∧
      (newest.phase.retainsResources = false → record.phase.retainsResources = false) := by
  have hnewest' : newest ∈ state.generations key :=
    mem_reverse.mp (argmax_mem hnewest)
  have hle : record.plan.queue.generation ≤ newest.plan.queue.generation :=
    le_of_mem_argmax (f := fun record : ComputeAqlQueueRecord => record.plan.queue.generation)
      (mem_reverse.mpr hmem) hnewest
  refine ⟨hle, fun hreleased => ?_⟩
  simp only [generations, mem_filter, Bool.and_eq_true, beq_iff_eq] at hmem hnewest'
  obtain ⟨hmem, hvm, hid⟩ := hmem
  obtain ⟨hnewest', hvm', hid'⟩ := hnewest'
  obtain rfl | hbeside | hbeside := pairwise_cases h.beside hmem hnewest'
  · exact hreleased
  · exact (hbeside.superseded (hvm.trans hvm'.symm) (hid.trans hid'.symm)).2
  · have hlt := (hbeside.superseded (hvm'.trans hvm.symm) (hid'.trans hid.symm)).1
    exact absurd hle (Nat.not_le.mpr hlt)

/-- What a plan that is accepted is to the records that are there. -/
theorem Sound.beside_planned (haccepted : state.validateNewPlan identity memory plan = .ok ())
    (hmem : record ∈ state.queues.records) : Beside record (.planned plan) := by
  simp only [validateNewPlan, seq_eq_ok, failIf_eq_ok, any_eq_false] at haccepted
  obtain ⟨-, hfresh, halias, hstale, -⟩ := haccepted
  refine ⟨fun heq => hfresh record hmem (beq_iff_eq.mpr heq), fun hvm hid => ?_,
    fun hretains _ => ?_, ?_, fun _ _ => rfl⟩
  · have hgeneration : record ∈ state.generations plan.queue := by
      simp only [generations, mem_filter, Bool.and_eq_true, beq_iff_eq]
      exact ⟨hmem, hvm, hid⟩
    unfold staleGeneration at hstale
    cases hnewest : state.newest plan.queue with
    | none =>
      have hempty := argmax_eq_none.mp hnewest
      rw [reverse_eq_nil_iff.mp hempty] at hgeneration
      cases hgeneration
    | some newest =>
      rw [hnewest] at hstale
      simp only [Bool.or_eq_false_iff, bne_eq_false_iff_eq] at hstale
      obtain ⟨hle, hretains⟩ := h.newest hnewest hgeneration
      refine ⟨?_, hretains hstale.1⟩
      show record.plan.queue.generation < plan.queue.generation
      omega
  · have hnot := halias record hmem
    rw [Bool.and_eq_true, not_and, Bool.not_eq_true] at hnot
    exact hnot hretains
  · intro _ hpending
    cases hpending

/-- A plan that is admitted. -/
theorem Sound.admits (haccepted : state.validateNewPlan identity memory plan = .ok ())
    (hqueues : state.queues.records.length < maxComputeAqlQueues)
    (hroom : state.history.length < maxQueueHistoryEntries) (hcoherent : queues.Coherent)
    (hrecords : queues.records = state.queues.records ++ [.planned plan]) :
    (state.recorded queues (state.entryFor plan.queue .planAdmitted .planned
      (ComputeAqlQueueRecord.planned plan).toQueueStatus)).Sound := by
  have hbeside : ∀ record ∈ state.queues.records, Beside record (.planned plan) :=
    fun record hmem => h.beside_planned haccepted hmem
  have hshape : validatePlanShape state.domainId plan = .ok () := by
    simp only [validateNewPlan, seq_eq_ok] at haccepted
    exact haccepted.1
  refine h.recorded (.planned plan) hcoherent ?_ hroom ?_ ?_ ?_ hshape rfl ?_ ?_ rfl
    ⟨rfl, rfl, rfl⟩
  · rw [hrecords]
    exact length_append_le hqueues
  · rw [hrecords]
    exact mem_append_right _ (mem_singleton_self _)
  · intro record hmem
    rw [hrecords, mem_append, mem_singleton] at hmem
    exact hmem.imp_left fun hold => ⟨hold, (hbeside record hold).distinct⟩
  · intro record hrecord _
    rw [hrecords]
    exact mem_append_left _ hrecord
  · rw [hrecords]
    exact pairwise_append_new h.beside hbeside
  · refine validateHistoryEntry_eq_ok rfl rfl ?_
    have hnone : lastEntry state.history plan.queue = none := by
      apply lastEntry_eq_none
      intro entry hentry hqueue
      obtain ⟨record, hrecord, hsame⟩ := h.traced.known entry hentry
      exact (hbeside record hrecord).distinct (hsame.trans hqueue)
    show linked _ (lastEntry state.history plan.queue) = true
    rw [hnone]
    rfl

end

end QueueLifecycleState

end Fe2o3.QueueLifecycle
