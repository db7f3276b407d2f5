import Fe2o3.Aql.Ring

/-!
**Publication of a dispatch behind its dependencies**
(`fe2o3-aql/src/dependency_dispatch.rs`): a roster of signals is packed into five-wide
barrier packets followed by one kernel dispatch, a range of the ring is reserved for all
of them, and a target is driven through the publication.

The target is an environment: it answers each call from a state of its own, and any
answer may be an error.  The calls are recorded together with their answers, so that
what the target has seen can be compared with the order in which a publication must
happen.
-/

namespace Fe2o3.Aql

open Lib Command AqlSingleProducerRingModel

def amdSignalAlignment : UInt64 := 64
def aqlInvalidPacketHeader : UInt16 := 1
def aqlSystemScopedKernelDispatchHeader : UInt16 := 0x1402
def aqlSystemScopedWaitForPriorKernelDispatchHeader : UInt16 := 0x1502
def aqlSystemScopedBarrierAndHeader : UInt16 := 0x1403
def aqlMaxDependencySignals : Nat := 256
def aqlBarrierAndFanIn : Nat := 5

/-! ### Packets -/

inductive AqlDispatchOrdering where
  | independent
  | waitForPrior
  deriving DecidableEq

def AqlDispatchOrdering.header : AqlDispatchOrdering → UInt16
  | independent => aqlSystemScopedKernelDispatchHeader
  | waitForPrior => aqlSystemScopedWaitForPriorKernelDispatchHeader

structure AqlKernelDispatchPacket where
  fullHeader : UInt32
  workgroupSizeX : UInt16
  workgroupSizeY : UInt16
  workgroupSizeZ : UInt16
  reserved0 : UInt16
  gridSizeX : UInt32
  gridSizeY : UInt32
  gridSizeZ : UInt32
  privateSegmentSize : UInt32
  groupSegmentSize : UInt32
  kernelObject : UInt64
  kernargAddress : UInt64
  reserved2 : UInt64
  completionSignal : UInt64
  deriving DecidableEq

structure AqlPreparedKernelDispatch where
  packet : AqlKernelDispatchPacket
  ordering : AqlDispatchOrdering
  deriving DecidableEq

inductive AqlAddressObservationError where
  | zero
  | misaligned
  deriving DecidableEq

/-- The number of a dependency signal: not zero, and aligned. -/
structure AqlDependencySignalObservation where
  raw : UInt64
  nonzero : raw ≠ 0
  aligned : raw &&& (amdSignalAlignment - 1) = 0
  deriving DecidableEq

/-- The alignment asked for is a power of two below 4096, so it is never refused itself. -/
def AqlDependencySignalObservation.new (raw : UInt64) :
    Except AqlAddressObservationError AqlDependencySignalObservation :=
  if hzero : raw = 0 then .error .zero
  else if haligned : raw &&& (amdSignalAlignment - 1) = 0 then .ok ⟨raw, hzero, haligned⟩
  else .error .misaligned

structure AqlDependencyBarrierPacket where
  fullHeader : UInt32
  reserved1 : UInt32
  dependencySignals : Vector UInt64 aqlBarrierAndFanIn
  reserved2 : UInt64
  completionSignal : UInt64
  deriving DecidableEq

/-- An unpublished packet for at most five signals. -/
def AqlDependencyBarrierPacket.fromSignals (signals : List AqlDependencySignalObservation) :
    AqlDependencyBarrierPacket where
  fullHeader := aqlInvalidPacketHeader.toUInt32
  reserved1 := 0
  dependencySignals := Vector.ofFn fun i => (signals[i.val]?.map fun signal => signal.raw).getD 0
  reserved2 := 0
  completionSignal := 0

open List
open AqlDependencyBarrierPacket (fromSignals)

/-- `slice::chunks`: consecutive pieces, the last one possibly shorter. -/
def chunks {α : Type} (size : Nat) (xs : List α) : List (List α) :=
  (List.range ((xs.length + size - 1) / size)).map fun i => (xs.drop (i * size)).take size

/-! ### Plans -/

inductive AqlDependencyDispatchPlanError where
  | tooManyDependencies (requested maximum : Nat)
  | duplicateDependencySignal (firstIndex duplicateIndex : Nat)
  | allocation
  deriving DecidableEq

/-- A refused preparation gives the dispatch back. -/
structure AqlDependencyDispatchPlanFailure where
  error : AqlDependencyDispatchPlanError
  finalDispatch : AqlPreparedKernelDispatch
  deriving DecidableEq

structure AqlPreparedDependencyDispatch where
  dependencyCount : UInt16
  barriers : List AqlDependencyBarrierPacket
  finalDispatch : AqlPreparedKernelDispatch
  deriving DecidableEq

/-- The first signal that occurs before: where, and its own index. -/
def firstDuplicate (dependencies : List AqlDependencySignalObservation) : Option (Nat × Nat) :=
  dependencies.zipIdx.findSome? fun (duplicate, duplicateIndex) =>
    ((dependencies.take duplicateIndex).findIdx? fun candidate => candidate == duplicate).map
      fun firstIndex => (firstIndex, duplicateIndex)

namespace AqlPreparedDependencyDispatch

/-- Whether memory for the plan is granted is up to the environment. -/
def new (allocates : Bool) (dependencies : List AqlDependencySignalObservation)
    (finalDispatch : AqlPreparedKernelDispatch) :
    Except AqlDependencyDispatchPlanFailure AqlPreparedDependencyDispatch :=
  if aqlMaxDependencySignals < dependencies.length then
    .error ⟨.tooManyDependencies dependencies.length aqlMaxDependencySignals, finalDispatch⟩
  else
    match firstDuplicate dependencies with
    | some (firstIndex, duplicateIndex) =>
      .error ⟨.duplicateDependencySignal firstIndex duplicateIndex, finalDispatch⟩
    | none =>
      if !allocates then .error ⟨.allocation, finalDispatch⟩
      else .ok {
        dependencyCount := UInt16.ofNat dependencies.length
        barriers := (chunks aqlBarrierAndFanIn dependencies).map
          fromSignals
        finalDispatch := { finalDispatch with
          ordering := if dependencies.isEmpty then .independent else .waitForPrior } }

def barrierCount (prepared : AqlPreparedDependencyDispatch) : UInt32 :=
  UInt32.ofNat prepared.barriers.length

def packetCount (prepared : AqlPreparedDependencyDispatch) : UInt32 :=
  prepared.barrierCount + 1

end AqlPreparedDependencyDispatch

def AqlRingBatchReservation.lastPacketId (batch : AqlRingBatchReservation) : UInt64 :=
  batch.nextWrite - 1

/-! ### Publication -/

inductive AqlDependencyDispatchPublicationBoundary where
  | claimWriteIndex
  | barrierBody (barrierIndex : UInt32)
  | finalDispatchBody
  | barrierHeader (barrierIndex : UInt32)
  | finalDispatchHeader
  | doorbell
  deriving DecidableEq

structure AqlTerminalDependencyDispatchCustody where
  prepared : AqlPreparedDependencyDispatch
  reservation : AqlRingBatchReservation
  deriving DecidableEq

inductive AqlDependencyDispatchPublicationFailure (ε : Type) where
  | retryableBeforeSideEffect (error : AqlRingReservationError)
      (prepared : AqlPreparedDependencyDispatch)
  | rejectedBeforeSideEffect (error : AqlRingReservationError)
      (prepared : AqlPreparedDependencyDispatch)
  | terminalAmbiguous (error : ε) (boundary : AqlDependencyDispatchPublicationBoundary)
      (custody : AqlTerminalDependencyDispatchCustody)
  deriving DecidableEq

structure AqlDependencyDispatchPublication where
  dependencyCount : UInt16
  barrierCount : UInt16
  firstPacketId : UInt64
  lastPacketId : UInt64
  packetCount : UInt32
  deriving DecidableEq

/-- A call of one of the target's methods, with its arguments. -/
inductive Callback where
  | claimWriteIndexAcqRel (firstPacketId : UInt64) (packetCount : UInt32)
  | writeUnpublishedBarrier (entry : AqlRingBatchReservationEntry)
      (packet : AqlDependencyBarrierPacket)
  | writeUnpublishedDispatch (entry : AqlRingBatchReservationEntry)
      (packet : AqlKernelDispatchPacket)
  | publishBarrierReleaseHeader (entry : AqlRingBatchReservationEntry) (header : UInt16)
  | publishDispatchReleaseHeader (entry : AqlRingBatchReservationEntry) (header : UInt16)
  | ringDoorbellRelease (packetId : UInt64)
  deriving DecidableEq

/-- The ring, the target's own state, and the calls made so far with whether they succeeded. -/
structure Publishing (σ : Type) where
  ring : AqlSingleProducerRingModel
  target : σ
  calls : List (Callback × Bool)

variable {dependencies : List AqlDependencySignalObservation} {i size : Nat} {α : Type}

section

variable {σ ε : Type}

namespace AqlPreparedDependencyDispatch

variable (prepared : AqlPreparedDependencyDispatch)

/-- Only a lack of room can be retried. -/
def reservationFailure :
    AqlRingReservationError → AqlDependencyDispatchPublicationFailure ε
  | .full => .retryableBeforeSideEffect .full prepared
  | .insufficientSpace requested available =>
    .retryableBeforeSideEffect (.insufficientSpace requested available) prepared
  | error => .rejectedBeforeSideEffect error prepared

def reserve (observedRead : UInt64) :
    Command (Publishing σ) (AqlDependencyDispatchPublicationFailure ε) AqlRingBatchReservation :=
  fun s =>
    match reserveFixedBatchV2 observedRead prepared.packetCount s.ring with
    | .done reservation ring => .done reservation { s with ring }
    | .failed error ring => .failed (prepared.reservationFailure error) { s with ring }
    | .panicked => .panicked

/-- One call of the target; an error is final. -/
def invoke (answer : Callback → σ → Except ε Unit × σ) (reservation : AqlRingBatchReservation)
    (boundary : AqlDependencyDispatchPublicationBoundary) (call : Callback) :
    Command (Publishing σ) (AqlDependencyDispatchPublicationFailure ε) Unit := fun s =>
  match answer call s.target with
  | (.ok _, target) => .done () { s with target, calls := s.calls ++ [(call, true)] }
  | (.error error, target) =>
    .failed (.terminalAmbiguous error boundary ⟨prepared, reservation⟩)
      { s with target, calls := s.calls ++ [(call, false)] }

def publishWith (answer : Callback → σ → Except ε Unit × σ) (observedRead : UInt64) :
    Command (Publishing σ) (AqlDependencyDispatchPublicationFailure ε)
      AqlDependencyDispatchPublication := do
  let reservation ← prepared.reserve observedRead
  let call := prepared.invoke answer reservation
  call .claimWriteIndex
    (.claimWriteIndexAcqRel reservation.firstPacketId reservation.packetCount)
  prepared.barriers.zipIdx.forM fun barrier => do
    let entry ← expect (reservation.entry (UInt32.ofNat barrier.2))
    call (.barrierBody (UInt32.ofNat barrier.2)) (.writeUnpublishedBarrier entry barrier.1)
  let finalEntry ← expect (reservation.entry prepared.barrierCount)
  call .finalDispatchBody (.writeUnpublishedDispatch finalEntry prepared.finalDispatch.packet)
  (List.range prepared.barrierCount.toNat).forM fun barrierIndex => do
    let entry ← expect (reservation.entry (UInt32.ofNat barrierIndex))
    call (.barrierHeader (UInt32.ofNat barrierIndex))
      (.publishBarrierReleaseHeader entry aqlSystemScopedBarrierAndHeader)
  call .finalDispatchHeader
    (.publishDispatchReleaseHeader finalEntry prepared.finalDispatch.ordering.header)
  call .doorbell (.ringDoorbellRelease reservation.lastPacketId)
  return {
    dependencyCount := prepared.dependencyCount
    barrierCount := prepared.barrierCount.toUInt16
    firstPacketId := reservation.firstPacketId
    lastPacketId := reservation.lastPacketId
    packetCount := reservation.packetCount }

end AqlPreparedDependencyDispatch

/-! ### The order of a publication -/

/-- The `i`-th packet id from `first` on, and its slot. -/
def slotEntry (capacity : AqlRingCapacity) (first : UInt64) (i : Nat) :
    AqlRingBatchReservationEntry :=
  ⟨first + UInt64.ofNat i, UInt32.ofNat ((first.toNat + i) % capacity.packets.toNat)⟩

/-- The calls of a publication in their order, each under the name it fails by. -/
def publicationSequence (prepared : AqlPreparedDependencyDispatch) (capacity : AqlRingCapacity)
    (first : UInt64) : List (AqlDependencyDispatchPublicationBoundary × Callback) :=
  (.claimWriteIndex,
      .claimWriteIndexAcqRel first (UInt32.ofNat (prepared.barriers.length + 1))) ::
    (prepared.barriers.zipIdx.map (fun barrier =>
      (.barrierBody (UInt32.ofNat barrier.2),
        .writeUnpublishedBarrier (slotEntry capacity first barrier.2) barrier.1)) ++
    (.finalDispatchBody,
      .writeUnpublishedDispatch (slotEntry capacity first prepared.barriers.length)
        prepared.finalDispatch.packet) ::
    ((List.range prepared.barriers.length).map (fun barrierIndex =>
      (.barrierHeader (UInt32.ofNat barrierIndex),
        .publishBarrierReleaseHeader (slotEntry capacity first barrierIndex)
          aqlSystemScopedBarrierAndHeader)) ++
    [(.finalDispatchHeader,
        .publishDispatchReleaseHeader (slotEntry capacity first prepared.barriers.length)
          prepared.finalDispatch.ordering.header),
      (.doorbell, .ringDoorbellRelease (first + UInt64.ofNat prepared.barriers.length))]))

abbrev Script := List (AqlDependencyDispatchPublicationBoundary × Callback)

/-- A script was followed up to a rest, and all calls succeeded. -/
def Reached (ring : AqlSingleProducerRingModel) (script rest : Script) (s : Publishing σ) : Prop :=
  s.ring = ring ∧ ∃ before, script = before ++ rest ∧
    s.calls = before.map fun step => (step.2, true)

/-- A script was followed up to a call that failed, and the failure names that call. -/
def Interrupted (ring : AqlSingleProducerRingModel) (script : Script)
    (prepared : AqlPreparedDependencyDispatch) (reservation : AqlRingBatchReservation)
    (failure : AqlDependencyDispatchPublicationFailure ε) (s : Publishing σ) : Prop :=
  s.ring = ring ∧ ∃ before boundary call rest error,
    script = before ++ (boundary, call) :: rest ∧
    s.calls = before.map (fun step => (step.2, true)) ++ [(call, false)] ∧
    failure = .terminalAmbiguous error boundary ⟨prepared, reservation⟩

/-! ### Steps -/

section

variable {prepared : AqlPreparedDependencyDispatch} {answer : Callback → σ → Except ε Unit × σ}
  {reservation : AqlRingBatchReservation} {ring : AqlSingleProducerRingModel}
  {script rest : Script} {s : Publishing σ}

theorem meets_invoke {boundary : AqlDependencyDispatchPublicationBoundary} {call : Callback}
    (h : Reached ring script ((boundary, call) :: rest) s) :
    Meets (prepared.invoke answer reservation boundary call)
      (fun _ t => Reached ring script rest t)
      (Interrupted ring script prepared reservation) False s := by
  obtain ⟨hring, before, hscript, hcalls⟩ := h
  unfold Meets AqlPreparedDependencyDispatch.invoke
  cases hanswer : answer call s.target with
  | mk result target =>
    cases result with
    | ok =>
      refine ⟨hring, before ++ [(boundary, call)], ?_, ?_⟩
      · rw [hscript, append_assoc]
        rfl
      · rw [hcalls, map_append]
        rfl
    | error error =>
      refine ⟨hring, before, boundary, call, rest, error, hscript, ?_, rfl⟩
      rw [hcalls]

/-- A loop of calls, each for an entry that exists. -/
theorem meets_invokeAll {β : Type} {xs : List β} {index : β → Nat}
    {boundary : β → AqlDependencyDispatchPublicationBoundary}
    {call : β → AqlRingBatchReservationEntry → Callback}
    {entryAt : Nat → AqlRingBatchReservationEntry}
    (hentry : ∀ x ∈ xs, reservation.entry (UInt32.ofNat (index x)) = some (entryAt (index x)))
    (h : Reached ring script
      (xs.map (fun x => (boundary x, call x (entryAt (index x)))) ++ rest) s) :
    Meets (xs.forM fun x => do
        let entry ← expect (reservation.entry (UInt32.ofNat (index x)))
        prepared.invoke answer reservation (boundary x) (call x entry))
      (fun _ t => Reached ring script rest t)
      (Interrupted ring script prepared reservation) False s := by
  induction xs generalizing s with
  | nil => exact h
  | cons x xs ih =>
    refine Meets.bind ?_ fun _ t ht => ih (fun y hy => hentry y (mem_cons_of_mem x hy)) ht
    rw [meets_bind, hentry x mem_cons_self, meets_expect_some]
    exact meets_invoke h

end

/-! ### Entries -/

theorem toNat_ofNat32 (h : i < 2 ^ 32) : (UInt32.ofNat i).toNat = i :=
  UInt32.toNat_ofNat_of_lt' h

theorem toNat_ofNat64 (h : i < 2 ^ 32) : (UInt64.ofNat i).toNat = i :=
  UInt64.toNat_ofNat_of_lt' (Nat.lt_trans h (by decide))

theorem toUInt64_ofNat (h : i < 2 ^ 32) : (UInt32.ofNat i).toUInt64 = UInt64.ofNat i := by
  apply UInt64.toNat.inj
  rw [UInt32.toNat_toUInt64, toNat_ofNat32 h, toNat_ofNat64 h]

section

variable {ring next : AqlSingleProducerRingModel} {observedRead : UInt64} {packetCount : UInt32}
  {batch : AqlRingBatchReservation}

/-- The entries of an admitted batch are the slots of its consecutive ids. -/
theorem entry_eq_slotEntry (h : Admitted ring next observedRead packetCount batch)
    (hi : i < packetCount.toNat) :
    batch.entry (UInt32.ofNat i) = some (slotEntry ring.capacity ring.write i) := by
  have hcount := packetCount.toNat_lt
  have hwrite := h.write
  have hnext := next.write.toNat_lt
  have hsmall : (UInt32.ofNat i).toNat = i := toNat_ofNat32 (by omega)
  have hindex : (UInt64.ofNat i).toNat = i := toNat_ofNat64 (by omega)
  have hinside : ¬ packetCount ≤ UInt32.ofNat i := by
    rw [UInt32.le_iff_toNat_le, hsmall]
    omega
  have hid : ring.write.toNat + (UInt64.ofNat i).toNat < 2 ^ 64 := by omega
  have hslot : ((ring.write + UInt64.ofNat i) &&& ring.capacity.mask).toUInt32 =
      UInt32.ofNat ((ring.write.toNat + i) % ring.capacity.packets.toNat) := by
    apply UInt32.toNat.inj
    have hmod := Nat.mod_lt (ring.write.toNat + i) ring.capacity.packets_pos
    have hpackets := ring.capacity.packets.toNat_lt
    rw [AqlRingCapacity.slot_eq_mod, UInt64.toNat_add, Nat.mod_eq_of_lt hid, hindex,
      toNat_ofNat32 (by omega)]
  rw [h.result]
  show (if packetCount ≤ UInt32.ofNat i then none
    else (checkedAdd ring.write (UInt32.ofNat i).toUInt64).map fun packetId =>
      (⟨packetId, (packetId &&& ring.capacity.mask).toUInt32⟩ : AqlRingBatchReservationEntry)) = _
  rw [if_neg hinside, toUInt64_ofNat (by omega), checkedAdd_of_lt hid, Option.map_some, hslot]
  rfl

theorem lastPacketId_eq (h : Admitted ring next observedRead packetCount batch) {n : Nat}
    (hn : packetCount.toNat = n + 1) : batch.lastPacketId = ring.write + UInt64.ofNat n := by
  have hcount := packetCount.toNat_lt
  have hwrite := h.write
  have hnext := next.write.toNat_lt
  have hindex : (UInt64.ofNat n).toNat = n := toNat_ofNat64 (by omega)
  have hone : (1 : UInt64) ≤ next.write := by
    show 1 ≤ next.write.toNat
    omega
  rw [h.result]
  apply UInt64.toNat.inj
  show (next.write - 1).toNat = _
  rw [UInt64.toNat_sub_of_le _ _ hone, UInt64.toNat_add, hindex, Nat.mod_eq_of_lt (by omega)]
  show next.write.toNat - 1 = _
  omega

end

/-! ### The packets of a plan -/

theorem chunks_nil (h : 0 < size) : chunks size ([] : List α) = [] := by
  have hcount : (([] : List α).length + size - 1) / size = 0 := by
    rw [length_nil, Nat.zero_add]
    exact Nat.div_eq_of_lt (by omega)
  rw [chunks, hcount]
  rfl

theorem chunks_of_ne_nil {xs : List α} (h : 0 < size) (hxs : xs ≠ []) :
    chunks size xs = xs.take size :: chunks size (xs.drop size) := by
  have hpos := length_pos_iff.mpr hxs
  have hcount : (xs.length + size - 1) / size = ((xs.drop size).length + size - 1) / size + 1 := by
    rw [length_drop]
    obtain hlt | hle := Nat.lt_or_ge xs.length size
    · rw [Nat.sub_eq_zero_of_le (Nat.le_of_lt hlt), Nat.zero_add,
        Nat.div_eq_of_lt (Nat.sub_lt h Nat.one_pos)]
      exact Nat.div_eq_of_lt_le (by omega) (by omega)
    · rw [← Nat.add_div_right _ h]
      congr 1
      omega
  rw [chunks, hcount, range_succ_eq_map, map_cons, map_map, Nat.zero_mul,
    drop_zero]
  congr 1
  apply map_congr_left
  intro i _
  show (xs.drop ((i + 1) * size)).take size = ((xs.drop size).drop (i * size)).take size
  rw [drop_drop, Nat.succ_mul, Nat.add_comm]

theorem length_chunks (size : Nat) (xs : List α) :
    (chunks size xs).length = (xs.length + size - 1) / size := by
  rw [chunks, length_map, length_range]

/-- A packet carries its signals in their order, and zeros. -/
theorem fromSignals_slots {signals : List AqlDependencySignalObservation}
    (h : signals.length ≤ aqlBarrierAndFanIn) :
    (fromSignals signals).dependencySignals.toList =
      signals.map (fun signal => signal.raw) ++
        List.replicate (aqlBarrierAndFanIn - signals.length) 0 := by
  apply ext_getElem
  · rw [Vector.length_toList, length_append, length_map, length_replicate]
    omega
  · intro i hi _
    have hslot : (fromSignals signals).dependencySignals.toList[i] =
        (signals[i]?.map fun signal => signal.raw).getD 0 := by
      simp [fromSignals]
    refine hslot.trans ?_
    obtain hlt | hle := Nat.lt_or_ge i signals.length
    · rw [getElem_append_left (by rwa [length_map]), getElem_map,
        getElem?_eq_getElem hlt]
      rfl
    · rw [getElem_append_right (by rwa [length_map]), getElem_replicate,
        getElem?_eq_none hle]
      rfl

/-- The packets of a roster together carry the roster, followed by zeros. -/
theorem barriers_slots (dependencies : List AqlDependencySignalObservation) :
    ((chunks aqlBarrierAndFanIn dependencies).map fromSignals).flatMap
        (fun barrier => barrier.dependencySignals.toList) =
      dependencies.map (fun signal => signal.raw) ++
        List.replicate (aqlBarrierAndFanIn * (chunks aqlBarrierAndFanIn dependencies).length -
          dependencies.length) 0 := by
  -- Induction on the roster, five signals at a time.
  induction hn : dependencies.length using Nat.strongRecOn generalizing dependencies with
  | ind n ih =>
    subst hn
    by_cases hnil : dependencies = []
    · subst hnil
      rfl
    · have hpos := length_pos_iff.mpr hnil
      rw [chunks_of_ne_nil (by decide) hnil, map_cons, flatMap_cons, length_cons,
        fromSignals_slots (by rw [length_take]; exact Nat.min_le_left _ _),
        ih (dependencies.drop aqlBarrierAndFanIn).length
          (by rw [length_drop, aqlBarrierAndFanIn]; omega) _ rfl,
        length_take, length_drop]
      obtain hlt | hle := Nat.lt_or_ge dependencies.length aqlBarrierAndFanIn
      · rw [Nat.min_eq_right (Nat.le_of_lt hlt), take_of_length_le (Nat.le_of_lt hlt),
          drop_of_length_le (Nat.le_of_lt hlt), chunks_nil (by decide)]
        simp [aqlBarrierAndFanIn]
      · rw [Nat.min_eq_left hle, Nat.sub_self, replicate_zero, append_nil,
          ← append_assoc, ← map_append, take_append_drop]
        congr 2
        rw [Nat.mul_succ]
        omega

theorem firstDuplicate_eq_none (h : dependencies.Nodup) : firstDuplicate dependencies = none := by
  rw [firstDuplicate, findSome?_eq_none_iff]
  rintro ⟨duplicate, j⟩ hmem
  have hj := mk_mem_zipIdx_iff_getElem?.mp hmem
  obtain ⟨hlt, rfl⟩ := List.getElem?_eq_some_iff.mp hj
  rw [Option.map_eq_none_iff, findIdx?_eq_none_iff]
  intro candidate hcandidate
  obtain ⟨i, hi, rfl⟩ := mem_take_iff_getElem.mp hcandidate
  rw [beq_eq_false_iff_ne]
  intro heq
  have hij := (List.Nodup.getElem_inj_iff h).mp heq
  omega

/-! ### Whole publications -/

variable {prepared : AqlPreparedDependencyDispatch} {ring : AqlSingleProducerRingModel}
  {observedRead : UInt64} {target : σ}

/-- A refusal that comes before the first call gives the plan back. -/
def Refused (prepared : AqlPreparedDependencyDispatch)
    (failure : AqlDependencyDispatchPublicationFailure ε) : Prop :=
  ∃ error, failure = .retryableBeforeSideEffect error prepared ∨
    failure = .rejectedBeforeSideEffect error prepared

/-- The whole sequence was performed, on the range of the ring that was reserved for it. -/
def Published (prepared : AqlPreparedDependencyDispatch) (ring : AqlSingleProducerRingModel)
    (observedRead : UInt64) (after : Publishing σ) : Prop :=
  (∃ reservation, Admitted ring after.ring observedRead prepared.packetCount reservation) ∧
    after.calls = (publicationSequence prepared ring.capacity ring.write).map
      fun step => (step.2, true)

/-- Nothing happened, or the sequence was begun and stopped at a call that failed. -/
def Abandoned (prepared : AqlPreparedDependencyDispatch) (observedRead : UInt64)
    (start : Publishing σ) (failure : AqlDependencyDispatchPublicationFailure ε)
    (after : Publishing σ) : Prop :=
  after = start ∧ Refused prepared failure ∨
    ∃ reservation,
      Admitted start.ring after.ring observedRead prepared.packetCount reservation ∧
      Interrupted after.ring (publicationSequence prepared start.ring.capacity start.ring.write)
        prepared reservation failure after

theorem refused_reservationFailure (error : AqlRingReservationError) :
    Refused prepared
      (prepared.reservationFailure error : AqlDependencyDispatchPublicationFailure ε) := by
  refine ⟨error, ?_⟩
  cases error
  case full => exact .inl rfl
  case insufficientSpace => exact .inl rfl
  all_goals exact .inr rfl

theorem meets_reserve :
    Meets (prepared.reserve observedRead)
      (fun reservation (t : Publishing σ) => t.calls = [] ∧
        Admitted ring t.ring observedRead prepared.packetCount reservation)
      (fun (failure : AqlDependencyDispatchPublicationFailure ε) t =>
        t = ⟨ring, target, []⟩ ∧ Refused prepared failure) False ⟨ring, target, []⟩ := by
  have hring : Meets (reserveFixedBatchV2 observedRead prepared.packetCount)
      (fun batch next => Admitted ring next observedRead prepared.packetCount batch)
      (fun _ next => next = ring) False ring := meets_reserveBatchWithMaximum _ _ _
  unfold Meets AqlPreparedDependencyDispatch.reserve
  obtain ⟨reservation, next, hrun, hadmitted⟩ | ⟨error, next, hrun, rfl⟩ | ⟨-, hpanic⟩ :=
    hring.outcomes
  · simp only [hrun]
    exact ⟨trivial, hadmitted⟩
  · simp only [hrun]
    exact ⟨trivial, refused_reservationFailure error⟩
  · exact hpanic.elim

/-- The whole publication of a plan whose packets can be counted: refused before the first call,
    or carried out in the order of its sequence up to its end or to the first failing call. -/
theorem meets_publishWith (hcount : prepared.barriers.length + 1 < 2 ^ 32)
    (answer : Callback → σ → Except ε Unit × σ) :
    Meets (prepared.publishWith answer observedRead)
      (fun _ after => Published prepared ring observedRead after)
      (Abandoned prepared observedRead ⟨ring, target, []⟩) False ⟨ring, target, []⟩ := by
  have hbarriers : prepared.barrierCount.toNat = prepared.barriers.length :=
    toNat_ofNat32 (by omega)
  have hpackets : prepared.packetCount.toNat = prepared.barriers.length + 1 := by
    unfold AqlPreparedDependencyDispatch.packetCount
    rw [UInt32.toNat_add, hbarriers]
    exact Nat.mod_eq_of_lt hcount
  refine meets_reserve.bind ?_ fun _ _ h => .inl h
  rintro reservation s ⟨hcalls, hadmitted⟩
  have hentry : ∀ i < prepared.barriers.length + 1, reservation.entry (UInt32.ofNat i) =
      some (slotEntry ring.capacity ring.write i) := by
    intro i hi
    exact entry_eq_slotEntry hadmitted (hpackets ▸ hi)
  have hfirst : reservation.firstPacketId = ring.write := by rw [hadmitted.result]
  have hclaimed : reservation.packetCount = UInt32.ofNat (prepared.barriers.length + 1) := by
    rw [hadmitted.result]
    apply UInt32.toNat.inj
    rw [toNat_ofNat32 hcount]
    exact hpackets
  have hlast := lastPacketId_eq hadmitted hpackets
  -- From here on the ring stays as it is, and every step takes one call off the sequence.
  generalize hnext : s.ring = next at hadmitted
  suffices h : Meets _ (fun _ after => Reached next
      (publicationSequence prepared ring.capacity ring.write) [] after)
      (Interrupted next (publicationSequence prepared ring.capacity ring.write) prepared
        reservation) False s by
    refine h.mono ?_ (fun _ t ht => .inr ⟨reservation, ht.1 ▸ hadmitted, ht.1 ▸ ht⟩) fun h => h
    rintro _ t ⟨hring, before, hscript, hcalls⟩
    rw [append_nil] at hscript
    exact ⟨⟨reservation, hring ▸ hadmitted⟩, hscript ▸ hcalls⟩
  have hstart : Reached next (publicationSequence prepared ring.capacity ring.write)
      (publicationSequence prepared ring.capacity ring.write) s := ⟨hnext, [], rfl, hcalls⟩
  rw [hfirst, hclaimed, hlast, hbarriers]
  refine (meets_invoke hstart).bind fun _ s hs => ?_
  refine (meets_invokeAll (fun barrier hmem => hentry _ ?_) hs).bind fun _ s hs => ?_
  · exact Nat.lt_succ_of_lt (snd_lt_of_mem_zipIdx hmem)
  rw [meets_bind, AqlPreparedDependencyDispatch.barrierCount, hentry _ (Nat.lt_succ_self _),
    meets_expect_some]
  refine (meets_invoke hs).bind fun _ s hs => ?_
  refine (meets_invokeAll (fun i hmem => hentry i ?_) hs).bind fun _ s hs => ?_
  · exact Nat.lt_succ_of_lt (mem_range.mp hmem)
  refine (meets_invoke hs).bind fun _ s hs => ?_
  exact (meets_invoke hs).bind fun _ s hs => hs

/-- A roster of at most 256 distinct signals is published in one fixed order or not at all: its
    barriers carry every signal once, followed by zeros, the dispatch waits for them, and the
    target sees a beginning of the sequence that ends with the call the failure names.  All
    calls were made and succeeded exactly if the publication succeeds. -/
theorem dependency_dispatch_publication {dependencies : List AqlDependencySignalObservation}
    (hlength : dependencies.length ≤ aqlMaxDependencySignals) (hdistinct : dependencies.Nodup)
    (finalDispatch : AqlPreparedKernelDispatch) (ring : AqlSingleProducerRingModel)
    (observedRead : UInt64) (answer : Callback → σ → Except ε Unit × σ) (target : σ) :
    ∃ prepared, AqlPreparedDependencyDispatch.new true dependencies finalDispatch = .ok prepared ∧
      prepared.finalDispatch.packet = finalDispatch.packet ∧
      (prepared.finalDispatch.ordering.header = aqlSystemScopedWaitForPriorKernelDispatchHeader ↔
        dependencies ≠ []) ∧
      prepared.barriers.length = (dependencies.length + 4) / 5 ∧
      prepared.barriers.flatMap (fun barrier => barrier.dependencySignals.toList) =
        dependencies.map (fun signal => signal.raw) ++
          List.replicate (5 * prepared.barriers.length - dependencies.length) 0 ∧
      Meets (prepared.publishWith answer observedRead)
        (fun _ after => Published prepared ring observedRead after)
        (Abandoned prepared observedRead ⟨ring, target, []⟩) False ⟨ring, target, []⟩ := by
  have hsize : dependencies.length ≤ 256 := hlength
  have hbarriers : ((chunks aqlBarrierAndFanIn dependencies).map
      AqlDependencyBarrierPacket.fromSignals).length = (dependencies.length + 4) / 5 := by
    rw [length_map, length_chunks]
    rfl
  rw [AqlPreparedDependencyDispatch.new, if_neg (Nat.not_lt.mpr hlength),
    firstDuplicate_eq_none hdistinct]
  refine ⟨_, if_neg (by decide), rfl, ?_, hbarriers, ?_, meets_publishWith ?_ answer⟩
  · cases dependencies with
    | nil =>
      have hheaders : aqlSystemScopedKernelDispatchHeader ≠
          aqlSystemScopedWaitForPriorKernelDispatchHeader := by decide
      exact ⟨fun h => absurd h hheaders, fun h => absurd rfl h⟩
    | cons signal rest => exact ⟨nofun, fun _ => rfl⟩
  · rw [barriers_slots, length_map]
    rfl
  · rw [hbarriers]
    omega

end

/-! ### Two publications -/

def sampleDispatch : AqlPreparedKernelDispatch :=
  ⟨⟨1, 64, 1, 1, 0, 256, 1, 1, 0, 0, 4096, 8192, 0, 64⟩, .independent⟩

def sampleSignals : List AqlDependencySignalObservation :=
  [⟨64, by decide, by decide⟩, ⟨128, by decide, by decide⟩, ⟨192, by decide, by decide⟩,
    ⟨256, by decide, by decide⟩, ⟨320, by decide, by decide⟩, ⟨384, by decide, by decide⟩]

/-- Six signals need two barriers. -/
theorem dependency_dispatch_publication_of_six :
    sampleSignals.length ≤ aqlMaxDependencySignals ∧ sampleSignals.Nodup ∧
      ∃ prepared, AqlPreparedDependencyDispatch.new true sampleSignals sampleDispatch =
          .ok prepared ∧
        prepared.barriers.length = 2 ∧
        prepared.barriers.flatMap (fun barrier => barrier.dependencySignals.toList) =
          [64, 128, 192, 256, 320, 384, 0, 0, 0, 0] := by
  have hlength : sampleSignals.length ≤ aqlMaxDependencySignals := by decide
  have hdistinct : sampleSignals.Nodup := by decide
  obtain ⟨prepared, hnew, -, -, hbarriers, hslots, -⟩ :=
    dependency_dispatch_publication hlength hdistinct sampleDispatch smallestRing 58
      (fun _ target => ((.ok () : Except Unit Unit), target)) ()
  rw [hbarriers] at hslots
  exact ⟨hlength, hdistinct, prepared, hnew, hbarriers, hslots⟩

/-- A target that fails at the doorbell only. -/
def silentDoorbell : Callback → Unit → Except Unit Unit × Unit
  | .ringDoorbellRelease _, target => (.error (), target)
  | _, target => (.ok (), target)

/-- A doorbell that fails has been rung: every call of the sequence was made, and the
    publication is still an error. -/
theorem doorbell_failure_after_whole_sequence :
    ∃ prepared failure after,
      AqlPreparedDependencyDispatch.new true [] sampleDispatch = .ok prepared ∧
      prepared.publishWith silentDoorbell 58 ⟨smallestRing, (), []⟩ = .failed failure after ∧
      after.calls.map Prod.fst =
        (publicationSequence prepared smallestRing.capacity smallestRing.write).map Prod.snd := by
  refine ⟨⟨0, [], sampleDispatch⟩, _, _, rfl, rfl, ?_⟩
  decide +kernel

end Fe2o3.Aql
