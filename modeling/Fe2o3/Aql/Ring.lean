import Fe2o3.Lib.Command

/-!
**Reservations in an AQL ring** (`fe2o3-aql/src/lib.rs`): the capacity of a ring, the
single-producer model with its two 64-bit counters, single and batch reservations, and
the packet ids and slots that a batch names.

A call changes the model only at its end; an error leaves it as it was.  Counters
are `u64` and counts `u32`, with checked arithmetic as in the source.
-/

namespace Fe2o3.Aql

open Lib Command List

def aqlKernelDispatchPacketBytes : UInt32 := 64
def aqlMinRingBytes : UInt32 := 4096
def aqlMaxRingBytes : UInt32 := (1 : UInt32) <<< 31
def aqlMaxBatchPackets : UInt32 := 256
def aqlMaxFixedBatchPacketsV2 : UInt32 := 8192

/-- `u64::checked_sub`. -/
def checkedSub (left right : UInt64) : Option UInt64 :=
  if right ≤ left then some (left - right) else none

/-- `u64::checked_add`. -/
def checkedAdd (left right : UInt64) : Option UInt64 :=
  if left.toNat + right.toNat < 2 ^ 64 then some (left + right) else none

/-- `u32::is_power_of_two`. -/
def isPowerOfTwo (n : UInt32) : Bool :=
  (List.range 32).any fun k => n.toNat == 2 ^ k

/-! ### Capacities -/

inductive AqlRingCapacityError where
  | belowMinimum
  | aboveMaximum
  | notPowerOfTwo
  deriving DecidableEq

/-- The packets of a ring: a power of two. -/
structure AqlRingCapacity where
  packets : UInt32
  exponent : ∃ k, 6 ≤ k ∧ k ≤ 25 ∧ packets.toNat = 2 ^ k
  deriving DecidableEq

theorem packets_fit {ringBytes : UInt32} (hlow : ¬ ringBytes < aqlMinRingBytes)
    (hhigh : ¬ aqlMaxRingBytes < ringBytes) (hpower : isPowerOfTwo ringBytes = true) :
    ∃ k, 6 ≤ k ∧ k ≤ 25 ∧ (ringBytes / aqlKernelDispatchPacketBytes).toNat = 2 ^ k := by
  obtain ⟨k, -, hk⟩ := any_eq_true.mp hpower
  have hbytes : ringBytes.toNat = 2 ^ k := eq_of_beq hk
  have hmin : 2 ^ 12 ≤ 2 ^ k := by
    rw [← hbytes]
    exact Nat.not_lt.mp fun hlt => hlow (UInt32.lt_iff_toNat_lt.mpr hlt)
  have hmax : 2 ^ k ≤ 2 ^ 31 := by
    rw [← hbytes]
    exact Nat.not_lt.mp fun hlt => hhigh (UInt32.lt_iff_toNat_lt.mpr hlt)
  have hle : 12 ≤ k := (Nat.pow_le_pow_iff_right (by decide)).mp hmin
  have hge : k ≤ 31 := (Nat.pow_le_pow_iff_right (by decide)).mp hmax
  refine ⟨k - 6, by omega, by omega, ?_⟩
  rw [UInt32.toNat_div, hbytes]
  exact Nat.pow_div (show 6 ≤ k by omega) (show 0 < 2 by decide)

namespace AqlRingCapacity

def fromRingBytes (ringBytes : UInt32) : Except AqlRingCapacityError AqlRingCapacity :=
  if hlow : ringBytes < aqlMinRingBytes then .error .belowMinimum
  else if hhigh : aqlMaxRingBytes < ringBytes then .error .aboveMaximum
  else if hpower : isPowerOfTwo ringBytes = true then
    .ok ⟨ringBytes / aqlKernelDispatchPacketBytes, packets_fit hlow hhigh hpower⟩
  else .error .notPowerOfTwo

def mask (capacity : AqlRingCapacity) : UInt64 := capacity.packets.toUInt64 - 1

end AqlRingCapacity

/-! ### Reservations -/

inductive AqlRingReservationError where
  | zeroPacketCount
  | packetCountExceedsReviewedMaximum (requested maximum : UInt32)
  | packetCountExceedsRingCapacity (requested capacity : UInt32)
  | readAfterWrite
  | readRegressed
  | counterDistanceExceedsCapacity
  | full
  | insufficientSpace (requested available : UInt32)
  | writeCounterExhausted
  deriving DecidableEq

structure AqlRingReservation where
  packetId : UInt64
  slotIndex : UInt32
  observedRead : UInt64
  nextWrite : UInt64
  deriving DecidableEq

structure AqlRingBatchReservation where
  firstPacketId : UInt64
  packetCount : UInt32
  slotMask : UInt64
  observedRead : UInt64
  nextWrite : UInt64
  deriving DecidableEq

structure AqlRingBatchReservationEntry where
  packetId : UInt64
  slotIndex : UInt32
  deriving DecidableEq

/-- The iterator over the entries of a batch. -/
structure AqlRingBatchReservationEntries where
  firstPacketId : UInt64
  packetCount : UInt32
  slotMask : UInt64
  nextIndex : UInt32
  deriving DecidableEq

namespace AqlRingBatchReservation

def entry (batch : AqlRingBatchReservation) (batchIndex : UInt32) :
    Option AqlRingBatchReservationEntry :=
  if batch.packetCount ≤ batchIndex then none
  else
    (checkedAdd batch.firstPacketId batchIndex.toUInt64).map fun packetId =>
      ⟨packetId, (packetId &&& batch.slotMask).toUInt32⟩

def entries (batch : AqlRingBatchReservation) : AqlRingBatchReservationEntries :=
  ⟨batch.firstPacketId, batch.packetCount, batch.slotMask, 0⟩

end AqlRingBatchReservation

namespace AqlRingBatchReservationEntries

def next (entries : AqlRingBatchReservationEntries) :
    Option (AqlRingBatchReservationEntry × AqlRingBatchReservationEntries) :=
  if entries.packetCount ≤ entries.nextIndex then none
  else
    (checkedAdd entries.firstPacketId entries.nextIndex.toUInt64).map fun packetId =>
      (⟨packetId, (packetId &&& entries.slotMask).toUInt32⟩,
        { entries with nextIndex := entries.nextIndex + 1 })

/-- At most the given number of entries. -/
def take : Nat → AqlRingBatchReservationEntries → List AqlRingBatchReservationEntry
  | 0, _ => []
  | count + 1, entries =>
    match entries.next with
    | none => []
    | some (entry, rest) => entry :: rest.take count

end AqlRingBatchReservationEntries

structure AqlSingleProducerRingModel where
  capacity : AqlRingCapacity
  write : UInt64
  lastRead : UInt64
  deriving DecidableEq

namespace AqlSingleProducerRingModel

def new (capacity : AqlRingCapacity) (write read : UInt64) :
    Except AqlRingReservationError AqlSingleProducerRingModel := do
  let distance ← okOr .readAfterWrite (checkedSub write read)
  if capacity.packets.toUInt64 < distance then .error .counterDistanceExceedsCapacity
  else .ok ⟨capacity, write, read⟩

abbrev Action := Command AqlSingleProducerRingModel AqlRingReservationError

def reserveBatchWithMaximum (observedRead : UInt64) (packetCount maximum : UInt32) :
    Action AqlRingBatchReservation := do
  let ring ← read
  refuse (packetCount == 0) .zeroPacketCount
  refuse (decide (maximum < packetCount)) (.packetCountExceedsReviewedMaximum packetCount maximum)
  refuse (decide (ring.capacity.packets < packetCount))
    (.packetCountExceedsRingCapacity packetCount ring.capacity.packets)
  refuse (decide (observedRead < ring.lastRead)) .readRegressed
  let distance ← lift (okOr .readAfterWrite (checkedSub ring.write observedRead))
  let capacity := ring.capacity.packets.toUInt64
  refuse (decide (capacity < distance)) .counterDistanceExceedsCapacity
  refuse (distance == capacity) .full
  let available := capacity - distance
  refuse (decide (available < packetCount.toUInt64))
    (.insufficientSpace packetCount available.toUInt32)
  let nextWrite ← lift (okOr .writeCounterExhausted (checkedAdd ring.write packetCount.toUInt64))
  update fun ring => { ring with write := nextWrite }
  update fun ring => { ring with lastRead := observedRead }
  return ⟨ring.write, packetCount, ring.capacity.mask, observedRead, nextWrite⟩

def reserveBatch (observedRead : UInt64) (packetCount : UInt32) : Action AqlRingBatchReservation :=
  reserveBatchWithMaximum observedRead packetCount aqlMaxBatchPackets

def reserveFixedBatchV2 (observedRead : UInt64) (packetCount : UInt32) :
    Action AqlRingBatchReservation :=
  reserveBatchWithMaximum observedRead packetCount aqlMaxFixedBatchPacketsV2

def reserveOne (observedRead : UInt64) : Action AqlRingReservation := do
  let batch ← reserveBatch observedRead 1
  return ⟨batch.firstPacketId, (batch.firstPacketId &&& batch.slotMask).toUInt32,
    batch.observedRead, batch.nextWrite⟩

end AqlSingleProducerRingModel

/-! ### Runs -/

inductive Call where
  | reserveOne (observedRead : UInt64)
  | reserveBatch (observedRead : UInt64) (packetCount : UInt32)
  | reserveFixedBatchV2 (observedRead : UInt64) (packetCount : UInt32)
  deriving DecidableEq

/-- A packet id that was handed out, its slot, and the read counter observed then. -/
structure Issue where
  packetId : UInt64
  slotIndex : UInt32
  observedRead : UInt64
  deriving DecidableEq

/-- What a batch hands out, in the order of its iterator. -/
def AqlRingBatchReservation.issues (batch : AqlRingBatchReservation) : List Issue :=
  (batch.entries.take batch.packetCount.toNat).map fun entry =>
    ⟨entry.packetId, entry.slotIndex, batch.observedRead⟩

namespace AqlSingleProducerRingModel

def perform : Call → Action (List Issue)
  | .reserveOne observedRead =>
    (fun one => [⟨one.packetId, one.slotIndex, one.observedRead⟩]) <$> reserveOne observedRead
  | .reserveBatch observedRead packetCount =>
    AqlRingBatchReservation.issues <$> reserveBatch observedRead packetCount
  | .reserveFixedBatchV2 observedRead packetCount =>
    AqlRingBatchReservation.issues <$> reserveFixedBatchV2 observedRead packetCount

/-- The packets that a sequence of calls hands out, and the model after them. -/
def run (ring : AqlSingleProducerRingModel) : List Call → List Issue × AqlSingleProducerRingModel
  | [] => ([], ring)
  | call :: calls =>
    match perform call ring with
    | .done issues next => (issues ++ (next.run calls).1, (next.run calls).2)
    | .failed _ next => next.run calls
    | .panicked => ([], ring)

end AqlSingleProducerRingModel

/-! ### Slots -/

variable {left right : UInt64}

theorem checkedSub_eq_some {difference : UInt64} (h : checkedSub left right = some difference) :
    right.toNat ≤ left.toNat ∧ difference.toNat = left.toNat - right.toNat := by
  unfold checkedSub at h
  split at h
  · next hle =>
    cases h
    exact ⟨UInt64.le_iff_toNat_le.mp hle, UInt64.toNat_sub_of_le _ _ hle⟩
  · nomatch h

theorem checkedAdd_eq_some {sum : UInt64} (h : checkedAdd left right = some sum) :
    sum.toNat = left.toNat + right.toNat := by
  unfold checkedAdd at h
  split at h
  · next hlt =>
    cases h
    rw [UInt64.toNat_add, Nat.mod_eq_of_lt hlt]
  · nomatch h

theorem checkedAdd_of_lt (h : left.toNat + right.toNat < 2 ^ 64) :
    checkedAdd left right = some (left + right) :=
  if_pos h

namespace AqlRingCapacity

variable {capacity : AqlRingCapacity}

theorem packets_pos : 0 < capacity.packets.toNat := by
  obtain ⟨k, -, -, hk⟩ := capacity.exponent
  rw [hk]
  exact Nat.two_pow_pos k

/-- The slot of a packet id is its remainder. -/
theorem slot_eq_mod (packetId : UInt64) :
    (packetId &&& capacity.mask).toUInt32.toNat = packetId.toNat % capacity.packets.toNat := by
  obtain ⟨k, -, hle, hk⟩ := capacity.exponent
  have hpos := capacity.packets_pos
  have hmask : capacity.mask.toNat = 2 ^ k - 1 := by
    unfold mask
    rw [UInt64.toNat_sub_of_le, UInt32.toNat_toUInt64, hk]
    · rfl
    · exact hpos
  have hsmall : packetId.toNat % 2 ^ k < 2 ^ 32 :=
    Nat.lt_of_lt_of_le (Nat.mod_lt _ (Nat.two_pow_pos k))
      (Nat.pow_le_pow_right (by decide) (by omega))
  rw [UInt64.toNat_toUInt32, UInt64.toNat_and, hmask, Nat.and_two_pow_sub_one_eq_mod, hk,
    Nat.mod_eq_of_lt hsmall]

end AqlRingCapacity

/-- Numbers closer together than the modulus have different remainders. -/
theorem mod_ne_of_lt {p q n : Nat} (hlt : p < q) (hclose : q < p + n) : p % n ≠ q % n := by
  intro hmod
  have hdvd : n ∣ q - p := Nat.dvd_of_mod_eq_zero (Nat.sub_mod_eq_zero_of_mod_eq hmod.symm)
  have hle := Nat.le_of_dvd (by omega) hdvd
  omega

/-! ### One call -/

namespace AqlRingBatchReservationEntries

/-- The iterator yields consecutive packet ids. -/
theorem take_eq {capacity : AqlRingCapacity} {count : Nat}
    (entries : AqlRingBatchReservationEntries)
    (hcount : entries.nextIndex.toNat + count = entries.packetCount.toNat)
    (hids : entries.firstPacketId.toNat + entries.packetCount.toNat < 2 ^ 64)
    (hmask : entries.slotMask = capacity.mask) :
    (entries.take count).map (fun entry => entry.packetId.toNat) =
        List.range' (entries.firstPacketId.toNat + entries.nextIndex.toNat) count ∧
      ∀ entry ∈ entries.take count,
        entry.slotIndex.toNat = entry.packetId.toNat % capacity.packets.toNat := by
  induction count generalizing entries with
  | zero => exact ⟨rfl, nofun⟩
  | succ count ih =>
    have hmore : ¬ entries.packetCount ≤ entries.nextIndex := by
      rw [UInt32.le_iff_toNat_le]
      omega
    have hfits : entries.firstPacketId.toNat + entries.nextIndex.toUInt64.toNat < 2 ^ 64 := by
      rw [UInt32.toNat_toUInt64]
      omega
    have hnext : entries.next = some
        (⟨entries.firstPacketId + entries.nextIndex.toUInt64,
          ((entries.firstPacketId + entries.nextIndex.toUInt64) &&& entries.slotMask).toUInt32⟩,
          { entries with nextIndex := entries.nextIndex + 1 }) := by
      unfold next
      rw [if_neg hmore, checkedAdd_of_lt hfits]
      rfl
    have hindex : (entries.nextIndex + 1).toNat = entries.nextIndex.toNat + 1 := by
      have hlt := entries.packetCount.toNat_lt
      exact Nat.mod_eq_of_lt (by show entries.nextIndex.toNat + 1 < 2 ^ 32; omega)
    have hid : (entries.firstPacketId + entries.nextIndex.toUInt64).toNat =
        entries.firstPacketId.toNat + entries.nextIndex.toNat := by
      rw [UInt64.toNat_add, Nat.mod_eq_of_lt hfits, UInt32.toNat_toUInt64]
    have hrest : (entries.nextIndex + 1).toNat + count = entries.packetCount.toNat := by
      omega
    obtain ⟨hids', hslots⟩ := ih { entries with nextIndex := entries.nextIndex + 1 }
      hrest hids hmask
    rw [take, hnext]
    constructor
    · rw [map_cons, hids', hid, hindex, range'_succ, Nat.add_assoc]
    · intro entry hmem
      obtain rfl | hmem := mem_cons.mp hmem
      · rw [hmask]
        exact AqlRingCapacity.slot_eq_mod _
      · exact hslots entry hmem

end AqlRingBatchReservationEntries

namespace AqlSingleProducerRingModel

/-- The producer is at most one ring ahead of the last read counter it has seen. -/
structure Fits (ring : AqlSingleProducerRingModel) : Prop where
  read : ring.lastRead.toNat ≤ ring.write.toNat
  ahead : ring.write.toNat ≤ ring.lastRead.toNat + ring.capacity.packets.toNat

/-- What a call does that hands out packets: consecutive ids from the write counter on, with
    their slots, none of them a whole ring past the observed read counter. -/
structure HandsOut (ring next : AqlSingleProducerRingModel) (issues : List Issue) : Prop where
  capacity : next.capacity = ring.capacity
  ids : issues.map (fun issue => issue.packetId.toNat) = List.range' ring.write.toNat issues.length
  write : next.write.toNat = ring.write.toNat + issues.length
  lastRead : ring.lastRead.toNat ≤ next.lastRead.toNat
  fits : next.Fits
  slots : ∀ issue ∈ issues, issue.slotIndex.toNat =
    issue.packetId.toNat % ring.capacity.packets.toNat
  observed : ∀ issue ∈ issues, issue.packetId.toNat <
    issue.observedRead.toNat + ring.capacity.packets.toNat

variable {ring : AqlSingleProducerRingModel}

theorem new_eq_ok {capacity : AqlRingCapacity} {write read : UInt64}
    (h : new capacity write read = .ok ring) : ring = ⟨capacity, write, read⟩ ∧ ring.Fits := by
  obtain ⟨distance, hdistance, h⟩ := bind_eq_ok.mp h
  obtain ⟨hle, hdistance⟩ := checkedSub_eq_some (okOr_eq_ok.mp hdistance)
  obtain ⟨hfits, h⟩ := check_eq_ok.mp h
  cases h
  rw [UInt64.lt_iff_toNat_lt, UInt32.toNat_toUInt64, Nat.not_lt] at hfits
  exact ⟨rfl, hle, by show write.toNat ≤ read.toNat + capacity.packets.toNat; omega⟩

/-- A batch that was admitted. -/
structure Admitted (ring next : AqlSingleProducerRingModel) (observedRead : UInt64)
    (packetCount : UInt32) (batch : AqlRingBatchReservation) : Prop where
  result : batch = ⟨ring.write, packetCount, ring.capacity.mask, observedRead, next.write⟩
  state : next = ⟨ring.capacity, next.write, observedRead⟩
  write : next.write.toNat = ring.write.toNat + packetCount.toNat
  regress : ring.lastRead.toNat ≤ observedRead.toNat
  read : observedRead.toNat ≤ ring.write.toNat
  ahead : next.write.toNat ≤ observedRead.toNat + ring.capacity.packets.toNat

theorem meets_reserveBatchWithMaximum (observedRead : UInt64) (packetCount maximum : UInt32) :
    Meets (reserveBatchWithMaximum observedRead packetCount maximum)
      (fun batch next => Admitted ring next observedRead packetCount batch)
      (fun _ next => next = ring) False ring := by
  unfold reserveBatchWithMaximum
  refine meets_bind_refuse (fun _ => rfl) fun _ => ?_
  refine meets_bind_refuse (fun _ => rfl) fun _ => ?_
  refine meets_bind_refuse (fun _ => rfl) fun _ => ?_
  refine meets_bind_refuse (fun _ => rfl) fun hregress => ?_
  have hregress : ring.lastRead.toNat ≤ observedRead.toNat := by
    have hle := of_decide_eq_false hregress
    rwa [UInt64.lt_iff_toNat_lt, Nat.not_lt] at hle
  refine meets_bind_lift (fun distance hdistance => ?_) fun _ _ => rfl
  obtain ⟨hread, hdistance⟩ := checkedSub_eq_some (okOr_eq_ok.mp hdistance)
  refine meets_bind_refuse (fun _ => rfl) fun hbound => ?_
  have hbound : distance ≤ ring.capacity.packets.toUInt64 := by
    have hle := of_decide_eq_false hbound
    rw [UInt64.lt_iff_toNat_lt, Nat.not_lt] at hle
    exact UInt64.le_iff_toNat_le.mpr hle
  refine meets_bind_refuse (fun _ => rfl) fun _ => ?_
  refine meets_bind_refuse (fun _ => rfl) fun hroom => ?_
  have hroom : packetCount.toNat ≤ ring.capacity.packets.toNat - distance.toNat := by
    have hle := of_decide_eq_false hroom
    rwa [UInt64.lt_iff_toNat_lt, Nat.not_lt, UInt64.toNat_sub_of_le _ _ hbound,
      UInt32.toNat_toUInt64, UInt32.toNat_toUInt64] at hle
  refine meets_bind_lift (fun nextWrite hnextWrite => ?_) fun _ _ => rfl
  have hwrite := checkedAdd_eq_some (okOr_eq_ok.mp hnextWrite)
  rw [UInt32.toNat_toUInt64] at hwrite
  rw [UInt64.le_iff_toNat_le, UInt32.toNat_toUInt64] at hbound
  refine ⟨rfl, rfl, hwrite, hregress, hread, ?_⟩
  show nextWrite.toNat ≤ observedRead.toNat + ring.capacity.packets.toNat
  omega

variable {next : AqlSingleProducerRingModel} {observedRead : UInt64} {packetCount : UInt32}
  {batch : AqlRingBatchReservation}

section

variable (h : Admitted ring next observedRead packetCount batch)
include h

theorem Admitted.keeps : next.capacity = ring.capacity ∧ next.lastRead = observedRead := by
  rw [h.state]
  exact ⟨rfl, rfl⟩

theorem Admitted.fits : next.Fits := by
  obtain ⟨hcapacity, hlastRead⟩ := h.keeps
  have hread := h.read
  have hwrite := h.write
  constructor
  · rw [hlastRead]
    omega
  · rw [hlastRead, hcapacity]
    exact h.ahead

theorem Admitted.handsOut : HandsOut ring next batch.issues := by
  have hfits := h.fits
  obtain ⟨hcapacity, hlastRead⟩ := h.keeps
  obtain ⟨rfl, -, hwrite, hregress, -, hahead⟩ := h
  have hids : ring.write.toNat + packetCount.toNat < 2 ^ 64 := by
    rw [← hwrite]
    exact next.write.toNat_lt
  obtain ⟨hids, hslots⟩ := AqlRingBatchReservationEntries.take_eq
    ⟨ring.write, packetCount, ring.capacity.mask, 0⟩ (Nat.zero_add _) hids rfl
  show HandsOut ring next ((AqlRingBatchReservationEntries.take packetCount.toNat
    ⟨ring.write, packetCount, ring.capacity.mask, 0⟩).map fun entry =>
      ⟨entry.packetId, entry.slotIndex, observedRead⟩)
  generalize AqlRingBatchReservationEntries.take _ _ = entries at hids hslots
  have hlength : entries.length = packetCount.toNat := by
    simpa using congrArg List.length hids
  refine ⟨hcapacity, ?_, ?_, ?_, hfits, ?_, ?_⟩
  · rw [map_map, length_map, hlength]
    exact hids
  · rw [length_map, hlength, hwrite]
  · rw [hlastRead]
    exact hregress
  · intro issue hmem
    obtain ⟨entry, hentry, rfl⟩ := mem_map.mp hmem
    exact hslots entry hentry
  · intro issue hmem
    obtain ⟨entry, hentry, rfl⟩ := mem_map.mp hmem
    have hid : entry.packetId.toNat ∈
        entries.map fun entry => entry.packetId.toNat := mem_map_of_mem hentry
    rw [hids, mem_range'_1] at hid
    have hlt : entry.packetId.toNat < ring.write.toNat + packetCount.toNat := hid.2
    show entry.packetId.toNat < observedRead.toNat + ring.capacity.packets.toNat
    omega

end

/-- Every call hands out packets or changes nothing. -/
theorem meets_perform (ring : AqlSingleProducerRingModel) (call : Call) :
    Meets (perform call) (fun issues next => HandsOut ring next issues)
      (fun _ next => next = ring) False ring := by
  cases call with
  | reserveOne observedRead =>
    rw [perform, meets_map, reserveOne]
    refine (meets_reserveBatchWithMaximum observedRead 1 _).bind fun batch next h => ?_
    have hfits := h.fits
    obtain ⟨hcapacity, hlastRead⟩ := h.keeps
    obtain ⟨rfl, -, hwrite, hregress, hread, hahead⟩ := h
    refine ⟨hcapacity, rfl, hwrite, hlastRead ▸ hregress, hfits, ?_, ?_⟩
    · intro issue hmem
      obtain rfl := mem_singleton.mp hmem
      exact AqlRingCapacity.slot_eq_mod _
    · intro issue hmem
      obtain rfl := mem_singleton.mp hmem
      have hone : (1 : UInt32).toNat = 1 := rfl
      show ring.write.toNat < observedRead.toNat + ring.capacity.packets.toNat
      omega
  | reserveBatch observedRead packetCount | reserveFixedBatchV2 observedRead packetCount =>
    rw [perform, meets_map]
    exact (meets_reserveBatchWithMaximum observedRead packetCount _).mono
      (fun _ _ h => h.handsOut) (fun _ _ h => h) fun h => h

/-! ### All calls -/

theorem HandsOut.refl (h : ring.Fits) : HandsOut ring ring [] :=
  ⟨rfl, rfl, rfl, Nat.le_refl _, h, nofun, nofun⟩

theorem HandsOut.trans {last : AqlSingleProducerRingModel} {first second : List Issue}
    (h : HandsOut ring next first) (h' : HandsOut next last second) :
    HandsOut ring last (first ++ second) where
  capacity := h'.capacity.trans h.capacity
  ids := by
    rw [map_append, h.ids, h'.ids, h.write, length_append, range'_append_1]
  write := by
    rw [h'.write, h.write, length_append, Nat.add_assoc]
  lastRead := h.lastRead.trans h'.lastRead
  fits := h'.fits
  slots := by
    intro issue hmem
    obtain hmem | hmem := mem_append.mp hmem
    · exact h.slots issue hmem
    · exact h.capacity ▸ h'.slots issue hmem
  observed := by
    intro issue hmem
    obtain hmem | hmem := mem_append.mp hmem
    · exact h.observed issue hmem
    · exact h.capacity ▸ h'.observed issue hmem

theorem run_handsOut (h : ring.Fits) (calls : List Call) :
    HandsOut ring (ring.run calls).2 (ring.run calls).1 := by
  induction calls generalizing ring with
  | nil => exact .refl h
  | cons call calls ih =>
    obtain ⟨issues, next, hcall, hissues⟩ | ⟨error, next, hcall, rfl⟩ | ⟨-, hpanic⟩ :=
      (meets_perform ring call).outcomes
    · rw [run, hcall]
      exact hissues.trans (ih hissues.fits)
    · rw [run, hcall]
      exact ih h
    · exact hpanic.elim

/-- Packets of a ring are numbered consecutively and two of them share a slot only if the
    first was read before the second was handed out; the read counter stays at most one ring
    behind the write counter, and a failing call changes nothing. -/
theorem ring_slots_never_shared {capacity : AqlRingCapacity} {write read : UInt64}
    (hnew : new capacity write read = .ok ring) (calls : List Call) :
    (∀ p ∈ (ring.run calls).1, ∀ q ∈ (ring.run calls).1, p.packetId < q.packetId →
      q.observedRead ≤ p.packetId → p.slotIndex ≠ q.slotIndex) ∧
    (ring.run calls).1.map (fun issue => issue.packetId.toNat) =
      List.range' write.toNat (ring.run calls).1.length ∧
    (ring.run calls).2.lastRead ≤ (ring.run calls).2.write ∧
    (ring.run calls).2.write.toNat ≤ (ring.run calls).2.lastRead.toNat + capacity.packets.toNat ∧
    ∀ call, Meets (perform call)
      (fun _ next => (ring.run calls).2.lastRead ≤ next.lastRead)
      (fun _ next => next = (ring.run calls).2) False (ring.run calls).2 := by
  obtain ⟨rfl, hfits⟩ := new_eq_ok hnew
  have hrun := run_handsOut hfits calls
  refine ⟨fun p hp q hq hlt hread hslot => ?_, hrun.ids, ?_, ?_, fun call => ?_⟩
  · rw [UInt64.le_iff_toNat_le] at hread
    have hclose : q.packetId.toNat < q.observedRead.toNat + capacity.packets.toNat :=
      hrun.observed q hq
    have hne : p.packetId.toNat % capacity.packets.toNat ≠
        q.packetId.toNat % capacity.packets.toNat := mod_ne_of_lt hlt (by omega)
    rw [← hrun.slots p hp, ← hrun.slots q hq] at hne
    exact hne (congrArg UInt32.toNat hslot)
  · exact UInt64.le_iff_toNat_le.mpr hrun.fits.read
  · have hahead := hrun.fits.ahead
    rwa [hrun.capacity] at hahead
  · exact (meets_perform _ call).mono (fun _ _ h => UInt64.le_iff_toNat_le.mpr h.lastRead)
      (fun _ _ h => h) fun h => h

/-- The smallest ring, a few packets before its end. -/
def smallestRing : AqlSingleProducerRingModel := ⟨⟨64, 6, by decide, by decide, rfl⟩, 60, 58⟩

theorem ring_slots_never_shared_wrapping :
    new smallestRing.capacity 60 58 = .ok smallestRing ∧
      (smallestRing.run [.reserveBatch 58 10, .reserveOne 61]).1.length = 11 ∧
      ∀ p ∈ (smallestRing.run [.reserveBatch 58 10, .reserveOne 61]).1,
        ∀ q ∈ (smallestRing.run [.reserveBatch 58 10, .reserveOne 61]).1, p.packetId < q.packetId →
          q.observedRead ≤ p.packetId → p.slotIndex ≠ q.slotIndex := by
  have hnew : new smallestRing.capacity 60 58 = .ok smallestRing := by decide +kernel
  exact ⟨hnew, by decide +kernel,
    (ring_slots_never_shared hnew [.reserveBatch 58 10, .reserveOne 61]).1⟩

end AqlSingleProducerRingModel

end Fe2o3.Aql
