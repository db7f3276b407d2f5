import Fe2o3.MemoryLifecycle.Runs

/-!
# No device keeps a mapping to released memory

The records say which devices may be mapped; here every mapping also has the set of
devices that really are.  A world changes by the calls of the memory lifecycle and,
while a map or unmap call is under way, by the devices that call is made for.  A report
that the call succeeded or failed is true of the devices; an indeterminate one says
nothing. In every world that is reached the recorded range covers the devices, and
address ranges in use are disjoint.  If a call may change any device of its mapping, the
range does not cover them: `doubtful_unmap_escapes`.
-/

namespace Fe2o3.MemoryLifecycle

open Lib
open List hiding lookup lookup_append
open Lib.Command
open RuntimeModel (DeviceKey IdentityDigest)
open MemoryLifecycleState (perform enter_step)
open MemoryTables (reportedMap reportedUnmap reportedMap_step reportedUnmap_step)

/-! ### Worlds -/

/-- A memory state together with the devices that are mapped, now and when the last map or unmap
    call of each mapping began. -/
structure MappedWorld where
  memory : MemoryLifecycleState
  mapped : MemoryMappingKey → Set DeviceKey
  begun : MemoryMappingKey → Set DeviceKey

variable (mapping : MemoryMappingRecord)

def MemoryMappingRecord.Pending : Prop :=
  mapping.state = .mapPending ∨ mapping.state = .unmapPending

/-- The devices between the two ends of the mapped range. -/
def MemoryMappingRecord.rangeDevices : List DeviceKey :=
  (mapping.targetDevices.take mapping.mappedEnd).drop mapping.mappedStart

/-- The devices a call under way is made for: a map call for all target devices, an unmap call for
    those that may still be mapped. -/
def MemoryMappingRecord.addressedDevices : List DeviceKey :=
  if mapping.state = .mapPending then mapping.targetDevices else mapping.rangeDevices

variable {discipline : MemoryIdentityDiscipline} {domainId : IdentityDigest}
  {left right : GpuVaRange} {owner : MemoryPublicationOwner} {progress : PartialProgressObservation}

variable {f : MemoryMappingRecord → MemoryMappingRecord} {transition : MemoryTransition}
  {call : MemoryCall}

namespace MappedWorld

/-- What a report on a map call says: the first devices of the list are mapped, and no others. -/
def MapReport (progress : PartialProgressObservation) (mapped : Set DeviceKey) : Prop :=
  progress.status ≠ .indeterminate →
    ∀ device, device ∈ mapped ↔ device ∈ mapping.targetDevices.take progress.nSuccess

/-- What a report on an unmap call says: the first devices of the list are not mapped, and the
others are as they were when the call began. -/
def UnmapReport (progress : PartialProgressObservation) (begun mapped : Set DeviceKey) : Prop :=
  progress.status ≠ .indeterminate →
    ∀ device, device ∈ mapped ↔
      device ∈ begun ∧ device ∉ mapping.targetDevices.take progress.nSuccess

variable (world : MappedWorld)

/-- The reports that a call carries are true. -/
def Truthful (call : MemoryCall) : Prop :=
  ∀ key progress mapping,
    lookup MemoryMappingRecord.key key world.memory.mappings.records = some mapping →
      (call = .next (.observeMap key progress) → MapReport mapping progress (world.mapped key)) ∧
      (call = .next (.observeUnmap key progress) →
        UnmapReport mapping progress (world.begun key) (world.mapped key))

/-- The mapped devices at the start of the calls that are under way after a memory call. -/
def begunAfter : MemoryCall → MemoryMappingKey → Set DeviceKey
  | .next (.beginUnmap unmapped) => Function.update world.begun unmapped (world.mapped unmapped)
  | _ => world.begun

/-- The steps of a world, where a call under way changes devices of a list. -/
inductive Step (touched : MemoryMappingRecord → List DeviceKey) :
    MappedWorld → MappedWorld → Prop where
  /-- A memory call that succeeds.  It changes no device. -/
  | accepted {world : MappedWorld} {call : MemoryCall} {next : MemoryLifecycleState}
      (done : perform call world.memory = .done () next)
      (truthful : world.Truthful call) :
      Step touched world ⟨next, world.mapped, world.begunAfter call⟩
  | refused {world : MappedWorld} {call : MemoryCall} {error : MemoryTransitionError}
      {state : MemoryLifecycleState}
      (failed : perform call world.memory = .failed error state) :
      Step touched world world
  /-- The devices of a mapping change while a call for them is under way. -/
  | devices {world : MappedWorld} {key : MemoryMappingKey} {mapping : MemoryMappingRecord}
      {after : Set DeviceKey}
      (found : lookup MemoryMappingRecord.key key world.memory.mappings.records = some mapping)
      (pending : mapping.Pending)
      (others : ∀ device, device ∉ touched mapping →
        (device ∈ after ↔ device ∈ world.mapped key)) :
      Step touched world { world with mapped := Function.update world.mapped key after }

inductive Reachable (touched : MemoryMappingRecord → List DeviceKey) (domainId : IdentityDigest)
    (discipline : MemoryIdentityDiscipline) : MappedWorld → Prop where
  | start : Reachable touched domainId discipline
      ⟨MemoryLifecycleState.empty domainId discipline, fun _ => ∅, fun _ => ∅⟩
  | step {world next : MappedWorld} (reached : Reachable touched domainId discipline world)
      (taken : Step touched world next) : Reachable touched domainId discipline next

/-! ### Recorded ranges cover the devices -/

/-- The devices that a mapping can have. -/
structure Covers (mapping : MemoryMappingRecord) (mapped begun : Set DeviceKey) : Prop where
  mapped : ∀ device ∈ mapped, device ∈ mapping.addressedDevices
  begun : mapping.state = .unmapPending → ∀ device ∈ begun, device ∈ mapping.rangeDevices

/-- The records cover the devices of all mappings. -/
structure Tracks (mappings : List MemoryMappingRecord)
    (mapped begun : MemoryMappingKey → Set DeviceKey) : Prop where
  absent : ∀ key, lookup MemoryMappingRecord.key key mappings = none → mapped key = ∅
  present : ∀ key mapping, lookup MemoryMappingRecord.key key mappings = some mapping →
    Covers mapping (mapped key) (begun key)

section Ranges

variable {mapping : MemoryMappingRecord} {mapped begun : Set DeviceKey} {device : DeviceKey}

theorem mem_rangeDevices : device ∈ mapping.rangeDevices ↔ ∃ i, mapping.mappedStart ≤ i ∧
    i < mapping.mappedEnd ∧ mapping.targetDevices[i]? = some device := by
  unfold MemoryMappingRecord.rangeDevices
  rw [mem_iff_getElem?]
  constructor
  · rintro ⟨i, hi⟩
    rw [getElem?_drop, getElem?_take] at hi
    split at hi
    · next hlt => exact ⟨mapping.mappedStart + i, Nat.le_add_right .., hlt, hi⟩
    · nomatch hi
  · rintro ⟨i, hstart, hend, hi⟩
    refine ⟨i - mapping.mappedStart, ?_⟩
    rw [getElem?_drop, getElem?_take, Nat.add_sub_cancel' hstart, if_pos hend]
    exact hi

theorem mem_take {devices : List DeviceKey} {count : Nat} :
    device ∈ devices.take count ↔ ∃ i < count, devices[i]? = some device := by
  rw [mem_iff_getElem?]
  constructor
  · rintro ⟨i, hi⟩
    rw [getElem?_take] at hi
    split at hi
    · next hlt => exact ⟨i, hlt, hi⟩
    · nomatch hi
  · rintro ⟨i, hlt, hi⟩
    exact ⟨i, by rw [getElem?_take, if_pos hlt]; exact hi⟩

theorem Covers.range (h : Covers mapping mapped begun) (hstate : mapping.state ≠ .mapPending) :
    ∀ device ∈ mapped, device ∈ mapping.rangeDevices := by
  intro device hdevice
  have haddressed := h.mapped device hdevice
  rwa [MemoryMappingRecord.addressedDevices, if_neg hstate] at haddressed

/-- A range that covers the devices covers them in every state but the pending ones. -/
theorem Covers.of_range (h : ∀ device ∈ mapped, device ∈ mapping.rangeDevices)
    (hpending : ¬ mapping.Pending := by rintro (hpending | hpending) <;> cases hpending) :
    Covers mapping mapped begun := by
  refine ⟨fun device hdevice => ?_, fun hstate => absurd (.inr hstate) hpending⟩
  rw [MemoryMappingRecord.addressedDevices, if_neg fun hstate => hpending (.inl hstate)]
  exact h device hdevice

/-- All target devices. -/
theorem mem_rangeDevices_all (hstart : mapping.mappedStart = 0)
    (hend : mapping.mappedEnd = mapping.targetDevices.length) (h : device ∈ mapping.targetDevices) :
    device ∈ mapping.rangeDevices := by
  rw [MemoryMappingRecord.rangeDevices, hstart, hend, take_length]
  exact h

section

variable (h : Covers mapping mapped begun)
include h

theorem Covers.reportedMap (hrange : MappedRange mapping) (hstate : mapping.state = .mapPending)
    (hreport : MapReport mapping progress mapped) :
    Covers (reportedMap progress mapping) mapped begun := by
  have hvalid := hrange.valid
  simp only [MemoryMappingRecord.rangeIsValid, hstate, Bool.and_eq_true, beq_iff_eq] at hvalid
  have hlisted : ∀ device ∈ mapped, device ∈ mapping.targetDevices := by
    intro device hdevice
    have haddressed := h.mapped device hdevice
    rwa [MemoryMappingRecord.addressedDevices, if_pos hstate] at haddressed
  unfold MemoryTables.reportedMap
  dsimp only
  split
  · exact .of_range fun device hdevice =>
      mem_rangeDevices_all hvalid.1 rfl (hlisted device hdevice)
  · split
    · next hfailed =>
      refine .of_range fun device hdevice => ?_
      obtain ⟨i, hlt, hi⟩ := mem_take.mp ((hreport (by simp [hfailed.1]) device).mp hdevice)
      exact mem_rangeDevices.mpr ⟨i, by simp [hvalid.1], hlt, hi⟩
    -- an ambiguous mapping retains every device
    · exact .of_range fun device hdevice => mem_rangeDevices_all rfl rfl (hlisted device hdevice)

theorem Covers.beginUnmap (hstate : MemoryTables.Unmappable mapping) :
    Covers (mapping.enter .unmapPending) mapped mapped := by
  have hrange : ∀ device ∈ mapped, device ∈ mapping.rangeDevices := by
    apply h.range
    intro hpending
    obtain ⟨hstate | hstate | hstate, -⟩ := hstate <;> nomatch hpending.symm.trans hstate
  exact ⟨hrange, fun _ => hrange⟩

theorem Covers.reportedUnmap (hstate : mapping.state = .unmapPending)
    (hreport : UnmapReport mapping progress begun mapped) :
    Covers (reportedUnmap progress mapping) mapped begun := by
  have hmapped : ∀ device ∈ mapped, device ∈ mapping.rangeDevices := h.range (by simp [hstate])
  -- what is still mapped lies behind the devices that the call has passed
  have hleft : progress.status ≠ .indeterminate → ∀ device ∈ mapped, ∃ i, progress.nSuccess ≤ i ∧
      i < mapping.mappedEnd ∧ mapping.targetDevices[i]? = some device := by
    intro hstatus device hdevice
    obtain ⟨hbegun, hpassed⟩ := (hreport hstatus device).mp hdevice
    obtain ⟨i, -, hend, hi⟩ := mem_rangeDevices.mp (h.begun hstate device hbegun)
    refine ⟨i, Nat.not_lt.mp fun hlt => hpassed (mem_take.mpr ⟨i, hlt, hi⟩), hend, hi⟩
  unfold MemoryTables.reportedUnmap
  split
  · next hall =>
    subst hall
    refine .of_range fun device hdevice => ?_
    obtain ⟨i, hstart, hend, -⟩ := hleft (by simp) device hdevice
    exact absurd hend (Nat.not_lt.mpr hstart)
  · split
    · next hfailed =>
      exact .of_range fun device hdevice =>
        mem_rangeDevices.mpr (hleft (by simp [hfailed.1]) device hdevice)
    · exact .of_range hmapped

/-- A mapping that can be released is mapped by no device. -/
theorem Covers.releasable
    (hstate : MemoryTables.Releasable mapping) : Covers (mapping.enter .released) mapped begun := by
  refine .of_range (h.range fun hpending => ?_)
  obtain ⟨hstate | hstate | hstate, -⟩ := hstate <;> nomatch hpending.symm.trans hstate

/-- A mapping with an empty range is mapped by no device. -/
theorem Covers.eq_empty (hrange : MappedRange mapping)
    (hstate : mapping.state = .released) : mapped = ∅ := by
  have hvalid := hrange.valid
  simp only [MemoryMappingRecord.rangeIsValid, hstate, beq_iff_eq] at hvalid
  apply Set.eq_empty_iff_forall_notMem.mpr
  intro device hdevice
  obtain ⟨i, hstart, hend, -⟩ := mem_rangeDevices.mp (h.range (by simp [hstate]) device hdevice)
  omega

end

end Ranges

/-! ### Steps of a world -/

variable {key : MemoryMappingKey}

section Tables

variable {mappings : List MemoryMappingRecord}
  {mapped begun begun' : MemoryMappingKey → Set DeviceKey}

section

variable (h : Tracks mappings mapped begun)
include h

theorem Tracks.add {new : MemoryMappingRecord}
    (hstate : new.state = .mapPending) (hfresh : ∀ record ∈ mappings, record.key ≠ new.key) :
    Tracks (mappings ++ [new]) mapped begun := by
  constructor
  · intro key hnone
    apply h.absent
    cases hfound : lookup MemoryMappingRecord.key key mappings with
    | none => rfl
    | some mapping => nomatch hnone.symm.trans (lookup_append_of_some hfound)
  · intro key mapping hfound
    obtain hfound | ⟨rfl, rfl⟩ := lookup_append hfound
    · exact h.present key mapping hfound
    · have hnone : mapped mapping.key = ∅ := h.absent _ (lookup_eq_none hfresh)
      refine ⟨fun device hdevice => ?_, fun hunmap => (nomatch hunmap.symm.trans hstate)⟩
      rw [hnone] at hdevice
      exact hdevice.elim

theorem Tracks.move {record : MemoryMappingRecord} (hkey : ∀ mapping, (f mapping).key = mapping.key)
    (hfound : lookup MemoryMappingRecord.key key mappings = some record)
    (hcovers : Covers (f record) (mapped key) (begun' key))
    (hothers : ∀ other, other ≠ key → begun' other = begun other) :
    Tracks (amend MemoryMappingRecord.key key f mappings) mapped begun' := by
  constructor
  · intro other hnone
    rw [lookup_amend hkey] at hnone
    split at hnone
    · rw [hfound] at hnone
      cases hnone
    · exact h.absent other hnone
  · intro other mapping hmapping
    rw [lookup_amend hkey] at hmapping
    split at hmapping
    · next heq =>
      rw [hfound] at hmapping
      cases hmapping
      rw [heq]
      exact hcovers
    · next hne =>
      rw [hothers other hne]
      exact h.present other mapping hmapping

/-- Records of released mappings can go. -/
theorem Tracks.filter {p : MemoryMappingRecord → Bool}
    (hdistinct : DistinctKeys MemoryMappingRecord.key mappings)
    (hrange : ∀ mapping ∈ mappings, MappedRange mapping)
    (hreleased : ∀ mapping, p mapping = false → mapping.state = .released) :
    Tracks (mappings.filter p) mapped begun := by
  constructor
  · intro key hnone
    cases hfound : lookup MemoryMappingRecord.key key mappings with
    | none => exact h.absent key hfound
    | some mapping =>
      obtain hkept | hgone := Bool.eq_false_or_eq_true (p mapping)
      · nomatch hnone.symm.trans (lookup_filter hdistinct hfound hkept)
      · exact (h.present key mapping hfound).eq_empty (hrange mapping (lookup_mem hfound))
          (hreleased mapping hgone)
  · intro key mapping hfound
    have hmem := (mem_filter.mp (lookup_mem hfound)).1
    apply h.present
    rw [← lookup_key hfound]
    exact lookup_of_mem hdistinct hmem

/-- Devices change only where a call under way is made for them. -/
theorem Tracks.devices {mapping : MemoryMappingRecord} {after : Set DeviceKey}
    (hfound : lookup MemoryMappingRecord.key key mappings = some mapping)
    (hothers : ∀ device, device ∉ mapping.addressedDevices →
      (device ∈ after ↔ device ∈ mapped key)) :
    Tracks mappings (Function.update mapped key after) begun := by
  have hcovers := h.present key mapping hfound
  constructor
  · intro other hnone
    have hne : other ≠ key := by
      rintro rfl
      nomatch hnone.symm.trans hfound
    rw [Function.update_of_ne hne]
    exact h.absent other hnone
  · intro other record hrecord
    by_cases heq : other = key
    · subst heq
      cases hfound.symm.trans hrecord
      rw [Function.update_self]
      refine ⟨fun device hdevice => ?_, hcovers.begun⟩
      by_contra hother
      exact hother (hcovers.mapped device ((hothers device hother).mp hdevice))
    · rw [Function.update_of_ne heq]
      exact h.present other record hrecord

end

end Tables

section Runs

variable {world next : MappedWorld}

/-- The state is valid and its records cover the devices. -/
structure Sound (world : MappedWorld) : Prop where
  valid : world.memory.Valid
  tracks : Tracks world.memory.mappings.records world.mapped world.begun

variable {before after : MemoryTables}

/-- Publications come and go without a mapping being touched. -/
theorem mappings_of_through {step : MemoryPublicationKey → MemoryTables → MemoryTables → Prop}
    {keys : List MemoryPublicationKey} (h : Through step keys before after)
    (hstep : ∀ key before after, step key before after → after.mappings = before.mappings) :
    after.mappings = before.mappings :=
  h.keeps (fun key middle last hmoved hsame => (hstep key middle last hmoved).trans hsame) rfl

theorem mappings_of_publishes {key : MemoryPublicationKey}
    (h : MemoryTables.Publishes owner key before after) : after.mappings = before.mappings := by
  rw [h.2.2]
  exact MemoryTables.mappings_issue

theorem mappings_of_withdraws {key : MemoryPublicationKey}
    (h : MemoryTables.Withdraws owner key before after) : after.mappings = before.mappings := by
  rw [h.2]
  rfl

/-- A transition that is allowed and whose report is true leaves records that cover the devices. -/
theorem Sound.effect (h : Sound world) (hallowed : world.memory.tables.Allows transition)
    (htruthful : world.Truthful (.next transition)) :
    Tracks (world.memory.tables.effect transition).mappings world.mapped
      (world.begunAfter (.next transition)) := by
  have hlawful := h.valid.lawful
  cases transition with
  | acquireVm | retireVm | releaseVaReservation | releaseAllocation | releasePublication =>
    exact h.tracks
  | reserveVa | allocate | publishMapping =>
    simp only [MemoryTables.effect, MemoryTables.addReservation, MemoryTables.addAllocation,
      MemoryTables.addPublication, MemoryTables.mappings_issue]
    exact h.tracks
  | beginMap key targetDevices access =>
    simp only [MemoryTables.effect, MemoryTables.addMapping, MemoryTables.mappings_issue]
    exact h.tracks.add rfl hallowed.fresh
  | observeMap key progress =>
    obtain ⟨record, hfound, hstate⟩ := hallowed
    apply h.tracks.move (reportedMap_step progress).key hfound _ fun _ _ => rfl
    exact (h.tracks.present key record hfound).reportedMap (hlawful.mappedRange hfound) hstate
      ((htruthful key progress record hfound).1 rfl)
  | beginUnmap key =>
    obtain ⟨-, record, hfound, hstate⟩ := hallowed
    apply h.tracks.move (enter_step _).key hfound
    · rw [begunAfter, Function.update_self]
      exact (h.tracks.present key record hfound).beginUnmap hstate
    · exact fun other hne => Function.update_of_ne hne ..
  | observeUnmap key progress =>
    obtain ⟨record, hfound, hstate⟩ := hallowed
    apply h.tracks.move (reportedUnmap_step progress).key hfound _ fun _ _ => rfl
    exact (h.tracks.present key record hfound).reportedUnmap hstate
      ((htruthful key progress record hfound).2 rfl)
  | releaseMapping key =>
    obtain ⟨-, record, hfound, hstate⟩ := hallowed
    apply h.tracks.move (enter_step _).key hfound _ fun _ _ => rfl
    exact (h.tracks.present key record hfound).releasable hstate

theorem Sound.accepted (h : Sound world) {memory : MemoryLifecycleState}
    (hdone : perform call world.memory = .done () memory) (htruthful : world.Truthful call) :
    Sound ⟨memory, world.mapped, world.begunAfter call⟩ := by
  obtain ⟨hvalid, hperforms⟩ := (h.valid.perform call).of_done hdone
  refine ⟨hvalid, ?_⟩
  show Tracks memory.tables.mappings world.mapped (world.begunAfter call)
  have hsame : memory.tables.mappings = world.memory.tables.mappings →
      Tracks memory.tables.mappings world.mapped world.begun := by
    intro hmappings
    rw [hmappings]
    exact h.tracks
  cases call with
  | next transition =>
    rw [hperforms.2.2]
    exact h.effect hperforms.2.1 htruthful
  | publishComputeAqlQueueMappings keys queue =>
    exact hsame (mappings_of_through hperforms fun _ _ _ => mappings_of_publishes)
  | releaseComputeAqlQueuePublications keys queue =>
    exact hsame (mappings_of_through hperforms fun _ _ _ => mappings_of_withdraws)
  | publishPeerTransferMapping key binding => exact hsame (mappings_of_publishes hperforms)
  | releasePeerTransferPublication key binding => exact hsame (mappings_of_withdraws hperforms)
  | checkpointReleased =>
    rw [show memory.tables = world.memory.tables.compacted from hperforms]
    apply h.tracks.filter h.valid.lawful.mappingKeys
    · intro mapping hmem
      obtain ⟨_, _, hfits⟩ := h.valid.lawful.mappings mapping hmem
      exact hfits.range
    · simpa using hgone

theorem Sound.step (h : Sound world)
    (hstep : Step MemoryMappingRecord.addressedDevices world next) : Sound next := by
  cases hstep with
  | accepted done truthful => exact h.accepted done truthful
  | refused failed => exact h
  | devices found pending others => exact ⟨h.valid, h.tracks.devices found others⟩

theorem Reachable.sound
    (h : Reachable MemoryMappingRecord.addressedDevices domainId discipline world) :
    Sound world := by
  induction h with
  | start =>
    exact ⟨MemoryLifecycleState.empty_valid domainId discipline, fun _ _ => rfl,
      nofun⟩
  | step _ taken ih => exact ih.step taken

end Runs

variable {touched : MemoryMappingRecord → List DeviceKey}

/-- The world after a call that succeeds. -/
def after (call : MemoryCall) : MappedWorld :=
  ⟨(perform call world.memory).state?.getD world.memory, world.mapped,
    world.begunAfter call⟩

theorem Reachable.after {world : MappedWorld} (h : Reachable touched domainId discipline world)
    (call : MemoryCall) (hsucceeds : (perform call world.memory).succeeded = true)
    (htruthful : world.Truthful call) :
    Reachable touched domainId discipline (world.after call) := by
  obtain ⟨_, next, hdone⟩ := Outcome.exists_done hsucceeds
  unfold MappedWorld.after
  rw [hdone]
  exact h.step (.accepted hdone htruthful)

/-! ### Ranges in use -/

/-- The allocation is live, or some device is mapped to it. -/
def InUse (allocation : MemoryAllocationRecord) : Prop :=
  allocation.state = .live ∨
    ∃ key : MemoryMappingKey, key.allocation = allocation.key ∧ (world.mapped key).Nonempty

/-- The addresses reserved for an allocation. -/
def reservedRange (allocation : MemoryAllocationRecord) : Option GpuVaRange :=
  (lookup VaReservationRecord.key allocation.reservation world.memory.reservations.records).map
    VaReservationRecord.range

/-- The addresses of an allocation: its bytes, from the start of the range reserved for it. -/
def addressRange (allocation : MemoryAllocationRecord) : Option GpuVaRange :=
  (world.reservedRange allocation).map fun range => ⟨range.base, allocation.spec.byteLen⟩

theorem rangesOverlap_eq_false {leftEnd rightEnd : Nat} (hleft : left.checkedEnd = some leftEnd)
    (hright : right.checkedEnd = some rightEnd) :
    rangesOverlap left right = false ↔ rightEnd ≤ left.base ∨ leftEnd ≤ right.base := by
  simp only [rangesOverlap, hleft, hright, Bool.and_eq_false_iff,
    decide_eq_false_iff_not, Nat.not_lt]

theorem checkedEnd_eq_some {range : GpuVaRange} {last : Nat} :
    range.checkedEnd = some last ↔ last = range.base + range.byteLen ∧ last < 2 ^ 64 := by
  unfold GpuVaRange.checkedEnd Lib.Words.checkedAdd
  split <;> simp <;> omega

/-- Parts of ranges that do not overlap do not overlap. -/
theorem rangesOverlap_of_prefix {leftLen rightLen : Nat} (hleft : validPageRange left = true)
    (hright : validPageRange right = true) (hleftLen : leftLen ≤ left.byteLen)
    (hrightLen : rightLen ≤ right.byteLen) (h : rangesOverlap left right = false) :
    rangesOverlap ⟨left.base, leftLen⟩ ⟨right.base, rightLen⟩ = false := by
  simp only [validPageRange, Bool.and_eq_true] at hleft hright
  obtain ⟨leftEnd, hleftEnd⟩ := Option.isSome_iff_exists.mp hleft.2
  obtain ⟨rightEnd, hrightEnd⟩ := Option.isSome_iff_exists.mp hright.2
  have hapart := (rangesOverlap_eq_false hleftEnd hrightEnd).mp h
  have hleftBound := checkedEnd_eq_some.mp hleftEnd
  have hrightBound := checkedEnd_eq_some.mp hrightEnd
  apply (rangesOverlap_eq_false (checkedEnd_eq_some.mpr ⟨rfl, ?_⟩)
    (checkedEnd_eq_some.mpr ⟨rfl, ?_⟩)).mpr
  all_goals dsimp only; omega

theorem rangesOverlap_comm (left right : GpuVaRange) :
    rangesOverlap left right = rangesOverlap right left := by
  unfold rangesOverlap
  cases left.checkedEnd <;> cases right.checkedEnd <;> simp [Bool.and_comm]

instance : Std.Symm Exclusive where
  symm _ _ h hlive hlive' := ⟨(h hlive' hlive).1.symm, (h hlive' hlive).2.symm⟩

instance : Std.Symm Apart where
  symm _ _ h hvm hreserved hreserved' := by
    rw [rangesOverlap_comm]
    exact h hvm.symm hreserved' hreserved

section InUse

variable {world : MappedWorld} {first second : MemoryAllocationRecord}

/-- A device is mapped only through a mapping of a live allocation. -/
theorem Sound.exists_live (h : Sound world) (hmapped : (world.mapped key).Nonempty) :
    ∃ allocation ∈ world.memory.allocations.records,
      allocation.key = key.allocation ∧ allocation.state = .live := by
  cases hfound : lookup MemoryMappingRecord.key key world.memory.mappings.records with
  | none =>
    rw [h.tracks.absent key hfound] at hmapped
    exact absurd hmapped Set.not_nonempty_empty
  | some mapping =>
    obtain ⟨allocation, vm, hfits⟩ := h.valid.lawful.mappings mapping (lookup_mem hfound)
    have hstate : mapping.state ≠ .released := by
      intro hreleased
      rw [(h.tracks.present key mapping hfound).eq_empty hfits.range hreleased] at hmapped
      exact Set.not_nonempty_empty hmapped
    refine ⟨allocation, lookup_mem hfits.found, ?_, hfits.live hstate⟩
    rw [lookup_key hfits.found, lookup_key hfound]

theorem Sound.live_of_inUse (h : Sound world) (hmem : first ∈ world.memory.allocations.records)
    (huse : world.InUse first) : first.state = .live := by
  obtain hlive | ⟨key, hkey, hmapped⟩ := huse
  · exact hlive
  · obtain ⟨allocation, hallocation, hsame, hlive⟩ := h.exists_live hmapped
    rwa [eq_of_same_key h.valid.lawful.allocationKeys hmem hallocation (hkey.symm.trans hsame.symm)]

/-- The reservations of two live allocations of one VM do not overlap, and so the addresses in them
    do not. -/
theorem Sound.addresses_apart (h : Sound world) (hfirst : first ∈ world.memory.allocations.records)
    (hsecond : second ∈ world.memory.allocations.records) (hne : first.key ≠ second.key)
    (hvm : first.key.vm = second.key.vm) (huse : world.InUse first) (huse' : world.InUse second) :
    ∃ left right, world.addressRange first = some left ∧ world.addressRange second = some right ∧
      rangesOverlap left right = false := by
  have hlawful := h.valid.lawful
  have hlive := h.live_of_inUse hfirst huse
  have hlive' := h.live_of_inUse hsecond huse'
  obtain ⟨_, left, hfits⟩ := hlawful.allocations first hfirst
  obtain ⟨_, right, hfits'⟩ := hlawful.allocations second hsecond
  obtain ⟨_, hleft⟩ := hlawful.reservations left (lookup_mem hfits.found)
  obtain ⟨_, hright⟩ := hlawful.reservations right (lookup_mem hfits'.found)
  have hreservation : first.reservation ≠ second.reservation :=
    (hlawful.exclusive.forall hfirst hsecond (ne_of_apply_ne _ hne) hlive hlive').2
  have hdifferent : left ≠ right := by
    intro heq
    apply hreservation
    rw [← lookup_key hfits.found, ← lookup_key hfits'.found, heq]
  have hapart : rangesOverlap left.range right.range = false := by
    apply hlawful.apart.forall (lookup_mem hfits.found) (lookup_mem hfits'.found) hdifferent
    · rw [lookup_key hfits.found, lookup_key hfits'.found, ← hfits.bound, ← hfits'.bound, hvm]
    · exact hfits.reserved hlive
    · exact hfits'.reserved hlive'
  have hspec := hfits.spec
  have hspec' := hfits'.spec
  simp only [validAllocationSpec, Bool.and_eq_true, decide_eq_true_eq] at hspec hspec'
  have hfound : lookup VaReservationRecord.key first.reservation world.memory.reservations.records =
    some left := hfits.found
  have hfound' : lookup VaReservationRecord.key second.reservation
    world.memory.reservations.records =
    some right := hfits'.found
  refine ⟨⟨left.range.base, first.spec.byteLen⟩, ⟨right.range.base, second.spec.byteLen⟩, ?_, ?_,
    ?_⟩
  · rw [addressRange, reservedRange, hfound]
    rfl
  · rw [addressRange, reservedRange, hfound']
    rfl
  · exact rangesOverlap_of_prefix hleft.pages hright.pages hspec.1.1.1.1.2 hspec'.1.1.1.1.2 hapart

end InUse

/-- In every world that is reached, under either identity discipline: outside pending operations
    the devices of a mapping are among the retained ones, a released mapping has none, a device is
    mapped only to live memory, and the addresses of two allocations of one VM that are live or
    mapped do not overlap. -/
theorem released_memory_unmapped {domainId : IdentityDigest} {discipline : MemoryIdentityDiscipline}
    {world : MappedWorld}
    (hreached : Reachable MemoryMappingRecord.addressedDevices domainId discipline world) :
    (∀ key mapping, lookup MemoryMappingRecord.key key world.memory.mappings.records =
      some mapping → ¬ mapping.Pending → ∃ retained,
        mapping.retainedDeviceSuperset = some retained ∧
        ∀ device ∈ world.mapped key, device ∈ retained) ∧
    (∀ key mapping, lookup MemoryMappingRecord.key key world.memory.mappings.records =
      some mapping → mapping.state = .released → world.mapped key = ∅) ∧
    (∀ key, (world.mapped key).Nonempty → ∃ allocation ∈ world.memory.allocations.records,
      allocation.key = key.allocation ∧ allocation.state = .live) ∧
    ∀ first ∈ world.memory.allocations.records, ∀ second ∈ world.memory.allocations.records,
      first.key ≠ second.key → first.key.vm = second.key.vm → world.InUse first →
        world.InUse second →
      ∃ left right, world.addressRange first = some left ∧ world.addressRange second = some right ∧
        rangesOverlap left right = false := by
  have hsound := hreached.sound
  refine ⟨fun key mapping hfound hpending => ?_, fun key mapping hfound hreleased => ?_,
    fun key => hsound.exists_live, fun first hfirst second hsecond => ?_⟩
  · have hrange := hsound.valid.lawful.mappedRange hfound
    refine ⟨mapping.rangeDevices, if_pos ⟨hrange.ordered, hrange.inside⟩, ?_⟩
    exact (hsound.tracks.present key mapping hfound).range fun hstate => hpending (.inl hstate)
  · exact (hsound.tracks.present key mapping hfound).eq_empty
      (hsound.valid.lawful.mappedRange hfound) hreleased
  · exact hsound.addresses_apart hfirst hsecond

/-! ### Calls for two devices -/

def sampleVm : RuntimeModel.VmKey := ⟨⟨1, 1⟩, 1⟩

/-- A mapping of two devices whose map call is under way. -/
def sampleMapping : MemoryMappingRecord :=
  ⟨⟨⟨sampleVm, 1, 1⟩, 1⟩, [⟨1, 1⟩, ⟨2, 1⟩], .readWrite, 0, 0, .mapPending⟩

def sampleWorld : MappedWorld :=
  [.acquireVm ⟨7, sampleVm⟩ [⟨7, ⟨1, 1⟩⟩, ⟨7, ⟨2, 1⟩⟩] 5 ⟨0, 65536⟩,
    .reserveVa ⟨sampleVm, 1⟩ ⟨4096, 8192⟩ 4096,
    .allocate ⟨sampleVm, 1, 1⟩ ⟨sampleVm, 1⟩ 9 ⟨8192, 4096, .deviceLocal, .explicitVisibility⟩,
    .beginMap sampleMapping.key sampleMapping.targetDevices .readWrite].foldl
    (fun world transition => world.after (.next transition))
    ⟨.empty 7 .reusableGenerations, fun _ => ∅, fun _ => ∅⟩

theorem truthful_of_unreported
    (h : ∀ key progress, transition ≠ .observeMap key progress ∧
      transition ≠ .observeUnmap key progress) : world.Truthful (.next transition) := by
  intro key progress mapping _
  constructor
  · rintro ⟨⟩
    exact absurd rfl (h key progress).1
  · rintro ⟨⟩
    exact absurd rfl (h key progress).2

theorem sampleWorld_reachable : Reachable touched 7 .reusableGenerations sampleWorld := by
  refine .after (.after (.after (.after .start _ ?_ ?_) _ ?_ ?_) _ ?_ ?_) _ ?_ ?_
  all_goals first | decide +kernel | exact truthful_of_unreported _ (by simp)

/-- The devices of the sample mapping change. -/
def withDevices (devices : Set DeviceKey) : MappedWorld :=
  { world with mapped := Function.update world.mapped sampleMapping.key devices }

section

variable {world : MappedWorld} (mapping : MemoryMappingRecord)
  (h : Reachable touched domainId discipline world)
  (hfound : lookup MemoryMappingRecord.key sampleMapping.key world.memory.mappings.records =
    some mapping)
include h hfound

theorem Reachable.withDevices (devices : Set DeviceKey) (hpending : mapping.Pending)
    (hbefore : ∀ device ∈ world.mapped sampleMapping.key, device ∈ touched mapping)
    (hafter : ∀ device ∈ devices, device ∈ touched mapping) :
    Reachable touched domainId discipline (world.withDevices devices) :=
  h.step (.devices hfound hpending fun device hother =>
    iff_of_false (fun hin => hother (hafter device hin)) fun hin => hother (hbefore device hin))

theorem Reachable.observeMap (progress : PartialProgressObservation) (hsucceeds :
      (perform (.next (.observeMap sampleMapping.key progress)) world.memory).succeeded)
    (hreport : MapReport mapping progress (world.mapped sampleMapping.key)) :
    Reachable touched domainId discipline
      (world.after (.next (.observeMap sampleMapping.key progress))) := by
  refine h.after _ hsucceeds fun key other record hrecord => ⟨?_, fun hcall => (by cases hcall)⟩
  rintro ⟨⟩
  cases hfound.symm.trans hrecord
  exact hreport

theorem Reachable.observeUnmap (progress : PartialProgressObservation) (hsucceeds :
      (perform (.next (.observeUnmap sampleMapping.key progress)) world.memory).succeeded)
    (hreport : UnmapReport mapping progress (world.begun sampleMapping.key)
      (world.mapped sampleMapping.key)) :
    Reachable touched domainId discipline
      (world.after (.next (.observeUnmap sampleMapping.key progress))) := by
  refine h.after _ hsucceeds fun key other record hrecord => ⟨fun hcall => (by cases hcall), ?_⟩
  rintro ⟨⟩
  cases hfound.symm.trans hrecord
  exact hreport

end

/-- A map call that failed after the first device. -/
theorem released_memory_unmapped_partial_map :
    ∃ (world : MappedWorld) (mapping : MemoryMappingRecord),
      Reachable MemoryMappingRecord.addressedDevices 7 .reusableGenerations world ∧
      lookup MemoryMappingRecord.key mapping.key world.memory.mappings.records = some mapping ∧
      mapping.state = .mapFailed ∧ world.mapped mapping.key = {⟨1, 1⟩} ∧
      ∃ retained, mapping.retainedDeviceSuperset = some retained ∧
        ∀ device ∈ world.mapped mapping.key, device ∈ retained := by
  have hfound : lookup MemoryMappingRecord.key sampleMapping.key
      sampleWorld.memory.mappings.records = some sampleMapping := by decide +kernel
  have hstart : Reachable MemoryMappingRecord.addressedDevices 7 _ sampleWorld :=
    sampleWorld_reachable
  have hmapped := hstart.withDevices _ hfound {⟨1, 1⟩} (.inl rfl) (fun _ hin => hin.elim)
    (by rintro _ rfl; decide)
  have hreported := hmapped.observeMap _ hfound ⟨1, .failed⟩ (by decide +kernel)
    (by simp [MapReport, withDevices, sampleMapping])
  exact ⟨_, reportedMap ⟨1, .failed⟩ sampleMapping, hreported, by decide +kernel, rfl,
    by simp [withDevices, after, reportedMap, sampleMapping],
    (released_memory_unmapped hreported).1 _ _ (by decide +kernel)
      (by rintro (hpending | hpending) <;> cases hpending)⟩

/-- With no bound but the devices of the mapping: an unmap call fails after the first of two
    devices, a second one maps it again and ends in doubt, and the retained devices lack it. -/
theorem doubtful_unmap_escapes :
    ∃ (world : MappedWorld) (mapping : MemoryMappingRecord),
      Reachable MemoryMappingRecord.targetDevices 7 .reusableGenerations world ∧
      lookup MemoryMappingRecord.key mapping.key world.memory.mappings.records = some mapping ∧
      mapping.state = .ambiguous ∧ mapping.retainedDeviceSuperset = some [⟨2, 1⟩] ∧
      ⟨1, 1⟩ ∈ world.mapped mapping.key := by
  have hstart : Reachable MemoryMappingRecord.targetDevices 7 _ sampleWorld := sampleWorld_reachable
  have hmapping := hstart.withDevices sampleMapping (by decide +kernel) {⟨1, 1⟩, ⟨2, 1⟩} (.inl rfl)
    (fun _ hin => hin.elim) (by simp [sampleMapping])
  have hmapped := hmapping.observeMap sampleMapping (by decide +kernel) ⟨2, .succeeded⟩
    (by decide +kernel) (by simp [MapReport, withDevices, sampleMapping])
  have hbegun := hmapped.after (.next (.beginUnmap sampleMapping.key)) (by decide +kernel)
    (truthful_of_unreported _ (by simp))
  let unmapping : MemoryMappingRecord :=
    { sampleMapping with mappedEnd := 2, state := .unmapPending }
  have hunmapping := hbegun.withDevices unmapping (by decide +kernel) {⟨2, 1⟩} (.inr rfl)
    (by simp [withDevices, after, unmapping, sampleMapping]) (by simp [unmapping, sampleMapping])
  have hunmapped := hunmapping.observeUnmap unmapping (by decide +kernel) ⟨1, .failed⟩
    (by decide +kernel) (by
      simp only [UnmapReport, withDevices, after, begunAfter, unmapping, sampleMapping]
      grind)
  have hagain := hunmapped.after (.next (.beginUnmap sampleMapping.key)) (by decide +kernel)
    (truthful_of_unreported _ (by simp))
  have hdoubtful := hagain.withDevices { unmapping with mappedStart := 1 } (by decide +kernel)
    {⟨1, 1⟩, ⟨2, 1⟩} (.inr rfl) (by simp [withDevices, after, unmapping, sampleMapping])
    (by simp [unmapping, sampleMapping])
  have hended := hdoubtful.observeUnmap { unmapping with mappedStart := 1 } (by decide +kernel)
    ⟨0, .indeterminate⟩ (by decide +kernel) (by simp [UnmapReport])
  exact ⟨_, { unmapping with mappedStart := 1, state := .ambiguous }, hended, by decide +kernel,
    rfl, rfl, by simp [withDevices, after, unmapping]⟩

end MappedWorld

/-! ### Mappings in doubt -/

section

variable {tables after : MemoryTables} {record : MemoryMappingRecord}

namespace MemoryTables

theorem mem_moveMapping {key : MemoryMappingKey} {P : MemoryMappingRecord → Prop}
    (hheld : Holds MemoryMappingRecord.key key tables.mappings P) (hmem : record ∈ tables.mappings)
    (hnot : ¬ P record) : record ∈ (tables.moveMapping key f).mappings := by
  rcases hheld with ⟨held, hfound, hP⟩
  rcases amend_cases MemoryMappingRecord.key key f tables.mappings with
    ⟨hnone, _⟩ | ⟨old, front, back, hold, _, htable, hamend⟩
  · cases hnone.symm.trans hfound
  · cases hfound.symm.trans hold
    rw [htable, mem_append, mem_cons] at hmem
    show record ∈ amend MemoryMappingRecord.key key f tables.mappings
    rw [hamend, mem_append, mem_cons]
    exact hmem.imp_right fun h => .inr (h.resolve_left (by rintro rfl; exact hnot hP))

variable (hmem : record ∈ tables.mappings) (hstate : record.state = .ambiguous)
include hmem hstate

/-- No transition is allowed on an ambiguous mapping. -/
theorem mem_effect_of_ambiguous (hallowed : tables.Allows transition) :
    record ∈ (tables.effect transition).mappings := by
  cases transition with
  | acquireVm | retireVm | releaseVaReservation | releaseAllocation | releasePublication =>
    exact hmem
  | reserveVa | allocate | publishMapping | beginMap =>
    simp [effect, addReservation, addAllocation, addPublication, addMapping, mappings_issue, hmem]
  | observeMap | observeUnmap => exact mem_moveMapping hallowed hmem (by simp [hstate])
  | beginUnmap => exact mem_moveMapping hallowed.2 hmem (by simp [Unmappable, hstate])
  | releaseMapping => exact mem_moveMapping hallowed.2 hmem (by simp [Releasable, hstate])

theorem Performs.mem_of_ambiguous (h : tables.Performs call after) : record ∈ after.mappings := by
  have hsame : after.mappings = tables.mappings → record ∈ after.mappings := by
    intro hmappings
    rwa [hmappings]
  cases call with
  | next transition =>
    rw [h.2.2]
    exact mem_effect_of_ambiguous hmem hstate h.2.1
  | publishComputeAqlQueueMappings =>
    exact hsame (MappedWorld.mappings_of_through h fun _ _ _ => MappedWorld.mappings_of_publishes)
  | releaseComputeAqlQueuePublications =>
    exact hsame (MappedWorld.mappings_of_through h fun _ _ _ => MappedWorld.mappings_of_withdraws)
  | publishPeerTransferMapping => exact hsame (MappedWorld.mappings_of_publishes h)
  | releasePeerTransferPublication => exact hsame (MappedWorld.mappings_of_withdraws h)
  | checkpointReleased =>
    rw [show after = tables.compacted from h]
    exact mem_filter.mpr ⟨hmem, by simp [hstate]⟩

end MemoryTables

namespace MemoryLifecycleState

/-- Once it is in doubt which devices hold a mapping, no sequence of calls changes or drops its
    record, and its allocation and the address range of that stay in use. -/
theorem ambiguous_mapping_pinned (domainId : IdentityDigest) (discipline : MemoryIdentityDiscipline)
    (calls more : List MemoryCall) :
    ∃ state, (empty domainId discipline).run calls = some state ∧
      ∀ record ∈ state.tables.mappings, record.state = .ambiguous →
        ∃ last allocation reservation, state.run more = some last ∧
          record ∈ last.tables.mappings ∧
          lookup MemoryAllocationRecord.key record.key.allocation last.tables.allocations =
            some allocation ∧ allocation.state = .live ∧
          lookup VaReservationRecord.key allocation.reservation last.tables.reservations =
            some reservation ∧ reservation.state = .reserved := by
  rcases (empty_valid domainId discipline).run calls with ⟨state, hrun, hvalid⟩
  refine ⟨state, hrun, ?_⟩
  intro record hmem hstate
  rcases hvalid.run_keeps hmem (fun _ _ _ hperforms hmem => hperforms.mem_of_ambiguous hmem hstate)
    more with ⟨last, hlast, hvalid, hmem⟩
  rcases hvalid.lawful.mappings record hmem with ⟨allocation, _, hfits⟩
  have hlive := hfits.live (by simp [hstate])
  rcases hvalid.lawful.allocations allocation (lookup_mem hfits.found) with ⟨_, reservation, hunder⟩
  exact ⟨last, allocation, reservation, hlast, hmem, hfits.found, hlive, hunder.found,
    hunder.reserved hlive⟩

end MemoryLifecycleState

end

end Fe2o3.MemoryLifecycle
