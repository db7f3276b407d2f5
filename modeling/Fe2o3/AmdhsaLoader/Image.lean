import Fe2o3.AmdhsaLoader.Layout

/-!
# The materialized image is the ELF image

For an accepted plan every range of the materialization is inside the image, so
`validate` succeeds with the ranges that `materializationOf` writes out.  The copies do
not meet, which says what each byte of the image is.
-/

namespace Fe2o3.AmdhsaLoader

open Lib List
open Lib.Words

variable {bytes : List UInt8} {raws : List ProgramHeader} {result : LoadPlan}
  {segment : LoadSegment}

/-! ### The instructions -/

/-- The ranges follow one another from a start to an end. -/
def Tiles : Nat → List ImageRange → Nat → Prop
  | start, [], stop => start = stop
  | start, range :: ranges, stop =>
    range.offsetFromImageStart = start ∧ Tiles (start + range.byteLen) ranges stop

variable {ranges : List ImageRange} {byteLen i offset start stop : Nat} {buffer source : List UInt8}
  {raw : ProgramHeader}

theorem Tiles.le (h : Tiles start ranges stop) : start ≤ stop := by
  induction ranges generalizing start with
  | nil => exact Nat.le_of_eq h
  | cons range ranges ih => exact Nat.le_trans (Nat.le_add_right ..) (ih h.2)

theorem coverFrom_eq_ok (h : Tiles start ranges stop) (hstop : stop < 2 ^ 64) :
    coverFrom start ranges = .ok stop := by
  induction ranges generalizing start with
  | nil => exact congrArg Except.ok h
  | cons range ranges ih =>
    have hnext := checkedAdd_eq_some.mpr ⟨rfl, Nat.lt_of_le_of_lt h.2.le hstop⟩
    rw [coverFrom, if_neg (not_not.mpr h.1), hnext]
    exact ih h.2

def LoadPlan.range (plan : LoadPlan) (start byteLen : Nat) : ImageRange :=
  ⟨start - plan.imageStart, byteLen⟩

def instructionsOf (bytes : List UInt8) (plan : LoadPlan) (ordinal : SegmentOrdinal)
    (segment : LoadSegment) : SegmentInstructions where
  mapping := plan.range segment.mappingAddress segment.mappingSize
  zeroFill :=
    { mappingPrefix := plan.range segment.mappingAddress
        (segment.virtualAddress - segment.mappingAddress)
      memorySuffix := plan.range (segment.virtualAddress + segment.fileSize)
        (segment.memorySize - segment.fileSize)
      mappingTail := plan.range segment.memoryEnd (segment.mappingEnd - segment.memoryEnd) }
  copy := ⟨⟨ordinal, segment.fileOffset, (bytes.drop segment.fileOffset).take segment.fileSize⟩,
    plan.range segment.virtualAddress segment.fileSize⟩

def LoadPlan.imageLen (plan : LoadPlan) : Nat := plan.imageEnd - plan.imageStart

def gapOf (plan : LoadPlan) (first second : LoadSegment) : ImageRange :=
  plan.range first.mappingEnd (second.mappingAddress - first.mappingEnd)

def materializationOf (bytes : List UInt8) (plan : LoadPlan) : MaterializationPlan where
  imageLen := plan.imageLen
  firstToSecond := gapOf plan plan.segments.first plan.segments.second
  secondToThird := gapOf plan plan.segments.second plan.segments.third
  segments := ⟨instructionsOf bytes plan .first plan.segments.first,
    instructionsOf bytes plan .second plan.segments.second,
    instructionsOf bytes plan .third plan.segments.third⟩

/-- The mapping of a segment is a part of the image. -/
structure Inside (plan : LoadPlan) (segment : LoadSegment) : Prop where
  start : plan.imageStart ≤ segment.mappingAddress
  stop : segment.mappingEnd ≤ plan.imageEnd
  bounded : plan.imageEnd < 2 ^ 64

theorem Laid.inside (h : Laid bytes raws result) :
    ∀ segment ∈ result.segments.toList, Inside result segment := by
  have hfollow := h.follow
  have hfollow' := h.follow'
  have hlies := h.lies
  have hstart := h.imageStart
  have hend := h.imageEnd
  simp only [PerSegment.toList, forall_mem_cons] at hlies ⊢
  have hbounded := hlies.2.2.1.bounded
  have hsecond : result.segments.second.mappingAddress ≤ result.segments.second.mappingEnd :=
    Nat.le_add_right ..
  have hfirst : result.segments.first.mappingAddress ≤ result.segments.first.mappingEnd :=
    Nat.le_add_right ..
  have hthird : result.segments.third.mappingAddress ≤ result.segments.third.mappingEnd :=
    Nat.le_add_right ..
  exact ⟨⟨by omega, by omega, by omega⟩, ⟨by omega, by omega, by omega⟩,
    ⟨by omega, by omega, by omega⟩, forall_mem_nil _⟩

theorem checkedImageRange_eq_ok (h : Inside result segment)
    (hstart : segment.mappingAddress ≤ start) (hend : start + byteLen ≤ result.imageEnd) :
    checkedImageRange result start byteLen = .ok (result.range start byteLen) := by
  have himage := h.start
  have hbounded := h.bounded
  have hlen : checkedSub result.imageEnd result.imageStart = some result.imageLen :=
    checkedSub_eq_some.mpr (by rw [LoadPlan.imageLen]; omega)
  have hoffset : checkedSub start result.imageStart = some (start - result.imageStart) :=
    checkedSub_eq_some.mpr (by omega)
  have hstop := checkedAdd_eq_some.mpr ⟨rfl,
    show start - result.imageStart + byteLen < 2 ^ 64 by omega⟩
  rw [checkedImageRange, hlen, hoffset]
  show (okOr _ (checkedAdd (start - result.imageStart) byteLen) >>= _) = _
  rw [hstop]
  exact if_neg (by rw [LoadPlan.imageLen]; omega)

theorem validatedSlice_eq_ok (h : offset + byteLen ≤ bytes.length)
    (hbounded : bytes.length < 2 ^ 64) :
    validatedSlice bytes offset byteLen = .ok ((bytes.drop offset).take byteLen) := by
  rw [validatedSlice, checkedAdd_eq_some.mpr ⟨rfl, Nat.lt_of_le_of_lt h hbounded⟩]
  exact if_neg (by omega)

theorem buildSegmentInstructions_eq_ok (h : Lies bytes segment) (hinside : Inside result segment)
    (hbounded : bytes.length < 2 ^ 64) (ordinal : SegmentOrdinal) :
    buildSegmentInstructions bytes result ordinal segment =
      .ok (instructionsOf bytes result ordinal segment) := by
  obtain ⟨haddress, hmemory⟩ := h.order
  have hsize := h.memorySize
  have hfile := h.fileEnd
  have hmapping := h.bounded
  have hstop := hinside.stop
  rw [LoadSegment.fileEnd] at hfile
  have hend : segment.mappingEnd = segment.mappingAddress + segment.mappingSize := rfl
  have hmemoryEnd : segment.memoryEnd = segment.virtualAddress + segment.memorySize := rfl
  have htail : checkedSub segment.mappingEnd segment.memoryEnd =
      some (segment.mappingEnd - segment.memoryEnd) := checkedSub_eq_some.mpr (by omega)
  have hsuffix := checkedAdd_eq_some.mpr
    ⟨rfl, show segment.virtualAddress + segment.fileSize < 2 ^ 64 by omega⟩
  have hsource : ((bytes.drop segment.fileOffset).take segment.fileSize).length =
      segment.fileSize := by
    rw [length_take, length_drop]
    omega
  have hrange : ∀ start byteLen, segment.mappingAddress ≤ start →
    start + byteLen ≤ segment.mappingEnd →
      checkedImageRange result start byteLen = .ok (result.range start byteLen) :=
    fun start byteLen hle hlt => checkedImageRange_eq_ok hinside hle (by omega)
  refine bind_eq_ok.mpr ⟨_, hrange _ _ (by omega) (by omega), ?_⟩
  refine bind_eq_ok.mpr ⟨_, hrange _ _ (by omega) (by omega), ?_⟩
  refine bind_eq_ok.mpr ⟨_, okOr_eq_ok.mpr hsuffix, ?_⟩
  refine bind_eq_ok.mpr ⟨_, hrange _ _ (by omega) (by omega), ?_⟩
  refine bind_eq_ok.mpr ⟨_, okOr_eq_ok.mpr htail, ?_⟩
  refine bind_eq_ok.mpr ⟨_, hrange _ _ (by omega) (by omega), ?_⟩
  refine bind_eq_ok.mpr ⟨_, validatedSlice_eq_ok hfile hbounded, ?_⟩
  refine bind_eq_ok.mpr ⟨_, hrange _ _ (by omega) (by omega), ?_⟩
  exact if_neg (not_not.mpr hsource.symm)

theorem buildInterSegmentGap_eq_ok {first second : LoadSegment} (hfirst : Inside result first)
    (hsecond : Inside result second) (h : first.mappingEnd ≤ second.mappingAddress) :
    buildInterSegmentGap result first second = .ok (gapOf result first second) := by
  have hlen : checkedSub second.mappingAddress first.mappingEnd =
      some (second.mappingAddress - first.mappingEnd) := checkedSub_eq_some.mpr (by omega)
  have hstop := hsecond.stop
  rw [LoadSegment.mappingEnd] at hstop
  refine bind_eq_ok.mpr ⟨_, okOr_eq_ok.mpr hlen, ?_⟩
  exact checkedImageRange_eq_ok hfirst (Nat.le_add_right ..) (by omega)

/-! ### The ranges of the plan -/

/-- The mappings and the gaps make up the image, and the parts of a segment its mapping. -/
structure Partitions (materialization : MaterializationPlan) : Prop where
  image : Tiles 0 [materialization.segments.first.mapping, materialization.firstToSecond,
    materialization.segments.second.mapping, materialization.secondToThird,
    materialization.segments.third.mapping] materialization.imageLen
  mappings : ∀ segment ∈ materialization.segments.toList,
    Tiles segment.mapping.offsetFromImageStart [segment.zeroFill.mappingPrefix,
      segment.copy.destination, segment.zeroFill.memorySuffix, segment.zeroFill.mappingTail]
      (segment.mapping.offsetFromImageStart + segment.mapping.byteLen)

theorem tiles_instructionsOf (h : Lies bytes segment) (hinside : Inside result segment)
    (ordinal : SegmentOrdinal) :
    Tiles (segment.mappingAddress - result.imageStart)
      [(instructionsOf bytes result ordinal segment).zeroFill.mappingPrefix,
        (instructionsOf bytes result ordinal segment).copy.destination,
        (instructionsOf bytes result ordinal segment).zeroFill.memorySuffix,
        (instructionsOf bytes result ordinal segment).zeroFill.mappingTail]
      (segment.mappingAddress - result.imageStart + segment.mappingSize) := by
  obtain ⟨haddress, hmemory⟩ := h.order
  have hsize := h.memorySize
  have hstart := hinside.start
  simp only [Tiles, instructionsOf, LoadPlan.range, LoadSegment.memoryEnd, LoadSegment.mappingEnd,
    true_and] at hmemory ⊢
  omega

theorem Laid.partitions (h : Laid bytes raws result) :
    Partitions (materializationOf bytes result) := by
  have hinside := h.inside
  have hlies := h.lies
  have hfollow := h.follow
  have hfollow' := h.follow'
  have hstart := h.imageStart
  have hend := h.imageEnd
  simp only [PerSegment.toList, forall_mem_cons] at hinside hlies
  constructor
  · have hthird := hinside.2.2.1.start
    simp only [Tiles, materializationOf, instructionsOf, gapOf, LoadPlan.range, LoadPlan.imageLen,
      LoadSegment.mappingEnd] at hfollow hfollow' hend ⊢
    omega
  · simp only [PerSegment.toList, materializationOf, forall_mem_cons]
    exact ⟨tiles_instructionsOf hlies.1 hinside.1 .first,
      tiles_instructionsOf hlies.2.1 hinside.2.1 .second,
      tiles_instructionsOf hlies.2.2.1 hinside.2.2.1 .third, forall_mem_nil _⟩

theorem Laid.buildMaterialization_eq_ok (h : Laid bytes raws result) :
    buildMaterialization bytes result = .ok (materializationOf bytes result) := by
  have hinside := h.inside
  have hlies := h.lies
  simp only [PerSegment.toList, forall_mem_cons] at hinside hlies
  have hbounded := hinside.1.bounded
  have hlen : checkedSub result.imageEnd result.imageStart = some result.imageLen := by
    have hstart := hinside.1.start
    have hstop := hinside.1.stop
    rw [LoadSegment.mappingEnd] at hstop
    exact checkedSub_eq_some.mpr (by rw [LoadPlan.imageLen]; omega)
  have hcover := coverFrom_eq_ok h.partitions.image (by
    show result.imageEnd - result.imageStart < 2 ^ 64
    omega)
  refine bind_eq_ok.mpr ⟨_, buildSegmentInstructions_eq_ok hlies.1 hinside.1 h.bounded .first, ?_⟩
  refine bind_eq_ok.mpr ⟨_, buildSegmentInstructions_eq_ok hlies.2.1 hinside.2.1 h.bounded .second,
    ?_⟩
  refine bind_eq_ok.mpr ⟨_, buildSegmentInstructions_eq_ok hlies.2.2.1 hinside.2.2.1
    h.bounded .third, ?_⟩
  refine bind_eq_ok.mpr ⟨_, buildInterSegmentGap_eq_ok hinside.1 hinside.2.1 h.follow, ?_⟩
  refine bind_eq_ok.mpr ⟨_, buildInterSegmentGap_eq_ok hinside.2.1 hinside.2.2.1 h.follow', ?_⟩
  refine bind_eq_ok.mpr ⟨_, okOr_eq_ok.mpr hlen, ?_⟩
  refine seq_eq_ok.mpr ⟨bind_eq_ok.mpr ⟨_, hcover, if_neg (not_not.mpr rfl)⟩, rfl⟩

/-! ### Copies -/

theorem length_copyInto (h : start + source.length ≤ buffer.length) :
    (copyInto buffer start source).length = buffer.length := by
  simp only [copyInto, length_append, length_take, length_drop]
  omega

theorem getElem?_copyInto (h : start + source.length ≤ buffer.length) (i : Nat) :
    (copyInto buffer start source)[i]? =
      if start ≤ i ∧ i < start + source.length then source[i - start]? else buffer[i]? := by
  have hstart : (buffer.take start).length = start := by
    rw [length_take]
    omega
  rw [copyInto]
  split
  · rw [getElem?_append_left (by rw [length_append, hstart]; omega),
      getElem?_append_right (by omega), hstart]
  · by_cases hlt : i < start
    · rw [append_assoc, getElem?_append_left (by omega), getElem?_take_of_lt hlt]
    · rw [getElem?_append_right (by rw [length_append, hstart]; omega), getElem?_drop,
        length_append, hstart]
      congr 1
      omega

def copyAll (buffer : List UInt8) (copies : List (Nat × List UInt8)) : List UInt8 :=
  copies.foldl (fun buffer copy => copyInto buffer copy.1 copy.2) buffer

variable {copies : List (Nat × List UInt8)}

theorem length_copyAll (hfit : ∀ copy ∈ copies, copy.1 + copy.2.length ≤ buffer.length) :
    (copyAll buffer copies).length = buffer.length := by
  induction copies generalizing buffer with
  | nil => rfl
  | cons first rest ih =>
    obtain ⟨hfirst, hrest⟩ := forall_mem_cons.mp hfit
    have hlength := length_copyInto hfirst
    exact (ih (by rwa [hlength])).trans hlength

/-- A byte that no copy reaches is the one from before. -/
theorem getElem?_copyAll_of_outside (hfit : ∀ copy ∈ copies, copy.1 + copy.2.length ≤ buffer.length)
    (hout : ∀ copy ∈ copies, ¬(copy.1 ≤ i ∧ i < copy.1 + copy.2.length)) :
    (copyAll buffer copies)[i]? = buffer[i]? := by
  induction copies generalizing buffer with
  | nil => rfl
  | cons first rest ih =>
    obtain ⟨hfirst, hrest⟩ := forall_mem_cons.mp hfit
    obtain ⟨houtside, hrestOut⟩ := forall_mem_cons.mp hout
    calc (copyAll (copyInto buffer first.1 first.2) rest)[i]?
        = (copyInto buffer first.1 first.2)[i]? := ih (by rwa [length_copyInto hfirst]) hrestOut
      _ = buffer[i]? := (getElem?_copyInto hfirst i).trans (if_neg houtside)

/-- Of copies that do not meet, each keeps its bytes. -/
theorem getElem?_copyAll_of_mem (hfit : ∀ copy ∈ copies, copy.1 + copy.2.length ≤ buffer.length)
    (hapart : copies.Pairwise fun left right => left.1 + left.2.length ≤ right.1)
    {copy : Nat × List UInt8} (hmem : copy ∈ copies) (hstart : copy.1 ≤ i)
    (hend : i < copy.1 + copy.2.length) : (copyAll buffer copies)[i]? = copy.2[i - copy.1]? := by
  induction copies generalizing buffer with
  | nil => nomatch hmem
  | cons first rest ih =>
    obtain ⟨hfirst, hrest⟩ := forall_mem_cons.mp hfit
    obtain ⟨hbefore, hapart⟩ := pairwise_cons.mp hapart
    have hfits : ∀ copy ∈ rest,
        copy.1 + copy.2.length ≤ (copyInto buffer first.1 first.2).length := by
      rwa [length_copyInto hfirst]
    obtain rfl | hmem := mem_cons.mp hmem
    · -- no later copy reaches the bytes of this one
      have hnone : ∀ other ∈ rest, ¬(other.1 ≤ i ∧ i < other.1 + other.2.length) := by
        intro other hother hin
        have := hbefore other hother
        omega
      exact (getElem?_copyAll_of_outside hfits hnone).trans
        ((getElem?_copyInto hfirst i).trans (if_pos ⟨hstart, hend⟩))
    · exact ih hfits hapart hmem

/-- Where a segment's bytes go, and the bytes. -/
def copyOf (bytes : List UInt8) (plan : LoadPlan) (segment : LoadSegment) : Nat × List UInt8 :=
  (segment.virtualAddress - plan.imageStart, (bytes.drop segment.fileOffset).take segment.fileSize)

/-- The bytes of the segments, over zeros. -/
def imageOf (bytes : List UInt8) (plan : LoadPlan) : List UInt8 :=
  copyAll (List.replicate plan.imageLen 0) (plan.segments.toList.map (copyOf bytes plan))

theorem Lies.length_copyOf (h : Lies bytes segment) :
    (copyOf bytes result segment).2.length = segment.fileSize := by
  have hfile := h.fileEnd
  rw [LoadSegment.fileEnd] at hfile
  rw [copyOf, length_take, length_drop]
  omega

theorem Lies.copyOf_fits (h : Lies bytes segment) (hinside : Inside result segment) :
    (copyOf bytes result segment).1 + (copyOf bytes result segment).2.length ≤ result.imageLen := by
  obtain ⟨haddress, hmemory⟩ := h.order
  have hsize := h.memorySize
  have hstart := hinside.start
  have hstop := hinside.stop
  rw [h.length_copyOf, copyOf, LoadPlan.imageLen]
  rw [LoadSegment.memoryEnd] at hmemory
  omega

theorem checkedCopyBounds_eq_ok (h : Lies bytes segment) (hinside : Inside result segment)
    (ordinal : SegmentOrdinal) : ∃ stop,
    checkedCopyBounds result.imageLen (instructionsOf bytes result ordinal segment).copy =
      .ok ((copyOf bytes result segment).1, stop) := by
  have hfits := h.copyOf_fits hinside
  have hlength := @Lies.length_copyOf bytes result segment h
  have hbounded := hinside.bounded
  rw [hlength, copyOf] at hfits
  have hsum := checkedAdd_eq_some.mpr
    ⟨rfl, show segment.virtualAddress - result.imageStart + segment.fileSize < 2 ^ 64 by
      rw [LoadPlan.imageLen] at hfits
      omega⟩
  refine ⟨segment.virtualAddress - result.imageStart + segment.fileSize, bind_eq_ok.mpr ⟨_,
    okOr_eq_ok.mpr ?_, if_neg (not_not.mpr hlength.symm)⟩⟩
  show (checkedAdd (segment.virtualAddress - result.imageStart) segment.fileSize).filter _ = _
  rw [hsum, Option.filter_some, if_pos (decide_eq_true hfits)]

theorem Laid.materializeInto_eq {envelope : ValidatedEnvelope} (h : Laid bytes raws result)
    (henvelope : envelope.materialization = materializationOf bytes result)
    {destination : List UInt8} (hlength : destination.length = result.imageLen) :
    envelope.materializeInto destination = (.ok (), imageOf bytes result) := by
  have hinside := h.inside
  have hlies := h.lies
  simp only [PerSegment.toList, forall_mem_cons] at hinside hlies
  obtain ⟨firstStop, hfirst⟩ := checkedCopyBounds_eq_ok hlies.1 hinside.1 .first
  obtain ⟨secondStop, hsecond⟩ := checkedCopyBounds_eq_ok hlies.2.1 hinside.2.1 .second
  obtain ⟨thirdStop, hthird⟩ := checkedCopyBounds_eq_ok hlies.2.2.1 hinside.2.2.1 .third
  have hbounds : ((materializationOf bytes result).segments.toList.map (·.copy)).mapM
      (checkedCopyBounds result.imageLen) =
        .ok [((copyOf bytes result result.segments.first).1, firstStop),
          ((copyOf bytes result result.segments.second).1, secondStop),
        ((copyOf bytes result result.segments.third).1, thirdStop)] := by
    simp only [materializationOf, PerSegment.toList, map_cons, map_nil, mapM_cons,
      mapM_nil, hfirst, hsecond, hthird]
    rfl
  have hsame : ¬result.imageLen ≠ (materializationOf bytes result).imageLen := not_not.mpr rfl
  rw [ValidatedEnvelope.materializeInto, henvelope, hlength, if_neg hsame]
  simp only [hbounds]
  rfl

/-! ### The image -/

/-- The header's file bytes are loaded to the address. -/
def ProgramHeader.Covers (raw : ProgramHeader) (address : Nat) : Prop :=
  raw.virtualAddress ≤ address ∧ address < raw.virtualAddress + raw.fileSize

/-- The image that the load segments describe. -/
structure IsImage (bytes : List UInt8) (raws : List ProgramHeader) (plan : LoadPlan)
    (image : List UInt8) : Prop where
  length : image.length = plan.imageLen
  covered : ∀ raw ∈ raws, raw.isLoad = true → ∀ offset, raw.Covers (plan.imageStart + offset) →
    image[offset]? = bytes[raw.offset + (plan.imageStart + offset - raw.virtualAddress)]?
  zero : ∀ offset < plan.imageLen,
    (∀ raw ∈ raws, raw.isLoad = true → ¬raw.Covers (plan.imageStart + offset)) →
      image[offset]? = some 0

/-- The bytes of the file from an offset on appear at an address. -/
def Shows (bytes image : List UInt8) (imageStart address offset size : Nat) : Prop :=
  imageStart ≤ address ∧ ∀ i < size, image[address - imageStart + i]? = bytes[offset + i]?

section Laid

variable (h : Laid bytes raws result)

include h

theorem Laid.segments_follow : result.segments.toList.Pairwise fun left right =>
    left.mappingEnd ≤ right.mappingAddress := by
  have hsecond : result.segments.second.mappingAddress ≤ result.segments.second.mappingEnd :=
    Nat.le_add_right ..
  have hfollow := h.follow
  have hfollow' := h.follow'
  simp only [PerSegment.toList, pairwise_cons, forall_mem_cons]
  exact ⟨⟨hfollow, by omega, forall_mem_nil _⟩, ⟨hfollow', forall_mem_nil _⟩,
    forall_mem_nil _, .nil⟩

theorem Laid.exists_segment (hmem : raw ∈ raws) (hload : raw.isLoad = true) :
    ∃ segment ∈ result.segments.toList, PlannedFrom bytes raw segment := by
  obtain ⟨loads, hplanned, hperm⟩ := h.planned
  obtain ⟨segment, hsegment, hfrom⟩ :=
    exists_right_of_forall₂ hplanned (mem_filter.mpr ⟨hmem, hload⟩)
  exact ⟨segment, hperm.mem_iff.mpr hsegment, hfrom⟩

theorem Laid.exists_raw (hmem : segment ∈ result.segments.toList) :
    ∃ raw ∈ raws, raw.isLoad = true ∧ PlannedFrom bytes raw segment := by
  obtain ⟨loads, hplanned, hperm⟩ := h.planned
  exact exists_plannedFrom hplanned (hperm.mem_iff.mp hmem)

theorem Laid.imageStart_le (hmem : segment ∈ result.segments.toList) :
    result.imageStart ≤ segment.virtualAddress :=
  Nat.le_trans (h.inside segment hmem).start (h.lies segment hmem).order.1

theorem Laid.copies_fit : ∀ copy ∈ result.segments.toList.map (copyOf bytes result),
    copy.1 + copy.2.length ≤ (List.replicate result.imageLen (0 : UInt8)).length := by
  intro copy hcopy
  obtain ⟨segment, hmem, rfl⟩ := mem_map.mp hcopy
  rw [length_replicate]
  exact (h.lies segment hmem).copyOf_fits (h.inside segment hmem)

theorem Laid.copies_apart : (result.segments.toList.map (copyOf bytes result)).Pairwise
    fun left right => left.1 + left.2.length ≤ right.1 := by
  refine pairwise_map.mpr (h.segments_follow.imp_of_mem fun {left right} hleft hright hle => ?_)
  have horder := (h.lies left hleft).order.2
  have hsize := (h.lies left hleft).memorySize
  have haddress := (h.lies right hright).order.1
  have hfirst := h.imageStart_le hleft
  rw [(h.lies left hleft).length_copyOf, copyOf, copyOf]
  rw [LoadSegment.memoryEnd] at horder
  omega

theorem Laid.length_imageOf : (imageOf bytes result).length = result.imageLen :=
  (length_copyAll h.copies_fit).trans length_replicate

/-- A byte of a segment is that of the file. -/
theorem Laid.imageOf_covered (hmem : segment ∈ result.segments.toList)
    (hle : segment.virtualAddress ≤ result.imageStart + i)
    (hlt : result.imageStart + i < segment.virtualAddress + segment.fileSize) :
    (imageOf bytes result)[i]? =
      bytes[segment.fileOffset + (result.imageStart + i - segment.virtualAddress)]? := by
  have hfirst := h.imageStart_le hmem
  have hlength := @Lies.length_copyOf bytes result segment (h.lies segment hmem)
  have hcopy := getElem?_copyAll_of_mem h.copies_fit h.copies_apart (mem_map_of_mem hmem)
    (i := i) (by rw [copyOf]; omega) (by rw [hlength, copyOf]; omega)
  rw [imageOf, hcopy, copyOf, getElem?_take_of_lt (by omega), getElem?_drop]
  congr 1
  omega

/-- A byte of no segment is zero. -/
theorem Laid.imageOf_zero (hlt : i < result.imageLen)
    (hnone : ∀ segment ∈ result.segments.toList, ¬(segment.virtualAddress ≤ result.imageStart + i ∧
      result.imageStart + i < segment.virtualAddress + segment.fileSize)) :
    (imageOf bytes result)[i]? = some 0 := by
  rw [imageOf, getElem?_copyAll_of_outside h.copies_fit, getElem?_replicate, if_pos hlt]
  intro copy hcopy hin
  obtain ⟨segment, hmem, rfl⟩ := mem_map.mp hcopy
  have hfirst := h.imageStart_le hmem
  rw [(h.lies segment hmem).length_copyOf, copyOf] at hin
  exact hnone segment hmem (by omega)

theorem Laid.isImage : IsImage bytes raws result (imageOf bytes result) where
  length := h.length_imageOf
  covered raw hraw hload offset hcovers := by
    obtain ⟨segment, hmem, hfrom⟩ := h.exists_segment hraw hload
    rw [ProgramHeader.Covers, ← hfrom.virtualAddress, ← hfrom.fileSize] at hcovers
    rw [← hfrom.offset, ← hfrom.virtualAddress]
    exact h.imageOf_covered hmem hcovers.1 hcovers.2
  zero offset hlt hnone := by
    refine h.imageOf_zero hlt fun segment hmem hin => ?_
    obtain ⟨raw, hraw, hload, hfrom⟩ := h.exists_raw hmem
    rw [hfrom.virtualAddress, hfrom.fileSize] at hin
    exact hnone raw hraw hload hin

/-- What is loaded with a segment appears in the image. -/
theorem Laid.shows (hloaded : ∃ segment ∈ result.segments.toList, LoadedWith raw segment)
    {size : Nat} (hoffset : raw.offset ≤ offset)
    (hend : offset + size ≤ raw.offset + raw.fileSize) :
    Shows bytes (imageOf bytes result) result.imageStart
      (raw.virtualAddress + (offset - raw.offset)) offset size := by
  obtain ⟨segment, hmem, hwith⟩ := hloaded
  have hstart := (h.inside segment hmem).start
  have haddress := (h.lies segment hmem).order.1
  have hle := hwith.offset
  have hstop := hwith.fileEnd
  have hraw := hwith.address
  rw [LoadSegment.fileEnd] at hstop
  refine ⟨by omega, fun i hi => ?_⟩
  rw [h.imageOf_covered hmem (by omega) (by omega)]
  congr 1
  omega

/-- No address has bytes of two load segments. -/
theorem Laid.pairwise_covers : (raws.filter ProgramHeader.isLoad).Pairwise fun left right =>
    ∀ address, ¬(left.Covers address ∧ right.Covers address) := by
  obtain ⟨loads, hplanned, hperm⟩ := h.planned
  have hapart : loads.Pairwise fun left right =>
      left.mappingEnd ≤ right.mappingAddress ∨ right.mappingEnd ≤ left.mappingAddress :=
    hperm.pairwise (h.segments_follow.imp Or.inl) Or.symm
  refine pairwise_of_forall₂ hplanned hapart fun left right first second hleft hright hor
    address => ?_
  rintro ⟨hfirst, hsecond⟩
  rw [ProgramHeader.Covers, ← hleft.virtualAddress, ← hleft.fileSize] at hfirst
  rw [ProgramHeader.Covers, ← hright.virtualAddress, ← hright.fileSize] at hsecond
  obtain ⟨hleftStart, hleftEnd⟩ := hleft.lies.order
  obtain ⟨hrightStart, hrightEnd⟩ := hright.lies.order
  have hleftSize := hleft.lies.memorySize
  have hrightSize := hright.lies.memorySize
  rw [LoadSegment.memoryEnd] at hleftEnd hrightEnd
  omega

end Laid

/-! ### The theorem -/

/-- The three mappings. -/
structure Mapped (raws : List ProgramHeader) (plan : LoadPlan) : Prop where
  aligned : ∀ segment ∈ plan.segments.toList,
    loadAlignment ∣ segment.mappingAddress ∧ loadAlignment ∣ segment.mappingSize
  inside : ∀ segment ∈ plan.segments.toList,
    plan.imageStart ≤ segment.mappingAddress ∧ segment.mappingEnd ≤ plan.imageEnd
  apart : plan.segments.toList.Pairwise fun left right => left.mappingEnd ≤ right.mappingAddress
  separate : ∀ raw ∈ raws, raw.isLoad = true →
    ¬(raw.flags &&& pfExecute ≠ 0 ∧ raw.flags &&& pfWrite ≠ 0)

theorem Laid.mapped (h : Laid bytes raws result) : Mapped raws result where
  aligned segment hmem := by
    have hlies := h.lies segment hmem
    exact ⟨⟨_, hlies.mappingAddress.trans (Nat.mul_comm ..)⟩, _,
      hlies.mappingSize.trans (Nat.mul_comm ..)⟩
  inside segment hmem := ⟨(h.inside segment hmem).start, (h.inside segment hmem).stop⟩
  apart := h.segments_follow
  separate raw hraw hload := by
    obtain ⟨segment, -, hfrom⟩ := h.exists_segment hraw hload
    exact hfrom.separate

/-- A plan that succeeds has an image, and that is the one of the file's load segments: `validate`
    succeeds, and a buffer of the right length is filled with it. -/
theorem materialized_image_exact {bytes : List UInt8} {profile : AdmittedProfile}
    {result : LoadPlan} (h : plan bytes profile = .ok result) :
    ∃ header raws envelope phdr dynamic note,
      validateHeader bytes profile = .ok header ∧
      programHeaders bytes header (List.range header.programCount) = .ok raws ∧
      validate bytes profile = .ok envelope ∧ envelope.plan = result ∧
      envelope.materialization.imageLen = result.imageLen ∧
      Mapped raws result ∧ Partitions envelope.materialization ∧
      ((raws.filter ProgramHeader.isLoad).Pairwise fun left right =>
        ∀ address, ¬(left.Covers address ∧ right.Covers address)) ∧
      Described header raws result phdr dynamic note ∧
      (∀ destination, destination.length ≠ result.imageLen →
        ∃ error, envelope.materializeInto destination = (.error error, destination)) ∧
      ∀ destination, destination.length = result.imageLen →
        ∃ image, envelope.materializeInto destination = (.ok (), image) ∧
          IsImage bytes raws result image ∧
          Shows bytes image result.imageStart header.programOffset header.programOffset
            (header.programCount * programHeaderBytes) ∧
          Shows bytes image result.imageStart dynamic.virtualAddress dynamic.offset
            dynamic.fileSize ∧
          Shows bytes image result.imageStart
            (note.virtualAddress + (result.metadataNote.fileOffset - note.offset))
            result.metadataNote.fileOffset result.metadataNote.byteLen := by
  obtain ⟨header, raws, phdr, dynamic, note, hheader, hraws, hlaid, hdescribed⟩ := laid_of_plan h
  have hloaded := hdescribed.loaded
  simp only [forall_mem_cons] at hloaded
  obtain ⟨hphdr, hdynamic, hnote, -⟩ := hloaded
  obtain ⟨hmetadata, hmetadataEnd⟩ := hdescribed.metadata
  have hslice : result.metadataNote.fileOffset + result.metadataNote.byteLen ≤ bytes.length := by
    obtain ⟨segment, hmem, hwith⟩ := hnote
    have hfile := Nat.le_trans hwith.fileEnd (hlaid.lies segment hmem).fileEnd
    omega
  have hvalidate : validate bytes profile = .ok _ :=
    bind_eq_ok.mpr ⟨result, h, bind_eq_ok.mpr ⟨_, validatedSlice_eq_ok hslice hlaid.bounded,
      bind_eq_ok.mpr ⟨_, hlaid.buildMaterialization_eq_ok, rfl⟩⟩⟩
  refine ⟨header, raws, _, phdr, dynamic, note, hheader, hraws, hvalidate, rfl, rfl, hlaid.mapped,
    hlaid.partitions, hlaid.pairwise_covers, hdescribed, fun destination hne => ⟨_, if_pos hne⟩,
    fun destination hlength => ⟨_, hlaid.materializeInto_eq rfl hlength, hlaid.isImage, ?_, ?_,
      hlaid.shows hnote hmetadata hmetadataEnd⟩⟩
  · have hshows := hlaid.shows hphdr (Nat.le_refl _) (Nat.le_refl _)
    obtain ⟨hoffset, haddress, hsize⟩ := hdescribed.table
    rwa [Nat.sub_self, Nat.add_zero, hoffset, haddress, hsize] at hshows
  · have hshows := hlaid.shows hdynamic (Nat.le_refl _) (Nat.le_refl _)
    rwa [Nat.sub_self, Nat.add_zero] at hshows

/-! ### A code object -/

def encodeHeader (raw : ProgramHeader) : List UInt8 :=
  [leBytes 4 raw.headerType, leBytes 4 raw.flags, leBytes 8 raw.offset,
    leBytes 8 raw.virtualAddress, leBytes 8 raw.physicalAddress, leBytes 8 raw.fileSize,
      leBytes 8 raw.memorySize,
    leBytes 8 raw.alignment].flatten

/-- A header whose physical address is the virtual one. -/
def headerOf (index headerType flags offset address fileSize memorySize alignment : Nat) :
    ProgramHeader :=
  ⟨index, headerType, flags, offset, address, address, fileSize, memorySize, alignment⟩

/-- The headers of a small object, out of order. -/
def smallHeaders : List ProgramHeader :=
  [headerOf 0 ptPhdr pfRead 64 64 448 448 8,
    headerOf 1 ptLoad (pfRead ||| pfWrite) 616 8808 112 200 4096,
    headerOf 2 ptLoad pfRead 0 0 600 600 4096,
    headerOf 3 ptLoad (pfRead ||| pfExecute) 600 4696 16 16 4096,
    headerOf 4 ptDynamic (pfRead ||| pfWrite) 616 8808 112 112 8,
    headerOf 5 ptGnuRelro pfRead 616 8808 112 200 1,
    headerOf 6 ptGnuStack (pfRead ||| pfWrite) 0 0 0 0 0,
    headerOf 7 ptNote pfRead 512 512 24 24 4]

def smallObject : List UInt8 :=
  [[0x7f, 0x45, 0x4c, 0x46, 2, 1, 1, 64, 4, 0, 0, 0, 0, 0, 0, 0],
    leBytes 2 elfTypeDynamic, leBytes 2 elfMachineAmdgpu, leBytes 4 1, leBytes 8 0, leBytes 8 64,
    leBytes 8 0, leBytes 4 0x64c, leBytes 2 64, leBytes 2 56, leBytes 2 8, leBytes 6 0,
    smallHeaders.flatMap encodeHeader,
    leBytes 4 7, leBytes 4 4, leBytes 4 ntAmdgpuMetadata, amdgpuNoteName, [0], [0x80, 0, 0, 0],
    List.replicate 64 0, List.replicate 16 0xbf,
    [(dtSymtab, 0), (dtSyment, 24), (dtStrtab, 0), (dtStrsz, 8), (dtHash, 0), (dtGnuHash, 0),
      (dtNull, 0)].flatMap fun entry => leBytes 8 entry.1 ++ leBytes 8 entry.2].flatten

/-- The plan of the small object. -/
def smallPlan : LoadPlan where
  profile := .gfx942XnackOffCov6
  inputLen := 728
  segments := ⟨⟨0, 600, 0, 600, 0, 4096, .readOnly⟩, ⟨600, 16, 4696, 16, 4096, 4096, .readExecute⟩,
    ⟨616, 112, 8808, 200, 8192, 4096, .readWrite⟩⟩
  metadataNote := ⟨532, 4⟩
  imageStart := 0
  imageEnd := 12288

theorem materialized_image_exact_small :
    plan smallObject .gfx942XnackOffCov6 = .ok smallPlan ∧
    ∃ envelope, validate smallObject .gfx942XnackOffCov6 = .ok envelope ∧
      ∀ destination, destination.length = smallPlan.imageLen →
        ∃ image, envelope.materializeInto destination = (.ok (), image) := by
  have h : plan smallObject .gfx942XnackOffCov6 = .ok smallPlan := by decide +kernel
  obtain ⟨_, _, envelope, _, _, _, _, _, hvalidate, _, _, _, _, _, _, _, hfills⟩ :=
    materialized_image_exact h
  refine ⟨h, envelope, hvalidate, fun destination hlength => ?_⟩
  obtain ⟨image, himage, -⟩ := hfills destination hlength
  exact ⟨image, himage⟩

end Fe2o3.AmdhsaLoader
