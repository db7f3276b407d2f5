import Fe2o3.AmdhsaLoader.Envelope

/-!
# From the plan to the image

`validate`, the zero and copy instructions it binds to the bytes, and
`materialize_into`.

A `ZeroInstruction` is the range that it zeroes.  `materializeInto` returns the buffer as it
leaves it together with its result.
-/

namespace Fe2o3.AmdhsaLoader

open Lib
open Lib.Words

inductive SegmentOrdinal where
  | first
  | second
  | third
deriving DecidableEq

/-- A range relative to the start of the image. -/
structure ImageRange where
  offsetFromImageStart : Nat
  byteLen : Nat

structure SegmentSource where
  ordinal : SegmentOrdinal
  fileOffset : Nat
  bytes : List UInt8

structure SegmentZeroFill where
  mappingPrefix : ImageRange
  memorySuffix : ImageRange
  mappingTail : ImageRange

structure CopyInstruction where
  source : SegmentSource
  destination : ImageRange

/-- What one segment adds to the plan. -/
structure SegmentInstructions where
  mapping : ImageRange
  zeroFill : SegmentZeroFill
  copy : CopyInstruction

structure MaterializationPlan where
  imageLen : Nat
  firstToSecond : ImageRange
  secondToThird : ImageRange
  segments : PerSegment SegmentInstructions

structure ValidatedEnvelope where
  bytes : List UInt8
  plan : LoadPlan
  metadataDescriptor : List UInt8
  materialization : MaterializationPlan

inductive MaterializationError where
  | destinationLengthMismatch (expected actual : Nat)
  | copyRangeUnavailable (ordinal : SegmentOrdinal)
  | copyLengthMismatch (ordinal : SegmentOrdinal)

/-! ### Validation -/

def validatedSlice (bytes : List UInt8) (offset byteLen : Nat) : Planned (List UInt8) := do
  let stop ← okOr .validatedRangeUnavailable (checkedAdd offset byteLen)
  if bytes.length < stop then .error .validatedRangeUnavailable
  else .ok ((bytes.drop offset).take byteLen)

def checkedImageRange (plan : LoadPlan) (absoluteStart byteLen : Nat) : Planned ImageRange := do
  let imageLen ← okOr .materializationRangeInvalid (checkedSub plan.imageEnd plan.imageStart)
  let offset ← okOr .materializationRangeInvalid (checkedSub absoluteStart plan.imageStart)
  let stop ← okOr .materializationRangeInvalid (checkedAdd offset byteLen)
  if stop > imageLen then .error .materializationRangeInvalid else .ok ⟨offset, byteLen⟩

def buildSegmentInstructions (bytes : List UInt8) (plan : LoadPlan) (ordinal : SegmentOrdinal)
    (segment : LoadSegment) : Planned SegmentInstructions := do
  let mapping ← checkedImageRange plan segment.mappingAddress segment.mappingSize
  let mappingPrefix ← checkedImageRange plan segment.mappingAddress
    (segment.virtualAddress - segment.mappingAddress)
  let memorySuffixStart ← okOr .materializationRangeInvalid
    (checkedAdd segment.virtualAddress segment.fileSize)
  let memorySuffix ← checkedImageRange plan memorySuffixStart
    (segment.memorySize - segment.fileSize)
  let mappingTailLen ← okOr .materializationRangeInvalid
    (checkedSub segment.mappingEnd segment.memoryEnd)
  let mappingTail ← checkedImageRange plan segment.memoryEnd mappingTailLen
  let source ← validatedSlice bytes segment.fileOffset segment.fileSize
  let destination ← checkedImageRange plan segment.virtualAddress segment.fileSize
  if destination.byteLen ≠ source.length then .error .materializationRangeInvalid
  else .ok ⟨mapping, ⟨mappingPrefix, memorySuffix, mappingTail⟩,
    ⟨⟨ordinal, segment.fileOffset, source⟩, destination⟩⟩

def buildInterSegmentGap (plan : LoadPlan) (first second : LoadSegment) : Planned ImageRange := do
  let byteLen ← okOr .materializationRangeInvalid
    (checkedSub second.mappingAddress first.mappingEnd)
  checkedImageRange plan first.mappingEnd byteLen

/-- The ranges follow one another. -/
def coverFrom (expectedStart : Nat) : List ImageRange → Planned Nat
  | [] => .ok expectedStart
  | range :: ranges =>
    if range.offsetFromImageStart ≠ expectedStart then .error .materializationZeroCoverageMismatch
    else do
      let next ← okOr .materializationZeroCoverageMismatch (checkedAdd expectedStart range.byteLen)
      coverFrom next ranges

def validateZeroCoverage (ordered : List ImageRange) (imageLen : Nat) : Planned Unit := do
  let stop ← coverFrom 0 ordered
  if stop ≠ imageLen then .error .materializationZeroCoverageMismatch else .ok ()

def buildMaterialization (bytes : List UInt8) (plan : LoadPlan) : Planned MaterializationPlan := do
  let first ← buildSegmentInstructions bytes plan .first plan.segments.first
  let second ← buildSegmentInstructions bytes plan .second plan.segments.second
  let third ← buildSegmentInstructions bytes plan .third plan.segments.third
  let firstToSecond ← buildInterSegmentGap plan plan.segments.first plan.segments.second
  let secondToThird ← buildInterSegmentGap plan plan.segments.second plan.segments.third
  let imageLen ← okOr .materializationRangeInvalid (checkedSub plan.imageEnd plan.imageStart)
  validateZeroCoverage [first.mapping, firstToSecond, second.mapping, secondToThird, third.mapping]
    imageLen
  .ok ⟨imageLen, firstToSecond, secondToThird, ⟨first, second, third⟩⟩

def validate (bytes : List UInt8) (profile : AdmittedProfile) : Planned ValidatedEnvelope := do
  let plan ← plan bytes profile
  let metadataDescriptor ← validatedSlice bytes plan.metadataNote.fileOffset
    plan.metadataNote.byteLen
  let materialization ← buildMaterialization bytes plan
  .ok ⟨bytes, plan, metadataDescriptor, materialization⟩

/-! ### Materialization -/

def checkedCopyBounds (imageLen : Nat) (instruction : CopyInstruction) :
    Except MaterializationError (Nat × Nat) := do
  let range := instruction.destination
  let stop ← okOr (.copyRangeUnavailable instruction.source.ordinal)
    ((checkedAdd range.offsetFromImageStart range.byteLen).filter (· ≤ imageLen))
  if range.byteLen ≠ instruction.source.bytes.length then
    .error (.copyLengthMismatch instruction.source.ordinal)
  else .ok (range.offsetFromImageStart, stop)

/-- `copy_from_slice` into a part of the buffer. -/
def copyInto (buffer : List UInt8) (start : Nat) (source : List UInt8) : List UInt8 :=
  buffer.take start ++ source ++ buffer.drop (start + source.length)

def ValidatedEnvelope.materializeInto (envelope : ValidatedEnvelope) (destination : List UInt8) :
    Except MaterializationError Unit × List UInt8 :=
  let expected := envelope.materialization.imageLen
  if destination.length ≠ expected then
    (.error (.destinationLengthMismatch expected destination.length), destination)
  else
    let instructions := envelope.materialization.segments.toList.map (·.copy)
    match instructions.mapM (checkedCopyBounds destination.length) with
    | .error error => (.error error, destination)
    | .ok bounds =>
      (.ok (), (instructions.zip bounds).foldl
        (fun buffer (instruction, bound) => copyInto buffer bound.1 instruction.source.bytes)
        (List.replicate destination.length 0))

end Fe2o3.AmdhsaLoader
