import Mathlib

/-!
**The kernel types a virtual launch reads** (`types.rs`): address spaces, access modes,
scalar types and the target capabilities a module requires.
-/

namespace Fe2o3.KernelIr

inductive AddressSpace where
  | «private»
  | workgroup
  | global
  | constant
  | generic
deriving DecidableEq

inductive AccessMode where
  | readOnly
  | writeOnly
  | readWrite
deriving DecidableEq

inductive ScalarType where
  | bool
  | i8
  | i16
  | i32
  | i64
  | i128
  | u8
  | u16
  | u32
  | u64
  | u128
  | index
  | f16
  | bf16
  | f32
  | f64
deriving DecidableEq

namespace ScalarType

def bitWidth : ScalarType → Option Nat
  | bool => some 1
  | i8 | u8 => some 8
  | i16 | u16 | f16 | bf16 => some 16
  | i32 | u32 | f32 => some 32
  | i64 | u64 | f64 => some 64
  | i128 | u128 => some 128
  | index => none

end ScalarType

inductive SynchronizationScope where
  | invocation
  | subgroup
  | workgroup
  | device
  | system
deriving DecidableEq

inductive WaveWidth where
  | wave32
  | wave64
deriving DecidableEq

/-! ### Target capabilities -/

inductive TargetCapability where
  | float16
  | bFloat16
  | float64
  | int64
  | subgroups
  | subgroupSize (size : UInt32)
  | workgroupMemory
  | workgroupBarrier
  | atomic (widthBits : UInt16) (addressSpace : AddressSpace) (maxScope : SynchronizationScope)
  | dynamicWorkgroupMemory
  | extension (ns name : String)
  | waveWidth (width : WaveWidth)
deriving DecidableEq

end Fe2o3.KernelIr
