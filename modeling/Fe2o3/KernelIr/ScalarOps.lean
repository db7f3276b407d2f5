import Mathlib

/-!
**Fixed-width integer evaluators** (`fe2o3-kernel-ir/src/scalar_ops_v2.rs`,
`scalar_integer_evaluation_v3.rs`): binary and unary operations in their overflow modes,
shifts, comparisons and casts of integers of 8 to 128 bits.

One implementation serves all widths: operands are patterns that are masked to their
width, and signed operands are widened to `i128`.  Patterns are natural numbers here and
`i128` values integers; `u128` and `i128` reduce a result to what such a word can hold,
so that an intermediate result wraps as it does in the source.
-/

namespace Fe2o3.KernelIr.ScalarOps

/-! ### Types and operations -/

inductive IntWidth where
  | w8
  | w16
  | w32
  | w64
  | w128
  deriving DecidableEq

def IntWidth.bits : IntWidth → Nat
  | w8 => 8
  | w16 => 16
  | w32 => 32
  | w64 => 64
  | w128 => 128

inductive FloatWidth where
  | f16
  | f32
  | f64
  | f128
  deriving DecidableEq

inductive ScalarType where
  | bool
  | char
  | int (width : IntWidth) (signed : Bool)
  | float (width : FloatWidth)
  | pointer (addressSpace : UInt16) (width : IntWidth)
  deriving DecidableEq

inductive IntMode where
  | checked
  | wrapping
  | overflowing
  | saturating
  deriving DecidableEq

inductive IntBinary where
  | add
  | sub
  | mul
  | div
  | rem
  | and
  | or
  | xor
  deriving DecidableEq

inductive IntUnary where
  | neg
  | not
  deriving DecidableEq

inductive ShiftDirection where
  | left
  | right
  deriving DecidableEq

inductive ShiftPolicy where
  | checked
  | wrapping
  | overflowing
  | rustOperator (overflowChecks : Bool)
  deriving DecidableEq

inductive Predicate where
  | eq
  | ne
  | lt
  | le
  | gt
  | ge
  deriving DecidableEq

/-- The policies of the floating-point and pointer casts have one value each. -/
inductive Cast where
  | intExtend (signed : Bool)
  | intNarrow
  | floatExtend
  | floatNarrow
  | intToFloat
  | floatToInt
  | boolToInt
  | intToBoolChecked
  | charToInt
  | intToCharChecked
  | bitcast
  | pointerAddressSpace
  | pointerToInt
  | intToPointer
  deriving DecidableEq

inductive IntOutcome where
  | value (bits : Nat)
  | checkedNone
  | overflowing (value : Nat) (overflowed : Bool)
  | trap
  deriving DecidableEq

def intParts : ScalarType → Option (IntWidth × Bool)
  | .int width signed => some (width, signed)
  | _ => none

def validBoolBits (bits : Nat) : Bool := bits ≤ 1

/-! ### Words -/

/-- What is left of a result in an `i128`. -/
def i128 (r : Int) : Int := r.bmod (2 ^ 128)

/-- What is left of a result in a `u128`; also the cast of an `i128`. -/
def u128 (r : Int) : Nat := (r % 2 ^ 128).toNat

def mask (w : IntWidth) : Nat :=
  if w.bits == 128 then 2 ^ 128 - 1 else u128 (u128 (2 ^ w.bits) - 1)

def decodeSigned (v : Nat) (w : IntWidth) : Int :=
  if w.bits == 128 then i128 v
  else if v &&& u128 (2 ^ (w.bits - 1)) == 0 then i128 v
  else i128 (i128 v - i128 (2 ^ w.bits))

def signedBounds (w : IntWidth) : Int × Int :=
  if w.bits == 128 then (-2 ^ 127, 2 ^ 127 - 1)
  else (i128 (-i128 (2 ^ (w.bits - 1))), i128 (i128 (2 ^ (w.bits - 1)) - 1))

def encodeSigned (v : Int) (w : IntWidth) : Nat := u128 v &&& mask w

/-! ### Binary operations -/

variable (op : IntBinary)

/-- The operators and modes that `verify` lets pass for an integer type. -/
def validMode (mode : IntMode) : Bool :=
  match op with
  | .and | .or | .xor => mode == .wrapping
  | .rem => mode != .saturating
  | _ => true

/-- The `overflowing_` operations of an `i128`, from the exact result. -/
def overflowingI128 (r : Int) : Int × Bool := (i128 r, i128 r != r)

def overflowingU128 (r : Int) : Nat × Bool := (u128 r, (u128 r : Int) != r)

/-- The bitwise operators do not come here. -/
def signedOperation (x y : Int) : Int × Bool :=
  match op with
  | .add => overflowingI128 (x + y)
  | .sub => overflowingI128 (x - y)
  | .mul => overflowingI128 (x * y)
  | .div => (x.tdiv y, false)
  | .rem => (x.tmod y, false)
  | _ => (0, false)

def unsignedOperation (a b : Nat) : Nat × Bool :=
  match op with
  | .add => overflowingU128 (a + b)
  | .sub => overflowingU128 (a - b)
  | .mul => overflowingU128 (a * b)
  | .div => (a / b, false)
  | .rem => (a % b, false)
  | _ => (0, false)

/-- The bound to which a signed operation saturates that is out of range. -/
def signedSaturation (x y v min max : Int) : Int :=
  match op with
  | .add => if 0 ≤ y then max else min
  | .sub => if y < 0 then max else min
  | .mul => if decide (x < 0) == decide (y < 0) then max else min
  | _ => v

/-- The result, whether it is out of range, and the saturated result. -/
def signedBinary (w : IntWidth) (a b : Nat) : Nat × Bool × Nat :=
  let x := decodeSigned a w
  let y := decodeSigned b w
  let min := (signedBounds w).1
  let max := (signedBounds w).2
  if (op == .div || op == .rem) && x == min && y == -1 then
    (encodeSigned (if op == .div then min else 0) w, true,
      encodeSigned (if op == .div then max else 0) w)
  else
    let v := (signedOperation op x y).1
    let range := (signedOperation op x y).2 || v < min || max < v
    let sat := if range then signedSaturation op x y v min max else v
    (encodeSigned v w, range, encodeSigned sat w)

def unsignedBinary (w : IntWidth) (a b : Nat) : Nat × Bool × Nat :=
  let m := mask w
  let v := (unsignedOperation op a b).1
  let range := (unsignedOperation op a b).2 || m < v
  let sat := if range then (if op == .sub then 0 else m) else v
  (v &&& m, range, sat &&& m)

def outcome (mode : IntMode) (raw : Nat) (overflow : Bool) (saturated : Nat) : IntOutcome :=
  match mode with
  | .checked => if overflow then .checkedNone else .value raw
  | .wrapping => .value raw
  | .overflowing => .overflowing raw overflow
  | .saturating => .value (if overflow then saturated else raw)

/-- What is left of a binary operation when the bitwise operators are dealt with. -/
def evaluateArithmetic (w : IntWidth) (signed : Bool) (op : IntBinary) (mode : IntMode)
    (a b : Nat) : IntOutcome :=
  if (op == .div || op == .rem) && b == 0 then
    if mode == .checked then .checkedNone else .trap
  else
    let result := if signed then signedBinary op w a b else unsignedBinary op w a b
    outcome mode result.1 result.2.1 result.2.2

def evaluateIntegerBinary (ty : ScalarType) (op : IntBinary) (mode : IntMode)
    (left right : Nat) : Option IntOutcome := do
  let (w, signed) ← intParts ty
  if !validMode op mode then none
  else
    let a := left &&& mask w
    let b := right &&& mask w
    match op with
    | .and => some (.value (a &&& b))
    | .or => some (.value (a ||| b))
    | .xor => some (.value (a ^^^ b))
    | _ => some (evaluateArithmetic w signed op mode a b)

def evaluateIntegerUnary (ty : ScalarType) (op : IntUnary) (mode : IntMode) (value : Nat) :
    Option IntOutcome := do
  let (width, signed) ← intParts ty
  match op with
  | .neg => if signed then evaluateIntegerBinary ty .sub mode 0 value else none
  | .not =>
    if mode == .wrapping then evaluateIntegerBinary ty .xor mode value (mask width) else none

/-! ### Shifts, comparisons and casts -/

/-- A shift amount is read in full as a value of its own type. -/
def evaluateShift (ty rhsTy : ScalarType) (direction : ShiftDirection) (policy : ShiftPolicy)
    (value amountRaw : Nat) : Option IntOutcome := do
  let (w, signed) ← intParts ty
  let (rhsWidth, rhsSigned) ← intParts rhsTy
  let bits := w.bits
  let amount := amountRaw &&& mask rhsWidth
  let signedAmount := decodeSigned amount rhsWidth
  let invalid := if rhsSigned then signedAmount < 0 || bits ≤ u128 signedAmount else bits ≤ amount
  let n := amount % bits
  let v := value &&& mask w
  let out := match direction with
    | .left => u128 (v <<< n) &&& mask w
    | .right => if signed then encodeSigned (decodeSigned v w >>> n) w else v >>> n
  return match policy with
    | .checked => if invalid then .checkedNone else .value out
    | .wrapping => .value out
    | .overflowing => .overflowing out invalid
    | .rustOperator overflowChecks => if overflowChecks && invalid then .trap else .value out

def ordering (signed : Bool) (w : IntWidth) (left right : Nat) : Ordering :=
  if signed then compare (decodeSigned left w) (decodeSigned right w) else compare left right

def evaluateIntegerCompare (ty : ScalarType) (predicate : Predicate) (left right : Nat) :
    Option Bool := do
  let (width, signed) ← intParts ty
  let order := ordering signed width (left &&& mask width) (right &&& mask width)
  return match predicate with
    | .eq => order.isEq
    | .ne => !order.isEq
    | .lt => order.isLT
    | .le => !order.isGT
    | .gt => order.isGT
    | .ge => !order.isLT

def evaluateIntegerCast (source target : ScalarType) (cast : Cast) (value : Nat) : Option Nat :=
  if cast == .boolToInt && source == .bool && validBoolBits value then do
    let (width, _) ← intParts target
    return value &&& mask width
  else do
    let (sourceWidth, signed) ← intParts source
    let (targetWidth, _) ← intParts target
    let v := value &&& mask sourceWidth
    match cast with
    | .intExtend extendSigned =>
      if sourceWidth.bits < targetWidth.bits && signed == extendSigned then
        some (if signed then encodeSigned (decodeSigned v sourceWidth) targetWidth else v)
      else none
    | .intNarrow =>
      if targetWidth.bits < sourceWidth.bits then some (v &&& mask targetWidth) else none
    | .bitcast => if sourceWidth.bits == targetWidth.bits then some v else none
    | _ => none

end Fe2o3.KernelIr.ScalarOps
