import Fe2o3.KernelIr.ScalarOps

/-!
# The integer evaluators compute with integers

A pattern of a width stands for an integer, `decode`, and an integer is reduced to a
width by `encode`.  The abstract evaluators work on these integers and know nothing of
128-bit words: an operation has an exact result, the exact result may be outside the
range of the type, and the mode says what happens then.  The evaluators of the source
agree with them for every width, type, operator, mode and pair of patterns.
-/

namespace Fe2o3.KernelIr.ScalarOps

/-! ### Integers of a width -/

variable (w : IntWidth)

def low (signed : Bool) : Int := if signed then -2 ^ (w.bits - 1) else 0

def high (signed : Bool) : Int :=
  if signed then 2 ^ (w.bits - 1) - 1 else 2 ^ w.bits - 1

/-- The integer that a pattern stands for, in two's complement if it is signed. -/
def decode (signed : Bool) (v : Nat) : Int :=
  if signed then (v : Int).bmod (2 ^ w.bits) else (v : Int) % 2 ^ w.bits

def encode (r : Int) : Nat := (r % 2 ^ w.bits).toNat

def outside (signed : Bool) (r : Int) : Bool :=
  decide (r < low w signed ∨ high w signed < r)

abbrev Inside (signed : Bool) (r : Int) : Prop := low w signed ≤ r ∧ r ≤ high w signed

def clamp (signed : Bool) (r : Int) : Int :=
  if r < low w signed then low w signed else if high w signed < r then high w signed else r

/-! ### Exact evaluation -/

/-- The arithmetic operators; the bitwise ones work on patterns. -/
def exactResult (op : IntBinary) (x y : Int) : Int :=
  match op with
  | .add => x + y
  | .sub => x - y
  | .mul => x * y
  | .div => x.tdiv y
  | .rem => x.tmod y
  | _ => 0

/-- The integer that decides about an overflow: a remainder overflows with its quotient. -/
def decisiveResult (op : IntBinary) (x y : Int) : Int :=
  if op = .rem then x.tdiv y else exactResult op x y

def settle (signed : Bool) (mode : IntMode) (result : Int) (overflowed : Bool) : IntOutcome :=
  match mode with
  | .checked => if overflowed then .checkedNone else .value (encode w result)
  | .wrapping => .value (encode w result)
  | .overflowing => .overflowing (encode w result) overflowed
  | .saturating => .value (encode w (clamp w signed result))

def exactArithmetic (signed : Bool) (op : IntBinary) (mode : IntMode) (x y : Int) : IntOutcome :=
  if (op = .div ∨ op = .rem) ∧ y = 0 then if mode = .checked then .checkedNone else .trap
  else settle w signed mode (exactResult op x y) (outside w signed (decisiveResult op x y))

/-- The bitwise operators have one mode, and a remainder does not saturate. -/
def exactBinary (signed : Bool) (op : IntBinary) (mode : IntMode)
    (left right : Nat) : Option IntOutcome :=
  match op, mode with
  | .and, .wrapping => some (.value (encode w (left &&& right : Nat)))
  | .or, .wrapping => some (.value (encode w (left ||| right : Nat)))
  | .xor, .wrapping => some (.value (encode w (left ^^^ right : Nat)))
  | .and, _ | .or, _ | .xor, _ | .rem, .saturating => none
  | _, _ =>
    some (exactArithmetic w signed op mode (decode w signed left) (decode w signed right))

/-- Negation is for signed types, complement has no modes. -/
def exactUnary (signed : Bool) (op : IntUnary) (mode : IntMode) (value : Nat) : Option IntOutcome :=
  match op with
  | .neg =>
    let r := -decode w signed value
    if signed then some (settle w signed mode r (outside w signed r)) else none
  | .not => if mode = .wrapping then some (.value (encode w (-decode w signed value - 1))) else none

/-- A shift by `s` multiplies or divides by a power of two; the exponent is `s` modulo the width,
    and `s` is invalid if the exponent is not `s` itself. -/
def exactShift (direction : ShiftDirection) (policy : ShiftPolicy) (x s : Int) : IntOutcome :=
  let invalid := decide (s < 0 ∨ (w.bits : Int) ≤ s)
  let n := (s % w.bits).toNat
  let out := encode w (match direction with | .left => x * 2 ^ n | .right => x / 2 ^ n)
  match policy with
  | .checked => if invalid then .checkedNone else .value out
  | .wrapping => .value out
  | .overflowing => .overflowing out invalid
  | .rustOperator overflowChecks => if overflowChecks && invalid then .trap else .value out

def exactCompare (predicate : Predicate) (x y : Int) : Bool :=
  match predicate with
  | .eq => decide (x = y)
  | .ne => decide (x ≠ y)
  | .lt => decide (x < y)
  | .le => decide (x ≤ y)
  | .gt => decide (y < x)
  | .ge => decide (y ≤ x)

/-- Between integer types a cast that fits the widths converts the integer; a truth value is
    converted if it is one. -/
def exactCast (source target : ScalarType) (cast : Cast) (value : Nat) : Option Nat :=
  match source, target with
  | .bool, .int tw _ =>
    if cast = .boolToInt ∧ value ≤ 1 then some (encode tw value) else none
  | .int sw signed, .int tw _ =>
    if cast = .intExtend signed ∧ sw.bits < tw.bits ∨ cast = .intNarrow ∧ tw.bits < sw.bits ∨
        cast = .bitcast ∧ sw.bits = tw.bits then
      some (encode tw (decode sw signed value))
    else none
  | _, _ => none

/-! ### Words and residues -/

theorem two_pow_bits : (2 : Int) ^ w.bits = 2 * 2 ^ (w.bits - 1) := by
  cases w <;> rfl

theorem two_pow_le : (128 : Int) ≤ 2 ^ (w.bits - 1) ∧ (2 : Int) ^ (w.bits - 1) ≤ 2 ^ 127 := by
  cases w <;> decide

theorem two_pow_pos : (0 : Int) < 2 ^ w.bits :=
  Int.pow_pos (by decide)

theorem mask_eq : mask w = 2 ^ w.bits - 1 := by
  cases w <;> rfl

theorem signedBounds_eq : signedBounds w = (low w true, high w true) := by
  cases w <;> rfl

variable {w : IntWidth} {signed : Bool} {v : Nat} {r s x y : Int}
  {op : IntBinary}

theorem i128_eq_iff : i128 r = r ↔ -2 ^ 127 ≤ r ∧ r ≤ 2 ^ 127 - 1 := by
  have hlow : -(((2 ^ 128 : Nat) : Int) / 2) ≤ i128 r := Int.le_bmod (by decide)
  have hhigh : i128 r < (((2 ^ 128 : Nat) : Int) + 1) / 2 := Int.bmod_lt (by decide)
  constructor
  · omega
  · intro h
    exact Int.bmod_eq_of_le (by omega) (by omega)

theorem u128_eq_iff : (u128 r : Int) = r ↔ 0 ≤ r ∧ r ≤ 2 ^ 128 - 1 := by
  unfold u128
  omega

/-- Reduction to a width depends on the residue only. -/
theorem encode_eq_of_modEq (h : r ≡ s [ZMOD 2 ^ w.bits]) : encode w r = encode w s := by
  unfold encode
  rw [h]

theorem encode_natCast (w : IntWidth) (n : Nat) : encode w n = n % 2 ^ w.bits := by
  unfold encode
  rw [← Int.toNat_natCast (n % 2 ^ w.bits)]
  push_cast
  rfl

theorem and_mask_eq (w : IntWidth) (n : Nat) : n &&& mask w = encode w n := by
  rw [mask_eq, Nat.and_two_pow_sub_one_eq_mod, encode_natCast]

theorem u128_and_mask (w : IntWidth) (r : Int) : u128 r &&& mask w = encode w r := by
  have hword : (u128 r : Int) = r % 2 ^ 128 := Int.toNat_of_nonneg (Int.emod_nonneg r (by decide))
  have hdvd : (2 : Int) ^ w.bits ∣ 2 ^ 128 := pow_dvd_pow 2 (by cases w <;> decide)
  rw [and_mask_eq, hword]
  exact encode_eq_of_modEq (Int.emod_emod_of_dvd r hdvd)

theorem encodeSigned_eq (r : Int) (w : IntWidth) : encodeSigned r w = encode w r :=
  u128_and_mask w r

/-- An `i128` that has wrapped keeps its residue. -/
theorem encode_overflowing (w : IntWidth) (r : Int) :
    encode w (overflowingI128 r).1 = encode w r := by
  have hword : u128 (overflowingI128 r).1 = u128 r :=
    congrArg Int.toNat (Int.bmod_emod : r.bmod (2 ^ 128) % ((2 ^ 128 : Nat) : Int) = _)
  rw [← u128_and_mask, hword, u128_and_mask]

theorem decode_modEq (w : IntWidth) (signed : Bool) (v : Nat) :
    decode w signed v ≡ v [ZMOD 2 ^ w.bits] := by
  unfold decode
  cases signed with
  | false => exact Int.emod_emod_of_dvd _ (dvd_refl _)
  | true =>
    have h : (v : Int).bmod (2 ^ w.bits) % ((2 ^ w.bits : Nat) : Int) =
        v % ((2 ^ w.bits : Nat) : Int) := Int.bmod_emod
    push_cast at h
    exact h

/-- A masked pattern and its integer determine each other. -/
theorem and_mask_eq_decode (w : IntWidth) (signed : Bool) (v : Nat) :
    v &&& mask w = encode w (decode w signed v) :=
  (and_mask_eq w v).trans (encode_eq_of_modEq (decode_modEq w signed v).symm)

theorem natCast_and_mask (v : Nat) (w : IntWidth) :
    ((v &&& mask w : Nat) : Int) = decode w false v := by
  rw [and_mask_eq]
  exact Int.toNat_of_nonneg (Int.emod_nonneg _ (Int.ne_of_gt (two_pow_pos w)))

theorem decode_range (w : IntWidth) (signed : Bool) (v : Nat) :
    Inside w signed (decode w signed v) := by
  have hpos := Nat.two_pow_pos w.bits
  have hsplit := two_pow_bits w
  cases signed with
  | false =>
    exact ⟨Int.emod_nonneg _ (Int.ne_of_gt (two_pow_pos w)),
      Int.le_sub_one_of_lt (Int.emod_lt_of_pos _ (two_pow_pos w))⟩
  | true =>
    have hlow : -(((2 ^ w.bits : Nat) : Int) / 2) ≤ (v : Int).bmod (2 ^ w.bits) :=
      Int.le_bmod hpos
    have hhigh : (v : Int).bmod (2 ^ w.bits) < (((2 ^ w.bits : Nat) : Int) + 1) / 2 :=
      Int.bmod_lt hpos
    push_cast at hlow hhigh
    show -2 ^ (w.bits - 1) ≤ (v : Int).bmod (2 ^ w.bits) ∧
      (v : Int).bmod (2 ^ w.bits) ≤ 2 ^ (w.bits - 1) - 1
    omega

/-- The sign bit of a pattern of a narrow width decides how it is widened. -/
theorem decodeSigned_of_narrow (hw : w.bits ≠ 128) (h : v < 2 ^ w.bits) :
    decodeSigned v w = (v : Int).bmod (2 ^ w.bits) := by
  have hsplit : 2 ^ w.bits = 2 * 2 ^ (w.bits - 1) := by exact_mod_cast two_pow_bits w
  have hpos := Nat.two_pow_pos (w.bits - 1)
  have hwords : u128 (2 ^ (w.bits - 1)) = 2 ^ (w.bits - 1) ∧
      i128 (2 ^ w.bits) = ((2 ^ w.bits : Nat) : Int) ∧ 2 ^ w.bits ≤ 2 ^ 126 := by
    cases w <;> first | exact absurd rfl hw | decide +kernel
  obtain ⟨hsign, hpower, hbound⟩ := hwords
  have hsmall : i128 (v : Int) = v := i128_eq_iff.mpr (by omega)
  have hmod : (v : Int) % ((2 ^ w.bits : Nat) : Int) = v := Int.emod_eq_of_lt (by omega) (by omega)
  have htest : v &&& 2 ^ (w.bits - 1) = (v.testBit (w.bits - 1)).toNat * 2 ^ (w.bits - 1) :=
    Nat.and_two_pow v _
  unfold decodeSigned
  rw [if_neg (by simpa using hw), hsign, htest, hsmall, hpower, Int.bmod_def, hmod]
  obtain hlt | hge := Nat.lt_or_ge v (2 ^ (w.bits - 1))
  · rw [Nat.testBit_lt_two_pow hlt, if_pos (by simp), if_pos (by omega)]
  · have hset : v.testBit (w.bits - 1) = true :=
      Nat.testBit_of_two_pow_le_and_two_pow_add_one_gt hge (by rw [Nat.pow_succ']; omega)
    rw [hset, if_neg (by simp), if_neg (by omega)]
    exact i128_eq_iff.mpr (by omega)

/-- Widening to `i128` keeps the integer. -/
theorem decodeSigned_eq (v : Nat) (w : IntWidth) :
    decodeSigned (v &&& mask w) w = decode w true v := by
  have hmask : v &&& mask w = v % 2 ^ w.bits := by rw [and_mask_eq, encode_natCast]
  have hmod : ((v % 2 ^ w.bits : Nat) : Int).bmod (2 ^ w.bits) = decode w true v := by
    rw [Int.natCast_emod]
    exact Int.emod_bmod _ _
  rw [hmask, ← hmod]
  by_cases hw : w.bits = 128
  · rw [decodeSigned, if_pos (by simpa using hw), hw]
    rfl
  · exact decodeSigned_of_narrow hw (Nat.mod_lt _ (Nat.two_pow_pos _))

theorem mask_eq_high (w : IntWidth) : (mask w : Int) = high w false := by
  rw [mask_eq]
  exact Nat.cast_pred (Nat.two_pow_pos w.bits)

/-! ### Ranges -/

theorem not_outside (h : Inside w signed r) : outside w signed r = false :=
  decide_eq_false (by omega)

theorem zero_inside (w : IntWidth) (signed : Bool) : Inside w signed 0 := by
  cases w <;> cases signed <;> decide

theorem clamp_of_not_outside (h : outside w signed r = false) : clamp w signed r = r := by
  have hinside := of_decide_eq_false h
  unfold clamp
  rw [if_neg (by omega), if_neg (by omega)]

theorem clamp_of_lt (h : r < low w signed) : clamp w signed r = low w signed :=
  if_pos h

theorem clamp_of_gt (hlow : low w signed ≤ r) (h : high w signed < r) :
    clamp w signed r = high w signed := by
  unfold clamp
  rw [if_neg (Int.not_lt.mpr hlow), if_pos h]

/-- Only the least integer divided by `-1` leaves a two's complement range. -/
theorem tdiv_range {p : Int} (hp : 2 ≤ p) (hx : -p ≤ x ∧ x ≤ p - 1) (hy : y ≠ 0)
    (hspecial : ¬(x = -p ∧ y = -1)) : -p ≤ x.tdiv y ∧ x.tdiv y ≤ p - 1 := by
  obtain rfl | rfl | habs : y = 1 ∨ y = -1 ∨ 2 ≤ y.natAbs := by omega
  · rwa [Int.tdiv_one]
  · rw [Int.tdiv_neg, Int.tdiv_one]
    omega
  · have hquotient : (x.tdiv y).natAbs = x.natAbs / y.natAbs := Int.natAbs_tdiv x y
    have hle : x.natAbs / y.natAbs ≤ x.natAbs / 2 := Nat.div_le_div_left habs (by decide)
    omega

/-- A remainder is between zero and its dividend. -/
theorem tmod_range (y : Int) (hx : Inside w signed x) : Inside w signed (x.tmod y) := by
  obtain ⟨hlow, hhigh⟩ := zero_inside w signed
  have habs : (x.tmod y).natAbs = x.natAbs % y.natAbs := Int.natAbs_tmod x y
  have hle : x.natAbs % y.natAbs ≤ x.natAbs := Nat.mod_le _ _
  obtain hneg | hpos := Int.lt_or_le x 0
  · have hopposite : 0 ≤ (-x).tmod y := Int.tmod_nonneg y (by omega)
    rw [Int.neg_tmod] at hopposite
    omega
  · have hsign := Int.tmod_nonneg y hpos
    omega

/-- A result that is not reported is in range. -/
theorem not_outside_exactResult (hx : Inside w signed x)
    (h : outside w signed (decisiveResult op x y) = false) :
    outside w signed (exactResult op x y) = false := by
  by_cases hrem : op = .rem
  · subst hrem
    exact not_outside (tmod_range y hx)
  · rwa [decisiveResult, if_neg hrem] at h

/-! ### Operations on words -/

theorem signedOperation_eq (hx : Inside w true x)
    (hdiv : op = .div → y ≠ 0 ∧ ¬(x = low w true ∧ y = -1)) :
    signedOperation op x y = overflowingI128 (exactResult op x y) := by
  have hbounds := two_pow_le w
  have hword {z : Int} (hz : Inside w true z) : (z, false) = overflowingI128 z := by
    have hfits : i128 z = z := by
      change -2 ^ (w.bits - 1) ≤ z ∧ z ≤ 2 ^ (w.bits - 1) - 1 at hz
      exact i128_eq_iff.mpr (by omega)
    rw [overflowingI128, hfits, bne_self_eq_false]
  cases op with
  | add | sub | mul => rfl
  | div => exact hword (tdiv_range (by omega) hx (hdiv rfl).1 (hdiv rfl).2)
  | rem => exact hword (tmod_range y hx)
  | and | or | xor => exact hword (zero_inside w true)

theorem unsignedOperation_eq {a b : Nat} (ha : a < 2 ^ 128) :
    unsignedOperation op a b = overflowingU128 (exactResult op a b) := by
  have hword {n : Nat} (hn : n ≤ a) : (n, false) = overflowingU128 n := by
    have hfits : (u128 n : Int) = n := u128_eq_iff.mpr (by omega)
    rw [overflowingU128, hfits, bne_self_eq_false, Int.ofNat_inj.mp hfits]
  cases op with
  | add | sub | mul => rfl
  | div => exact hword (Nat.div_le_self a b)
  | rem => exact hword (Nat.mod_le a b)
  | and | or | xor => exact hword (Nat.zero_le a)

/-- The flag and the bounds together find out whether the exact result is outside. -/
theorem signed_range_eq (w : IntWidth) (r : Int) :
    ((overflowingI128 r).2 || decide ((overflowingI128 r).1 < low w true) ||
      decide (high w true < (overflowingI128 r).1)) = outside w true r := by
  have hbounds := two_pow_le w
  show (i128 r != r || decide (i128 r < low w true) || decide (high w true < i128 r)) = _
  by_cases h : i128 r = r
  · rw [h, bne_self_eq_false, Bool.false_or, outside, Bool.decide_or]
  · have hout : r < low w true ∨ high w true < r := by
      have hword := mt i128_eq_iff.mpr h
      show r < -2 ^ (w.bits - 1) ∨ 2 ^ (w.bits - 1) - 1 < r
      omega
    rw [bne_iff_ne.mpr h, Bool.true_or, Bool.true_or]
    exact (decide_eq_true hout).symm

theorem unsigned_range_eq (w : IntWidth) (r : Int) :
    ((u128 r : Int) != r || decide (mask w < u128 r)) = outside w false r := by
  have hbounds := two_pow_le w
  have hsplit := two_pow_bits w
  have hmask := mask_eq_high w
  have hlow : low w false = 0 := rfl
  have hhigh : high w false = 2 ^ w.bits - 1 := rfl
  rw [Bool.eq_iff_iff, Bool.or_eq_true, bne_iff_ne, decide_eq_true_iff, outside,
    decide_eq_true_iff]
  by_cases h : (u128 r : Int) = r
  · omega
  · have hword := mt u128_eq_iff.mpr h
    omega

/-! ### Arithmetic of a width -/

/-- What both branches of an arithmetic operation come to. -/
def exactParts (w : IntWidth) (signed : Bool) (op : IntBinary) (x y : Int) : Nat × Bool × Nat :=
  (encode w (exactResult op x y), outside w signed (decisiveResult op x y),
    encode w (clamp w signed (exactResult op x y)))

theorem parts_eq {sat : Nat} (hx : Inside w signed x)
    (hquotient : op = .rem → Inside w signed (x.tdiv y))
    (hsat : sat = encode w (clamp w signed (exactResult op x y))) :
    (encode w (exactResult op x y), outside w signed (exactResult op x y), sat) =
      exactParts w signed op x y := by
  have hdecisive : outside w signed (decisiveResult op x y) =
      outside w signed (exactResult op x y) := by
    by_cases hrem : op = .rem
    · subst hrem
      exact (not_outside (hquotient rfl)).trans (not_outside (tmod_range y hx)).symm
    · rw [decisiveResult, if_neg hrem]
  rw [exactParts, hdecisive, hsat]

/-- A result outside the range saturates to the bound that it has passed. -/
theorem signedSaturation_eq {v : Int} (hx : Inside w true x)
    (hdiv : op = .div → y ≠ 0 ∧ ¬(x = low w true ∧ y = -1))
    (hout : outside w true (exactResult op x y) = true) :
    signedSaturation op x y v (low w true) (high w true) = clamp w true (exactResult op x y) := by
  have hsides := of_decide_eq_true hout
  have hbounds := two_pow_le w
  have hzero := zero_inside w true
  have hclamp (upper : Prop) [Decidable upper] (hupper : upper → low w true ≤ exactResult op x y)
      (hlower : ¬upper → exactResult op x y ≤ high w true) :
      (if upper then high w true else low w true) = clamp w true (exactResult op x y) := by
    by_cases h : upper
    · rw [if_pos h, clamp_of_gt (hupper h) (by have := hupper h; omega)]
    · rw [if_neg h, clamp_of_lt (by have := hlower h; omega)]
  -- In each case the signs of the operands decide on which side the result is.
  cases op with
  | add =>
    exact hclamp _ (fun h => by show _ ≤ x + y; omega) fun h => by show x + y ≤ _; omega
  | sub =>
    exact hclamp _ (fun h => by show _ ≤ x - y; omega) fun h => by show x - y ≤ _; omega
  | mul =>
    simp only [signedSaturation, beq_iff_eq, decide_eq_decide]
    apply hclamp
    · intro hsigns
      refine hzero.1.trans ?_
      obtain hneg | hpos := Int.lt_or_le x 0
      · exact Int.mul_nonneg_of_nonpos_of_nonpos (Int.le_of_lt hneg) (by omega)
      · exact Int.mul_nonneg hpos (by omega)
    · intro hsigns
      refine Int.le_trans ?_ hzero.2
      obtain hneg | hpos := Int.lt_or_le x 0
      · exact Int.mul_nonpos_of_nonpos_of_nonneg (Int.le_of_lt hneg) (by omega)
      · exact Int.mul_nonpos_of_nonneg_of_nonpos hpos (by omega)
  | div =>
    have hrange := tdiv_range (by omega) hx (hdiv rfl).1 (hdiv rfl).2
    exact absurd hout (Bool.eq_false_iff.mp (not_outside hrange))
  | rem => exact absurd hout (Bool.eq_false_iff.mp (not_outside (tmod_range y hx)))
  | and | or | xor => exact absurd hout (Bool.eq_false_iff.mp (not_outside hzero))

theorem tdiv_neg_one_low (w : IntWidth) :
    (low w true).tdiv (-1) = high w true + 1 ∧ (low w true).tmod (-1) = 0 := by
  rw [Int.tdiv_neg, Int.tdiv_one, Int.tmod_neg, Int.tmod_one]
  exact ⟨by show - -2 ^ (w.bits - 1) = 2 ^ (w.bits - 1) - 1 + 1; omega, rfl⟩

/-- The least integer and `-1`, where the quotient is out of range by one. -/
theorem exactParts_special (hop : op = .div ∨ op = .rem) :
    (encode w (if op == .div then low w true else 0), true,
      encode w (if op == .div then high w true else 0)) =
      exactParts w true op (low w true) (-1) := by
  obtain ⟨hquotient, hremainder⟩ := tdiv_neg_one_low w
  have hzero := zero_inside w true
  have hout : outside w true (high w true + 1) = true := decide_eq_true (by omega)
  obtain rfl | rfl := hop
  · have hwrapped : encode w (low w true) = encode w (high w true + 1) := by
      apply encode_eq_of_modEq
      refine Int.modEq_iff_dvd.mpr ⟨1, ?_⟩
      show 2 ^ (w.bits - 1) - 1 + 1 - -2 ^ (w.bits - 1) = _
      rw [two_pow_bits]
      omega
    have hclamp : clamp w true (high w true + 1) = high w true := clamp_of_gt (by omega) (by omega)
    show (encode w (low w true), true, encode w (high w true)) =
      (encode w ((low w true).tdiv (-1)), outside w true ((low w true).tdiv (-1)),
        encode w (clamp w true ((low w true).tdiv (-1))))
    rw [hquotient, hout, hclamp, hwrapped]
  · have hclamp : clamp w true 0 = 0 := clamp_of_not_outside (not_outside hzero)
    show (encode w 0, true, encode w 0) =
      (encode w ((low w true).tmod (-1)), outside w true ((low w true).tdiv (-1)),
        encode w (clamp w true ((low w true).tmod (-1))))
    rw [hquotient, hremainder, hout, hclamp]

theorem signedBinary_eq (op : IntBinary) (w : IntWidth) (left right : Nat)
    (hdiv : op = .div ∨ op = .rem → decode w true right ≠ 0) :
    signedBinary op w (left &&& mask w) (right &&& mask w) =
      exactParts w true op (decode w true left) (decode w true right) := by
  have hrange := decode_range w true left
  have hbounds := two_pow_le w
  simp only [signedBinary, signedBounds_eq, decodeSigned_eq, encodeSigned_eq]
  generalize decode w true left = x at *
  generalize decode w true right = y at *
  have hguard : ((op == .div || op == .rem) && x == low w true && y == -1) = true ↔
      (op = .div ∨ op = .rem) ∧ x = low w true ∧ y = -1 := by
    simp only [Bool.and_eq_true, Bool.or_eq_true, beq_iff_eq, and_assoc]
  by_cases hspecial : (op = .div ∨ op = .rem) ∧ x = low w true ∧ y = -1
  · rw [if_pos (hguard.mpr hspecial), hspecial.2.1, hspecial.2.2]
    exact exactParts_special hspecial.1
  · have hdivides (hop : op = .div ∨ op = .rem) : y ≠ 0 ∧ ¬(x = low w true ∧ y = -1) :=
      ⟨hdiv hop, fun h => hspecial ⟨hop, h⟩⟩
    rw [if_neg (mt hguard.mp hspecial), signedOperation_eq hrange fun hop => hdivides (.inl hop)]
    simp only [signed_range_eq, encode_overflowing]
    refine parts_eq hrange
      (fun hop => tdiv_range (by omega) hrange (hdivides (.inr hop)).1 (hdivides (.inr hop)).2) ?_
    cases hout : outside w true (exactResult op x y) with
    | false => rw [if_neg (by decide), encode_overflowing, clamp_of_not_outside hout]
    | true =>
      rw [if_pos rfl, signedSaturation_eq hrange (fun hop => hdivides (.inl hop)) hout]

theorem exactResult_nonneg {m n : Nat} (h : op ≠ .sub) : 0 ≤ exactResult op (m : Int) n := by
  cases op with
  | add => exact Int.natCast_nonneg (m + n)
  | sub => exact absurd rfl h
  | mul => exact Int.natCast_nonneg (m * n)
  | div => exact Int.natCast_nonneg (m / n)
  | rem => exact Int.natCast_nonneg (m % n)
  | and | or | xor => exact Int.le_refl 0

theorem unsignedBinary_eq (op : IntBinary) (w : IntWidth) (left right : Nat) :
    unsignedBinary op w (left &&& mask w) (right &&& mask w) =
      exactParts w false op (decode w false left) (decode w false right) := by
  have hrange := decode_range w false left
  have hmask := mask_eq_high w
  have hbounds := two_pow_le w
  have hsplit := two_pow_bits w
  have hhigh : high w false = 2 ^ w.bits - 1 := rfl
  rw [← natCast_and_mask left w] at hrange ⊢
  rw [← natCast_and_mask right w]
  generalize left &&& mask w = a at *
  generalize right &&& mask w = b at *
  simp only [unsignedBinary, unsignedOperation_eq (show a < 2 ^ 128 by omega), overflowingU128,
    unsigned_range_eq, u128_and_mask]
  refine parts_eq hrange ?_ ?_
  · intro _
    have hle : (a : Int).tdiv b ≤ a := Int.ofNat_le.mpr (Nat.div_le_self _ _)
    exact ⟨Int.natCast_nonneg (a / b), hle.trans hrange.2⟩
  · cases hout : outside w false (exactResult op a b) with
    | false => rw [if_neg (by decide), u128_and_mask, clamp_of_not_outside hout]
    | true =>
      have hsides := of_decide_eq_true hout
      rw [if_pos rfl, and_mask_eq]
      by_cases hsub : op = .sub
      · subst hsub
        change (a - b : Int) < low w false ∨ _ < (a - b : Int) at hsides
        show encode w 0 = encode w (clamp w false (a - b))
        rw [clamp_of_lt (by omega)]
        rfl
      · have hnonneg : low w false ≤ exactResult op (a : Int) b := exactResult_nonneg hsub
        rw [clamp_of_gt hnonneg (by omega), ← hmask, if_neg (by simpa using hsub)]

/-! ### Binary and unary operations -/

theorem outcome_eq {overflowed : Bool} (mode : IntMode)
    (h : overflowed = false → clamp w signed r = r) :
    outcome mode (encode w r) overflowed (encode w (clamp w signed r)) =
      settle w signed mode r overflowed := by
  cases mode with
  | checked => rfl
  | wrapping => rfl
  | overflowing => rfl
  | saturating =>
    cases overflowed with
    | false => exact congrArg (fun z => IntOutcome.value (encode w z)) (h rfl).symm
    | true => rfl

theorem decode_eq_zero (w : IntWidth) (signed : Bool) (v : Nat) :
    v &&& mask w = 0 ↔ decode w signed v = 0 := by
  constructor
  · intro h
    cases signed with
    | false =>
      rw [← natCast_and_mask, h]
      rfl
    | true =>
      rw [← decodeSigned_eq, h]
      cases w <;> rfl
  · intro h
    rw [and_mask_eq_decode w signed v, h]
    cases w <;> rfl

variable (w signed op) (mode : IntMode) (left right : Nat)

theorem evaluateArithmetic_eq :
    evaluateArithmetic w signed op mode (left &&& mask w) (right &&& mask w) =
      exactArithmetic w signed op mode (decode w signed left) (decode w signed right) := by
  have hguard : ((op == .div || op == .rem) && right &&& mask w == 0) = true ↔
      (op = .div ∨ op = .rem) ∧ decode w signed right = 0 := by
    rw [Bool.and_eq_true, Bool.or_eq_true, beq_iff_eq, beq_iff_eq, beq_iff_eq,
      decode_eq_zero w signed]
  unfold evaluateArithmetic exactArithmetic
  by_cases hzero : (op = .div ∨ op = .rem) ∧ decode w signed right = 0
  · rw [if_pos (hguard.mpr hzero), if_pos hzero]
    simp only [beq_iff_eq]
  · rw [if_neg (mt hguard.mp hzero), if_neg hzero]
    have hparts : (if signed then signedBinary op w (left &&& mask w) (right &&& mask w)
        else unsignedBinary op w (left &&& mask w) (right &&& mask w)) =
        exactParts w signed op (decode w signed left) (decode w signed right) := by
      cases signed with
      | false => exact unsignedBinary_eq op w left right
      | true => exact signedBinary_eq op w left right fun hop h => hzero ⟨hop, h⟩
    rw [hparts]
    exact outcome_eq mode fun h =>
      clamp_of_not_outside (not_outside_exactResult (decode_range w signed left) h)

theorem evaluateIntegerBinary_eq :
    evaluateIntegerBinary (.int w signed) op mode left right =
      exactBinary w signed op mode left right := by
  have harithmetic := congrArg some (evaluateArithmetic_eq w signed op mode left right)
  cases op with
  | add | sub | mul | div => exact harithmetic
  | rem =>
    cases mode with
    | saturating => rfl
    | checked | wrapping | overflowing => exact harithmetic
  | and | or | xor =>
    cases mode with
    | wrapping =>
      simp only [evaluateIntegerBinary, exactBinary, and_mask_eq, encode_natCast,
        Nat.and_mod_two_pow, Nat.or_mod_two_pow, Nat.xor_mod_two_pow]
      rfl
    | checked | saturating | overflowing => rfl

/-- The complement of a masked pattern. -/
theorem xor_mask_eq (n : Nat) : encode w n ^^^ mask w = encode w (-n - 1) := by
  have hlt : n % 2 ^ w.bits < 2 ^ w.bits := Nat.mod_lt _ (Nat.two_pow_pos _)
  have hxor : n % 2 ^ w.bits ^^^ (2 ^ w.bits - 1) = 2 ^ w.bits - (n % 2 ^ w.bits + 1) := by
    apply Nat.eq_of_testBit_eq
    intro i
    rw [Nat.testBit_xor, Nat.testBit_two_pow_sub_succ hlt, Nat.testBit_two_pow_sub_one,
      Nat.testBit_mod_two_pow]
    cases n.testBit i <;> cases decide (i < w.bits) <;> rfl
  have hcast : ((2 ^ w.bits - (n % 2 ^ w.bits + 1) : Nat) : Int) ≡ -n - 1 [ZMOD 2 ^ w.bits] := by
    refine Int.modEq_iff_dvd.mpr ⟨-(n / 2 ^ w.bits) - 1, ?_⟩
    have hdivision : (2 : Int) ^ w.bits * (n / 2 ^ w.bits) + n % 2 ^ w.bits = n :=
      Int.mul_ediv_add_emod _ _
    rw [Nat.cast_sub hlt, Int.mul_sub, Int.mul_neg]
    push_cast
    omega
  have hfits : 2 ^ w.bits - (n % 2 ^ w.bits + 1) < 2 ^ w.bits := by omega
  rw [encode_natCast, mask_eq, hxor, ← encode_eq_of_modEq hcast, encode_natCast,
    Nat.mod_eq_of_lt hfits]

theorem evaluateIntegerUnary_eq (op : IntUnary) (mode : IntMode) (value : Nat) :
    evaluateIntegerUnary (.int w signed) op mode value = exactUnary w signed op mode value := by
  cases op with
  | neg =>
    cases signed with
    | false => rfl
    | true =>
      have hzero : decode w true 0 = 0 := (decode_eq_zero w true 0).mp (Nat.zero_and _)
      refine (evaluateIntegerBinary_eq w true .sub mode 0 value).trans (congrArg some ?_)
      show settle w true mode (decode w true 0 - _) (outside w true (decode w true 0 - _)) = _
      rw [hzero, Int.zero_sub]
  | not =>
    by_cases hmode : mode = .wrapping
    · subst hmode
      refine congrArg (fun z => some (IntOutcome.value z)) ?_
      rw [Nat.and_self, and_mask_eq, xor_mask_eq]
      exact encode_eq_of_modEq ((decode_modEq w signed value).symm.neg.sub_right 1)
    · show (if mode == .wrapping then _ else none) = if mode = .wrapping then _ else none
      rw [if_neg hmode, if_neg (by simpa using hmode)]

/-! ### Shifts -/

theorem bits_dvd (amountWidth : IntWidth) : (w.bits : Int) ∣ 2 ^ amountWidth.bits := by
  have hbits : (w.bits : Int) ∣ 2 ^ 7 := by cases w <;> decide
  have hseven : 7 ≤ amountWidth.bits := by cases amountWidth <;> decide
  exact hbits.trans (pow_dvd_pow 2 hseven)

/-- The exponent, from the masked amount. -/
theorem amount_eq (amountWidth : IntWidth) (amount : Nat) :
    (amount &&& mask amountWidth) % w.bits = (decode amountWidth signed amount % w.bits).toNat := by
  have hmod : decode amountWidth signed amount % w.bits = ((amount % w.bits : Nat) : Int) :=
    (decode_modEq amountWidth signed amount).of_dvd (bits_dvd w amountWidth)
  have hdvd : w.bits ∣ 2 ^ amountWidth.bits := by exact_mod_cast bits_dvd w amountWidth
  rw [hmod, Int.toNat_natCast, and_mask_eq, encode_natCast, Nat.mod_mod_of_dvd _ hdvd]

theorem invalidAmount_eq (amountWidth : IntWidth) (amount : Nat) :
    (if signed then decide (decode amountWidth true amount < 0) ||
        decide (w.bits ≤ u128 (decode amountWidth true amount))
      else decide (w.bits ≤ amount &&& mask amountWidth)) =
      decide (decode amountWidth signed amount < 0 ∨
        (w.bits : Int) ≤ decode amountWidth signed amount) := by
  rw [Bool.eq_iff_iff, decide_eq_true_iff]
  cases signed with
  | false =>
    rw [if_neg (by decide), decide_eq_true_iff, ← natCast_and_mask]
    omega
  | true =>
    have hbounds := two_pow_le amountWidth
    have hrange := decode_range amountWidth true amount
    change -2 ^ (amountWidth.bits - 1) ≤ _ ∧ _ ≤ 2 ^ (amountWidth.bits - 1) - 1 at hrange
    rw [if_pos rfl, Bool.or_eq_true, decide_eq_true_iff, decide_eq_true_iff]
    obtain hneg | hnonneg := Int.lt_or_le (decode amountWidth true amount) 0
    · simp only [hneg, true_or]
    · have hword := u128_eq_iff.mpr ⟨hnonneg, by omega⟩
      omega

theorem shiftLeft_eq (value n : Nat) :
    u128 ((value &&& mask w) <<< n : Nat) &&& mask w =
      encode w (decode w signed value * 2 ^ n) := by
  rw [u128_and_mask, Nat.shiftLeft_eq]
  push_cast
  rw [natCast_and_mask]
  exact encode_eq_of_modEq (((decode_modEq w false value).trans
    (decode_modEq w signed value).symm).mul_right _)

theorem shiftRight_eq (value n : Nat) :
    (if signed then encodeSigned (decode w true value >>> n) w
      else (value &&& mask w) >>> n) = encode w (decode w signed value / 2 ^ n) := by
  cases signed with
  | true =>
    rw [if_pos rfl, encodeSigned_eq, Int.shiftRight_eq_div_pow]
    rfl
  | false =>
    have hlt : value % 2 ^ w.bits / 2 ^ n < 2 ^ w.bits :=
      Nat.lt_of_le_of_lt (Nat.div_le_self _ _) (Nat.mod_lt _ (Nat.two_pow_pos _))
    have hcast : decode w false value / 2 ^ n = ((value % 2 ^ w.bits / 2 ^ n : Nat) : Int) := by
      rfl
    rw [if_neg (by decide), hcast, encode_natCast, Nat.mod_eq_of_lt hlt,
      Nat.shiftRight_eq_div_pow, and_mask_eq, encode_natCast]

theorem evaluateShift_eq (w amountWidth : IntWidth) (signed amountSigned : Bool)
    (direction : ShiftDirection) (policy : ShiftPolicy) (value amount : Nat) :
    evaluateShift (.int w signed) (.int amountWidth amountSigned) direction policy value amount =
      some (exactShift w direction policy (decode w signed value)
        (decode amountWidth amountSigned amount)) := by
  simp only [evaluateShift, intParts, Option.bind_eq_bind, Option.bind_some, exactShift,
    decodeSigned_eq, invalidAmount_eq, amount_eq w amountSigned amountWidth]
  cases direction with
  | left => simp only [shiftLeft_eq w signed]; rfl
  | right => simp only [shiftRight_eq]; rfl

/-! ### Comparisons and casts -/

theorem ordering_eq :
    ordering signed w (left &&& mask w) (right &&& mask w) =
      compare (decode w signed left) (decode w signed right) := by
  unfold ordering
  cases signed with
  | false =>
    rw [if_neg (by decide), ← natCast_and_mask, ← natCast_and_mask]
    simp only [compare, compareOfLessAndEq, Int.ofNat_lt, Int.natCast_inj]
  | true => rw [if_pos rfl, decodeSigned_eq, decodeSigned_eq]

theorem evaluateIntegerCompare_eq (predicate : Predicate) (left right : Nat) :
    evaluateIntegerCompare (.int w signed) predicate left right =
      some (exactCompare predicate (decode w signed left) (decode w signed right)) := by
  simp only [evaluateIntegerCompare, intParts, Option.bind_eq_bind, Option.bind_some, ordering_eq]
  generalize decode w signed left = x
  generalize decode w signed right = y
  simp only [compare, compareOfLessAndEq]
  obtain hlt | rfl | hgt := Int.lt_trichotomy x y
  · rw [if_pos hlt]
    cases predicate <;> simp [exactCompare] <;> omega
  · cases predicate <;> simp [exactCompare]
  · rw [if_neg (by omega), if_neg (by omega)]
    cases predicate <;> simp [exactCompare] <;> omega

theorem encode_decode {source target : IntWidth} (signed : Bool) (value : Nat)
    (h : target.bits ≤ source.bits) :
    (value &&& mask source) &&& mask target = encode target (decode source signed value) := by
  rw [and_mask_eq, natCast_and_mask]
  exact encode_eq_of_modEq (((decode_modEq source false value).trans
    (decode_modEq source signed value).symm).of_dvd (pow_dvd_pow 2 h))

theorem evaluateIntegerCast_int {sw tw : IntWidth} {signed targetSigned : Bool} (cast : Cast)
    (value : Nat) :
    evaluateIntegerCast (.int sw signed) (.int tw targetSigned) cast value =
      exactCast (.int sw signed) (.int tw targetSigned) cast value := by
  have hint : (cast == .boolToInt && ScalarType.int sw signed == .bool && validBoolBits value) =
      false := by
    simp
  simp only [evaluateIntegerCast, hint, Bool.false_eq_true, if_false, intParts,
    Option.bind_eq_bind, Option.bind_some, exactCast]
  cases cast with
  | intExtend extendSigned =>
    have hextended (hlt : sw.bits < tw.bits) :
        (if signed then encodeSigned (decodeSigned (value &&& mask sw) sw) tw
          else value &&& mask sw) = encode tw (decode sw signed value) := by
      cases signed with
      | true => rw [if_pos rfl, encodeSigned_eq, decodeSigned_eq]
      | false =>
        have hfits : value % 2 ^ sw.bits < 2 ^ tw.bits :=
          Nat.lt_trans (Nat.mod_lt _ (Nat.two_pow_pos _)) (Nat.pow_lt_pow_right (by decide) hlt)
        rw [if_neg (by decide), ← natCast_and_mask, encode_natCast, and_mask_eq, encode_natCast,
          Nat.mod_eq_of_lt hfits]
    by_cases hlt : sw.bits < tw.bits
    · by_cases hsigned : extendSigned = signed
      · subst hsigned
        simp [hlt, hextended hlt]
      · simp [hlt, hsigned, Ne.symm hsigned]
    · simp [hlt]
  | intNarrow =>
    by_cases h : tw.bits < sw.bits
    · simp [h, encode_decode signed value (Nat.le_of_lt h)]
    · simp [h]
  | bitcast =>
    by_cases h : sw.bits = tw.bits
    · have hsame : value &&& mask sw = encode tw (decode sw signed value) := by
        rw [and_mask_eq_decode sw signed value, encode, encode, h]
      simp [h, hsame]
    · simp [h]
  | _ => simp

theorem evaluateIntegerCast_eq (source target : ScalarType) (cast : Cast) (value : Nat) :
    evaluateIntegerCast source target cast value = exactCast source target cast value := by
  cases source with
  | int sw signed =>
    cases target with
    | int tw targetSigned => exact evaluateIntegerCast_int cast value
    | _ => simp [evaluateIntegerCast, exactCast, intParts]
  | bool =>
    have hbits : validBoolBits value = decide (value ≤ 1) := rfl
    cases target with
    | int tw targetSigned =>
      by_cases h : cast = .boolToInt ∧ value ≤ 1
      · obtain ⟨rfl, hle⟩ := h
        simp [evaluateIntegerCast, exactCast, intParts, hbits, hle, and_mask_eq]
      · simp [evaluateIntegerCast, exactCast, intParts, hbits, h]
    | _ => simp [evaluateIntegerCast, exactCast, intParts]
  | _ => simp [evaluateIntegerCast, exactCast, intParts]

/-! ### All evaluators -/

/-- The evaluators compute with the integers that the patterns stand for.  A remainder counts as
    an overflow together with its quotient. -/
theorem scalar_evaluators_exact :
    (∀ w signed op mode left right, evaluateIntegerBinary (.int w signed) op mode left right =
      exactBinary w signed op mode left right) ∧
    (∀ w signed op mode value, evaluateIntegerUnary (.int w signed) op mode value =
      exactUnary w signed op mode value) ∧
    (∀ w amountWidth signed amountSigned direction policy value amount,
      evaluateShift (.int w signed) (.int amountWidth amountSigned) direction policy value amount =
        some (exactShift w direction policy (decode w signed value)
          (decode amountWidth amountSigned amount))) ∧
    (∀ w signed predicate left right, evaluateIntegerCompare (.int w signed) predicate left right =
      some (exactCompare predicate (decode w signed left) (decode w signed right))) ∧
    ∀ source target cast value,
      evaluateIntegerCast source target cast value = exactCast source target cast value :=
  ⟨evaluateIntegerBinary_eq, evaluateIntegerUnary_eq, evaluateShift_eq,
    evaluateIntegerCompare_eq, evaluateIntegerCast_eq⟩

/-- The remainder of the least integer by `-1` is zero, which is in range, and is refused. -/
theorem checked_rem_refuses_zero :
    decode .w8 true 0x80 = -128 ∧ decode .w8 true 0xff = -1 ∧ (-128 : Int).tmod (-1) = 0 ∧
      outside .w8 true 0 = false ∧
      evaluateIntegerBinary (.int .w8 true) .rem .checked 0x80 0xff = some .checkedNone := by
  decide +kernel

end Fe2o3.KernelIr.ScalarOps
