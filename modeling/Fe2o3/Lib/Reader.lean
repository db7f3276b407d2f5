import Mathlib

/-!
# Reading byte strings

A reader takes bytes from the front of its input and may fail.  `Reads p bytes a` says
that `p` reads exactly `bytes`, whatever follows, and returns `a`; the rules compose
along the binds of a reader and the chunks of a writer.
-/

namespace Fe2o3.Lib

open List

/-! ### Numbers as bytes -/

/-- The low `width` bytes of a number, least significant first. -/
def leBytes : Nat → Nat → List UInt8
  | 0, _ => []
  | width + 1, value => UInt8.ofNat value :: leBytes width (value / 256)

def ofLeBytes : List UInt8 → Nat
  | [] => 0
  | byte :: bytes => byte.toNat + 256 * ofLeBytes bytes

@[simp]
theorem length_leBytes (width value : Nat) : (leBytes width value).length = width := by
  induction width generalizing value with
  | zero => rfl
  | succ width ih => rw [leBytes, length_cons, ih]

theorem ofLeBytes_leBytes {width value : Nat} (h : value < 256 ^ width) :
    ofLeBytes (leBytes width value) = value := by
  induction width generalizing value with
  | zero =>
    rw [Nat.pow_zero, Nat.lt_one_iff] at h
    exact h.symm
  | succ width ih =>
    have hrest : value / 256 < 256 ^ width := by
      rw [Nat.div_lt_iff_lt_mul (by decide)]
      rwa [Nat.pow_succ] at h
    rw [leBytes, ofLeBytes, ih hrest, UInt8.toNat_ofNat']
    exact Nat.mod_add_div value 256

variable {ε α β : Type}

/-- A number of `width` bytes at a place in the string. -/
def readLe (width : Nat) (bytes : List UInt8) (offset : Nat) (truncated : ε) : Except ε Nat :=
  if bytes.length < offset + width then .error truncated
  else .ok (ofLeBytes ((bytes.drop offset).take width))

/-! ### Readers -/

abbrev Reader (ε α : Type) : Type := StateT (List UInt8) (Except ε) α

/-- The next `count` bytes. -/
def readFixed (count : Nat) (truncated : ε) : Reader ε (List UInt8) := fun bytes =>
  if bytes.length < count then .error truncated else .ok (bytes.take count, bytes.drop count)

/-- Fails when the condition holds, and reads nothing. -/
def reject (condition : Prop) [Decidable condition] (error : ε) : Reader ε Unit :=
  if condition then throw error else pure ()

def readMany (read : Reader ε α) : Nat → Reader ε (List α)
  | 0 => pure []
  | count + 1 => do
    let first ← read
    let rest ← readMany read count
    pure (first :: rest)

/-- The reader takes exactly these bytes from any input that starts with them. -/
def Reads (read : Reader ε α) (bytes : List UInt8) (a : α) : Prop :=
  ∀ rest, read.run (bytes ++ rest) = .ok (a, rest)

namespace Reads

theorem pure (a : α) : Reads (ε := ε) (Pure.pure a) [] a := fun _ => rfl

theorem fixed {bytes : List UInt8} {count : Nat} (h : bytes.length = count) (truncated : ε) :
    Reads (readFixed count truncated) bytes bytes := by
  intro rest
  show (if _ then _ else _) = _
  rw [if_neg (by rw [length_append]; omega), ← h, take_left, drop_left]

theorem reject {condition : Prop} [Decidable condition] (h : ¬condition) (error : ε) :
    Reads (Lib.reject condition error) [] () := by
  rw [Lib.reject, if_neg h]
  exact pure ()

variable {read : Reader ε α} {f : α → Reader ε β}

theorem bind {front back : List UInt8} {a : α} {b : β} (h : Reads read front a)
    (hthen : Reads (f a) back b) : Reads (read >>= f) (front ++ back) b := by
  intro rest
  rw [StateT.run_bind, append_assoc, h]
  exact hthen rest

/-- One chunk, then the others. -/
theorem next {chunk : List UInt8} {chunks : List (List UInt8)} {a : α} {b : β}
    (h : Reads read chunk a) (hthen : Reads (f a) chunks.flatten b) :
    Reads (read >>= f) (chunk :: chunks).flatten b :=
  h.bind hthen

/-- A step that reads nothing. -/
theorem skip {bytes : List UInt8} {a : α} {b : β} (h : Reads read [] a)
    (hthen : Reads (f a) bytes b) : Reads (read >>= f) bytes b :=
  h.bind hthen

theorem many {write : α → List UInt8} {values : List α} (h : ∀ a ∈ values, Reads read (write a) a) :
    Reads (readMany read values.length) (values.flatMap write) values := by
  induction values with
  | nil => exact pure []
  | cons a values ih =>
    obtain ⟨ha, hvalues⟩ := forall_mem_cons.mp h
    have hrest := (ih hvalues).bind (f := fun rest => Pure.pure (a :: rest)) (pure _)
    rw [append_nil] at hrest
    exact ha.bind hrest

end Reads

end Fe2o3.Lib
