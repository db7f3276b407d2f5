import Mathlib

/-!
# Fallible computations

What a successful `Except` block says about its parts, and `Ensures`, a postcondition
for the result together with one for the error.
-/

namespace Fe2o3.Lib

open List

variable {ε α β : Type}

theorem bind_eq_ok {x : Except ε α} {f : α → Except ε β} {b : β} :
    (x >>= f) = .ok b ↔ ∃ a, x = .ok a ∧ f a = .ok b := by
  cases x with
  | error e =>
    constructor
    · intro h; cases h
    · rintro ⟨a, h, _⟩; cases h
  | ok a =>
    constructor
    · intro h; exact ⟨a, rfl, h⟩
    · rintro ⟨a', h, hf⟩; cases h; exact hf

theorem pure_eq_ok {a b : α} : (pure a : Except ε α) = .ok b ↔ a = b := by
  constructor
  · intro h
    exact Except.ok.inj h
  · rintro rfl
    rfl

/-- A step without a result, then the rest. -/
theorem seq_eq_ok {x : Except ε Unit} {f : Unit → Except ε β} {b : β} :
    (x >>= f) = .ok b ↔ x = .ok () ∧ f () = .ok b := by
  rw [bind_eq_ok]
  constructor
  · rintro ⟨_, hx, hf⟩
    exact ⟨hx, hf⟩
  · rintro ⟨hx, hf⟩
    exact ⟨(), hx, hf⟩

/-- A check that is the last one. -/
theorem check_eq_ok {c : Prop} [Decidable c] {e : ε} {last : Except ε β} {b : β} :
    (if c then Except.error e else last) = .ok b ↔ ¬c ∧ last = .ok b := by
  by_cases hc : c
  · rw [if_pos hc]
    constructor
    · intro h
      nomatch h
    · intro h
      exact absurd hc h.1
  · rw [if_neg hc]
    exact (and_iff_right hc).symm

/-- The value of an option, or the error that stands for its absence. -/
def okOr (error : ε) : Option α → Except ε α
  | some a => .ok a
  | none => .error error

@[simp]
theorem okOr_eq_ok {error : ε} {x : Option α} {a : α} : okOr error x = .ok a ↔ x = some a := by
  cases x with
  | none => simp [okOr]
  | some b => simp [okOr]

/-- Fails under a condition. -/
def failIf (condition : Bool) (error : ε) : Except ε Unit :=
  if condition then .error error else .ok ()

@[simp]
theorem failIf_eq_ok {condition : Bool} {error : ε} {u : Unit} :
    failIf condition error = .ok u ↔ condition = false := by
  cases condition with
  | true => simp [failIf]
  | false => simp [failIf]

theorem mapError_eq_ok {δ : Type} {f : ε → δ} {x : Except ε α} {a : α} :
    x.mapError f = .ok a ↔ x = .ok a := by
  cases x with
  | error e | ok b => simp [Except.mapError]

/-- If `x` returns, the result satisfies `Q`; if it fails, the error satisfies `R`. -/
def Ensures (R : ε → Prop) (x : Except ε α) (Q : α → Prop) : Prop :=
  match x with
  | .ok a => Q a
  | .error e => R e

variable {R : ε → Prop} {Q : α → Prop}

@[simp]
theorem ensures_ok (a : α) : Ensures R (.ok a) Q ↔ Q a := Iff.rfl

@[simp]
theorem ensures_pure (a : α) : Ensures R (pure a) Q ↔ Q a := Iff.rfl

@[simp]
theorem ensures_error (e : ε) : Ensures R (.error e) Q ↔ R e := Iff.rfl

@[simp]
theorem ensures_bind {Q : β → Prop} (x : Except ε α) (f : α → Except ε β) :
    Ensures R (x >>= f) Q ↔ Ensures R x (fun a => Ensures R (f a) Q) := by
  cases x with
  | ok a => exact Iff.rfl
  | error e => exact Iff.rfl

theorem ensures_okOr {error : ε} {x : Option α} :
    Ensures R (okOr error x) Q ↔ (x = none → R error) ∧ ∀ a, x = some a → Q a := by
  cases x <;> simp [okOr]

theorem ensures_failIf {condition : Bool} {error : ε} {Q : Unit → Prop} :
    Ensures R (failIf condition error) Q ↔
      (condition = true → R error) ∧ (condition = false → Q ()) := by
  cases condition <;> simp [failIf]

theorem ensures_mono {Q' : α → Prop} {x : Except ε α} (h : Ensures R x Q)
    (hQ : ∀ a, Q a → Q' a) : Ensures R x Q' := by
  cases x with
  | ok a => exact hQ a h
  | error e => exact h

variable {f : β → α → Except ε β} {xs : List α}

/-- A loop of checks: every single one keeps to `R`, and what follows holds anyway. -/
theorem ensures_forM {f : α → Except ε Unit} {Q : Unit → Prop}
    (hstep : ∀ x ∈ xs, Ensures R (f x) fun _ => True) (hQ : Q ()) : Ensures R (xs.forM f) Q := by
  induction xs with
  | nil => exact hQ
  | cons x xs ih =>
    show Ensures R (f x >>= fun _ => xs.forM f) _
    rw [ensures_bind]
    refine ensures_mono (hstep x (mem_cons_self ..)) fun _ _ => ?_
    exact ih fun y hy => hstep y (mem_cons_of_mem _ hy)

/-- A loop with an accumulator: what every step keeps holds of the result. -/
theorem ensures_foldlM {I : β → Prop} {init : β}
    (hstep : ∀ x ∈ xs, ∀ b, I b → Ensures R (f b x) I) (hinit : I init) :
    Ensures R (xs.foldlM f init) I := by
  induction xs generalizing init with
  | nil => exact hinit
  | cons x xs ih =>
    rw [foldlM_cons, ensures_bind]
    refine ensures_mono (hstep x mem_cons_self init hinit) fun b hb => ?_
    exact ih (fun y hy => hstep y (mem_cons_of_mem _ hy)) hb

theorem ensures_mapM {f : α → Except ε β} (hstep : ∀ x ∈ xs, Ensures R (f x) fun _ => True) :
    Ensures R (xs.mapM f) fun ys => ys.length = xs.length := by
  induction xs with
  | nil => rfl
  | cons x xs ih =>
    rw [mapM_cons, ensures_bind]
    refine ensures_mono (hstep x mem_cons_self) fun y _ => ?_
    rw [ensures_bind]
    refine ensures_mono (ih fun y hy => hstep y (mem_cons_of_mem _ hy)) fun ys hys => ?_
    exact congrArg (· + 1) hys

/-! ### Loops that succeed -/

theorem forM_eq_ok {f : α → Except ε Unit} {u : Unit} :
    xs.forM f = .ok u ↔ ∀ x ∈ xs, f x = .ok () := by
  induction xs with
  | nil =>
    constructor
    · intro _ x hx
      nomatch hx
    · intro _
      rfl
  | cons first xs ih =>
    show (f first >>= fun _ => xs.forM f) = .ok () ↔ _
    rw [seq_eq_ok, forall_mem_cons, ← ih]

/-- What every step keeps holds of the result. -/
theorem foldlM_ok_preserves {I : β → Prop} {init result : β}
    (hstep : ∀ x ∈ xs, ∀ before after, I before → f before x = .ok after → I after)
    (hinit : I init) (h : xs.foldlM f init = .ok result) : I result := by
  induction xs generalizing init with
  | nil =>
    cases h
    exact hinit
  | cons first xs ih =>
    obtain ⟨after, hfirst, hrest⟩ := bind_eq_ok.mp h
    refine ih (fun x hx => hstep x (mem_cons_of_mem _ hx)) ?_ hrest
    exact hstep first (mem_cons_self ..) init after hinit hfirst

/-- What every step keeps of the elements seen so far holds of all of them. -/
theorem foldlM_ok_invariant (I : List α → β → Prop) {init result : β} (hinit : I [] init)
    (hstep : ∀ seen x before after, I seen before → f before x = .ok after → I (seen ++ [x]) after)
    (h : xs.foldlM f init = .ok result) : I xs result := by
  suffices hrest : ∀ rest seen acc, I seen acc → rest.foldlM f acc = .ok result →
      I (seen ++ rest) result from hrest xs [] init hinit h
  intro rest
  induction rest with
  | nil =>
    intro seen acc hI hdone
    cases hdone
    rw [append_nil]
    exact hI
  | cons x rest ih =>
    intro seen acc hI hdone
    obtain ⟨after, hfirst, hdone⟩ := bind_eq_ok.mp hdone
    have hnext := ih (seen ++ [x]) after (hstep seen x acc after hI hfirst) hdone
    rwa [append_assoc] at hnext

variable {ys : List β}

theorem mapM_eq_ok {f : α → Except ε β} (h : xs.mapM f = .ok ys) :
    List.Forall₂ (fun x y => f x = .ok y) xs ys := by
  induction xs generalizing ys with
  | nil =>
    cases h
    exact .nil
  | cons x xs ih =>
    rw [mapM_cons] at h
    obtain ⟨y, hy, h⟩ := bind_eq_ok.mp h
    obtain ⟨rest, hrest, h⟩ := bind_eq_ok.mp h
    cases h
    exact .cons hy (ih hrest)

theorem mapM_zipIdx_eq_ok {f : α × Nat → Except ε β} (h : xs.zipIdx.mapM f = .ok ys) :
    List.Forall₂ (fun x y => ∃ i, f (x, i) = .ok y) xs ys := by
  rw [← zipIdx_map_fst 0 xs, forall₂_map_left_iff]
  exact (mapM_eq_ok h).imp fun row _ hrow => ⟨row.2, hrow⟩

/-! ### Lists related entry by entry -/

variable {P : α → β → Prop}

theorem exists_right_of_forall₂ (h : List.Forall₂ P xs ys) {x : α} (hx : x ∈ xs) :
    ∃ y ∈ ys, P x y := by
  induction h with
  | nil => nomatch hx
  | cons hfirst _ ih =>
    obtain rfl | hx := mem_cons.mp hx
    · exact ⟨_, mem_cons_self .., hfirst⟩
    · obtain ⟨y, hy, hxy⟩ := ih hx
      exact ⟨y, mem_cons_of_mem _ hy, hxy⟩

theorem exists_left_of_forall₂ (h : List.Forall₂ P xs ys) {y : β} (hy : y ∈ ys) : ∃ x ∈ xs, P x y :=
  exists_right_of_forall₂ h.flip hy

theorem pairwise_of_forall₂ {R : α → α → Prop} {S : β → β → Prop} (h : List.Forall₂ P xs ys)
    (hys : ys.Pairwise S) (himp : ∀ x x' y y', P x y → P x' y' → S y y' → R x x') :
    xs.Pairwise R := by
  induction h with
  | nil => exact .nil
  | cons hfirst hrest ih =>
    obtain ⟨hbefore, hys⟩ := pairwise_cons.mp hys
    refine .cons (fun x hx => ?_) (ih hys)
    obtain ⟨y, hy, hxy⟩ := exists_right_of_forall₂ hrest hx
    exact himp _ _ _ _ hfirst hxy (hbefore y hy)

theorem getElem?_of_forall₂ (h : List.Forall₂ P xs ys) {k : Nat} {x : α} (hx : xs[k]? = some x) :
    ∃ y, ys[k]? = some y ∧ P x y := by
  induction h generalizing k with
  | nil => nomatch hx
  | cons hfirst _ ih =>
    cases k with
    | zero =>
      cases hx
      exact ⟨_, rfl, hfirst⟩
    | succ k => exact ih hx

end Fe2o3.Lib
