import Fe2o3.Lib.Outcome

/-!
# Commands over a state that keep what they did when they fail

A command ends in one of three ways: with a value, with an error, or in a panic. After
an error the state is the one the command had reached, not the one it started from;
after a panic there is none.  `Meets x Q E P s` says that the value and the final state
of `x`, started in `s`, satisfy `Q`, that its error and final state satisfy `E`, and
that it panics only if `P`.  The rules of the primitive commands are equivalences; loops
have a rule with an invariant.
-/

namespace Fe2o3.Lib

inductive Outcome (σ ε α : Type) where
  | done (value : α) (state : σ)
  | failed (error : ε) (state : σ)
  | panicked

def Command (σ ε α : Type) : Type := σ → Outcome σ ε α

variable {σ ε α β : Type}

/-- The state after an outcome, unless it is a panic. -/
def Outcome.state? : Outcome σ ε α → Option σ
  | done _ state => some state
  | failed _ state => some state
  | panicked => none

/-- The value of a success. -/
def Outcome.value? : Outcome σ ε α → Option α
  | done value _ => some value
  | _ => none

def Outcome.succeeded : Outcome σ ε α → Bool
  | done .. => true
  | _ => false

theorem Outcome.exists_done {x : Outcome σ ε α} (h : x.succeeded = true) :
    ∃ a t, x = .done a t := by
  cases x with
  | done a t => exact ⟨a, t, rfl⟩
  | failed e t => nomatch h
  | panicked => nomatch h

namespace Command

instance : Monad (Command σ ε) where
  pure a := fun s => .done a s
  bind x f := fun s =>
    match x s with
    | .done a t => f a t
    | .failed e t => .failed e t
    | .panicked => .panicked

def read : Command σ ε σ := fun s => .done s s

def update (f : σ → σ) : Command σ ε Unit := fun s => .done () (f s)

def fail (e : ε) : Command σ ε α := fun s => .failed e s

/-- The value, or a panic. -/
def expect : Option α → Command σ ε α
  | some a => fun s => .done a s
  | none => fun _ => .panicked

/-- A result computed without the state. -/
def lift : Except ε α → Command σ ε α
  | .ok a => fun s => .done a s
  | .error e => fun s => .failed e s

/-- Fails under a condition. -/
def refuse (condition : Bool) (e : ε) : Command σ ε Unit :=
  if condition then fail e else pure ()

/-- Goes on from an error, in the state it was raised in. -/
def recover (x : Command σ ε α) (handler : ε → Command σ ε α) : Command σ ε α := fun s =>
  match x s with
  | .done a t => .done a t
  | .failed e t => handler e t
  | .panicked => .panicked

/-- What a command guarantees, started in `s`. -/
def Meets (x : Command σ ε α) (Q : α → σ → Prop) (E : ε → σ → Prop) (P : Prop) (s : σ) : Prop :=
  match x s with
  | .done a t => Q a t
  | .failed e t => E e t
  | .panicked => P

variable {Q Q' : α → σ → Prop} {E E' : ε → σ → Prop} {P P' : Prop} {s : σ}

variable {x : Command σ ε α}

section

variable (h : Meets x Q E P s)
include h

theorem Meets.mono (hQ : ∀ a t, Q a t → Q' a t) (hE : ∀ e t, E e t → E' e t)
    (hP : P → P') : Meets x Q' E' P' s := by
  unfold Meets at h ⊢
  cases hx : x s <;> rw [hx] at h
  · exact hQ _ _ h
  · exact hE _ _ h
  · exact hP h

theorem Meets.of_done {a : α} {t : σ} (hx : x s = .done a t) : Q a t := by
  unfold Meets at h
  rw [hx] at h
  exact h

variable {e : ε}

theorem Meets.of_failed {t : σ} (hx : x s = .failed e t) : E e t := by
  unfold Meets at h
  rw [hx] at h
  exact h

theorem Meets.not_panicked (hP : ¬P) : x s ≠ .panicked := by
  intro hx
  unfold Meets at h
  rw [hx] at h
  exact hP h

/-- The guarantee together with the outcome that it is about. -/
theorem Meets.and_outcome :
    Meets x (fun a t => Q a t ∧ x s = .done a t) (fun e t => E e t ∧ x s = .failed e t) P s := by
  unfold Meets at h ⊢
  cases hx : x s <;> rw [hx] at h
  · exact ⟨h, rfl⟩
  · exact ⟨h, rfl⟩
  · exact h

/-- The ways in which a command can end. -/
theorem Meets.outcomes : (∃ a t, x s = .done a t ∧ Q a t) ∨ (∃ e t, x s = .failed e t ∧ E e t) ∨
    x s = .panicked ∧ P := by
  unfold Meets at h
  cases hx : x s <;> rw [hx] at h
  · exact .inl ⟨_, _, rfl, h⟩
  · exact .inr (.inl ⟨_, _, rfl, h⟩)
  · exact .inr (.inr ⟨rfl, h⟩)

end

/-- A command that neither fails nor panics. -/
theorem Meets.exists_done (h : Meets x Q (fun _ _ => False) False s) :
    ∃ a t, x s = .done a t ∧ Q a t := by
  obtain hdone | ⟨_, _, _, hfalse⟩ | ⟨_, hfalse⟩ := h.outcomes
  · exact hdone
  · exact hfalse.elim
  · exact hfalse.elim

variable {f : α → Command σ ε β}

theorem bind_run : (x >>= f) s = match x s with
    | .done a t => f a t
    | .failed e t => .failed e t
    | .panicked => .panicked := rfl

theorem bind_of_done {a : α} {t : σ} (h : x s = .done a t) : (x >>= f) s = f a t := by
  rw [bind_run, h]

theorem bind_of_failed {t : σ} (h : x s = .failed e t) : (x >>= f) s = .failed e t := by
  rw [bind_run, h]

theorem bind_of_panicked (h : x s = .panicked) : (x >>= f) s = .panicked := by
  rw [bind_run, h]

/-- The value does not matter for the state. -/
theorem state?_map {f : α → β} : ((f <$> x) s).state? = (x s).state? := by
  cases hx : x s with
  | done a t => exact congrArg Outcome.state? (bind_of_done hx)
  | failed e t => exact congrArg Outcome.state? (bind_of_failed hx)
  | panicked => exact congrArg Outcome.state? (bind_of_panicked hx)

/-- A mapped command is done where the command is. -/
theorem exists_of_map_done {f : α → β} {b : β} {t : σ} (h : (f <$> x) s = .done b t) :
    ∃ a, x s = .done a t ∧ b = f a := by
  cases hx : x s with
  | done a u =>
    obtain ⟨rfl, rfl⟩ := Outcome.done.inj (h.symm.trans (bind_of_done hx))
    exact ⟨a, rfl, rfl⟩
  | failed e u => nomatch h.symm.trans (bind_of_failed hx)
  | panicked => nomatch h.symm.trans (bind_of_panicked hx)

/-! ### Rules -/

theorem meets_pure {a : α} : Meets (pure a) Q E P s ↔ Q a s := Iff.rfl

theorem meets_bind {Q : β → σ → Prop} :
    Meets (x >>= f) Q E P s ↔ Meets x (fun a t => Meets (f a) Q E P t) E P s := by
  unfold Meets
  rw [bind_run]
  cases x s with
  | done a t => exact Iff.rfl
  | failed e t => exact Iff.rfl
  | panicked => exact Iff.rfl

/-- One command after the other. -/
theorem Meets.bind {Q : β → σ → Prop} (h : Meets x Q' E' P' s)
    (hrest : ∀ a t, Q' a t → Meets (f a) Q E P t)
    (hE : ∀ e t, E' e t → E e t := by exact fun _ _ h => h)
    (hP : P' → P := by first | exact fun h => h | exact False.elim) : Meets (x >>= f) Q E P s :=
  meets_bind.mpr (h.mono hrest hE hP)

theorem meets_map {Q : β → σ → Prop} {f : α → β} :
    Meets (f <$> x) Q E P s ↔ Meets x (fun a t => Q (f a) t) E P s :=
  meets_bind

theorem meets_read {Q : σ → σ → Prop} : Meets read Q E P s ↔ Q s s := Iff.rfl

theorem meets_update {f : σ → σ} {Q : Unit → σ → Prop} :
    Meets (update f) Q E P s ↔ Q () (f s) := Iff.rfl

theorem meets_expect {x : Option α} :
    Meets (expect x) Q E P s ↔ (∀ a, x = some a → Q a s) ∧ (x = none → P) := by
  cases x with
  | none =>
    constructor
    · intro h
      exact ⟨fun a ha => (nomatch ha), fun _ => h⟩
    · intro h
      exact h.2 rfl
  | some a =>
    constructor
    · intro h
      exact ⟨fun b hb => Option.some.inj hb ▸ h, nofun⟩
    · intro h
      exact h.1 a rfl

theorem meets_expect_some {a : α} : Meets (expect (some a)) Q E P s ↔ Q a s := Iff.rfl

theorem meets_lift {x : Except ε α} :
    Meets (lift x) Q E P s ↔ (∀ a, x = .ok a → Q a s) ∧ ∀ e, x = .error e → E e s := by
  cases x with
  | ok a =>
    constructor
    · intro h
      exact ⟨fun b hb => Except.ok.inj hb ▸ h, fun e he => (nomatch he)⟩
    · intro h
      exact h.1 a rfl
  | error e =>
    constructor
    · intro h
      exact ⟨fun b hb => (nomatch hb), fun e' he => Except.error.inj he ▸ h⟩
    · intro h
      exact h.2 e rfl

theorem meets_bind_lift {Q : β → σ → Prop} {x : Except ε α}
    (hok : ∀ a, x = .ok a → Meets (f a) Q E P s) (herror : ∀ e, x = .error e → E e s) :
    Meets (lift x >>= f) Q E P s :=
  meets_bind.mpr (meets_lift.mpr ⟨hok, herror⟩)

theorem meets_lift_ok {a : α} : Meets (lift (.ok a)) Q E P s ↔ Q a s := Iff.rfl

variable {condition : Bool}

theorem meets_refuse {Q : Unit → σ → Prop} :
    Meets (refuse condition e) Q E P s ↔
      (condition = true → E e s) ∧ (condition = false → Q () s) := by
  cases condition with
  | true => exact ⟨fun h => ⟨fun _ => h, fun h' => (nomatch h')⟩, fun h => h.1 rfl⟩
  | false => exact ⟨fun h => ⟨fun h' => (nomatch h'), fun _ => h⟩, fun h => h.2 rfl⟩

theorem meets_bind_refuse {Q : β → σ → Prop} {f : Unit → Command σ ε β}
    (hrefused : condition = true → E e s) (hrest : condition = false → Meets (f ()) Q E P s) :
    Meets (refuse condition e >>= f) Q E P s :=
  meets_bind.mpr (meets_refuse.mpr ⟨hrefused, hrest⟩)

/-- A refusal whose condition is the failure of a requirement. -/
theorem meets_refuse_unless {Q : Unit → σ → Prop} (required : Prop)
    (h : condition = false ↔ required) (hE : ¬required → E e s) (hQ : required → Q () s) :
    Meets (refuse condition e) Q E P s := by
  rw [meets_refuse]
  refine ⟨fun hcondition => hE fun hrequired => ?_, fun hcondition => hQ (h.mp hcondition)⟩
  rw [h.mpr hrequired] at hcondition
  nomatch hcondition

/-- An option whose absence is an error. -/
theorem meets_lift_okOr {x : Option α} (hE : x = none → E e s) (hQ : ∀ a, x = some a → Q a s) :
    Meets (lift (okOr e x)) Q E P s := by
  cases x with
  | none => exact hE rfl
  | some a => exact hQ a rfl

theorem meets_recover {handler : ε → Command σ ε α} :
    Meets (recover x handler) Q E P s ↔ Meets x Q (fun e t => Meets (handler e) Q E P t) P s := by
  unfold Meets recover
  cases x s with
  | done a t => exact Iff.rfl
  | failed e t => exact Iff.rfl
  | panicked => exact Iff.rfl

/-- A loop: the invariant holds of what was done so far. -/
theorem meets_forM {f : β → Command σ ε Unit} {xs : List β} {Q : Unit → σ → Prop}
    (I : List β → σ → Prop) (hinit : I [] s)
    (hstep : ∀ seen x rest t, xs = seen ++ x :: rest → I seen t →
      Meets (f x) (fun _ t' => I (seen ++ [x]) t') E P t)
    (hlast : ∀ t, I xs t → Q () t) : Meets (xs.forM f) Q E P s := by
  suffices h : ∀ rest seen t, xs = seen ++ rest → I seen t → Meets (rest.forM f) Q E P t from
    h xs [] s rfl hinit
  intro rest
  induction rest with
  | nil =>
    intro seen t hxs hI
    rw [List.append_nil] at hxs
    subst hxs
    exact hlast t hI
  | cons x rest ih =>
    intro seen t hxs hI
    refine (hstep seen x rest t hxs hI).bind fun _ t' hI' => ?_
    exact ih (seen ++ [x]) t' (by rw [hxs, List.append_assoc]; rfl) hI'

/-! ### Commands that may fail but do not panic -/

/-- If the command returns, the value and the state satisfy `Q`; it does not panic. -/
def Secures (x : Command σ ε α) (Q : α → σ → Prop) (s : σ) : Prop :=
  Meets x Q (fun _ _ => True) False s

theorem Secures.mono (h : Secures x Q s) (hQ : ∀ a t, Q a t → Q' a t) : Secures x Q' s :=
  Meets.mono h hQ (fun _ _ h => h) fun h => h

@[simp]
theorem secures_bind {Q : β → σ → Prop} :
    Secures (x >>= f) Q s ↔ Secures x (fun a t => Secures (f a) Q t) s :=
  meets_bind

@[simp]
theorem secures_read {Q : σ → σ → Prop} : Secures (read : Command σ ε σ) Q s ↔ Q s s := Iff.rfl

@[simp]
theorem secures_update {f : σ → σ} {Q : Unit → σ → Prop} :
    Secures (update f : Command σ ε Unit) Q s ↔ Q () (f s) := Iff.rfl

@[simp]
theorem secures_lift {x : Except ε α} : Secures (lift x) Q s ↔ ∀ a, x = .ok a → Q a s := by
  unfold Secures
  rw [meets_lift]
  exact and_iff_left fun _ _ => trivial

@[simp]
theorem secures_refuse {Q : Unit → σ → Prop} :
    Secures (refuse condition e) Q s ↔ (condition = false → Q () s) := by
  unfold Secures
  rw [meets_refuse]
  exact and_iff_right fun _ => trivial

@[simp]
theorem secures_expect {x : Option α} :
    Secures (expect x : Command σ ε α) Q s ↔ ∃ a, x = some a ∧ Q a s := by
  unfold Secures
  rw [meets_expect]
  cases x with
  | none => simp
  | some a => simp

/-! ### One command in two states -/

/-- Started in two states, a command succeeds in both, and leads to related states, or fails in
    both; but it may fail in the first state alone with an error that is excused. -/
def Agrees (R : σ → σ → Prop) (excused : ε → Prop) (x : Command σ ε Unit) (s t : σ) : Prop :=
  match x s with
  | .done _ s' => ∃ t', x t = .done () t' ∧ R s' t'
  | .failed e _ => excused e ∨ ∃ e' t', x t = .failed e' t'
  | .panicked => False

variable {R R' : σ → σ → Prop} {excused : ε → Prop} {t : σ}

theorem agrees_refuse (h : R s t) : Agrees R excused (refuse condition e) s t := by
  cases condition with
  | true => exact .inr ⟨e, t, rfl⟩
  | false => exact ⟨t, rfl, h⟩

theorem Agrees.bind {x : Command σ ε Unit} {f : Unit → Command σ ε Unit}
    (h : Agrees R excused x s t) (hnext : ∀ s' t', R s' t' → Agrees R' excused (f ()) s' t') :
    Agrees R' excused (x >>= f) s t := by
  unfold Agrees at h ⊢
  cases hs : x s with
  | done _ s' =>
    rw [hs] at h
    obtain ⟨t', ht, hrelated⟩ := h
    rw [bind_of_done hs, bind_of_done ht]
    exact hnext s' t' hrelated
  | failed e s' =>
    rw [hs] at h
    rw [bind_of_failed hs]
    obtain hexcused | ⟨e', t', ht⟩ := h
    · exact .inl hexcused
    · exact .inr ⟨e', t', bind_of_failed ht⟩
  | panicked =>
    rw [hs] at h
    exact h.elim

theorem agrees_forM {f : β → Command σ ε Unit} (hstep : ∀ x s t, R s t → Agrees R excused (f x) s t)
    (xs : List β) (h : R s t) : Agrees R excused (xs.forM f) s t := by
  induction xs generalizing s t with
  | nil => exact ⟨t, rfl, h⟩
  | cons x xs ih => exact (hstep x s t h).bind fun s' t' h' => ih h'

/-- The states through which a list of actions leads. -/
inductive Through (step : β → σ → σ → Prop) : List β → σ → σ → Prop where
  | nil {s : σ} : Through step [] s s
  | cons {x : β} {xs : List β} {s t u : σ} (first : step x s t) (rest : Through step xs t u) :
      Through step (x :: xs) s u

theorem Through.keeps {step : β → σ → σ → Prop} {I : σ → Prop} {xs : List β} {t : σ}
    (h : Through step xs s t) (hstep : ∀ x s t, step x s t → I s → I t) (hinit : I s) : I t := by
  induction h with
  | nil => exact hinit
  | cons first _ ih => exact ih (hstep _ _ _ first hinit)

/-- A loop, as the states it leads through, seen through a view of the state. -/
theorem secures_forM_through {τ : Type} {f : β → Command σ ε Unit} {I : σ → Prop} {view : σ → τ}
    {step : β → τ → τ → Prop}
    (hstep : ∀ x t, I t → Secures (f x) (fun _ t' => I t' ∧ step x (view t) (view t')) t)
    (xs : List β) (hinit : I s) :
    Secures (xs.forM f) (fun _ t => I t ∧ Through step xs (view s) (view t)) s := by
  induction xs generalizing s with
  | nil => exact ⟨hinit, .nil⟩
  | cons x xs ih =>
    show Secures (f x >>= fun _ => xs.forM f) _ s
    rw [secures_bind]
    apply (hstep x s hinit).mono
    rintro _ t ⟨ht, hfirst⟩
    apply (ih ht).mono
    rintro _ u ⟨hu, hrest⟩
    exact ⟨hu, .cons hfirst hrest⟩

end Command

end Fe2o3.Lib
