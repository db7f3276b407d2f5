import Fe2o3.Completion.Authority

/-!
**What a completion authority is for**, as an abstract state machine over an arbitrary
dependency relation.

An assignment gives every node a state.  A `Move` either requests a cancellation,
completes a node and makes exactly the dependents ready whose other dependencies
have all succeeded, or stops a node and hands its cause to exactly the blocked
transitive dependents.  `Coherent` is the relation between the state of a node
and those of its dependencies that all moves preserve; progress and the
attribution of failures follow from it.
-/

namespace Fe2o3.Completion

open Relation

variable {state : CompletionNodeState}

namespace CompletionNodeState

/-- A failed, cancelled, dependency-failed or dependency-cancelled state. -/
def IsFailing (state : CompletionNodeState) : Prop := (dependencyCause state).isSome

/-- A state that a node takes only after all its dependencies succeeded. -/
def IsReleased : CompletionNodeState → Prop
  | ready | cancelRequested _ | succeeded | failed _ _ => True
  | _ => False

/-- A state in which the node can be completed. -/
def IsActive : CompletionNodeState → Prop
  | ready | cancelRequested _ => True
  | _ => False

/-- The state handed to the blocked dependents of a node stopped in this state. -/
def inherited (state : CompletionNodeState) : CompletionNodeState :=
  (dependencyCause state).getD state

/-- The node that a state of its own failure or cancellation names. -/
def owner : CompletionNodeState → Option CompletionNodeId
  | failed origin _ | cancelled origin _ => some origin
  | _ => none

instance (state : CompletionNodeState) : Decidable state.IsFailing :=
  inferInstanceAs (Decidable (_ = true))

@[simp] theorem not_isFailing_blocked : ¬ blocked.IsFailing := by decide

@[simp] theorem not_isFailing_ready : ¬ ready.IsFailing := by decide

@[simp] theorem not_isFailing_succeeded : ¬ succeeded.IsFailing := by decide

@[simp] theorem not_isFailing_cancelRequested (reason : CancellationCode) :
    ¬ (cancelRequested reason).IsFailing := by
  simp [IsFailing, dependencyCause]

theorem IsActive.not_isFailing (h : state.IsActive) : ¬ state.IsFailing := by
  cases state <;> simp_all [IsActive]

theorem IsActive.isReleased (h : state.IsActive) : state.IsReleased := by
  cases state <;> simp_all [IsActive, IsReleased]

theorem IsActive.ne_succeeded (h : state.IsActive) : state ≠ succeeded := by
  rintro rfl; exact h

theorem IsActive.isTerminal_eq_false (h : state.IsActive) : state.isTerminal = false := by
  cases state <;> simp_all [IsActive, isTerminal]

theorem isFailing_of_cause {cause : CompletionNodeState} (h : dependencyCause state = some cause) :
    state.IsFailing := by
  rw [IsFailing, h]; rfl

section

variable (h : state.IsFailing)
include h

theorem IsFailing.isTerminal : state.isTerminal = true := by
  revert h
  cases state <;> simp [CompletionNodeState.isTerminal]

/-- A cause is handed on unchanged. -/
theorem dependencyCause_inherited : dependencyCause state.inherited = some state.inherited := by
  cases state <;> first | rfl | simp at h

theorem dependencyCause_eq_inherited : dependencyCause state = some state.inherited := by
  cases state <;> first | rfl | simp at h

theorem IsFailing.inherited : state.inherited.IsFailing :=
  isFailing_of_cause (dependencyCause_inherited h)

theorem IsFailing.ne_blocked : state ≠ blocked := by rintro rfl; simp at h

theorem IsFailing.ne_ready : state ≠ ready := by rintro rfl; simp at h

theorem IsFailing.ne_succeeded : state ≠ succeeded := by rintro rfl; simp at h

theorem IsFailing.not_isReleased_inherited : ¬ state.inherited.IsReleased := by
  revert h
  cases state <;> simp [CompletionNodeState.inherited, dependencyCause, IsReleased]

end

section

variable {origin named : CompletionNodeId} (howner : state.owner = some named)
include howner

theorem eq_failed_of_cause {error : FailureCode}
    (h : dependencyCause state = some (.dependencyFailed origin error)) :
    state = .failed origin error ∧ named = origin := by
  cases state <;> simp_all [owner, dependencyCause]

theorem eq_cancelled_of_cause {reason : CancellationCode}
    (h : dependencyCause state = some (.dependencyCancelled origin reason)) :
    state = .cancelled origin reason ∧ named = origin := by
  cases state <;> simp_all [owner, dependencyCause]

end

theorem owner_inherited (state : CompletionNodeState) : state.inherited.owner = none := by
  cases state <;> rfl

/-- A node that is neither blocked nor failing nor released does not exist. -/
theorem blocked_or_failing_or_released (state : CompletionNodeState) :
    state = blocked ∨ state.IsFailing ∨ state.IsReleased := by
  cases state <;> simp [IsFailing, IsReleased, dependencyCause]

end CompletionNodeState

open CompletionNodeState

/-! ### Assignments and moves -/

abbrev Assignment := Nat → CompletionNodeState

section

variable (dep : Nat → Nat → Prop) (id : Nat → Option CompletionNodeId)

open Classical in
/-- The assignment after node `i` succeeded: a blocked dependent whose other
    dependencies have all succeeded becomes ready. -/
noncomputable def afterSuccess (states : Assignment) (i : Nat) : Assignment := fun v =>
  if v = i then .succeeded
  else if states v = .blocked ∧ dep v i ∧ ∀ j, dep v j → j ≠ i → states j = .succeeded then .ready
  else states v

open Classical in
/-- The assignment after node `i` stopped in `state`: its cause reaches every
    blocked node that depends on it, directly or not. -/
noncomputable def afterStop (states : Assignment) (i : Nat) (state : CompletionNodeState) :
    Assignment := fun v =>
  if v = i then state
  else if states v = .blocked ∧ TransGen dep v i then state.inherited
  else states v

/-- How a node can stop on its own account. -/
inductive Stops (states : Assignment) (i : Nat) : CompletionNodeState → Prop where
  | failed {node : CompletionNodeId} (error : FailureCode) (hid : id i = some node)
      (active : (states i).IsActive) : Stops states i (.failed node error)
  | cancelled {node : CompletionNodeId} (reason : CancellationCode) (hid : id i = some node)
      (requested : states i = .cancelRequested reason) : Stops states i (.cancelled node reason)
  | cancelledBlocked {node : CompletionNodeId} (reason : CancellationCode)
      (hid : id i = some node) (blocked : states i = .blocked) :
      Stops states i (.cancelled node reason)

/-- One step of the abstract machine. -/
inductive Move (states : Assignment) : Assignment → Prop where
  | stay : Move states states
  | request (i : Nat) (reason : CancellationCode) (ready : states i = .ready) :
      Move states (Function.update states i (.cancelRequested reason))
  | succeed (i : Nat) (active : (states i).IsActive) : Move states (afterSuccess dep states i)
  | stop (i : Nat) (state : CompletionNodeState) (stops : Stops id states i state) :
      Move states (afterStop dep states i state)

/-- What the state of node `v`, unless it is blocked, says of its dependencies and its id. -/
structure Justified (states : Assignment) (v : Nat) : Prop where
  released : (states v).IsReleased → ∀ j, dep v j → states j = .succeeded
  inherited : dependencyCause (states v) = some (states v) →
    ∃ j, dep v j ∧ dependencyCause (states j) = some (states v)
  owner : ∀ origin, (states v).owner = some origin → id v = some origin

/-- The state of a node against those of its dependencies. -/
structure Coherent (states : Assignment) : Prop where
  blocked : ∀ v, states v = .blocked →
    (∀ j, dep v j → ¬ (states j).IsFailing) ∧ ∃ j, dep v j ∧ states j ≠ .succeeded
  justified : ∀ v, Justified dep id states v

variable {dep id} {states after : Assignment} {i v : Nat}

theorem Stops.isFailing (h : Stops id states i state) : state.IsFailing := by
  cases h <;> rfl

theorem Stops.not_isFailing (h : Stops id states i state) : ¬ (states i).IsFailing := by
  cases h with
  | failed error hid active => exact active.not_isFailing
  | cancelled reason hid requested => rw [requested]; simp
  | cancelledBlocked reason hid blocked => rw [blocked]; simp

theorem Stops.isTerminal_eq_false (h : Stops id states i state) :
    (states i).isTerminal = false := by
  cases h with
  | failed error hid active => exact active.isTerminal_eq_false
  | cancelled reason hid requested => rw [requested]; rfl
  | cancelledBlocked reason hid blocked => rw [blocked]; rfl

theorem Stops.ne_succeeded (h : Stops id states i state) : states i ≠ .succeeded := by
  cases h with
  | failed error hid active => exact active.ne_succeeded
  | cancelled reason hid requested => rw [requested]; simp
  | cancelledBlocked reason hid blocked => rw [blocked]; simp

/-! ### Facts about one assignment -/

section

variable (coherent : Coherent dep id states)
include coherent

/-- Everything below a released node has succeeded. -/
theorem Coherent.succeeded_of_released
    (h : TransGen dep v i) (released : (states v).IsReleased) : states i = .succeeded := by
  induction h with
  | single hdep => exact (coherent.justified v).released released _ hdep
  | tail _ hdep ih =>
    refine (coherent.justified _).released ?_ _ hdep
    rw [ih]; exact trivial

/-- A node between a blocked node and one that has not succeeded is blocked. -/
theorem Coherent.blocked_between {j : Nat} (hv : states v = .blocked) (hdep : dep v j)
    (h : TransGen dep j i) (hi : states i ≠ .succeeded) : states j = .blocked := by
  rcases blocked_or_failing_or_released (states j) with hj | hj | hj
  · exact hj
  · exact absurd hj ((coherent.blocked v hv).1 j hdep)
  · exact absurd (coherent.succeeded_of_released h hj) hi

/-- An inherited cause is that of an ancestor which failed or was cancelled on its own. -/
theorem Coherent.attribution (rank : Nat → Nat)
    (hrank : ∀ {v j}, dep v j → rank j < rank v) (v : Nat)
    (hv : dependencyCause (states v) = some (states v)) :
    ∃ u origin, TransGen dep v u ∧ id u = some origin ∧ (states u).owner = some origin ∧
      dependencyCause (states u) = some (states v) := by
  induction hn : rank v using Nat.strongRecOn generalizing v with
  | ind n ih =>
    subst hn
    obtain ⟨j, hdep, hcause⟩ := (coherent.justified v).inherited hv
    by_cases hj : dependencyCause (states j) = some (states j)
    · obtain ⟨u, origin, hu, hid, howner, hstate⟩ := ih (rank j) (hrank hdep) j hj rfl
      exact ⟨u, origin, .head hdep hu, hid, howner, hstate.trans (hj.symm.trans hcause)⟩
    · cases howner : (states j).owner with
      | none => cases hstate : states j <;> simp_all [owner, dependencyCause]
      | some origin =>
        exact ⟨j, origin, .single hdep, (coherent.justified j).owner _ howner, howner, hcause⟩

/-- Below every node that is not terminal there is one that can be completed. -/
theorem Coherent.exists_active (rank : Nat → Nat) (hrank : ∀ {v j}, dep v j → rank j < rank v)
    (v : Nat) (hv : (states v).isTerminal = false) : ∃ u, (u = v ∨ TransGen dep v u) ∧
    (states u).IsActive := by
  induction hn : rank v using Nat.strongRecOn generalizing v with
  | ind n ih =>
    subst hn
    by_cases hblocked : states v = .blocked
    · obtain ⟨hfailing, j, hdep, hj⟩ := coherent.blocked v hblocked
      have hterminal : (states j).isTerminal = false := by
        have := hfailing j hdep
        cases hstate : states j <;> simp_all [isTerminal, IsFailing, dependencyCause]
      obtain ⟨u, hu, hactive⟩ := ih (rank j) (hrank hdep) j hterminal rfl
      rcases hu with rfl | hu
      · exact ⟨u, .inr (.single hdep), hactive⟩
      · exact ⟨u, .inr (.head hdep hu), hactive⟩
    · cases hstate : states v <;> simp_all [isTerminal, IsActive]

end

/-! ### Moves -/

@[simp] theorem afterSuccess_self (i : Nat) : afterSuccess dep states i i = .succeeded := by
  simp [afterSuccess]

theorem afterSuccess_of_ne_blocked (hi : v ≠ i) (hv : states v ≠ .blocked) :
    afterSuccess dep states i v = states v := by
  simp [afterSuccess, hi, hv]

/-- The node itself, a released dependent, or a node that keeps its state. -/
theorem afterSuccess_cases (dep : Nat → Nat → Prop) (states : Assignment) (i v : Nat) :
    (v = i ∧ afterSuccess dep states i v = .succeeded) ∨
    (v ≠ i ∧ afterSuccess dep states i v = .ready ∧ states v = .blocked ∧ dep v i ∧
      ∀ j, dep v j → j ≠ i → states j = .succeeded) ∨
    (v ≠ i ∧ afterSuccess dep states i v = states v ∧
      (states v = .blocked → dep v i → ∃ j, dep v j ∧ j ≠ i ∧ states j ≠ .succeeded)) := by
  by_cases hv : v = i
  · subst hv; exact .inl ⟨rfl, afterSuccess_self v⟩
  · by_cases hready : states v = .blocked ∧ dep v i ∧
      ∀ j, dep v j → j ≠ i → states j = .succeeded
    · exact .inr (.inl ⟨hv, by rw [afterSuccess, if_neg hv, if_pos hready], hready⟩)
    · refine .inr (.inr ⟨hv, by rw [afterSuccess, if_neg hv, if_neg hready], ?_⟩)
      intro hblocked hdep
      by_contra hnone
      exact hready ⟨hblocked, hdep, fun j hj hji => by
        by_contra hne; exact hnone ⟨j, hj, hji, hne⟩⟩

@[simp] theorem afterStop_self (i : Nat) (state : CompletionNodeState) :
    afterStop dep states i state i = state := by
  simp [afterStop]

theorem afterStop_of_ne_blocked (hi : v ≠ i) (hv : states v ≠ .blocked) :
    afterStop dep states i state v = states v := by
  simp [afterStop, hi, hv]

/-- The node itself, a blocked dependent, or a node that keeps its state. -/
theorem afterStop_cases (dep : Nat → Nat → Prop) (states : Assignment) (i v : Nat)
    (state : CompletionNodeState) :
    (v = i ∧ afterStop dep states i state v = state) ∨
    (v ≠ i ∧ afterStop dep states i state v = state.inherited ∧ states v = .blocked ∧
      TransGen dep v i) ∨
    (v ≠ i ∧ afterStop dep states i state v = states v ∧
      ¬ (states v = .blocked ∧ TransGen dep v i)) := by
  by_cases hv : v = i
  · subst hv; exact .inl ⟨rfl, afterStop_self v state⟩
  · by_cases hreach : states v = .blocked ∧ TransGen dep v i
    · exact .inr (.inl ⟨hv, by rw [afterStop, if_neg hv, if_pos hreach], hreach⟩)
    · exact .inr (.inr ⟨hv, by rw [afterStop, if_neg hv, if_neg hreach], hreach⟩)

/-- A change that keeps successes and failures only has to justify the states it changes. -/
theorem Coherent.change (coherent : Coherent dep id states)
    (hsucceeded : ∀ j, states j = .succeeded → after j = .succeeded)
    (hfailing : ∀ j, (states j).IsFailing → after j = states j)
    (blocked : ∀ v, after v = .blocked →
      (∀ j, dep v j → ¬ (after j).IsFailing) ∧ ∃ j, dep v j ∧ after j ≠ .succeeded)
    (justified : ∀ v, after v = states v ∨ Justified dep id after v) : Coherent dep id after := by
  refine ⟨blocked, fun v => ?_⟩
  rcases justified v with hsame | hnew
  · refine ⟨fun hv j hj => ?_, fun hv => ?_, ?_⟩
    · exact hsucceeded j ((coherent.justified v).released (hsame ▸ hv) j hj)
    · rw [hsame] at hv ⊢
      obtain ⟨j, hdep, hcause⟩ := (coherent.justified v).inherited hv
      exact ⟨j, hdep, by rw [hfailing j (isFailing_of_cause hcause), hcause]⟩
    · rw [hsame]
      exact (coherent.justified v).owner
  · exact hnew

theorem Coherent.request (coherent : Coherent dep id states) (reason : CancellationCode)
    (hi : states i = .ready) :
    Coherent dep id (Function.update states i (.cancelRequested reason)) := by
  have hother : ∀ v, v ≠ i →
      Function.update states i (.cancelRequested reason) v = states v :=
    fun v hv => Function.update_of_ne hv _ _
  -- neither the old nor the new state of `i` is one that a clause is about
  have hsucceeded : ∀ j, states j = .succeeded →
      Function.update states i (.cancelRequested reason) j = .succeeded := by
    intro j hj
    rw [hother j (by rintro rfl; rw [hi] at hj; cases hj)]
    exact hj
  refine coherent.change hsucceeded
    (fun j hj => hother j (by rintro rfl; exact hj.ne_ready hi)) ?_ ?_
  · intro v hv
    have hvi : v ≠ i := by rintro rfl; simp at hv
    rw [hother v hvi] at hv
    obtain ⟨hnone, j, hdep, hj⟩ := coherent.blocked v hv
    refine ⟨fun k hk hfail => ?_, j, hdep, ?_⟩
    · by_cases hki : k = i
      · subst hki; simp at hfail
      · rw [hother k hki] at hfail; exact hnone k hk hfail
    · by_cases hji : j = i
      · subst hji; simp
      · rw [hother j hji]; exact hj
  · intro v
    by_cases hvi : v = i
    · subst hvi
      refine .inr ⟨fun _ j hj => ?_, ?_, ?_⟩
      · exact hsucceeded j ((coherent.justified v).released (by rw [hi]; exact trivial) j hj)
      · simp [dependencyCause]
      · simp [owner]
    · exact .inl (hother v hvi)

theorem Coherent.success (coherent : Coherent dep id states) (active : (states i).IsActive) :
    Coherent dep id (afterSuccess dep states i) := by
  have hsucceeded : ∀ j, states j = .succeeded → afterSuccess dep states i j = .succeeded := by
    intro j hj
    by_cases hji : j = i
    · rw [hji, afterSuccess_self]
    · rw [afterSuccess_of_ne_blocked hji (by rw [hj]; simp), hj]
  refine coherent.change hsucceeded (fun j hj => afterSuccess_of_ne_blocked
    (by rintro rfl; exact active.not_isFailing hj) hj.ne_blocked) ?_ ?_
  · intro v hv
    rcases afterSuccess_cases dep states i v with
      ⟨_, h⟩ | ⟨_, h, _⟩ | ⟨hvi, h, hopen⟩
    · rw [h] at hv; cases hv
    · rw [h] at hv; cases hv
    · rw [h] at hv
      obtain ⟨hnone, j, hdep, hj⟩ := coherent.blocked v hv
      refine ⟨fun k hk hfail => ?_, ?_⟩
      · rcases afterSuccess_cases dep states i k with
          ⟨_, h⟩ | ⟨_, h, _⟩ | ⟨_, h, _⟩
        · exact hfail.ne_succeeded h
        · exact hfail.ne_ready h
        · rw [h] at hfail; exact hnone k hk hfail
      · -- an open dependency other than `i` remains open
        obtain ⟨k, hk, hki, hopenk⟩ : ∃ k, dep v k ∧ k ≠ i ∧ states k ≠ .succeeded := by
          by_cases hji : j = i
          · exact hopen hv (hji ▸ hdep)
          · exact ⟨j, hdep, hji, hj⟩
        refine ⟨k, hk, ?_⟩
        rcases afterSuccess_cases dep states i k with
          ⟨hki', _⟩ | ⟨_, h, _⟩ | ⟨_, h, _⟩
        · exact absurd hki' hki
        · rw [h]; simp
        · rw [h]; exact hopenk
  · intro v
    rcases afterSuccess_cases dep states i v with
      ⟨rfl, h⟩ | ⟨_, h, _, _, hothers⟩ | ⟨_, h, _⟩
    · refine .inr ⟨fun _ j hj => ?_, by simp [dependencyCause], by simp [owner]⟩
      exact hsucceeded j ((coherent.justified v).released active.isReleased j hj)
    · refine .inr ⟨fun _ j hj => ?_, by simp [h, dependencyCause], by simp [h, owner]⟩
      by_cases hji : j = i
      · rw [hji, afterSuccess_self]
      · exact hsucceeded j (hothers j hj hji)
    · exact .inl h

theorem Coherent.stop (coherent : Coherent dep id states) (stops : Stops id states i state) :
    Coherent dep id (afterStop dep states i state) := by
  have hsucceeded : ∀ j, states j = .succeeded → afterStop dep states i state j = .succeeded := by
    intro j hj
    rw [afterStop_of_ne_blocked (by rintro rfl; exact stops.ne_succeeded hj) (by rw [hj]; simp), hj]
  refine coherent.change hsucceeded (fun j hj => afterStop_of_ne_blocked
    (by rintro rfl; exact stops.not_isFailing hj) hj.ne_blocked) ?_ ?_
  · intro v hv
    rcases afterStop_cases dep states i v state with
      ⟨_, h⟩ | ⟨_, h, _⟩ | ⟨_, h, hfar⟩
    · exact absurd (h.symm.trans hv) stops.isFailing.ne_blocked
    · exact absurd (h.symm.trans hv) stops.isFailing.inherited.ne_blocked
    · rw [h] at hv
      obtain ⟨hnone, j, hdep, hj⟩ := coherent.blocked v hv
      refine ⟨fun k hk hfail => ?_, j, hdep, fun hsame => ?_⟩
      · rcases afterStop_cases dep states i k state with
          ⟨rfl, _⟩ | ⟨_, _, _, hreach⟩ | ⟨_, h, _⟩
        · exact hfar ⟨hv, .single hk⟩
        · exact hfar ⟨hv, .head hk hreach⟩
        · rw [h] at hfail; exact hnone k hk hfail
      · rcases afterStop_cases dep states i j state with
          ⟨_, h⟩ | ⟨_, h, _⟩ | ⟨_, h, _⟩
        · exact stops.isFailing.ne_succeeded (h.symm.trans hsame)
        · exact stops.isFailing.inherited.ne_succeeded (h.symm.trans hsame)
        · exact hj (h ▸ hsame)
  · intro v
    rcases afterStop_cases dep states i v state with
      ⟨rfl, h⟩ | ⟨_, h, hblocked, hreach⟩ | ⟨_, h, _⟩
    · refine .inr ⟨fun hv j hj => hsucceeded j ?_, ?_, ?_⟩
      all_goals rw [h] at *
      · cases stops with
        | failed error hid active => exact (coherent.justified v).released active.isReleased j hj
        | cancelled reason hid requested => exact hv.elim
        | cancelledBlocked reason hid blocked => exact hv.elim
      · cases stops <;> simp [dependencyCause]
      · cases stops <;> simp_all [owner]
    · -- a blocked dependent of `i` has a dependency with the cause
      refine .inr ⟨fun hv => ?_, fun _ => ?_, by simp [h, owner_inherited]⟩
      · rw [h] at hv
        exact absurd hv stops.isFailing.not_isReleased_inherited
      rw [h]
      obtain ⟨j, hdep, hji⟩ := TransGen.head'_iff.mp hreach
      refine ⟨j, hdep, ?_⟩
      rcases reflTransGen_iff_eq_or_transGen.mp hji with rfl | hji
      · rw [afterStop_self]; exact dependencyCause_eq_inherited stops.isFailing
      · have hj := coherent.blocked_between hblocked hdep hji stops.ne_succeeded
        rcases afterStop_cases dep states i j state with
          ⟨_, h⟩ | ⟨_, h, _⟩ | ⟨_, _, h⟩
        · rw [h]; exact dependencyCause_eq_inherited stops.isFailing
        · rw [h]; exact dependencyCause_inherited stops.isFailing
        · exact absurd ⟨hj, hji⟩ h
    · exact .inl h

/-- A move leaves the state of a node, or takes the node out of one that is not terminal. -/
theorem Move.changes (h : Move dep id states after) (v : Nat) :
    after v = states v ∨ (states v).isTerminal = false ∧ after v ≠ .blocked ∧
      (after v = .ready → states v = .blocked) := by
  cases h with
  | stay => exact .inl rfl
  | request i reason ready =>
    by_cases hv : v = i
    · subst hv
      rw [Function.update_self, ready]
      exact .inr ⟨rfl, nofun, nofun⟩
    · exact .inl (Function.update_of_ne hv _ _)
  | succeed i active =>
    rcases afterSuccess_cases dep states i v with ⟨rfl, h⟩ | ⟨_, h, hblocked, _⟩ | ⟨_, h, _⟩
    · rw [h]; exact .inr ⟨active.isTerminal_eq_false, nofun, nofun⟩
    · rw [h, hblocked]; exact .inr ⟨rfl, nofun, fun _ => rfl⟩
    · exact .inl h
  | stop i state stops =>
    rcases afterStop_cases dep states i v state with ⟨rfl, h⟩ | ⟨_, h, hblocked, _⟩ | ⟨_, h, _⟩
    · rw [h]
      exact .inr ⟨stops.isTerminal_eq_false, stops.isFailing.ne_blocked,
        fun hready => absurd hready stops.isFailing.ne_ready⟩
    · rw [h, hblocked]; exact .inr ⟨rfl, stops.isFailing.inherited.ne_blocked, fun _ => rfl⟩
    · exact .inl h

/-- A terminal state is final. -/
theorem Move.terminal (h : Move dep id states after) (hv : (states v).isTerminal = true) :
    after v = states v := by
  obtain hsame | ⟨hopen, -⟩ := h.changes v
  · exact hsame
  · rw [hopen] at hv; cases hv

/-- No move makes a node blocked. -/
theorem Move.blocked (h : Move dep id states after) (hv : after v = .blocked) :
    states v = .blocked := by
  obtain hsame | ⟨-, hne, -⟩ := h.changes v
  · exact hsame ▸ hv
  · exact absurd hv hne

/-- A node that is ready after a move was ready or blocked before it. -/
theorem Move.ready (h : Move dep id states after) (hv : after v = .ready) :
    states v = .ready ∨ states v = .blocked := by
  obtain hsame | ⟨-, -, hblocked⟩ := h.changes v
  · exact .inl (hsame ▸ hv)
  · exact .inr (hblocked hv)

end

end Fe2o3.Completion
