import Fe2o3.Virtual.Execution

/-!
# What `run_next` does in a state

The scan over the dispatches depends on the states of their dependencies only.  Either
nothing is prepared, or everything prepared waits, or the scan stops at a dispatch with
a failed dependency, which is aborted, or at one whose dependencies have all completed,
which is executed.
-/

namespace Fe2o3.Virtual

open Lib KernelIr RuntimeModel Command List

/-- A dispatch that will never complete. -/
def VirtualCompletionState.failed : VirtualCompletionState → Bool
  | cancelled | abortedDependency | abortedSimulation | failedQuiescent => true
  | _ => false

variable {blocked : Bool} {state : VirtualCompletionState}

namespace VirtualRuntime

variable (runtime : VirtualRuntime)

/-- The dispatch with this handle is in this state. -/
def StateOf (handle : VirtualCompletionHandle) (state : VirtualCompletionState) : Prop :=
  ∃ dispatch ∈ runtime.dispatches, dispatch.completion = handle ∧ dispatch.state = state

/-- The lowest of the dependencies that have not completed. -/
def LowestOpen (dependencies : List VirtualCompletionHandle)
    (dependency : VirtualCompletionHandle) : Prop :=
  dependency ∈ dependencies ∧ ¬ runtime.StateOf dependency .completed ∧
    ∀ other ∈ dependencies, ¬ runtime.StateOf other .completed →
      dependency.ordinal ≤ other.ordinal

def Ready (dependencies : List VirtualCompletionHandle) : Prop :=
  ∀ dependency ∈ dependencies, runtime.StateOf dependency .completed

def Waits (dependencies : List VirtualCompletionHandle) : Prop :=
  ∃ dependency, runtime.LowestOpen dependencies dependency ∧
    (runtime.StateOf dependency .prepared ∨ runtime.StateOf dependency .ambiguous)

def Fails (dependencies : List VirtualCompletionHandle)
    (dependency : VirtualCompletionHandle) : Prop :=
  runtime.LowestOpen dependencies dependency ∧
    ∃ state, runtime.StateOf dependency state ∧ state.failed = true

/-- What a readiness says about the dependencies. -/
def ReadinessFits (dependencies : List VirtualCompletionHandle) :
    DependencyReadiness → Prop
  | .ready => runtime.Ready dependencies
  | .blocked => runtime.Waits dependencies
  | .failed dependency => runtime.Fails dependencies dependency

variable {runtime : VirtualRuntime} {environment : Environment} {i : Nat}
  {dispatch : DispatchRecordLocal} {dependencies : List VirtualCompletionHandle}
  {dependency : VirtualCompletionHandle}

/-! ### Readiness -/

/-- A completed dependency in front changes nothing about the rest. -/
theorem LowestOpen.cons {first : VirtualCompletionHandle}
    (h : runtime.LowestOpen dependencies dependency) (hfirst : runtime.StateOf first .completed) :
    runtime.LowestOpen (first :: dependencies) dependency := by
  refine ⟨mem_cons_of_mem _ h.1, h.2.1, fun other hother hopen => ?_⟩
  obtain rfl | hother := mem_cons.mp hother
  · exact absurd hfirst hopen
  · exact h.2.2 other hother hopen

theorem dispatchAt_eq (h : runtime.dispatches[i]? = some dispatch) :
    dispatchAt i runtime = .done dispatch runtime := by
  show (expect runtime.dispatches[i]? : Action DispatchRecordLocal) runtime = _
  rw [h]
  rfl

section

variable (h : runtime.Inv)
include h

/-- A handle has one dispatch, and so one state. -/
theorem Inv.stateOf_unique {handle : VirtualCompletionHandle} {other : VirtualCompletionState}
    (hstate : runtime.StateOf handle state) (hother : runtime.StateOf handle other) :
    state = other := by
  obtain ⟨dispatch, hmem, hcompletion, rfl⟩ := hstate
  obtain ⟨dispatch', hmem', hcompletion', rfl⟩ := hother
  rw [eq_of_same_key h.coherent.handles.dispatches.distinct hmem hmem'
    (hcompletion.trans hcompletion'.symm)]

/-- An open dependency in front of ascending ones is the lowest. -/
theorem Inv.lowestOpen_head
    (hascending : (dependency :: dependencies).Pairwise fun left right => left.ordinal ≤
    right.ordinal)
    (hstate : runtime.StateOf dependency state) (hopen : state ≠ .completed) :
    runtime.LowestOpen (dependency :: dependencies) dependency := by
  refine ⟨mem_cons_self .., fun hcompleted => hopen (h.stateOf_unique hstate hcompleted),
    fun other hother _ => ?_⟩
  obtain rfl | hother := mem_cons.mp hother
  · exact Nat.le_refl _
  · exact (pairwise_cons.mp hascending).1 other hother

theorem meets_readinessFrom (hfound : ∀ dependency ∈ dependencies,
      dependency ∈ runtime.dispatches.map DispatchRecordLocal.completion)
    (hascending : dependencies.Pairwise fun left right => left.ordinal ≤ right.ordinal) :
    Meets (readinessFrom dependencies)
      (fun readiness next => next = runtime ∧ runtime.ReadinessFits dependencies readiness)
      (fun _ _ => False) False runtime := by
  induction dependencies with
  | nil => exact ⟨rfl, nofun⟩
  | cons dependency dependencies ih =>
    have hrest := ih (fun other hother => hfound other (mem_cons_of_mem _ hother))
      (pairwise_cons.mp hascending).2
    have hmem := hfound dependency (mem_cons_self ..)
    obtain ⟨record, hrecord, hcompletion⟩ := mem_map.mp hmem
    have hissued := h.coherent.handles.dispatches.issued record hrecord
    have hindex : ∃ index, runtime.dispatchIndex dependency = .ok index :=
      exists_indexOf (hcompletion ▸ hissued.1) hmem
    obtain ⟨index, hindex⟩ := hindex
    obtain ⟨found, hdispatch, hhandle⟩ := record_of_indexOf hindex
    have hstate : runtime.StateOf dependency found.state :=
      ⟨found, mem_of_getElem? hdispatch, hhandle, rfl⟩
    rw [readinessFrom, meets_bind, meets_read, meets_bind, meets_expect, hindex]
    refine ⟨fun position hposition => ?_, nofun⟩
    cases hposition
    rw [meets_bind, meets_recordAt hdispatch]
    cases hcase : found.state with
    | completed =>
      rw [hcase] at hstate
      refine hrest.mono ?_ (fun _ _ => False.elim) False.elim
      rintro readiness _ ⟨rfl, hfits⟩
      refine ⟨rfl, ?_⟩
      cases readiness with
      | ready => exact forall_mem_cons.mpr ⟨hstate, hfits⟩
      | blocked =>
        obtain ⟨lowest, hlowest, hwaits⟩ := hfits
        exact ⟨lowest, hlowest.cons hstate, hwaits⟩
      | failed lowest => exact ⟨hfits.1.cons hstate, hfits.2⟩
    | prepared =>
      rw [hcase] at hstate
      exact ⟨rfl, dependency, h.lowestOpen_head hascending hstate (by decide), .inl hstate⟩
    | ambiguous =>
      rw [hcase] at hstate
      exact ⟨rfl, dependency, h.lowestOpen_head hascending hstate (by decide), .inr hstate⟩
    | cancelled | abortedDependency | abortedSimulation | failedQuiescent =>
      rw [hcase] at hstate
      exact ⟨rfl, h.lowestOpen_head hascending hstate (by decide), _, hstate, rfl⟩

theorem exists_readiness (hdispatch : runtime.dispatches[i]? = some dispatch) :
    ∃ readiness, dependencyReadiness i runtime = .done readiness runtime ∧
      runtime.ReadinessFits dispatch.request.dependencies readiness := by
  have hfits := h.coherent.dependencies dispatch (mem_of_getElem? hdispatch)
  obtain ⟨readiness, next, hdone, rfl, hreadiness⟩ := (meets_readinessFrom h
    (fun dependency hmem => (hfits.earlier dependency hmem).2) hfits.ascending).exists_done
  refine ⟨readiness, ?_, hreadiness⟩
  rw [dependencyReadiness, bind_of_done (dispatchAt_eq hdispatch)]
  exact hdone

/-! ### The scan -/

/-- What `runNext` does, whatever the environment answers. -/
inductive RunStep (runtime : VirtualRuntime)
    (outcome : Environment → Outcome VirtualRuntime VirtualRuntimeError VirtualRunProgress) : Prop
  | idle : (∀ dispatch ∈ runtime.dispatches, dispatch.state ≠ .prepared) →
      (∀ environment, outcome environment = .done .idle runtime) → RunStep runtime outcome
  | blocked : (∃ dispatch ∈ runtime.dispatches, dispatch.state = .prepared) →
      (∀ dispatch ∈ runtime.dispatches, dispatch.state = .prepared →
        runtime.Waits dispatch.request.dependencies) →
      (∀ environment, outcome environment = .done .blocked runtime) → RunStep runtime outcome
  | aborts (i : Nat) (dispatch : DispatchRecordLocal) (dependency : VirtualCompletionHandle)
      (next : VirtualRuntime) : runtime.dispatches[i]? = some dispatch →
        dispatch.state = .prepared →
      runtime.Fails dispatch.request.dependencies dependency → Kept nowhere runtime next →
      Ends i .abortedDependency runtime next → Untouched runtime next →
      (∀ environment,
        outcome environment = .done (.abortedDependency dispatch.completion dependency) next) →
      RunStep runtime outcome
  | executes (i : Nat) (dispatch : DispatchRecordLocal) :
      runtime.dispatches[i]? = some dispatch → dispatch.state = .prepared →
      runtime.Ready dispatch.request.dependencies →
      (∀ environment, outcome environment = executeDispatch environment i runtime) →
      RunStep runtime outcome

/-- The scan, with what is known of the positions it has passed. -/
theorem runFrom_step (seen indices : List Nat)
    (hall : seen ++ indices = List.range runtime.dispatches.length)
    (hseen : ∀ j ∈ seen, ∀ dispatch, runtime.dispatches[j]? = some dispatch →
      dispatch.state = .prepared → runtime.Waits dispatch.request.dependencies)
    (hblocked : blocked = true ↔ ∃ j ∈ seen, ∃ dispatch, runtime.dispatches[j]? = some dispatch ∧
      dispatch.state = .prepared) :
    RunStep runtime fun environment => runFrom environment blocked indices runtime := by
  induction indices generalizing seen blocked with
  | nil =>
    rw [append_nil] at hall
    have hpassed : ∀ dispatch ∈ runtime.dispatches, ∃ j ∈ seen,
        runtime.dispatches[j]? = some dispatch := by
      intro dispatch hmem
      obtain ⟨j, hj⟩ := getElem?_of_mem hmem
      refine ⟨j, ?_, hj⟩
      rw [hall]
      exact mem_range.mpr (List.getElem?_eq_some_iff.mp hj).1
    cases blocked with
    | false =>
      refine .idle (fun dispatch hmem hprepared => ?_) fun _ => rfl
      obtain ⟨j, hj, hdispatch⟩ := hpassed dispatch hmem
      nomatch hblocked.mpr ⟨j, hj, dispatch, hdispatch, hprepared⟩
    | true =>
      obtain ⟨j, -, dispatch, hdispatch, hprepared⟩ := hblocked.mp rfl
      refine .blocked ⟨dispatch, mem_of_getElem? hdispatch, hprepared⟩
        (fun other hmem hstate => ?_) fun _ => rfl
      obtain ⟨k, hk, hother⟩ := hpassed other hmem
      exact hseen k hk other hother hstate
  | cons i indices ih =>
    have hrest : (seen ++ [i]) ++ indices = List.range runtime.dispatches.length := by
      rw [append_assoc]
      exact hall
    have hlt : i < runtime.dispatches.length := by
      rw [← mem_range, ← hall]
      exact mem_append_right _ (mem_cons_self ..)
    obtain ⟨dispatch, hdispatch⟩ : ∃ dispatch, runtime.dispatches[i]? = some dispatch :=
      ⟨_, getElem?_eq_getElem hlt⟩
    have hscan : ∀ environment, runFrom environment blocked (i :: indices) runtime = _ :=
      fun _ => bind_of_done (dispatchAt_eq hdispatch)
    simp only [hscan]
    by_cases hprepared : dispatch.state = .prepared
    · simp only [hprepared, ne_eq, not_true_eq_false, if_false]
      obtain ⟨readiness, hreadiness, hfits⟩ := exists_readiness h hdispatch
      simp only [bind_of_done hreadiness]
      cases readiness with
      | ready => exact .executes i dispatch hdispatch hprepared hfits fun _ => rfl
      | failed dependency =>
        have hstate : VirtualCompletionState.abortedDependency.modelState =
            .abortedBeforePublication := rfl
        obtain ⟨_, next, hdone, hkept, hends, huntouched⟩ :=
          (meets_abandonPrepared h hdispatch hprepared hstate).exists_done
        refine .aborts i dispatch dependency next hdispatch hprepared hfits hkept hends huntouched
          fun _ => ?_
        exact bind_of_done hdone
      | blocked =>
        refine ih _ hrest (fun j hj other hother hstate => ?_) ⟨fun _ => ?_, fun _ => rfl⟩
        · obtain hj | hj := mem_append.mp hj
          · exact hseen j hj other hother hstate
          · obtain rfl := mem_singleton.mp hj
            cases hdispatch.symm.trans hother
            exact hfits
        · exact ⟨i, mem_append_right _ (mem_singleton_self i), dispatch, hdispatch,
            hprepared⟩
    · simp only [ne_eq, hprepared, not_false_eq_true, if_true]
      refine ih _ hrest (fun j hj other hother hstate => ?_) (hblocked.trans ⟨?_, ?_⟩)
      · obtain hj | hj := mem_append.mp hj
        · exact hseen j hj other hother hstate
        · obtain rfl := mem_singleton.mp hj
          cases hdispatch.symm.trans hother
          exact absurd hstate hprepared
      · rintro ⟨j, hj, hfound⟩
        exact ⟨j, mem_append_left _ hj, hfound⟩
      · rintro ⟨j, hj, other, hother, hstate⟩
        obtain hj | hj := mem_append.mp hj
        · exact ⟨j, hj, other, hother, hstate⟩
        · obtain rfl := mem_singleton.mp hj
          cases hdispatch.symm.trans hother
          exact absurd hstate hprepared

theorem runNext_step : RunStep runtime fun environment => runNext environment runtime :=
  runFrom_step h [] _ rfl nofun
    ⟨nofun, fun ⟨_, hj, _⟩ => (nomatch hj)⟩

/-- The positions that the dispatch which `runNext` completes writes. -/
def RunWrites (environment : Environment) (runtime : VirtualRuntime) (j p : Nat) : Prop :=
  ∃ i dispatch execution summary next, runtime.dispatches[i]? = some dispatch ∧
    dispatch.state = .prepared ∧ Executes environment runtime i dispatch execution ∧
    runNext environment runtime = .done (.completed dispatch.completion summary) next ∧
    execution.Hits dispatch j p

theorem runNext_serves (environment : Environment) :
    Serves (RunWrites environment runtime) (runNext environment) runtime := by
  unfold Serves Meets
  cases runNext_step h with
  | idle _ houtcome | blocked _ _ houtcome =>
    rw [houtcome]
    exact .refl h
  | aborts i dispatch dependency next _ _ _ hkept _ _ houtcome =>
    rw [houtcome]
    exact hkept.mono fun _ _ => False.elim
  | executes i dispatch hdispatch hprepared _ houtcome =>
    rw [houtcome]
    refine (meets_executeDispatch environment h hdispatch hprepared).and_outcome.mono ?_
      (fun _ _ hnext => hnext.1.1) False.elim
    rintro _ next ⟨⟨⟨summary, rfl⟩, -, execution, hexecutes, hkept⟩, hdone⟩
    exact hkept.mono fun j p hhits => ⟨i, dispatch, execution, summary, next, hdispatch, hprepared,
      hexecutes, (houtcome environment).trans hdone, hhits⟩

end

end VirtualRuntime

end Fe2o3.Virtual
