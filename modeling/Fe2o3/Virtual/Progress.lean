import Fe2o3.Virtual.Safety

/-!
# Dependencies are followed and progress is made

Dependencies point to smaller ordinals, so among the prepared dispatches the lowest one
waits for an ambiguous dispatch or for nothing.  Each call that finds work takes one
dispatch out of the prepared state, and without ambiguity the prepared dispatches run
out.
-/

namespace Fe2o3.Virtual

open Lib KernelIr RuntimeModel Command List

variable {config : VirtualRuntimeConfig} {calls : List Call}

namespace VirtualRuntime

variable {runtime next : VirtualRuntime} {i : Nat} {dispatch : DispatchRecordLocal}
  {state : VirtualCompletionState} {environment : Environment}

/-! ### Waiting -/

/-- Below a prepared dispatch there is an ambiguous one, if everything prepared waits. -/
theorem Inv.ambiguous_of_waits (h : runtime.Inv)
    (hwaits : ∀ dispatch ∈ runtime.dispatches, dispatch.state = .prepared →
      runtime.Waits dispatch.request.dependencies) (ordinal : Nat) :
    ∀ dispatch ∈ runtime.dispatches, dispatch.state = .prepared →
      dispatch.completion.ordinal = ordinal →
      ∃ other ∈ runtime.dispatches, other.state = .ambiguous := by
  -- On the ordinal: a prepared dependency is a smaller prepared dispatch.
  induction ordinal using Nat.strongRecOn with
  | ind ordinal ih =>
    rintro dispatch hmem hprepared rfl
    obtain ⟨dependency, ⟨hin, -, -⟩, hprepared | hambiguous⟩ := hwaits dispatch hmem hprepared
    · obtain ⟨other, hother, hcompletion, hstate⟩ := hprepared
      have hlt := ((h.coherent.dependencies dispatch hmem).earlier dependency hin).1
      exact ih dependency.ordinal hlt other hother hstate (by rw [hcompletion])
    · obtain ⟨other, hother, -, hstate⟩ := hambiguous
      exact ⟨other, hother, hstate⟩

/-! ### One step -/

/-- The records after the end of a dispatch. -/
theorem Ends.records (h : Ends i state runtime next)
    (hdispatch : runtime.dispatches[i]? = some dispatch) :
    (∃ later, next.dispatches[i]? = some later ∧ later.state = state) ∧
      ∀ j, j ≠ i → next.dispatches[j]? = runtime.dispatches[j]? := by
  obtain ⟨f, hf, hdispatches⟩ := h
  rw [hdispatches]
  refine ⟨⟨f dispatch, getElem?_modify_self hdispatch, by rw [hf]⟩, fun j hne => ?_⟩
  exact getElem?_modify_of_ne (Ne.symm hne)

/-- One prepared dispatch less. -/
theorem Ends.prepared (h : Ends i state runtime next)
    (hdispatch : runtime.dispatches[i]? = some dispatch) (hprepared : dispatch.state = .prepared)
    (hstate : state ≠ .prepared) :
    next.preparedDispatches.length + 1 = runtime.preparedDispatches.length := by
  obtain ⟨f, hf, hdispatches⟩ := h
  have hlater : (f dispatch).state = state := by rw [hf]
  have hcount := countP_modify (f := f)
    (p := fun dispatch : DispatchRecordLocal => dispatch.state == .prepared) hdispatch
  unfold preparedDispatches
  rw [hdispatches, ← countP_eq_length_filter, ← countP_eq_length_filter]
  simpa [hprepared, hlater, hstate] using hcount

/-- No dispatch becomes ambiguous by ending. -/
theorem Ends.unambiguous (h : Ends i state runtime next) (hstate : state ≠ .ambiguous)
    (hnone : ∀ dispatch ∈ runtime.dispatches, dispatch.state ≠ .ambiguous) :
    ∀ dispatch ∈ next.dispatches, dispatch.state ≠ .ambiguous := by
  obtain ⟨f, hf, hdispatches⟩ := h
  intro later hlater
  rw [hdispatches] at hlater
  obtain ⟨j, hj⟩ := getElem?_of_mem hlater
  obtain ⟨old, hold, rfl | ⟨rfl, rfl⟩⟩ := getElem?_modify_cases hj
  · exact hnone later (mem_of_getElem? hold)
  · rw [hf]
    exact hstate

/-- One dispatch left the prepared state, for a reason that its dependencies gave. -/
structure Advances (environment : Environment) (runtime next : VirtualRuntime) (i : Nat)
    (dispatch later : DispatchRecordLocal) : Prop where
  before : runtime.dispatches[i]? = some dispatch
  prepared : dispatch.state = .prepared
  after : next.dispatches[i]? = some later
  others : ∀ j, j ≠ i → next.dispatches[j]? = runtime.dispatches[j]?
  ended : later.state = .completed ∨ later.state = .abortedSimulation ∨
    later.state = .abortedDependency
  ran : later.state = .completed ∨ later.state = .abortedSimulation ∨ ¬ Untouched runtime next ∨
    (∃ other, runNext other runtime ≠ runNext environment runtime) →
    runtime.Ready dispatch.request.dependencies
  aborted : later.state = .abortedDependency → ∃ dependency ∈ dispatch.request.dependencies,
    ∃ state, runtime.StateOf dependency state ∧ state.failed = true

section

variable (h : runtime.Inv)
include h

/-- How the step of a call with work to do ends. -/
theorem executes_ends (hdispatch : runtime.dispatches[i]? = some dispatch)
    (hprepared : dispatch.state = .prepared) (environment : Environment) :
    ∃ next state, (executeDispatch environment i runtime).state? = some next ∧
      Ends i state runtime next ∧ (state = .completed ∨ state = .abortedSimulation) ∧
      ∀ progress final, executeDispatch environment i runtime = .done progress final →
        progress ≠ .idle ∧ progress ≠ .blocked := by
  obtain ⟨_, next, hdone, ⟨summary, rfl⟩, hends, -⟩ | ⟨error, next, hfailed, -, hends, -⟩ |
      ⟨-, hfalse⟩ := (meets_executeDispatch environment h hdispatch hprepared).outcomes
  · refine ⟨next, .completed, by rw [hdone]; rfl, hends, .inl rfl, fun other final hother => ?_⟩
    rw [hdone] at hother
    obtain ⟨rfl, -⟩ := Outcome.done.inj hother
    exact ⟨nofun, nofun⟩
  · refine ⟨next, .abortedSimulation, by rw [hfailed]; rfl, hends, .inr rfl,
      fun other final hother => ?_⟩
    nomatch hfailed.symm.trans hother
  · exact hfalse.elim

/-- Whatever is prepared and does not only wait advances by one dispatch. -/
theorem RunStep.advances
    (hstep : RunStep runtime fun environment => runNext environment runtime)
    (hwork : ∃ dispatch ∈ runtime.dispatches, dispatch.state = .prepared)
    (hready : ¬ ∀ dispatch ∈ runtime.dispatches, dispatch.state = .prepared →
      runtime.Waits dispatch.request.dependencies) (environment : Environment) :
    ∃ next i dispatch later, (runNext environment runtime).state? = some next ∧
      Advances environment runtime next i dispatch later := by
  cases hstep with
  | idle hnone =>
    obtain ⟨dispatch, hmem, hprepared⟩ := hwork
    exact absurd hprepared (hnone dispatch hmem)
  | blocked _ hwaits => exact absurd hwaits hready
  | aborts i dispatch dependency next hdispatch hprepared hfails hkept hends huntouched houtcome =>
    obtain ⟨⟨later, hlater, hstate⟩, hothers⟩ := hends.records hdispatch
    refine ⟨next, i, dispatch, later, by rw [houtcome]; rfl, hdispatch, hprepared, hlater, hothers,
      .inr (.inr hstate), fun hran => ?_, fun _ => ?_⟩
    · rw [hstate] at hran
      obtain hfalse | hfalse | htouched | ⟨other, hother⟩ := hran
      · nomatch hfalse
      · nomatch hfalse
      · exact absurd huntouched htouched
      · rw [houtcome, houtcome] at hother
        exact absurd rfl hother
    · obtain ⟨⟨hin, -, -⟩, state, hstateOf, hfailed⟩ := hfails
      exact ⟨dependency, hin, state, hstateOf, hfailed⟩
  | executes i dispatch hdispatch hprepared hall houtcome =>
    obtain ⟨next, state, hnext, hends, hstate, -⟩ :=
      executes_ends h hdispatch hprepared environment
    obtain ⟨⟨later, hlater, rfl⟩, hothers⟩ := hends.records hdispatch
    refine ⟨next, i, dispatch, later, by rw [houtcome]; exact hnext, hdispatch, hprepared, hlater,
      hothers, hstate.imp_right .inl, fun _ => hall, fun haborted => ?_⟩
    rw [haborted] at hstate
    obtain hfalse | hfalse := hstate
    · nomatch hfalse
    · nomatch hfalse

/-- When nothing is prepared, and only then, the call is idle. -/
theorem runNext_idle_iff :
    (∃ next, runNext environment runtime = .done .idle next) ↔
      ∀ dispatch ∈ runtime.dispatches, dispatch.state ≠ .prepared := by
  cases runNext_step h with
  | idle hnone houtcome => exact ⟨fun _ => hnone, fun _ => ⟨runtime, houtcome environment⟩⟩
  | blocked hwork _ houtcome =>
    refine ⟨fun ⟨next, hidle⟩ => ?_, fun hnone => ?_⟩
    · nomatch (houtcome environment).symm.trans hidle
    · obtain ⟨dispatch, hmem, hprepared⟩ := hwork
      exact absurd hprepared (hnone dispatch hmem)
  | aborts i dispatch dependency last hdispatch hprepared _ _ _ _ houtcome =>
    refine ⟨fun ⟨next, hidle⟩ => ?_, fun hnone => ?_⟩
    · nomatch (houtcome environment).symm.trans hidle
    · exact absurd hprepared (hnone dispatch (mem_of_getElem? hdispatch))
  | executes i dispatch hdispatch hprepared _ houtcome =>
    obtain ⟨_, _, -, -, -, hprogress⟩ := executes_ends h hdispatch hprepared environment
    refine ⟨fun ⟨next, hidle⟩ => ?_, fun hnone => ?_⟩
    · exact absurd rfl (hprogress _ next ((houtcome environment).symm.trans hidle)).1
    · exact absurd hprepared (hnone dispatch (mem_of_getElem? hdispatch))

/-- A dispatch with an open dependency is not ready, and one with a failed one does not wait. -/
theorem Inv.waits_excludes {dependencies : List VirtualCompletionHandle}
    (hwaits : runtime.Waits dependencies) :
    ¬ runtime.Ready dependencies ∧ ∀ dependency, ¬ runtime.Fails dependencies dependency := by
  obtain ⟨lowest, ⟨hin, hopen, hleast⟩, hstate⟩ := hwaits
  refine ⟨fun hready => hopen (hready lowest hin), ?_⟩
  rintro dependency ⟨⟨hin', hopen', hleast'⟩, failed, hfailedState, hfailed⟩
  have hidentity : ∀ handle state, runtime.StateOf handle state →
      handle.runtimeIdentity = runtime.config.runtimeIdentity := by
    rintro handle state ⟨dispatch, hmem, rfl, -⟩
    exact (h.coherent.handles.dispatches.issued dispatch hmem).1
  have hlowest : lowest.runtimeIdentity = runtime.config.runtimeIdentity :=
    hstate.elim (hidentity _ _) (hidentity _ _)
  -- Both are the lowest open dependency, so they are the same handle.
  have hordinal : dependency.ordinal = lowest.ordinal :=
    Nat.le_antisymm (hleast' lowest hin hopen) (hleast dependency hin' hopen')
  have hsame : dependency = lowest := by
    have hsameIdentity := (hidentity _ _ hfailedState).trans hlowest.symm
    cases lowest
    cases hsameIdentity
    cases hordinal
    rfl
  subst hsame
  obtain hprepared | hambiguous := hstate
  · rw [h.stateOf_unique hfailedState hprepared] at hfailed
    nomatch hfailed
  · rw [h.stateOf_unique hfailedState hambiguous] at hfailed
    nomatch hfailed

/-- When work waits for open dependencies only, and only then, the call is blocked. -/
theorem runNext_blocked_iff :
    (∃ next, runNext environment runtime = .done .blocked next) ↔
      (∃ dispatch ∈ runtime.dispatches, dispatch.state = .prepared) ∧
        ∀ dispatch ∈ runtime.dispatches, dispatch.state = .prepared →
          runtime.Waits dispatch.request.dependencies := by
  cases runNext_step h with
  | idle hnone houtcome =>
    refine ⟨fun ⟨next, hblocked⟩ => ?_, fun ⟨⟨dispatch, hmem, hprepared⟩, _⟩ => ?_⟩
    · nomatch (houtcome environment).symm.trans hblocked
    · exact absurd hprepared (hnone dispatch hmem)
  | blocked hwork hwaits houtcome =>
    exact ⟨fun _ => ⟨hwork, hwaits⟩, fun _ => ⟨runtime, houtcome environment⟩⟩
  | aborts i dispatch dependency last hdispatch hprepared hfails _ _ _ houtcome =>
    refine ⟨fun ⟨next, hblocked⟩ => ?_, fun ⟨_, hwaits⟩ => ?_⟩
    · nomatch (houtcome environment).symm.trans hblocked
    · have hexcluded := h.waits_excludes
        (hwaits dispatch (mem_of_getElem? hdispatch) hprepared)
      exact absurd hfails (hexcluded.2 dependency)
  | executes i dispatch hdispatch hprepared hready houtcome =>
    obtain ⟨_, _, -, -, -, hprogress⟩ := executes_ends h hdispatch hprepared environment
    refine ⟨fun ⟨next, hblocked⟩ => ?_, fun ⟨_, hwaits⟩ => ?_⟩
    · exact absurd rfl (hprogress _ next ((houtcome environment).symm.trans hblocked)).2
    · have hexcluded := h.waits_excludes
        (hwaits dispatch (mem_of_getElem? hdispatch) hprepared)
      exact absurd hready hexcluded.1

/-! ### Runs -/

/-- A call with work to do, and no ambiguity, leaves one prepared dispatch less. -/
theorem Inv.runNext_progress
    (hnone : ∀ dispatch ∈ runtime.dispatches, dispatch.state ≠ .ambiguous)
    (hwork : ∃ dispatch ∈ runtime.dispatches, dispatch.state = .prepared)
    (environment : Environment) :
    ∃ next, (runNext environment runtime).state? = some next ∧
      (∀ dispatch ∈ next.dispatches, dispatch.state ≠ .ambiguous) ∧
      next.preparedDispatches.length + 1 = runtime.preparedDispatches.length := by
  cases runNext_step h with
  | idle hidle =>
    obtain ⟨dispatch, hmem, hprepared⟩ := hwork
    exact absurd hprepared (hidle dispatch hmem)
  | blocked _ hwaits =>
    obtain ⟨dispatch, hmem, hprepared⟩ := hwork
    obtain ⟨other, hother, hambiguous⟩ := h.ambiguous_of_waits hwaits _ dispatch hmem hprepared rfl
    exact absurd hambiguous (hnone other hother)
  | aborts i dispatch dependency next hdispatch hprepared _ _ hends _ houtcome =>
    exact ⟨next, by rw [houtcome]; rfl, hends.unambiguous (by decide) hnone,
      hends.prepared hdispatch hprepared (by decide)⟩
  | executes i dispatch hdispatch hprepared _ houtcome =>
    obtain ⟨next, state, hnext, hends, hstate, -⟩ :=
      executes_ends h hdispatch hprepared environment
    have hends' : state ≠ .ambiguous ∧ state ≠ .prepared := by
      obtain rfl | rfl := hstate
      · decide
      · decide
    exact ⟨next, by rw [houtcome]; exact hnext, hends.unambiguous hends'.1 hnone,
      hends.prepared hdispatch hprepared hends'.2⟩

end

/-- Without ambiguity, as many calls as there are prepared dispatches leave none. -/
theorem Reachable.runs_out (environments : List Environment) (h : Reachable runtime)
    (hnone : ∀ dispatch ∈ runtime.dispatches, dispatch.state ≠ .ambiguous)
    (hlength : environments.length = runtime.preparedDispatches.length) :
    ∃ last, runtime.run (environments.map .runNext) = some last ∧
      ∀ environment, ∃ next, runNext environment last = .done .idle next := by
  induction environments generalizing runtime with
  | nil =>
    refine ⟨runtime, rfl, fun environment => (runNext_idle_iff h.inv).mpr ?_⟩
    intro dispatch hmem hprepared
    have hempty := length_eq_zero_iff.mp hlength.symm
    have hin : dispatch ∈ runtime.preparedDispatches :=
      mem_filter.mpr ⟨hmem, beq_iff_eq.mpr hprepared⟩
    rw [hempty] at hin
    nomatch hin
  | cons environment environments ih =>
    have hpositive : 0 < runtime.preparedDispatches.length := by
      rw [← hlength]
      exact Nat.zero_lt_succ _
    obtain ⟨dispatch, hin⟩ := exists_mem_of_length_pos hpositive
    obtain ⟨hmem, hprepared⟩ := mem_filter.mp hin
    obtain ⟨next, hnext, hnone', hless⟩ :=
      h.inv.runNext_progress hnone ⟨dispatch, hmem, eq_of_beq hprepared⟩ environment
    have hcall : (perform (.runNext environment) runtime).state? = some next :=
      state?_map.trans hnext
    have hshort : environments.length = next.preparedDispatches.length := by
      rw [length_cons] at hlength
      omega
    obtain ⟨last, hrun, hidle⟩ := ih (.call h hcall) hnone' hshort
    refine ⟨last, ?_, hidle⟩
    rw [map_cons, VirtualRuntime.run, hcall]
    exact hrun

/-- `runNext` in every reachable state: when it is idle, when it is blocked, and what it
    does otherwise; without ambiguity it reaches idle after one call for each prepared
    dispatch. -/
theorem runNext_follows_dependencies (h : Reachable runtime) :
    (∀ environment, (∃ next, runNext environment runtime = .done .idle next) ↔
      ∀ dispatch ∈ runtime.dispatches, dispatch.state ≠ .prepared) ∧
    (∀ environment, (∃ next, runNext environment runtime = .done .blocked next) ↔
      (∃ dispatch ∈ runtime.dispatches, dispatch.state = .prepared) ∧
        ∀ dispatch ∈ runtime.dispatches, dispatch.state = .prepared →
          runtime.Waits dispatch.request.dependencies) ∧
    (∀ environment, (¬ ∃ next, runNext environment runtime = .done .idle next) →
      (¬ ∃ next, runNext environment runtime = .done .blocked next) →
      ∃ next i dispatch later, (runNext environment runtime).state? = some next ∧
        Advances environment runtime next i dispatch later) ∧
    (∀ environments : List Environment,
      (∀ dispatch ∈ runtime.dispatches, dispatch.state ≠ .ambiguous) →
      environments.length = runtime.preparedDispatches.length →
      ∃ last, runtime.run (environments.map .runNext) = some last ∧
        ∀ environment, ∃ next, runNext environment last = .done .idle next) ∧
    (∀ environment next, runNext environment runtime = .done .blocked next →
      ∃ dispatch ∈ runtime.dispatches, dispatch.state = .ambiguous) := by
  refine ⟨fun _ => runNext_idle_iff h.inv, fun _ => runNext_blocked_iff h.inv,
    fun environment hbusy hfree => ?_, fun environments => h.runs_out environments,
    fun environment next hblocked => ?_⟩
  · have hwork : ∃ dispatch ∈ runtime.dispatches, dispatch.state = .prepared := by
      by_contra hnothing
      refine hbusy ((runNext_idle_iff h.inv).mpr fun dispatch hmem hprepared => ?_)
      exact hnothing ⟨dispatch, hmem, hprepared⟩
    refine (runNext_step h.inv).advances h.inv hwork (fun hwaits => ?_) environment
    exact hfree ((runNext_blocked_iff h.inv).mpr ⟨hwork, hwaits⟩)
  · obtain ⟨⟨dispatch, hmem, hprepared⟩, hwaits⟩ :=
      (runNext_blocked_iff h.inv).mp ⟨next, hblocked⟩
    exact h.inv.ambiguous_of_waits hwaits _ dispatch hmem hprepared rfl

/-- Two dispatches, the second of which depends on the first. -/
def chained : VirtualRuntime := after (sampleConfig 1)
  [.createQueue 2, .registerModule sampleModule,
    .submit bareEnvironment ⟨1, 1⟩ ⟨1, 2⟩ (plainRequest []),
    .submit bareEnvironment ⟨1, 1⟩ ⟨1, 2⟩ (plainRequest [⟨1, 3⟩])]

theorem chained_reachable : Reachable chained :=
  reachable_after ⟨by decide, rfl, rfl⟩ (by decide +kernel)

theorem runNext_follows_dependencies_chained :
    chained.preparedDispatches.length = 2 ∧
      ∃ last, chained.run [.runNext bareEnvironment, .runNext bareEnvironment] = some last ∧
        ∀ environment, ∃ next, runNext environment last = .done .idle next :=
  ⟨by decide +kernel, (runNext_follows_dependencies chained_reachable).2.2.2.1
    [bareEnvironment, bareEnvironment] (by decide +kernel) (by decide +kernel)⟩

end VirtualRuntime

end Fe2o3.Virtual
