import Fe2o3.Completion.Lifecycle

/-!
# Conservation of operation resources

Over any number of lifecycles and quarantines and any sequence of steps, the resources
held, handed out, destroyed and forgotten are together exactly the submitted ones, each
once.

`Change` says once what a step can do to a system; the invariant `Inv` is proved
for each of its cases, and from it the absence of failing `expect`s and the
result about whole runs.
-/

namespace Fe2o3.Completion

open List

/-! ### Counting in concatenated rows -/

variable {i t : Nat} {α : Type}

/-- Replacing one row moves the difference of the two rows. -/
theorem count_flatMap_set (f : α → List Nat) {rows : List α} {old new : α} (h : rows[i]? = some old)
    (t : Nat) :
    ((rows.set i new).flatMap f).count t + (f old).count t =
      (rows.flatMap f).count t + (f new).count t := by
  induction rows generalizing i with
  | nil => simp at h
  | cons row rows ih =>
    cases i with
    | zero =>
      obtain rfl : row = old := by simpa using h
      simp only [set_cons_zero, flatMap_cons, count_append]
      omega
    | succ i =>
      have := ih (by simpa using h)
      simp only [set_cons_succ, flatMap_cons, count_append]
      omega

/-! ### Tables of slots -/

section

variable {α : Type} {slots : List (Option α)} {i k : Nat} {old a : α} {new : Option α}

theorem lt_of_join (h : slots[k]?.join = some old) : k < slots.length :=
  (List.getElem?_eq_some_iff.mp (Option.join_eq_some_iff.mp h)).1

theorem set_join_self (h : slots[k]?.join = some old) : slots.set k (some old) = slots := by
  obtain ⟨hk, hold⟩ := List.getElem?_eq_some_iff.mp (Option.join_eq_some_iff.mp h)
  rw [← hold, set_getElem_self]

/-- A slot of a table in which a slot was written. -/
theorem join_getElem?_set (h : (slots.set k new)[i]?.join = some a) :
    i = k ∧ new = some a ∨ i ≠ k ∧ slots[i]?.join = some a := by
  rw [getElem?_set] at h
  split_ifs at h with hi hk
  · exact .inl ⟨hi.symm, h⟩
  · nomatch h
  · exact .inr ⟨Ne.symm hi, h⟩

/-- A slot of a table with one more slot. -/
theorem join_getElem?_append (h : ((slots ++ [new])[i]?).join = some a) :
    slots[i]?.join = some a ∨ i = slots.length ∧ new = some a := by
  rw [getElem?_append] at h
  split at h
  · exact .inl h
  · rcases hd : i - slots.length with _ | d
    · rw [hd] at h
      exact .inr ⟨by omega, by simpa using h⟩
    · rw [hd] at h
      simp at h

end

namespace System

variable {E : Type} {system : System E} {l : OperationLifecycle Nat E} {k : Nat}
  {q : BoundedQuarantine Nat} {j : Nat}

theorem setLifecycle_self (h : system.lifecycle k = some l) :
    system.setLifecycle k (some l) = system := by
  rw [setLifecycle, set_join_self h]

theorem setQuarantine_self (h : system.quarantine j = some q) :
    system.setQuarantine j (some q) = system := by
  rw [setQuarantine, set_join_self h]

/-! ### What a step can do -/

/-- The successful transfer of the resources of operation `k` to quarantine `j`. -/
def transfer (system : System E) (k j : Nat) (q : BoundedQuarantine Nat) (resources : Nat) :
    System E :=
  { (system.setLifecycle k (some ⟨none, .quarantined ⟨q.nextTicket⟩⟩)).setQuarantine j
      (some { entries := q.entries ++ [some resources], capacity := q.capacity
              nextTicket := q.nextTicket + 1 }) with
    issued := system.issued ++ [(j, k, ⟨q.nextTicket⟩)] }

inductive Change (system : System E) : System E → Prop where
  | nothing : Change system system
  | submit : Change system { system with
      lifecycles := system.lifecycles ++ [some (.submitted system.lifecycles.length)] }
  | newQuarantine (capacity : Nat) (h : capacity ≤ maxQuarantinedOperations) :
      Change system { system with
        quarantines := system.quarantines ++
          [some { entries := [], capacity, nextTicket := 0 }] }
  | advance (k : Nat) (l : OperationLifecycle Nat E) (h : system.lifecycle k = some l)
      (live : l.state.terminalState = none) (next : OperationState E) :
      Change system (system.setLifecycle k (some { l with state := next }))
  | transfer (k j : Nat) (l : OperationLifecycle Nat E) (q : BoundedQuarantine Nat)
      (resources : Nat) (h : system.lifecycle k = some l) (hq : system.quarantine j = some q)
      (live : l.state.terminalState = none) (hresources : l.resources = some resources)
      (space : q.entries.length < q.capacity) (ticket : q.nextTicket.toNat + 1 < 2 ^ 64) :
      Change system (system.transfer k j q resources)
  -- the resources of an operation are handed out, destroyed or forgotten
  | leave (k : Nat) (l : OperationLifecycle Nat E) (h : system.lifecycle k = some l)
      (slot : Option (OperationLifecycle Nat E)) (reclaimed destroyed forgotten : List Nat)
      (moved : l.resources.toList = reclaimed ++ destroyed ++ forgotten)
      (quiescent : reclaimed ++ destroyed ≠ [] → l.state.isQuiescent = true)
      (hslot : ∀ l' ∈ slot, reclaimed ≠ [] ∧ l' = { l with resources := none }) :
      Change system { system.setLifecycle k slot with
        reclaimed := system.reclaimed ++ reclaimed
        destroyed := system.destroyed ++ destroyed
        forgotten := system.forgotten ++ forgotten }
  | clear (j : Nat) (q : BoundedQuarantine Nat) (h : system.quarantine j = some q)
      (slot : Option (BoundedQuarantine Nat)) (released forgotten : List Nat)
      (moved : q.entries.filterMap (fun retained => retained) = released ++ forgotten)
      (hslot : ∀ q' ∈ slot, q' = { q with entries := [] }) :
      Change system { system.setQuarantine j slot with
        released := system.released ++ released
        forgotten := system.forgotten ++ forgotten }

/-! ### The invariant -/

def retainedBy : Option (OperationLifecycle Nat E) → List Nat
  | some l => l.resources.toList
  | none => []

def heldBy : Option (BoundedQuarantine Nat) → List Nat
  | some q => q.entries.filterMap (fun retained => retained)
  | none => []

/-- Every resource set, listed once for every place it is in. -/
def holdings (system : System E) : List Nat :=
  system.lifecycles.flatMap retainedBy ++ system.quarantines.flatMap heldBy ++ system.reclaimed ++
    system.released ++ system.destroyed ++ system.forgotten

/-- A ticket that was given out is below the next ticket of its quarantine. -/
def Fresh (system : System E) (entry : Nat × Nat × QuarantineTicket) : Prop :=
  entry.1 < system.quarantines.length ∧
    ∀ q, system.quarantine entry.1 = some q → entry.2.2.get.toNat < q.nextTicket.toNat

/-- What holds of every quarantine: its entries have resources and fit. -/
def Sound (q : BoundedQuarantine Nat) : Prop :=
  (∀ retained ∈ q.entries, retained.isSome = true) ∧
    q.entries.length ≤ q.capacity ∧ q.capacity ≤ maxQuarantinedOperations

structure Inv (system : System E) : Prop where
  own : ∀ k l, system.lifecycle k = some l →
    l.resources = some k ∨ (l.resources = none ∧ l.state.terminalState ≠ none)
  sound : ∀ j q, system.quarantine j = some q → Sound q
  conserved : ∀ t, system.holdings.count t = if t < system.lifecycles.length then 1 else 0
  fresh : ∀ entry ∈ system.issued, system.Fresh entry
  tickets : (system.issued.map (fun entry => (entry.1, entry.2.2))).Nodup

theorem inv_empty : Inv ({} : System E) := by
  refine ⟨?_, ?_, ?_, ?_, ?_⟩ <;> simp [lifecycle, quarantine, holdings]

/-! ### Every step is one of these changes -/

theorem onLifecycle_change {A : Type} (system : System E) (k : Nat)
    (method : OperationLifecycle Nat E → A × OperationLifecycle Nat E)
    (h : ∀ l, (method l).2 = l ∨
      (l.state.terminalState = none ∧ ∃ next, (method l).2 = { l with state := next })) :
    system.Change (system.onLifecycle k method) := by
  unfold onLifecycle
  split
  · rename_i l hl
    rcases h l with hsame | ⟨hlive, next, hnext⟩
    · rw [hsame, setLifecycle_self hl]
      exact .nothing
    · rw [hnext]
      exact .advance k l hl hlive next
  · exact .nothing

theorem transitionTo_cases (l : OperationLifecycle Nat E) (next : OperationState E) :
    (l.transitionTo next).2 = l ∨
      (l.state.terminalState = none ∧
        ∃ next', (l.transitionTo next).2 = { l with state := next' }) := by
  unfold OperationLifecycle.transitionTo
  split
  · exact .inl rfl
  · exact .inr ⟨by assumption, next, rfl⟩

theorem requestCancelWith_cases (l : OperationLifecycle Nat E) (request : Except Unit Unit) :
    (l.requestCancelWith request).2 = l ∨
      (l.state.terminalState = none ∧
        ∃ next, (l.requestCancelWith request).2 = { l with state := next }) := by
  unfold OperationLifecycle.requestCancelWith
  split
  · exact .inl rfl
  · split
    · exact .inl rfl
    · split
      · exact .inl rfl
      · exact .inr ⟨by assumption, .cancelRequested, rfl⟩

/-- A failed reservation changes the state of the lifecycle only. -/
theorem leak_change (hl : system.lifecycle k = some l) (hq : system.quarantine j = some q)
    (hlive : l.state.terminalState = none) (reason : LeakReason) :
    system.Change ((system.setLifecycle k (some { l with state := .leaked reason })).setQuarantine
      j (some q)) := by
  have hq' : (system.setLifecycle k (some { l with state := .leaked reason })).quarantine j =
      some q := hq
  rw [setQuarantine_self hq']
  exact .advance k l hl hlive _

theorem abandon_change (hinv : Inv system) (k j : Nat) (allocated : Bool) :
    ∃ next, system.abandon k j allocated = some next ∧ system.Change next := by
  unfold abandon
  split
  · rename_i l q hl hq
    cases hterminal : l.state.terminalState with
    | some terminal =>
      refine ⟨system, ?_, .nothing⟩
      rw [OperationLifecycle.abandonToQuarantine, hterminal]
      simp only [Option.map_some]
      rw [setLifecycle_self hl, setQuarantine_self hq]
    | none =>
      -- a lifecycle that is not terminal still has its resources
      have hresources : l.resources = some k := by
        rcases hinv.own k l hl with h | ⟨_, h⟩
        · exact h
        · exact absurd hterminal h
      obtain ⟨resources, state⟩ := l
      obtain rfl : resources = some k := hresources
      rw [OperationLifecycle.abandonToQuarantine, hterminal]
      unfold BoundedQuarantine.reserveTicket
      split_ifs with hfull hticket hallocated
      · exact ⟨_, rfl, leak_change hl hq hterminal .quarantineFull⟩
      · exact ⟨_, rfl, leak_change hl hq hterminal .quarantineTicketExhausted⟩
      · exact ⟨_, rfl, leak_change hl hq hterminal .quarantineAllocationFailed⟩
      · exact ⟨_, rfl, .transfer k j _ q k hl hq hterminal rfl (by omega) (by omega)⟩
  · exact ⟨system, rfl, .nothing⟩

theorem reclaim_change (system : System E) (k : Nat) : system.Change (system.reclaim k) := by
  unfold reclaim
  split
  · rename_i l hl
    have hsame := setLifecycle_self hl
    obtain ⟨resources, state⟩ := l
    cases state <;> cases resources <;> simp only [OperationLifecycle.reclaim, hsame] <;>
      first
      | exact .nothing
      | simpa [setLifecycle] using
          Change.leave k _ hl (some _) [_] [] [] rfl (fun _ => rfl) (by simp)
  · exact .nothing

theorem mapM_eq_some_of_isSome {entries : List (Retained Nat)}
    (h : ∀ retained ∈ entries, retained.isSome = true) :
    ∃ resources, entries.mapM (fun retained => retained) = some resources ∧
      entries = resources.map some := by
  induction entries with
  | nil => exact ⟨[], rfl, rfl⟩
  | cons entry entries ih =>
    obtain ⟨resources, hm, he⟩ := ih fun retained hr => h retained (.tail _ hr)
    obtain ⟨first, rfl⟩ := Option.isSome_iff_exists.mp (h entry (.head _))
    exact ⟨first :: resources, by simp [mapM_cons, hm], by rw [he]; rfl⟩

theorem release_change (hinv : Inv system) (j : Nat) :
    ∃ next, system.release j = some next ∧ system.Change next := by
  unfold release
  split
  · rename_i q hq
    obtain ⟨resources, hm, he⟩ := mapM_eq_some_of_isSome (hinv.sound j q hq).1
    refine ⟨_, ?_, .clear j q hq (some { q with entries := [] }) resources []
      (by simp [he, filterMap_map]) (by simp)⟩
    rw [BoundedQuarantine.releaseAfterStreamQuiescence, hm, append_nil]
    rfl
  · exact ⟨system, rfl, .nothing⟩

theorem dropLifecycle_change (system : System E) (k : Nat) :
    system.Change (system.dropLifecycle k) := by
  unfold dropLifecycle
  split
  · rename_i l hl
    cases hresources : l.resources with
    | none =>
      simp only [OperationLifecycle.drop, hresources]
      simpa [setLifecycle] using
        Change.leave k l hl none [] [] [] (by simp [hresources]) (by simp) (by simp)
    | some resources =>
      cases hquiescent : l.state.isQuiescent with
      | true =>
        simp only [OperationLifecycle.drop, hresources, hquiescent, if_true]
        simpa [setLifecycle] using
          Change.leave k l hl none [] [resources] [] (by simp [hresources]) (fun _ => hquiescent)
            (by simp)
      | false =>
        simp only [OperationLifecycle.drop, hresources, hquiescent, Bool.false_eq_true, if_false]
        simpa [setLifecycle] using
          Change.leave k l hl none [] [] [resources] (by simp [hresources]) (by simp) (by simp)
  · exact .nothing

/-- No `expect` of the source fails in a system that keeps the invariant, and every
    step is a `Change`. -/
theorem step_change (hinv : Inv system) (call : SystemCall E) :
    ∃ next, system.step call = some next ∧ system.Change next := by
  cases call with
  | submit => exact ⟨_, rfl, .submit⟩
  | newQuarantine capacity =>
    simp only [step, BoundedQuarantine.new]
    by_cases h : capacity > maxQuarantinedOperations
    · exact ⟨_, by rw [if_pos h], .nothing⟩
    · exact ⟨_, by rw [if_neg h], .newQuarantine capacity (by omega)⟩
  | requestCancelWith k request =>
    exact ⟨_, rfl, onLifecycle_change _ k _ (requestCancelWith_cases · request)⟩
  | complete k | fail k error | markStreamQuiesced k =>
    exact ⟨_, rfl, onLifecycle_change _ k _ (transitionTo_cases · _)⟩
  | abandonToQuarantine k j allocated => exact abandon_change hinv k j allocated
  | reclaim k => exact ⟨_, rfl, reclaim_change _ k⟩
  | releaseAfterStreamQuiescence j => exact release_change hinv j
  | dropLifecycle k => exact ⟨_, rfl, dropLifecycle_change _ k⟩
  | dropQuarantine j =>
    refine ⟨_, rfl, ?_⟩
    unfold dropQuarantine
    split
    · rename_i q hq
      simpa [setQuarantine] using Change.clear j q hq none [] _ rfl (by simp)
    · exact .nothing

/-! ### The invariant is kept -/

theorem count_holdings (t : Nat) : system.holdings.count t =
    (system.lifecycles.flatMap retainedBy).count t + (system.quarantines.flatMap heldBy).count t +
      system.reclaimed.count t + system.released.count t + system.destroyed.count t +
      system.forgotten.count t := by
  simp only [holdings, count_append]

theorem count_retained_setLifecycle (h : system.lifecycle k = some l)
    (new : Option (OperationLifecycle Nat E)) (t : Nat) :
    ((system.lifecycles.set k new).flatMap retainedBy).count t + l.resources.toList.count t =
      (system.lifecycles.flatMap retainedBy).count t + (retainedBy new).count t :=
  count_flatMap_set retainedBy (Option.join_eq_some_iff.mp h) t

theorem count_held_setQuarantine (h : system.quarantine j = some q)
    (new : Option (BoundedQuarantine Nat)) (t : Nat) :
    ((system.quarantines.set j new).flatMap heldBy).count t +
        (q.entries.filterMap (fun retained => retained)).count t =
      (system.quarantines.flatMap heldBy).count t + (heldBy new).count t :=
  count_flatMap_set heldBy (Option.join_eq_some_iff.mp h) t

variable {next : System E}

theorem terminalState_ne_none_of_isQuiescent {state : OperationState E}
    (h : state.isQuiescent = true) : state.terminalState ≠ none := by
  cases state <;> simp_all [OperationState.isQuiescent, OperationState.terminalState]

theorem fresh_setQuarantine (h : system.quarantine j = some q)
    (new : Option (BoundedQuarantine Nat))
    (hnew : ∀ q', new = some q' → q.nextTicket.toNat ≤ q'.nextTicket.toNat)
    {entry : Nat × Nat × QuarantineTicket} (hentry : system.Fresh entry) :
    (system.setQuarantine j new).Fresh entry := by
  refine ⟨by simpa [setQuarantine] using hentry.1, fun q' hq' => ?_⟩
  rcases join_getElem?_set hq' with ⟨hi, hq'⟩ | ⟨_, hq'⟩
  · exact Nat.lt_of_lt_of_le (hentry.2 q (hi ▸ h)) (hnew q' hq')
  · exact hentry.2 q' hq'

theorem toNat_nextTicket {ticket : UInt64} (h : ticket.toNat + 1 < 2 ^ 64) :
    (ticket + 1).toNat = ticket.toNat + 1 := by
  rw [UInt64.toNat_add, UInt64.toNat_one, Nat.mod_eq_of_lt h]

theorem Inv.eq_of_resources (hinv : Inv system) (hl : system.lifecycle k = some l)
    (ht : l.resources = some t) : k = t := by
  rcases hinv.own k l hl with h | ⟨h, _⟩
  · exact Option.mem_unique h ht
  · nomatch h.symm.trans ht

section

variable (h : system.Change next)
include h

section

variable (hinv : Inv system)
include hinv

/-- The holdings after a change are the holdings before it, and the resources of a
    submitted operation are new. -/
theorem Change.count_holdings (t : Nat) : next.holdings.count t =
      if t < next.lifecycles.length then 1 else 0 := by
  have hbefore := hinv.conserved t
  rw [System.count_holdings] at hbefore ⊢
  cases h with
  | nothing => exact hbefore
  | submit =>
    simp only [flatMap_append, count_append, flatMap_cons, flatMap_nil,
      retainedBy, OperationLifecycle.submitted, Option.toList_some, append_nil,
      length_append, length_cons, length_nil, count_singleton]
    by_cases ht : t = system.lifecycles.length
    · subst ht
      simp only [Nat.lt_irrefl, if_false] at hbefore
      simp
      omega
    · have hne : ¬ system.lifecycles.length = t := fun h => ht h.symm
      simp only [beq_iff_eq, hne, if_false]
      split_ifs at hbefore ⊢ <;> omega
  | newQuarantine capacity =>
    simpa [heldBy] using hbefore
  | advance k l hl _ state =>
    have := count_retained_setLifecycle hl (some { l with state }) t
    simp only [setLifecycle, length_set, retainedBy] at this ⊢
    omega
  | transfer k j l q resources hl hq _ hresources =>
    have hk := count_retained_setLifecycle hl (some ⟨none, .quarantined ⟨q.nextTicket⟩⟩) t
    have hj := count_held_setQuarantine hq (some { entries := q.entries ++ [some resources]
                                                   capacity := q.capacity
                                                   nextTicket := q.nextTicket + 1 }) t
    have hone : [some resources].filterMap (fun retained => retained) = [resources] := rfl
    simp only [hresources, retainedBy, heldBy, filterMap_append, count_append, hone,
      Option.toList_some, Option.toList_none, count_nil] at hk hj
    simp only [System.transfer, setLifecycle, setQuarantine, length_set]
    omega
  | leave k l hl slot reclaimed destroyed forgotten hmoved _ hslot =>
    have hk := count_retained_setLifecycle hl slot t
    have hnone : retainedBy slot = [] := by
      cases slot with
      | none => rfl
      | some l' => rw [(hslot l' rfl).2, retainedBy, Option.toList_none]
    simp only [hmoved, hnone, count_append, count_nil] at hk
    simp only [setLifecycle, length_set, count_append]
    omega
  | clear j q hq slot released forgotten hmoved hslot =>
    have hj := count_held_setQuarantine hq slot t
    have hnone : heldBy slot = [] := by
      cases slot with
      | none => rfl
      | some q' => rw [hslot q' rfl, heldBy, filterMap_nil]
    simp only [hmoved, hnone, count_append, count_nil] at hj
    refine Eq.trans ?_ hbefore
    simp only [setQuarantine, count_append]
    omega

theorem Change.own (i : Nat) (l' : OperationLifecycle Nat E) (hl' : next.lifecycle i = some l') :
    l'.resources = some i ∨ (l'.resources = none ∧ l'.state.terminalState ≠ none) := by
  cases h with
  | nothing | newQuarantine | clear => exact hinv.own i l' hl'
  | submit =>
    rcases join_getElem?_append hl' with h | ⟨rfl, h⟩
    · exact hinv.own i l' h
    · cases h
      exact .inl rfl
  | advance k l hl hlive state =>
    rcases join_getElem?_set hl' with ⟨rfl, ⟨⟩⟩ | ⟨_, h⟩
    · rcases hinv.own i l hl with h | ⟨_, h⟩
      · exact .inl h
      · exact absurd hlive h
    · exact hinv.own i l' h
  | transfer k j l q resources hl =>
    rcases join_getElem?_set hl' with ⟨rfl, ⟨⟩⟩ | ⟨_, h⟩
    · exact .inr ⟨rfl, by simp [OperationState.terminalState]⟩
    · exact hinv.own i l' h
  | leave k l hl slot reclaimed destroyed _ _ hquiescent hslot =>
    rcases join_getElem?_set hl' with ⟨_, h⟩ | ⟨_, h⟩
    · obtain ⟨hreclaimed, rfl⟩ := hslot l' h
      exact .inr ⟨rfl, terminalState_ne_none_of_isQuiescent (hquiescent (by simp [hreclaimed]))⟩
    · exact hinv.own i l' h

theorem Change.sound (i : Nat)
    (q' : BoundedQuarantine Nat) (hq' : next.quarantine i = some q') : Sound q' := by
  cases h with
  | nothing | submit | advance | leave => exact hinv.sound i q' hq'
  | newQuarantine capacity hcapacity =>
    rcases join_getElem?_append hq' with h | ⟨_, h⟩
    · exact hinv.sound i q' h
    · cases h
      exact ⟨by simp, Nat.zero_le _, hcapacity⟩
  | transfer k j l q resources hl hq _ _ hspace =>
    rcases join_getElem?_set hq' with ⟨rfl, ⟨⟩⟩ | ⟨_, h⟩
    · obtain ⟨hentries, _, hcapacity⟩ := hinv.sound _ q hq
      refine ⟨fun retained hr => ?_, by simp; omega, hcapacity⟩
      rcases mem_append.mp hr with hr | hr
      · exact hentries retained hr
      · obtain rfl := mem_singleton.mp hr
        rfl
    · exact hinv.sound i q' h
  | clear j q hq slot released forgotten _ hslot =>
    rcases join_getElem?_set hq' with ⟨_, h⟩ | ⟨_, h⟩
    · obtain rfl := hslot q' h
      exact ⟨by simp, Nat.zero_le _, (hinv.sound j q hq).2.2⟩
    · exact hinv.sound i q' h

theorem Change.fresh
    (entry : Nat × Nat × QuarantineTicket) (hentry : entry ∈ next.issued) : next.Fresh entry := by
  cases h with
  | nothing | submit | advance | leave => exact hinv.fresh entry hentry
  | newQuarantine capacity =>
    obtain ⟨hlt, hticket⟩ := hinv.fresh entry hentry
    refine ⟨by simp; omega, fun q hq => ?_⟩
    rcases join_getElem?_append hq with h | ⟨h, _⟩
    · exact hticket q h
    · omega
  | transfer k j l q resources hl hq _ _ _ hticket =>
    rcases mem_append.mp hentry with hentry | hentry
    · refine fresh_setQuarantine hq _ (fun q' hq' => ?_) (hinv.fresh entry hentry)
      obtain rfl := Option.some.inj hq'
      simp only [toNat_nextTicket hticket]
      omega
    · obtain rfl := mem_singleton.mp hentry
      refine ⟨by simpa [System.transfer, setLifecycle, setQuarantine] using lt_of_join hq,
        fun q' hq' => ?_⟩
      rcases join_getElem?_set hq' with ⟨_, ⟨⟩⟩ | ⟨hne, _⟩
      · simp only [toNat_nextTicket hticket]
        omega
      · exact absurd rfl hne
  | clear j q hq slot released forgotten _ hslot =>
    refine fresh_setQuarantine hq slot (fun q' hq' => ?_) (hinv.fresh entry hentry)
    rw [hslot q' hq']

theorem Change.tickets : (next.issued.map (fun entry => (entry.1, entry.2.2))).Nodup := by
  cases h with
  | transfer k j l q resources hl hq =>
    simp only [System.transfer, map_append, map_cons, map_nil]
    refine nodup_append.mpr ⟨hinv.tickets, by simp, fun a ha b hb => ?_⟩
    obtain rfl := mem_singleton.mp hb
    obtain ⟨entry, hentry, rfl⟩ := mem_map.mp ha
    intro heq
    simp only [Prod.mk.injEq] at heq
    have := (hinv.fresh entry hentry).2 q (heq.1 ▸ hq)
    rw [heq.2] at this
    exact Nat.lt_irrefl _ this
  | _ => exact hinv.tickets

theorem Change.inv : Inv next where
  own := h.own hinv
  sound := h.sound hinv
  conserved := h.count_holdings hinv
  fresh := h.fresh hinv
  tickets := h.tickets hinv

/-! ### What a change cannot do -/

/-- What a change hands back by `reclaim` or destroys belongs to a quiescent lifecycle. -/
theorem Change.quiescent (ht : t ∈ next.reclaimed ++ next.destroyed) :
    t ∈ system.reclaimed ++ system.destroyed ∨
      ∃ l, system.lifecycle t = some l ∧ l.state.isQuiescent = true := by
  cases h with
  | leave k l hl slot reclaimed destroyed forgotten hmoved hquiescent =>
    by_cases hold : t ∈ system.reclaimed ++ system.destroyed
    · exact .inl hold
    · have hleft : t ∈ reclaimed ++ destroyed := by
        simp only [setLifecycle, mem_append] at ht hold ⊢
        tauto
      have hresources : l.resources = some t := by
        rw [← Option.mem_toList, hmoved]
        exact mem_append_left _ hleft
      obtain rfl := hinv.eq_of_resources hl hresources
      exact .inr ⟨l, hl, hquiescent (ne_nil_of_mem hleft)⟩
  | _ => exact .inl ht

end

theorem Change.length_le : system.lifecycles.length ≤ next.lifecycles.length := by
  cases h <;> simp [setLifecycle, setQuarantine, System.transfer]

/-- A lifecycle that existed before a change and exists after it was there all the
    time, and kept its state if that was terminal. -/
theorem Change.terminal (hi : i < system.lifecycles.length) (l' : OperationLifecycle Nat E)
    (hl' : next.lifecycle i = some l') :
    ∃ l, system.lifecycle i = some l ∧ (l.state.terminalState ≠ none → l'.state = l.state) := by
  cases h with
  | nothing | newQuarantine | clear => exact ⟨l', hl', fun _ => rfl⟩
  | submit =>
    simp only [lifecycle, getElem?_append_left hi] at hl'
    exact ⟨l', hl', fun _ => rfl⟩
  | advance k l hl hlive state | transfer k j l q resources hl _ hlive =>
    rcases join_getElem?_set hl' with ⟨rfl, _⟩ | ⟨_, h⟩
    · exact ⟨l, hl, fun h => absurd hlive h⟩
    · exact ⟨l', h, fun _ => rfl⟩
  | leave k l hl slot _ _ _ _ _ hslot =>
    rcases join_getElem?_set hl' with ⟨rfl, h⟩ | ⟨_, h⟩
    · exact ⟨l, hl, fun _ => by rw [(hslot l' h).2]⟩
    · exact ⟨l', h, fun _ => rfl⟩

end

/-! ### Where the resources of an operation are -/

inductive Place where
  /-- Held by a lifecycle that may still be asked for it. -/
  | retained (operation : Nat)
  | quarantined (quarantine : Nat)
  | returned
  | destroyed
  | leaked
deriving DecidableEq

def lifecyclePlaces (t : Nat) (slot : Option (OperationLifecycle Nat E)) (k : Nat) : List Place :=
  match slot with
  | none => []
  | some l =>
    List.replicate (l.resources.toList.count t)
      (match l.state with
      | .leaked _ => .leaked
      | _ => .retained k)

def quarantinePlaces (t : Nat) (slot : Option (BoundedQuarantine Nat)) (j : Nat) : List Place :=
  List.replicate ((heldBy slot).count t) (.quarantined j)

/-- Every place the resources `t` are in, with repetitions. -/
def places (system : System E) (t : Nat) : List Place :=
  system.lifecycles.zipIdx.flatMap (fun slot => lifecyclePlaces t slot.1 slot.2) ++
    system.quarantines.zipIdx.flatMap (fun slot => quarantinePlaces t slot.1 slot.2) ++
    List.replicate (system.reclaimed.count t) .returned ++
    List.replicate (system.released.count t) .returned ++
    List.replicate (system.destroyed.count t) .destroyed ++
    List.replicate (system.forgotten.count t) .leaked

theorem length_flatMap_zipIdx (f : α → Nat → List Place) (g : α → List Nat) (t : Nat)
    (h : ∀ a k, (f a k).length = (g a).count t) (rows : List α) (start : Nat) :
    ((rows.zipIdx start).flatMap (fun slot => f slot.1 slot.2)).length =
      (rows.flatMap g).count t := by
  induction rows generalizing start with
  | nil => rfl
  | cons row rows ih =>
    simp only [zipIdx_cons, flatMap_cons, length_append, count_append, h,
      ih (start + 1)]

theorem length_places (system : System E) (t : Nat) :
    (system.places t).length = system.holdings.count t := by
  have hlifecycles := length_flatMap_zipIdx (lifecyclePlaces (E := E) t) retainedBy t
    (fun slot k => by cases slot <;> simp [lifecyclePlaces, retainedBy]) system.lifecycles 0
  have hquarantines := length_flatMap_zipIdx (quarantinePlaces t) heldBy t
    (fun slot j => by simp [quarantinePlaces]) system.quarantines 0
  simp only [places, length_append, length_replicate, hlifecycles, hquarantines,
    count_holdings]

theorem mem_places_retained (h : Place.retained k ∈ system.places t) :
    ∃ l, system.lifecycle k = some l ∧ l.resources = some t := by
  simp only [places, quarantinePlaces, mem_append, mem_flatMap, mem_replicate,
    reduceCtorEq, and_false, or_false, exists_false] at h
  obtain ⟨⟨slot, k'⟩, hslot, hmem⟩ := h
  rw [mem_zipIdx_iff_getElem?] at hslot
  cases slot with
  | none => nomatch hmem
  | some l =>
    obtain ⟨hcount, hplace⟩ := mem_replicate.mp hmem
    have hk : k = k' := by
      cases hstate : l.state <;> simp_all
    subst hk
    refine ⟨l, by rw [lifecycle, hslot]; rfl, ?_⟩
    have := count_pos_iff.mp (Nat.pos_of_ne_zero hcount)
    simpa using this

/-! ### Whole runs -/

theorem run_concat (calls : List (SystemCall E)) (call : SystemCall E) :
    System.run (calls ++ [call]) = (System.run calls).bind (·.step call) := by
  simp [System.run, Option.bind_eq_bind]

/-- Every run of the system goes through, and its last step is a change. -/
theorem run_inv (calls : List (SystemCall E)) :
    ∃ system, System.run calls = some system ∧ Inv system := by
  induction calls using List.reverseRecOn with
  | nil => exact ⟨{}, rfl, inv_empty⟩
  | append_singleton calls call ih =>
    obtain ⟨system, hrun, hinv⟩ := ih
    obtain ⟨next, hstep, hchange⟩ := step_change hinv call
    exact ⟨next, by rw [run_concat, hrun]; exact hstep, hchange.inv hinv⟩

variable {calls earlier later : List (SystemCall E)} {after before : System E}

theorem run_change {call : SystemCall E} (h : System.run (calls ++ [call]) = some next) :
    ∃ system, System.run calls = some system ∧ Inv system ∧ system.Change next := by
  obtain ⟨system, hrun, hinv⟩ := run_inv calls
  obtain ⟨next', hstep, hchange⟩ := step_change hinv call
  rw [run_concat, hrun, Option.bind_some, hstep] at h
  cases h
  exact ⟨system, hrun, hinv, hchange⟩

theorem run_quiescent {system : System E} (h : System.run calls = some system)
    (ht : t ∈ system.reclaimed ++ system.destroyed) :
    ∃ earlier before l, earlier <+: calls ∧ System.run earlier = some before ∧
      before.lifecycle t = some l ∧ l.state.isQuiescent = true := by
  induction calls using List.reverseRecOn generalizing system with
  | nil =>
    obtain rfl : ({} : System E) = system := Option.some.inj h
    simp at ht
  | append_singleton calls call ih =>
    obtain ⟨before, hrun, hinv, hchange⟩ := run_change h
    rcases hchange.quiescent hinv ht with ht | ⟨l, hl, hquiescent⟩
    · obtain ⟨earlier, before', l, hfront, hrest⟩ := ih hrun ht
      exact ⟨earlier, before', l, hfront.trans (prefix_append _ _), hrest⟩
    · exact ⟨calls, before, l, prefix_append _ _, hrun, hl, hquiescent⟩

/-- No lifecycle leaves the table, and a terminal state stays. -/
theorem run_terminal (hbefore : System.run earlier = some before)
    (hafter : System.run (earlier ++ later) = some after) :
    before.lifecycles.length ≤ after.lifecycles.length ∧
      ∀ k l l', before.lifecycle k = some l → l.state.terminalState ≠ none →
        after.lifecycle k = some l' → l'.state = l.state := by
  induction later using List.reverseRecOn generalizing after with
  | nil =>
    rw [append_nil, hbefore] at hafter
    cases hafter
    refine ⟨Nat.le_refl _, fun k l l' hl _ hl' => ?_⟩
    rw [Option.mem_unique hl hl']
  | append_singleton later call ih =>
    rw [← append_assoc] at hafter
    obtain ⟨middle, hrun, _, hchange⟩ := run_change hafter
    obtain ⟨hlength, hkept⟩ := ih hrun
    refine ⟨Nat.le_trans hlength hchange.length_le, fun k l l' hl hterminal hl' => ?_⟩
    obtain ⟨lmiddle, hlmiddle, hstate⟩ :=
      hchange.terminal (Nat.lt_of_lt_of_le (lt_of_join hl) hlength) l' hl'
    have hsame := hkept k l lmiddle hl hterminal hlmiddle
    rw [hstate (hsame ▸ hterminal), hsame]

end System

/-- Conservation of resources over every run of lifecycles that share quarantines. -/
theorem operation_resource_conservation {E : Type} (calls : List (SystemCall E)) :
    ∃ system, System.run calls = some system ∧
      (∀ t, t < system.lifecycles.length → ∃ place, system.places t = [place] ∧
        ∀ k, place = .retained k → k = t) ∧
      (∀ t ∈ system.reclaimed ++ system.destroyed, ∃ earlier before l, earlier <+: calls ∧
        System.run earlier = some before ∧ before.lifecycle t = some l ∧
        l.state.isQuiescent = true) ∧
      (∀ earlier before k l l', earlier <+: calls → System.run earlier = some before →
        before.lifecycle k = some l → l.state.terminalState ≠ none →
        system.lifecycle k = some l' → l'.state = l.state) ∧
      (∀ j q, system.quarantine j = some q →
        q.entries.length ≤ q.capacity ∧ q.capacity ≤ maxQuarantinedOperations) ∧
      (system.issued.map (fun entry => (entry.1, entry.2.2))).Nodup := by
  obtain ⟨system, hrun, hinv⟩ := System.run_inv calls
  refine ⟨system, hrun, fun t ht => ?_, fun t ht => System.run_quiescent hrun ht, ?_,
    fun j q hq => (hinv.sound j q hq).2, hinv.tickets⟩
  · have hlength : (system.places t).length = 1 := by
      rw [System.length_places, hinv.conserved, if_pos ht]
    obtain ⟨place, hplace⟩ := length_eq_one_iff.mp hlength
    refine ⟨place, hplace, ?_⟩
    rintro k rfl
    have hmem : System.Place.retained k ∈ system.places t := by
      rw [hplace]
      exact mem_singleton_self _
    obtain ⟨l, hl, hresources⟩ := System.mem_places_retained hmem
    exact hinv.eq_of_resources hl hresources
  · rintro earlier before k l l' ⟨later, rfl⟩ hbefore hl hterminal hl'
    exact (System.run_terminal hbefore hrun).2 k l l' hl hterminal hl'

end Fe2o3.Completion
