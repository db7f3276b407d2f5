import Fe2o3.Lib.KeyedTable

/-!
# Finite histories as chains

A list of states in which each two neighbours are related.  A state is named by its
position; what a single step keeps holds at every position, and what is reflexive and
survives a step holds between any two.

The last part is about keyed tables that follow each other along such a chain.
-/

namespace Fe2o3.Lib

open List hiding lookup

section Chains

variable {σ : Type} {R : σ → σ → Prop} {states : List σ} {i j : Nat} {a b : σ}

theorem isChain_step (h : states.IsChain R) (ha : states[i]? = some a)
    (hb : states[i + 1]? = some b) : R a b := by
  obtain ⟨hi, rfl⟩ := List.getElem?_eq_some_iff.mp ha
  obtain ⟨hnext, rfl⟩ := List.getElem?_eq_some_iff.mp hb
  exact isChain_iff_getElem.mp h i hnext

/-- Induction on the position. -/
theorem isChain_induction {P : Nat → σ → Prop} (h : states.IsChain R)
    (hfirst : ∀ a, states[0]? = some a → P 0 a)
    (hstep : ∀ i a b, states[i]? = some a → states[i + 1]? = some b → R a b → P i a →
      P (i + 1) b) (ha : states[i]? = some a) : P i a := by
  induction i generalizing a with
  | zero => exact hfirst a ha
  | succ i ih =>
    have hi : i < states.length := by
      have := (List.getElem?_eq_some_iff.mp ha).1
      omega
    have hprevious := getElem?_eq_getElem hi
    exact hstep i _ a hprevious ha (isChain_step h hprevious ha) (ih hprevious)

/-- A relation that is reflexive and survives a step holds from any state to a later one. -/
theorem isChain_later {S : σ → σ → Prop} (h : states.IsChain R) (hrefl : ∀ a, S a a)
    (hstep : ∀ a b c, S a b → R b c → S a c) (hij : i ≤ j) (ha : states[i]? = some a)
    (hb : states[j]? = some b) : S a b := by
  obtain ⟨gap, rfl⟩ := Nat.exists_eq_add_of_le hij
  refine isChain_induction (P := fun _ b => S a b) (h.drop i)
    (fun b hfirst => ?_) (fun _ b c _ _ hbc hab => hstep a b c hab hbc) (i := gap)
    (by rw [getElem?_drop, hb])
  rw [getElem?_drop, Nat.add_zero, ha, Option.some.injEq] at hfirst
  exact hfirst ▸ hrefl a

end Chains

section Tables

variable {ρ κ : Type} [DecidableEq κ] {key : ρ → κ} {R : ρ → ρ → Prop} {before after : List ρ}

/-- A table that keeps every record and does not grow has no new one. -/
theorem exists_lookup_of_length_eq (h : Evolves key R before after)
    (hbefore : DistinctKeys key before) (hlength : before.length = after.length)
    {k : κ} {record : ρ} (hfound : lookup key k after = some record) :
    ∃ old, lookup key k before = some old ∧ R old record := by
  have hsub : before.map key ⊆ after.map key := by
    intro k' hk'
    obtain ⟨old, hold, rfl⟩ := mem_map.mp hk'
    obtain ⟨later, hlater, -⟩ := h _ old (lookup_of_mem hbefore hold)
    exact mem_map.mpr (exists_of_lookup hlater)
  have hperm := (List.Nodup.subperm (pairwise_map.mpr hbefore) hsub).perm_of_length_le
    (by simp [hlength])
  have hk : k ∈ before.map key :=
    hperm.mem_iff.mpr (mem_map.mpr (exists_of_lookup hfound))
  obtain ⟨old, hold, rfl⟩ := mem_map.mp hk
  have hlookup := lookup_of_mem hbefore hold
  exact ⟨old, hlookup, h.related hlookup hfound⟩

/-- A table in which no record can change and none can be new is the same table. -/
theorem lookup_of_fixed (h : Evolves key R before after)
    (hfixed : ∀ record ∈ before, ∀ later, key later = key record → R record later → later = record)
    (hold : ∀ record ∈ after, ∃ old, lookup key (key record) before = some old) (k : κ) :
    lookup key k after = lookup key k before := by
  cases hbefore : lookup key k before with
  | some record =>
    obtain ⟨later, hlater, hR⟩ := h k record hbefore
    rw [hlater, hfixed record (lookup_mem hbefore) later
      ((lookup_key hlater).trans (lookup_key hbefore).symm) hR]
  | none =>
    cases hafter : lookup key k after with
    | none => rfl
    | some record =>
      obtain ⟨old, hfound⟩ := hold record (lookup_mem hafter)
      rw [lookup_key hafter, hbefore] at hfound
      nomatch hfound

end Tables

end Fe2o3.Lib
