import Fe2o3.MemoryLifecycle.Validity

/-!
# What keeps the tables of a memory state lawful

The watermarks are treated apart from the records, since an identity is recorded after
its record was appended.  A checkpoint removes the records that are released.
-/

namespace Fe2o3.MemoryLifecycle

open Lib
open List hiding lookup
open RuntimeModel (VmKey)

variable {next : MemoryTables}

namespace MemoryTables

variable {tables : MemoryTables}

/-! ### Watermarks -/

/-- The tables after an identity was issued in a scope. -/
def issue (tables : MemoryTables) (scope : MemoryIssuedIdScope) (id : Nat) : MemoryTables :=
  if tables.identityDiscipline ≠ .monotonicNonReusable then tables
  else { tables with watermarks := MemoryLifecycleState.raise tables.watermarks scope id }

section Issue

variable {scope : MemoryIssuedIdScope} {id : Nat}

@[simp]
theorem identityDiscipline_issue :
    (tables.issue scope id).identityDiscipline = tables.identityDiscipline := by
  unfold MemoryTables.issue
  split <;> rfl

@[simp]
theorem vms_issue : (tables.issue scope id).vms = tables.vms := by
  unfold MemoryTables.issue
  split <;> rfl

@[simp]
theorem reservations_issue : (tables.issue scope id).reservations = tables.reservations := by
  unfold MemoryTables.issue
  split <;> rfl

@[simp]
theorem allocations_issue : (tables.issue scope id).allocations = tables.allocations := by
  unfold MemoryTables.issue
  split <;> rfl

@[simp]
theorem mappings_issue : (tables.issue scope id).mappings = tables.mappings := by
  unfold MemoryTables.issue
  split <;> rfl

@[simp]
theorem publications_issue : (tables.issue scope id).publications = tables.publications := by
  unfold MemoryTables.issue
  split <;> rfl

@[simp]
theorem scopes_issue : (tables.issue scope id).scopes = tables.scopes := by
  unfold MemoryTables.issue
  split <;> rfl

end Issue

theorem Fitting.issue (h : tables.Fitting) (scope : MemoryIssuedIdScope) (id : Nat) :
    (tables.issue scope id).Fitting := by
  unfold MemoryTables.issue
  split
  · exact h
  · exact { h with bounded := { h.bounded with } }

/-- The same watermarks, when no scope is lost and no identity is new. -/
theorem Marked.mono (h : tables.Marked)
    (hdiscipline : next.identityDiscipline = tables.identityDiscipline)
    (hwatermarks : next.watermarks = tables.watermarks) (hscopes : tables.scopes ⊆ next.scopes)
    (hidentities : next.identities ⊆ tables.identities) : next.Marked := by
  constructor
  · intro hreusable
    rw [hwatermarks]
    exact h.reusable (hdiscipline.symm.trans hreusable)
  · intro hmonotonic
    rw [hwatermarks]
    have hissued := h.monotonic (hdiscipline.symm.trans hmonotonic)
    exact ⟨hissued.ascending, hissued.positive,
      fun watermark hmem => hscopes (hissued.parents watermark hmem),
      fun entry hmem => hissued.covered entry (hidentities hmem)⟩

theorem map_of_map_eq {ρ κ τ : Type} {key : ρ → κ} {records others : List ρ}
    (h : records.map key = others.map key) (g : κ → τ) :
    records.map (fun record => g (key record)) = others.map fun record => g (key record) := by
  have hmap := congrArg (List.map g) h
  rw [map_map, map_map] at hmap
  exact hmap

/-- The same watermarks, when no key changes. -/
theorem Marked.of_keys (h : tables.Marked)
    (hdiscipline : next.identityDiscipline = tables.identityDiscipline)
    (hwatermarks : next.watermarks = tables.watermarks)
    (hvms : next.vms.map (·.key) = tables.vms.map (·.key))
    (hreservations : next.reservations.map (·.key) = tables.reservations.map (·.key))
    (hallocations : next.allocations.map (·.key) = tables.allocations.map (·.key))
    (hmappings : next.mappings.map (·.key) = tables.mappings.map (·.key))
    (hpublications : next.publications.map (·.key) = tables.publications.map (·.key)) :
    next.Marked := by
  have hscopes : next.scopes = tables.scopes := by
    unfold scopes
    rw [map_of_map_eq hvms MemoryIssuedIdScope.vaReservation,
      map_of_map_eq hvms MemoryIssuedIdScope.allocation,
      map_of_map_eq hallocations MemoryIssuedIdScope.mapping,
      map_of_map_eq hmappings MemoryIssuedIdScope.publication]
  have hidentities : next.identities = tables.identities := by
    unfold identities
    rw [map_of_map_eq hreservations fun key => (MemoryIssuedIdScope.vaReservation key.vm, key.id),
      map_of_map_eq hallocations fun key => (MemoryIssuedIdScope.allocation key.vm, key.id),
      map_of_map_eq hmappings fun key => (MemoryIssuedIdScope.mapping key.allocation, key.id),
      map_of_map_eq hpublications fun key => (MemoryIssuedIdScope.publication key.mapping, key.id)]
  apply h.mono hdiscipline hwatermarks
  · rw [hscopes]
    exact List.Subset.refl _
  · rw [hidentities]
    exact List.Subset.refl _

theorem scopes_mono (hvms : tables.vms ⊆ next.vms)
    (hallocations : tables.allocations ⊆ next.allocations)
    (hmappings : tables.mappings ⊆ next.mappings) : tables.scopes ⊆ next.scopes := by
  intro scope hscope
  simp only [scopes, mem_append, mem_map] at hscope ⊢
  obtain ((⟨vm, hmem, hscope⟩ | ⟨vm, hmem, hscope⟩) | ⟨allocation, hmem, hscope⟩) |
    ⟨mapping, hmem, hscope⟩ := hscope
  · exact .inl (.inl (.inl ⟨vm, hvms hmem, hscope⟩))
  · exact .inl (.inl (.inr ⟨vm, hvms hmem, hscope⟩))
  · exact .inl (.inr ⟨allocation, hallocations hmem, hscope⟩)
  · exact .inr ⟨mapping, hmappings hmem, hscope⟩

/-- The scope of every identity has its record. -/
theorem Fitting.scope_mem (h : tables.Fitting) {entry : MemoryIssuedIdScope × Nat}
    (hentry : entry ∈ tables.identities) : entry.1 ∈ tables.scopes := by
  simp only [identities, mem_append, mem_map] at hentry
  simp only [scopes, mem_append, mem_map]
  obtain ((⟨record, hmem, rfl⟩ | ⟨record, hmem, rfl⟩) | ⟨record, hmem, rfl⟩) |
    ⟨record, hmem, rfl⟩ :=
    hentry
  · obtain ⟨vm, hfits⟩ := h.reservations record hmem
    exact .inl (.inl (.inl ⟨vm, lookup_mem hfits.found, by rw [lookup_key hfits.found]⟩))
  · obtain ⟨vm, reservation, hfits⟩ := h.allocations record hmem
    exact .inl (.inl (.inr ⟨vm, lookup_mem hfits.vmFound, by rw [lookup_key hfits.vmFound]⟩))
  · obtain ⟨allocation, hallocation, hkey⟩ := h.exists_allocation hmem
    exact .inl (.inr ⟨allocation, hallocation, by rw [hkey]⟩)
  · obtain ⟨mapping, hmapping, hkey⟩ := h.exists_mapping hmem
    exact .inr ⟨mapping, hmapping, by rw [hkey]⟩

/-- The tables with a new record whose identity was recorded. -/
theorem Marked.issue (h : tables.Marked) {scope : MemoryIssuedIdScope} {id : Nat}
    (hfitting : next.Fitting) (hid : id ≠ 0)
    (hnext : tables.identityDiscipline = .monotonicNonReusable →
      ¬ Covered tables.watermarks scope id)
    (hscopes : tables.scopes ⊆ next.scopes := by exact List.Subset.refl _)
    (hidentities : ∀ entry, entry ∈ next.identities ↔
      entry = (scope, id) ∨ entry ∈ tables.identities := by
        simp only [identities, map_append, map_cons, map_nil, mem_append, mem_singleton]; tauto)
    (hdiscipline : next.identityDiscipline = tables.identityDiscipline := by rfl)
    (hwatermarks : next.watermarks = tables.watermarks := by rfl) :
    (next.issue scope id).Lawful := by
  refine ⟨hfitting.issue scope id, ?_⟩
  unfold MemoryTables.issue
  rw [hdiscipline]
  cases hcase : tables.identityDiscipline with
  | reusableGenerations =>
    rw [if_pos (by decide)]
    constructor
    · intro _
      rw [hwatermarks]
      exact h.reusable hcase
    · intro hmonotonic
      rw [hdiscipline, hcase] at hmonotonic
      nomatch hmonotonic
  | monotonicNonReusable =>
    rw [if_neg (not_not.mpr rfl), hwatermarks]
    have hissued := h.monotonic hcase
    have hscope : scope ∈ next.scopes := hfitting.scope_mem ((hidentities _).mpr (.inl rfl))
    have hgrown : Issued next.scopes tables.identities tables.watermarks :=
      { hissued with parents := fun watermark hmem => hscopes (hissued.parents watermark hmem) }
    have hraised := hgrown.raise hid hscope (hnext hcase)
    constructor
    · intro hreusable
      nomatch hreusable
    · intro _
      refine { hraised with covered := fun entry hmem => hraised.covered entry ?_ }
      exact mem_cons.mpr ((hidentities entry).mp hmem)

/-! ### Removing what is released -/

/-- The tables without released records.  A released reservation stays as long as an allocation on
    it does. -/
def compacted (tables : MemoryTables) : MemoryTables :=
  let allocations := tables.allocations.filter fun record => !(record.state == .released)
  let mappings := tables.mappings.filter fun record => !(record.state == .released)
  { tables with
    publications := tables.publications.filter fun record => !(record.state == .released)
    mappings := mappings
    allocations := allocations
    reservations := tables.reservations.filter fun record =>
      !(record.state == .released && tables.allocations.all fun allocation =>
        allocation.reservation != record.key || allocation.state == .released)
    watermarks := tables.watermarks.filter
      (MemoryLifecycleState.keepsWatermark (allocations.map MemoryAllocationRecord.key)
        (mappings.map MemoryMappingRecord.key)) }

theorem Fitting.compacted (h : tables.Fitting) : tables.compacted.Fitting :=
  { h with
    bounded :=
      { vms := h.bounded.vms
        reservations := (length_filter_le ..).trans h.bounded.reservations
        allocations := (length_filter_le ..).trans h.bounded.allocations
        mappings := (length_filter_le ..).trans h.bounded.mappings
        publications := (length_filter_le ..).trans h.bounded.publications }
    reservationKeys := h.reservationKeys.sublist filter_sublist
    reservations := fun reservation hmem => h.reservations reservation (mem_filter.mp hmem).1
    apart := h.apart.sublist filter_sublist
    allocationKeys := h.allocationKeys.sublist filter_sublist
    allocations := by
      intro allocation hmem
      obtain ⟨hmem, hlive⟩ := mem_filter.mp hmem
      obtain ⟨vm, reservation, hfits⟩ := h.allocations allocation hmem
      refine ⟨vm, reservation, { hfits with
        found := lookup_filter h.reservationKeys hfits.found ?_ }⟩
      have hreserved : reservation.state = .reserved := by
        apply hfits.reserved
        cases hstate : allocation.state with
        | live => rfl
        | released => simp [hstate] at hlive
      simp [hreserved]
    succeeds := h.succeeds.sublist filter_sublist
    exclusive := h.exclusive.sublist filter_sublist
    mappingKeys := h.mappingKeys.sublist filter_sublist
    mappings := by
      intro mapping hmem
      obtain ⟨hmem, hkept⟩ := mem_filter.mp hmem
      obtain ⟨allocation, vm, hfits⟩ := h.mappings mapping hmem
      refine ⟨allocation, vm, { hfits with found := lookup_filter h.allocationKeys hfits.found ?_ }⟩
      rw [hfits.live (by simpa using hkept)]
      rfl
    publicationKeys := h.publicationKeys.sublist filter_sublist
    publications := by
      intro publication hmem
      obtain ⟨hmem, hkept⟩ := mem_filter.mp hmem
      obtain ⟨mapping, hfits⟩ := h.publications publication hmem
      refine ⟨mapping, { hfits with found := lookup_filter h.mappingKeys hfits.found ?_ }⟩
      have hmapped : mapping.state = .mapped := by
        apply hfits.mapped
        cases hstate : publication.state with
        | live => rfl
        | released => simp [hstate] at hkept
      rw [hmapped]
      rfl }

theorem identities_compacted : tables.compacted.identities ⊆ tables.identities := by
  intro entry hentry
  simp only [identities, compacted, mem_append, mem_map, mem_filter] at hentry ⊢
  obtain ((⟨record, hmem, rfl⟩ | ⟨record, hmem, rfl⟩) | ⟨record, hmem, rfl⟩) |
    ⟨record, hmem, rfl⟩ :=
    hentry
  · exact .inl (.inl (.inl ⟨record, hmem.1, rfl⟩))
  · exact .inl (.inl (.inr ⟨record, hmem.1, rfl⟩))
  · exact .inl (.inr ⟨record, hmem.1, rfl⟩)
  · exact .inr ⟨record, hmem.1, rfl⟩

/-- A watermark stays exactly when the record of its scope does. -/
theorem keepsWatermark_iff {watermark : MemoryIssuedIdHighWatermark}
    (hscope : watermark.scope ∈ tables.scopes) :
    MemoryLifecycleState.keepsWatermark
    (tables.compacted.allocations.map MemoryAllocationRecord.key)
        (tables.compacted.mappings.map MemoryMappingRecord.key) watermark = true ↔
      watermark.scope ∈ tables.compacted.scopes := by
  obtain ⟨scope, lastId⟩ := watermark
  unfold MemoryLifecycleState.keepsWatermark
  simp only [scopes, mem_append, mem_map] at hscope ⊢
  cases scope with
  | vaReservation vm =>
    simp only [reduceCtorEq, and_false, exists_false, or_false, true_iff] at hscope ⊢
    exact hscope
  | allocation vm =>
    simp only [reduceCtorEq, and_false, exists_false, or_false, false_or, true_iff] at hscope ⊢
    exact hscope
  | mapping allocation => simp
  | publication mapping => simp

theorem Lawful.compacted (h : tables.Lawful) : tables.compacted.Lawful := by
  have hfitting := h.toFitting.compacted
  refine ⟨hfitting, fun hreusable => ?_, fun hmonotonic => ?_⟩
  · have hnone : tables.watermarks = [] := h.reusable hreusable
    show tables.watermarks.filter _ = []
    rw [hnone]
    rfl
  · have hissued := h.monotonic hmonotonic
    refine ⟨hissued.ascending.sublist filter_sublist,
      fun watermark hmem => hissued.positive watermark (mem_filter.mp hmem).1,
      fun watermark hmem => ?_, fun entry hentry => ?_⟩
    · obtain ⟨hmem, hkept⟩ := mem_filter.mp hmem
      exact (keepsWatermark_iff (hissued.parents watermark hmem)).mp hkept
    · obtain ⟨watermark, hmem, hscope, hle⟩ := hissued.covered entry (identities_compacted hentry)
      refine ⟨watermark, mem_filter.mpr ⟨hmem, ?_⟩, hscope, hle⟩
      apply (keepsWatermark_iff (hissued.parents watermark hmem)).mpr
      rw [hscope]
      exact hfitting.scope_mem hentry

end MemoryTables

end Fe2o3.MemoryLifecycle
