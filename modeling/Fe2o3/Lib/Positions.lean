import Fe2o3.Lib.KeyedTable

/-!
# Changing a table at a position

What `List.modify` does to membership, to distinct keys, to counts and to sums, when the
record at the position is known.
-/

namespace Fe2o3.Lib

open List

variable {ρ κ τ : Type} {key : ρ → κ} {f : ρ → ρ} {table : List ρ} {record other : ρ} {i j : Nat}

section

variable (h : table[i]? = some record)
include h

/-- A table around the record at a position, before and after a change there. -/
theorem modify_split : ∃ before after, table = before ++ record :: after ∧
      ∀ f : ρ → ρ, table.modify i f = before ++ f record :: after := by
  obtain ⟨hlt, hget⟩ := List.getElem?_eq_some_iff.mp h
  refine ⟨table.take i, table.drop (i + 1), ?_, fun f => ?_⟩
  · rw [← hget, cons_getElem_drop_succ, take_append_drop]
  · rw [modify_eq_take_cons_drop hlt, hget]

theorem getElem?_modify_self : (table.modify i f)[i]? = some (f record) := by
  rw [getElem?_modify, h]
  simp

theorem mem_modify_self : f record ∈ table.modify i f :=
  mem_of_getElem? (getElem?_modify_self h)

/-- A change that a projection does not see. -/
theorem map_modify_self {g : ρ → τ} (hnew : g (f record) = g record) :
    (table.modify i f).map g = table.map g := by
  obtain ⟨before, after, hsplit, hmodify⟩ := modify_split h
  rw [hmodify, hsplit, map_append, map_append, map_cons, map_cons, hnew]

/-- A change that a filter does not see. -/
theorem filter_modify {q : ρ → Bool} (hold : q record = false)
    (hnew : q (f record) = false) : (table.modify i f).filter q = table.filter q := by
  obtain ⟨before, after, hsplit, hmodify⟩ := modify_split h
  rw [hmodify, hsplit, filter_append, filter_append,
    filter_cons_of_neg (by simp [hnew]), filter_cons_of_neg (by simp [hold])]

theorem countP_modify {p : ρ → Bool} : (table.modify i f).countP p + (if p record then 1 else 0) =
      table.countP p + (if p (f record) then 1 else 0) := by
  obtain ⟨before, after, hsplit, hmodify⟩ := modify_split h
  rw [hmodify, hsplit]
  simp only [countP_append, countP_cons]
  omega

theorem sum_map_modify {g : ρ → Nat} :
    ((table.modify i f).map g).sum + g record = (table.map g).sum + g (f record) := by
  obtain ⟨before, after, hsplit, hmodify⟩ := modify_split h
  rw [hmodify, hsplit]
  simp only [map_append, map_cons, sum_append, sum_cons]
  omega

end

theorem getElem?_modify_of_ne (hne : i ≠ j) : (table.modify i f)[j]? = table[j]? := by
  rw [getElem?_modify]
  simp [hne]

/-- A position of a table with one more record. -/
theorem getElem?_append_one {new : ρ} (h : (table ++ [new])[i]? = some record) :
    table[i]? = some record ∨ i = table.length ∧ record = new := by
  obtain hlt | heq | hgt := Nat.lt_trichotomy i table.length
  · rw [getElem?_append_left hlt] at h
    exact .inl h
  · subst heq
    rw [getElem?_concat_length] at h
    exact .inr ⟨rfl, (Option.some.inj h).symm⟩
  · rw [getElem?_eq_none (by rw [length_append]; exact hgt)] at h
    nomatch h

/-- A record of a changed table is the changed one, or an old one with another key. -/
theorem mem_modify (hdistinct : DistinctKeys key table) (h : table[i]? = some record)
    (hother : other ∈ table.modify i f) :
    other ∈ table ∧ key other ≠ key record ∨ other = f record := by
  obtain ⟨before, after, hsplit, hmodify⟩ := modify_split h
  rw [hmodify] at hother
  rw [hsplit] at hdistinct ⊢
  obtain ⟨-, hafter, hbefore⟩ := pairwise_append.mp hdistinct
  obtain ⟨hafter, -⟩ := pairwise_cons.mp hafter
  obtain hother | hother := mem_append.mp hother
  · refine .inl ⟨mem_append_left _ hother, ?_⟩
    exact hbefore other hother record (mem_cons_self ..)
  · obtain rfl | hother := mem_cons.mp hother
    · exact .inr rfl
    · refine .inl ⟨mem_append_right _ (mem_cons_of_mem _ hother), ?_⟩
      exact (hafter other hother).symm

/-- A change that a projection follows. -/
theorem map_modify {g : ρ → τ} {f' : τ → τ} (h : ∀ x, g (f x) = f' (g x)) :
    (table.modify i f).map g = (table.map g).modify i f' := by
  apply ext_getElem?
  intro j
  rw [getElem?_map, getElem?_modify, getElem?_modify, getElem?_map]
  cases table[j]? with
  | none => rfl
  | some x =>
    by_cases hij : i = j
    · simp [hij, h]
    · simp [hij]

theorem map_modify_of_eq {g : ρ → τ} (h : ∀ x, g (f x) = g x) :
    (table.modify i f).map g = table.map g := by
  have hmap : (table.modify i f).map g = (table.map g).modify i id := map_modify h
  rw [hmap, modify_id]

/-- A position of the changed table holds the old record or its image. -/
theorem getElem?_modify_cases (h : (table.modify i f)[j]? = some other) :
    ∃ old, table[j]? = some old ∧ (other = old ∨ i = j ∧ other = f old) := by
  by_cases hij : i = j
  · subst hij
    rw [getElem?_modify, Option.map_eq_map, Option.map_eq_some_iff] at h
    obtain ⟨old, hold, hf⟩ := h
    refine ⟨old, hold, .inr ⟨rfl, ?_⟩⟩
    rw [← hf]
    simp
  · exact ⟨other, (getElem?_modify_of_ne hij).symm.trans h, .inl rfl⟩

/-- A record has its image at the same position. -/
theorem exists_getElem?_modify (h : table[j]? = some record) (i : Nat) :
    ∃ image, (table.modify i f)[j]? = some image ∧ (image = record ∨ i = j ∧ image = f record) := by
  by_cases hij : i = j
  · subst hij
    exact ⟨f record, getElem?_modify_self h, .inr ⟨rfl, rfl⟩⟩
  · exact ⟨record, (getElem?_modify_of_ne hij).trans h, .inl rfl⟩

/-- Records are never lost: each has an image in the changed table. -/
theorem exists_mem_modify (hother : other ∈ table) (i : Nat) :
    ∃ image ∈ table.modify i f, image = other ∨ image = f other := by
  obtain ⟨j, hj⟩ := getElem?_of_mem hother
  obtain ⟨image, himage, hcases⟩ := exists_getElem?_modify hj i
  exact ⟨image, mem_of_getElem? himage, hcases.imp_right And.right⟩

theorem distinctKeys_modify (hkey : ∀ x, key (f x) = key x) (h : DistinctKeys key table) :
    DistinctKeys key (table.modify i f) := by
  rw [distinctKeys_iff_map_nodup, map_modify_of_eq hkey, ← distinctKeys_iff_map_nodup]
  exact h

/-- With distinct keys, a record is at one position only. -/
theorem position_unique (hdistinct : DistinctKeys key table) (hi : table[i]? = some record)
    (hj : table[j]? = some other) (hkey : key record = key other) : i = j := by
  have hnodup := distinctKeys_iff_map_nodup.mp hdistinct
  obtain ⟨hlt, -⟩ := List.getElem?_eq_some_iff.mp hi
  apply (getElem?_inj (by simpa using hlt) hnodup).mp
  rw [getElem?_map, getElem?_map, hi, hj, Option.map_some, Option.map_some, hkey]

/-! ### Filters -/

theorem modify_append_cons (before : List ρ) {after : List ρ} :
    (before ++ record :: after).modify before.length f = before ++ f record :: after := by
  induction before with
  | nil => rfl
  | cons first before ih => exact congrArg (first :: ·) ih

/-- The first record of a filtered table, and what is left when it stops to fit. -/
theorem filter_eq_cons {p : ρ → Bool} {rest : List ρ} (h : table.filter p = record :: rest) :
    ∃ i, table[i]? = some record ∧ p record = true ∧
      ∀ f : ρ → ρ, p (f record) = false → (table.modify i f).filter p = rest := by
  obtain ⟨before, after, rfl, hbefore, hrecord, hafter⟩ := filter_eq_cons_iff.mp h
  refine ⟨before.length, by simp, hrecord, fun f hf => ?_⟩
  rw [modify_append_cons, filter_append, filter_cons_of_neg (by simp [hf]), hafter]
  rw [filter_eq_nil_iff.mpr hbefore, nil_append]

/-- Rows grouped by a key are all there, when the keys are different and none is missing. -/
theorem length_flatMap_filter [DecidableEq κ] (f : ρ → κ) (keys : List κ) (hkeys : keys.Nodup) :
    ∀ rows : List ρ, (∀ row ∈ rows, f row ∈ keys) →
      (keys.flatMap fun k => rows.filter fun row => f row == k).length = rows.length := by
  induction keys with
  | nil =>
    intro rows h
    cases rows with
    | nil => rfl
    | cons row rows => nomatch h row (mem_cons_self ..)
  | cons k keys ih =>
    intro rows h
    obtain ⟨hnew, hkeys⟩ := nodup_cons.mp hkeys
    -- The other keys see the rows that are left without `k`.
    have hrest : (keys.flatMap fun k' => rows.filter fun row => f row == k') =
        keys.flatMap fun k' => (rows.filter fun row => !(f row == k)).filter fun row =>
          f row == k' := by
      apply flatMap_congr
      intro k' hk'
      rw [filter_filter]
      apply filter_congr
      intro row _
      cases hrow : f row == k' with
      | false => rfl
      | true =>
        have hne : f row ≠ k := fun hk => hnew (hk ▸ (eq_of_beq hrow).symm ▸ hk')
        simp [hne]
    have hsplit := length_eq_length_filter_add (l := rows) fun row => f row == k
    rw [flatMap_cons, length_append, hrest, ih hkeys _ fun row hrow => ?_]
    · exact hsplit.symm
    · obtain ⟨hrow, hne⟩ := mem_filter.mp hrow
      obtain hk | hin := mem_cons.mp (h row hrow)
      · rw [hk, beq_self_eq_true] at hne
        nomatch hne
      · exact hin

/-! ### Changes at several positions -/

/-- The table in which the records at the given positions are replaced by their images. -/
def modifyAll (positions : List Nat) (f : ρ → ρ) (table : List ρ) : List ρ :=
  table.mapIdx fun i record => if i ∈ positions then f record else record

variable {positions : List Nat}

theorem getElem?_modifyAll :
    (modifyAll positions f table)[i]? =
      table[i]?.map fun record => if i ∈ positions then f record else record := by
  unfold modifyAll
  rw [getElem?_mapIdx]

theorem length_modifyAll : (modifyAll positions f table).length = table.length := by
  unfold modifyAll
  rw [length_mapIdx]

theorem modifyAll_nil : modifyAll [] f table = table := by
  apply ext_getElem?
  intro j
  rw [getElem?_modifyAll]
  simp

/-- One more position. -/
theorem modify_modifyAll {g : ρ → ρ} (hnew : i ∉ positions) (h : table[i]? = some record)
    (hg : g record = f record) :
    (modifyAll positions f table).modify i g = modifyAll (positions ++ [i]) f table := by
  apply ext_getElem?
  intro j
  rw [getElem?_modify, getElem?_modifyAll, getElem?_modifyAll]
  by_cases hij : i = j
  · subst hij
    rw [h]
    simp [hnew, hg]
  · simp [hij, Ne.symm hij]

theorem map_modifyAll_of_eq {g : ρ → τ} (h : ∀ x, g (f x) = g x) :
    (modifyAll positions f table).map g = table.map g := by
  apply ext_getElem?
  intro j
  rw [getElem?_map, getElem?_modifyAll, getElem?_map]
  cases table[j]? with
  | none => rfl
  | some x =>
    by_cases hj : j ∈ positions
    · simp [hj, h]
    · simp [hj]

/-! ### Two tables with the same keys -/

/-- Every entry has its record, which fits it, and there are no other records. -/
structure Paired [DecidableEq κ] (owned : τ → κ) (key : ρ → κ) (Fits : τ → ρ → Prop)
    (entries : List τ) (table : List ρ) : Prop where
  found : ∀ entry ∈ entries, ∃ record,
    lookup key (owned entry) table = some record ∧ Fits entry record
  owner : ∀ record ∈ table, ∃ entry ∈ entries, owned entry = key record

namespace Paired

variable [DecidableEq κ] {owned : τ → κ} {Fits : τ → ρ → Prop} {entries : List τ} {entry : τ}

theorem nil : Paired owned key Fits [] [] :=
  ⟨forall_mem_nil _, forall_mem_nil _⟩

section

variable (h : Paired owned key Fits entries table)
include h

theorem perm {others : List τ} (hperm : entries.Perm others) :
    Paired owned key Fits others table where
  found := fun entry hentry => h.found entry (hperm.mem_iff.mpr hentry)
  owner := fun record hrecord => by simpa only [hperm.mem_iff] using h.owner record hrecord

theorem mono {Fits' : τ → ρ → Prop}
    (hfits : ∀ entry record, Fits entry record → Fits' entry record) :
    Paired owned key Fits' entries table where
  found := fun entry hentry =>
    (h.found entry hentry).imp fun record => .imp_right (hfits entry record)
  owner := h.owner

/-- With distinct keys, a record fits the entry that owns it. -/
theorem fits (hdistinct : DistinctKeys key table) (hrecord : record ∈ table) :
    ∃ entry ∈ entries, owned entry = key record ∧ Fits entry record := by
  obtain ⟨entry, hentry, hkey⟩ := h.owner record hrecord
  obtain ⟨found, hfound, hfits⟩ := h.found entry hentry
  obtain rfl := eq_of_lookup hdistinct hrecord hkey hfound
  exact ⟨entry, hentry, hkey, hfits⟩

theorem append {new : ρ} (hfresh : ∀ record ∈ table, key record ≠ owned entry)
    (hkey : key new = owned entry) (hfits : Fits entry new) :
    Paired owned key Fits (entries ++ [entry]) (table ++ [new]) where
  found := forall_mem_append_new
    (fun other hother => (h.found other hother).imp fun _ => .imp_left lookup_append_of_some)
    ⟨new, lookup_append_new hfresh hkey, hfits⟩
  owner := forall_mem_append_new
    (fun record hrecord => (h.owner record hrecord).imp fun _ => .imp_left (mem_append_left _))
    ⟨entry, mem_append_right _ (mem_singleton_self entry), hkey.symm⟩

end

/-- The first entry and its record change together. -/
theorem amend {later : τ} (h : Paired owned key Fits (entry :: entries) table)
    (hapart : ∀ other ∈ entries, owned other ≠ owned entry) (hsame : owned later = owned entry)
    (hfits : ∀ record, Fits entry record → Fits later (f record))
    (hkey : ∀ record, key (f record) = key record := by exact fun _ => rfl) :
    Paired owned key Fits (later :: entries) (Lib.amend key (owned entry) f table) where
  found := by
    refine forall_mem_cons.mpr ⟨?_, fun other hother => ?_⟩
    · obtain ⟨record, hfound, hold⟩ := h.found entry mem_cons_self
      rw [hsame]
      exact ⟨f record, lookup_amend_self hkey hfound, hfits record hold⟩
    · rw [lookup_amend_of_ne hkey (hapart other hother)]
      exact h.found other (mem_cons_of_mem _ hother)
  owner := by
    intro record hrecord
    obtain ⟨old, hold, hrecord⟩ := exists_old_of_mem_amend hrecord hkey
    simpa only [mem_cons, exists_eq_or_imp, hsame, hrecord] using h.owner old hold

/-- The entry at a position and its record change together. -/
theorem modify {g : τ → τ} (h : Paired owned key Fits entries table)
    (hdistinct : DistinctKeys owned entries) (hentry : entries[i]? = some entry)
    (hsame : owned (g entry) = owned entry)
    (hfits : ∀ record, Fits entry record → Fits (g entry) (f record))
    (hkey : ∀ record, key (f record) = key record := by exact fun _ => rfl) :
    Paired owned key Fits (entries.modify i g) (Lib.amend key (owned entry) f table) := by
  obtain ⟨before, after, rfl, hmodify⟩ := modify_split hentry
  have hapart := (pairwise_cons.mp ((perm_middle.pairwise_iff Ne.symm).mp hdistinct)).1
  rw [hmodify]
  exact ((h.perm perm_middle).amend (fun other hother => (hapart other hother).symm) hsame hfits
    hkey).perm perm_middle.symm

end Paired

end Fe2o3.Lib
