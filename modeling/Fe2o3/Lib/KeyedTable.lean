import Fe2o3.Lib.Outcome

/-!
# Tables of keyed records

Lists in which a record is found by its key.

`lookup` returns the first record with a key, `amend` changes that record in
place, and new records go to the end.  `checkRows` runs a check on every record
together with the records before it; what it accepts is a property of every
single record and a relation between any two.
-/

namespace Fe2o3.Lib

open List hiding lookup lookup_append lookup_cons

variable {ρ κ ε : Type} [DecidableEq κ]

/-- The first record with key `k`. -/
def lookup (key : ρ → κ) (k : κ) (table : List ρ) : Option ρ :=
  table.find? fun record => decide (key record = k)

/-- The table in which the first record with key `k` is replaced by its image under `f`. -/
def amend (key : ρ → κ) (k : κ) (f : ρ → ρ) : List ρ → List ρ
  | [] => []
  | record :: rest =>
    if key record = k then f record :: rest else record :: amend key k f rest

/-- No two records have the same key. -/
def DistinctKeys (key : ρ → κ) (table : List ρ) : Prop :=
  table.Pairwise fun earlier later => key earlier ≠ key later

variable {key : ρ → κ} {k k' : κ} {f : ρ → ρ} {table : List ρ} {record new : ρ}

omit [DecidableEq κ] in
theorem distinctKeys_iff_map_nodup : DistinctKeys key table ↔ (table.map key).Nodup := by
  rw [List.Nodup, pairwise_map]
  exact Iff.rfl

/-! ### Looking up -/

theorem lookup_mem (h : lookup key k table = some record) : record ∈ table :=
  mem_of_find?_eq_some h

theorem lookup_key (h : lookup key k table = some record) : key record = k := by
  have hfound := find?_some h
  exact of_decide_eq_true hfound

theorem exists_of_lookup (h : lookup key k table = some record) :
    ∃ record ∈ table, key record = k :=
  ⟨record, lookup_mem h, lookup_key h⟩

theorem lookup_cons :
    lookup key k (new :: table) = if key new = k then some new else lookup key k table := by
  by_cases hk : key new = k
  · simp [lookup, hk]
  · simp [lookup, hk]

theorem exists_lookup_of_mem (h : record ∈ table) :
    ∃ found, lookup key (key record) table = some found := by
  cases hfound : lookup key (key record) table with
  | some found => exact ⟨found, rfl⟩
  | none =>
    have hnone := find?_eq_none.mp hfound record h
    exact absurd (decide_eq_true rfl) hnone

theorem isSome_lookup_of_mem (h : record ∈ table) : (lookup key (key record) table).isSome = true :=
  Option.isSome_iff_exists.mpr (exists_lookup_of_mem h)

theorem lookup_of_mem (hdistinct : DistinctKeys key table) (h : record ∈ table) :
    lookup key (key record) table = some record := by
  induction table with
  | nil => nomatch h
  | cons first rest ih =>
    obtain ⟨hfirst, hrest⟩ := pairwise_cons.mp hdistinct
    obtain rfl | h := mem_cons.mp h
    · rw [lookup_cons, if_pos rfl]
    · rw [lookup_cons, if_neg (hfirst record h)]
      exact ih hrest h

/-- With distinct keys, a record is what is found under its key. -/
theorem eq_of_lookup (hdistinct : DistinctKeys key table) {other : ρ} (h : record ∈ table)
    (hkey : k = key record) (hfound : lookup key k table = some other) : record = other := by
  rw [hkey, lookup_of_mem hdistinct h] at hfound
  exact Option.some.inj hfound

/-- With distinct keys, two records of one key are the same. -/
theorem eq_of_same_key (hdistinct : DistinctKeys key table) {other : ρ} (h : record ∈ table)
    (hother : other ∈ table) (hkey : key record = key other) : record = other :=
  eq_of_lookup hdistinct h hkey.symm (lookup_of_mem hdistinct hother)

theorem lookup_eq_none (h : ∀ record ∈ table, key record ≠ k) : lookup key k table = none := by
  apply find?_eq_none.mpr
  intro record hmem hkey
  exact h record hmem (of_decide_eq_true hkey)

/-! ### Appending -/

theorem lookup_append_of_some (h : lookup key k table = some record) :
    lookup key k (table ++ [new]) = some record := by
  rw [lookup, find?_append]
  unfold lookup at h
  rw [h]
  rfl

theorem lookup_append_new (h : ∀ record ∈ table, key record ≠ k) (hk : key new = k) :
    lookup key k (table ++ [new]) = some new := by
  have hnone := lookup_eq_none h
  unfold lookup at hnone ⊢
  rw [find?_append, hnone]
  simp [hk]

omit [DecidableEq κ] in
theorem length_append_le {bound : Nat} (h : table.length < bound) :
    (table ++ [new]).length ≤ bound := by
  rw [length_append]
  exact h

theorem lookup_append (h : lookup key k (table ++ [new]) = some record) :
    lookup key k table = some record ∨ record = new ∧ key new = k := by
  rw [lookup, find?_append, Option.or_eq_some_iff] at h
  refine h.imp_right fun ⟨_, hnew⟩ => ?_
  obtain rfl := mem_singleton.mp (mem_of_find?_eq_some hnew)
  exact ⟨rfl, lookup_key hnew⟩

omit [DecidableEq κ] in
theorem pairwise_append_new {R : ρ → ρ → Prop} (hpairs : table.Pairwise R)
    (h : ∀ record ∈ table, R record new) : (table ++ [new]).Pairwise R :=
  pairwise_append.mpr ⟨hpairs, pairwise_singleton .., fun record hmem =>
    forall_mem_singleton.mpr (h record hmem)⟩

omit [DecidableEq κ] in
theorem distinctKeys_append (hdistinct : DistinctKeys key table)
    (h : ∀ record ∈ table, key record ≠ key new) : DistinctKeys key (table ++ [new]) :=
  pairwise_append_new hdistinct h

variable {P : ρ → Prop}

omit [DecidableEq κ] in
theorem forall_mem_append_new (hold : ∀ record ∈ table, P record) (hnew : P new) :
    ∀ record ∈ table ++ [new], P record :=
  forall_mem_append.mpr ⟨hold, forall_mem_singleton.mpr hnew⟩

/-! ### Amending -/

/-- An amendment finds no record, or replaces one in its place. -/
theorem amend_cases (key : ρ → κ) (k : κ) (f : ρ → ρ) (table : List ρ) :
    lookup key k table = none ∧ amend key k f table = table ∨
      ∃ old before after, lookup key k table = some old ∧ (∀ other ∈ before, key other ≠ k) ∧
        table = before ++ old :: after ∧ amend key k f table = before ++ f old :: after := by
  induction table with
  | nil => exact .inl ⟨rfl, rfl⟩
  | cons first rest ih =>
    rw [lookup_cons, amend]
    by_cases hk : key first = k
    · rw [if_pos hk, if_pos hk]
      exact .inr ⟨first, [], rest, rfl, by simp, rfl, rfl⟩
    · rw [if_neg hk, if_neg hk]
      obtain ⟨hnone, hsame⟩ | ⟨old, before, after, hold, hbefore, htable, hamend⟩ := ih
      · exact .inl ⟨hnone, by rw [hsame]⟩
      · exact .inr ⟨old, first :: before, after, hold, forall_mem_cons.mpr ⟨hk, hbefore⟩,
          by rw [htable]; rfl, by rw [hamend]; rfl⟩

theorem length_amend : (amend key k f table).length = table.length := by
  obtain ⟨-, hsame⟩ | ⟨old, before, after, -, -, rfl, hamend⟩ := amend_cases key k f table
  · rw [hsame]
  · simp [hamend]

theorem map_amend_of_eq {τ : Type} {g : ρ → τ} (h : ∀ record, g (f record) = g record) :
    (amend key k f table).map g = table.map g := by
  obtain ⟨-, hsame⟩ | ⟨old, before, after, -, -, rfl, hamend⟩ := amend_cases key k f table
  · rw [hsame]
  · simp [hamend, h]

section

variable (hkey : ∀ record, key (f record) = key record)
include hkey

theorem lookup_amend :
    lookup key k' (amend key k f table) =
      if k' = k then (lookup key k table).map f else lookup key k' table := by
  induction table with
  | nil => simp [amend, lookup]
  | cons first rest ih =>
    rw [amend]
    by_cases hfirst : key first = k
    · rw [if_pos hfirst, lookup_cons, lookup_cons, lookup_cons, hkey, if_pos hfirst]
      by_cases hk : k' = k
      · rw [if_pos hk, if_pos (hfirst.trans hk.symm)]
        rfl
      · rw [if_neg hk]
        have hother : key first ≠ k' := fun h => hk (h.symm.trans hfirst)
        rw [if_neg hother, if_neg hother]
    · rw [if_neg hfirst, lookup_cons, ih, lookup_cons, lookup_cons, if_neg hfirst]
      by_cases hk : k' = k
      · rw [if_pos hk, if_pos hk, if_neg (fun h => hfirst (h.trans hk))]
      · rw [if_neg hk, if_neg hk]

theorem lookup_amend_self (h : lookup key k table = some record) :
    lookup key k (amend key k f table) = some (f record) := by
  rw [lookup_amend hkey, if_pos rfl, h]
  rfl

theorem lookup_amend_of_ne (hne : k' ≠ k) :
    lookup key k' (amend key k f table) = lookup key k' table := by
  rw [lookup_amend hkey, if_neg hne]

end

/-- A record of an amended table is the amended one or an old one with another key. -/
theorem mem_amend (hdistinct : DistinctKeys key table) (h : record ∈ amend key k f table) :
    record ∈ table ∧ key record ≠ k ∨ ∃ old, lookup key k table = some old ∧ record = f old := by
  obtain ⟨hnone, hsame⟩ | ⟨old, before, after, hold, hbefore, htable, hamend⟩ :=
    amend_cases key k f table
  · rw [hsame] at h
    exact .inl ⟨h, fun hk => of_decide_eq_false (by simpa using find?_eq_none.mp hnone _ h) hk⟩
  · rw [hamend] at h
    obtain h | h := mem_append.mp h
    · exact .inl ⟨by rw [htable]; exact mem_append_left _ h, hbefore record h⟩
    · obtain rfl | h := mem_cons.mp h
      · exact .inr ⟨old, hold, rfl⟩
      · rw [htable] at hdistinct
        have hlater := (pairwise_cons.mp (pairwise_append.mp hdistinct).2.1).1 record h
        rw [lookup_key hold] at hlater
        exact .inl ⟨by rw [htable]; simp [h], hlater.symm⟩

/-- Where a record was found there still is one: the same, or the amended one. -/
theorem lookup_amend_cases (hkey : ∀ record, key (f record) = key record)
    (h : lookup key k' table = some record) :
    k' ≠ k ∧ lookup key k' (amend key k f table) = some record ∨
      k' = k ∧ lookup key k' (amend key k f table) = some (f record) := by
  by_cases hk : k' = k
  · subst hk
    exact .inr ⟨rfl, lookup_amend_self hkey h⟩
  · exact .inl ⟨hk, by rw [lookup_amend_of_ne hkey hk, h]⟩

/-- A property of what was found, in the amended table. -/
theorem found_amend {C : Prop} (h : lookup key k' table = some record)
    (hsame : lookup key k' (amend key k f table) = some record → C)
    (hnew : k' = k → lookup key k' (amend key k f table) = some (f record) → C)
    (hkey : ∀ record, key (f record) = key record := by exact fun _ => rfl) : C := by
  obtain ⟨-, hfound⟩ | ⟨hk, hfound⟩ := lookup_amend_cases hkey h
  · exact hsame hfound
  · exact hnew hk hfound

theorem forall_mem_amend (h : ∀ record ∈ table, P record)
    (hnew : ∀ old, lookup key k table = some old → P old → P (f old)) :
    ∀ record ∈ amend key k f table, P record := by
  obtain ⟨-, hsame⟩ | ⟨old, before, after, hold, -, rfl, hamend⟩ := amend_cases key k f table
  · rwa [hsame]
  · rw [hamend]
    simp only [forall_mem_append, forall_mem_cons] at h ⊢
    exact ⟨h.1, hnew old hold h.2.1, h.2.2⟩

theorem mem_amend_of_mem (h : record ∈ table) :
    ∃ found ∈ amend key k f table, found = record ∨ found = f record := by
  obtain ⟨-, hsame⟩ | ⟨old, before, after, -, -, rfl, hamend⟩ := amend_cases key k f table
  · exact ⟨record, by rwa [hsame], .inl rfl⟩
  · rw [hamend]
    obtain h | rfl | h := by simpa using h
    · exact ⟨record, mem_append_left _ h, .inl rfl⟩
    · exact ⟨f record, by simp, .inr rfl⟩
    · exact ⟨record, by simp [h], .inl rfl⟩

/-- Two changes of one record are a single one. -/
theorem amend_amend {g : ρ → ρ} (hkey : ∀ record, key (f record) = key record) :
    amend key k g (amend key k f table) = amend key k (fun record => g (f record)) table := by
  induction table with
  | nil => rfl
  | cons first rest ih =>
    by_cases hfirst : key first = k
    · rw [amend, if_pos hfirst, amend, if_pos ((hkey first).trans hfirst), amend, if_pos hfirst]
    · rw [amend, if_neg hfirst, amend, if_neg hfirst, ih, amend, if_neg hfirst]

theorem exists_old_of_mem_amend (h : record ∈ amend key k f table)
    (hkey : ∀ record, key (f record) = key record) : ∃ old ∈ table, key old = key record := by
  have hmem := mem_map_of_mem (f := key) h
  rw [map_amend_of_eq hkey] at hmem
  exact mem_map.mp hmem

/-- An assignment of the value that is already there. -/
theorem amend_eq_self (h : lookup key k table = some record) (hf : f record = record) :
    amend key k f table = table := by
  obtain ⟨-, hsame⟩ | ⟨old, before, after, hold, -, htable, hamend⟩ := amend_cases key k f table
  · exact hsame
  · cases hold.symm.trans h
    rw [hamend, hf, htable]

/-- An amendment that adds no record with property `p` does not raise their number. -/
theorem length_filter_amend_le {p : ρ → Bool}
    (hp : ∀ record, lookup key k table = some record → p (f record) = true → p record = true) :
    ((amend key k f table).filter p).length ≤ (table.filter p).length := by
  obtain ⟨-, hsame⟩ | ⟨old, before, after, hold, -, htable, hamend⟩ := amend_cases key k f table
  · exact Nat.le_of_eq (by rw [hsame])
  · rw [hamend, htable, ← countP_eq_length_filter, ← countP_eq_length_filter,
      countP_append, countP_append, countP_cons, countP_cons]
    by_cases hnew : p (f old) = true
    · exact Nat.le_of_eq (by rw [if_pos hnew, if_pos (hp old hold hnew)])
    · rw [if_neg hnew]
      omega

omit [DecidableEq κ] in
/-- Two members of a list whose earlier members are related to the later ones. -/
theorem pairwise_cases {R : ρ → ρ → Prop} {other : ρ} (h : table.Pairwise R)
    (hrecord : record ∈ table) (hother : other ∈ table) :
    record = other ∨ R record other ∨ R other record := by
  have hsymm : Std.Symm fun left right => R left right ∨ R right left := ⟨fun _ _ => Or.symm⟩
  have hpairs : table.Pairwise fun left right => R left right ∨ R right left := h.imp Or.inl
  exact or_iff_not_imp_left.mpr (hpairs.forall hrecord hother)

/-- A relation between records that the amended one keeps on both sides, towards the records that
    are there. -/
theorem pairwise_amend_of_mem {R : ρ → ρ → Prop} (h : table.Pairwise R)
    (hleft : ∀ old other, lookup key k table = some old → other ∈ table → R old other →
      R (f old) other)
    (hright : ∀ old other, lookup key k table = some old → other ∈ table → R other old →
      R other (f old)) :
    (amend key k f table).Pairwise R := by
  obtain ⟨-, hsame⟩ | ⟨old, before, after, hold, -, htable, hamend⟩ := amend_cases key k f table
  · rwa [hsame]
  · have hmem : ∀ other ∈ before ++ after, other ∈ table := by
      intro other hother
      rw [htable]
      exact mem_append.mpr ((mem_append.mp hother).imp_right (mem_cons_of_mem _))
    rw [htable] at h
    rw [hamend]
    obtain ⟨hbefore, hpairs, hacross⟩ := pairwise_append.mp h
    obtain ⟨hafter, hpairs⟩ := pairwise_cons.mp hpairs
    refine pairwise_append.mpr ⟨hbefore, pairwise_cons.mpr ⟨fun other hother => ?_,
      hpairs⟩, fun other hother later hlater => ?_⟩
    · exact hleft old other hold (hmem other (mem_append_right _ hother)) (hafter other hother)
    · obtain rfl | hlater := mem_cons.mp hlater
      · exact hright old other hold (hmem other (mem_append_left _ hother))
          (hacross other hother old mem_cons_self)
      · exact hacross other hother later (mem_cons_of_mem _ hlater)

/-- A relation between records that the amended one keeps on both sides. -/
theorem pairwise_amend {R : ρ → ρ → Prop} (h : table.Pairwise R)
    (hleft : ∀ old other, lookup key k table = some old → R old other → R (f old) other)
    (hright : ∀ old other, lookup key k table = some old → R other old → R other (f old)) :
    (amend key k f table).Pairwise R :=
  pairwise_amend_of_mem h (fun old other hold _ => hleft old other hold)
    fun old other hold _ => hright old other hold

theorem distinctKeys_amend (hkey : ∀ record, key (f record) = key record)
    (h : DistinctKeys key table) : DistinctKeys key (amend key k f table) := by
  rw [distinctKeys_iff_map_nodup, map_amend_of_eq hkey, ← distinctKeys_iff_map_nodup]
  exact h

/-! ### Removing records -/

/-- With distinct keys, a record's key is among those of a selection exactly when it is selected. -/
theorem contains_key_filter {p : ρ → Bool} (hdistinct : DistinctKeys key table)
    (hmem : record ∈ table) : ((table.filter p).map key).contains (key record) = p record := by
  rw [Bool.eq_iff_iff, contains_iff_mem, mem_map]
  constructor
  · rintro ⟨other, hother, hkey⟩
    obtain ⟨hother, hp⟩ := mem_filter.mp hother
    rwa [eq_of_same_key hdistinct hother hmem hkey] at hp
  · intro hp
    exact ⟨record, mem_filter.mpr ⟨hmem, hp⟩, rfl⟩

/-- Removing the keys of a selection removes exactly the selected records. -/
theorem filter_not_contains_key {p : ρ → Bool} (hdistinct : DistinctKeys key table) :
    (table.filter fun record => !((table.filter p).map key).contains (key record)) =
      table.filter fun record => !p record := by
  apply filter_congr
  intro record hmem
  rw [contains_key_filter hdistinct hmem]

theorem lookup_filter {p : ρ → Bool} (hdistinct : DistinctKeys key table)
    (h : lookup key k table = some record) (hp : p record = true) :
    lookup key k (table.filter p) = some record := by
  have hmem : record ∈ table.filter p := mem_filter.mpr ⟨lookup_mem h, hp⟩
  have hfound := lookup_of_mem (hdistinct.sublist filter_sublist) hmem
  rwa [lookup_key h] at hfound

/-! ### Tables that agree on a part -/

theorem filter_amend {p : ρ → Bool} (h : lookup key k table = some record) (hp : p record = true) :
    (amend key k f table).filter p = (amend key k f (table.filter p)).filter p := by
  induction table with
  | nil => rfl
  | cons first rest ih =>
    rw [lookup_cons] at h
    by_cases hk : key first = k
    · rw [if_pos hk] at h
      cases h
      rw [filter_cons_of_pos hp, amend, amend, if_pos hk, if_pos hk, filter_cons,
        filter_cons, filter_filter]
      simp only [Bool.and_self]
    · rw [if_neg hk] at h
      have hrest := ih h
      rw [amend, if_neg hk]
      by_cases hfirst : p first = true
      · rw [filter_cons_of_pos hfirst, filter_cons_of_pos hfirst, amend, if_neg hk,
          filter_cons_of_pos hfirst, hrest]
      · rw [filter_cons_of_neg hfirst, filter_cons_of_neg hfirst, hrest]

section Part

variable {p : ρ → Bool} {other : List ρ}

theorem mem_iff_of_filter_eq (h : table.filter p = other.filter p) (hp : p record = true) :
    record ∈ table ↔ record ∈ other := by
  have hmem : record ∈ table.filter p ↔ record ∈ other.filter p := by rw [h]
  simpa [mem_filter, hp] using hmem

/-- A record of the part is found in both tables. -/
theorem lookup_of_filter_eq (h : table.filter p = other.filter p)
    (hdistinct : DistinctKeys key other) (hfound : lookup key k table = some record)
    (hp : p record = true) : lookup key k other = some record := by
  rw [← lookup_key hfound]
  exact lookup_of_mem hdistinct ((mem_iff_of_filter_eq h hp).mp (lookup_mem hfound))

/-- What concerns the part alone holds of both tables. -/
theorem forall_mem_iff_of_filter_eq (h : table.filter p = other.filter p)
    (hP : ∀ record, p record = false → P record) :
    (∀ record ∈ table, P record) ↔ ∀ record ∈ other, P record := by
  have hiff : ∀ record, (record ∈ table → P record) ↔ (record ∈ other → P record) := by
    intro record
    obtain hp | hp := Bool.eq_false_or_eq_true (p record)
    · rw [mem_iff_of_filter_eq h hp]
    · exact ⟨fun _ _ => hP record hp, fun _ _ => hP record hp⟩
  exact forall_congr' hiff

end Part

/-! ### Tables that only move on -/

/-- Every record that was found still is, in a form that is `R`-later. -/
def Evolves (key : ρ → κ) (R : ρ → ρ → Prop) (before after : List ρ) : Prop :=
  ∀ k record, lookup key k before = some record →
    ∃ later, lookup key k after = some later ∧ R record later

variable {R : ρ → ρ → Prop}

theorem Evolves.refl (hrefl : ∀ record, R record record) (table : List ρ) :
    Evolves key R table table :=
  fun _ record hfound => ⟨record, hfound, hrefl record⟩

theorem Evolves.trans {first second third : List ρ}
    (htrans : ∀ a b c, R a b → R b c → R a c) (h : Evolves key R first second)
    (h' : Evolves key R second third) : Evolves key R first third := by
  intro k record hfound
  obtain ⟨middle, hmiddle, hfirst⟩ := h k record hfound
  obtain ⟨last, hlast, hsecond⟩ := h' k middle hmiddle
  exact ⟨last, hlast, htrans _ _ _ hfirst hsecond⟩

theorem Evolves.mono {R' : ρ → ρ → Prop} {before after : List ρ} (h : Evolves key R before after)
    (hmono : ∀ record later, R record later → R' record later) : Evolves key R' before after := by
  intro k record hfound
  obtain ⟨later, hlater, hR⟩ := h k record hfound
  exact ⟨later, hlater, hmono record later hR⟩

/-- The two forms of a record that is found in both tables. -/
theorem Evolves.related {before after : List ρ} {record later : ρ} (h : Evolves key R before after)
    (hbefore : lookup key k before = some record) (hafter : lookup key k after = some later) :
    R record later := by
  obtain ⟨found, hfound, hR⟩ := h k record hbefore
  exact Option.mem_unique hfound hafter ▸ hR

theorem Evolves.keeps {before after : List ρ} {P : ρ → Prop} (h : Evolves key R before after)
    (hP : ∀ record later, R record later → P record → P later)
    (hbefore : ∃ record, lookup key k before = some record ∧ P record) :
    ∃ later, lookup key k after = some later ∧ P later := by
  obtain ⟨record, hfound, hrecord⟩ := hbefore
  obtain ⟨later, hlater, hR⟩ := h k record hfound
  exact ⟨later, hlater, hP record later hR hrecord⟩

theorem Evolves.append (hrefl : ∀ record, R record record) : Evolves key R table (table ++ [new]) :=
  fun _ record hfound => ⟨record, lookup_append_of_some hfound, hrefl record⟩

theorem Evolves.amend (hkey : ∀ record, key (f record) = key record)
    (hrefl : ∀ record, R record record)
    (hmove : ∀ record, lookup key k table = some record → R record (f record)) :
    Evolves key R table (amend key k f table) := by
  intro k' record hfound
  by_cases hk : k' = k
  · subst hk
    exact ⟨f record, lookup_amend_self hkey hfound, hmove record hfound⟩
  · exact ⟨record, (lookup_amend_of_ne hkey hk).trans hfound, hrefl record⟩

/-! ### Checks of a whole table -/

/-- Runs `check` on every record, with the records before it. -/
def checkRows (check : List ρ → ρ → Except ε Unit) : List ρ → List ρ → Except ε Unit
  | _, [] => .ok ()
  | earlier, record :: rest => do
    check earlier record
    checkRows check (earlier ++ [record]) rest

variable {check : List ρ → ρ → Except ε Unit}

omit [DecidableEq κ] in
theorem checkRows_append {earlier : List ρ} (h : checkRows check earlier table = .ok ())
    (hnew : check (earlier ++ table) new = .ok ()) :
    checkRows check earlier (table ++ [new]) = .ok () := by
  induction table generalizing earlier with
  | nil =>
    rw [append_nil] at hnew
    rw [nil_append, checkRows, seq_eq_ok]
    exact ⟨hnew, rfl⟩
  | cons first table ih =>
    rw [checkRows, seq_eq_ok] at h
    rw [cons_append, checkRows, seq_eq_ok]
    refine ⟨h.1, ih h.2 ?_⟩
    rwa [← append_cons]

/-- A table passes its checks when every record and every two records do. -/
theorem checkRows_ok
    (hcheck : ∀ earlier record, P record → (∀ other ∈ earlier, R other record) →
      check earlier record = .ok ())
    (hrows : ∀ record ∈ table, P record) (hpairs : table.Pairwise R) :
    checkRows check [] table = .ok () := by
  suffices h : ∀ rest earlier, (∀ record ∈ rest, P record) → (earlier ++ rest).Pairwise R →
      checkRows check earlier rest = .ok () from h table [] hrows hpairs
  intro rest
  induction rest with
  | nil =>
    intro earlier _ _
    rfl
  | cons record rest ih =>
    intro earlier hrows hpairs
    obtain ⟨hrecord, hrest⟩ := forall_mem_cons.mp hrows
    obtain ⟨-, -, hacross⟩ := pairwise_append.mp hpairs
    rw [checkRows, seq_eq_ok]
    constructor
    · exact hcheck earlier record hrecord fun other hother =>
        hacross other hother record (mem_cons_self ..)
    · apply ih (earlier ++ [record]) hrest
      rwa [← append_cons]

omit [DecidableEq κ] in
theorem checkRows_eq_ok
    (hcheck : ∀ earlier record, check earlier record = .ok () ↔ P record ∧ ∀ other ∈ earlier,
      R other record) :
    checkRows check [] table = .ok () ↔ (∀ record ∈ table, P record) ∧ table.Pairwise R := by
  refine ⟨fun h => ?_, fun ⟨hrows, hpairs⟩ => checkRows_ok (fun earlier record hP hR =>
    (hcheck earlier record).mpr ⟨hP, hR⟩) hrows hpairs⟩
  suffices hrows : ∀ rest earlier, checkRows check earlier rest = .ok () →
      (∀ record ∈ rest, P record ∧ ∀ other ∈ earlier, R other record) ∧ rest.Pairwise R by
    obtain ⟨hrows, hpairs⟩ := hrows table [] h
    exact ⟨fun record hmem => (hrows record hmem).1, hpairs⟩
  intro rest
  induction rest with
  | nil => exact fun _ _ => ⟨nofun, .nil⟩
  | cons record rest ih =>
    intro earlier h
    obtain ⟨hrecord, hrest⟩ := seq_eq_ok.mp h
    obtain ⟨hrows, hpairs⟩ := ih (earlier ++ [record]) hrest
    simp only [forall_mem_append, forall_mem_singleton] at hrows
    refine ⟨forall_mem_cons.mpr ⟨(hcheck earlier record).mp hrecord, fun r hr => ?_⟩,
      pairwise_cons.mpr ⟨fun r hr => (hrows r hr).2.2, hpairs⟩⟩
    exact ⟨(hrows r hr).1, (hrows r hr).2.1⟩

end Fe2o3.Lib
